import PolicyCheck.Proofs.Host.Spared

/-!
# Workspaces that leave nothing behind

The private directory is made where nothing stands and taken out at the end. Everything that a run does in
the directory for temporary files lies below it: the directories of the workspace are its own or are named
by the settings and lie elsewhere, and an interpreter is given no others.
-/

namespace PolicyCheck

namespace Interpreter

open FilePath (Plain)

/-- The directories that the settings name. If output is discarded, no output directory counts. -/
def Settings.named (s : Settings) : List FilePath :=
  (if s.discards then [] else s.outputDir?.toList) ++ s.includeDir?.toList ++ s.factDir?.toList ++
    s.libraryDir?.toList

namespace Workspace

open PolicyCheck.Action Host

variable {b : Behaviour} {area root : Place} {name : String} {dir : FilePath} {s : Settings} {w : Workspace}

def directories (w : Workspace) : List FilePath :=
  w.outputDir?.toList ++ [w.includeDir, w.factDir, w.libraryDir]

/-- The path is absolute and leads below the private directory or to a place outside the area. -/
structure Apart (b : Behaviour) (area root : Place) (dir : FilePath) : Prop where
  absolute : dir.isAbsolute = true
  apart : root <+: dir.place ∨ b.Outside area dir.place

theorem Apart.spared (hdir : Apart b area root dir) (harea : area <+: dir.place) : root <+: dir.place :=
  hdir.apart.resolve_right fun houtside => houtside.apart harea

theorem place_entryPath (hroot : ∀ name ∈ root, Plain name) (hname : Plain name) :
    (entryPath root name).place = root ++ [name] :=
  FilePath.place_ofNames (List.forall_mem_append.2 ⟨hroot, List.forall_mem_singleton.2 hname⟩)

theorem apart_entryPath (hroot : ∀ name ∈ root, Plain name) (hname : Plain name) :
    Apart b area root (entryPath root name) := by
  refine ⟨entryPath_isAbsolute root name, .inl ?_⟩
  rw [place_entryPath hroot hname]
  exact List.prefix_append root [name]

/-! ### Laying out -/

theorem spares_layDir (hroot : ∀ name ∈ root, Plain name) (hout : ¬ root <+: area) (hname : Plain name)
    (named? : Option FilePath) : (layDir root named? name).Spares b area root := by
  have hentry : Apart b area root (entryPath root name) := apart_entryPath hroot hname
  cases named? with
  | some p => exact spares_ask _
  | none => exact (spares_makeDirectory hentry.absolute hentry.spared).bind hout fun _ _ => spares_pure _

theorem spares_findLibrary (named? : Option FilePath) : (findLibrary root named?).Spares b area root := by
  cases named? with
  | some p => exact spares_ask _
  | none => exact spares_pure _

theorem spares_layOut (hroot : ∀ name ∈ root, Plain name) (hout : ¬ root <+: area) (s : Settings) :
    (layOut root s).Spares b area root := by
  rw [layOut_eq]
  refine Spares.bind hout ?_ fun _ _ => ?_
  · split
    · exact spares_pure none
    · exact (spares_layDir hroot hout plain_output _).map some
  · exact (spares_layDir hroot hout plain_include _).bind hout fun _ _ =>
      (spares_layDir hroot hout plain_facts _).bind hout fun _ _ =>
        (spares_findLibrary _).bind hout fun _ _ => spares_pure _

/-! ### The directories of a workspace -/

theorem apart_absolute {h : Host} {p : FilePath} (hp : b.Outside area (h.absolute p).place) :
    Apart b area root (h.absolute p) :=
  ⟨FilePath.isAbsolute_join_left p (FilePath.ofNames_isAbsolute _), .inr hp⟩

theorem apart_of_layDir {h h' : Host} {named? : Option FilePath} (hroot : ∀ name ∈ root, Plain name)
    (hname : Plain name) (hnamed : ∀ p ∈ named?, b.Outside area (h.absolute p).place)
    (hlay : (layDir root named? name).on h = (.ok dir, h')) :
    Apart b area root dir ∧ h'.directory = h.directory := by
  cases named? with
  | some p =>
    obtain ⟨hdir, rfl⟩ := Prod.mk.inj hlay
    obtain ⟨-, rfl⟩ := resolve_eq_ok_iff.1 hdir
    exact ⟨apart_absolute (hnamed p rfl), rfl⟩
  | none =>
    rw [on_layDir_own] at hlay
    split at hlay
    · obtain ⟨hdir, rfl⟩ := Prod.mk.inj hlay
      obtain rfl := Except.ok.inj hdir
      exact ⟨apart_entryPath hroot hname, rfl⟩
    · cases hlay

theorem apart_of_output {h h' : Host} {outputDir? : Option FilePath} (hroot : ∀ name ∈ root, Plain name)
    (hnamed : ∀ p ∈ s.named, b.Outside area (h.absolute p).place)
    (hlay : (if s.discards then pure none else some <$> layDir root s.outputDir? "output" :
      Action IoError (Option FilePath)).on h = (.ok outputDir?, h')) :
    (∀ dir ∈ outputDir?, Apart b area root dir) ∧ h'.directory = h.directory := by
  by_cases hdiscards : s.discards = true
  · rw [if_pos hdiscards] at hlay
    obtain ⟨rfl, rfl⟩ := on_pure_eq_ok.1 hlay
    exact ⟨nofun, rfl⟩
  · rw [if_neg hdiscards, on_map] at hlay
    obtain ⟨hmap, rfl⟩ := Prod.mk.inj hlay
    obtain ⟨dir, hdir, rfl⟩ := map_eq_ok_iff.1 hmap
    have hown := apart_of_layDir hroot plain_output
      (fun p hp => hnamed p (by simp [Settings.named, hdiscards, Option.mem_def.1 hp])) (Prod.ext hdir rfl)
    exact ⟨fun _ hmem => Option.some.inj hmem ▸ hown.1, hown.2⟩

theorem absolute_congr {h h' : Host} (hdirectory : h'.directory = h.directory) : h'.absolute = h.absolute := by
  funext p
  rw [Host.absolute, Host.absolute, hdirectory]

/-- A workspace lies in the private directory and uses directories in it and those that the settings name. -/
theorem apart_of_layOut {h h' : Host} (hroot : ∀ name ∈ root, Plain name)
    (hnamed : ∀ p ∈ s.named, b.Outside area (h.absolute p).place)
    (hlay : (layOut root s).on h = (.ok w, h')) :
    w.root = root ∧ ∀ dir ∈ w.directories, Apart b area root dir := by
  rw [layOut_eq] at hlay
  obtain ⟨outputDir?, h₁, houtput, hlay⟩ := on_bind_eq_ok.1 hlay
  obtain ⟨includeDir, h₂, hinclude, hlay⟩ := on_bind_eq_ok.1 hlay
  obtain ⟨factDir, h₃, hfacts, hlay⟩ := on_bind_eq_ok.1 hlay
  obtain ⟨libraryDir, h₄, hfind, hlay⟩ := on_bind_eq_ok.1 hlay
  obtain ⟨hw, rfl⟩ := Prod.mk.inj hlay
  obtain rfl := Except.ok.inj hw
  obtain ⟨hout, hfirst⟩ := apart_of_output hroot hnamed houtput
  have hincludeDir : Apart b area root includeDir ∧ h₂.directory = h₁.directory := by
    refine apart_of_layDir hroot plain_include (fun p hp => ?_) hinclude
    rw [absolute_congr hfirst]
    exact hnamed p (by simp [Settings.named, Option.mem_def.1 hp])
  have hsecond := hincludeDir.2.trans hfirst
  have hfactDir : Apart b area root factDir ∧ h₃.directory = h₂.directory := by
    refine apart_of_layDir hroot plain_facts (fun p hp => ?_) hfacts
    rw [absolute_congr hsecond]
    exact hnamed p (by simp [Settings.named, Option.mem_def.1 hp])
  have hlibrary : Apart b area root libraryDir := by
    obtain ⟨hfound, -⟩ := Prod.mk.inj hfind
    cases hp : s.libraryDir? with
    | some p =>
      rw [hp] at hfound
      obtain ⟨-, rfl⟩ := resolve_eq_ok_iff.1 hfound
      rw [absolute_congr (hfactDir.2.trans hsecond)]
      exact apart_absolute (hnamed p (by simp [Settings.named, hp]))
    | none =>
      rw [hp] at hfound
      obtain rfl := Except.ok.inj hfound
      have hplace : root = (FilePath.ofNames root).place := (FilePath.place_ofNames hroot).symm
      exact ⟨FilePath.ofNames_isAbsolute root, .inl (hplace ▸ List.prefix_refl _)⟩
  refine ⟨rfl, fun dir hdir => ?_⟩
  rw [directories, List.mem_append, Option.mem_toList] at hdir
  rcases hdir with hdir | hdir
  · exact hout dir hdir
  · simp only [List.mem_cons, List.not_mem_nil, or_false] at hdir
    rcases hdir with rfl | rfl | rfl
    · exact hincludeDir.1
    · exact hfactDir.1
    · exact hlibrary

/-! ### Using a workspace -/

theorem spares_stageInclude (hout : ¬ root <+: area) (hdir : Apart b area root w.includeDir)
    (hname : Plain name) (text : String) : (w.stageInclude name text).Spares b area root := by
  have hpath := FilePath.isAbsolute_join_left ⟨name⟩ hdir.absolute
  have hplace : (w.includeDir.join ⟨name⟩).place = w.includeDir.place ++ [name] :=
    FilePath.placeFrom_join (FilePath.text_ne_empty hdir.absolute) hname
  refine (spares_write hpath (fun harea => ?_) text).bind hout fun _ _ => spares_pure _
  rw [hplace] at harea ⊢
  rcases List.prefix_concat_iff.1 harea with hself | hbelow
  · exact .inr hself.symm
  · exact .inl ((hdir.spared hbelow).trans (List.prefix_append _ _))

theorem spares_freshIn (directory : Place) (front back : String) :
    (freshIn directory front back).Spares b area root := by
  intro h _
  rw [on_freshIn]
  cases freshName? h.draws (h.files.namesIn directory) front back maxTries h.drawn with
  | none => exact .refl h
  | some found => exact ⟨rfl, rfl, rfl, fun _ _ _ => rfl⟩

theorem spares_writeSource (hroot : ∀ name ∈ w.root, Plain name) (hout : ¬ w.root <+: area) (text : String) :
    (w.writeSource text).Spares b area w.root := by
  refine (spares_freshIn _ _ _).bind hout ?_
  rintro name ⟨h, h', hfresh⟩
  obtain ⟨n, rfl, -⟩ := on_freshIn_eq_ok hfresh
  have hentry : Apart b area w.root (entryPath w.root _) := apart_entryPath hroot (plain_source (h.draws n))
  exact (spares_write hentry.absolute (fun harea => .inl (hentry.spared harea)) text).bind hout
    fun _ _ => spares_pure _

/-! ### What an interpreter is given -/

theorem flag_shape : ∀ flag ∈ Start.directoryFlags, flag.toList.head? = some '-' ∧
    flag.toList = flag.toList.dropLast ++ ['='] ∧ '=' ∉ flag.toList.dropLast := by decide

theorem eq_of_flag {flag flag' : String} {p q : FilePath} (hflag : flag ∈ Start.directoryFlags)
    (hflag' : flag' ∈ Start.directoryFlags) (h : flag ++ p.text = flag' ++ q.text) : p = q := by
  obtain ⟨-, hends, hname⟩ := flag_shape flag hflag
  obtain ⟨-, hends', hname'⟩ := flag_shape flag' hflag'
  have hlists := congrArg String.toList h
  rw [String.toList_append, String.toList_append, hends, hends', List.append_assoc, List.append_assoc,
    List.singleton_append, List.singleton_append] at hlists
  have htext := (Text.append_cons_inj_of_not_mem hname hname' hlists).2
  exact congrArg FilePath.mk (String.toList_inj.1 htext)

theorem given_cases {source : FilePath} {files : FileTree} {d : Place} (hsource : source.isAbsolute = true)
    (hd : Start.Given ⟨w.binary, w.arguments source [], w.root, files⟩ d) :
    w.root <+: d ∨ ∃ dir ∈ w.directories, d = dir.placeFrom w.root := by
  cases hd with
  | working => exact .inl (List.prefix_refl _)
  | @argument flag dir hflag hargument =>
    rw [arguments, List.append_nil] at hargument
    simp only [List.mem_cons, List.not_mem_nil, or_false] at hargument
    rcases hargument with hargument | hargument | hargument | hargument | hargument
    · have hhead := (flag_shape flag hflag).1
      rw [FilePath.isAbsolute, ← hargument, String.toList_append, List.head?_append, hhead] at hsource
      cases hsource
    · obtain rfl := eq_of_flag hflag (by decide) hargument
      exact .inr ⟨_, by simp [directories], rfl⟩
    · cases houtput : w.outputDir? with
      | none =>
        rw [houtput] at hargument
        obtain rfl : dir = ⟨Settings.discard⟩ := eq_of_flag hflag (by decide) hargument
        exact .inl (List.prefix_append w.root [Settings.discard])
      | some output =>
        rw [houtput] at hargument
        obtain rfl : dir = output := eq_of_flag hflag (by decide) hargument
        exact .inr ⟨_, by simp [directories, houtput], rfl⟩
    · obtain rfl := eq_of_flag hflag (by decide) hargument
      exact .inr ⟨_, by simp [directories], rfl⟩
    · obtain rfl := eq_of_flag hflag (by decide) hargument
      exact .inr ⟨_, by simp [directories], rfl⟩

/-- The workspace spares the area if its private directory does not hold it and its directories lie in the
private directory or outside the area. -/
structure Sparing (b : Behaviour) (area : Place) (w : Workspace) : Prop where
  confined : b.Confined
  plain : ∀ name ∈ w.root, Plain name
  out : ¬ w.root <+: area
  apart : ∀ dir ∈ w.directories, Apart b area w.root dir

theorem Sparing.given {source : FilePath} {files : FileTree} {d : Place} (hw : w.Sparing b area)
    (hsource : source.isAbsolute = true)
    (hd : Start.Given ⟨w.binary, w.arguments source [], w.root, files⟩ d) :
    w.root <+: d ∨ b.Outside area d := by
  rcases given_cases hsource hd with hroot | ⟨dir, hdir, rfl⟩
  · exact .inl hroot
  · rw [FilePath.placeFrom_of_isAbsolute (hw.apart dir hdir).absolute]
    exact (hw.apart dir hdir).apart

theorem Sparing.start {source : FilePath} (hw : w.Sparing b area) (hsource : source.isAbsolute = true) :
    (Host.start w.binary (w.arguments source []) w.root).Spares b area w.root := by
  refine spares_start fun n files status stderr files' hending q hq hchanged => ?_
  obtain ⟨d, hd, hbelow⟩ := hw.confined _ _ _ _ _ hending q hchanged
  rcases hw.given hsource hd with hroot | houtside
  · exact hroot.trans hbelow
  · -- The given directory and the area share a place, so that the one lies in the other.
    have hholds := (List.prefix_or_prefix_of_prefix hbelow hq).resolve_right houtside.apart
    obtain ⟨d', hd', harea, hbelow'⟩ := houtside.holding hholds _ _ _ _ _ hending q hq hchanged
    have hroot := (hw.given hsource hd').resolve_right fun houtside' => houtside'.apart harea
    exact hroot.trans hbelow'

theorem Sparing.collect {source : FilePath} (hw : w.Sparing b area) (hsource : source.isAbsolute = true) :
    (w.collect source).Spares b area w.root := by
  refine Spares.bind hw.out (fun h hready => ?_) fun _ _ => (spares_ask _).mapError _
  have hstart := hw.start hsource h hready
  rw [on_invoke]
  rcases hon : (Host.start w.binary (w.arguments source []) w.root).on h with ⟨cause | ⟨status, stderr⟩, h'⟩
  · rw [hon] at hstart
    exact hstart
  · rw [hon] at hstart
    dsimp only
    split <;> exact hstart

theorem Sparing.interpretText (hw : w.Sparing b area) (text : String) :
    (w.interpretText text).Spares b area w.root := by
  intro h hready
  rw [on_interpretText]
  have hwrite := spares_writeSource hw.plain hw.out text h hready
  rcases hon : (w.writeSource text).on h with ⟨cause | source, written⟩
  · rw [hon] at hwrite
    exact hwrite
  · rw [hon] at hwrite
    obtain ⟨name, -, rfl, -⟩ := on_writeSource_eq_ok hon
    have hcollect := hw.collect (entryPath_isAbsolute w.root name) written (hwrite.ready hw.out hready)
    exact (hwrite.trans hcollect).trans (spares_pruned _ (List.prefix_append _ _))

/-! ### Taking out -/

/-- A private directory that cannot be made leaves the host as it was, but for a draw. -/
theorem on_makeRoot_eq_error {h h' : Host} {cause : IoError} (hmake : makeRoot.on h = (.error cause, h')) :
    ∃ drawn, h' = { h with drawn } := by
  rw [makeRoot, on_bind_of_ok (on_get h)] at hmake
  rcases on_bind_eq_error.1 hmake with hfresh | ⟨name, h₁, hfresh, hmake⟩
  · rw [on_freshIn] at hfresh
    split at hfresh
    · cases (Prod.mk.inj hfresh).1
    · exact ⟨h.drawn, (Prod.mk.inj hfresh).2.symm⟩
  · obtain ⟨k, -, -, rfl⟩ := on_freshIn_eq_ok hfresh
    rcases on_bind_eq_error.1 hmake with hdirectory | ⟨⟨⟩, h₂, -, hpure⟩
    · exact ⟨k + 1, on_change_eq_error hdirectory⟩
    · cases hpure

/-- The use of a workspace leaves nothing behind, whatever becomes of it, if it spares everything but the
private directory. -/
theorem restored_within {α : Type} {h : Host} {use : Workspace → Action Error α}
    (hplain : ∀ name ∈ h.temporary, Plain name) (hconfined : h.behaviour.Confined)
    (hnamed : ∀ p ∈ s.named, h.behaviour.Outside h.temporary (h.absolute p).place)
    (huse : ∀ w, w.Sparing h.behaviour h.temporary →
      (use w).Spares h.behaviour h.temporary w.root) :
    h.Restored ((within s use).on h).2 := by
  rw [on_within, on_make]
  rcases hroot : makeRoot.on h with ⟨cause | root, made⟩
  · obtain ⟨drawn, rfl⟩ := on_makeRoot_eq_error hroot
    exact .of_drawn h drawn
  · obtain ⟨⟨last, rfl, hlast⟩, hmake, hmade⟩ := on_makeRoot_eq_ok hroot
    have hnames : ∀ name ∈ h.temporary ++ [last], Plain name :=
      List.forall_mem_append.2 ⟨hplain, List.forall_mem_singleton.2 hlast⟩
    obtain ⟨hstands, hvacant, hfiles⟩ := FileTree.makeDirectory_ofNames hnames hmake
    rw [hfiles] at hmade
    have hout : ¬ h.temporary ++ [last] <+: h.temporary := fun hbelow => absurd hbelow.length_le (by simp)
    have hready : made.Ready h.behaviour h.temporary := by
      rw [hmade]
      exact ⟨FileTree.isDirectoryAt_put (by simp) (fun _ => rfl) hstands, rfl⟩
    have hlaid := spares_layOut hnames hout s made hready
    have hnamed' : ∀ p ∈ s.named, h.behaviour.Outside h.temporary (made.absolute p).place := by
      rw [hmade]
      exact hnamed
    dsimp only
    rcases hlay : (layOut (h.temporary ++ [last]) s).on made with ⟨cause | w, laid⟩
    · rw [hlay] at hlaid
      exact restored_pruned hvacant hmade hlaid
    · rw [hlay] at hlaid
      obtain ⟨hwroot, hdirs⟩ := apart_of_layOut hnames hnamed' hlay
      rw [← hwroot] at hnames hout hdirs
      have hused := huse w ⟨hconfined, hnames, hout, hdirs⟩ laid (hlaid.ready (hwroot ▸ hout) hready)
      dsimp only
      rw [hwroot] at hused ⊢
      exact restored_pruned hvacant hmade (hlaid.trans hused)

end Workspace

end Interpreter

end PolicyCheck
