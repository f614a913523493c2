import PolicyCheck.Interpreter.Run
import PolicyCheck.Proofs.Host.Action
import PolicyCheck.Proofs.Host.Place

/-!
# Workspaces in closed trees

Making a workspace changes nothing but files and uses up draws, and a tree in which every entry lies in a directory
stays such a tree. An output directory of the workspace's own is found and has no entries, and that is
so until an interpreter is started.
-/

namespace PolicyCheck

namespace Action

variable {ε ε' α β : Type}

theorem on_map (f : α → β) (a : Action ε α) (h : Host) :
    (f <$> a).on h = ((a.on h).1.map f, (a.on h).2) := by
  rw [map_eq_pure_bind, on_bind]
  rcases a.on h with ⟨_ | value, h'⟩
  · rfl
  · rfl

/-- The action changes nothing but files and draws, and leaves the tree of files sound. -/
def Tidy (a : Action ε α) : Prop :=
  ∀ h, h.files.Sound → ∃ files drawn, files.Sound ∧ (a.on h).2 = { h with files, drawn }

theorem tidy_of_on_snd_eq {a : Action ε α} (ha : ∀ h, (a.on h).2 = h) : a.Tidy :=
  fun h hsound => ⟨h.files, h.drawn, hsound, ha h⟩

theorem Tidy.bind {a : Action ε α} {next : α → Action ε β} (ha : a.Tidy)
    (hnext : ∀ value, (next value).Tidy) : (a >>= next).Tidy := by
  intro h hsound
  obtain ⟨files, drawn, hfiles, hhost⟩ := ha h hsound
  rw [on_bind]
  rcases hon : a.on h with ⟨e | value, h'⟩
  · rw [hon] at hhost
    exact ⟨files, drawn, hfiles, hhost⟩
  · rw [hon] at hhost
    obtain rfl : h' = { h with files, drawn } := hhost
    obtain ⟨files', drawn', hfiles', hhost'⟩ := hnext value { h with files, drawn } hfiles
    exact ⟨files', drawn', hfiles', hhost'⟩

theorem tidy_pure (value : α) : (pure value : Action ε α).Tidy := tidy_of_on_snd_eq fun _ => rfl

theorem tidy_throw (e : ε) : (throw e : Action ε α).Tidy := tidy_of_on_snd_eq fun _ => rfl

theorem tidy_get : (get : Action ε Host).Tidy := tidy_of_on_snd_eq fun _ => rfl

theorem tidy_ask (f : Host → Except ε α) : (ask f).Tidy := tidy_of_on_snd_eq fun _ => rfl

theorem Tidy.attempt {a : Action ε α} (ha : a.Tidy) : (a.attempt : Action ε' (Except ε α)).Tidy := ha

theorem Tidy.map {a : Action ε α} (ha : a.Tidy) (f : α → β) : (f <$> a).Tidy := by
  intro h hsound
  rw [on_map]
  exact ha h hsound

end Action

namespace Host

open PolicyCheck.Action

theorem on_change (f : Host → Except IoError FileTree) (h : Host) :
    (change f).on h =
      match f h with
      | .ok files => (.ok (), { h with files })
      | .error cause => (.error cause, h) := by
  rw [change, on_bind, on_ask]
  cases f h with
  | ok files => rfl
  | error cause => rfl

theorem on_change_eq_error {f : Host → Except IoError FileTree} {h h' : Host} {cause : IoError}
    (hchange : (change f).on h = (.error cause, h')) : h' = h := by
  rw [on_change] at hchange
  split at hchange
  · cases hchange
  · exact (Prod.mk.inj hchange).2.symm

theorem on_write_eq_ok {h h' : Host} {p : FilePath} {text : String} :
    (write p text).on h = (.ok (), h') ↔ ∃ files,
      h.files.write h.directory p (Text.Utf8.encode text.toList) = .ok files ∧ h' = { h with files } := by
  rw [write, on_change]
  cases h.files.write h.directory p (Text.Utf8.encode text.toList) with
  | ok files => simp [eq_comm]
  | error cause => simp

theorem tidy_change {f : Host → Except IoError FileTree}
    (hf : ∀ h files, h.files.Sound → f h = .ok files → files.Sound) : (change f).Tidy := by
  intro h hsound
  rw [on_change]
  cases hfiles : f h with
  | ok files => exact ⟨files, h.drawn, hf h files hsound hfiles, rfl⟩
  | error cause => exact ⟨h.files, h.drawn, hsound, rfl⟩

theorem tidy_write {p : FilePath} (hp : p.isAbsolute = true) (text : String) : (write p text).Tidy :=
  tidy_change fun _ _ hsound hwrite => hsound.write hp hwrite

theorem tidy_makeDirectory {p : FilePath} (hp : p.isAbsolute = true) : (makeDirectory p).Tidy :=
  tidy_change fun _ _ hsound hmake => hsound.makeDirectory hp hmake

theorem tidy_prune {ε : Type} (place : Place) : (prune place : Action ε Unit).Tidy :=
  fun h hsound => ⟨h.files.prune place, h.drawn, hsound.prune place, rfl⟩

end Host

namespace Interpreter

open FilePath (Plain slash)

/-! ### Fresh names -/

theorem freshName?_eq_some {draws : Nat → Draw} {taken : List String} {front back name : String}
    {tries n drawn : Nat} (h : freshName? draws taken front back tries n = some (name, drawn)) :
    ∃ k, name = front ++ (draws k).text ++ back ∧ drawn = k + 1 ∧ name ∉ taken := by
  induction tries generalizing n with
  | zero => cases h
  | succ tries ih =>
    simp only [freshName?] at h
    split at h
    · exact ih h
    · rename_i hfree
      obtain ⟨rfl, rfl⟩ := Prod.mk.inj (Option.some.inj h)
      exact ⟨n, rfl, rfl, hfree⟩

/-- What is drawn between two texts is the name of an entry if the texts are of such names. -/
theorem plain_fresh {front back : String} {c : Char} {cs : List Char} (hfront : front.toList = c :: cs)
    (hc : c ≠ '.') (hslash : slash ∉ front.toList ++ back.toList)
    (hnul : '\x00' ∉ front.toList ++ back.toList) (d : Draw) : Plain (front ++ d.text ++ back) := by
  have hname : (front ++ d.text ++ back).toList = c :: (cs ++ d.text.toList ++ back.toList) := by
    rw [String.toList_append, String.toList_append, hfront]
    rfl
  have hmem (x : Char) (hx : x.isAlphanum = false) (hout : x ∉ front.toList ++ back.toList) :
      x ∉ (front ++ d.text ++ back).toList := by
    rw [String.toList_append, String.toList_append]
    intro hin
    rcases List.mem_append.1 hin with hin | hin
    · rcases List.mem_append.1 hin with hin | hin
      · exact hout (List.mem_append_left _ hin)
      · exact Bool.false_ne_true (hx.symm.trans (d.alphanumeric x hin))
    · exact hout (List.mem_append_right _ hin)
  constructor
  · intro heq
    rw [heq] at hname
    cases hname
  · intro heq
    rw [heq] at hname
    exact hc (List.cons.inj hname).1.symm
  · intro heq
    rw [heq] at hname
    exact hc (List.cons.inj hname).1.symm
  · exact hmem slash rfl hslash
  · exact hmem '\x00' rfl hnul

theorem plain_root (d : Draw) : Plain ("attest-policy-" ++ d.text ++ "") :=
  plain_fresh rfl (by decide) (by decide) (by decide) d

theorem plain_source (d : Draw) : Plain ("source-" ++ d.text ++ ".dl") :=
  plain_fresh rfl (by decide) (by decide) (by decide) d

theorem on_freshIn (directory : Place) (front back : String) (h : Host) :
    (freshIn directory front back).on h =
      match freshName? h.draws (h.files.namesIn directory) front back maxTries h.drawn with
      | some (name, drawn) => (.ok name, { h with drawn })
      | none => (.error .alreadyExists, h) := by
  rw [freshIn, Action.on_bind_of_ok (Action.on_get h)]
  cases freshName? h.draws (h.files.namesIn directory) front back maxTries h.drawn <;> rfl

theorem on_freshIn_eq_ok {directory : Place} {front back name : String} {h h' : Host}
    (hfresh : (freshIn directory front back).on h = (.ok name, h')) :
    ∃ k, name = front ++ (h.draws k).text ++ back ∧ name ∉ h.files.namesIn directory ∧
      h' = { h with drawn := k + 1 } := by
  rw [on_freshIn] at hfresh
  split at hfresh
  · rename_i found drawn hfound
    obtain ⟨hname, rfl⟩ := Prod.mk.inj hfresh
    obtain rfl := Except.ok.inj hname
    obtain ⟨k, hk, rfl, hfree⟩ := freshName?_eq_some hfound
    exact ⟨k, hk, hfree, rfl⟩
  · cases hfresh

namespace Workspace

open PolicyCheck.Action Host

theorem entryPath_isAbsolute (root : Place) (name : String) : (entryPath root name).isAbsolute = true :=
  FilePath.ofNames_isAbsolute _

theorem tidy_freshIn (directory : Place) (front back : String) : (freshIn directory front back).Tidy := by
  intro h hclosed
  rw [on_freshIn]
  cases freshName? h.draws (h.files.namesIn directory) front back maxTries h.drawn with
  | none => exact ⟨h.files, h.drawn, hclosed, rfl⟩
  | some found => exact ⟨h.files, found.2, hclosed, rfl⟩

theorem tidy_layDir (root : Place) (named? : Option FilePath) (name : String) :
    (layDir root named? name).Tidy := by
  cases named? with
  | none => exact (tidy_makeDirectory (entryPath_isAbsolute root name)).bind fun _ => tidy_pure _
  | some p => exact tidy_ask _

theorem tidy_findLibrary (root : Place) (named? : Option FilePath) : (findLibrary root named?).Tidy := by
  cases named? with
  | none => exact tidy_pure _
  | some p => exact tidy_ask _

/-- Lays out the directories of a run but for the output directory. -/
def layRest (root : Place) (s : Settings) (outputDir? : Option FilePath) : Action IoError Workspace := do
  let includeDir ← layDir root s.includeDir? "include"
  let factDir ← layDir root s.factDir? "facts"
  let libraryDir ← findLibrary root s.libraryDir?
  return { root, binary := s.binary, outputDir?, includeDir, factDir, libraryDir }

theorem layOut_eq (root : Place) (s : Settings) :
    layOut root s =
      (if s.discards then pure none else some <$> layDir root s.outputDir? "output") >>= layRest root s := by
  rw [layOut]
  split <;> rfl

theorem tidy_layRest (root : Place) (s : Settings) (outputDir? : Option FilePath) :
    (layRest root s outputDir?).Tidy :=
  (tidy_layDir _ _ _).bind fun _ => (tidy_layDir _ _ _).bind fun _ =>
    (tidy_findLibrary _ _).bind fun _ => tidy_pure _

theorem tidy_layOut (root : Place) (s : Settings) : (layOut root s).Tidy := by
  rw [layOut_eq]
  refine Tidy.bind ?_ (tidy_layRest root s)
  split
  · exact tidy_pure none
  · exact (tidy_layDir _ _ _).map some

theorem tidy_makeRoot : makeRoot.Tidy :=
  tidy_get.bind fun _ => (tidy_freshIn _ _ _).bind fun _ =>
    (tidy_makeDirectory (FilePath.ofNames_isAbsolute _)).bind fun _ => tidy_pure _

theorem tidy_make (s : Settings) : (make s).Tidy := by
  refine tidy_makeRoot.bind fun root => Tidy.bind (tidy_layOut root s).attempt fun result => ?_
  cases result with
  | ok w => exact tidy_pure w
  | error cause => exact (tidy_prune root).bind fun _ => tidy_throw cause

theorem tidy_writeSource (w : Workspace) (text : String) : (w.writeSource text).Tidy :=
  (tidy_freshIn _ _ _).bind fun _ =>
    (tidy_write (entryPath_isAbsolute _ _) text).bind fun _ => tidy_pure _

/-! ### The output directory -/

/-- The private directory stands at a place, and the output directory in it, with nothing in it. -/
structure Prepared (t : FileTree) (root place : Place) : Prop where
  closed : t.Closed
  named : ∃ front last, root = front ++ [last] ∧ Plain last
  stands : ∀ directory, t.find directory (.ofNames root) = .ok (place, .directory)
  output : ∀ directory,
    t.find directory (entryPath root "output") = .ok (place ++ ["output"], .directory)
  empty : t.namesIn (place ++ ["output"]) = []

theorem plain_output : Plain "output" := by decide

theorem plain_include : Plain "include" := by decide

theorem plain_facts : Plain "facts" := by decide

theorem entryPath_eq {root : Place} {name : String} (hroot : ∃ front last, root = front ++ [last] ∧ Plain last)
    (hname : Plain name) : entryPath root name = (FilePath.ofNames root).join ⟨name⟩ := by
  obtain ⟨front, last, rfl, hlast⟩ := hroot
  exact FilePath.ofNames_concat hlast hname

/-- An entry of the private directory that is put in, other than those of the output directory, leaves
things as they are. -/
theorem Prepared.put {t : FileTree} {root place : Place} {name : String} {entry : Entry}
    (ht : Prepared t root place) (hclosed : (t.put (place ++ [name]) entry).Closed)
    (hextends : (t.put (place ++ [name]) entry).Extends t) :
    Prepared (t.put (place ++ [name]) entry) root place := by
  refine ⟨hclosed, ht.named, fun directory => hextends.find (ht.stands directory),
    fun directory => hextends.find (ht.output directory), ?_⟩
  rw [FileTree.namesIn_put_of_ne _ (by simp), ht.empty]
  intro other heq
  have hlength := congrArg List.length heq
  simp at hlength

theorem Prepared.makeDirectory {t t' : FileTree} {root place directory : Place} {name : String}
    (ht : Prepared t root place) (hname : Plain name)
    (h : t.makeDirectory directory (entryPath root name) = .ok t') : Prepared t' root place := by
  have hgrown := ht.closed.makeDirectory (entryPath_isAbsolute root name) h
  obtain ⟨target, hlocate, -, rfl⟩ := FileTree.makeDirectory_eq_ok_iff.1 h
  rw [entryPath_eq ht.named hname, FileTree.locate_join_eq_ok_iff (ht.stands directory) hname] at hlocate
  obtain ⟨-, rfl⟩ := hlocate
  exact ht.put hgrown.1 hgrown.2

theorem Prepared.write {t t' : FileTree} {root place directory : Place} {name : String}
    {contents : Text.Octets} (ht : Prepared t root place) (hname : Plain name)
    (h : t.write directory (entryPath root name) contents = .ok t') : Prepared t' root place := by
  have hclosed := ht.closed.write (entryPath_isAbsolute root name) h
  have hextends := FileTree.extends_write h
  obtain ⟨at', executable, hlocate, -, rfl⟩ := FileTree.write_eq_ok_iff.1 h
  rw [entryPath_eq ht.named hname, FileTree.locate_join_eq_ok_iff (ht.stands directory) hname] at hlocate
  obtain ⟨-, htarget⟩ := hlocate
  obtain ⟨rfl, -⟩ := FileTree.Target.mk.inj htarget
  exact ht.put hclosed hextends

theorem on_layDir_named (root : Place) (p : FilePath) (name : String) (h : Host) :
    (layDir root (some p) name).on h = (h.resolve p, h) := rfl

theorem on_layDir_own (root : Place) (name : String) (h : Host) :
    (layDir root none name).on h =
      match h.files.makeDirectory h.directory (entryPath root name) with
      | .ok files => (.ok (entryPath root name), { h with files })
      | .error cause => (.error cause, h) := by
  rw [layDir, on_bind, Host.makeDirectory, on_change]
  cases h.files.makeDirectory h.directory (entryPath root name) with
  | ok files => rfl
  | error cause => rfl

theorem Prepared.on_layDir {h h' : Host} {root place : Place} {named? : Option FilePath} {name : String}
    {p : FilePath} (ht : Prepared h.files root place) (hname : Plain name)
    (hlay : (layDir root named? name).on h = (.ok p, h')) : Prepared h'.files root place := by
  cases named? with
  | some q =>
    obtain ⟨-, rfl⟩ := Prod.mk.inj hlay
    exact ht
  | none =>
    rw [on_layDir_own] at hlay
    cases hmake : h.files.makeDirectory h.directory (entryPath root name) with
    | error cause =>
      rw [hmake] at hlay
      cases hlay
    | ok files =>
      rw [hmake] at hlay
      obtain ⟨-, rfl⟩ := Prod.mk.inj hlay
      exact ht.makeDirectory hname hmake

theorem on_findLibrary_eq_ok {root : Place} {named? : Option FilePath} {p : FilePath} {h h' : Host}
    (hfind : (findLibrary root named?).on h = (.ok p, h')) : h' = h := by
  cases named? with
  | none => exact (Prod.mk.inj hfind).2.symm
  | some q => exact (Prod.mk.inj hfind).2.symm

theorem on_layRest_eq_ok {root : Place} {s : Settings} {outputDir? : Option FilePath} {h h' : Host}
    {w : Workspace} (hlay : (layRest root s outputDir?).on h = (.ok w, h')) :
    w.root = root ∧ w.outputDir? = outputDir? ∧
      ∀ place, Prepared h.files root place → Prepared h'.files root place := by
  obtain ⟨includeDir, h₁, hinclude, hlay⟩ := on_bind_eq_ok.1 hlay
  obtain ⟨factDir, h₂, hfacts, hlay⟩ := on_bind_eq_ok.1 hlay
  obtain ⟨libraryDir, h₃, hlibrary, hlay⟩ := on_bind_eq_ok.1 hlay
  obtain ⟨hw, rfl⟩ := Prod.mk.inj hlay
  obtain rfl := Except.ok.inj hw
  obtain rfl := on_findLibrary_eq_ok hlibrary
  refine ⟨rfl, rfl, fun place ht => ?_⟩
  exact (ht.on_layDir plain_include hinclude).on_layDir plain_facts hfacts

theorem on_makeRoot_eq_ok {h h' : Host} {root : Place} (hmake : makeRoot.on h = (.ok root, h')) :
    (∃ last, root = h.temporary ++ [last] ∧ Plain last) ∧
      h.files.makeDirectory h.directory (.ofNames root) = .ok h'.files ∧
      h' = { h with files := h'.files, drawn := h'.drawn } := by
  rw [makeRoot, on_bind_of_ok (on_get h)] at hmake
  obtain ⟨name, h₁, hfresh, hmake⟩ := on_bind_eq_ok.1 hmake
  obtain ⟨n, rfl, -, rfl⟩ := on_freshIn_eq_ok hfresh
  obtain ⟨⟨⟩, h₂, hdirectory, hmake⟩ := on_bind_eq_ok.1 hmake
  obtain ⟨hroot, rfl⟩ := Prod.mk.inj hmake
  obtain rfl := Except.ok.inj hroot
  rw [Host.makeDirectory, on_change] at hdirectory
  refine ⟨⟨_, rfl, plain_root _⟩, ?_⟩
  split at hdirectory
  · rename_i files hfiles
    obtain ⟨-, rfl⟩ := Prod.mk.inj hdirectory
    exact ⟨hfiles, rfl⟩
  · cases hdirectory

/-- The output directory of a workspace's own is made in the private directory, where nothing stands. -/
theorem prepared_of_layDir {h h' : Host} {root : Place} {p : FilePath} {place : Place}
    (hclosed : h.files.Closed) (hnamed : ∃ front last, root = front ++ [last] ∧ Plain last)
    (hstands : ∀ directory, h.files.find directory (.ofNames root) = .ok (place, .directory))
    (hlay : (layDir root none "output").on h = (.ok p, h')) : Prepared h'.files root place := by
  rw [on_layDir_own] at hlay
  cases hmake : h.files.makeDirectory h.directory (entryPath root "output") with
  | error cause =>
    rw [hmake] at hlay
    cases hlay
  | ok files =>
    rw [hmake] at hlay
    obtain ⟨-, rfl⟩ := Prod.mk.inj hlay
    obtain ⟨hclosed', hextends⟩ := hclosed.makeDirectory (entryPath_isAbsolute root "output") hmake
    obtain ⟨target, hlocate, hvacant, rfl⟩ := FileTree.makeDirectory_eq_ok_iff.1 hmake
    have hat := hlocate
    rw [entryPath_eq hnamed plain_output,
      FileTree.locate_join_eq_ok_iff (hstands h.directory) plain_output] at hat
    obtain ⟨-, rfl⟩ := hat
    obtain ⟨hfind, hempty⟩ := hclosed.find_made hlocate hvacant
    refine ⟨hclosed', hnamed, fun directory => hextends.find (hstands directory),
      fun directory => ?_, hempty⟩
    rwa [FileTree.find_of_isAbsolute (entryPath_isAbsolute root "output") directory h.directory]

theorem on_make_eq_ok {s : Settings} {h h' : Host} {w : Workspace} (hmake : (make s).on h = (.ok w, h')) :
    ∃ root outputDir? h₁ h₂, makeRoot.on h = (.ok root, h₁) ∧
      (if s.discards then pure none else some <$> layDir root s.outputDir? "output" :
        Action IoError (Option FilePath)).on h₁ = (.ok outputDir?, h₂) ∧
      (layRest root s outputDir?).on h₂ = (.ok w, h') := by
  obtain ⟨root, h₁, hroot, hmake⟩ := on_bind_eq_ok.1 hmake
  obtain ⟨result, h₂, hattempt, hmake⟩ := on_bind_eq_ok.1 hmake
  rw [on_attempt] at hattempt
  obtain ⟨hresult, rfl⟩ := Prod.mk.inj hattempt
  cases result with
  | error cause =>
    obtain ⟨⟨⟩, _, -, hthrow⟩ := on_bind_eq_ok.1 hmake
    cases hthrow
  | ok w' =>
    obtain ⟨hw, rfl⟩ := Prod.mk.inj hmake
    obtain rfl := Except.ok.inj hw
    have hlay : (layOut root s).on h₁ = (.ok w', ((layOut root s).on h₁).2) :=
      Prod.ext (Except.ok.inj hresult) rfl
    generalize ((layOut root s).on h₁).2 = h₃ at hlay
    rw [layOut_eq] at hlay
    obtain ⟨outputDir?, h₂, houtput, hrest⟩ := on_bind_eq_ok.1 hlay
    exact ⟨root, outputDir?, h₁, h₂, hroot, houtput, hrest⟩

/-- The output directory of a workspace, unless output is discarded, is the one that the settings name
or else one in the private directory. -/
theorem outputDir?_of_make {s : Settings} {h h' : Host} {w : Workspace}
    (hmake : (make s).on h = (.ok w, h')) :
    w.outputDir? = if s.discards then none
      else some ((s.outputDir?.map h.absolute).getD (entryPath w.root "output")) := by
  obtain ⟨root, outputDir?, h₁, h₂, hroot, houtput, hrest⟩ := on_make_eq_ok hmake
  obtain ⟨-, -, hhost⟩ := on_makeRoot_eq_ok hroot
  obtain ⟨rfl, hdir, -⟩ := on_layRest_eq_ok hrest
  rw [hdir]
  by_cases hdiscards : s.discards = true
  · rw [if_pos hdiscards] at houtput ⊢
    exact (Except.ok.inj (Prod.mk.inj houtput).1).symm
  · rw [if_neg hdiscards] at houtput ⊢
    rw [on_map] at houtput
    obtain ⟨p, hp, rfl⟩ := map_eq_ok_iff.1 (Prod.mk.inj houtput).1
    cases hnamed : s.outputDir? with
    | none =>
      rw [hnamed, on_layDir_own] at hp
      split at hp
      · exact congrArg some (Except.ok.inj hp).symm
      · cases hp
    | some q =>
      rw [hnamed, on_layDir_named, hhost] at hp
      exact congrArg some (Host.resolve_eq_ok_iff.1 hp).2.symm

/-- The private directory is new, so the output directory that is made in it is new as well. -/
theorem prepared_of_make {s : Settings} {h h' : Host} {w : Workspace} (hclosed : h.files.Closed)
    (hdiscards : s.discards = false) (hown : s.outputDir? = none)
    (hmake : (make s).on h = (.ok w, h')) : ∃ place, Prepared h'.files w.root place := by
  obtain ⟨root, outputDir?, h₁, h₂, hroot, houtput, hrest⟩ := on_make_eq_ok hmake
  obtain ⟨⟨last, hname, hlast⟩, hdirectory, -⟩ := on_makeRoot_eq_ok hroot
  have hnamed : ∃ front last, root = front ++ [last] ∧ Plain last := ⟨h.temporary, last, hname, hlast⟩
  have hclosed₁ := (hclosed.makeDirectory (FilePath.ofNames_isAbsolute root) hdirectory).1
  obtain ⟨target, hlocate, hvacant, hfiles⟩ := FileTree.makeDirectory_eq_ok_iff.1 hdirectory
  have hstands (directory : Place) :
      h₁.files.find directory (.ofNames root) = .ok (target.place, .directory) := by
    rw [hfiles, FileTree.find_of_isAbsolute (FilePath.ofNames_isAbsolute root) directory h.directory]
    exact (hclosed.find_made hlocate hvacant).1
  rw [hdiscards, hown, if_neg Bool.false_ne_true, on_map] at houtput
  obtain ⟨hmap, rfl⟩ := Prod.mk.inj houtput
  obtain ⟨p, hp, rfl⟩ := map_eq_ok_iff.1 hmap
  have hprepared := prepared_of_layDir hclosed₁ hnamed hstands (Prod.ext hp rfl)
  obtain ⟨rfl, -, hkeep⟩ := on_layRest_eq_ok hrest
  exact ⟨target.place, hkeep _ hprepared⟩

theorem on_writeSource_eq_ok {h h' : Host} {w : Workspace} {text : String} {source : FilePath}
    (hwrite : (w.writeSource text).on h = (.ok source, h')) :
    ∃ name, Plain name ∧ source = entryPath w.root name ∧
      h.files.write h.directory source (Text.Utf8.encode text.toList) = .ok h'.files := by
  obtain ⟨name, h₁, hfresh, hwrite⟩ := on_bind_eq_ok.1 hwrite
  obtain ⟨n, rfl, -, rfl⟩ := on_freshIn_eq_ok hfresh
  obtain ⟨⟨⟩, h₂, hfile, hwrite⟩ := on_bind_eq_ok.1 hwrite
  obtain ⟨hsource, rfl⟩ := Prod.mk.inj hwrite
  obtain rfl := Except.ok.inj hsource
  obtain ⟨files, hfiles, rfl⟩ := Host.on_write_eq_ok.1 hfile
  exact ⟨_, plain_source _, rfl, hfiles⟩

theorem Prepared.on_writeSource {h h' : Host} {w : Workspace} {place : Place} {text : String}
    {source : FilePath} (ht : Prepared h.files w.root place)
    (hwrite : (w.writeSource text).on h = (.ok source, h')) : Prepared h'.files w.root place := by
  obtain ⟨name, hname, rfl, hfile⟩ := on_writeSource_eq_ok hwrite
  exact ht.write hname hfile

end Workspace

end Interpreter

end PolicyCheck
