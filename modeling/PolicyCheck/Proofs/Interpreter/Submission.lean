import PolicyCheck.Proofs.Host.Matching
import PolicyCheck.Proofs.Interpreter.Deed
import PolicyCheck.Proofs.Interpreter.Removal

/-!
# What a run submits

Two runs of one program, on hosts with the same files, make up other names for their private directories
and source files. All that the one meets and does, the other meets and does under other names, so both
start an interpreter or neither does, a start finds the program in the file that its arguments name first,
and an interpreter that does the same with the same program leaves them with the same relations.
-/

namespace PolicyCheck

/-- The start submits a program text: its first argument leads to a file with the text. -/
def Start.Submits (s : Start) (text : String) : Prop :=
  ∃ source ∈ s.arguments.head?, s.files.read s.directory ⟨source⟩ = .ok (Text.Utf8.encode text.toList)

/-- Two steps have both failed or have the same value, and start by start they have submitted the same program. -/
structure Alongside {ε ε' α : Type} (program : String) (h₁ h₂ : Host) (first : Except ε α × Host)
    (second : Except ε' α × Host) : Prop where
  value : second.1.toOption = first.1.toOption
  starts : ∃ starts₁ starts₂, first.2.starts = h₁.starts ++ starts₁ ∧ second.2.starts = h₂.starts ++ starts₂ ∧
    List.Forall₂ (fun s₁ s₂ => s₁.Submits program ∧ s₂.Submits program) starts₁ starts₂

namespace Interpreter

open FilePath (Plain)
open PolicyCheck.Action Host

/-- The names that the next run makes up for its private directory and its source file. -/
def MakesUp (h : Host) (root source : String) : Prop :=
  ∃ n, freshName? h.draws (h.files.namesIn h.temporary) "attest-policy-" "" maxTries h.drawn = some (root, n) ∧
    source = "source-" ++ (h.draws n).text ++ ".dl"

theorem MakesUp.exists_draws {h : Host} {root source : String} (hmakes : MakesUp h root source) :
    ∃ d d' : Draw, root = "attest-policy-" ++ d.text ++ "" ∧ source = "source-" ++ d'.text ++ ".dl" := by
  obtain ⟨n, hfresh, rfl⟩ := hmakes
  obtain ⟨k, rfl, -⟩ := freshName?_eq_some hfresh
  exact ⟨h.draws k, h.draws n, rfl, rfl⟩

theorem MakesUp.plain {h : Host} {root source : String} (hmakes : MakesUp h root source) :
    Plain root ∧ Plain source := by
  obtain ⟨d, d', rfl, rfl⟩ := hmakes.exists_draws
  exact ⟨plain_root d, plain_source d'⟩

theorem MakesUp.head? {h : Host} {root source : String} (hmakes : MakesUp h root source) :
    root.toList.head? = some 'a' ∧ source.toList.head? = some 's' := by
  obtain ⟨d, d', rfl, rfl⟩ := hmakes.exists_draws
  simp only [String.toList_append, List.append_assoc]
  exact ⟨rfl, rfl⟩

/-- The names of the directories that lie in a private directory. -/
def ownNames : List String := ["output", "include", "facts"]

theorem MakesUp.not_own {h : Host} {root source name : String} (hmakes : MakesUp h root source)
    (hname : name ∈ ownNames) : name ≠ root ∧ name ≠ source := by
  have hothers : ∀ name ∈ ownNames, name.toList.head? ≠ some 'a' ∧ name.toList.head? ≠ some 's' := by decide
  refine ⟨?_, ?_⟩
  · rintro rfl
    exact (hothers _ hname).1 hmakes.head?.1
  · rintro rfl
    exact (hothers _ hname).2 hmakes.head?.2

/-- All that a run with the settings meets on the second host is on the first under other names. The entries
that runs use by name keep their names. -/
structure Carries (σ : String → String) (s : Settings) (h₁ h₂ : Host) : Prop where
  names : Renaming σ
  hosts : Renamed σ h₁ h₂
  named : ∀ p ∈ s.named, h₂.absolute p = (h₁.absolute p).rename σ
  binary : s.binary.rename σ = s.binary
  own : ∀ name ∈ ownNames, σ name = name
  relation (name : String) : Workspace.relationName? (σ name) = Workspace.relationName? name

theorem Carries.on {σ : String → String} {s : Settings} {h₁ h₂ left₁ left₂ : Host} (hcarries : Carries σ s h₁ h₂)
    (hhosts : Renamed σ left₁ left₂) (hdirectory₁ : left₁.directory = h₁.directory)
    (hdirectory₂ : left₂.directory = h₂.directory) : Carries σ s left₁ left₂ where
  names := hcarries.names
  hosts := hhosts
  named p hp := by
    rw [Host.absolute, Host.absolute, hdirectory₁, hdirectory₂]
    exact hcarries.named p hp
  binary := hcarries.binary
  own := hcarries.own
  relation := hcarries.relation

namespace Workspace

def rename (σ : String → String) (w : Workspace) : Workspace where
  root := w.root.map σ
  binary := w.binary
  outputDir? := w.outputDir?.map (FilePath.rename σ)
  includeDir := w.includeDir.rename σ
  factDir := w.factDir.rename σ
  libraryDir := w.libraryDir.rename σ

/-- Directories can be made where the name is on no way. -/
def Vacant (unused : String) (t : FileTree) : Prop := t.Sound ∧ t.Lacks unused

variable {σ : String → String} {unused : String} {s : Settings} {h₁ h₂ : Host} {root : Place} {name : String}
  {w : Workspace} {source : FilePath}

theorem rename_entryPath (hσ : Renaming σ) (hroot : ∀ name ∈ root, Plain name) (hname : Plain name) :
    (entryPath root name).rename σ = entryPath (root.map σ) (σ name) := by
  have hnames : ∀ name' ∈ root ++ [name], Plain name' :=
    List.forall_mem_append.2 ⟨hroot, List.forall_mem_singleton.2 hname⟩
  rw [entryPath, FilePath.rename_ofNames hσ hnames, List.map_append, List.map_singleton, entryPath]

/-! ### Making a workspace -/

theorem Vacant.makeDirectory {t t' : FileTree} {directory : Place} {p : FilePath} (ht : Vacant unused t)
    (hp : p.isAbsolute = true) (hunused : unused ∉ p.place) (h : t.makeDirectory directory p = .ok t') :
    Vacant unused t' := by
  refine ⟨ht.1.makeDirectory hp h, ?_⟩
  obtain ⟨target, hlocate, -, rfl⟩ := FileTree.makeDirectory_eq_ok_iff.1 h
  have hplace := FileTree.place_of_locate hlocate
  rw [FilePath.placeFrom_of_isAbsolute hp] at hplace
  exact ht.2.put (hplace ▸ hunused) _

theorem matches_layDir (hcarries : Carries σ s h₁ h₂) (hroot : ∀ name ∈ root, Plain name) (hname : Plain name)
    (hown : name ∈ ownNames) (hunused : unused ∉ root ++ [name]) {named? : Option FilePath}
    (hnamed : ∀ p ∈ named?, p ∈ s.named) :
    (layDir root named? name).Matches (Renames σ (Vacant unused) h₁ h₂) (FilePath.rename σ)
      (layDir (root.map σ) named? name) := by
  cases named? with
  | some p => exact matches_resolve hcarries.names hcarries.hosts (hcarries.named p (hnamed p rfl))
  | none =>
    have hentry : (entryPath root name).rename σ = entryPath (root.map σ) name := by
      rw [rename_entryPath hcarries.names hroot hname, hcarries.own name hown]
    have hunused : unused ∉ (entryPath root name).place := (place_entryPath hroot hname).symm ▸ hunused
    have hmake := matches_makeDirectory hcarries.names hcarries.hosts fun _ _ (hfiles : Vacant unused _) =>
      hfiles.makeDirectory (entryPath_isAbsolute root name) hunused
    rw [hentry] at hmake
    refine hmake.bind fun _ => ?_
    rw [← hentry]
    exact matches_pure _

theorem matches_findLibrary (hcarries : Carries σ s h₁ h₂) (hroot : ∀ name ∈ root, Plain name) :
    (findLibrary root s.libraryDir?).Matches (Renames σ (Vacant unused) h₁ h₂) (FilePath.rename σ)
      (findLibrary (root.map σ) s.libraryDir?) := by
  cases hlibrary : s.libraryDir? with
  | some p =>
    have hnamed : p ∈ s.named := by simp [Settings.named, hlibrary]
    exact matches_resolve hcarries.names hcarries.hosts (hcarries.named p hnamed)
  | none =>
    rw [findLibrary, findLibrary, ← FilePath.rename_ofNames hcarries.names hroot]
    exact matches_pure _

theorem matches_layOut (hcarries : Carries σ s h₁ h₂) (hroot : ∀ name ∈ root, Plain name)
    (hunused : ∀ name ∈ ownNames, unused ∉ root ++ [name]) :
    (layOut root s).Matches (Renames σ (Vacant unused) h₁ h₂) (rename σ) (layOut (root.map σ) s) := by
  rw [layOut_eq, layOut_eq]
  refine Matches.bind (f := Option.map (FilePath.rename σ)) ?_ fun outputDir? => ?_
  · split
    · exact matches_pure none
    · rename_i hdiscards
      rw [map_eq_pure_bind, map_eq_pure_bind]
      refine (matches_layDir hcarries hroot plain_output (by decide) (hunused _ (by decide)) fun p hp => ?_).bind
        fun _ => matches_pure _
      simp [Settings.named, hdiscards, Option.mem_def.1 hp]
  · refine (matches_layDir hcarries hroot plain_include (by decide) (hunused _ (by decide)) fun p hp => ?_).bind
      fun _ => (matches_layDir hcarries hroot plain_facts (by decide) (hunused _ (by decide)) fun p hp => ?_).bind
        fun _ => (matches_findLibrary hcarries hroot).bind fun _ => matches_pure _
    · simp [Settings.named, Option.mem_def.1 hp]
    · simp [Settings.named, Option.mem_def.1 hp]

theorem on_makeRoot_of_fresh {h : Host} {n : Nat}
    (hname : freshName? h.draws (h.files.namesIn h.temporary) "attest-policy-" "" maxTries h.drawn = some (name, n)) :
    makeRoot.on h = (do
      makeDirectory (.ofNames (h.temporary ++ [name]))
      return h.temporary ++ [name] : Action IoError Place).on { h with drawn := n } := by
  have hfresh : (freshIn h.temporary "attest-policy-" "").on h = (.ok name, { h with drawn := n }) := by
    rw [on_freshIn, hname]
  rw [makeRoot, on_bind_of_ok (on_get h), on_bind_of_ok hfresh]

theorem make_carried {n₁ n₂ : Nat} (hcarries : Carries σ s h₁ h₂) (hplain : ∀ name ∈ h₁.temporary, Plain name)
    (hname₁ : freshName? h₁.draws (h₁.files.namesIn h₁.temporary) "attest-policy-" "" maxTries h₁.drawn =
      some (name, n₁))
    (hname₂ : freshName? h₂.draws (h₂.files.namesIn h₂.temporary) "attest-policy-" "" maxTries h₂.drawn =
      some (σ name, n₂))
    (hvacant : Vacant unused h₁.files) (hunused : ∀ name' ∈ ownNames, unused ∉ h₁.temporary ++ [name] ++ [name']) :
    Matched (Renames σ (Vacant unused) { h₁ with drawn := n₁ } { h₂ with drawn := n₂ }) (rename σ)
      ((make s).on h₁) ((make s).on h₂) := by
  have hbefore : Carries σ s { h₁ with drawn := n₁ } { h₂ with drawn := n₂ } :=
    hcarries.on (hcarries.hosts.drawn n₁ n₂) rfl rfl
  obtain ⟨k, rfl, -⟩ := freshName?_eq_some hname₁
  generalize hroot : "attest-policy-" ++ (h₁.draws k).text ++ "" = last at *
  have hlast : Plain last := hroot ▸ plain_root (h₁.draws k)
  have hnames : ∀ name ∈ h₁.temporary ++ [last], Plain name :=
    List.forall_mem_append.2 ⟨hplain, List.forall_mem_singleton.2 hlast⟩
  have hrenamed : (h₁.temporary ++ [last]).map σ = h₂.temporary ++ [σ last] := by
    rw [List.map_append, List.map_singleton, hcarries.hosts.temporary]
  have hplace : unused ∉ (FilePath.ofNames (h₁.temporary ++ [last])).place := by
    rw [FilePath.place_ofNames hnames]
    exact fun hmem => hunused "output" (by decide) (List.mem_append_left _ hmem)
  have hmake := matches_makeDirectory hbefore.names hbefore.hosts fun _ _ (hfiles : Vacant unused _) =>
    hfiles.makeDirectory (FilePath.ofNames_isAbsolute _) hplace
  have hlaid := matches_layOut hbefore hnames hunused
  rw [FilePath.rename_ofNames hcarries.names hnames] at hmake
  rw [hrenamed] at hmake hlaid
  rw [on_make, on_make, on_makeRoot_of_fresh hname₁, on_makeRoot_of_fresh hname₂, on_bind, on_bind]
  -- A directory that cannot be laid out takes the private directory down with it, on both hosts.
  rcases (hmake _ _ (hbefore.hosts.renames hvacant)).cases with
    ⟨e, e', left₁, left₂, hon₁, hon₂, hleft⟩ | ⟨⟨⟩, left₁, left₂, hon₁, hon₂, hleft⟩
  · rw [hon₁, hon₂]
    exact ⟨rfl, hleft⟩
  · rw [hon₁, hon₂]
    simp only [on_pure]
    rcases (hlaid _ _ hleft).cases with
      ⟨e, e', left₁, left₂, hon₁, hon₂, hleft⟩ | ⟨w, left₁, left₂, hon₁, hon₂, hleft⟩
    · rw [hon₁, hon₂, ← hrenamed]
      exact ⟨rfl, hleft.pruned hcarries.names fun files hfiles => ⟨hfiles.1.prune _, hfiles.2.prune _⟩⟩
    · rw [hon₁, hon₂]
      exact ⟨rfl, hleft⟩

/-- A workspace has the program of the settings, lies in the directory for temporary files and has an output
directory with an absolute path, if it has one. -/
theorem shape_of_make {h h' : Host} (hmake : (make s).on h = (.ok w, h')) :
    w.binary = s.binary ∧ (∃ last, w.root = h.temporary ++ [last] ∧ Plain last) ∧
      ∀ dir ∈ w.outputDir?, dir.isAbsolute = true := by
  refine ⟨?_, ?_, ?_⟩
  · obtain ⟨root, outputDir?, made, laid, -, -, hrest⟩ := on_make_eq_ok hmake
    obtain ⟨includeDir, _, -, hrest⟩ := on_bind_eq_ok.1 hrest
    obtain ⟨factDir, _, -, hrest⟩ := on_bind_eq_ok.1 hrest
    obtain ⟨libraryDir, _, -, hrest⟩ := on_bind_eq_ok.1 hrest
    obtain ⟨rfl, -⟩ := on_pure_eq_ok.1 hrest
    rfl
  · obtain ⟨root, outputDir?, made, laid, hroot, -, hrest⟩ := on_make_eq_ok hmake
    obtain ⟨rfl, -⟩ := on_layRest_eq_ok hrest
    exact (on_makeRoot_eq_ok hroot).1
  · intro dir hdir
    rw [outputDir?_of_make hmake] at hdir
    split at hdir
    · cases hdir
    · obtain rfl := Option.some.inj hdir
      cases s.outputDir? with
      | none => exact entryPath_isAbsolute _ _
      | some p => exact FilePath.isAbsolute_join_left p (FilePath.ofNames_isAbsolute _)

/-! ### Running a program -/

theorem freshName?_of_not_mem {draws : Nat → Draw} {taken : List String} {front back : String} {n : Nat}
    (hfree : front ++ (draws n).text ++ back ∉ taken) (tries : Nat) :
    freshName? draws taken front back (tries + 1) n = some (front ++ (draws n).text ++ back, n + 1) :=
  if_neg hfree

/-- The source file is written under the next name that is made up, if no entry has that. -/
theorem on_writeSource_of_free {h : Host}
    (hfree : "source-" ++ (h.draws h.drawn).text ++ ".dl" ∉ h.files.namesIn w.root) (text : String) :
    (w.writeSource text).on h = (do
      write (entryPath w.root ("source-" ++ (h.draws h.drawn).text ++ ".dl")) text
      return entryPath w.root ("source-" ++ (h.draws h.drawn).text ++ ".dl") :
        Action IoError FilePath).on { h with drawn := h.drawn + 1 } := by
  have hfresh : (freshIn w.root "source-" ".dl").on h =
      (.ok ("source-" ++ (h.draws h.drawn).text ++ ".dl"), { h with drawn := h.drawn + 1 }) := by
    rw [on_freshIn, maxTries, freshName?_of_not_mem hfree]
  rw [writeSource, on_bind_of_ok hfresh]

theorem writeSource_carried {n₁ n₂ : Nat} {left₁ left₂ : Host} (hσ : Renaming σ) (hhosts : Renamed σ h₁ h₂)
    (hsource : unused = "source-" ++ (h₁.draws n₁).text ++ ".dl")
    (hrenamed : σ unused = "source-" ++ (h₂.draws n₂).text ++ ".dl") (hroot : ∀ name ∈ w.root, Plain name)
    (hleft : Renames σ (Vacant unused) { h₁ with drawn := n₁ } { h₂ with drawn := n₂ } left₁ left₂)
    (text : String) :
    Matched (Renames σ FileTree.Sound { h₁ with drawn := n₁ + 1 } { h₂ with drawn := n₂ + 1 }) (FilePath.rename σ)
      ((w.writeSource text).on left₁) (((w.rename σ).writeSource text).on left₂) := by
  obtain ⟨files, hsound, hlacks⟩ := hleft
  -- The first name that is drawn is taken on neither host, so neither draws another.
  have hfree := hlacks.not_mem_namesIn w.root
  have hfree' : σ unused ∉ (files.rename σ).namesIn (w.rename σ).root := by
    rw [rename, FileTree.namesIn_rename hσ]
    intro hmem
    obtain ⟨name, hname, heq⟩ := List.mem_map.1 hmem
    exact hfree (hσ.injective heq ▸ hname)
  rw [hsource] at hfree
  rw [hrenamed] at hfree'
  rw [on_writeSource_of_free (w := w) (h := { h₁ with drawn := n₁, files }) hfree,
    on_writeSource_of_free (w := w.rename σ) (h := { h₂ with drawn := n₂, files := files.rename σ }) hfree']
  have hpath : (entryPath w.root ("source-" ++ (h₁.draws n₁).text ++ ".dl")).rename σ =
      entryPath (w.rename σ).root ("source-" ++ (h₂.draws n₂).text ++ ".dl") := by
    rw [rename_entryPath hσ hroot (plain_source _), ← hsource, hrenamed]
    rfl
  have hwrite := matches_write hσ (hhosts.drawn (n₁ + 1) (n₂ + 1)) text fun _ _ hfiles =>
    FileTree.Sound.write hfiles (entryPath_isAbsolute w.root ("source-" ++ (h₁.draws n₁).text ++ ".dl"))
  rw [hpath] at hwrite
  have hdone (S : Host → Host → Prop) :
      (pure (entryPath w.root ("source-" ++ (h₁.draws n₁).text ++ ".dl")) : Action IoError FilePath).Matches S
        (FilePath.rename σ)
        (pure (entryPath (w.rename σ).root ("source-" ++ (h₂.draws n₂).text ++ ".dl")) : Action IoError FilePath) := by
    rw [← hpath]
    exact matches_pure _
  exact hwrite.bind (fun _ => hdone _) _ _ (.intro files hsound)

theorem submits_starting {h h' : Host} {program : String}
    (hwrite : (w.writeSource program).on h = (.ok source, h')) : (w.starting source h'.files).Submits program := by
  obtain ⟨name, -, rfl, hfile⟩ := on_writeSource_eq_ok hwrite
  refine ⟨(entryPath w.root name).text, rfl, ?_⟩
  change h'.files.read w.root (entryPath w.root name) = _
  rw [FileTree.read_of_isAbsolute (entryPath_isAbsolute w.root name) w.root h.directory]
  exact FileTree.read_of_write hfile

theorem startable_carried (hσ : Renaming σ) (hhosts : Renamed σ h₁ h₂) (hbinary : w.binary.rename σ = w.binary)
    (source : FilePath) :
    h₂.startable w.binary ((w.rename σ).arguments (source.rename σ) []) (w.root.map σ) =
      h₁.startable w.binary (w.arguments source []) w.root := by
  have hnul : ((w.binary.text :: (w.rename σ).arguments (source.rename σ) []).any fun text => '\x00' ∈ text.toList) =
      (w.binary.text :: w.arguments source []).any fun text => '\x00' ∈ text.toList := by
    cases houtput : w.outputDir? with
    | none =>
      simp only [arguments, rename, houtput, Option.map_none, List.append_nil, List.any_cons, List.any_nil,
        String.toList_append, List.mem_append, FilePath.nul_mem_rename hσ]
    | some dir =>
      simp only [arguments, rename, houtput, Option.map_some, Option.getD_some, List.append_nil, List.any_cons,
        List.any_nil, String.toList_append, List.mem_append, FilePath.nul_mem_rename hσ]
  rw [startable, startable, hnul, resolveProgram_rename hσ hhosts _ hbinary]

theorem loadFile_carried (hcarries : Carries σ s h₁ h₂) {name : String} (hname : Plain name) (dir : FilePath)
    (relations : Datalog.Relations) :
    loadFile h₂ (dir.rename σ) relations (σ name) = loadFile h₁ dir relations name := by
  rw [loadFile, loadFile, hcarries.relation, ← FilePath.rename_name hcarries.names hname,
    ← FilePath.rename_join hcarries.names, readText_rename hcarries.names hcarries.hosts]

theorem foldlM_loadFile_carried (hcarries : Carries σ s h₁ h₂) {names : List String}
    (hnames : ∀ name ∈ names, Plain name) (dir : FilePath) (relations : Datalog.Relations) :
    (names.map σ).foldlM (loadFile h₂ (dir.rename σ)) relations = names.foldlM (loadFile h₁ dir) relations := by
  induction names generalizing relations with
  | nil => exact Eq.refl (pure relations)
  | cons name names ih =>
    obtain ⟨hname, hnames⟩ := List.forall_mem_cons.1 hnames
    rw [List.map_cons, List.foldlM_cons, List.foldlM_cons, loadFile_carried hcarries hname]
    exact bind_congr fun next => ih hnames next

theorem load_carried (hcarries : Carries σ s h₁ h₂) (hsound : h₁.files.Sound) (w : Workspace) :
    load h₂ (w.rename σ) = load h₁ w := by
  rw [load, load, rename]
  cases w.outputDir? with
  | none => exact Eq.refl (Except.ok ∅)
  | some dir =>
    simp only [Option.map_some, list_rename hcarries.names hcarries.hosts]
    cases hlist : h₁.list dir with
    | error cause => simp only [Except.map, bind, Except.bind]
    | ok names =>
      obtain ⟨place, -, hnames⟩ := FileTree.list_eq_ok_iff.1 hlist
      have hplain : ∀ name ∈ names, Plain name := fun name hname => hsound.plain_of_mem_namesIn (hnames ▸ hname)
      simp only [Except.map, bind, Except.bind]
      exact foldlM_loadFile_carried hcarries hplain dir ∅

section Collecting

variable {deeds₁ deeds₂ : Nat → Start → Except IoError Deed}

theorem effect_carried (hσ : Renaming σ) (hhosts : Renamed σ h₁ h₂) (hsource : source.isAbsolute = true)
    (hdirs : ∀ dir ∈ w.outputDir?, dir.isAbsolute = true) {d : Deed} (hfixed : ∀ file ∈ d.files, σ file.1 = file.1) :
    (d.effect ((w.rename σ).starting (source.rename σ) h₂.files)).1 =
      (d.effect (w.starting source h₁.files)).1.rename σ := by
  have hsource' : (source.rename σ).isAbsolute = true := (FilePath.isAbsolute_rename hσ source).trans hsource
  have hdirs' : ∀ dir ∈ (w.rename σ).outputDir?, dir.isAbsolute = true := by
    intro dir' hdir'
    obtain ⟨dir, hdir, rfl⟩ := Option.map_eq_some_iff.1 hdir'
    exact (FilePath.isAbsolute_rename hσ dir).trans (hdirs dir hdir)
  rw [Deed.effect, Deed.effect, outputDir?_starting hsource' hdirs', outputDir?_starting hsource hdirs]
  cases houtput : w.outputDir? with
  | none =>
    rw [rename, houtput]
    exact hhosts.files
  | some dir =>
    rw [rename, houtput]
    change (h₂.files.deposit (w.root.map σ) (dir.rename σ) d.files).1 = (h₁.files.deposit w.root dir d.files).1.rename σ
    rw [hhosts.files, FileTree.deposit_rename hσ _ _ d.plain hfixed]

theorem collect_carried {program : String} (hcarries : Carries σ s h₁ h₂) (hsound : h₁.files.Sound)
    (hbinary : w.binary = s.binary) (hsource : source.isAbsolute = true)
    (hdirs : ∀ dir ∈ w.outputDir?, dir.isAbsolute = true)
    (hbehaviour₁ : h₁.behaviour = performing deeds₁) (hbehaviour₂ : h₂.behaviour = performing deeds₂)
    (hsubmits₁ : (w.starting source h₁.files).Submits program)
    (hsubmits₂ : ((w.rename σ).starting (source.rename σ) h₂.files).Submits program)
    (hdeeds : deeds₂ h₂.starts.length ((w.rename σ).starting (source.rename σ) h₂.files) =
      deeds₁ h₁.starts.length (w.starting source h₁.files))
    (hfixed : ∀ d, deeds₁ h₁.starts.length (w.starting source h₁.files) = .ok d → ∀ file ∈ d.files, σ file.1 = file.1) :
    Alongside program h₁ h₂ ((w.collect source).on h₁) (((w.rename σ).collect (source.rename σ)).on h₂) := by
  have hkept : w.binary.rename σ = w.binary := by rw [hbinary, hcarries.binary]
  have hstartable := startable_carried hcarries.names hcarries.hosts hkept source
  rcases hcan : h₁.startable w.binary (w.arguments source []) w.root with cause | ⟨⟩
  · obtain ⟨e, hfirst⟩ := on_collect_of_error hcan
    obtain ⟨e', hsecond⟩ := on_collect_of_error (w := w.rename σ) (hstartable.trans hcan)
    rw [hfirst, hsecond]
    exact ⟨rfl, [], [], (List.append_nil _).symm, (List.append_nil _).symm, .nil⟩
  have hfirst := on_collect_of_ok hbehaviour₁ hcan
  have hsecond := on_collect_of_ok (w := w.rename σ) hbehaviour₂ (hstartable.trans hcan)
  have hforall : List.Forall₂ (fun s₁ s₂ => s₁.Submits program ∧ s₂.Submits program)
      [w.starting source h₁.files] [(w.rename σ).starting (source.rename σ) h₂.files] :=
    .cons ⟨hsubmits₁, hsubmits₂⟩ .nil
  simp only [hdeeds] at hsecond
  cases hdeed : deeds₁ h₁.starts.length (w.starting source h₁.files) with
  | error cause =>
    simp only [hdeed] at hfirst hsecond
    obtain ⟨hleft, e, he⟩ := hfirst
    obtain ⟨hleft', e', he'⟩ := hsecond
    exact ⟨by rw [he, he']; rfl, _, _, congrArg Host.starts hleft, congrArg Host.starts hleft', hforall⟩
  | ok d =>
    simp only [hdeed] at hfirst hsecond
    obtain ⟨hleft, hresult⟩ := hfirst
    obtain ⟨hleft', hresult'⟩ := hsecond
    refine ⟨?_, _, _, congrArg Host.starts hleft, congrArg Host.starts hleft', hforall⟩
    rw [hresult, hresult']
    split
    · rfl
    · have heffect := effect_carried hcarries.names hcarries.hosts hsource hdirs (hfixed d hdeed)
      have hafter : (d.effect (w.starting source h₁.files)).1.Sound := by
        refine d.sound_effect hsound ?_
        rwa [outputDir?_starting hsource hdirs]
      rw [heffect]
      generalize (d.effect (w.starting source h₁.files)).1 = files at hafter
      have hended := hcarries.on (hcarries.hosts.startedWith (w.starting source h₁.files)
        ((w.rename σ).starting (source.rename σ) h₂.files) files) rfl rfl
      exact congrArg Except.toOption (load_carried hended hafter w)

/-- Runs of one program, by interpreters that do the same with it, submit it or fail alike and find the same. -/
theorem within_carried {program source : String} (hcarries : Carries σ s h₁ h₂)
    (hplain : ∀ name ∈ h₁.temporary, Plain name) (hsound : h₁.files.Sound) (hmakes₁ : MakesUp h₁ name source)
    (hmakes₂ : MakesUp h₂ (σ name) (σ source)) (hlacks : h₁.files.Lacks source) (htemporary : source ∉ h₁.temporary)
    (hbehaviour₁ : h₁.behaviour = performing deeds₁) (hbehaviour₂ : h₂.behaviour = performing deeds₂)
    (hdeeds : ∀ s₁ s₂ : Start, s₁.Submits program → s₂.Submits program →
      deeds₁ h₁.starts.length s₁ = deeds₂ h₂.starts.length s₂)
    (hfixed : ∀ (s₁ : Start) (d : Deed), s₁.Submits program → deeds₁ h₁.starts.length s₁ = .ok d →
      ∀ file ∈ d.files, σ file.1 = file.1) :
    Alongside program h₁ h₂ ((within s fun w => w.interpretText program).on h₁)
      ((within s fun w => w.interpretText program).on h₂) := by
  -- The name of the source file stays free while the workspace is laid out.
  have hunused : ∀ name' ∈ ownNames, source ∉ h₁.temporary ++ [name] ++ [name'] := by
    intro name' hname' hmem
    rcases List.mem_append.1 hmem with hmem | hmem
    · rcases List.mem_append.1 hmem with hmem | hmem
      · exact htemporary hmem
      · obtain ⟨hroot, hsource⟩ := hmakes₁.head?
        rw [List.mem_singleton.1 hmem, hroot] at hsource
        cases hsource
    · exact (hmakes₁.not_own hname').2 (List.mem_singleton.1 hmem).symm
  obtain ⟨n₁, hname₁, hsource₁⟩ := hmakes₁
  obtain ⟨n₂, hname₂, hsource₂⟩ := hmakes₂
  have hunstarted {e e' : Error} {left₁ left₂ : Host} (hstarts₁ : left₁.starts = h₁.starts)
      (hstarts₂ : left₂.starts = h₂.starts) :
      Alongside (α := Datalog.Relations) program h₁ h₂ (.error e, left₁) (.error e', left₂) :=
    ⟨rfl, [], [], hstarts₁.trans (List.append_nil _).symm, hstarts₂.trans (List.append_nil _).symm, .nil⟩
  rw [on_within, on_within]
  rcases (make_carried hcarries hplain hname₁ hname₂ ⟨hsound, hlacks⟩ hunused).cases with
    ⟨e, e', left₁, left₂, hon₁, hon₂, hleft⟩ | ⟨w, left₁, left₂, hon₁, hon₂, hleft⟩
  · rw [hon₁, hon₂]
    obtain ⟨files, -⟩ := hleft
    exact hunstarted rfl rfl
  obtain ⟨hbinary, ⟨last, hroot, hlast⟩, hdirs⟩ := shape_of_make hon₁
  have hnames : ∀ name ∈ w.root, Plain name :=
    hroot ▸ List.forall_mem_append.2 ⟨hplain, List.forall_mem_singleton.2 hlast⟩
  rw [hon₁, hon₂]
  simp only [on_interpretText]
  rcases (writeSource_carried hcarries.names hcarries.hosts hsource₁ hsource₂ hnames hleft program).cases with
    ⟨e, e', written₁, written₂, hwrite₁, hwrite₂, hwritten⟩ | ⟨p, written₁, written₂, hwrite₁, hwrite₂, hwritten⟩
  · rw [hwrite₁, hwrite₂]
    obtain ⟨files, -⟩ := hwritten
    exact hunstarted rfl rfl
  have hp : p.isAbsolute = true := by
    obtain ⟨name, -, rfl, -⟩ := on_writeSource_eq_ok hwrite₁
    exact entryPath_isAbsolute _ _
  have hsubmits₁ := submits_starting hwrite₁
  have hsubmits₂ := submits_starting hwrite₂
  rw [hwrite₁, hwrite₂]
  obtain ⟨files, hfiles⟩ := hwritten
  have hstarting := hcarries.on ((hcarries.hosts.drawn (n₁ + 1) (n₂ + 1)).withFiles files) rfl rfl
  have hcollect := collect_carried hstarting hfiles hbinary hp hdirs hbehaviour₁ hbehaviour₂ hsubmits₁ hsubmits₂
    (hdeeds _ _ hsubmits₁ hsubmits₂).symm fun d => hfixed _ d hsubmits₁
  exact ⟨hcollect.value, hcollect.starts⟩

end Collecting

end Workspace

end Interpreter

end PolicyCheck
