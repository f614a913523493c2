import PolicyCheck.Proofs.Host.Renaming
import PolicyCheck.Proofs.Interpreter.Run
import PolicyCheck.Proofs.Interpreter.Workspace

/-!
# Steps on two hosts

A step on one host matches a step on another when both fail or neither does, the value of the second is the
counterpart of the value of the first, and the hosts that they leave belong together as those before did.
The files of the second host are those of the first under other names.
-/

namespace PolicyCheck

/-- The name is on the way to no entry of the tree. -/
def FileTree.Lacks (t : FileTree) (name : String) : Prop := ∀ e ∈ t.entries, name ∉ e.1

theorem FileTree.Lacks.put {t : FileTree} {name : String} {place : Place} (ht : t.Lacks name)
    (hplace : name ∉ place) (entry : Entry) : (t.put place entry).Lacks name := by
  intro e he
  rw [FileTree.put] at he
  split at he
  · obtain ⟨old, hold, rfl⟩ := List.mem_map.1 he
    split
    · exact hplace
    · exact ht old hold
  · rcases List.mem_append.1 he with hold | hnew
    · exact ht e hold
    · rw [List.mem_singleton.1 hnew]
      exact hplace

theorem FileTree.Lacks.not_mem_namesIn {t : FileTree} {name : String} (ht : t.Lacks name) (directory : Place) :
    name ∉ t.namesIn directory := by
  intro hname
  obtain ⟨entry, hmem⟩ := mem_namesIn.1 hname
  exact ht _ hmem (List.mem_append_right _ (List.mem_singleton_self name))

theorem FileTree.Lacks.prune {t : FileTree} {name : String} (ht : t.Lacks name) (place : Place) :
    (t.prune place).Lacks name := fun e he => ht e (List.mem_filter.1 he).1

namespace Action

variable {ε ε' α β γ δ : Type} {S : Host → Host → Prop} {f : α → β} {g : γ → δ}

/-- Both steps have failed, or the value of the second is the counterpart of the value of the first. -/
def Matched (S : Host → Host → Prop) (f : α → β) (first : Except ε α × Host) (second : Except ε' β × Host) : Prop :=
  second.1.toOption = first.1.toOption.map f ∧ S first.2 second.2

def Matches (S : Host → Host → Prop) (f : α → β) (a : Action ε α) (b : Action ε' β) : Prop :=
  ∀ h₁ h₂, S h₁ h₂ → Matched S f (a.on h₁) (b.on h₂)

theorem Matched.cases {first : Except ε α × Host} {second : Except ε' β × Host} (h : Matched S f first second) :
    (∃ e e' left₁ left₂, first = (.error e, left₁) ∧ second = (.error e', left₂) ∧ S left₁ left₂) ∨
      ∃ value left₁ left₂, first = (.ok value, left₁) ∧ second = (.ok (f value), left₂) ∧ S left₁ left₂ := by
  obtain ⟨hvalue, hleft⟩ := h
  rcases first with ⟨e | value, left₁⟩
  · rcases second with ⟨e' | value', left₂⟩
    · exact .inl ⟨e, e', left₁, left₂, rfl, rfl, hleft⟩
    · cases hvalue
  · rcases second with ⟨e' | value', left₂⟩
    · cases hvalue
    · obtain rfl : value' = f value := Option.some.inj hvalue
      exact .inr ⟨value, left₁, left₂, rfl, rfl, hleft⟩

theorem matches_pure (value : α) : (pure value : Action ε α).Matches S f (pure (f value) : Action ε' β) :=
  fun _ _ h => ⟨rfl, h⟩

theorem matches_ask {read₁ : Host → Except ε α} {read₂ : Host → Except ε' β}
    (hread : ∀ h₁ h₂, S h₁ h₂ → (read₂ h₂).toOption = (read₁ h₁).toOption.map f) :
    (ask read₁).Matches S f (ask read₂) := fun h₁ h₂ h => ⟨hread h₁ h₂ h, h⟩

theorem Matches.bind {a : Action ε α} {b : Action ε' β} {next : α → Action ε γ} {next' : β → Action ε' δ}
    (ha : a.Matches S f b) (hnext : ∀ value, (next value).Matches S g (next' (f value))) :
    (a >>= next).Matches S g (b >>= next') := by
  intro h₁ h₂ h
  rcases (ha h₁ h₂ h).cases with ⟨e, e', left₁, left₂, hon₁, hon₂, hleft⟩ | ⟨value, left₁, left₂, hon₁, hon₂, hleft⟩
  · rw [on_bind_of_error hon₁, on_bind_of_error hon₂]
    exact ⟨rfl, hleft⟩
  · rw [on_bind_of_ok hon₁, on_bind_of_ok hon₂]
    exact hnext value left₁ left₂ hleft

end Action

namespace Host

open PolicyCheck.Action

/-- All that is on the second host is on the first under other names. -/
structure Renamed (σ : String → String) (h₁ h₂ : Host) : Prop where
  files : h₂.files = h₁.files.rename σ
  directory : h₂.directory = h₁.directory.map σ
  temporary : h₂.temporary = h₁.temporary.map σ
  searchPath : h₂.searchPath = h₁.searchPath.map (FilePath.rename σ)

/-- Each host differs from an earlier one in its files alone, and the files of the second are those of the first
under other names. The files of the first are of a certain kind. -/
inductive Renames (σ : String → String) (P : FileTree → Prop) (before₁ before₂ : Host) : Host → Host → Prop
  | intro (files : FileTree) (kind : P files) :
    Renames σ P before₁ before₂ { before₁ with files } { before₂ with files := files.rename σ }

variable {σ : String → String} {P : FileTree → Prop} {before₁ before₂ h₁ h₂ : Host} {p : FilePath}

theorem Renamed.drawn (hhosts : Renamed σ h₁ h₂) (n₁ n₂ : Nat) :
    Renamed σ { h₁ with drawn := n₁ } { h₂ with drawn := n₂ } :=
  ⟨hhosts.files, hhosts.directory, hhosts.temporary, hhosts.searchPath⟩

theorem Renamed.withFiles (hhosts : Renamed σ h₁ h₂) (files : FileTree) :
    Renamed σ { h₁ with files } { h₂ with files := files.rename σ } :=
  ⟨rfl, hhosts.directory, hhosts.temporary, hhosts.searchPath⟩

theorem Renamed.startedWith (hhosts : Renamed σ h₁ h₂) (start₁ start₂ : Start) (files : FileTree) :
    Renamed σ (h₁.startedWith start₁ files) (h₂.startedWith start₂ (files.rename σ)) :=
  ⟨rfl, hhosts.directory, hhosts.temporary, hhosts.searchPath⟩

theorem Renamed.renames (hbefore : Renamed σ before₁ before₂) (hkind : P before₁.files) :
    Renames σ P before₁ before₂ before₁ before₂ := by
  have hintro : Renames σ P before₁ before₂ before₁ { before₂ with files := before₁.files.rename σ } :=
    .intro before₁.files hkind
  rwa [← hbefore.files] at hintro

theorem Renames.pruned (hσ : Renaming σ) (h : Renames σ P before₁ before₂ h₁ h₂) {place : Place}
    (hkind : ∀ files, P files → P (files.prune place)) :
    Renames σ P before₁ before₂ (h₁.pruned place) (h₂.pruned (place.map σ)) := by
  obtain ⟨files, hfiles⟩ := h
  have hintro : Renames σ P before₁ before₂ { before₁ with files := files.prune place }
      { before₂ with files := (files.prune place).rename σ } := .intro _ (hkind files hfiles)
  rwa [← FileTree.prune_rename hσ] at hintro

theorem matches_change {f₁ f₂ : Host → Except IoError FileTree}
    (hf : ∀ files, f₂ { before₂ with files := files.rename σ } =
      (f₁ { before₁ with files }).map (FileTree.rename σ))
    (hkind : ∀ files files', P files → f₁ { before₁ with files } = .ok files' → P files') :
    (change f₁).Matches (Renames σ P before₁ before₂) id (change f₂) := by
  rintro _ _ ⟨files, hfiles⟩
  rw [on_change, on_change, hf]
  cases hfirst : f₁ { before₁ with files } with
  | error cause => exact ⟨rfl, .intro files hfiles⟩
  | ok files' => exact ⟨rfl, .intro files' (hkind files files' hfiles hfirst)⟩

theorem matches_makeDirectory (hσ : Renaming σ) (hbefore : Renamed σ before₁ before₂)
    (hkind : ∀ files files', P files → files.makeDirectory before₁.directory p = .ok files' → P files') :
    (makeDirectory p).Matches (Renames σ P before₁ before₂) id (makeDirectory (p.rename σ)) := by
  refine matches_change (fun files => ?_) hkind
  rw [hbefore.directory]
  exact FileTree.makeDirectory_rename hσ _ _ _

theorem matches_write (hσ : Renaming σ) (hbefore : Renamed σ before₁ before₂) (text : String)
    (hkind : ∀ files files', P files →
      files.write before₁.directory p (Text.Utf8.encode text.toList) = .ok files' → P files') :
    (write p text).Matches (Renames σ P before₁ before₂) id (write (p.rename σ) text) := by
  refine matches_change (fun files => ?_) hkind
  rw [hbefore.directory]
  exact FileTree.write_rename hσ _ _ _ _

theorem matches_resolve (hσ : Renaming σ) (hbefore : Renamed σ before₁ before₂)
    (hp : before₂.absolute p = (before₁.absolute p).rename σ) :
    (Action.ask fun h => h.resolve p).Matches (Renames σ P before₁ before₂) (FilePath.rename σ)
      (Action.ask fun h => h.resolve p) := by
  refine matches_ask ?_
  rintro _ _ ⟨files, -⟩
  have hstands : (files.rename σ).isDirectoryAt before₂.directory = files.isDirectoryAt before₁.directory := by
    rw [hbefore.directory]
    exact FileTree.isDirectoryAt_rename hσ _ _
  change (if p.isAbsolute || (files.rename σ).isDirectoryAt before₂.directory then .ok (before₂.absolute p)
    else .error .notFound : Except IoError FilePath).toOption =
    (if p.isAbsolute || files.isDirectoryAt before₁.directory then .ok (before₁.absolute p)
      else .error .notFound : Except IoError FilePath).toOption.map (FilePath.rename σ)
  rw [hstands, hp]
  split <;> rfl

/-! ### What is found on the hosts -/

theorem readText_rename (hσ : Renaming σ) (hrenamed : Renamed σ h₁ h₂) (p : FilePath) :
    h₂.readText (p.rename σ) = h₁.readText p := by
  rw [readText, readText, hrenamed.files, hrenamed.directory, FileTree.read_rename hσ]

theorem list_rename (hσ : Renaming σ) (hrenamed : Renamed σ h₁ h₂) (p : FilePath) :
    h₂.list (p.rename σ) = (h₁.list p).map (List.map σ) := by
  rw [list, list, hrenamed.files, hrenamed.directory, FileTree.list_rename hσ]

theorem checkProgram_rename (hσ : Renaming σ) (hrenamed : Renamed σ h₁ h₂) (directory : Place)
    (p : FilePath) : h₂.checkProgram (directory.map σ) (p.rename σ) = h₁.checkProgram directory p := by
  rw [checkProgram, checkProgram, hrenamed.files, FileTree.find_rename hσ]
  rcases h₁.files.find directory p with _ | ⟨_, _ | ⟨_, _ | _⟩⟩ <;> rfl

theorem firstProgram_rename (hσ : Renaming σ) (hrenamed : Renamed σ h₁ h₂) (directory : Place)
    (ps : List FilePath) :
    h₂.firstProgram (directory.map σ) (ps.map (FilePath.rename σ)) = h₁.firstProgram directory ps := by
  induction ps with
  | nil => rfl
  | cons p ps ih =>
    rw [List.map_cons, firstProgram, firstProgram, checkProgram_rename hσ hrenamed, ih]

theorem resolveProgram_rename (hσ : Renaming σ) (hrenamed : Renamed σ h₁ h₂) (directory : Place)
    (hp : p.rename σ = p) : h₂.resolveProgram (directory.map σ) p = h₁.resolveProgram directory p := by
  have hcheck := checkProgram_rename hσ hrenamed directory p
  have hfirst := firstProgram_rename hσ hrenamed directory (h₁.searchPath.map fun dir => dir.join p)
  have hcandidates : (h₁.searchPath.map fun dir => dir.join p).map (FilePath.rename σ) =
      h₂.searchPath.map fun dir => dir.join p := by
    rw [hrenamed.searchPath, List.map_map, List.map_map]
    refine List.map_congr_left fun dir _ => ?_
    rw [Function.comp_apply, Function.comp_apply, FilePath.rename_join hσ, hp]
  rw [hp] at hcheck
  rw [hcandidates] at hfirst
  rw [resolveProgram, resolveProgram, hcheck, hfirst]

end Host

end PolicyCheck
