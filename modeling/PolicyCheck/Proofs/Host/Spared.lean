import PolicyCheck.Proofs.Host.Place
import PolicyCheck.Proofs.Interpreter.Run
import PolicyCheck.Proofs.Interpreter.Workspace

/-!
# Steps that spare a directory

A step spares a directory but for one place in it: whatever has changed in the directory lies below that
place. Steps in a row spare it if each of them does. A started program does as it likes below the
directories that it is given, so that what a start spares is a matter of these directories.
-/

namespace PolicyCheck

namespace Start

/-- The flags in front of the directories that a program is given. -/
def directoryFlags : List String := ["--include-dir=", "--output-dir=", "--fact-dir=", "--library-dir="]

/-- The place is that of a directory that the program is given: its working directory, or one that an
argument names behind a flag. -/
inductive Given (s : Start) : Place → Prop
  | working : Given s s.directory
  | argument {flag : String} {dir : FilePath} (hflag : flag ∈ directoryFlags)
    (hargument : flag ++ dir.text ∈ s.arguments) : Given s (dir.placeFrom s.directory)

end Start

namespace Behaviour

/-- The programs change nothing but what lies below a directory that they are given. -/
def Confined (b : Behaviour) : Prop :=
  ∀ n s status stderr files, b n s = .exited status stderr files →
    ∀ q, files.entry? q ≠ s.files.entry? q → ∃ d, s.Given d ∧ d <+: q

/-- In the area the programs change nothing but what lies below a directory there that they are given. -/
def ConfinedIn (b : Behaviour) (area : Place) : Prop :=
  ∀ n s status stderr files, b n s = .exited status stderr files →
    ∀ q, area <+: q → files.entry? q ≠ s.files.entry? q → ∃ d, s.Given d ∧ area <+: d ∧ d <+: q

/-- The place lies outside the area. If the area lies in it, a program that is given the place must not take
this for leave to change things in the area. -/
structure Outside (b : Behaviour) (area place : Place) : Prop where
  apart : ¬ area <+: place
  holding : place <+: area → b.ConfinedIn area

end Behaviour

variable {b : Behaviour} {area root place : Place}

/-- What lies in the area and not below the place stands where it stood after a put below the place or
outside the area. -/
theorem FileTree.entry?_put_of_spared {t : FileTree} {entry : Entry} {q : Place} (hplace : place ≠ [])
    (hspared : area <+: place → root <+: place) (hq : area <+: q) (hout : ¬ root <+: q) :
    entry? (t.put place entry) q = t.entry? q := by
  rw [FileTree.entry?_put hplace, if_neg]
  rintro rfl
  exact hout (hspared hq)

namespace Host

variable {h h' h'' : Host}

/-- The directory stands, and the programs are those that behave so. -/
structure Ready (b : Behaviour) (area : Place) (h : Host) : Prop where
  stands : h.files.isDirectoryAt area = true
  behaviour : h.behaviour = b

/-- Nothing in the area has changed but what lies below a place. -/
structure Spares (area root : Place) (h h' : Host) : Prop where
  temporary : h'.temporary = h.temporary
  directory : h'.directory = h.directory
  behaviour : h'.behaviour = h.behaviour
  entries (q : Place) (hq : area <+: q) (hout : ¬ root <+: q) : h'.files.entry? q = h.files.entry? q

namespace Spares

theorem refl (h : Host) : h.Spares area root h := ⟨rfl, rfl, rfl, fun _ _ _ => rfl⟩

theorem trans (h₁ : h.Spares area root h') (h₂ : h'.Spares area root h'') : h.Spares area root h'' where
  temporary := h₂.temporary.trans h₁.temporary
  directory := h₂.directory.trans h₁.directory
  behaviour := h₂.behaviour.trans h₁.behaviour
  entries q hq hout := (h₂.entries q hq hout).trans (h₁.entries q hq hout)

theorem ready (h₁ : h.Spares area root h') (hroot : ¬ root <+: area) (hready : h.Ready b area) :
    h'.Ready b area where
  stands := by
    rw [FileTree.isDirectoryAt_iff, h₁.entries area (List.prefix_refl area) hroot]
    exact FileTree.isDirectoryAt_iff.1 hready.stands
  behaviour := h₁.behaviour.trans hready.behaviour

end Spares

end Host

namespace Action

variable {ε ε' α β : Type} {a : Action ε α}

/-- Wherever the directory stands, the action spares it but for what lies below the place. -/
def Spares (b : Behaviour) (area root : Place) (a : Action ε α) : Prop :=
  ∀ h : Host, h.Ready b area → h.Spares area root (a.on h).2

theorem spares_of_on_snd_eq (ha : ∀ h, (a.on h).2 = h) : a.Spares b area root := by
  intro h hready
  rw [ha]
  exact .refl h

theorem spares_pure (value : α) : (pure value : Action ε α).Spares b area root :=
  spares_of_on_snd_eq fun _ => rfl

theorem spares_ask (f : Host → Except ε α) : (ask f).Spares b area root := spares_of_on_snd_eq fun _ => rfl

theorem Spares.mapError (ha : a.Spares b area root) (f : ε → ε') : (a.mapError f).Spares b area root := ha

theorem Spares.map (ha : a.Spares b area root) (f : α → β) : (f <$> a).Spares b area root := by
  intro h hready
  rw [on_map]
  exact ha h hready

theorem Spares.bind {next : α → Action ε β} (hroot : ¬ root <+: area) (ha : a.Spares b area root)
    (hnext : ∀ value, (∃ h h', a.on h = (.ok value, h')) → (next value).Spares b area root) :
    (a >>= next).Spares b area root := by
  intro h hready
  have hfirst := ha h hready
  rw [on_bind]
  rcases hon : a.on h with ⟨e | value, h'⟩
  · rw [hon] at hfirst
    exact hfirst
  · rw [hon] at hfirst
    exact hfirst.trans (hnext value ⟨h, h', hon⟩ h' (hfirst.ready hroot hready))

theorem Spares.forM {f : α → Action ε Unit} (hroot : ¬ root <+: area) {as : List α}
    (hf : ∀ a ∈ as, (f a).Spares b area root) : (as.forM f).Spares b area root := by
  induction as with
  | nil => exact spares_pure ()
  | cons a as ih =>
    obtain ⟨ha, has⟩ := List.forall_mem_cons.1 hf
    exact ha.bind hroot fun _ _ => ih has

end Action

namespace Host

open PolicyCheck.Action

theorem spares_change {f : Host → Except IoError FileTree}
    (hf : ∀ h files, h.Ready b area → f h = .ok files → ∃ place entry,
      files = h.files.put place entry ∧ place ≠ [] ∧ (area <+: place → root <+: place)) :
    (change f).Spares b area root := by
  intro h hready
  rw [on_change]
  cases hfiles : f h with
  | error cause => exact .refl h
  | ok files =>
    obtain ⟨place, entry, rfl, hplace, hspared⟩ := hf h files hready hfiles
    exact ⟨rfl, rfl, rfl, fun q => FileTree.entry?_put_of_spared hplace hspared⟩

variable {p : FilePath}

theorem spares_makeDirectory (hp : p.isAbsolute = true) (hspared : area <+: p.place → root <+: p.place) :
    (makeDirectory p).Spares b area root := by
  refine spares_change fun h files _ hmake => ?_
  obtain ⟨target, hlocate, hvacant, rfl⟩ := FileTree.makeDirectory_eq_ok_iff.1 hmake
  have hplace := FileTree.place_of_locate hlocate
  rw [FilePath.placeFrom_of_isAbsolute hp] at hplace
  exact ⟨_, _, rfl, FileTree.ne_nil_of_entry?_eq_none hvacant, hplace ▸ hspared⟩

theorem spares_write (hp : p.isAbsolute = true)
    (hspared : area <+: p.place → root <+: p.place ∨ p.place = area) (text : String) :
    (write p text).Spares b area root := by
  refine spares_change fun h files hready hwrite => ?_
  obtain ⟨place, executable, hlocate, hthere, rfl⟩ := FileTree.write_eq_ok_iff.1 hwrite
  have hplace : place = p.placeFrom h.directory := FileTree.place_of_locate hlocate
  rw [FilePath.placeFrom_of_isAbsolute hp] at hplace
  refine ⟨_, _, rfl, FileTree.ne_nil_of_file hthere, fun harea => ?_⟩
  rcases hspared (hplace ▸ harea) with hroot | hself
  · exact hplace ▸ hroot
  · have hstands := FileTree.isDirectoryAt_iff.1 hready.stands
    rw [← hself, ← hplace] at hstands
    rcases hthere with ⟨hnone, -⟩ | ⟨old, hfile⟩
    · cases hnone.symm.trans hstands
    · cases hfile.symm.trans hstands

theorem spares_pruned (h : Host) (hplace : root <+: place) : h.Spares area root (h.pruned place) :=
  ⟨rfl, rfl, rfl, fun _ _ hout => FileTree.entry?_prune fun hbelow => hout (hplace.trans hbelow)⟩

/-- A start spares the area but for the place if whatever the program changes in the area lies below the
place. -/
theorem spares_start {program : FilePath} {arguments : List String} {directory : Place}
    (hchanges : ∀ n files status stderr files',
      b n ⟨program, arguments, directory, files⟩ = .exited status stderr files' →
        ∀ q, area <+: q → files'.entry? q ≠ files.entry? q → root <+: q) :
    (start program arguments directory).Spares b area root := by
  intro h hready
  rw [on_start]
  cases h.startable program arguments directory with
  | error cause => exact .refl h
  | ok _ =>
    dsimp only
    cases hending : h.behaviour h.starts.length ⟨program, arguments, directory, h.files⟩ with
    | refused cause => exact ⟨rfl, rfl, rfl, fun _ _ _ => rfl⟩
    | exited status stderr files =>
      rw [hready.behaviour] at hending
      refine ⟨rfl, rfl, rfl, fun q hq hout => ?_⟩
      by_contra hchanged
      exact hout (hchanges _ _ _ _ _ hending q hq hchanged)

/-! ### The directory for temporary files -/

variable {h h' h'' : Host}

/-- The directory for temporary files holds the entries that it held. Everything below them is as it was too,
unless something stood there below a place where nothing stood. -/
structure Restored (h h' : Host) : Prop where
  temporary : h'.temporary = h.temporary
  directory : h'.directory = h.directory
  behaviour : h'.behaviour = h.behaviour
  entries (name : String) :
    h'.files.entry? (h.temporary ++ [name]) = h.files.entry? (h.temporary ++ [name])
  below (hclosed : h.files.ClosedIn h.temporary) (q : Place) (hq : h.temporary <+: q) :
    h'.files.entry? q = h.files.entry? q

namespace Restored

theorem refl (h : Host) : h.Restored h := ⟨rfl, rfl, rfl, fun _ => rfl, fun _ _ _ => rfl⟩

theorem of_drawn (h : Host) (drawn : Nat) : h.Restored { h with drawn } :=
  ⟨rfl, rfl, rfl, fun _ => rfl, fun _ _ _ => rfl⟩

theorem trans (h₁ : h.Restored h') (h₂ : h'.Restored h'') : h.Restored h'' where
  temporary := h₂.temporary.trans h₁.temporary
  directory := h₂.directory.trans h₁.directory
  behaviour := h₂.behaviour.trans h₁.behaviour
  entries name := by
    have hentries := h₂.entries name
    rw [h₁.temporary] at hentries
    exact hentries.trans (h₁.entries name)
  below hclosed q hq := by
    have hfirst := h₁.below hclosed
    have hclosed' : h'.files.ClosedIn h'.temporary := by
      rw [h₁.temporary]
      intro place q hplace hbelow hvacant
      rw [hfirst place hplace] at hvacant
      rw [hfirst q (hplace.trans hbelow)]
      exact hclosed place q hplace hbelow hvacant
    exact (h₂.below hclosed' q (h₁.temporary.symm ▸ hq)).trans (hfirst q hq)

end Restored

/-- A fresh directory is used and taken out: if the use spares the rest, nothing has changed. -/
theorem restored_pruned {made used : Host} {last : String} {drawn : Nat}
    (hvacant : h.files.entry? (h.temporary ++ [last]) = none)
    (hmade : made = { h with files := h.files.put (h.temporary ++ [last]) .directory, drawn })
    (hused : made.Spares h.temporary (h.temporary ++ [last]) used) :
    h.Restored (used.pruned (h.temporary ++ [last])) := by
  have hentry (q : Place) (hq : h.temporary <+: q)
      (hnone : h.temporary ++ [last] <+: q → h.files.entry? q = none) :
      FileTree.entry? (used.files.prune (h.temporary ++ [last])) q = h.files.entry? q := by
    by_cases hbelow : h.temporary ++ [last] <+: q
    · rw [hnone hbelow, FileTree.entry?_prune_below (by simp) hbelow]
    · rw [FileTree.entry?_prune hbelow, hused.entries q hq hbelow, hmade, FileTree.entry?_put (by simp),
        if_neg]
      rintro rfl
      exact hbelow (List.prefix_refl _)
  subst hmade
  refine ⟨hused.temporary, hused.directory, hused.behaviour, fun name => ?_, fun hclosed q hq => ?_⟩
  · refine hentry _ (List.prefix_append _ _) fun hbelow => ?_
    rw [← hbelow.eq_of_length (by simp)]
    exact hvacant
  · exact hentry q hq fun hbelow => hclosed _ q (List.prefix_append _ _) hbelow hvacant

end Host

end PolicyCheck
