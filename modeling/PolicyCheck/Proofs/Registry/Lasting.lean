import PolicyCheck.Proofs.Interpreter.Deed
import PolicyCheck.Proofs.Registry.Step

/-!
# Evaluations that keep the working directory

The working directory, and every directory above it, outlasts an evaluation unless an interpreter takes one
of them away. A database that can be found at the start can then be found by every call. Interpreters that
end as they like and write what they like to their output directories take none away.
-/

namespace PolicyCheck

def Behaviour.Keeping (b : Behaviour) : Prop :=
  ∀ n s status stderr files, b n s = .exited status stderr files → files.Extends s.files

namespace Host

/-- The place is the working directory and is there, with all directories above it. -/
structure Standing (b : Behaviour) (d : Place) (h : Host) : Prop where
  directory : h.directory = d
  behaviour : h.behaviour = b
  stands (q : Place) (hq : q <+: d) : h.files.isDirectoryAt q = true

variable {b : Behaviour} {d : Place} {h : Host}

theorem Standing.extends {files : FileTree} (hstanding : h.Standing b d) (hfiles : files.Extends h.files) :
    { h with files }.Standing b d :=
  ⟨hstanding.directory, hstanding.behaviour, fun q hq => hfiles q (hstanding.stands q hq)⟩

theorem Standing.startedWith {s : Start} {files : FileTree} (hb : b.Keeping)
    (hending : files = h.files ∨ ∃ n status stderr, h.behaviour n s = .exited status stderr files)
    (hfiles : s.files = h.files) (hstanding : h.Standing b d) : (h.startedWith s files).Standing b d := by
  have hextends : files.Extends h.files := by
    rcases hending with rfl | ⟨n, status, stderr, hending⟩
    · exact fun q hq => hq
    · rw [hstanding.behaviour] at hending
      exact hfiles ▸ hb _ _ _ _ _ hending
  obtain ⟨hdirectory, hbehaviour, hstands⟩ := hstanding.extends hextends
  exact ⟨hdirectory, hbehaviour, hstands⟩

theorem Standing.not_prefix {directory : Place} {name : String} (hname : name ∉ h.files.namesIn directory)
    (hstanding : h.Standing b d) : ¬ directory ++ [name] <+: d := by
  intro hbelow
  have hstands := FileTree.isDirectoryAt_iff.1 (hstanding.stands _ hbelow)
  rw [FileTree.entry?_eq_none_of_namesIn hname] at hstands
  cases hstands

theorem Standing.pruned {place : Place} (hplace : ¬ place <+: d) (hstanding : h.Standing b d) :
    (h.pruned place).Standing b d := by
  refine ⟨hstanding.directory, hstanding.behaviour, fun q hq => ?_⟩
  rw [FileTree.isDirectoryAt_iff, Host.pruned, FileTree.entry?_prune fun hbelow => hplace (hbelow.trans hq)]
  exact FileTree.isDirectoryAt_iff.1 (hstanding.stands q hq)

/-- A run takes out what lies below a place where nothing stood, and so nothing above the working
directory. -/
def invariant_standing (hb : b.Keeping) (d : Place) : Invariant (Standing b d) where
  spared place := ¬ place <+: d
  drawn _ hstanding := ⟨hstanding.directory, hstanding.behaviour, hstanding.stands⟩
  complained _ hstanding := ⟨hstanding.directory, hstanding.behaviour, hstanding.stands⟩
  grown hfiles hstanding := hstanding.extends hfiles
  started _ _ hending hfiles hstanding := hstanding.startedWith hb hending hfiles
  fresh hname hstanding := hstanding.not_prefix hname
  pruned names hplace hstanding :=
    hstanding.pruned fun hbelow => hplace ((List.prefix_append _ names).trans hbelow)

end Host

namespace Datalog.Policy.Call

/-- The database is given by an absolute path, or no interpreter takes a directory away. -/
def Steady (c : Call) : Prop :=
  c.database.isAbsolute = true ∨ (c.host.files.Closed ∧ c.host.behaviour.Keeping)

theorem steady_of_performing {c : Call} {deeds : Nat → Start → Except IoError Interpreter.Deed}
    (hclosed : c.host.files.Closed) (hbehaviour : c.host.behaviour = Interpreter.performing deeds) : c.Steady := by
  refine .inr ⟨hclosed, fun n s status stderr files hending => ?_⟩
  rw [hbehaviour, Interpreter.performing] at hending
  cases hdeed : deeds n s with
  | error cause =>
    rw [hdeed] at hending
    cases hending
  | ok d =>
    rw [hdeed] at hending
    obtain ⟨-, -, rfl⟩ := Ending.exited.inj hending
    rw [Interpreter.Deed.effect]
    cases s.outputDir? with
    | none => exact fun q hq => hq
    | some dir => exact FileTree.deposit_extends d.files

end Datalog.Policy.Call

namespace Registry

open Datalog (Policy)
open Datalog.Policy (Call)

variable {r : Registry} {c : Call} {ps : List Policy} {b : Behaviour} {d : Place}

theorem lasting_of_isAbsolute (h : c.database.isAbsolute = true) : r.Lasting c := by
  intro _ call hcall
  rw [(mem_calls hcall).1]
  exact .inl h

theorem standing_of_mem_calls (hb : b.Keeping) (hstanding : c.host.Standing b d) :
    ∀ call ∈ calls c ps, call.1.host.Standing b d := by
  induction ps generalizing c with
  | nil => exact List.forall_mem_nil _
  | cons p ps ih =>
    have hleft := p.preserves_evaluate (ε := Error) (Host.invariant_standing hb d) c.database c.schema
      c.repository? c.host hstanding
    exact List.forall_mem_cons.2 ⟨hstanding, ih (c := { c with host := (c.outcome p).2 }) hleft⟩

/-- The database can be found throughout an evaluation if its path is absolute or no interpreter takes a
directory away. -/
theorem lasting_of_steady (hsteady : c.Steady) : r.Lasting c := by
  rcases hsteady with habsolute | ⟨hclosed, hb⟩
  · exact lasting_of_isAbsolute habsolute
  rintro (habsolute | hdirectory) call hcall
  · exact lasting_of_isAbsolute habsolute (.inl habsolute) call hcall
  · have hstanding : c.host.Standing c.host.behaviour c.host.directory := by
      refine ⟨rfl, rfl, fun q hq => ?_⟩
      exact hclosed.isDirectoryAt_above hdirectory hq
    have hlast := standing_of_mem_calls hb hstanding call hcall
    exact .inr (hlast.stands _ (hlast.directory ▸ List.prefix_refl _))

/-- Interpreters that end with any status and message, and write any files to their output directories, let
every evaluation last. -/
theorem lasting_of_performing {deeds : Nat → Start → Except IoError Interpreter.Deed}
    (hclosed : c.host.files.Closed) (hbehaviour : c.host.behaviour = Interpreter.performing deeds) :
    r.Lasting c :=
  lasting_of_steady (Call.steady_of_performing hclosed hbehaviour)

end Registry

end PolicyCheck
