import PolicyCheck.Proofs.Datalog.Evaluation
import PolicyCheck.Proofs.Interpreter.Removal

/-!
# Evaluations that leave nothing behind

An evaluation uses one workspace and takes it out on every course that it may take. Evaluations in a row,
of whatever policies, leave the directory for temporary files as they have found it.
-/

namespace PolicyCheck.Datalog

open FilePath (Plain)
open Interpreter (Workspace)

namespace Policy

open PolicyCheck.Action

variable {b : Behaviour} {area : Place} {w : Workspace} {p : Policy} {h : Host}

theorem spares_stage (hw : w.Sparing b area) (hincludes : ∀ file ∈ p.includes, Plain file.1) :
    (p.stage w).Spares b area w.root := by
  refine Spares.forM hw.out fun file hfile => ?_
  have hdir := hw.apart w.includeDir (by simp [Workspace.directories])
  exact ((Workspace.spares_stageInclude hw.out hdir (hincludes file hfile) file.2).mapError _).map _

theorem restored_run (hplain : ∀ name ∈ h.temporary, Plain name) (hconfined : h.behaviour.Confined)
    (hnamed : ∀ dir ∈ p.settings.named, h.behaviour.Outside h.temporary (h.absolute dir).place)
    (hincludes : ∀ file ∈ p.includes, Plain file.1) (program : String) :
    h.Restored ((p.run program).on h).2 := by
  rw [run_eq]
  refine Workspace.restored_within hplain hconfined hnamed fun w hw => ?_
  exact (spares_stage hw hincludes).bind hw.out fun _ _ => hw.interpretText program

end Policy

structure Request where
  policy : Policy
  database : FilePath
  schema : Schema
  repository? : Option Int

namespace Request

def after (r : Request) (h : Host) : Host :=
  ((r.policy.evaluate r.database r.schema r.repository?).run h).2

def afterAll (rs : List Request) (h : Host) : Host := rs.foldl (fun h r => r.after h) h

/-- The directories that the settings name lie outside the directory for temporary files, and the files for
inclusion are named by names of entries. -/
structure Fits (r : Request) (h : Host) : Prop where
  named : ∀ dir ∈ r.policy.settings.named, h.behaviour.Outside h.temporary (h.absolute dir).place
  includes : ∀ file ∈ r.policy.includes, Plain file.1

variable {r : Request} {h h' : Host}

theorem Fits.of_restored (hr : r.Fits h) (hrestored : h.Restored h') : r.Fits h' where
  named := by
    rw [hrestored.behaviour, hrestored.temporary]
    intro dir hdir
    rw [Host.absolute, hrestored.directory]
    exact hr.named dir hdir
  includes := hr.includes

theorem restored_after (hplain : ∀ name ∈ h.temporary, Plain name) (hconfined : h.behaviour.Confined)
    (hr : r.Fits h) : h.Restored (r.after h) := by
  let c : Policy.Call := ⟨r.database, r.schema, r.repository?, h⟩
  change h.Restored (c.outcome r.policy).2
  rw [c.outcome_eq]
  cases c.program r.policy with
  | error e => exact .refl h
  | ok program =>
    have hrun := Policy.restored_run hplain hconfined hr.named hr.includes program
    dsimp only
    cases ((r.policy.run program).on c.host).1.bind Results.ofRelations with
    | ok results => exact hrun
    | error e => exact ⟨hrun.temporary, hrun.directory, hrun.behaviour, hrun.entries, hrun.below⟩

theorem restored_afterAll {rs : List Request} (hplain : ∀ name ∈ h.temporary, Plain name)
    (hconfined : h.behaviour.Confined) (hrs : ∀ r ∈ rs, r.Fits h) : h.Restored (afterAll rs h) := by
  induction rs generalizing h with
  | nil => exact .refl h
  | cons r rs ih =>
    obtain ⟨hr, hrs⟩ := List.forall_mem_cons.1 hrs
    have hfirst := restored_after hplain hconfined hr
    refine hfirst.trans (ih ?_ ?_ fun r' hr' => (hrs r' hr').of_restored hfirst)
    · exact hfirst.temporary.symm ▸ hplain
    · exact hfirst.behaviour.symm ▸ hconfined

/-- Evaluations in a row leave the entries of the directory for temporary files as they were, whatever
comes of them, and everything below as it was if every entry lay in a directory. -/
theorem temporary_entries_kept {rs : List Request} (hplain : ∀ name ∈ h.temporary, Plain name)
    (hconfined : h.behaviour.Confined)
    (hnamed : ∀ r ∈ rs, ∀ dir ∈ r.policy.settings.named,
      h.behaviour.Outside h.temporary (h.absolute dir).place)
    (hincludes : ∀ r ∈ rs, ∀ file ∈ r.policy.includes, Plain file.1) :
    (∀ name, name ∈ (afterAll rs h).files.namesIn h.temporary ↔ name ∈ h.files.namesIn h.temporary) ∧
      (∀ name, (afterAll rs h).files.entry? (h.temporary ++ [name]) =
        h.files.entry? (h.temporary ++ [name])) ∧
      (h.files.Closed → ∀ place, h.temporary <+: place →
        (afterAll rs h).files.entry? place = h.files.entry? place) := by
  have hrestored := restored_afterAll hplain hconfined fun r hr => ⟨hnamed r hr, hincludes r hr⟩
  refine ⟨fun name => ?_, hrestored.entries, fun hclosed => hrestored.below (hclosed.closedIn _)⟩
  rw [FileTree.mem_namesIn_iff, FileTree.mem_namesIn_iff, hrestored.entries]

/-! ### An interpreter that crashes -/

/-- Dies with a file left behind in the working directory. -/
def crash (_ : Nat) (s : Start) : Ending :=
  .exited 134 [] (s.files.put (s.directory ++ ["core"]) (.file [] false))

/-- A host with an interpreter that crashes, and with a temporary file of somebody else. -/
def crashing : Host where
  files := ⟨[(["souffle"], .file [] true), (["tmp"], .directory), (["tmp", "note"], .file [] false)]⟩
  behaviour := crash

/-- A policy with a file for inclusion; its output directory does not exist. -/
def including : Request where
  policy :=
    { text := "#include \"helpers.dl\""
      settings := { binary := ⟨"/souffle"⟩, outputDir? := some ⟨"/out"⟩ }
      includes := [("helpers.dl", "// helpers")] }
  database := ⟨"/db"⟩
  schema := ⟨[]⟩
  repository? := none

theorem confined_crash : Behaviour.Confined crash := by
  intro n s status stderr files hending q hchanged
  obtain ⟨-, -, rfl⟩ := Ending.exited.inj hending
  refine ⟨s.directory, .working, ?_⟩
  by_contra hbelow
  refine hchanged ?_
  rw [FileTree.entry?_put (by simp), if_neg]
  rintro rfl
  exact hbelow (List.prefix_append _ _)

/-- Both runs have a private directory beside the note while they last, and it is gone after each of them. -/
theorem temporary_entries_kept_crashing :
    (afterAll [including, including] crashing).starts.map (fun s => s.files.namesIn ["tmp"]) =
        [["note", "attest-policy-000000"], ["note", "attest-policy-000002"]] ∧
      (∀ name, name ∈ (afterAll [including, including] crashing).files.namesIn ["tmp"] ↔
        name ∈ crashing.files.namesIn ["tmp"]) ∧
      (∀ name, (afterAll [including, including] crashing).files.entry? ["tmp", name] =
        crashing.files.entry? ["tmp", name]) := by
  have hplain : ∀ name ∈ crashing.temporary, Plain name :=
    List.forall_mem_singleton.2 (by decide)
  have hnamed : ∀ r ∈ [including, including], ∀ dir ∈ r.policy.settings.named,
      crashing.behaviour.Outside crashing.temporary (crashing.absolute dir).place := by
    intro r hr dir hdir
    obtain rfl : r = including := by simpa using hr
    obtain rfl : dir = ⟨"/out"⟩ := List.mem_singleton.1 hdir
    exact ⟨by decide +kernel, fun hholds => absurd hholds (by decide +kernel)⟩
  have hincludes : ∀ r ∈ [including, including], ∀ file ∈ r.policy.includes, Plain file.1 := by
    intro r hr file hfile
    obtain rfl : r = including := by simpa using hr
    obtain rfl : file = ("helpers.dl", "// helpers") := List.mem_singleton.1 hfile
    decide
  have hkept := temporary_entries_kept hplain confined_crash hnamed hincludes
  exact ⟨by decide +kernel, hkept.1, hkept.2.1⟩

end Request

end PolicyCheck.Datalog
