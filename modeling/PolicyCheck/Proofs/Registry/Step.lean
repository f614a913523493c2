import PolicyCheck.Proofs.Interpreter.Invariant
import PolicyCheck.Proofs.Registry.Evaluation

/-!
# Evaluations as steps

A call puts the program together, runs it and draws its conclusions; an evaluation is one call after the
other. Whatever outlasts a run outlasts evaluations.
-/

namespace PolicyCheck

open PolicyCheck.Action
open Host (Invariant)

variable {ε : Type} {I : Host → Prop}

namespace Datalog.Policy

open Interpreter (Workspace)

/-- What a call makes of the result of its run. -/
def conclude (p : Policy) (repository? : Option Int) (result : Except Error Relations) :
    Action ε (Except Error Bool × Policy) :=
  match result.bind Results.ofRelations with
  | .ok results => pure (.ok (results.hold repository?), { p with results? := some results })
  | .error e => do
    liftM (Host.complain (p.complaint result e))
    return (.ok false, { p with results? := some {} })

theorem evaluate_eq (p : Policy) (database : FilePath) (schema : Schema) (repository? : Option Int) :
    (liftM (p.evaluate database schema repository?) : Action ε (Except Error Bool × Policy)) = (do
      match p.programAt (← get) database schema with
      | .error e => return (.error e, p)
      | .ok program => p.conclude repository? (← (p.run program).attempt)) := by
  refine ext_on fun h => ?_
  let c : Call := ⟨database, schema, repository?, h⟩
  have hcall : (p.evaluate database schema repository?).run h = c.outcome p := rfl
  have hprogram : c.program p = p.programAt h database schema := rfl
  rw [on_liftM, hcall, c.outcome_eq, hprogram, on_bind_of_ok (on_get h)]
  cases p.programAt h database schema with
  | error e => rfl
  | ok program =>
    dsimp only
    rw [on_bind_of_ok (on_attempt _ h), conclude]
    cases ((p.run program).on h).1.bind Results.ofRelations <;> rfl

theorem on_evaluate (p : Policy) (c : Call) :
    (liftM (p.evaluate c.database c.schema c.repository?) : Action ε _).on c.host =
      (.ok (c.answer p, c.after p), (c.outcome p).2) := rfl

theorem preserves_stage (hinv : Invariant I) (p : Policy) (w : Workspace) : (p.stage w).Preserves I := by
  refine Preserves.forM (fun file => ?_) p.includes
  exact ((Workspace.preserves_stageInclude hinv w file.1 file.2).mapError _).map _

theorem preserves_run (hinv : Invariant I) (p : Policy) (program : String) : (p.run program).Preserves I := by
  rw [run_eq]
  refine Workspace.preserves_within hinv (fun w hroot => ?_) p.settings
  exact (preserves_stage hinv p w).bind fun _ => Workspace.preserves_interpretText hinv hroot program

theorem preserves_evaluate (hinv : Invariant I) (p : Policy) (database : FilePath) (schema : Schema)
    (repository? : Option Int) :
    (liftM (p.evaluate database schema repository?) : Action ε _).Preserves I := by
  rw [evaluate_eq]
  refine preserves_get.bind fun h => ?_
  cases p.programAt h database schema with
  | error e => exact preserves_pure _
  | ok program =>
    refine Preserves.bind (preserves_run hinv p program).attempt fun result => ?_
    rw [conclude]
    cases result.bind Results.ofRelations with
    | ok results => exact preserves_pure _
    | error e => exact (hinv.preserves_complain _).bind fun _ => preserves_pure _

end Datalog.Policy

namespace Registry

open Datalog (Policy Record)
open Datalog.Policy (Call)

theorem evaluateAll_cons_eq (database : FilePath) (schema : Schema) (repository? : Option Int) (p : Policy)
    (ps : List Policy) :
    (liftM (evaluateAll database schema repository? (p :: ps)) :
      Action ε (Except Error (Bool × List Record) × List Policy)) = (do
        match ← liftM (p.evaluate database schema repository?) with
        | (.error e, p) => return (.error e, p :: ps)
        | (.ok holds, p) =>
          let (rest, ps) ← liftM (evaluateAll database schema repository? ps)
          return (rest.map fun r => (holds && r.1, p.failed ++ r.2), p :: ps)) := by
  refine ext_on fun h => ?_
  have hcons := evaluateAll_cons database schema repository? p ps h
  have hcall : (p.evaluate database schema repository?).run h =
    (⟨database, schema, repository?, h⟩ : Call).outcome p := rfl
  rw [on_liftM, hcons, on_bind_of_ok (on_liftM _ h), hcall, Call.answer, Call.after]
  rcases (⟨database, schema, repository?, h⟩ : Call).outcome p with ⟨⟨e | holds, p'⟩, h'⟩ <;> rfl

theorem preserves_evaluateAll (hinv : Invariant I) (database : FilePath) (schema : Schema)
    (repository? : Option Int) (ps : List Policy) :
    (liftM (evaluateAll database schema repository? ps) : Action ε _).Preserves I := by
  induction ps with
  | nil => exact preserves_pure _
  | cons p ps ih =>
    rw [evaluateAll_cons_eq]
    refine (p.preserves_evaluate hinv database schema repository?).bind fun ⟨answer, p'⟩ => ?_
    cases answer with
    | error e => exact preserves_pure _
    | ok holds => exact ih.bind fun _ => preserves_pure _

theorem on_evaluate (r : Registry) (c : Call) :
    (liftM (r.evaluate c.database c.schema c.repository?) : Action ε _).on c.host =
      (.ok (r.answer c, r.after c), (r.outcome c).2) := rfl

theorem evaluate_eq (r : Registry) (database : FilePath) (schema : Schema) (repository? : Option Int) :
    (liftM (r.evaluate database schema repository?) : Action ε (Except Error (List Record) × Registry)) =
      (do
        match ← liftM (evaluateAll database schema repository? r.datalog) with
        | (.error e, datalog) => return (.error e, { r with datalog })
        | (.ok (verdict, failed), datalog) =>
          return (.ok failed, { r with datalog, verdict? := some verdict })) := by
  refine ext_on fun h => ?_
  have hcall : (r.evaluate database schema repository?).run h =
    r.outcome ⟨database, schema, repository?, h⟩ := rfl
  rw [on_liftM, hcall, outcome_eq, on_bind_of_ok (on_liftM _ h)]
  rcases (evaluateAll database schema repository? r.datalog).run h with
    ⟨⟨e | ⟨verdict, failed⟩, datalog⟩, left⟩ <;> rfl

theorem preserves_evaluate (hinv : Invariant I) (r : Registry) (database : FilePath) (schema : Schema)
    (repository? : Option Int) :
    (liftM (r.evaluate database schema repository?) : Action ε _).Preserves I := by
  rw [evaluate_eq]
  refine (preserves_evaluateAll hinv database schema repository? r.datalog).bind fun ⟨answer, datalog⟩ => ?_
  cases answer with
  | error e => exact preserves_pure _
  | ok found => exact preserves_pure _

end Registry

end PolicyCheck
