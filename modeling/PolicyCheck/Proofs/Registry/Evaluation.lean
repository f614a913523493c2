import PolicyCheck.Registry
import PolicyCheck.Proofs.Datalog.Evaluation
import PolicyCheck.Proofs.Datalog.ProgramText

/-!
# Evaluations of a registry

An evaluation calls the policies one after the other, each on the host that the call before has left.
All of them are asked for the same database and schema, and whether a program can be put together is a
matter of these two and of the working directory, never of the policy. So an evaluation that is refused
is refused by the first call, before anything has happened, and any other gets a verdict from every
policy; but a run may take the working directory away, and then a database whose path is relative is
lost to the policies after it.
-/

namespace PolicyCheck

namespace Datalog.Policy.Call

variable {c : Call} {p : Policy}

/-- The database can be found: its path is absolute, or there is a working directory for it to be below. -/
def Placed (c : Call) : Prop :=
  c.database.isAbsolute = true ∨ c.host.files.isDirectoryAt c.host.directory = true

def Ready (c : Call) : Prop := c.Placed ∧ ∀ t ∈ c.schema.factTables, t.Supported

theorem exists_program_iff : (∃ program, c.program p = .ok program) ↔ c.Ready := by
  have hplaced : (∃ path, c.host.resolve c.database = .ok path) ↔ c.Placed := by
    simp only [Host.resolve_eq_ok_iff, Placed, exists_and_left, exists_eq', and_true]
  rw [Ready, ← hplaced]
  exact exists_programAt_iff

theorem refused_of_not_ready (h : ¬ c.Ready) : c.Refused p := by
  cases hprogram : c.program p with
  | error e => exact refused_of_error hprogram
  | ok program => exact absurd (exists_program_iff.1 ⟨program, hprogram⟩) h

theorem exists_answer_iff : (∃ verdict, c.answer p = .ok verdict) ↔ c.Ready := by
  constructor
  · rintro ⟨verdict, hanswer⟩
    by_contra hnot
    obtain ⟨e, -, herror, -⟩ := refused_of_not_ready (p := p) hnot
    cases herror.symm.trans hanswer
  · intro hready
    rcases c.course (p := p) with hrefused | hfailed | hdecided
    · obtain ⟨e, herror, -⟩ := hrefused
      obtain ⟨program, hprogram⟩ := exists_program_iff.2 hready
      cases herror.symm.trans hprogram
    · obtain ⟨program, -, -, hanswer, -⟩ := hfailed
      exact ⟨false, hanswer⟩
    · obtain ⟨program, relations, verdict, -, -, -, hanswer, -⟩ := hdecided
      exact ⟨verdict, hanswer⟩

end Datalog.Policy.Call

namespace Registry

open Datalog (Policy Record)
open Datalog.Policy (Call)

variable {r : Registry} {c : Call} {p : Policy} {ps : List Policy}

/-- Evaluating all policies is a call of the first and then, unless that was in error, evaluating the
others where it has left the host. -/
theorem evaluateAll_cons (database : FilePath) (schema : Schema) (repository? : Option Int) (p : Policy)
    (ps : List Policy) (h : Host) :
    let c : Call := ⟨database, schema, repository?, h⟩
    (evaluateAll database schema repository? (p :: ps)).run h =
      match c.answer p with
      | .error e => ((.error e, c.after p :: ps), (c.outcome p).2)
      | .ok holds =>
        let rest := (evaluateAll database schema repository? ps).run (c.outcome p).2
        ((rest.1.1.map fun r => (holds && r.1, (c.after p).failed ++ r.2), c.after p :: rest.1.2), rest.2) := by
  intro c
  have hcall : (p.evaluate database schema repository?).run h = c.outcome p := rfl
  rw [evaluateAll, StateT.run_bind, hcall, Call.answer, Call.after]
  rcases c.outcome p with ⟨⟨e | holds, p'⟩, h'⟩
  · rfl
  · rfl

/-! ### Calls in a row -/

/-- The calls of policies one after the other, each on the host that the call before has left. -/
def calls (c : Call) : List Policy → List (Call × Policy)
  | [] => []
  | p :: ps => (c, p) :: calls { c with host := (c.outcome p).2 } ps

theorem mem_calls {call : Call × Policy} (hcall : call ∈ calls c ps) :
    call.1 = { c with host := call.1.host } ∧ call.2 ∈ ps := by
  induction ps generalizing c with
  | nil => cases hcall
  | cons p ps ih =>
    rcases List.mem_cons.1 hcall with rfl | hrest
    · exact ⟨rfl, List.mem_cons_self⟩
    · obtain ⟨hcall, hp⟩ := ih hrest
      exact ⟨hcall, List.mem_cons_of_mem _ hp⟩

theorem map_snd_calls (c : Call) (ps : List Policy) : (calls c ps).map Prod.snd = ps := by
  induction ps generalizing c with
  | nil => rfl
  | cons p ps ih => rw [calls, List.map_cons, ih]

def Answers (calls : List (Call × Policy)) (verdicts : List Bool) : Prop :=
  List.Forall₂ (fun call verdict => call.1.answer call.2 = .ok verdict) calls verdicts

theorem evaluateAll_of_ready (ps : List Policy) (h : ∀ call ∈ calls c ps, call.1.Ready) :
    ∃ verdicts left, Answers (calls c ps) verdicts ∧
      (evaluateAll c.database c.schema c.repository? ps).run c.host =
        ((.ok (verdicts.all id, (calls c ps).flatMap fun call => (call.1.after call.2).failed),
          (calls c ps).map fun call => call.1.after call.2), left) := by
  induction ps generalizing c with
  | nil => exact ⟨[], c.host, .nil, rfl⟩
  | cons p ps ih =>
    obtain ⟨hfirst, hothers⟩ := List.forall_mem_cons.1 h
    obtain ⟨verdict, hanswer⟩ := Call.exists_answer_iff.2 hfirst
    obtain ⟨verdicts, left, hverdicts, hrest⟩ := ih (c := { c with host := (c.outcome p).2 }) hothers
    refine ⟨verdict :: verdicts, left, .cons hanswer hverdicts, ?_⟩
    rw [evaluateAll_cons, hanswer]
    simp only [hrest]
    rfl

theorem ready_of_evaluateAll {result : Bool × List Record}
    (h : ((evaluateAll c.database c.schema c.repository? ps).run c.host).1.1 = .ok result) :
    ∀ call ∈ calls c ps, call.1.Ready := by
  induction ps generalizing c result with
  | nil => exact List.forall_mem_nil _
  | cons p ps ih =>
    rw [evaluateAll_cons] at h
    cases hanswer : c.answer p with
    | error e =>
      rw [hanswer] at h
      cases h
    | ok verdict =>
      rw [hanswer] at h
      obtain ⟨rest, hrest, -⟩ := map_eq_ok_iff.1 h
      exact List.forall_mem_cons.2
        ⟨Call.exists_answer_iff.1 ⟨verdict, hanswer⟩, ih (c := { c with host := (c.outcome p).2 }) hrest⟩

/-! ### Evaluations -/

/-- What an evaluation gives: the answer, the registry and the host after it. -/
def outcome (r : Registry) (c : Call) : (Except Error (List Record) × Registry) × Host :=
  (r.evaluate c.database c.schema c.repository?).run c.host

def answer (r : Registry) (c : Call) : Except Error (List Record) := (r.outcome c).1.1

def after (r : Registry) (c : Call) : Registry := (r.outcome c).1.2

theorem outcome_eq (r : Registry) (c : Call) :
    r.outcome c =
      match (evaluateAll c.database c.schema c.repository? r.datalog).run c.host with
      | ((.error e, datalog), left) => ((.error e, { r with datalog }), left)
      | ((.ok (verdict, failed), datalog), left) =>
        ((.ok failed, { r with datalog, verdict? := some verdict }), left) := by
  rw [outcome, evaluate, StateT.run_bind]
  rcases (evaluateAll c.database c.schema c.repository? r.datalog).run c.host with
    ⟨⟨e | ⟨verdict, failed⟩, datalog⟩, left⟩
  · rfl
  · rfl

theorem outcome_of_not_ready (hpolicies : r.datalog ≠ []) (h : ¬ c.Ready) :
    ∃ e, r.outcome c = ((.error e, r), c.host) := by
  obtain ⟨p, ps, hdatalog⟩ := List.exists_cons_of_ne_nil hpolicies
  obtain ⟨e, -, hanswer, hafter, hleft⟩ := Call.refused_of_not_ready (p := p) h
  refine ⟨e, ?_⟩
  rw [outcome_eq, hdatalog, evaluateAll_cons, hanswer, hafter, hleft, ← hdatalog]

theorem outcome_of_ready (h : ∀ call ∈ calls c r.datalog, call.1.Ready) :
    ∃ verdicts left, Answers (calls c r.datalog) verdicts ∧
      r.outcome c =
        ((.ok ((calls c r.datalog).flatMap fun call => (call.1.after call.2).failed),
          { r with
            datalog := (calls c r.datalog).map fun call => call.1.after call.2
            verdict? := some (verdicts.all id) }), left) := by
  obtain ⟨verdicts, left, hverdicts, hall⟩ := evaluateAll_of_ready r.datalog h
  exact ⟨verdicts, left, hverdicts, by rw [outcome_eq, hall]⟩

theorem ready_of_answer {failed : List Record} (h : r.answer c = .ok failed) :
    ∀ call ∈ calls c r.datalog, call.1.Ready := by
  rw [answer, outcome_eq] at h
  split at h
  · cases h
  · rename_i verdict failed' datalog left hall
    exact ready_of_evaluateAll (congrArg (·.1.1) hall)

/-- A database that can be found at the start of an evaluation can be found by each of its calls. -/
def Lasting (r : Registry) (c : Call) : Prop := c.Placed → ∀ call ∈ calls c r.datalog, call.1.Placed

theorem outcome_of_error (hlasting : r.Lasting c) {e : Error} (h : r.answer c = .error e) :
    (r.datalog ≠ [] ∧ ¬ c.Ready) ∧ r.outcome c = ((.error e, r), c.host) := by
  have hnot : ¬ ∀ call ∈ calls c r.datalog, call.1.Ready := by
    intro hready
    obtain ⟨verdicts, left, -, houtcome⟩ := outcome_of_ready hready
    rw [answer, houtcome] at h
    cases h
  have hpolicies : r.datalog ≠ [] := by
    intro hempty
    rw [hempty] at hnot
    exact hnot (List.forall_mem_nil _)
  have hfirst : ¬ c.Ready := fun hready => hnot fun call hcall =>
    ⟨hlasting hready.1 call hcall, by rw [(mem_calls hcall).1]; exact hready.2⟩
  obtain ⟨e', houtcome⟩ := outcome_of_not_ready hpolicies hfirst
  rw [answer, houtcome] at h
  obtain rfl := Except.error.inj h
  exact ⟨⟨hpolicies, hfirst⟩, houtcome⟩

/-- An evaluation during which the database can be found is refused if and only if there is a policy to
be evaluated and a fact table has a column of an unsupported type. Then the registry is as it was, and
so is the host: nothing has been started. -/
theorem refused_iff_unsupported (r : Registry) (c : Call)
    (hplaced : ∀ call ∈ calls c r.datalog, call.1.Placed) :
    ((∃ e, r.answer c = .error e) ↔
      r.datalog ≠ [] ∧ ∃ t ∈ c.schema.factTables, ∃ column ∈ t.columns, column.Unsupported) ∧
    ∀ e, r.answer c = .error e → r.after c = r ∧ (r.outcome c).2 = c.host := by
  have hunsupported : (¬ ∀ t ∈ c.schema.factTables, t.Supported) ↔
      ∃ t ∈ c.schema.factTables, ∃ column ∈ t.columns, column.Unsupported := by
    simp only [Table.Supported, not_forall, not_not, exists_prop]
  have hfirst (hpolicies : r.datalog ≠ []) : c.Placed := by
    obtain ⟨p, ps, hdatalog⟩ := List.exists_cons_of_ne_nil hpolicies
    exact hplaced (c, p) (hdatalog ▸ List.mem_cons_self)
  have hlasting : r.Lasting c := fun _ => hplaced
  rw [← hunsupported]
  refine ⟨⟨?_, ?_⟩, fun e he => ?_⟩
  · rintro ⟨e, he⟩
    obtain ⟨hpolicies, hready⟩ := (outcome_of_error hlasting he).1
    exact ⟨hpolicies, fun hschema => hready ⟨hfirst hpolicies, hschema⟩⟩
  · rintro ⟨hpolicies, hschema⟩
    obtain ⟨e, houtcome⟩ := outcome_of_not_ready hpolicies fun hready => hschema hready.2
    exact ⟨e, by rw [answer, houtcome]⟩
  · rw [after, (outcome_of_error hlasting he).2]
    exact ⟨rfl, rfl⟩

def evaluatedOnce : Registry where
  datalog := [{ text := "// a", results? := some { passed := [⟨"p", 1, none⟩] } }, { text := "// b" }]
  verdict? := some true

/-- A fact table with a column of a type that no Datalog type stands for. -/
def datedTable : Table := ⟨"_dated", [⟨"created", .other "DATETIME", false⟩]⟩

def dated : Call := ⟨⟨"out.db"⟩, ⟨[datedTable]⟩, none, {}⟩

theorem mem_factTables_dated : datedTable ∈ dated.schema.factTables :=
  List.mem_filter.2 ⟨List.mem_cons_self, by decide +kernel⟩

theorem not_ready_dated : ¬ dated.Ready := fun hready =>
  hready.2 _ mem_factTables_dated _ List.mem_cons_self ⟨"DATETIME", rfl⟩

theorem placed_dated : ∀ call ∈ calls dated evaluatedOnce.datalog, call.1.Placed := by
  -- Both calls are refused, so the host is the same for both.
  have hleft (p : Policy) : (dated.outcome p).2 = dated.host := by
    obtain ⟨e, -, -, -, hleft⟩ := Call.refused_of_not_ready (p := p) not_ready_dated
    exact hleft
  have hplaced : dated.Placed := .inr (by decide +kernel)
  simp only [evaluatedOnce, calls, hleft, List.forall_mem_cons]
  exact ⟨hplaced, hplaced, List.forall_mem_nil _⟩

theorem refused_iff_unsupported_dated :
    (∀ call ∈ calls dated evaluatedOnce.datalog, call.1.Placed) ∧
    (∃ e, evaluatedOnce.answer dated = .error e) ∧ evaluatedOnce.after dated = evaluatedOnce ∧
      (evaluatedOnce.outcome dated).2 = dated.host := by
  obtain ⟨hiff, hkept⟩ := refused_iff_unsupported evaluatedOnce dated placed_dated
  obtain ⟨e, he⟩ := hiff.2 ⟨List.cons_ne_nil _ _, datedTable, mem_factTables_dated, _,
    List.mem_cons_self, "DATETIME", rfl⟩
  exact ⟨placed_dated, ⟨e, he⟩, hkept e he⟩

end Registry

end PolicyCheck
