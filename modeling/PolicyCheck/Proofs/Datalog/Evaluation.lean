import PolicyCheck.Datalog.Policy
import PolicyCheck.Proofs.Interpreter.Run

/-!
# Calls of a Datalog policy

A call of `Policy.evaluate` takes one of three courses. It is refused, when no program can be put
together, and then nothing has happened. It fails, when the run gives no relations or a row of a
result relation cannot be read, and then the policy is left without any results. Or it decides, and
then the results are those of this run and of no other. The host of a call is left open, and with it
all that a started interpreter may do, so that calls in a row are calls on any hosts.
-/

namespace PolicyCheck.Datalog

open Interpreter (Workspace)

/-! ### Records of a run -/

/-- The records are the rows of a relation read one by one; a missing relation has no rows. -/
def Record.Listed (relations : Relations) (name : String) (records : List Record) : Prop :=
  List.Forall₂ (fun row record => Record.ofRow row = .ok record) ((relations.get? name).getD []) records

def Unreadable (relations : Relations) : Prop :=
  ∃ name ∈ [Record.passedRelation, Record.failedRelation],
    ∃ row ∈ (relations.get? name).getD [], ∃ fault, Record.ofRow row = .error fault

theorem Record.ofRelations_eq_ok_iff {relations : Relations} {name : String} {records : List Record} :
    Record.ofRelations relations name = .ok records ↔ Listed relations name records :=
  mapM_eq_ok_iff

theorem Results.ofRelations_eq_ok_iff {relations : Relations} {r : Results} :
    Results.ofRelations relations = .ok r ↔
      r.relations = relations ∧ Record.Listed relations Record.passedRelation r.passed ∧
        Record.Listed relations Record.failedRelation r.failed := by
  rw [Results.ofRelations, bind_eq_ok_iff]
  constructor
  · rintro ⟨passed, hpassed, h⟩
    obtain ⟨failed, hfailed, h⟩ := bind_eq_ok_iff.1 h
    obtain rfl : { relations, passed, failed } = r := Except.ok.inj h
    exact ⟨rfl, Record.ofRelations_eq_ok_iff.1 (mapError_eq_ok_iff.1 hpassed),
      Record.ofRelations_eq_ok_iff.1 (mapError_eq_ok_iff.1 hfailed)⟩
  · rintro ⟨rfl, hpassed, hfailed⟩
    refine ⟨r.passed, mapError_eq_ok_iff.2 (Record.ofRelations_eq_ok_iff.2 hpassed), ?_⟩
    refine bind_eq_ok_iff.2 ⟨r.failed, ?_, rfl⟩
    exact mapError_eq_ok_iff.2 (Record.ofRelations_eq_ok_iff.2 hfailed)

theorem not_unreadable_iff {relations : Relations} :
    ¬ Unreadable relations ↔ ∃ r, Results.ofRelations relations = .ok r := by
  simp only [Results.ofRelations_eq_ok_iff]
  constructor
  · intro h
    have listed (name : String) (hname : name ∈ [Record.passedRelation, Record.failedRelation]) :
        ∃ records, Record.Listed relations name records :=
      (exists_forall₂_or_error Record.ofRow _).resolve_right fun hfault => h ⟨name, hname, hfault⟩
    obtain ⟨passed, hpassed⟩ := listed Record.passedRelation (by simp)
    obtain ⟨failed, hfailed⟩ := listed Record.failedRelation (by simp)
    exact ⟨⟨relations, passed, failed⟩, rfl, hpassed, hfailed⟩
  · rintro ⟨r, rfl, hpassed, hfailed⟩ ⟨name, hname, row, hrow, fault, hfault⟩
    rcases List.mem_pair.1 hname with rfl | rfl
    · exact not_forall₂_of_error hrow hfault r.passed hpassed
    · exact not_forall₂_of_error hrow hfault r.failed hfailed

theorem Results.hold_iff {r : Results} {repository? : Option Int} :
    r.hold repository? = true ↔
      ¬ ∃ record ∈ r.failed, ∀ repository ∈ repository?, record.repository = repository := by
  simp [Results.hold, Record.concerns, Option.all_eq_true]

namespace Policy

/-! ### Runs that deliver -/

def stage (p : Policy) (w : Workspace) : Action Error Unit :=
  p.includes.forM fun file => discard ((w.stageInclude file.1 file.2).mapError .io)

/-- A run of a program delivers relations: the workspace is made, the files for inclusion and the
program are written, the interpreter starts, ends well and reports no error, and the files in the
output directory are read. -/
inductive Delivers (p : Policy) (program : String) (h : Host) (relations : Relations) : Prop
  | intro {w : Workspace} {source : FilePath} {stderr : Text.Octets} {made staged written ended : Host}
    (make : (Workspace.make p.settings).on h = (.ok w, made))
    (stage : (p.stage w).on made = (.ok (), staged))
    (write : (w.writeSource program).on staged = (.ok source, written))
    (start : (Host.start w.binary (w.arguments source []) w.root).on written = (.ok (0, stderr), ended))
    (quiet : Interpreter.reportsError (Text.Utf8.decodeLossy stderr) = false)
    (load : Workspace.load ended w = .ok relations)

theorem run_eq (p : Policy) (program : String) :
    p.run program =
      Workspace.within p.settings fun w => (p.stage w >>= fun _ => w.interpretText program) := rfl

theorem run_eq_ok_iff {p : Policy} {program : String} {h : Host} {relations : Relations} :
    ((p.run program).on h).1 = .ok relations ↔ p.Delivers program h relations := by
  rw [run_eq, Workspace.on_within]
  constructor
  · intro hrun
    rcases hmake : (Workspace.make p.settings).on h with ⟨cause | w, made⟩
    · simp [hmake] at hrun
    · rcases hstage : (p.stage w).on made with ⟨e | ⟨⟩, staged⟩
      · simp [hmake, Action.on_bind, hstage] at hrun
      · rcases hwrite : (w.writeSource program).on staged with ⟨cause | source, written⟩
        · simp [hmake, Action.on_bind, hstage, Workspace.on_interpretText, hwrite] at hrun
        · simp only [hmake, Action.on_bind, hstage, Workspace.on_interpretText, hwrite] at hrun
          obtain ⟨stderr, hstart, hquiet, hload⟩ :=
            Workspace.on_collect_eq_ok.1 (Prod.ext hrun rfl : (w.collect source).on written = (_, _))
          exact .intro hmake hstage hwrite hstart hquiet hload
  · rintro ⟨hmake, hstage, hwrite, hstart, hquiet, hload⟩
    have hcollect := Workspace.on_collect_eq_ok.2 ⟨_, hstart, hquiet, hload⟩
    simp only [hmake, Action.on_bind, hstage, Workspace.on_interpretText, hwrite, hcollect]

/-! ### Calls -/

/-- A call of a policy: what is asked, and the host that it is asked on. -/
structure Call where
  database : FilePath
  schema : Schema
  /-- The repository that the verdict is about, any if none is given. -/
  repository? : Option Int
  host : Host

namespace Call

variable (c : Call) (p : Policy)

/-- What the call gives: the answer, the policy and the host after it. -/
def outcome : (Except Error Bool × Policy) × Host :=
  (p.evaluate c.database c.schema c.repository?).run c.host

def answer : Except Error Bool := (c.outcome p).1.1

def after : Policy := (c.outcome p).1.2

def program : Except Error String := p.programAt c.host c.database c.schema

/-- The call is refused: there is no program, and nothing has changed. -/
def Refused : Prop :=
  ∃ e, c.program p = .error e ∧ c.answer p = .error e ∧ c.after p = p ∧ (c.outcome p).2 = c.host

/-- The call fails: its run delivers nothing, or something that cannot be read, and the policy has no
results. -/
def Failed : Prop :=
  ∃ program, c.program p = .ok program ∧
    ((¬ ∃ relations, p.Delivers program c.host relations) ∨
      ∃ relations, p.Delivers program c.host relations ∧ Unreadable relations) ∧
    c.answer p = .ok false ∧ (c.after p).isEvaluated = true ∧
    (c.after p).relations = ∅ ∧ (c.after p).passed = [] ∧ (c.after p).failed = []

/-- The call decides: the policy has the results of its run, and the verdict is that no failed record
is about the repository asked for. -/
def Decided : Prop :=
  ∃ program relations verdict, c.program p = .ok program ∧
    p.Delivers program c.host relations ∧ ¬ Unreadable relations ∧
    c.answer p = .ok verdict ∧ (c.after p).isEvaluated = true ∧
    (c.after p).relations = relations ∧
    Record.Listed relations Record.passedRelation (c.after p).passed ∧
    Record.Listed relations Record.failedRelation (c.after p).failed ∧
    (verdict = true ↔ ¬ ∃ record ∈ (c.after p).failed,
      ∀ repository ∈ c.repository?, record.repository = repository)

theorem outcome_eq :
    c.outcome p =
      match c.program p with
      | .error e => ((.error e, p), c.host)
      | .ok program =>
        match ((p.run program).on c.host).1.bind Results.ofRelations with
        | .ok results =>
          ((.ok (results.hold c.repository?), { p with results? := some results }),
            ((p.run program).on c.host).2)
        | .error e =>
          ((.ok false, { p with results? := some {} }),
            { ((p.run program).on c.host).2 with
              complaints := ((p.run program).on c.host).2.complaints ++
                p.complaint ((p.run program).on c.host).1 e }) := by
  rw [outcome, program]
  -- Both sides look at the program first, and then at what the run has given.
  show (match p.programAt c.host c.database c.schema with
    | .error e => (return (.error e, p) : StateM Host (Except Error Bool × Policy))
    | .ok program => _).run c.host = _
  cases p.programAt c.host c.database c.schema with
  | error e => rfl
  | ok program =>
    show (match ((p.run program).on c.host).1.bind Results.ofRelations with
      | .ok results => _
      | .error e => _ : StateM Host (Except Error Bool × Policy)).run ((p.run program).on c.host).2 = _
    dsimp only
    cases ((p.run program).on c.host).1.bind Results.ofRelations with
    | ok results => rfl
    | error e => rfl

theorem after_eq : c.after p = { p with results? := (c.after p).results? } := by
  rw [after, outcome_eq]
  cases c.program p with
  | error e => rfl
  | ok program =>
    dsimp only
    cases ((p.run program).on c.host).1.bind Results.ofRelations with
    | ok results => rfl
    | error e => rfl

/-! ### The three courses -/

variable {c p}

theorem refused_of_error {e : Error} (hprogram : c.program p = .error e) : c.Refused p := by
  have houtcome : c.outcome p = ((.error e, p), c.host) := by rw [outcome_eq, hprogram]
  exact ⟨e, hprogram, by rw [answer, houtcome], by rw [after, houtcome], by rw [houtcome]⟩

theorem decided_of_delivers {program : String} {relations : Relations}
    (hprogram : c.program p = .ok program) (hrun : p.Delivers program c.host relations)
    (hread : ¬ Unreadable relations) : c.Decided p := by
  obtain ⟨results, hresults⟩ := not_unreadable_iff.1 hread
  have hbind : ((p.run program).on c.host).1.bind Results.ofRelations = .ok results := by
    rw [run_eq_ok_iff.2 hrun]
    exact hresults
  have hanswer : c.answer p = .ok (results.hold c.repository?) := by
    rw [answer, outcome_eq, hprogram]
    simp only [hbind]
  have hafter : c.after p = { p with results? := some results } := by
    rw [after, outcome_eq, hprogram]
    simp only [hbind]
  obtain ⟨hrelations, hpassed, hfailed⟩ := Results.ofRelations_eq_ok_iff.1 hresults
  refine ⟨program, relations, _, hprogram, hrun, hread, hanswer, ?_⟩
  rw [hafter]
  exact ⟨rfl, hrelations, hpassed, hfailed, Results.hold_iff⟩

theorem failed_of_not_delivers {program : String} (hprogram : c.program p = .ok program)
    (hrun : (¬ ∃ relations, p.Delivers program c.host relations) ∨
      ∃ relations, p.Delivers program c.host relations ∧ Unreadable relations) : c.Failed p := by
  obtain ⟨e, hbind⟩ : ∃ e, ((p.run program).on c.host).1.bind Results.ofRelations = .error e := by
    rcases hresult : ((p.run program).on c.host).1 with e | relations
    · exact ⟨e, rfl⟩
    · have hdelivers := run_eq_ok_iff.1 hresult
      rcases hrun with hnone | ⟨relations', hdelivers', hunread⟩
      · exact absurd ⟨relations, hdelivers⟩ hnone
      · obtain rfl := Except.ok.inj ((run_eq_ok_iff.2 hdelivers').symm.trans hresult)
        rcases hread : Results.ofRelations relations' with e | results
        · exact ⟨e, hread⟩
        · exact absurd hunread (not_unreadable_iff.2 ⟨results, hread⟩)
  have hanswer : c.answer p = .ok false := by
    rw [answer, outcome_eq, hprogram]
    simp only [hbind]
  have hafter : c.after p = { p with results? := some {} } := by
    rw [after, outcome_eq, hprogram]
    simp only [hbind]
  refine ⟨program, hprogram, hrun, hanswer, ?_⟩
  rw [hafter]
  exact ⟨rfl, rfl, rfl, rfl⟩

theorem course : c.Refused p ∨ c.Failed p ∨ c.Decided p := by
  cases hprogram : c.program p with
  | error e => exact .inl (refused_of_error hprogram)
  | ok program =>
    by_cases hrun : ∃ relations, p.Delivers program c.host relations ∧ ¬ Unreadable relations
    · obtain ⟨relations, hdelivers, hread⟩ := hrun
      exact .inr (.inr (decided_of_delivers hprogram hdelivers hread))
    · refine .inr (.inl (failed_of_not_delivers hprogram ?_))
      by_cases hnone : ∃ relations, p.Delivers program c.host relations
      · obtain ⟨relations, hdelivers⟩ := hnone
        exact .inr ⟨relations, hdelivers, not_not.1 fun hread => hrun ⟨relations, hdelivers, hread⟩⟩
      · exact .inl hnone

theorem Refused.not_failed (hrefused : c.Refused p) : ¬ c.Failed p := by
  obtain ⟨e, hprogram, -⟩ := hrefused
  rintro ⟨program, hprogram', -⟩
  cases hprogram.symm.trans hprogram'

theorem Refused.not_decided (hrefused : c.Refused p) : ¬ c.Decided p := by
  obtain ⟨e, hprogram, -⟩ := hrefused
  rintro ⟨program, relations, verdict, hprogram', -⟩
  cases hprogram.symm.trans hprogram'

/-- A run delivers one set of relations at most, so it cannot be readable for one call of a policy
and unreadable for the other. -/
theorem Failed.not_decided (hfailed : c.Failed p) : ¬ c.Decided p := by
  obtain ⟨program, hprogram, hrun, -⟩ := hfailed
  rintro ⟨program', relations, verdict, hprogram', hdelivers, hread, -⟩
  obtain rfl := Except.ok.inj (hprogram.symm.trans hprogram')
  rcases hrun with hnone | ⟨relations', hdelivers', hunread⟩
  · exact hnone ⟨relations, hdelivers⟩
  · obtain rfl := Except.ok.inj
      ((run_eq_ok_iff.2 hdelivers').symm.trans (run_eq_ok_iff.2 hdelivers))
    exact hread hunread

end Call

/-! ### Calls in a row -/

def unevaluated (p : Policy) : Policy := { p with results? := none }

def afterCalls (p : Policy) (calls : List Call) : Policy := calls.foldl (fun p c => c.after p) p

/-- What a policy shows is of one run: both lists of records are those in its relations, and without
an evaluation there is nothing to show. -/
structure Consistent (p : Policy) : Prop where
  passed : Record.Listed p.relations Record.passedRelation p.passed
  failed : Record.Listed p.relations Record.failedRelation p.failed
  unevaluated : p.isEvaluated = false → p.relations = ∅ ∧ p.passed = [] ∧ p.failed = []

theorem consistent_unevaluated (p : Policy) : p.unevaluated.Consistent :=
  ⟨.nil, .nil, fun _ => ⟨rfl, rfl, rfl⟩⟩

theorem Consistent.after {p : Policy} (hp : p.Consistent) (c : Call) : (c.after p).Consistent := by
  rcases c.course (p := p) with hrefused | hfailed | hdecided
  · obtain ⟨e, -, -, hafter, -⟩ := hrefused
    rw [hafter]
    exact hp
  · obtain ⟨program, -, -, -, hevaluated, hrelations, hpassed, hfailed⟩ := hfailed
    constructor
    · rw [hrelations, hpassed]
      exact .nil
    · rw [hrelations, hfailed]
      exact .nil
    · intro hnot
      exact ⟨hrelations, hpassed, hfailed⟩
  · obtain ⟨program, relations, verdict, -, -, -, -, hevaluated, hrelations, hpassed, hfailed, -⟩ :=
      hdecided
    constructor
    · rwa [hrelations]
    · rwa [hrelations]
    · intro hnot
      exact absurd (hnot.symm.trans hevaluated) Bool.false_ne_true

theorem Consistent.afterCalls {p : Policy} (hp : p.Consistent) (calls : List Call) :
    (p.afterCalls calls).Consistent := by
  induction calls generalizing p with
  | nil => exact hp
  | cons c calls ih => exact ih (hp.after c)

theorem afterCalls_eq (p : Policy) (calls : List Call) :
    p.afterCalls calls = { p with results? := (p.afterCalls calls).results? } := by
  induction calls generalizing p with
  | nil => rfl
  | cons c calls ih =>
    calc
      p.afterCalls (c :: calls) = (c.after p).afterCalls calls := rfl
      _ = { c.after p with results? := ((c.after p).afterCalls calls).results? } := ih (c.after p)
      _ = { p with results? := ((c.after p).afterCalls calls).results? } :=
        congrArg (fun q : Policy => { q with results? := ((c.after p).afterCalls calls).results? })
          (c.after_eq p)

/-- After any calls a policy shows what one run has found and is otherwise as it was, and a further
call takes exactly one of the three courses. -/
theorem afterCalls_course (p₀ : Policy) (calls : List Call) (c : Call) :
    let p := p₀.unevaluated.afterCalls calls
    p.Consistent ∧ p = { p₀ with results? := p.results? } ∧
      ((c.Refused p ∧ ¬ c.Failed p ∧ ¬ c.Decided p) ∨
        (¬ c.Refused p ∧ c.Failed p ∧ ¬ c.Decided p) ∨
        (¬ c.Refused p ∧ ¬ c.Failed p ∧ c.Decided p)) := by
  intro p
  refine ⟨(consistent_unevaluated p₀).afterCalls calls, afterCalls_eq _ calls, ?_⟩
  rcases c.course (p := p) with hrefused | hfailed | hdecided
  · exact .inl ⟨hrefused, hrefused.not_failed, hrefused.not_decided⟩
  · exact .inr (.inl ⟨fun hrefused => hrefused.not_failed hfailed, hfailed, hfailed.not_decided⟩)
  · exact .inr (.inr ⟨fun hrefused => hrefused.not_decided hdecided,
      fun hfailed => hfailed.not_decided hdecided, hdecided⟩)

end Policy

end PolicyCheck.Datalog
