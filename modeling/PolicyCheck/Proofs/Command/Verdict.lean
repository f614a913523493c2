import PolicyCheck.Proofs.Command.Course
import PolicyCheck.Proofs.Registry.History
import PolicyCheck.Proofs.Report.Verdict

/-!
# Verdicts of commands

A command prints nothing before its report, and then the report alone. So a command that fails has
printed nothing, and one that does not has printed the verdict that its exit status gives. For a registry
the verdict is put together from those of its Datalog policies and that of one structural policy.
-/

namespace PolicyCheck.Command

open Datalog (Policy)
open Datalog.Policy (Call)
open PolicyCheck.Action
open Registry (Answers)
open Report (EndsIn Reads line policyVerdict? registryVerdict? verdict)

/-! ### What is printed -/

def Task.style : Task → Report.Style
  | .datalog options => options.style
  | .validate options => options.style
  | .check options => options.style

/-- The command is to reach a verdict, and not to show a program. -/
def Task.Judges : Task → Prop
  | .datalog options => options.task ≠ .showGenerated
  | .validate _ => True
  | .check _ => True

def Task.verdict? : Task → Json.Syntax → Option Bool
  | .datalog _ => policyVerdict?
  | .validate _ => policyVerdict?
  | .check _ => registryVerdict?

/-- The text has the verdict in it in the form that the command is to use. -/
structure Task.Shows (task : Task) (written : String) (passed : Bool) : Prop where
  text : task.style = .text → ∃ front, written = front ++ line (verdict passed)
  json : task.style = .json → Reads task.verdict? written passed

theorem shows_of_render {task : Task} {render : Report.Style → String} {passed : Bool}
    (htext : ∃ front, render .text = front ++ line (verdict passed))
    (hjson : Reads task.verdict? (render .json) passed) : task.Shows (render task.style) passed :=
  ⟨fun hstyle => hstyle ▸ htext, fun hstyle => hstyle ▸ hjson⟩

variable {α : Type} {h left : Host} {exit : Exit}

theorem on_bind_announce {a : Action Failure α} (ha : Quiet a) (render : α → String)
    (passed : α → Bool) (h : Host) :
    (∃ failure left, (a >>= fun report => announce (render report) (passed report)).on h = (.error failure, left) ∧
      left.output = h.output) ∨
    ∃ report made, a.on h = (.ok report, made) ∧ made.output = h.output ∧
      (a >>= fun report => announce (render report) (passed report)).on h =
        (.ok (.ofVerdict (passed report)), { made with output := h.output ++ render report }) := by
  have houtput : (a.on h).2.output = h.output := ha h.output h rfl
  rcases hon : a.on h with ⟨failure | report, made⟩
  · rw [hon] at houtput
    exact .inl ⟨failure, made, on_bind_of_error hon, houtput⟩
  · rw [hon] at houtput
    refine .inr ⟨report, made, rfl, houtput, ?_⟩
    rw [on_bind_of_ok hon, on_announce, houtput]

theorem Task.on_run {task : Task} (hjudges : task.Judges) (h : Host) :
    (∃ failure left, task.run.on h = (.error failure, left) ∧ left.output = h.output) ∨
    ∃ passed written left, task.run.on h = (.ok (.ofVerdict passed), left) ∧
      left.output = h.output ++ written ∧ task.Shows written passed := by
  cases task with
  | datalog options =>
    obtain ⟨file, htask⟩ : ∃ file, options.task = .evaluate file := by
      cases htask : options.task with
      | showGenerated => exact absurd htask hjudges
      | evaluate file => exact ⟨file, rfl⟩
    rw [Task.run, runDatalog_eq htask]
    rcases on_bind_announce (quiet_evaluation options file) (·.render options.style) (·.passed) h with
      hfailed | ⟨e, made, -, -, hon⟩
    · exact .inl hfailed
    · exact .inr ⟨_, _, _, hon, rfl, shows_of_render e.exists_text_eq e.reads⟩
  | validate options =>
    rw [Task.run, runValidate_eq]
    rcases on_bind_announce (quiet_validation options) (·.render options.style) (·.passed) h with
      hfailed | ⟨v, made, -, -, hon⟩
    · exact .inl hfailed
    · exact .inr ⟨_, _, _, hon, rfl, shows_of_render v.exists_text_eq v.reads⟩
  | check options =>
    rw [Task.run, runCheck_eq]
    rcases on_bind_announce (quiet_examination options) (·.render options.style) (·.passed) h with
      hfailed | ⟨c, made, -, -, hon⟩
    · exact .inl hfailed
    · exact .inr ⟨_, _, _, hon, rfl, shows_of_render c.exists_text_eq c.reads⟩

theorem Task.output_of_error {task : Task} (hjudges : task.Judges) {failure : Failure}
    (hon : task.run.on h = (.error failure, left)) : left.output = h.output := by
  rcases Task.on_run hjudges h with ⟨failure', left', hon', houtput⟩ | ⟨passed, written, left', hon', -⟩
  · obtain ⟨-, rfl⟩ := Prod.mk.inj (hon.symm.trans hon')
    exact houtput
  · cases (Prod.mk.inj (hon.symm.trans hon')).1

theorem Task.shows_of_ok {task : Task} (hjudges : task.Judges) (hon : task.run.on h = (.ok exit, left)) :
    ∃ passed written, exit = .ofVerdict passed ∧ left.output = h.output ++ written ∧
      task.Shows written passed := by
  rcases Task.on_run hjudges h with ⟨failure, left', hon', -⟩ | ⟨passed, written, left', hon', houtput, hshows⟩
  · cases (Prod.mk.inj (hon.symm.trans hon')).1
  · obtain ⟨hexit, rfl⟩ := Prod.mk.inj (hon.symm.trans hon')
    exact ⟨passed, written, Except.ok.inj hexit, houtput, hshows⟩

/-! ### Verdicts on a registry -/

theorem on_bind_ofExcept_eq_ok {β : Type} {result : Except Error α} {next : α → Action Failure β} {b : β} :
    ((Action.ofExcept result).mapError Failure.error >>= next).on h = (.ok b, left) ↔
      ∃ value, result = .ok value ∧ (next value).on h = (.ok b, left) := by
  rw [on_bind, on_mapError, on_ofExcept]
  cases result with
  | error e => simp [Except.mapError]
  | ok value => simp [Except.mapError]

namespace CheckOptions

variable {options : CheckOptions} {registry : Registry}

/-- The calls by which a check evaluates the Datalog policies of a registry, one after the other, and the
host that they leave. -/
inductive Calls (options : CheckOptions) (registry : Registry) (h : Host) : List (Call × Policy) → Host → Prop
  | none (hempty : registry.datalog = []) : Calls options registry h [] h
  | all {files : DatabaseOptions} {schema : Schema} {database : FilePath} (hpolicies : registry.datalog ≠ [])
    (hfiles : options.database? = some files)
    (hopen : databaseAt h files.schema files.database = .ok (schema, database)) :
    Calls options registry h (Registry.calls ⟨database, schema, options.repository?, h⟩ registry.datalog)
      (registry.outcome ⟨database, schema, options.repository?, h⟩).2

theorem Calls.map_snd {calls : List (Call × Policy)} (hcalls : options.Calls registry h calls left) :
    calls.map Prod.snd = registry.datalog := by
  cases hcalls with
  | none hempty => exact hempty.symm
  | all => exact Registry.map_snd_calls _ _

/-- The structural policy for the target, if there is one, holds of the document, if one is given. -/
def DocumentHolds (options : CheckOptions) (registry : Registry) (h : Host) : Prop :=
  ∀ p policy, options.document? = some p → registry.policyFor? options.target = some policy →
    ∃ document, documentAt h p = .ok document ∧ policy.validate document = .ok true

end CheckOptions

theorem all_answers_iff {calls : List (Call × Policy)} {verdicts : List Bool} (h : Answers calls verdicts) :
    verdicts.all id = true ↔ ∀ call ∈ calls, call.1.answer call.2 = .ok true := by
  induction h with
  | nil => simp
  | cons hanswer _ ih =>
    rw [List.all_cons, Bool.and_eq_true, ih, List.forall_mem_cons, hanswer, id_eq, Except.ok.injEq]

theorem exists_database_of_ok {options : CheckOptions} {registry : Registry} {report : Report.Check}
    (hpolicies : registry.datalog ≠ []) (hon : (checkDatalog options registry).on h = (.ok report, left)) :
    ∃ files schema database, options.database? = some files ∧
      databaseAt h files.schema files.database = .ok (schema, database) := by
  rw [checkDatalog, if_neg (mt List.isEmpty_iff.1 hpolicies)] at hon
  cases hfiles : options.database? with
  | none =>
    rw [hfiles] at hon
    cases hon
  | some files =>
    simp only [hfiles, openDatabase_eq] at hon
    obtain ⟨⟨schema, database⟩, hopen, -⟩ := on_bind_ask_eq_ok.1 hon
    exact ⟨files, schema, database, rfl, hopen⟩

theorem on_checkDatalog_of_error {options : CheckOptions} {registry : Registry} {files : DatabaseOptions}
    {failure : Failure} (hpolicies : registry.datalog ≠ []) (hfiles : options.database? = some files)
    (hopen : databaseAt h files.schema files.database = .error failure) :
    (checkDatalog options registry).on h = (.error failure, h) := by
  rw [checkDatalog, if_neg (mt List.isEmpty_iff.1 hpolicies), hfiles]
  simp only [openDatabase_eq]
  exact on_bind_ask_of_error hopen

/-- The report on the Datalog policies of a registry that has been evaluated. -/
def datalogReport (r : Registry) (repository? : Option Int) : Report.Check where
  datalogPassed? := r.verdict?
  passedRecords := r.datalog.flatMap fun p => p.passed.filter (·.concerns repository?)
  failedRecords := r.datalog.flatMap fun p => p.failed.filter (·.concerns repository?)

/-- Once the schema and the database have been found, the report is that on the registry as its evaluation
leaves it. -/
theorem on_checkDatalog {options : CheckOptions} {registry : Registry} {files : DatabaseOptions}
    {schema : Schema} {database : FilePath} (hpolicies : registry.datalog ≠ [])
    (hfiles : options.database? = some files)
    (hopen : databaseAt h files.schema files.database = .ok (schema, database)) :
    let c : Call := ⟨database, schema, options.repository?, h⟩
    (checkDatalog options registry).on h =
      (((registry.answer c).mapError .error).map fun _ => datalogReport (registry.after c) options.repository?,
        (registry.outcome c).2) := by
  intro c
  rw [checkDatalog, if_neg (mt List.isEmpty_iff.1 hpolicies), hfiles]
  simp only [openDatabase_eq]
  rw [on_bind_ask_of_ok hopen]
  refine (on_bind_of_ok (registry.on_evaluate c)).trans ?_
  cases hanswer : registry.answer c with
  | error e => rfl
  | ok failed =>
    obtain ⟨verdicts, -, hverdict⟩ := (Registry.left_of_answer hanswer).verdict
    rw [datalogReport, Registry.results, Registry.isEvaluated, Registry.datalogPassed, hverdict]
    rfl

theorem on_checkDatalog_eq_ok {options : CheckOptions} {registry : Registry} {report : Report.Check}
    (hon : (checkDatalog options registry).on h = (.ok report, left)) :
    ∃ calls, options.Calls registry h calls left ∧
      (report.datalogPassed?.getD true = true ↔ ∀ call ∈ calls, call.1.answer call.2 = .ok true) := by
  by_cases hpolicies : registry.datalog = []
  · rw [checkDatalog, if_pos (List.isEmpty_iff.2 hpolicies)] at hon
    obtain ⟨rfl, rfl⟩ := on_pure_eq_ok.1 hon
    exact ⟨[], .none hpolicies, by simp⟩
  · obtain ⟨files, schema, database, hfiles, hopen⟩ := exists_database_of_ok hpolicies hon
    let c : Call := ⟨database, schema, options.repository?, h⟩
    rw [on_checkDatalog hpolicies hfiles hopen] at hon
    obtain ⟨hreport, rfl⟩ := Prod.mk.inj hon
    obtain ⟨failed, hanswer, rfl⟩ := map_eq_ok_iff.1 hreport
    obtain ⟨verdicts, hverdicts, hverdict⟩ :=
      (Registry.left_of_answer (c := c) (mapError_eq_ok_iff.1 hanswer)).verdict
    refine ⟨_, .all hpolicies hfiles hopen, ?_⟩
    rw [datalogReport, hverdict]
    exact all_answers_iff hverdicts

theorem on_checkDocument?_eq_ok {options : CheckOptions} {registry : Registry}
    {validation? : Option Report.Validation}
    (hon : (checkDocument? options registry).on h = (.ok validation?, left)) :
    validation?.all (·.passed) = true ↔ options.DocumentHolds registry h := by
  rw [checkDocument?] at hon
  split at hon
  · rename_i p policy hp hpolicy
    rw [readDocument_eq] at hon
    obtain ⟨document, hdocument, hon⟩ := on_bind_ask_eq_ok.1 hon
    obtain ⟨passed, hpassed, hon⟩ := on_bind_ofExcept_eq_ok.1 hon
    obtain ⟨rfl, rfl⟩ := on_pure_eq_ok.1 hon
    have hsame : passed = true ↔ policy.validate document = .ok true := by rw [hpassed, Except.ok.injEq]
    rw [Option.all_some, Report.Validation.ofPolicy, hsame]
    constructor
    · intro hholds p' policy' hp' hpolicy'
      obtain rfl := Option.some.inj (hp.symm.trans hp')
      obtain rfl := Option.some.inj (hpolicy.symm.trans hpolicy')
      exact ⟨document, hdocument, hholds⟩
    · intro hholds
      obtain ⟨document', hdocument', hvalidate⟩ := hholds p policy hp hpolicy
      obtain rfl := Except.ok.inj (hdocument.symm.trans hdocument')
      exact hvalidate
  · rename_i hneither
    obtain ⟨rfl, rfl⟩ := on_pure_eq_ok.1 hon
    exact ⟨fun _ p policy hp hpolicy => absurd hpolicy (hneither p policy hp), fun _ => rfl⟩

theorem on_examination_eq_ok {options : CheckOptions} {report : Report.Check}
    (hon : (examination options).on h = (.ok report, left)) :
    ∃ registry calls evaluated, registryAt h options = .ok registry ∧
      options.Calls registry h calls evaluated ∧
      (report.passed = true ↔ (∀ call ∈ calls, call.1.answer call.2 = .ok true) ∧
        options.DocumentHolds registry evaluated) := by
  rw [examination, openRegistry_eq] at hon
  obtain ⟨registry, hregistry, hon⟩ := on_bind_ask_eq_ok.1 hon
  obtain ⟨datalog, evaluated, hdatalog, hon⟩ := on_bind_eq_ok.1 hon
  obtain ⟨validation?, left, hvalidation, hon⟩ := on_bind_eq_ok.1 hon
  obtain ⟨rfl, -⟩ := on_pure_eq_ok.1 hon
  obtain ⟨calls, hcalls, hpassed⟩ := on_checkDatalog_eq_ok hdatalog
  refine ⟨registry, calls, evaluated, hregistry, hcalls, ?_⟩
  rw [Report.Check.passed, Bool.and_eq_true, hpassed, on_checkDocument?_eq_ok hvalidation]

theorem ofVerdict_inj {passed passed' : Bool} (hexit : Exit.ofVerdict passed = Exit.ofVerdict passed') :
    passed = passed' := by
  cases passed <;> cases passed' <;> first | rfl | cases hexit

theorem on_runCheck_eq_ok {options : CheckOptions} {passed : Bool}
    (hon : (runCheck options).on h = (.ok (.ofVerdict passed), left)) :
    ∃ registry calls evaluated, registryAt h options = .ok registry ∧
      options.Calls registry h calls evaluated ∧
      (passed = true ↔ (∀ call ∈ calls, call.1.answer call.2 = .ok true) ∧
        options.DocumentHolds registry evaluated) := by
  rw [runCheck_eq] at hon
  obtain ⟨report, made, hmade, hannounce⟩ := on_bind_eq_ok.1 hon
  rw [on_announce] at hannounce
  obtain rfl := ofVerdict_inj (Except.ok.inj (Prod.mk.inj hannounce).1)
  exact on_examination_eq_ok hmade

/-! ### What a verdict says -/

theorem code_ofVerdict_eq_zero_iff (passed : Bool) : (Exit.ofVerdict passed).code = 0 ↔ passed = true := by
  cases passed <;> decide

theorem code_ofVerdict_eq_one_iff (passed : Bool) : (Exit.ofVerdict passed).code = 1 ↔ passed = false := by
  cases passed <;> decide

/-- A command that fails prints nothing. Any other ends with the status 0 or 1, and what it has printed
says which; and a check of a registry passes exactly if each of its Datalog policies holds when it is
evaluated, and of the document the structural policy that the registry has for it. -/
theorem verdict_shown {task : Task} (hjudges : task.Judges) (h : Host) :
    (∀ failure left, task.run.on h = (.error failure, left) → left.output = h.output) ∧
    ∀ exit left, task.run.on h = (.ok exit, left) →
      (exit.code = 0 ∨ exit.code = 1) ∧
      (task.style = .text → (EndsIn left.output "PASSED" ↔ exit.code = 0) ∧
        (EndsIn left.output "FAILED" ↔ exit.code = 1)) ∧
      (task.style = .json → ∃ written, left.output = h.output ++ written ∧
        Reads task.verdict? written (exit.code = 0)) ∧
      ∀ options, task = .check options →
        ∃ registry calls evaluated, registryAt h options = .ok registry ∧
          options.Calls registry h calls evaluated ∧ calls.map Prod.snd = registry.datalog ∧
          (exit.code = 0 ↔ (∀ call ∈ calls, call.1.answer call.2 = .ok true) ∧
            options.DocumentHolds registry evaluated) := by
  refine ⟨fun failure left hon => Task.output_of_error hjudges hon, fun exit left hon => ?_⟩
  obtain ⟨passed, written, rfl, houtput, hshows⟩ := Task.shows_of_ok hjudges hon
  simp only [code_ofVerdict_eq_zero_iff, code_ofVerdict_eq_one_iff]
  refine ⟨(Bool.eq_false_or_eq_true passed), fun hstyle => ?_, fun hstyle => ?_, ?_⟩
  · obtain ⟨front, rfl⟩ := hshows.text hstyle
    rw [houtput, ← String.append_assoc]
    have hends := Report.endsIn_verdict_iff (h.output ++ front) passed
    exact ⟨(hends true).trans eq_comm, (hends false).trans eq_comm⟩
  · refine ⟨written, houtput, ?_⟩
    rw [Bool.decide_eq_true]
    exact hshows.json hstyle
  · rintro options rfl
    obtain ⟨registry, calls, evaluated, hregistry, hcalls, hverdict⟩ := on_runCheck_eq_ok hon
    exact ⟨registry, calls, evaluated, hregistry, hcalls, hcalls.map_snd, hverdict⟩

/-! ### A check that fails -/

/-- The files of two policies, a database and its schema, and an interpreter that writes a failed record
at its first start. -/
def furnished : Host :=
  { Registry.Pair.host with files := ⟨Registry.Pair.host.files.entries ++ [(["db"], .file [] false),
    (["schema.json"], .file (Text.Utf8.encode "\x7b\"tables\": []\x7d".toList) false)]⟩ }

def checkBoth : CheckOptions where
  paths := Registry.Pair.paths
  database? := some ⟨⟨"/db"⟩, ⟨"/schema.json"⟩⟩
  settings := { binary? := some ⟨"/souffle"⟩ }

theorem verdict_shown_failing :
    (Task.check checkBoth).Judges ∧
    ∃ left, (Task.check checkBoth).run.on furnished = (.ok .failed, left) ∧
      EndsIn left.output "FAILED" ∧ ¬ EndsIn left.output "PASSED" ∧
      ∃ registry calls evaluated, registryAt furnished checkBoth = .ok registry ∧
        checkBoth.Calls registry furnished calls evaluated ∧ ¬ ∀ call ∈ calls, call.1.answer call.2 = .ok true := by
  have hrun : ((Task.check checkBoth).run.on furnished).1.toOption = some .failed := by decide +kernel
  obtain ⟨left, hon⟩ := exists_on_eq (toOption_eq_some_iff.1 hrun)
  have hjudges : (Task.check checkBoth).Judges := trivial
  obtain ⟨-, htext, -, hcheck⟩ := (verdict_shown hjudges furnished).2 _ _ hon
  obtain ⟨hpassed, hfailed⟩ := htext rfl
  obtain ⟨registry, calls, evaluated, hregistry, hcalls, -, hiff⟩ := hcheck _ rfl
  refine ⟨hjudges, _, hon, hfailed.2 rfl, fun hend => absurd (hpassed.1 hend) (by decide), registry, calls,
    evaluated, hregistry, hcalls, fun hall => absurd (hiff.2 ⟨hall, nofun⟩) (by decide)⟩

end PolicyCheck.Command
