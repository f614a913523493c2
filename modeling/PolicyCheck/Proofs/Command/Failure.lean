import PolicyCheck.Proofs.Command.Course
import PolicyCheck.Proofs.Host.Meets
import PolicyCheck.Proofs.Registry.Loading
import PolicyCheck.Proofs.Datalog.ProgramText

/-!
# How commands fail

A failure of the interpreter or of its results counts as a failed policy, a policy that comes from a
file has been compiled, and results are asked for after an evaluation only. So every error that a
command meets is one of its input, and no command ends in an internal error.
-/

namespace PolicyCheck

/-! ### Errors of the input -/

/-- The error is not one of the input: what it says happens inside of an evaluation only, or not at
all. -/
inductive Error.Internal : Error → Prop
  | interpreter (command stderr : String) : Internal (.interpreter command stderr)
  | notCompiled (id : String) : Internal (.notCompiled id)
  | notEvaluated : Internal .notEvaluated
  | malformedResult (fault : RowFault) : Internal (.malformedResult fault)

def Error.OfInput (e : Error) : Prop := Command.Exit.ofError e = .invalidInput

theorem Error.ofInput_iff {e : Error} : e.OfInput ↔ ¬ e.Internal := by
  constructor
  · rintro h (_ | _ | _ | _)
    all_goals cases h
  · intro h
    cases e with
    | interpreter command stderr => exact absurd (.interpreter command stderr) h
    | notCompiled id => exact absurd (.notCompiled id) h
    | notEvaluated => exact absurd .notEvaluated h
    | malformedResult fault => exact absurd (.malformedResult fault) h
    | invalidPolicy | unsupportedColumnType | schema | io | parse => rfl

abbrev Sound {α : Type} (result : Except Error α) : Prop := Meets Error.OfInput (fun _ => True) result

theorem Host.sound_readText (h : Host) (p : FilePath) {toError : IoError → Error}
    (hinput : ∀ cause, (toError cause).OfInput) : Sound ((h.readText p).mapError toError) := by
  cases h.readText p with
  | error cause => exact hinput cause
  | ok text => exact trivial

/-! ### Programs -/

theorem Column.sound_attributeType (table : String) (c : Column) : Sound (c.attributeType table) := by
  rw [attributeType]
  cases c.type with
  | other type => exact rfl
  | _ => exact trivial

theorem Column.sound_wrapper (table : String) (c : Column) : Sound (c.wrapper table) := by
  rw [wrapper]
  cases c.type with
  | other type => exact rfl
  | _ => exact trivial

theorem Column.sound_toAttribute (table : String) (c : Column) : Sound (c.toAttribute table) :=
  (c.sound_attributeType table).bind fun _ _ => trivial

namespace Table

variable (t : Table)

theorem sound_declaration : Sound t.declaration :=
  (Meets.mapM (Column.sound_toAttribute t.name) t.columns).bind fun _ _ => trivial

theorem sound_importOutline (database : String) : Sound (t.importOutline database) :=
  t.sound_declaration.bind fun _ _ => trivial

theorem sound_repositoryRule (c : Column) : Sound (t.repositoryRule c) :=
  (c.sound_wrapper t.name).bind fun _ _ => (c.sound_attributeType t.name).bind fun _ _ => trivial

theorem sound_repositoryOutline : Sound t.repositoryOutline := by
  rw [repositoryOutline]
  dsimp only
  split
  · exact (Meets.mapM t.sound_repositoryRule _).bind fun _ _ => trivial
  · exact trivial

theorem sound_keyAttribute (key : String) : Sound (t.keyAttribute key) := by
  rw [keyAttribute]
  cases t.column? key with
  | none => exact rfl
  | some c => exact c.sound_toAttribute t.name

theorem sound_keyedRule (target : String) (keys : List String) (c : Column) :
    Sound (t.keyedRule target keys c) := (c.sound_wrapper t.name).bind fun _ _ => trivial

theorem sound_keyedPivot (target : String) (keys ignored : List String) :
    Sound (t.keyedPivot target keys ignored) :=
  (Meets.mapM t.sound_keyAttribute keys).bind fun _ _ =>
    (Meets.mapM (t.sound_keyedRule target keys) _).bind fun _ _ => trivial

theorem sound_primaryPivot : Sound t.primaryPivot := by
  rw [primaryPivot]
  split
  · exact trivial
  · exact t.sound_keyedPivot _ _ _

end Table

theorem Schema.sound_generated (s : Schema) (database : String) : Sound (s.generated database) := by
  have himport : Sound (s.importOutline database) :=
    (Meets.mapM (Table.sound_importOutline · database) s.factTables).bind fun _ _ => trivial
  have hrepository : Sound s.repositoryPivot :=
    (Meets.mapM Table.sound_repositoryOutline s.factTables).bind fun _ _ => trivial
  have hprimary : Sound s.primaryPivots :=
    (Meets.mapM Table.sound_primaryPivot s.factTables).bind fun _ _ => trivial
  have houtline : Sound (s.outline database) :=
    himport.bind fun _ _ => hrepository.bind fun _ _ => hprimary.bind fun _ _ => trivial
  exact houtline.map fun _ _ => trivial

/-! ### Evaluations -/

namespace Datalog.Policy

variable {ε : Type} {E : ε → Prop}

theorem sound_programText (p : Policy) (database : FilePath) (schema : Schema) :
    Sound (p.programText database schema) := by
  rw [programText_eq]
  exact (schema.sound_generated database.text).map fun _ _ => trivial

theorem sound_programAt (p : Policy) (h : Host) (database : FilePath) (schema : Schema) :
    Sound (p.programAt h database schema) :=
  Meets.bind (Meets.mapError (E := fun _ => True) (Q := fun _ => True) (by cases h.resolve database <;> trivial)
    fun _ _ => rfl) fun path _ => p.sound_programText path schema

theorem meets_conclude (p : Policy) (repository? : Option Int) (result : Except Error Relations) :
    (p.conclude repository? result : Action ε _).Meets E fun r => Sound r.1 := by
  rw [conclude]
  cases result.bind Results.ofRelations with
  | ok results => exact Action.meets_pure trivial
  | error e =>
    exact (Action.meets_liftM (Q := fun _ => True) fun _ => trivial).bind fun _ _ => Action.meets_pure trivial

theorem meets_evaluate (p : Policy) (database : FilePath) (schema : Schema) (repository? : Option Int) :
    (liftM (p.evaluate database schema repository?) : Action ε _).Meets E fun r => Sound r.1 := by
  rw [evaluate_eq]
  refine Action.Meets.bind (Q := fun _ => True) (fun _ => trivial) fun h _ => ?_
  have hprogram := p.sound_programAt h database schema
  cases htext : p.programAt h database schema with
  | error e =>
    rw [htext] at hprogram
    exact Action.meets_pure hprogram
  | ok program =>
    exact Action.Meets.bind (Q := fun _ => True) (fun _ => trivial) fun result _ => p.meets_conclude repository? result

end Datalog.Policy

namespace Registry

open Datalog (Policy Record)

variable {ε : Type} {E : ε → Prop}

theorem meets_evaluateAll (database : FilePath) (schema : Schema) (repository? : Option Int)
    (ps : List Policy) :
    (liftM (evaluateAll database schema repository? ps) : Action ε _).Meets E fun r => Sound r.1 := by
  induction ps with
  | nil => exact fun _ => trivial
  | cons p ps ih =>
    rw [evaluateAll_cons_eq]
    refine (p.meets_evaluate database schema repository?).bind fun ⟨answer, p'⟩ hanswer => ?_
    cases answer with
    | error e => exact Action.meets_pure hanswer
    | ok holds => exact ih.bind fun _ hrest => Action.meets_pure (hrest.map fun _ _ => trivial)

/-- Results may be asked for after an evaluation without an error. -/
def Answered (r : Except Error (List Record) × Registry) : Prop :=
  Meets Error.OfInput (fun _ => r.2.isEvaluated = true) r.1

theorem meets_evaluate (r : Registry) (database : FilePath) (schema : Schema) (repository? : Option Int) :
    (liftM (r.evaluate database schema repository?) : Action ε _).Meets E Answered := by
  rw [evaluate_eq]
  refine (meets_evaluateAll database schema repository? r.datalog).bind fun ⟨answer, datalog⟩ hanswer => ?_
  cases answer with
  | error e => exact Action.meets_pure hanswer
  | ok found => exact Action.meets_pure rfl

theorem sound_results {r : Registry} (h : r.isEvaluated = true) (repository? : Option Int) :
    Sound (r.results repository?) := by
  rw [results, if_pos h]
  exact trivial

theorem sound_datalogPassed {r : Registry} (h : r.isEvaluated = true) : Sound r.datalogPassed := by
  obtain ⟨verdict, hverdict⟩ := Option.isSome_iff_exists.1 h
  rw [datalogPassed, hverdict]
  exact trivial

end Registry

/-! ### Structural policies from files -/

def Structural.Policy.Compiled (p : Structural.Policy) : Prop := ∃ root, p.root? = some root

theorem Structural.Policy.Compiled.sound_validate {p : Structural.Policy} (h : p.Compiled) (document : Json) :
    Sound (p.validate document) := by
  obtain ⟨root, hroot⟩ := h
  rw [validate, evaluate, hroot]
  exact trivial

theorem Structural.Policy.meets_ofFile (h : Host) (p : FilePath) :
    Meets Error.OfInput Compiled (ofFile h p) := by
  refine Meets.bind (h.sound_readText p fun _ => rfl) fun text _ => ?_
  rw [ofYamlText]
  cases Source.ofYamlText? text with
  | none => exact rfl
  | some source =>
    dsimp only
    rw [ofSource, compile]
    cases Node.compile source.definition with
    | error fault => exact rfl
    | ok root => exact ⟨root, rfl⟩

namespace Registry

def AllCompiled (r : Registry) : Prop := ∀ target p, r.structural.get? target = some p → p.Compiled

theorem AllCompiled.addStructural {r : Registry} {p : Structural.Policy} (hr : r.AllCompiled)
    (hp : p.Compiled) : (r.addStructural p).AllCompiled := by
  intro target q hq
  rw [Registry.addStructural, Dictionary.get?_insert] at hq
  split at hq
  · exact Option.some.inj hq ▸ hp
  · exact hr target q hq

theorem AllCompiled.addFile {r : Registry} (hr : r.AllCompiled) (h : Host)
    (settings : Interpreter.Settings) (path : FilePath) : (addFile h settings r path).AllCompiled := by
  rw [addFile_eq]
  cases hstructural : structural? h path with
  | some policy =>
    have hfile := Structural.Policy.meets_ofFile h path
    rw [ofFile_of_structural? hstructural] at hfile
    exact hr.addStructural hfile
  | none => cases datalogText? h path <;> exact hr

theorem allCompiled_ofFiles (h : Host) (settings : Interpreter.Settings) (paths : List FilePath) :
    (ofFiles h settings paths).AllCompiled :=
  List.foldlRecOn (motive := AllCompiled) paths (Registry.addFile h settings)
    (fun _ _ hnone => nomatch hnone) fun _ hr path _ => hr.addFile h settings path

theorem AllCompiled.policyFor? {r : Registry} (hr : r.AllCompiled) {target : String} {p : Structural.Policy}
    (hp : r.policyFor? target = some p) : p.Compiled := by
  rw [Registry.policyFor?, Option.or_eq_some_iff] at hp
  rcases hp with hp | ⟨-, hp⟩
  · exact hr _ _ hp
  · exact hr _ _ hp

end Registry

/-! ### Commands -/

namespace Command

def Failure.OfInput (f : Failure) : Prop := f.exit = .invalidInput

abbrev Sane {α : Type} (a : Action Failure α) : Prop := a.Meets Failure.OfInput fun _ => True

variable {α : Type} {Q : α → Prop}

theorem meets_ask {f : Host → Except Error α} (hf : ∀ h, Meets Error.OfInput Q (f h)) :
    (ask f).Meets Failure.OfInput Q := (Action.meets_ask hf).mapError fun _ he => he

theorem meets_ofExcept {result : Except Error α} (h : Meets Error.OfInput Q result) :
    ((Action.ofExcept result).mapError Failure.error).Meets Failure.OfInput Q :=
  (Action.meets_ofExcept h).mapError fun _ he => he

theorem sane_askFile (f : Host → Except IoError α) : Sane (askFile f) := by
  refine Action.Meets.mapError (E := fun _ => True) (fun h => ?_) fun _ _ => rfl
  rw [Action.on_ask]
  cases f h <;> exact trivial

theorem sound_ofDatabase (h : Host) (p database : FilePath) : Sound (Schema.ofDatabase h p database) := by
  have hcheck : Sound (Schema.checkDatabase h database) := by
    rw [Schema.checkDatabase]
    split
    · exact trivial
    · exact rfl
  refine hcheck.bind fun _ _ => Meets.bind (h.sound_readText p fun _ => rfl) fun text _ => ?_
  dsimp only
  repeat' split
  all_goals first | exact trivial | exact rfl

theorem sane_openDatabase (schema database : FilePath) : Sane (openDatabase schema database) :=
  (meets_ask fun h => sound_ofDatabase h schema database).bind fun _ _ =>
    (sane_askFile _).bind fun _ _ => Action.meets_pure trivial

theorem meets_resolveSettings (h : Host) (options : SettingsOptions) :
    Meets Failure.OfInput (fun _ => True) (resolveSettings h options) := by
  rw [resolveSettings]
  cases options.file? with
  | none => exact trivial
  | some p =>
    have hfile : Sound (Interpreter.Settings.ofFile h p) := by
      refine Meets.bind (h.sound_readText p fun _ => rfl) fun text _ => ?_
      cases Interpreter.Settings.ofTomlText? text with
      | none => exact rfl
      | some s => exact trivial
    have hsettings : Meets Failure.OfInput (fun _ => True)
        ((Interpreter.Settings.ofFile h p).mapError (.settings p)) := hfile.mapError fun _ he => he
    exact hsettings.bind fun _ _ => trivial

theorem sane_readDocument (p : FilePath) : Sane (readDocument p) := by
  refine (sane_askFile _).bind fun text _ => ?_
  cases Json.ofText? text with
  | none => exact Action.meets_throw rfl
  | some document => exact Action.meets_pure trivial

theorem sane_readInclude (p : FilePath) : Sane (readInclude p) := by
  rw [readInclude]
  cases p.fileName? with
  | none => exact Action.meets_throw rfl
  | some name => exact (sane_askFile _).bind fun _ _ => Action.meets_pure trivial

theorem sane_readAttachment (d : DocumentArgument) : Sane (readAttachment d) :=
  (sane_readDocument d.path).bind fun _ _ => Action.meets_pure trivial

theorem sane_evaluation (options : DatalogOptions) (file : FilePath) : Sane (evaluation options file) := by
  refine (sane_openDatabase _ _).bind fun opened _ => ?_
  refine (Action.meets_ask fun h => meets_resolveSettings h options.settings).bind fun settings _ => ?_
  have hpolicy (h : Host) : Sound (Datalog.Policy.ofFile h settings file) :=
    Meets.bind (h.sound_readText file fun _ => rfl) fun _ _ => trivial
  refine (meets_ask hpolicy).bind fun policy _ => ?_
  refine (Action.Meets.mapM sane_readInclude _).bind fun includes _ => ?_
  refine (Action.Meets.mapM sane_readAttachment _).bind fun attachments _ => ?_
  refine (Datalog.Policy.meets_evaluate _ _ _ _).bind fun evaluated hverdict => ?_
  exact (meets_ofExcept hverdict).bind fun _ _ => Action.meets_pure trivial

theorem sane_validation (options : ValidateOptions) : Sane (validation options) := by
  refine (meets_ask fun h => Structural.Policy.meets_ofFile h options.policy).bind fun policy hpolicy => ?_
  refine (sane_readDocument _).bind fun document _ => ?_
  exact (meets_ofExcept (hpolicy.sound_validate document)).bind fun _ _ => Action.meets_pure trivial

theorem meets_openRegistry (options : CheckOptions) :
    (openRegistry options).Meets Failure.OfInput Registry.AllCompiled := by
  refine Action.Meets.bind (Q := fun _ => True) (meets_ask fun h => ?_) fun paths _ => ?_
  · cases Registry.collect h options.paths with
    | error cause => exact rfl
    | ok paths => exact trivial
  · refine (Action.meets_ask fun h => meets_resolveSettings h options.settings).bind fun settings _ => ?_
    exact Action.Meets.bind (Q := fun _ => True) (fun _ => trivial) fun h _ =>
      Action.meets_pure (Registry.allCompiled_ofFiles h settings paths)

theorem sane_checkDatalog (options : CheckOptions) (registry : Registry) :
    Sane (checkDatalog options registry) := by
  rw [checkDatalog]
  split
  · exact Action.meets_pure trivial
  · cases options.database? with
    | none => exact Action.meets_throw rfl
    | some files =>
      refine (sane_openDatabase _ _).bind fun opened _ => ?_
      refine (registry.meets_evaluate opened.2 opened.1 options.repository?).bind fun evaluated hanswered => ?_
      refine (meets_ofExcept hanswered).bind fun _ hevaluated => ?_
      refine (meets_ofExcept (Registry.sound_results hevaluated _)).bind fun results _ => ?_
      exact (meets_ofExcept (Registry.sound_datalogPassed hevaluated)).bind fun _ _ =>
        Action.meets_pure trivial

theorem sane_checkDocument? (options : CheckOptions) {registry : Registry} (hr : registry.AllCompiled) :
    Sane (checkDocument? options registry) := by
  rw [checkDocument?]
  split
  · rename_i p policy _ hpolicy
    refine (sane_readDocument p).bind fun document _ => ?_
    exact (meets_ofExcept ((hr.policyFor? hpolicy).sound_validate document)).bind fun _ _ =>
      Action.meets_pure trivial
  · exact Action.meets_pure trivial

theorem sane_examination (options : CheckOptions) : Sane (examination options) := by
  refine (meets_openRegistry options).bind fun registry hr => ?_
  refine (sane_checkDatalog options registry).bind fun report _ => ?_
  exact (sane_checkDocument? options hr).bind fun _ _ => Action.meets_pure trivial

theorem Task.meets_run (task : Task) :
    task.run.Meets Failure.OfInput fun exit => exit = .passed ∨ exit = .failed := by
  have hannounce (text : String) (passed : Bool) :
      (announce text passed).Meets Failure.OfInput fun exit => exit = .passed ∨ exit = .failed := by
    intro h
    cases passed with
    | true => exact .inl rfl
    | false => exact .inr rfl
  cases task with
  | datalog options =>
    rw [Task.run]
    cases htask : options.task with
    | evaluate file =>
      rw [runDatalog_eq htask]
      exact (sane_evaluation options file).bind fun _ _ => hannounce _ _
    | showGenerated =>
      rw [runDatalog]
      refine (sane_openDatabase _ _).bind fun opened _ => ?_
      simp only [htask]
      refine (meets_ofExcept (opened.1.sound_generated opened.2.text)).bind fun generated _ => ?_
      exact (Action.meets_liftM (Q := fun _ => True) fun _ => trivial).bind fun _ _ =>
        Action.meets_pure (.inl rfl)
  | validate options =>
    rw [Task.run, runValidate_eq]
    exact (sane_validation options).bind fun _ _ => hannounce _ _
  | check options =>
    rw [Task.run, runCheck_eq]
    exact (sane_examination options).bind fun _ _ => hannounce _ _

/-! ### The program -/

/-- The error that a failure reports, whatever has led to it. -/
def Failure.error? : Failure → Option Error
  | .error e | .settings _ e => some e
  | .file _ => none

theorem Failure.not_internal {f : Failure} (h : f.OfInput) : ∀ e ∈ f.error?, ¬ e.Internal := by
  intro e he
  cases f with
  | file cause => cases he
  | error e' | settings p e' =>
    obtain rfl := Option.some.inj he
    exact Error.ofInput_iff.1 h

theorem Task.run_report_of_ok {task : Task} {h left : Host} {exit : Exit}
    (hon : task.run.on h = (.ok exit, left)) : task.report.run h = (exit, left) := by
  have hrun : task.run.run.run h = (.ok exit, left) := hon
  rw [Task.report, StateT.run_bind, hrun]
  rfl

theorem Task.run_report_of_error {task : Task} {h left : Host} {failure : Failure}
    (hon : task.run.on h = (.error failure, left)) :
    task.report.run h = (failure.exit,
      { left with complaints := left.complaints ++ Report.line ("Error: " ++ failure.message) }) := by
  have hrun : task.run.run.run h = (.error failure, left) := hon
  rw [Task.report, StateT.run_bind, hrun]
  rfl

theorem Task.code_report (task : Task) (h : Host) : (task.report.run h).1.code ∈ [0, 1, 2] := by
  have hexit : (task.report.run h).1 ∈ [.passed, .failed, .invalidInput] := by
    have hrun := task.meets_run h
    rcases hon : task.run.on h with ⟨failure | exit, left⟩
    · rw [hon] at hrun
      rw [Task.run_report_of_error hon]
      exact List.mem_cons_of_mem _ (List.mem_cons_of_mem _ (List.mem_singleton.2 hrun))
    · rw [hon] at hrun
      rw [Task.run_report_of_ok hon]
      rcases hrun with rfl | rfl
      · exact List.mem_cons_self
      · exact List.mem_cons_of_mem _ List.mem_cons_self
  exact List.mem_map_of_mem hexit

section

variable {words : List String} {invocation : Invocation} {h left : Host}

theorem runProgram_of_ok (hwords : Invocation.ofWords words = .ok invocation)
    (hlog : (makeLog invocation.logPath?).on h = (.ok (), left)) :
    ((runProgram words).run h).1 = (invocation.task.report.run left).1.code := by
  have hrun : (makeLog invocation.logPath?).run.run h = (.ok (), left) := hlog
  rw [runProgram, hwords]
  dsimp only
  rw [StateT.run_bind, hrun]
  rfl

theorem runProgram_of_log {cause : IoError} (hwords : Invocation.ofWords words = .ok invocation)
    (hlog : (makeLog invocation.logPath?).on h = (.error cause, left)) :
    ((runProgram words).run h).1 = Exit.invalidInput.code := by
  have hrun : (makeLog invocation.logPath?).run.run h = (.error cause, left) := hlog
  rw [runProgram, hwords]
  dsimp only
  rw [StateT.run_bind, hrun]
  rfl

end

theorem runProgram_of_error {words : List String} {usage : Usage}
    (hwords : Invocation.ofWords words = .error usage) (h : Host) :
    ((runProgram words).run h).1 =
      if usage.isRequest then Exit.passed.code else Exit.invalidInput.code := by
  rw [runProgram, hwords]
  dsimp only
  split <;> rfl

theorem code_runProgram (words : List String) (h : Host) : ((runProgram words).run h).1 ∈ [0, 1, 2] := by
  cases hwords : Invocation.ofWords words with
  | error usage =>
    rw [runProgram_of_error hwords]
    split <;> decide
  | ok invocation =>
    rcases hlog : (makeLog invocation.logPath?).on h with ⟨cause | ⟨⟩, left⟩
    · rw [runProgram_of_log hwords hlog]
      decide
    · rw [runProgram_of_ok hwords hlog]
      exact Task.code_report _ _

/-- No command and no command line ends in an internal error: a command that fails does so by its
input, and what it reports is never the failure of an interpreter, a policy without a tree, results
without an evaluation or a row that is no record. -/
theorem never_internal (h : Host) :
    (∀ task : Task, (task.report.run h).1.code ∈ [0, 1, 2] ∧
      ∀ failure, (task.run.on h).1 = .error failure →
        (task.report.run h).1 = .invalidInput ∧ ∀ e ∈ failure.error?, ¬ e.Internal) ∧
    ∀ words, ((runProgram words).run h).1 ∈ [0, 1, 2] := by
  refine ⟨fun task => ⟨task.code_report h, fun failure hfailure => ?_⟩, fun words => code_runProgram words h⟩
  obtain ⟨left, hon⟩ := Action.exists_on_eq hfailure
  have hinput := task.meets_run h
  rw [hfailure] at hinput
  refine ⟨?_, Failure.not_internal hinput⟩
  rw [Task.run_report_of_error hon]
  exact hinput

def unconfigured : Task := .check { paths := [], settings := { file? := some ⟨"/missing.toml"⟩ } }

theorem never_internal_unconfigured :
    (unconfigured.run.on {}).1 = .error (.settings ⟨"/missing.toml"⟩ (.io .notFound)) ∧
      (unconfigured.report.run {}).1 = .invalidInput ∧ ¬ (Error.io .notFound).Internal := by
  have hrun : (unconfigured.run.on {}).1 = .error (.settings ⟨"/missing.toml"⟩ (.io .notFound)) := rfl
  obtain ⟨hinput, hnot⟩ := ((never_internal {}).1 unconfigured).2 _ hrun
  exact ⟨hrun, hinput, hnot _ rfl⟩

end Command

end PolicyCheck
