import PolicyCheck.Command.Run
import PolicyCheck.Proofs.Registry.Step

/-!
# The course of a command

A command that reaches a verdict has two parts: it makes its report, and then it prints the report and
ends with the verdict in it. The first part writes nothing to the standard output.
-/

namespace PolicyCheck

open PolicyCheck.Action

namespace Command

/-! ### Making a report -/

def evaluation (options : DatalogOptions) (file : FilePath) : Action Failure Report.Evaluation := do
  let (schema, database) ← openDatabase options.schema options.database
  let settings ← Action.ask fun h => resolveSettings h options.settings
  let policy ← ask fun h => Datalog.Policy.ofFile h settings file
  let includes ← options.includes.mapM readInclude
  let attachments ← options.documents.mapM readAttachment
  let (verdict, policy) ←
    { policy with includes, attachments }.evaluate database schema options.repository?
  let passed ← (Action.ofExcept verdict).mapError Failure.error
  return .ofPolicy policy passed

def validation (options : ValidateOptions) : Action Failure Report.Validation := do
  let policy ← ask fun h => Structural.Policy.ofFile h options.policy
  let document ← readDocument options.document
  let passed ← (Action.ofExcept (policy.validate document)).mapError Failure.error
  return .ofPolicy policy passed

/-- The registry of the files that are to be checked. -/
def openRegistry (options : CheckOptions) : Action Failure Registry := do
  let paths ← ask fun h => (Registry.collect h options.paths).mapError .io
  let settings ← Action.ask fun h => resolveSettings h options.settings
  return Registry.ofFiles (← get) settings paths

def examination (options : CheckOptions) : Action Failure Report.Check := do
  let registry ← openRegistry options
  let report ← checkDatalog options registry
  return { report with validation? := ← checkDocument? options registry }

def announce (text : String) (passed : Bool) : Action Failure Exit := do
  Host.print text
  return .ofVerdict passed

theorem on_announce (text : String) (passed : Bool) (h : Host) :
    (announce text passed).on h = (.ok (.ofVerdict passed), { h with output := h.output ++ text }) := rfl

theorem runDatalog_eq {options : DatalogOptions} {file : FilePath} (htask : options.task = .evaluate file) :
    runDatalog options =
      evaluation options file >>= fun e => announce (e.render options.style) e.passed := by
  simp only [runDatalog, evaluation, htask, bind_assoc, pure_bind, announce]
  rfl

theorem runValidate_eq (options : ValidateOptions) :
    runValidate options =
      validation options >>= fun v => announce (v.render options.style) v.passed := by
  simp only [runValidate, validation, bind_assoc, pure_bind, announce]
  rfl

theorem runCheck_eq (options : CheckOptions) :
    runCheck options =
      examination options >>= fun c => announce (c.render options.style) c.passed := by
  simp only [runCheck, examination, openRegistry, bind_assoc, pure_bind, announce]

/-! ### Steps that only read -/

/-- The schema of a database and the path of the database by names alone. -/
def databaseAt (h : Host) (schema database : FilePath) : Except Failure (Schema × FilePath) := do
  let s ← (Schema.ofDatabase h schema database).mapError .error
  return (s, ← (h.canonical database).mapError .file)

theorem openDatabase_eq (schema database : FilePath) :
    openDatabase schema database = Action.ask fun h => databaseAt h schema database := by
  simp only [openDatabase, ask, askFile, mapError_ask, pure_eq_ask, ask_bind]
  rfl

/-- The registry of the files that are to be checked. -/
def registryAt (h : Host) (options : CheckOptions) : Except Failure Registry := do
  let paths ← ((Registry.collect h options.paths).mapError .io).mapError .error
  let settings ← resolveSettings h options.settings
  return Registry.ofFiles h settings paths

theorem openRegistry_eq (options : CheckOptions) :
    openRegistry options = Action.ask fun h => registryAt h options := by
  simp only [openRegistry, ask, mapError_ask, get_eq_ask, pure_eq_ask, ask_bind]
  rfl

def documentAt (h : Host) (p : FilePath) : Except Failure Json :=
  (h.readText p).mapError .file >>= fun text =>
    match Json.ofText? text with
    | some document => .ok document
    | none => .error (.error (.parse .json))

theorem readDocument_eq (p : FilePath) : readDocument p = Action.ask fun h => documentAt h p := by
  refine ext_on fun h => ?_
  rw [readDocument, askFile, mapError_ask, on_bind, on_ask, on_ask, documentAt]
  cases h.readText p with
  | error cause => rfl
  | ok text =>
    dsimp only [Except.mapError, bind, Except.bind]
    cases Json.ofText? text <;> rfl

/-! ### Steps that print nothing -/

def Printed (output : String) (h : Host) : Prop := h.output = output

def Quiet {α : Type} (a : Action Failure α) : Prop := ∀ output, a.Preserves (Printed output)

def invariant_printed (output : String) : Host.Invariant (Printed output) where
  spared _ := True
  drawn _ h := h
  complained _ h := h
  grown _ h := h
  started _ _ _ _ h := h
  fresh _ _ := trivial
  pruned _ _ h := h

theorem quiet_openDatabase (schema database : FilePath) : Quiet (openDatabase schema database) := by
  rw [openDatabase_eq]
  exact fun _ => preserves_ask _

theorem quiet_readDocument (p : FilePath) : Quiet (readDocument p) := by
  rw [readDocument_eq]
  exact fun _ => preserves_ask _

theorem quiet_readInclude (p : FilePath) : Quiet (readInclude p) := by
  intro output
  rw [readInclude]
  cases p.fileName? with
  | none => exact preserves_throw _
  | some name => exact ((preserves_ask _).mapError _).bind fun _ => preserves_pure _

theorem quiet_readAttachment (d : DocumentArgument) : Quiet (readAttachment d) := fun output =>
  (quiet_readDocument d.path output).bind fun _ => preserves_pure _

theorem quiet_evaluation (options : DatalogOptions) (file : FilePath) : Quiet (evaluation options file) := by
  intro output
  refine (quiet_openDatabase _ _ output).bind fun (schema, database) => ?_
  refine (preserves_ask _).bind fun settings => ?_
  refine ((preserves_ask _).mapError _).bind fun policy => ?_
  refine (Preserves.mapM (fun p => quiet_readInclude p output) _).bind fun includes => ?_
  refine (Preserves.mapM (fun d => quiet_readAttachment d output) _).bind fun attachments => ?_
  refine (Datalog.Policy.preserves_evaluate (invariant_printed output) _ _ _ _).bind fun (verdict, policy) => ?_
  exact ((preserves_ofExcept _).mapError _).bind fun _ => preserves_pure _

theorem quiet_validation (options : ValidateOptions) : Quiet (validation options) := by
  intro output
  refine ((preserves_ask _).mapError _).bind fun policy => ?_
  refine (quiet_readDocument _ output).bind fun document => ?_
  exact ((preserves_ofExcept _).mapError _).bind fun _ => preserves_pure _

theorem quiet_checkDatalog (options : CheckOptions) (registry : Registry) :
    Quiet (checkDatalog options registry) := by
  intro output
  rw [checkDatalog]
  split
  · exact preserves_pure _
  · cases options.database? with
    | none => exact preserves_throw _
    | some files =>
      refine (quiet_openDatabase _ _ output).bind fun (schema, database) => ?_
      refine (registry.preserves_evaluate (invariant_printed output) _ _ _).bind fun (failures, registry) => ?_
      refine ((preserves_ofExcept _).mapError _).bind fun _ => ?_
      refine ((preserves_ofExcept _).mapError _).bind fun (passedRecords, failedRecords) => ?_
      exact ((preserves_ofExcept _).mapError _).bind fun _ => preserves_pure _

theorem quiet_checkDocument? (options : CheckOptions) (registry : Registry) :
    Quiet (checkDocument? options registry) := by
  intro output
  rw [checkDocument?]
  split
  · refine (quiet_readDocument _ output).bind fun document => ?_
    exact ((preserves_ofExcept _).mapError _).bind fun _ => preserves_pure _
  · exact preserves_pure none

theorem quiet_examination (options : CheckOptions) : Quiet (examination options) := by
  intro output
  rw [examination, openRegistry_eq]
  refine (preserves_ask _).bind fun registry => ?_
  refine (quiet_checkDatalog options registry output).bind fun report => ?_
  exact (quiet_checkDocument? options registry output).bind fun _ => preserves_pure _

end Command

end PolicyCheck
