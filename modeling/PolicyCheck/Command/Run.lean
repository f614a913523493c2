import PolicyCheck.Command.Invocation
import PolicyCheck.Interpreter.File
import PolicyCheck.Registry
import PolicyCheck.Schema.File

/-!
# Running commands

A command reads its files, evaluates its policies and prints one report. Nothing is printed unless
everything went well; a failure is reported on the standard error and by the exit status.
-/

namespace PolicyCheck.Command

/-! ### Failures and exit statuses -/

inductive Exit where
  | passed
  | failed
  | invalidInput
  | internalError
deriving DecidableEq, Repr

namespace Exit

def code : Exit → Nat
  | .passed => 0
  | .failed => 1
  | .invalidInput => 2
  | .internalError => 3

def ofVerdict (passed : Bool) : Exit := if passed then .passed else .failed

/-- The end of a program that met an error: the input is to blame for the user's mistakes and for
files that cannot be used. -/
def ofError (e : Error) : Exit :=
  match e with
  | .io _ => .invalidInput
  | e => if e.isUserError then .invalidInput else .internalError

end Exit

inductive Failure where
  | error (e : Error)
  | file (cause : IoError)
  | settings (path : FilePath) (e : Error)
deriving Repr

namespace Failure

def chain (e : Error) : String :=
  match e with
  | .io cause => e.message ++ ": " ++ cause.message
  | e => e.message

def settingsContext (path : FilePath) : String :=
  "Failed to load interpreter config '" ++ path.text ++ "'"

def message : Failure → String
  | .error e => chain e
  | .file cause => cause.message
  | .settings path e => settingsContext path ++ ": " ++ chain e

def exit : Failure → Exit
  | .error e | .settings _ e => .ofError e
  | .file _ => .invalidInput

end Failure

/-! ### Parts of commands -/

def ask {α : Type} (f : Host → Except Error α) : Action Failure α :=
  (Action.ask f).mapError .error

def askFile {α : Type} (f : Host → Except IoError α) : Action Failure α :=
  (Action.ask f).mapError .file

/-- The settings of the interpreter: those in a file or else from the environment, and with another
program if one is given. -/
def resolveSettings (h : Host) (options : SettingsOptions) : Except Failure Interpreter.Settings := do
  let s ← match options.file? with
    | some p => (Interpreter.Settings.ofFile h p).mapError (.settings p)
    | none => pure (.ofVariable h.interpreterVariable?)
  return { s with binary := options.binary?.getD s.binary }

def readDocument (p : FilePath) : Action Failure Json := do
  let text ← askFile fun h => h.readText p
  match Json.ofText? text with
  | some document => return document
  | none => throw (.error (.parse .json))

def readInclude (p : FilePath) : Action Failure (String × String) := do
  match p.fileName? with
  | some name => return (name, ← askFile fun h => h.readText p)
  | none => throw (.error (.invalidPolicy (.badIncludePath p.text)))

def readAttachment (d : DocumentArgument) : Action Failure Datalog.Attachment := do
  return { label := d.label, id := d.id, document := ← readDocument d.path }

/-- Finds the schema of a database and the path of the database by names alone. -/
def openDatabase (schema database : FilePath) : Action Failure (Schema × FilePath) := do
  let schema ← ask fun h => Schema.ofDatabase h schema database
  return (schema, ← askFile fun h => h.canonical database)

/-! ### Commands -/

def runDatalog (options : DatalogOptions) : Action Failure Exit := do
  let (schema, database) ← openDatabase options.schema options.database
  match options.task with
  | .showGenerated =>
    let generated ← (Action.ofExcept (schema.generated database.text)).mapError Failure.error
    Host.print (Report.line generated.text)
    return .passed
  | .evaluate file =>
    let settings ← Action.ask fun h => resolveSettings h options.settings
    let policy ← ask fun h => Datalog.Policy.ofFile h settings file
    let includes ← options.includes.mapM readInclude
    let attachments ← options.documents.mapM readAttachment
    let (verdict, policy) ←
      { policy with includes, attachments }.evaluate database schema options.repository?
    let passed ← (Action.ofExcept verdict).mapError Failure.error
    Host.print ((Report.Evaluation.ofPolicy policy passed).render options.style)
    return .ofVerdict passed

def runValidate (options : ValidateOptions) : Action Failure Exit := do
  let policy ← ask fun h => Structural.Policy.ofFile h options.policy
  let document ← readDocument options.document
  let passed ← (Action.ofExcept (policy.validate document)).mapError Failure.error
  Host.print ((Report.Validation.ofPolicy policy passed).render options.style)
  return .ofVerdict passed

def checkDatalog (options : CheckOptions) (registry : Registry) : Action Failure Report.Check := do
  if registry.datalog.isEmpty then return {}
  match options.database? with
  | none => throw (.error (.invalidPolicy .databaseNeeded))
  | some files =>
    let (schema, database) ← openDatabase files.schema files.database
    let (failures, registry) ← registry.evaluate database schema options.repository?
    let _ ← (Action.ofExcept failures).mapError Failure.error
    let (passedRecords, failedRecords) ←
      (Action.ofExcept (registry.results options.repository?)).mapError Failure.error
    let passed ← (Action.ofExcept registry.datalogPassed).mapError Failure.error
    return { datalogPassed? := some passed, passedRecords, failedRecords }

/-- Checks a document against the structural policy of a registry, if both are there. -/
def checkDocument? (options : CheckOptions) (registry : Registry) :
    Action Failure (Option Report.Validation) := do
  match options.document?, registry.policyFor? options.target with
  | some p, some policy =>
    let document ← readDocument p
    let passed ← (Action.ofExcept (policy.validate document)).mapError Failure.error
    return some (.ofPolicy policy passed)
  | _, _ => return none

def runCheck (options : CheckOptions) : Action Failure Exit := do
  let paths ← ask fun h => (Registry.collect h options.paths).mapError .io
  let settings ← Action.ask fun h => resolveSettings h options.settings
  let registry := Registry.ofFiles (← get) settings paths
  let report ← checkDatalog options registry
  let report := { report with validation? := ← checkDocument? options registry }
  Host.print (report.render options.style)
  return .ofVerdict report.passed

def Task.run : Task → Action Failure Exit
  | .datalog options => runDatalog options
  | .validate options => runValidate options
  | .check options => runCheck options

/-! ### The program -/

def Task.report (task : Task) : StateM Host Exit := do
  match ← task.run.run with
  | .ok exit => return exit
  | .error failure =>
    Host.complain (Report.line ("Error: " ++ failure.message))
    return failure.exit

def makeLog (path? : Option FilePath) : Action IoError Unit :=
  match path? with
  | some p => Host.write p ""
  | none => pure ()

/-- Runs the program with the words of a command line and gives its exit status. -/
def runProgram (words : List String) : StateM Host Nat := do
  match Invocation.ofWords words with
  | .error usage =>
    if usage.isRequest then
      Host.print (Report.line usage.message)
      return Exit.passed.code
    else
      Host.complain (Report.line usage.message)
      return Exit.invalidInput.code
  | .ok invocation =>
    match ← (makeLog invocation.logPath?).run with
    | .error cause =>
      Host.complain (Report.line ("Error: cannot set up logging: " ++ cause.message))
      return Exit.invalidInput.code
    | .ok () => return (← invocation.task.report).code

end PolicyCheck.Command
