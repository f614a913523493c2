import PolicyCheck.Command.Options
import PolicyCheck.Host.FilePath
import PolicyCheck.Report

/-!
# Invocations

What a command line asks for: one of three commands with its options. `Invocation.ofWords` reads the
words after the name of the program.
-/

namespace PolicyCheck.Command

/-! ### Documents to attach -/

/-- A document to attach, with the name and the number for its facts: `PREFIX:ID:PATH`. -/
structure DocumentArgument where
  label : String
  id : Int
  path : FilePath
deriving DecidableEq, Repr

inductive DocumentFault where
  | badShape (word : String)
  | badId (id : String)
deriving DecidableEq, Repr

def DocumentFault.message : DocumentFault → String
  | .badShape word => s!"expected PREFIX:ID:PATH, got '{word}'"
  | .badId id => s!"document id '{id}' is not an integer"

namespace DocumentArgument

def separator : Char := ':'

def cut? (cs : List Char) : Option (List Char × List Char) :=
  match cs.dropWhile (· ≠ separator) with
  | _ :: rest => some (cs.takeWhile (· ≠ separator), rest)
  | [] => none

/-- Reads a word. The last part may hold further marks. -/
def ofWord (word : String) : Except DocumentFault DocumentArgument :=
  let parts? : Option (List Char × List Char × List Char) := do
    let (label, rest) ← cut? word.toList
    let (id, path) ← cut? rest
    if label.isEmpty ∨ path.isEmpty then none else some (label, id, path)
  match parts? with
  | none => .error (.badShape word)
  | some (label, id, path) =>
    match Text.int64? id with
    | some n => .ok ⟨String.ofList label, n, ⟨String.ofList path⟩⟩
    | none => .error (.badId (String.ofList id))

end DocumentArgument

/-! ### Commands -/

structure SettingsOptions where
  file? : Option FilePath := none
  /-- The program, in place of the one in the settings. -/
  binary? : Option FilePath := none
deriving DecidableEq, Repr

inductive DatalogTask where
  | showGenerated
  | evaluate (file : FilePath)
deriving DecidableEq, Repr

structure DatalogOptions where
  database : FilePath
  schema : FilePath
  task : DatalogTask
  /-- The repository whose failures count; without it all do. -/
  repository? : Option Int := none
  includes : List FilePath := []
  documents : List DocumentArgument := []
  settings : SettingsOptions := {}
  style : Report.Style := .text
deriving Repr

structure ValidateOptions where
  policy : FilePath
  document : FilePath
  style : Report.Style := .text
deriving Repr

structure DatabaseOptions where
  database : FilePath
  schema : FilePath
deriving DecidableEq, Repr

structure CheckOptions where
  paths : List FilePath
  database? : Option DatabaseOptions := none
  repository? : Option Int := none
  document? : Option FilePath := none
  /-- The full name of the repository that selects the structural policy. -/
  target : String := Structural.Policy.anyTarget
  settings : SettingsOptions := {}
  style : Report.Style := .text
deriving Repr

inductive Task where
  | datalog (options : DatalogOptions)
  | validate (options : ValidateOptions)
  | check (options : CheckOptions)
deriving Repr

structure Invocation where
  logPath? : Option FilePath := none
  verbosity : Nat := 0
  task : Task
deriving Repr

def Task.paths : Task → List FilePath
  | .datalog o =>
    let policy? : Option FilePath := match o.task with
      | .showGenerated => none
      | .evaluate file => some file
    [o.database, o.schema] ++ policy?.toList ++ o.includes ++ o.documents.map DocumentArgument.path ++
      o.settings.file?.toList
  | .validate o => [o.policy, o.document]
  | .check o =>
    o.paths ++ (o.database?.toList.flatMap fun d => [d.database, d.schema]) ++ o.document?.toList ++
      o.settings.file?.toList

/-- The files that a command may look at, and the file for a log. -/
def Invocation.paths (i : Invocation) : List FilePath := i.task.paths ++ i.logPath?.toList

/-! ### Options with their values -/

def checkPath (value : String) : Option Usage := if value.isEmpty then some .valueMissing else none

def checkNumber (value : String) : Option Usage :=
  if (Text.int64? value.toList).isSome then none else some .valueUnreadable

def style? : String → Option Report.Style
  | "text" => some .text
  | "json" => some .json
  | _ => none

def checkStyle (value : String) : Option Usage :=
  if (style? value).isSome then none else some .valueMissing

def checkDocument (value : String) : Option Usage :=
  match DocumentArgument.ofWord value with
  | .ok _ => none
  | .error _ => some .valueUnreadable

def pathOption (name : String) (letter? : Option Char) (kind : Kind) : OptionSpec :=
  { name, letter?, kind, check := checkPath }

def styleOption : OptionSpec := { name := "format", check := checkStyle }

def repositoryOption : OptionSpec := { name := "repo", letter? := some 'r', check := checkNumber }

def settingsOptions : List OptionSpec :=
  [pathOption "interpreter" none .single, pathOption "config" (some 'c') .single]

def generalOptions : List OptionSpec :=
  [{ name := "verbose", letter? := some 'v', kind := .count },
    pathOption "log-path" (some 'l') .single,
    { name := "help", letter? := some 'h', kind := .ends .help }]

def commandNames : List String := ["datalog", "validate", "check"]

def helpName : String := "help"

def rootSpecs : Specs where
  options := { name := "version", letter? := some 'V', kind := .ends .version } :: generalOptions
  commands := helpName :: commandNames

def datalogSpecs : Specs where
  options := [pathOption "database" (some 'd') .single, pathOption "schema" (some 's') .single,
    pathOption "file" (some 'f') .single,
    { name := "show-prelude", letter? := some 'p', kind := .flag }, repositoryOption,
    pathOption "include" none .many, { name := "document", kind := .many, check := checkDocument },
    styleOption] ++ settingsOptions ++ generalOptions

def validateSpecs : Specs where
  options := [pathOption "policy" (some 'p') .single, pathOption "document" (some 'd') .single,
    styleOption] ++ generalOptions

def checkSpecs : Specs where
  options := [pathOption "database" (some 'd') .single, pathOption "schema" (some 's') .single,
    repositoryOption, pathOption "document" none .single,
    { name := "target", letter? := some 't' }, styleOption] ++ settingsOptions ++ generalOptions
  free? := some (pathOption "paths" none .many)

/-! ### From values to commands -/

namespace Given

def path? (g : Given) (name : String) : Option FilePath := (g.get? name).map FilePath.mk

def path (g : Given) (name : String) : Except Usage FilePath :=
  match g.path? name with
  | some p => .ok p
  | none => .error .incomplete

def repository? (g : Given) : Option Int := (g.get? "repo").bind fun value => Text.int64? value.toList

def style (g : Given) : Report.Style := ((g.get? "format").bind style?).getD .text

def settings (g : Given) : SettingsOptions where
  file? := g.path? "config"
  binary? := g.path? "interpreter"

def datalog (g : Given) : Except Usage DatalogOptions := do
  let database ← g.path "database"
  let schema ← g.path "schema"
  let task ← if g.has "show-prelude" then pure .showGenerated else .evaluate <$> g.path "file"
  return {
    database, schema, task
    repository? := g.repository?
    includes := (g.all "include").map FilePath.mk
    documents := (g.all "document").filterMap fun word => (DocumentArgument.ofWord word).toOption
    settings := g.settings
    style := g.style }

def validate (g : Given) : Except Usage ValidateOptions := do
  return { policy := ← g.path "policy", document := ← g.path "document", style := g.style }

def check (g : Given) : Except Usage CheckOptions := do
  let paths := (g.all "paths").map FilePath.mk
  if paths.isEmpty then throw .incomplete
  let database? ←
    if g.has "database" ∨ g.has "schema" then do
      pure (some { database := ← g.path "database", schema := ← g.path "schema" })
    else pure none
  return {
    paths, database?
    repository? := g.repository?
    document? := g.path? "document"
    target := (g.get? "target").getD Structural.Policy.anyTarget
    settings := g.settings
    style := g.style }

end Given

namespace Invocation

def readAll (specs : Specs) (words : List String) : Except Usage Given := do
  (← Given.read specs {} words).1.settle

def helpFor (words : List String) : Usage :=
  let known (name : String) : Bool := name ∈ rootSpecs.commands
  match words with
  | [] => .help
  | [name] => if known name then .help else .commandUnknown
  | [name, below] => if name = helpName ∧ known below then .help else .commandUnknown
  | _ => .commandUnknown

/-- The number of times an option was given before and after the command; after it counts first. -/
def verbosityOf (before after : Given) : Nat :=
  let count (g : Given) : Nat := (g.all "verbose").length
  if after.has "verbose" then count after else count before

def readTask (name : String) (words : List String) : Except Usage (Given × Task) := do
  match name with
  | "datalog" =>
    let g ← readAll datalogSpecs words
    return (g, .datalog (← g.datalog))
  | "validate" =>
    let g ← readAll validateSpecs words
    return (g, .validate (← g.validate))
  | "check" =>
    let g ← readAll checkSpecs words
    return (g, .check (← g.check))
  | _ => throw (helpFor words)

def ofWords (words : List String) : Except Usage Invocation := do
  match ← Given.read rootSpecs {} words with
  | (before, none) =>
    let before ← before.settle
    throw (if before.values.isEmpty then .empty else .commandMissing)
  | (before, some (name, rest)) =>
    let (after, task) ← readTask name rest
    let before ← before.settle
    return {
      logPath? := (after.path? "log-path").or (before.path? "log-path")
      verbosity := verbosityOf before after
      task }

end Invocation

end PolicyCheck.Command
