import PolicyCheck.Datalog.PreludeFile
import PolicyCheck.Datalog.Record
import PolicyCheck.Digest.Sha256
import PolicyCheck.Fact.Encoding
import PolicyCheck.Interpreter.Run
import PolicyCheck.Schema.Prelude

/-!
# Datalog policies

A policy is the text of a Datalog program. To evaluate it, the prelude, everything that the schema
of the database contributes and the facts about the attached documents are put in front of it, and
the interpreter is run on the whole. A run that fails, or whose results cannot be read, counts as a
failed policy without any records and is only reported on the standard error; a schema that cannot be
compiled is an error.
-/

namespace PolicyCheck.Datalog

structure Attachment where
  label : String
  id : Int
  document : Json
deriving Repr, Inhabited

def Attachment.program (a : Attachment) : Program := Fact.program a.document a.label a.id

structure Results where
  relations : Relations := ∅
  passed : List Record := []
  failed : List Record := []
deriving Repr, Inhabited

namespace Results

def ofRelations (relations : Relations) : Except Error Results := do
  let passed ← (Record.ofRelations relations Record.passedRelation).mapError .malformedResult
  let failed ← (Record.ofRelations relations Record.failedRelation).mapError .malformedResult
  return { relations, passed, failed }

def hold (r : Results) (repository? : Option Int) : Bool :=
  !r.failed.any fun record => record.concerns repository?

end Results

structure Policy where
  text : String
  settings : Interpreter.Settings := {}
  attachments : List Attachment := []
  includes : List (String × String) := []
  results? : Option Results := none
deriving Repr, Inhabited

namespace Policy

def hash (p : Policy) : String := Digest.sha256 (Text.Utf8.encode p.text.toList)

def shown (p : Policy) : String := "DatalogPolicy(" ++ p.hash ++ ")"

def ofFile (h : Host) (settings : Interpreter.Settings) (p : FilePath) : Except Error Policy := do
  return { text := ← (h.readText p).mapError .io, settings }

/-! ### The last evaluation -/

def isEvaluated (p : Policy) : Bool := p.results?.isSome

def relations (p : Policy) : Relations := (p.results?.getD {}).relations

def passed (p : Policy) : List Record := (p.results?.getD {}).passed

def failed (p : Policy) : List Record := (p.results?.getD {}).failed

def resultsFor (p : Policy) (repository : Int) : Except Error (List Record × List Record) :=
  match p.results? with
  | none => .error .notEvaluated
  | some r =>
    .ok (r.passed.filter (·.concerns repository), r.failed.filter (·.concerns repository))

/-! ### The program -/

/-- The generated section of the program: what the schema contributes, and the document facts. -/
def generated (p : Policy) (database : FilePath) (schema : Schema) : Except Error Program := do
  return (p.attachments.map Attachment.program).foldl .merge (← schema.generated database.text)

/-- The whole program for a database at an absolute path. -/
def programText (p : Policy) (database : FilePath) (schema : Schema) : Except Error String := do
  let generated ← p.generated database schema
  let sections := PreludeFile.all.map PreludeFile.text ++ [generated.text, p.text]
  return String.join (sections.map (· ++ "\n"))

/-- The whole program for a database at a path that may be relative. -/
def programAt (p : Policy) (h : Host) (database : FilePath) (schema : Schema) : Except Error String := do
  p.programText (← (h.resolve database).mapError .io) schema

/-! ### Evaluation -/

def run (p : Policy) (program : String) : Action Error Relations :=
  Interpreter.Workspace.within p.settings fun w => do
    p.includes.forM fun file => discard ((w.stageInclude file.1 file.2).mapError .io)
    w.interpretText program

/-- The line on the standard error about a run that gives no results: the run may have failed, or its
output relations may be unusable. -/
def complaint (p : Policy) (run : Except Error Relations) (e : Error) : String :=
  let trouble := match run with
    | .error _ => "could not be evaluated"
    | .ok _ => "produced unusable output"
  "ERROR Policy " ++ p.hash ++ " " ++ trouble ++ ": " ++ e.message ++ "\n"

/-- Evaluates the policy against a database: whether it holds for a repository, and the policy with
its results. After an error the policy is as it was. -/
def evaluate (p : Policy) (database : FilePath) (schema : Schema) (repository? : Option Int) :
    StateM Host (Except Error Bool × Policy) := do
  match p.programAt (← get) database schema with
  | .error e => return (.error e, p)
  | .ok program =>
    let run ← (p.run program).run
    match run.bind Results.ofRelations with
    | .ok results => return (.ok (results.hold repository?), { p with results? := some results })
    | .error e =>
      Host.complain (p.complaint run e)
      return (.ok false, { p with results? := some {} })

end Policy

end PolicyCheck.Datalog
