import PolicyCheck.Datalog.Policy
import PolicyCheck.Structural.File

/-!
# Registries of policies

Structural policies are held by the repository that they are for, one for each; a policy for `any`
repository stands in where there is no other. Datalog policies are held in the order in which they
came and are evaluated together. Their verdict is known from a successful evaluation until another
Datalog policy is added.
-/

namespace PolicyCheck

open Datalog (Record)

structure Registry where
  structural : Dictionary Structural.Policy := ∅
  datalog : List Datalog.Policy := []
  /-- Whether all Datalog policies held in the last evaluation, if that still counts. -/
  verdict? : Option Bool := none
deriving Repr, Inhabited

namespace Registry

def addStructural (r : Registry) (p : Structural.Policy) : Registry :=
  { r with structural := r.structural.insert p.target p }

def addDatalog (r : Registry) (p : Datalog.Policy) : Registry :=
  { r with datalog := r.datalog ++ [p], verdict? := none }

/-- The structural policy for a repository, or else the one for any. -/
def policyFor? (r : Registry) (target : String) : Option Structural.Policy :=
  (r.structural.get? target).or (r.structural.get? Structural.Policy.anyTarget)

/-! ### Loading -/

/-- Adds the policy in a file; a file that is no policy, or that cannot be used, adds nothing. -/
def addFile (h : Host) (settings : Interpreter.Settings) (r : Registry) (p : FilePath) : Registry :=
  match p.extension? with
  | some "yaml" | some "yml" =>
    match Structural.Policy.ofFile h p with
    | .ok policy => r.addStructural policy
    | .error _ => r
  | some "dl" =>
    match Datalog.Policy.ofFile h settings p with
    | .ok policy => r.addDatalog policy
    | .error _ => r
  | _ => r

def ofFiles (h : Host) (settings : Interpreter.Settings) (paths : List FilePath) : Registry :=
  paths.foldl (addFile h settings) {}

/-- The files that a path stands for: those in a directory, by name, or else the path itself. -/
def filesAt (h : Host) (p : FilePath) : Except IoError (List FilePath) :=
  if h.isDirectory p then do
    let names := (← h.list p).mergeSort (· ≤ ·)
    return (names.map fun name => p.join ⟨name⟩).filter h.isFile
  else .ok [p]

def collect (h : Host) (paths : List FilePath) : Except IoError (List FilePath) := do
  return (← paths.mapM (filesAt h)).flatten

/-! ### Evaluation -/

/-- Evaluates policies one after the other up to the first error: whether all held, all records that
failed, and the policies with their results. -/
def evaluateAll (database : FilePath) (schema : Schema) (repository? : Option Int) :
    List Datalog.Policy → StateM Host (Except Error (Bool × List Record) × List Datalog.Policy)
  | [] => return (.ok (true, []), [])
  | p :: ps => do
    match ← p.evaluate database schema repository? with
    | (.error e, p) => return (.error e, p :: ps)
    | (.ok holds, p) =>
      let (rest, ps) ← evaluateAll database schema repository? ps
      return (rest.map fun r => (holds && r.1, p.failed ++ r.2), p :: ps)

/-- Evaluates all Datalog policies: the records that failed, for any repository, and the registry
with its verdict. -/
def evaluate (r : Registry) (database : FilePath) (schema : Schema) (repository? : Option Int) :
    StateM Host (Except Error (List Record) × Registry) := do
  match ← evaluateAll database schema repository? r.datalog with
  | (.error e, datalog) => return (.error e, { r with datalog })
  | (.ok (verdict, failed), datalog) =>
    return (.ok failed, { r with datalog, verdict? := some verdict })

def isEvaluated (r : Registry) : Bool := r.verdict?.isSome

def datalogPassed (r : Registry) : Except Error Bool :=
  match r.verdict? with
  | some verdict => .ok verdict
  | none => .error .notEvaluated

/-- The records of all Datalog policies about a repository, or about any if none is given: those that
passed and those that failed. -/
def results (r : Registry) (repository? : Option Int) : Except Error (List Record × List Record) :=
  if r.isEvaluated then
    .ok (r.datalog.flatMap fun p => p.passed.filter (·.concerns repository?),
      r.datalog.flatMap fun p => p.failed.filter (·.concerns repository?))
  else .error .notEvaluated

end Registry

end PolicyCheck
