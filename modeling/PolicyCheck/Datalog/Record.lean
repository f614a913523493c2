import PolicyCheck.Text.Blank
import PolicyCheck.Datalog.Relation
import PolicyCheck.Json.Record
import PolicyCheck.Error

/-!
# Result records

A row of a result relation says that a policy passed or failed for a repository, and may give a
reason. The repository is a decimal numeral of 64 bits, which white space may surround.
-/

namespace PolicyCheck.Datalog

structure Record where
  policy : String
  repository : Int
  reason? : Option String := none
deriving DecidableEq, Repr, Inhabited

namespace Record

def passedRelation : String := "passed_policies"

def failedRelation : String := "failed_policies"

def readRepository (cell : String) : Except RowFault Int :=
  match Text.int64? (Text.trim cell.toList) with
  | some n => .ok n
  | none => .error (.badRepository cell)

def ofRow : Row → Except RowFault Record
  | [policy, repository] => do return ⟨policy, ← readRepository repository, none⟩
  | [policy, repository, reason] => do return ⟨policy, ← readRepository repository, some reason⟩
  | row => .error (.badWidth row.length)

def row (r : Record) : Row := [r.policy, toString r.repository] ++ r.reason?.toList

/-- The records in a relation of a run; a relation that the run did not write has none. -/
def ofRelations (relations : Relations) (name : String) : Except RowFault (List Record) :=
  ((relations.get? name).getD []).mapM ofRow

def concerns (r : Record) (repository? : Option Int) : Bool :=
  repository?.all (r.repository == ·)

def text (r : Record) : String :=
  r.policy ++ " (repository " ++ toString r.repository ++ ")" ++
    match r.reason? with
    | some reason => ": " ++ reason
    | none => ""

/-- The record as a JSON object; without a reason it has no such field. -/
def toJson (r : Record) : Json :=
  .object ([("policy", .string r.policy), ("repository", .ofInt r.repository)] ++
    r.reason?.toList.map fun reason => ("reason", .string reason))

def ofSyntax? (value : Json.Syntax) : Option Record := do
  let [policy, repository, reason] ← value.record? ["policy", "repository", "reason"] | none
  let policy ← Json.Syntax.required? Json.Syntax.string? policy
  let repository ← Json.Syntax.required? Json.Syntax.int64? repository
  let reason? ← Json.Syntax.defaulted? (Json.Syntax.nullable? Json.Syntax.string?) none reason
  return { policy, repository, reason? }

end Record

end PolicyCheck.Datalog
