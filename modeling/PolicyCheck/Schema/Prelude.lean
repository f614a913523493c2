import PolicyCheck.Datalog.Clause
import PolicyCheck.Schema.Basic
import PolicyCheck.Error

/-!
# From schemas to Datalog

What a schema contributes to every program: a declaration and an input directive for each fact
table, one generic pivot of the check tables by repository, and a pivot by primary key for each fact
table that has one. A column of a type without a Datalog counterpart fails the whole schema; the
first such column in the order of the schema is reported.
-/

namespace PolicyCheck

open Datalog

namespace Column

def unsupported (table type : String) (c : Column) : Error :=
  .unsupportedColumnType table c.name type

def attributeType (table : String) (c : Column) : Except Error AttributeType :=
  match c.type with
  | .integer | .boolean => .ok .number
  | .string | .text => .ok .symbol
  | .other type => .error (c.unsupported table type)

def wrapper (table : String) (c : Column) : Except Error Wrapper :=
  match c.type with
  | .integer => .ok .int
  | .boolean => .ok .bool
  | .string | .text => .ok .string
  | .other type => .error (c.unsupported table type)

def toAttribute (table : String) (c : Column) : Except Error Attribute := do
  return ⟨c.name, ← c.attributeType table⟩

end Column

namespace Table

def declaration (t : Table) : Except Error Declaration := do
  return .table t.relation (← t.columns.mapM (Column.toAttribute t.name))

def declaration? (t : Table) : Except Error (Option Declaration) :=
  if t.isFact then t.declaration.map some else .ok none

def importOutline (database : String) (t : Table) : Except Error Outline := do
  return { declarations := [← t.declaration], inputs := [⟨t.relation, database⟩] }

/-! ### The pivot by repository -/

def repositoryColumn : String := "repository_id"

/-- The columns that describe the row and not the result of a check. -/
def metaColumns : List String := [repositoryColumn, "check_id", "id"]

def repositoryAttribute : String := "repository_attribute"

def checkName : String := "check_name"

/-- The symbol that stands for a missing result. -/
def notApplicable : String := "n/a"

def repositoryPattern (t : Table) (name : String) : List String :=
  t.columns.map fun c =>
    if c.name = name then PivotRule.valueVariable
    else if c.name = repositoryColumn then "repository"
    else PivotRule.wildcard

def repositoryRule (t : Table) (c : Column) : Except Error PivotRule := do
  let wrapper ← c.wrapper t.name
  return {
    target := repositoryAttribute
    keys := ["repository"]
    label := t.relation ++ "." ++ c.name
    wrapper
    source := t.relation
    pattern := t.repositoryPattern c.name
    excluded := if (← c.attributeType t.name) = .symbol then some notApplicable else none }

def pivotsByRepository (t : Table) : Bool := t.holdsChecks && (t.column? repositoryColumn).isSome

def repositoryOutline (t : Table) : Except Error Outline := do
  let columns := t.columns.filter fun c => c.name ∉ metaColumns
  let rules ← if t.pivotsByRepository then columns.mapM t.repositoryRule else pure []
  return { facts := [⟨checkName, t.relation⟩], rules }

/-! ### Pivots by keys -/

def keyAttribute (t : Table) (key : String) : Except Error Attribute :=
  match t.column? key with
  | some c => c.toAttribute t.name
  | none => .error (.schema (.keyColumnMissing key t.name))

/-- The body arguments that bind the column of a name and the key columns. -/
def keyedPattern (t : Table) (keys : List String) (name : String) : List String :=
  t.columns.map fun c =>
    if c.name = name then PivotRule.valueVariable
    else if c.name ∈ keys then c.name
    else PivotRule.wildcard

def keyedRule (t : Table) (target : String) (keys : List String) (c : Column) :
    Except Error PivotRule := do
  return {
    target, keys
    label := c.name
    wrapper := ← c.wrapper t.name
    source := t.relation
    pattern := t.keyedPattern keys c.name }

def keyedPivot (t : Table) (target : String) (keys ignored : List String) : Except Error Outline := do
  let attributes ← keys.mapM t.keyAttribute
  let columns := t.columns.filter fun c => c.name ∉ keys ∧ c.name ∉ ignored
  return {
    declarations := [.pivot target attributes "key"]
    rules := ← columns.mapM (t.keyedRule target keys) }

def primaryPivot (t : Table) : Except Error Outline :=
  if t.primaryKey.isEmpty then .ok {}
  else t.keyedPivot (t.relation ++ "_attribute") t.primaryKey []

end Table

namespace Schema

def importOutline (s : Schema) (database : String) : Except Error Outline := do
  return .concat (← s.factTables.mapM (Table.importOutline database))

/-- The pivot of all check tables by repository, and the names of all fact tables. -/
def repositoryPivot (s : Schema) : Except Error Outline := do
  let declarations : List Declaration :=
    [.pivot Table.repositoryAttribute [⟨"repository", .number⟩] "attribute",
      .names Table.checkName "check"]
  return { declarations } ++ .concat (← s.factTables.mapM Table.repositoryOutline)

def primaryPivots (s : Schema) : Except Error Outline := do
  return .concat (← s.factTables.mapM Table.primaryPivot)

def outline (s : Schema) (database : String) : Except Error Outline := do
  let imports ← s.importOutline database
  let pivot ← s.repositoryPivot
  let keyed ← s.primaryPivots
  return imports ++ pivot ++ keyed

def generated (s : Schema) (database : String) : Except Error Program :=
  (s.outline database).map Outline.program

end Schema

end PolicyCheck
