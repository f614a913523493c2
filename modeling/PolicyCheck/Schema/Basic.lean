import PolicyCheck.Text.Blank
import PolicyCheck.Text.Pieces
import PolicyCheck.Json.Record
import PolicyCheck.Json.Printer

/-!
# Database schemas

A schema lists the tables of the analysis database with their columns. A table whose name starts
with an underscore holds facts; its relation has the name without that one underscore.
-/

namespace PolicyCheck

inductive SqlType where
  | integer
  | string
  | text
  | boolean
  /-- A type that no Datalog type stands for, under the name it was given. -/
  | other (name : String)
deriving DecidableEq, Repr, Inhabited

namespace SqlType

/-- The type of a given name. Case, surrounding white space and a length in brackets do not matter. -/
def ofName (name : String) : SqlType :=
  let lowered := (Text.trim name.toList).map Char.toLower
  match String.ofList (Text.trim (lowered.takeWhile (· ≠ '('))) with
  | "integer" | "int" | "bigint" | "smallint" => .integer
  | "string" | "varchar" | "char" => .string
  | "text" => .text
  | "boolean" | "bool" => .boolean
  | _ => .other name

def name : SqlType → String
  | .integer => "INTEGER"
  | .string => "VARCHAR"
  | .text => "TEXT"
  | .boolean => "BOOLEAN"
  | .other name => name

end SqlType

structure Column where
  name : String
  type : SqlType
  primaryKey : Bool := false
deriving DecidableEq, Repr, Inhabited

structure Table where
  name : String
  columns : List Column
deriving DecidableEq, Repr, Inhabited

structure Schema where
  tables : List Table
deriving DecidableEq, Repr, Inhabited

namespace Column

def toJson (c : Column) : Json :=
  .object [("name", .string c.name), ("type", .string c.type.name), ("primary_key", .bool c.primaryKey)]

/-- Reads a column; it belongs to no primary key unless it says so. -/
def ofSyntax? (value : Json.Syntax) : Option Column := do
  let [name, type, primaryKey] ← value.record? ["name", "type", "primary_key"] | none
  let name ← Json.Syntax.required? Json.Syntax.string? name
  let type ← Json.Syntax.required? Json.Syntax.string? type
  let primaryKey ← Json.Syntax.defaulted? Json.Syntax.bool? false primaryKey
  return { name, type := .ofName type, primaryKey }

end Column

namespace Table

def factMark : Char := '_'

def isFact (t : Table) : Bool := t.name.toList.head? == some factMark

/-- The name of the table's relation: without the mark of a fact table. -/
def relation (t : Table) : String :=
  if t.isFact then String.ofList t.name.toList.tail else t.name

def column? (t : Table) (name : String) : Option Column := t.columns.find? (·.name == name)

/-- The names of the columns of the primary key, in the order of their declaration. -/
def primaryKey (t : Table) : List String := (t.columns.filter (·.primaryKey)).map (·.name)

def holdsChecks (t : Table) : Bool := Text.contains "check".toList t.name.toList

def toJson (t : Table) : Json :=
  .object [("name", .string t.name), ("columns", .array (t.columns.map Column.toJson))]

def ofSyntax? (value : Json.Syntax) : Option Table := do
  let [name, columns] ← value.record? ["name", "columns"] | none
  let name ← Json.Syntax.required? Json.Syntax.string? name
  let columns ← Json.Syntax.required? (Json.Syntax.list? Column.ofSyntax?) columns
  return { name, columns }

end Table

namespace Schema

def factTables (s : Schema) : List Table := s.tables.filter Table.isFact

def toJson (s : Schema) : Json := .object [("tables", .array (s.tables.map Table.toJson))]

def ofSyntax? (value : Json.Syntax) : Option Schema := do
  let [tables] ← value.record? ["tables"] | none
  return { tables := ← Json.Syntax.required? (Json.Syntax.list? Table.ofSyntax?) tables }

end Schema

end PolicyCheck
