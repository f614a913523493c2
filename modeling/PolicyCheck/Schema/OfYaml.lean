import PolicyCheck.Schema.Basic
import PolicyCheck.Yaml.Record

/-!
# Schemas in YAML

The same records as in JSON: a schema of tables, a table of columns.
-/

namespace PolicyCheck

open Yaml

namespace Column

/-- Reads a column; it belongs to no primary key unless it says so. -/
def ofTree (d : Document) (node : Tree) : Reading Column := do
  let [name, type, primaryKey] ← d.record ["name", "type", "primary_key"] node | failure
  let name ← required d.string name
  let type ← required d.string type
  let primaryKey ← defaulted d.bool false primaryKey
  return { name, type := .ofName type, primaryKey }

end Column

namespace Table

def ofTree (d : Document) (node : Tree) : Reading Table := do
  let [name, columns] ← d.record ["name", "columns"] node | failure
  return { name := ← required d.string name, columns := ← required (d.list (Column.ofTree d)) columns }

end Table

namespace Schema

def ofTree (d : Document) (node : Tree) : Reading Schema := do
  let [tables] ← d.record ["tables"] node | failure
  return { tables := ← required (d.list (Table.ofTree d)) tables }

def ofYamlText? (text : String) : Option Schema := do
  let d ← Document.ofText? text
  d.ofRoot? (ofTree d)

def ofJsonText? (text : String) : Option Schema := (Json.Syntax.ofText? text).bind ofSyntax?

end Schema

end PolicyCheck
