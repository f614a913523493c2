import PolicyCheck.Yaml.Value

/-!
# Records in YAML

A record is written as a mapping, whose entries may come in any order and among entries of other
names, or as a sequence of its fields in order. A field given twice is an error, and an empty plain
scalar is a record without fields. Where a record asks for a string, the text of any scalar will do.
-/

namespace PolicyCheck.Yaml

namespace Document

def isBlank : Tree → Bool
  | .scalar _ .plain text => text.isEmpty
  | _ => false

def string (d : Document) (node : Tree) : Reading String := do
  match ← d.follow node with
  | .scalar _ _ text => return text
  | _ => failure

/-- A truth value: a plain scalar, or a literal block under the tag of truth values. -/
def bool (d : Document) (node : Tree) : Reading Bool := do
  match ← d.follow node with
  | .scalar properties style text =>
    if style = .plain ∨ (style = .literal ∧ properties.tag? = some (coreTag "bool")) then
      liftM (bool? text)
    else failure
  | _ => failure

/-- A list of values; an empty plain scalar is the empty list. -/
def list {α : Type} (d : Document) (read : Tree → Reading α) (node : Tree) : Reading (List α) := do
  match ← d.follow node with
  | .sequence _ items => items.mapM read
  | node => if isBlank node then return [] else failure

/-- Adds the value of an entry to the fields of a record, if its key is one of the names. -/
def addField (names : List String) (fields : List (String × Tree)) (key : String) (value : Tree) :
    Reading (List (String × Tree)) :=
  if key ∉ names then pure fields
  else if (fields.lookup key).isSome then failure
  else pure ((key, value) :: fields)

/-- The values of the named fields of a record, in the order of the names. -/
def record (d : Document) (names : List String) (node : Tree) : Reading (List (Option Tree)) := do
  match ← d.follow node with
  | .mapping _ entries =>
    let fields ← entries.foldlM (fun fields entry => do
      addField names fields (← d.string entry.1) entry.2) []
    return names.map fun name => fields.lookup name
  | .sequence _ items =>
    if items.length ≤ names.length then
      return items.map some ++ List.replicate (names.length - items.length) none
    else failure
  | node => if isBlank node then return names.map fun _ => none else failure

/-- Reads the record of the document; a text without a document is a record without fields. -/
def ofRoot? {α : Type} (d : Document) (read : Tree → Reading α) : Option α :=
  d.read? (read (d.root?.getD (.scalar {} .plain "")))

end Document

def required {α : Type} (read : Tree → Reading α) : Option Tree → Reading α
  | some node => read node
  | none => failure

def defaulted {α : Type} (read : Tree → Reading α) (default : α) : Option Tree → Reading α
  | some node => read node
  | none => pure default

end PolicyCheck.Yaml
