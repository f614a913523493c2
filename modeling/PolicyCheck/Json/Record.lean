import PolicyCheck.Json.Syntax

/-!
# Records in JSON text

A record is written as an object, whose fields may come in any order and among fields of other
names, or as an array of its fields in order. A field given twice is an error. Each reader below
takes the value of one field, or `none` for a field that is missing.
-/

namespace PolicyCheck.Json.Syntax

/-- The value of a field that may not be given twice. -/
def onlyField? (name : String) (fields : List (Option String × Syntax)) : Option (Option Syntax) :=
  match fields.filter fun field => field.1 == some name with
  | [] => some none
  | [field] => some (some field.2)
  | _ => none

/-- The values of the named fields of a record, in the order of the names. -/
def record? (names : List String) : Syntax → Option (List (Option Syntax))
  | .object fields =>
    if fields.all fun field => field.1.isSome then names.mapM fun name => onlyField? name fields
    else none
  | .array items =>
    if items.length ≤ names.length then
      some (items.map some ++ List.replicate (names.length - items.length) none)
    else none
  | _ => none

def string? : Syntax → Option String
  | .string text => text
  | _ => none

def bool? : Syntax → Option Bool
  | .bool value => some value
  | _ => none

def int64? : Syntax → Option Int
  | .number n => n.toNumber?.bind Number.int64?
  | _ => none

def list? {α : Type} (read? : Syntax → Option α) : Syntax → Option (List α)
  | .array items => items.mapM read?
  | _ => none

def nullable? {α : Type} (read? : Syntax → Option α) : Syntax → Option (Option α)
  | .null => some none
  | value => (read? value).map some

def required? {α : Type} (read? : Syntax → Option α) (field : Option Syntax) : Option α :=
  field.bind read?

def defaulted? {α : Type} (read? : Syntax → Option α) (default : α) : Option Syntax → Option α
  | none => some default
  | some value => read? value

end PolicyCheck.Json.Syntax
