import PolicyCheck.Number.Double

/-!
# TOML values

A table remembers how it came about, because that decides who may still add to it: a table with a
header of its own, or one inside a value, is complete; one that only stands on the way to a header
may later get a header of its own; one made by a dotted key may be extended by dotted keys alone.
-/

namespace PolicyCheck.Toml

inductive Origin where
  | inline
  | header
  /-- On the way to the table of a header. -/
  | implied
  /-- On the way to the value of a dotted key. -/
  | dotted
deriving DecidableEq, Repr

inductive Value where
  | string (text : String)
  | integer (value : Int)
  | float (value : Double)
  | boolean (value : Bool)
  | moment (text : String)
  | array (items : List Value)
  | table (origin : Origin) (fields : List (String × Value))
  /-- An array of tables with headers of their own. -/
  | tables (items : List (List (String × Value)))
deriving Repr, Inhabited

/-- The fields of a table in the order in which they were defined. -/
abbrev Fields := List (String × Value)

namespace Fields

def get? (key : String) (fields : Fields) : Option Value := fields.lookup key

/-- Sets a field in its place, or behind all others if it is new. -/
def set (key : String) (value : Value) (fields : Fields) : Fields :=
  if (get? key fields).isSome then
    fields.map fun field => if field.1 = key then (key, value) else field
  else fields ++ [(key, value)]

/-- Changes the table at the end of a path of keys, making the tables on the way that are missing
with origin `made`. Of an array of tables the last one is meant. Dotted keys (`made = .dotted`) may
not pass through a table with a header. -/
def descend (made : Origin) (change : Origin → Fields → Option Fields) (origin : Origin) :
    List String → Fields → Option Fields
  | [], fields => change origin fields
  | key :: path, fields =>
    match get? key fields with
    | none => (descend made change made path []).map fun inner => set key (.table made inner) fields
    | some (.table origin inner) =>
      if origin = .inline ∨ (made = .dotted ∧ origin = .header) then none
      else
        (descend made change origin path inner).map fun inner => set key (.table origin inner) fields
    | some (.tables items) =>
      (descend made change .header path (items.getLast?.getD [])).map fun inner =>
        set key (.tables (items.dropLast ++ [inner])) fields
    | some _ => none

def define (path : List String) (key : String) (value : Value) (fields : Fields) : Option Fields :=
  descend .dotted (fun origin fields =>
    if (path ≠ [] ∧ origin ≠ .dotted) ∨ (get? key fields).isSome then none
    else some (set key value fields)) .header path fields

/-- Opens the table of a header, which must be new or so far only implied. -/
def openTable (path : List String) (key : String) (fields : Fields) : Option Fields :=
  descend .implied (fun _ fields =>
    match get? key fields with
    | none => some (set key (.table .header []) fields)
    | some (.table .implied inner) => some (set key (.table .header inner) fields)
    | some _ => none) .header path fields

def addTable (path : List String) (key : String) (fields : Fields) : Option Fields :=
  descend .implied (fun _ fields =>
    match get? key fields with
    | none => some (set key (.tables [[]]) fields)
    | some (.tables items) => some (set key (.tables (items ++ [[]])) fields)
    | some _ => none) .header path fields

/-- Defines the value of a dotted key in the table of the last header. -/
def defineBelow (header path : List String) (key : String) (value : Value) (fields : Fields) :
    Option Fields :=
  descend .implied (fun _ inner => define path key value inner) .header header fields

end Fields

end PolicyCheck.Toml
