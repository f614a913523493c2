import PolicyCheck.Definition.Basic
import PolicyCheck.Json.Syntax

/-!
# Definitions in JSON text

A definition may be given as JSON. The order of fields is kept, and a repeated key is an error.
-/

namespace PolicyCheck.Definition

mutual

/-- The definition that a JSON text denotes, if it has at most `levels` levels of nesting. -/
def ofSyntaxWithin? : Nat → Json.Syntax → Option Definition
  | _, .null => some .null
  | _, .bool value => some (.bool value)
  | _, .number n => n.toNumber?.map .number
  | _, .string text => text.map .string
  | 0, .array _ => none
  | levels + 1, .array items => (itemsWithin? levels items).map .sequence
  | 0, .object _ => none
  | levels + 1, .object fields => (entriesWithin? levels [] fields).map .mapping

def itemsWithin? : Nat → List Json.Syntax → Option (List Definition)
  | _, [] => some []
  | levels, item :: items =>
    match ofSyntaxWithin? levels item, itemsWithin? levels items with
    | some value, some values => some (value :: values)
    | _, _ => none

/-- The entries of a mapping; the keys so far are held to tell a repetition. -/
def entriesWithin? : Nat → List String → List (Option String × Json.Syntax) →
    Option (List (Definition × Definition))
  | _, _, [] => some []
  | levels, seen, (key, item) :: fields =>
    match key with
    | none => none
    | some key =>
      if key ∈ seen then none
      else
        match ofSyntaxWithin? levels item, entriesWithin? levels (key :: seen) fields with
        | some value, some entries => some ((.string key, value) :: entries)
        | _, _ => none

end

def ofJsonText? (text : String) : Option Definition :=
  (Json.Syntax.ofText? text).bind (ofSyntaxWithin? Json.Syntax.maxLevels)

end PolicyCheck.Definition
