import PolicyCheck.Structural.Node
import PolicyCheck.Json.Record
import PolicyCheck.Json.Printer

/-!
# Compiled policies as JSON

A node is an object with its kind in the field `node`. Steps of a path and literals carry no kind:
they are told apart by the JSON value itself, a truth value before an integer of 64 bits, that
before any other number, and that before a string. A literal that is not finite is written as
`null`, which is no literal.
-/

namespace PolicyCheck

namespace Step

def toJson : Step → Json
  | .key name => .string name
  | .index position => .ofNat position

/-- Reads a step: a string or an integer that fits an unsigned word of 64 bits. -/
def ofJson? : Json → Option Step
  | .string name => some (.key name)
  | .number (.int n) => if 0 ≤ n then some (.index n.toNat) else none
  | _ => none

end Step

namespace Structural

namespace Literal

def toJson : Literal → Json
  | .bool value => .bool value
  | .int value => .ofInt value
  | .double value => if value.isFinite then .number (.double value) else .null
  | .string value => .string value

def ofJson? : Json → Option Literal
  | .bool value => some (.bool value)
  | .number n => some (.ofNumber n)
  | .string value => some (.string value)
  | _ => none

end Literal

namespace Node

mutual

def toJson : Node → Json
  | .literal path value =>
    .object [("node", .string "literal"), ("path", .array (path.map Step.toJson)),
      ("value", value.toJson)]
  | .allOf children => .object [("node", .string "all_of"), ("children", .array (toJsons children))]
  | .absent path => .object [("node", .string "absent"), ("path", .array (path.map Step.toJson))]

def toJsons : List Node → List Json
  | [] => []
  | child :: children => toJson child :: toJsons children

end

/-! ### Reading -/

/-- The kinds of nodes, in the order in which they may also be given by number. -/
def kinds : List String := ["literal", "all_of", "absent"]

/-- The value of a field that may not be given twice. -/
def onlyField? (name : String) (fields : List (String × Json)) : Option (Option Json) :=
  match fields.filter fun field => field.1 = name with
  | [] => some none
  | [field] => some (some field.2)
  | _ => none

/-- Reads the kind of a node; below the root a kind may also be given by its number. -/
def kind? (root : Bool) : Json → Option String
  | .string name => if name ∈ kinds then some name else none
  | .number (.int n) => if root ∨ n < 0 then none else kinds[n.toNat]?
  | _ => none

def path? : Json → Option Path
  | .array steps => steps.mapM Step.ofJson?
  | _ => none

/-- The kind of a node and the values of the named fields of that kind. A node is an object, or an
array of its kind and its fields in order. -/
def parts? (root : Bool) : Json → Option (String × List (Option Json))
  | .object fields => do
    let kind ← kind? root (← ← onlyField? "node" fields)
    let names := match kind with
      | "literal" => ["path", "value"]
      | "all_of" => ["children"]
      | _ => ["path"]
    return (kind, ← names.mapM fun name => onlyField? name fields)
  | .array (kind :: values) => do
    let kind ← kind? root kind
    let width := if kind = "literal" then 2 else 1
    if values.length = width then some (kind, values.map some) else none
  | _ => none

/-- Reads a node of a value with at most `levels` levels of nodes. -/
def ofJsonWithin? : Nat → Bool → Json → Option Node
  | 0, _, _ => none
  | levels + 1, root, value => do
    match ← parts? root value with
    | ("literal", [some path, some value]) =>
      return .literal (← path? path) (← Literal.ofJson? value)
    | ("all_of", [some (.array children)]) =>
      return .allOf (← children.mapM (ofJsonWithin? levels false))
    | ("absent", [some path]) => return .absent (← path? path)
    | _ => none

mutual

def depth : Json → Nat
  | .array items => depths items + 1
  | .object fields => fieldDepths fields + 1
  | _ => 1

def depths : List Json → Nat
  | [] => 0
  | item :: items => max (depth item) (depths items)

def fieldDepths : List (String × Json) → Nat
  | [] => 0
  | (_, value) :: fields => max (depth value) (fieldDepths fields)

end

def ofJson? (value : Json) : Option Node := ofJsonWithin? (depth value) true value

end Node

end Structural

end PolicyCheck
