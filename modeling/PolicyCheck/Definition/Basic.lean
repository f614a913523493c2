import PolicyCheck.Number.Shortest
import PolicyCheck.Number.Basic
import PolicyCheck.Json.Printer
import PolicyCheck.Text.Hidden

/-!
# Policy definitions

The tree that a policy author writes: scalars, sequences and mappings as in YAML. A mapping keeps
the order of its entries, and its keys may be any trees; `Definition.same` is the equality under
which the keys of one mapping have to differ. `Definition.shown` is the form that messages use.
-/

namespace PolicyCheck

inductive Definition where
  | null
  | bool (value : Bool)
  | number (value : Number)
  | string (value : String)
  | sequence (items : List Definition)
  | mapping (entries : List (Definition × Definition))
  /-- A value under a tag of its own, given without its exclamation mark. -/
  | tagged (tag : String) (value : Definition)
deriving Repr, Inhabited

namespace Definition

/-! ### Equality of keys -/

/-- Equality of numbers as keys: integers differ from fractional numbers, and not-a-number is equal
to itself. -/
def sameNumber : Number → Number → Bool
  | .int m, .int n => m == n
  | .double x, .double y => Double.same x y || (x == .nan && y == .nan)
  | _, _ => false

mutual

/-- Equality of trees; the order of a mapping's entries does not matter. -/
def same : Definition → Definition → Bool
  | .null, .null => true
  | .bool a, .bool b => a == b
  | .number a, .number b => sameNumber a b
  | .string a, .string b => a == b
  | .sequence as, .sequence bs => sameItems as bs
  | .mapping as, .mapping bs => as.length == bs.length && sameEntries as bs
  | .tagged t a, .tagged u b => t == u && same a b
  | _, _ => false

def sameItems : List Definition → List Definition → Bool
  | [], [] => true
  | a :: as, b :: bs => same a b && sameItems as bs
  | _, _ => false

def sameEntries : List (Definition × Definition) → List (Definition × Definition) → Bool
  | [], _ => true
  | (k, a) :: as, bs => occurs k a bs && sameEntries as bs

def occurs (k a : Definition) : List (Definition × Definition) → Bool
  | [] => false
  | (l, b) :: bs => (same k l && same a b) || occurs k a bs

end

/-! ### The form used in messages -/

def shownChar (c : Char) : List Char :=
  match c with
  | '"' => ['\\', '"']
  | '\\' => ['\\', '\\']
  | '\n' => ['\\', 'n']
  | '\r' => ['\\', 'r']
  | '\t' => ['\\', 't']
  | '\x00' => ['\\', '0']
  | c =>
    if Text.isHidden c then
      ['\\', 'u', '\x7b'] ++ Nat.toDigits 16 c.toNat ++ ['\x7d']
    else [c]

def shownString (text : String) : String :=
  "\"" ++ String.ofList (text.toList.flatMap shownChar) ++ "\""

def numberText : Number → String
  | .int n => toString n
  | .double d => d.yaml

mutual

def shown : Definition → String
  | .null => "Null"
  | .bool value => if value then "Bool(true)" else "Bool(false)"
  | .number n => "Number(" ++ numberText n ++ ")"
  | .string text => "String(" ++ shownString text ++ ")"
  | .sequence items => "Sequence [" ++ ", ".intercalate (shownItems items) ++ "]"
  | .mapping entries => "Mapping \x7b" ++ ", ".intercalate (shownEntries entries) ++ "\x7d"
  | .tagged tag value => "TaggedValue \x7b tag: !" ++ tag ++ ", value: " ++ shown value ++ " \x7d"

def shownItems : List Definition → List String
  | [] => []
  | item :: items => shown item :: shownItems items

def shownEntries : List (Definition × Definition) → List String
  | [] => []
  | (key, value) :: entries =>
    let keyText := match key with
      | .bool b => if b then "true" else "false"
      | .number n => numberText n
      | .string text => shownString text
      | key => shown key
    (keyText ++ ": " ++ shown value) :: shownEntries entries

end

end Definition

end PolicyCheck
