import PolicyCheck.Json.Path
import PolicyCheck.Number.Shortest

/-!
# Tagged values

The terms of the Datalog type `Value`, which carries both the columns of the database and the leaves
of attached documents. A leaf is wrapped in one constructor for each step of its path, the root's
step innermost, so that rules can peel the path off from the leaf upward. Text inside a term stands
between double quotes as it is; `escape` makes any text fit there.
-/

namespace PolicyCheck.Fact

/-- The written form of a character inside a string of a program: a line break becomes a backslash
and an `n`, a double quote becomes a single one. -/
def escapeChar (c : Char) : List Char :=
  if c = '\n' then ['\\', 'n'] else if c = '"' then ['\''] else [c]

def escape (text : String) : String := String.ofList (text.toList.flatMap escapeChar)

theorem not_mem_escape {c : Char} (h : c = '\n' ∨ c = '"') (text : String) :
    c ∉ (escape text).toList := by
  simp only [escape, String.toList_ofList, List.mem_flatMap, not_exists, not_and]
  intro d _ hd
  simp only [escapeChar] at hd
  split at hd
  · rcases h with rfl | rfl <;> simp at hd
  · split at hd
    · rcases h with rfl | rfl <;> simp at hd
    · simp only [List.mem_singleton] at hd
      subst hd
      simp_all

inductive Term where
  | int (value : Int)
  /-- A fractional number, by its text. -/
  | float (text : String)
  | string (text : String)
  | bool (value : Bool)
  | null
  | object (key : String) (inner : Term)
  | array (position : Nat) (inner : Term)
deriving DecidableEq, Repr, Inhabited

namespace Term

def text : Term → String
  | .int n => "$Int(" ++ toString n ++ ")"
  | .float digits => "$Float(" ++ digits ++ ")"
  | .string s => "$String(\"" ++ s ++ "\")"
  | .bool b => if b then "$Bool(1)" else "$Bool(0)"
  | .null => "$Null"
  | .object key inner => "$Object(\"" ++ key ++ "\", " ++ inner.text ++ ")"
  | .array position inner => "$Array(" ++ toString position ++ ", " ++ inner.text ++ ")"

def floatText (d : Double) : String :=
  if '.' ∈ d.plain.toList then d.plain else d.plain ++ ".0"

def ofNumber (n : Number) : Term :=
  match n.int64? with
  | some value => .int value
  | none => .float (floatText n.toDouble)

def ofScalar? : Json → Option Term
  | .null => some .null
  | .bool value => some (.bool value)
  | .number n => some (ofNumber n)
  | .string text => some (.string (escape text))
  | .array _ | .object _ => none

def under (inner : Term) : Step → Term
  | .key name => .object (escape name) inner
  | .index position => .array position inner

/-- The term at a path, the root's step innermost. -/
def wrap (path : Path) (terminal : Term) : Term := path.foldl under terminal

@[simp] theorem wrap_append (p q : Path) (t : Term) : wrap (p ++ q) t = wrap q (wrap p t) := by
  simp [wrap]

end Term

end PolicyCheck.Fact
