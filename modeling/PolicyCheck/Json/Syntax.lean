import PolicyCheck.Json.Basic

/-!
# JSON text

`Json.Syntax` is a JSON text as written: fields in text order with repetitions, numbers by their
digits, strings possibly with unpaired surrogates. The reader accepts exactly the JSON grammar.
`Syntax.toJson?` takes the text for a document, which also asks for paired surrogates, for numbers
with a finite nearest binary64 number and for at most 127 levels of nesting.
-/

namespace PolicyCheck.Json

structure Numeral where
  negative : Bool
  digits : Nat
  exponent : Int
  /-- Whether it has neither a fraction nor an exponent. -/
  integral : Bool
deriving DecidableEq, Repr

/-- The number that a numeral denotes. An integral numeral within 64 bits is an integer, except for
`-0`; everything else is the nearest binary64 number and must be finite. -/
def Numeral.toNumber? (n : Numeral) : Option Number :=
  let value : Int := if n.negative then -(n.digits : Int) else n.digits
  if n.integral ∧ (Text.FitsInt64 value ∨ Text.FitsUInt64 value) ∧ ¬(n.negative ∧ value = 0) then
    some (.int value)
  else
    let d := Double.ofDecimal n.negative n.digits n.exponent
    if d.isFinite then some (.double d) else none

inductive Syntax where
  | null
  | bool (value : Bool)
  | number (value : Numeral)
  /-- A string, or `none` for one with an unpaired surrogate. -/
  | string (value : Option String)
  | array (items : List Syntax)
  | object (fields : List (Option String × Syntax))
deriving Repr, Inhabited

namespace Syntax

/-! ### Strings -/

/-- A character of a string, or a code unit written as a hexadecimal escape. -/
inductive Atom where
  | char (c : Char)
  | unit (value : Nat)
deriving DecidableEq, Repr

/-- The text of a string, if every surrogate has its partner. -/
def joinUnits (acc : List Char) : List Atom → Option String
  | [] => some (String.ofList acc.reverse)
  | .char c :: atoms => joinUnits (c :: acc) atoms
  | .unit high :: .unit low :: atoms =>
    if 0xD800 ≤ high ∧ high < 0xDC00 then
      if 0xDC00 ≤ low ∧ low < 0xE000 then
        joinUnits (Char.ofNat (0x10000 + (high - 0xD800) * 0x400 + (low - 0xDC00)) :: acc) atoms
      else none
    else if 0xDC00 ≤ high ∧ high < 0xE000 then none
    else joinUnits (Char.ofNat high :: acc) (.unit low :: atoms)
  | .unit value :: atoms =>
    if 0xD800 ≤ value ∧ value < 0xE000 then none else joinUnits (Char.ofNat value :: acc) atoms

def escape? : Char → Option Char
  | '"' => some '"'
  | '\\' => some '\\'
  | '/' => some '/'
  | 'b' => some '\x08'
  | 'f' => some '\x0c'
  | 'n' => some '\n'
  | 'r' => some '\r'
  | 't' => some '\t'
  | _ => none

/-- Reads a string after its opening quote. -/
def readString (acc : List Atom) : List Char → Option (Option String × List Char)
  | [] => none
  | '"' :: rest => some (joinUnits [] acc.reverse, rest)
  | '\\' :: 'u' :: a :: b :: c :: d :: rest =>
    match Text.natOfBase? 16 [a, b, c, d] with
    | some value => readString (.unit value :: acc) rest
    | none => none
  | '\\' :: e :: rest =>
    match escape? e with
    | some c => readString (.char c :: acc) rest
    | none => none
  | c :: rest => if c.toNat < 0x20 ∨ c = '\\' then none else readString (.char c :: acc) rest

/-! ### Numbers -/

def readExponent (negative : Bool) (digits : Nat) (places : Nat) (integral : Bool) :
    List Char → Option (Numeral × List Char)
  | e :: rest =>
    if e = 'e' ∨ e = 'E' then
      let (sign, rest) : Int × List Char := match rest with
        | '-' :: rest => (-1, rest)
        | '+' :: rest => (1, rest)
        | rest => (1, rest)
      (Text.nat? (rest.takeWhile Text.isDigit)).map fun n =>
        (⟨negative, digits, sign * n - places, false⟩, rest.dropWhile Text.isDigit)
    else some (⟨negative, digits, -places, integral⟩, e :: rest)
  | [] => some (⟨negative, digits, -places, integral⟩, [])

/-- Reads a number after its sign. -/
def readNumber (negative : Bool) (cs : List Char) : Option (Numeral × List Char) :=
  let whole := cs.takeWhile Text.isDigit
  let rest := cs.dropWhile Text.isDigit
  if whole.isEmpty ∨ (whole.head? = some '0' ∧ whole.length ≠ 1) then none
  else match rest with
    | '.' :: rest =>
      let fraction := rest.takeWhile Text.isDigit
      if fraction.isEmpty then none
      else
        (Text.nat? (whole ++ fraction)).bind fun n =>
          readExponent negative n fraction.length false (rest.dropWhile Text.isDigit)
    | rest => (Text.nat? whole).bind fun n => readExponent negative n 0 true rest

/-! ### Values -/

def isSpace (c : Char) : Bool := c = ' ' || c = '\n' || c = '\t' || c = '\r'

def skip (cs : List Char) : List Char := cs.dropWhile isSpace

def literal? (value : Syntax) (word : List Char) (cs : List Char) : Option (Syntax × List Char) :=
  if word.isPrefixOf cs then some (value, cs.drop word.length) else none

mutual

/-- Reads a value; every call consumes a character, so fuel above the length of the text is never
used up. -/
def readValue : Nat → List Char → Option (Syntax × List Char)
  | 0, _ => none
  | fuel + 1, cs =>
    match skip cs with
    | '"' :: rest => (readString [] rest).map fun (text, rest) => (.string text, rest)
    | '[' :: rest =>
      match skip rest with
      | ']' :: rest => some (.array [], rest)
      | rest => readItems fuel [] rest
    | '{' :: rest =>
      match skip rest with
      | '}' :: rest => some (.object [], rest)
      | rest => readFields fuel [] rest
    | 'n' :: rest => literal? .null ['u', 'l', 'l'] rest
    | 't' :: rest => literal? (.bool true) ['r', 'u', 'e'] rest
    | 'f' :: rest => literal? (.bool false) ['a', 'l', 's', 'e'] rest
    | '-' :: rest => (readNumber true rest).map fun (n, rest) => (.number n, rest)
    | rest => (readNumber false rest).map fun (n, rest) => (.number n, rest)

def readItems : Nat → List Syntax → List Char → Option (Syntax × List Char)
  | 0, _, _ => none
  | fuel + 1, acc, cs =>
    match readValue fuel cs with
    | none => none
    | some (item, rest) =>
      match skip rest with
      | ',' :: rest => readItems fuel (item :: acc) rest
      | ']' :: rest => some (.array (item :: acc).reverse, rest)
      | _ => none

def readFields : Nat → List (Option String × Syntax) → List Char → Option (Syntax × List Char)
  | 0, _, _ => none
  | fuel + 1, acc, cs =>
    match skip cs with
    | '"' :: rest =>
      match readString [] rest with
      | none => none
      | some (key, rest) =>
        match skip rest with
        | ':' :: rest =>
          match readValue fuel rest with
          | none => none
          | some (value, rest) =>
            match skip rest with
            | ',' :: rest => readFields fuel ((key, value) :: acc) rest
            | '}' :: rest => some (.object ((key, value) :: acc).reverse, rest)
            | _ => none
        | _ => none
    | _ => none

end

def ofText? (text : String) : Option Syntax :=
  let cs := text.toList
  match readValue (2 * cs.length + 2) cs with
  | some (value, rest) => if (skip rest).isEmpty then some value else none
  | none => none

/-! ### The value that a text denotes -/

mutual

/-- The value, if it has at most `levels` levels of nesting; `arrange` puts the fields of each
object into the order in which the value holds them. -/
def toJsonWithin? (arrange : List (String × Json) → List (String × Json)) :
    Nat → Syntax → Option Json
  | _, .null => some .null
  | _, .bool value => some (.bool value)
  | _, .number n => n.toNumber?.map .number
  | _, .string text => text.map .string
  | 0, .array _ => none
  | levels + 1, .array items => (itemsWithin? arrange levels items).map .array
  | 0, .object _ => none
  | levels + 1, .object fields =>
    (fieldsWithin? arrange levels fields).map fun fields => .object (arrange fields)

def itemsWithin? (arrange : List (String × Json) → List (String × Json)) :
    Nat → List Syntax → Option (List Json)
  | _, [] => some []
  | levels, item :: items =>
    match toJsonWithin? arrange levels item, itemsWithin? arrange levels items with
    | some value, some values => some (value :: values)
    | _, _ => none

def fieldsWithin? (arrange : List (String × Json) → List (String × Json)) :
    Nat → List (Option String × Syntax) → Option (List (String × Json))
  | _, [] => some []
  | levels, (key, item) :: fields =>
    match key, toJsonWithin? arrange levels item, fieldsWithin? arrange levels fields with
    | some key, some value, some fields => some ((key, value) :: fields)
    | _, _, _ => none

end

/-- The deepest nesting of arrays and objects that a value may have. -/
def maxLevels : Nat := 127

/-- Fields in the order of keys; of a repeated key the last value counts. -/
def sortFields (fields : List (String × Json)) : List (String × Json) :=
  fields.foldl (fun sorted field => insertField field.1 field.2 sorted) []

def toJson? (value : Syntax) : Option Json := toJsonWithin? sortFields maxLevels value

/-- The value with its fields in text order, repetitions included, if it may stand `depth` levels
deep. -/
def asWritten? (depth : Nat) (value : Syntax) : Option Json :=
  toJsonWithin? id (maxLevels - depth) value

end Syntax

def ofText? (text : String) : Option Json := (Syntax.ofText? text).bind Syntax.toJson?

end PolicyCheck.Json
