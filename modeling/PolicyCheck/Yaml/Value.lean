import PolicyCheck.Yaml.Document
import PolicyCheck.Definition.Basic

/-!
# Values of scalars

What a scalar stands for. A plain scalar may be the empty value, a truth value or a number; every
other scalar is a string unless a core tag asks for another kind.
-/

namespace PolicyCheck.Yaml

/-! ### Numerals -/

def basedDigits? : List Char → Option (Nat × List Char)
  | '0' :: 'x' :: digits => some (16, digits)
  | '0' :: 'o' :: digits => some (8, digits)
  | '0' :: 'b' :: digits => some (2, digits)
  | _ => none

/-- Whether digits start with a zero that is not their only one. -/
def hasExtraZero (digits : List Char) : Bool :=
  digits.head? = some '0' && 1 < digits.length && digits.all Text.isDigit

def natural? (cs : List Char) : Option Nat :=
  match basedDigits? cs with
  | some (base, digits) => Text.natOfBase? base digits
  | none => if hasExtraZero cs then none else Text.nat? cs

def integer? : List Char → Option Int
  | '-' :: cs => (natural? cs).map fun n => -(n : Int)
  | '+' :: cs => (natural? cs).map fun n => (n : Int)
  | cs => (natural? cs).map fun n => (n : Int)

/-- Reads the exponent of a decimal number; without one it is zero. -/
def exponent? : List Char → Option Int
  | [] => some 0
  | e :: cs => if e = 'e' ∨ e = 'E' then Text.int? cs else none

/-- Reads a decimal number without sign: digits with at most one point among them, and possibly an
exponent. -/
def unsignedDecimal? (negative : Bool) (cs : List Char) : Option Double :=
  let whole := cs.takeWhile Text.isDigit
  let rest := cs.dropWhile Text.isDigit
  let (fraction, rest) : List Char × List Char := match rest with
    | '.' :: rest => (rest.takeWhile Text.isDigit, rest.dropWhile Text.isDigit)
    | rest => ([], rest)
  match Text.nat? (whole ++ fraction), exponent? rest with
  | some digits, some exponent =>
    some (.ofDecimal negative digits (exponent - fraction.length))
  | _, _ => none

def decimal? (cs : List Char) : Option Double :=
  let d? := match cs with
    | '-' :: cs => unsignedDecimal? true cs
    | '+' :: cs => unsignedDecimal? false cs
    | cs => unsignedDecimal? false cs
  d?.filter Double.isFinite

def double? (text : String) : Option Double :=
  match text with
  | ".inf" | ".Inf" | ".INF" | "+.inf" | "+.Inf" | "+.INF" => some (.infinite false)
  | "-.inf" | "-.Inf" | "-.INF" => some (.infinite true)
  | ".nan" | ".NaN" | ".NAN" => some .nan
  | text => decimal? text.toList

/-! ### Values -/

def isNullName (text : String) : Bool :=
  text = "null" || text = "Null" || text = "NULL" || text = "~"

def bool? : String → Option Bool
  | "true" | "True" | "TRUE" => some true
  | "false" | "False" | "FALSE" => some false
  | _ => none

def leastInteger : Int := -170141183460469231731687303715884105728

def greatestInteger : Int := 340282366920938463463374607431768211455

/-- The value of an integer. Integers beyond 64 bits are no values, unless they are beyond 128 bits
as well and so no integers at all. -/
def integerValue? (n : Int) : Option (Option Definition) :=
  if Text.FitsInt64 n ∨ Text.FitsUInt64 n then some (some (.number (.int n)))
  else if leastInteger ≤ n ∧ n ≤ greatestInteger then some none
  else none

def plainValue? (text : String) : Option Definition :=
  if text.isEmpty || isNullName text then some .null
  else
    match bool? text with
    | some value => some (.bool value)
    | none =>
      match (integer? text.toList).bind integerValue? with
      | some value => value
      | none =>
        let digits := match text.toList with
          | '-' :: cs | '+' :: cs => cs
          | cs => cs
        if hasExtraZero digits then some (.string text)
        else
          match double? text with
          | some d => some (.number (.double d))
          | none => some (.string text)

def coreTag (name : String) : Text.Octets :=
  Text.Utf8.encode ("tag:yaml.org,2002:" ++ name).toList

def ownTag? : Text.Octets → Option String
  | octet :: octets =>
    if octet = 0x21 then (Text.Utf8.decode? octets).map String.ofList else none
  | [] => none

/-- The value of a scalar under a tag that is not of the document's own. -/
def scalarValue? (tag? : Option Text.Octets) (style : Style) (text : String) : Option Definition :=
  let untagged := if style = .plain then plainValue? text else some (.string text)
  match tag? with
  | none => untagged
  | some tag =>
    if tag = coreTag "bool" then (bool? text).map .bool
    else if tag = coreTag "int" then ((integer? text.toList).bind integerValue?).join
    else if tag = coreTag "float" then (double? text).map fun d => .number (.double d)
    else if tag = coreTag "null" then if isNullName text then some .null else none
    else if tag.head? = some 0x21 then untagged
    else some (.string text)

example : integer? "-0x10".toList = some (-16) := by decide +kernel

example : integer? "017".toList = none := by decide +kernel

end PolicyCheck.Yaml
