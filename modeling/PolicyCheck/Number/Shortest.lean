import PolicyCheck.Number.Double

/-!
# Decimal text of binary64 numbers

`Double.shortest` selects the fewest decimal digits that read back to a number, by trying the two
neighbours of the number on ever finer decimal grids in exact arithmetic. Three notations lay the
digits out: `plain` never uses an exponent and writes no fraction for an integral value; `json` and
`yaml` always mark the number as fractional and turn to an exponent for large and small numbers.
-/

namespace PolicyCheck

/-- The decimal number `digits * 10^exponent`. -/
structure Decimal where
  digits : Nat
  exponent : Int
deriving DecidableEq, Repr

namespace Decimal

/-- Drops trailing zeros of the digits, at most `limit` of them. -/
def strip : Nat → Decimal → Decimal
  | 0, d => d
  | limit + 1, d =>
    if d.digits ≠ 0 ∧ d.digits % 10 = 0 then strip limit ⟨d.digits / 10, d.exponent + 1⟩ else d

end Decimal

namespace Double

/-- How a tie between two shortest candidates is broken. -/
inductive Tie where
  | toEven
  | awayFromZero
deriving DecidableEq, Repr

/-- The value as a quotient in units of `10^exponent`. -/
def quotientAt (mantissa scale : Nat) (exponent : Int) : Nat × Nat :=
  let shift : Int := (scale : Int) - 1074
  (mantissa <<< shift.toNat * powerOfTen (-exponent).toNat,
    powerOfTen exponent.toNat <<< (-shift).toNat)

/-- Whether the decimal `digits` on the grid where the value is `num / den` reads back to the value:
it lies between the midpoints to the neighbouring numbers, the midpoints included when the mantissa
is even. -/
def readsBack (mantissa scale num den digits : Nat) : Bool :=
  -- Below a power of two the numbers lie twice as close.
  let low := if mantissa = fullMantissa ∧ 0 < scale then 4 * mantissa - 1 else 4 * mantissa - 2
  let high := 4 * mantissa + 2
  let point := 4 * mantissa * digits * den
  if mantissa % 2 = 0 then low * num ≤ point && point ≤ high * num
  else low * num < point && point < high * num

/-- The neighbour of the value on a grid that reads back, the nearer one if both do. -/
def candidate (tie : Tie) (mantissa scale : Nat) (exponent : Int) : Option Decimal :=
  let (num, den) := quotientAt mantissa scale exponent
  let lower := num / den
  let reads := readsBack mantissa scale num den
  match reads lower, reads (lower + 1) with
  | false, false => none
  | true, false => some ⟨lower, exponent⟩
  | false, true => some ⟨lower + 1, exponent⟩
  | true, true =>
    let twice := 2 * (num % den)
    let up := den < twice ∨ twice = den ∧ (tie = .awayFromZero ∨ lower % 2 = 1)
    some ⟨if up then lower + 1 else lower, exponent⟩

/-- The least `k` with value below `10^k`. -/
def decimalScale (mantissa scale : Nat) : Int :=
  let estimate : Int := (((mantissa.log2 : Int) + scale - 1074) * 30103).fdiv 100000
  let below (k : Int) : Bool :=
    let (num, den) := quotientAt mantissa scale k
    num < den
  ((List.range 4).map fun (i : Nat) => estimate - 1 + (i : Int)).find? below |>.getD (estimate + 3)

/-- The fewest digits that read back to the positive number `mantissa * 2^(scale - 1074)`. -/
def shortest (tie : Tie) (mantissa scale : Nat) : Decimal :=
  let k := decimalScale mantissa scale
  let found := ((List.range 17).map fun (i : Nat) => k - 1 - (i : Int)).findSome?
    (candidate tie mantissa scale)
  -- Seventeen digits always read back, so the exact value is never needed.
  (found.getD ⟨mantissa <<< scale * Nat.pow 5 1074, -1074⟩).strip 400

/-- Digits without exponent or, for an integral value, fraction. -/
def positional (d : Decimal) : String :=
  let digits := (toString d.digits).toList
  if 0 ≤ d.exponent then String.ofList (digits ++ List.replicate d.exponent.toNat '0')
  else
    let places := d.exponent.natAbs
    if places < digits.length then
      let whole := digits.length - places
      String.ofList (digits.take whole ++ '.' :: digits.drop whole)
    else
      String.ofList ('0' :: '.' :: List.replicate (places - digits.length) '0' ++ digits)

def signText (negative : Bool) : String := if negative then "-" else ""

def plain : Double → String
  | .nan => "NaN"
  | .infinite negative => signText negative ++ "inf"
  | .finite negative mantissa scale =>
    signText negative ++
      if mantissa = 0 then "0" else positional (shortest .awayFromZero mantissa scale)

/-- Digits with a power of ten, in the notation of a given exponent text. -/
def scientific (exponentText : Int → String) (d : Decimal) (leading : Int) : String :=
  let digits := (toString d.digits).toList
  let fraction := digits.drop 1
  String.ofList (digits.take 1 ++ if fraction.isEmpty then [] else '.' :: fraction) ++
    exponentText leading

/-- Text that marks a finite number as fractional: positional for a leading digit between `10^-5`
and `10^15`, with a point in any case, and scientific otherwise. -/
def fractional (exponentText : Int → String) (negative : Bool) (mantissa scale : Nat) : String :=
  signText negative ++
    if mantissa = 0 then "0.0"
    else
      let d := shortest .toEven mantissa scale
      let leading : Int := (toString d.digits).length + d.exponent - 1
      if -5 ≤ leading ∧ leading < 16 then positional d ++ if 0 ≤ d.exponent then ".0" else ""
      else scientific exponentText d leading

/-- An exponent with its sign and two digits or more, as in `e+17`. -/
def signedExponent (exponent : Int) : String :=
  let size := toString exponent.natAbs
  (if exponent < 0 then "e-" else "e+") ++ if size.length < 2 then "0" ++ size else size

/-- Text of a number in a JSON document; what is not finite is `null`. -/
def json : Double → String
  | .finite negative mantissa scale => fractional signedExponent negative mantissa scale
  | _ => "null"

def yaml : Double → String
  | .nan => ".nan"
  | .infinite negative => signText negative ++ ".inf"
  | .finite negative mantissa scale =>
    fractional (fun exponent => "e" ++ toString exponent) negative mantissa scale

end Double

end PolicyCheck
