/-!
# Binary64 numbers

A finite number is held exactly, as a natural number of units of `2^(scale - 1074)`; the least
positive number is one unit at scale 0. Every number that this module makes is canonical: its
mantissa is below `2^53`, and at least `2^52` unless the scale is 0. Reading a decimal or an integer
computes the exact value and rounds it once, to the nearest number and to an even mantissa on a tie.
-/

namespace PolicyCheck

inductive Double where
  | nan
  | infinite (negative : Bool)
  /-- The number `± mantissa * 2^(scale - 1074)`. -/
  | finite (negative : Bool) (mantissa scale : Nat)
deriving DecidableEq, Repr, Inhabited

namespace Double

def zero (negative : Bool) : Double := .finite negative 0 0

/-- The least mantissa of full precision, `2^52`. -/
def fullMantissa : Nat := 4503599627370496

/-- The quotient rounded to the nearest natural number, a tie to the even one. -/
def roundQuotient (num den : Nat) : Nat :=
  let quotient := num / den
  let twice := 2 * (num % den)
  if twice < den then quotient
  else if den < twice then quotient + 1
  else quotient + quotient % 2

/-- The binary exponent `e` of a positive quotient: `2^e ≤ num / den < 2^(e + 1)`. -/
def binaryExponent (num den : Nat) : Int :=
  let e : Int := (num.log2 : Int) - den.log2
  if num <<< (-e).toNat < den <<< e.toNat then e - 1 else e

/-- The number nearest to `± num / den`, for a positive `den`. -/
def ofQuotient (negative : Bool) (num den : Nat) : Double :=
  if num = 0 then zero negative
  else
    let scale := (binaryExponent num den + 1022).toNat
    let shift : Int := (scale : Int) - 1074
    let mantissa := roundQuotient (num <<< (-shift).toNat) (den <<< shift.toNat)
    -- Rounding up may reach the next power of two.
    let (mantissa, scale) :=
      if mantissa = 2 * fullMantissa then (fullMantissa, scale + 1) else (mantissa, scale)
    if 2045 < scale then .infinite negative else .finite negative mantissa scale

def ofInt (n : Int) : Double := ofQuotient (n < 0) n.natAbs 1

def powerOfTen (exponent : Nat) : Nat := Nat.pow 10 exponent

/-- The number nearest to `± digits * 10^exponent`. Values far outside the range are settled by
their size alone, so that no huge power is formed. -/
def ofDecimal (negative : Bool) (digits : Nat) (exponent : Int) : Double :=
  if digits = 0 then zero negative
  else if 400 < exponent then .infinite negative
  else if exponent + (digits.log2 / 3 + 1 : Nat) < -400 then zero negative
  else ofQuotient negative (digits * powerOfTen exponent.toNat) (powerOfTen (-exponent).toNat)

def isFinite : Double → Bool
  | .finite .. => true
  | _ => false

/-- The signed number of units of `2^(-1074)` in a finite number. -/
def units (negative : Bool) (mantissa scale : Nat) : Int :=
  if negative then -(mantissa <<< scale : Nat) else (mantissa <<< scale : Nat)

/-- Equality of numbers: the two zeros are equal, and `nan` equals nothing. -/
def same : Double → Double → Bool
  | .finite n m s, .finite n' m' s' => units n m s == units n' m' s'
  | .infinite n, .infinite n' => n == n'
  | _, _ => false

theorem same_comm (x y : Double) : same x y = same y x := by
  cases x <;> cases y <;> simp [same, BEq.comm]

theorem same_self {x : Double} (h : x ≠ .nan) : same x x = true := by
  cases x <;> simp_all [same]

def isZero (x : Double) : Bool := same x (zero false)

example : ofDecimal false 1 (-1) = .finite false 7205759403792794 1018 := by decide +kernel

example : ofInt 9007199254740993 = ofInt 9007199254740992 := by decide +kernel

example : ofDecimal false 17976931348623159 292 = .infinite false := by decide +kernel

end Double

end PolicyCheck
