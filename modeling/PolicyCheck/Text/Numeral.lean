/-!
# Decimal numerals

Reading of signed decimal numerals with a range, as repository ids and document ids are written.
-/

namespace PolicyCheck.Text

def digit? (c : Char) : Option Nat :=
  if '0' ≤ c ∧ c ≤ '9' then some (c.toNat - '0'.toNat) else none

def isDigit (c : Char) : Bool := (digit? c).isSome

/-- The value of a digit of a base up to sixteen, letters of either case. -/
def digitOfBase? (base : Nat) (c : Char) : Option Nat :=
  let value? : Option Nat :=
    if '0' ≤ c ∧ c ≤ '9' then some (c.toNat - '0'.toNat)
    else if 'a' ≤ c ∧ c ≤ 'f' then some (c.toNat - 'a'.toNat + 10)
    else if 'A' ≤ c ∧ c ≤ 'F' then some (c.toNat - 'A'.toNat + 10)
    else none
  value?.filter (· < base)

def hexDigit (d : Nat) : Char := if d < 10 then Char.ofNat (48 + d) else Char.ofNat (87 + d)

/-- Continues a numeral of the given base from the value read so far. -/
def natFrom? (base : Nat) (value : Nat) : List Char → Option Nat
  | [] => some value
  | c :: cs => (digitOfBase? base c).bind fun d => natFrom? base (value * base + d) cs

/-- Reads one or more digits of the given base and nothing else. -/
def natOfBase? (base : Nat) (cs : List Char) : Option Nat :=
  if cs.isEmpty then none else natFrom? base 0 cs

def nat? (cs : List Char) : Option Nat := natOfBase? 10 cs

def int? : List Char → Option Int
  | '-' :: cs => (nat? cs).map fun n => -(n : Int)
  | '+' :: cs => (nat? cs).map fun n => (n : Int)
  | cs => (nat? cs).map fun n => (n : Int)

def FitsInt64 (n : Int) : Prop := -9223372036854775808 ≤ n ∧ n ≤ 9223372036854775807

instance (n : Int) : Decidable (FitsInt64 n) := inferInstanceAs (Decidable (_ ∧ _))

def FitsUInt64 (n : Int) : Prop := 0 ≤ n ∧ n ≤ 18446744073709551615

instance (n : Int) : Decidable (FitsUInt64 n) := inferInstanceAs (Decidable (_ ∧ _))

def int64? (cs : List Char) : Option Int :=
  (int? cs).filter fun n => decide (FitsInt64 n)

example : int64? "-9223372036854775808".toList = some (-9223372036854775808) := by decide +kernel

example : int64? "9223372036854775808".toList = none := by decide +kernel

end PolicyCheck.Text
