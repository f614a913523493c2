import PolicyCheck.Number.Double
import PolicyCheck.Text.Numeral

/-!
# Numbers of documents and definitions

Documents and policy definitions tell an integer of 64 bits, signed or unsigned, from a binary64
number. Where the two have to be compared, an integer stands for the binary64 number nearest to it.
-/

namespace PolicyCheck

inductive Number where
  /-- An integer that fits a signed or an unsigned word of 64 bits. -/
  | int (value : Int)
  | double (value : Double)
deriving DecidableEq, Repr, Inhabited

namespace Number

def int64? : Number → Option Int
  | .int n => if Text.FitsInt64 n then some n else none
  | .double _ => none

def toDouble : Number → Double
  | .int n => .ofInt n
  | .double d => d

end Number

end PolicyCheck
