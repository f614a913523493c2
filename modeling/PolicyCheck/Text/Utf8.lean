/-!
# UTF-8

Octets are decoded one at a time. Each maximal ill-formed sequence of octets is reported once, so
that `decodeLossy` puts one replacement character for it and `decode?` refuses the text.
-/

namespace PolicyCheck.Text

abbrev Octets := List UInt8

namespace Utf8

/-- A character under way: the octets still owed after the next one, the range of the next octet
and the bits read so far. -/
structure Pending where
  /-- Octets owed after the next one. -/
  owed : Nat
  /-- The least next octet. -/
  low : Nat
  high : Nat
  bits : Nat
deriving DecidableEq, Repr

inductive Lead where
  | char (c : Char)
  | pending (p : Pending)
  | invalid
deriving DecidableEq, Repr

def lead (octet : Nat) : Lead :=
  if octet ≤ 0x7F then .char (Char.ofNat octet)
  else if octet < 0xC2 then .invalid
  else if octet ≤ 0xDF then .pending ⟨0, 0x80, 0xBF, octet - 0xC0⟩
  else if octet = 0xE0 then .pending ⟨1, 0xA0, 0xBF, 0⟩
  else if octet = 0xED then .pending ⟨1, 0x80, 0x9F, 0xD⟩
  else if octet ≤ 0xEF then .pending ⟨1, 0x80, 0xBF, octet - 0xE0⟩
  else if octet = 0xF0 then .pending ⟨2, 0x90, 0xBF, 0⟩
  else if octet ≤ 0xF3 then .pending ⟨2, 0x80, 0xBF, octet - 0xF0⟩
  else if octet = 0xF4 then .pending ⟨2, 0x80, 0x8F, 4⟩
  else .invalid

/-- The characters completed by one octet, `none` for an ill-formed sequence, and what is then
under way. An octet that cannot continue a character is read again as a first octet. -/
def step (under : Option Pending) (octet : Nat) : List (Option Char) × Option Pending :=
  let fresh : List (Option Char) × Option Pending :=
    match lead octet with
    | .char c => ([some c], none)
    | .pending p => ([], some p)
    | .invalid => ([none], none)
  match under with
  | none => fresh
  | some p =>
    if p.low ≤ octet ∧ octet ≤ p.high then
      let bits := p.bits * 64 + (octet - 0x80)
      match p.owed with
      | 0 => ([some (Char.ofNat bits)], none)
      | owed + 1 => ([], some ⟨owed, 0x80, 0xBF, bits⟩)
    else (none :: fresh.1, fresh.2)

/-- Decodes octets from a given state; a character cut off by the end is ill-formed. -/
def run (under : Option Pending) : Octets → List (Option Char)
  | [] => if under.isSome then [none] else []
  | octet :: octets =>
    let (done, next) := step under octet.toNat
    done ++ run next octets

def chars (octets : Octets) : List (Option Char) := run none octets

def decode? (octets : Octets) : Option (List Char) := (chars octets).mapM id

def decodeLossy (octets : Octets) : List Char := (chars octets).map fun c => c.getD '\uFFFD'

def encode (cs : List Char) : Octets := cs.flatMap String.utf8EncodeChar

example : decodeLossy [0x61, 0xFF, 0xE2, 0x82, 0x62] = ['a', '\uFFFD', '\uFFFD', 'b'] := by decide

example : decode? (encode ['é', '😀']) = some ['é', '😀'] := by decide +kernel

end Utf8

end PolicyCheck.Text
