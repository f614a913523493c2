import PolicyCheck.Text.Utf8
import PolicyCheck.Text.Numeral

/-!
# SHA-256

The digest under which a Datalog policy is known. A message is padded to whole blocks of sixteen
words; each block is expanded to one word a round, and the rounds fold it into the state.
-/

namespace PolicyCheck.Digest

structure State where
  a : UInt32
  b : UInt32
  c : UInt32
  d : UInt32
  e : UInt32
  f : UInt32
  g : UInt32
  h : UInt32
deriving DecidableEq, Repr

namespace State

/-- The state before the first block: the first fractional bits of the square roots of the first
eight primes. -/
def initial : State where
  a := 0x6a09e667
  b := 0xbb67ae85
  c := 0x3c6ef372
  d := 0xa54ff53a
  e := 0x510e527f
  f := 0x9b05688c
  g := 0x1f83d9ab
  h := 0x5be0cd19

def words (s : State) : List UInt32 := [s.a, s.b, s.c, s.d, s.e, s.f, s.g, s.h]

def add (s t : State) : State where
  a := s.a + t.a
  b := s.b + t.b
  c := s.c + t.c
  d := s.d + t.d
  e := s.e + t.e
  f := s.f + t.f
  g := s.g + t.g
  h := s.h + t.h

end State

/-- The constants of the rounds: the first fractional bits of the cube roots of the first
sixty-four primes. -/
def constants : List UInt32 :=
  [0x428a2f98, 0x71374491, 0xb5c0fbcf, 0xe9b5dba5, 0x3956c25b, 0x59f111f1, 0x923f82a4, 0xab1c5ed5,
   0xd807aa98, 0x12835b01, 0x243185be, 0x550c7dc3, 0x72be5d74, 0x80deb1fe, 0x9bdc06a7, 0xc19bf174,
   0xe49b69c1, 0xefbe4786, 0x0fc19dc6, 0x240ca1cc, 0x2de92c6f, 0x4a7484aa, 0x5cb0a9dc, 0x76f988da,
   0x983e5152, 0xa831c66d, 0xb00327c8, 0xbf597fc7, 0xc6e00bf3, 0xd5a79147, 0x06ca6351, 0x14292967,
   0x27b70a85, 0x2e1b2138, 0x4d2c6dfc, 0x53380d13, 0x650a7354, 0x766a0abb, 0x81c2c92e, 0x92722c85,
   0xa2bfe8a1, 0xa81a664b, 0xc24b8b70, 0xc76c51a3, 0xd192e819, 0xd6990624, 0xf40e3585, 0x106aa070,
   0x19a4c116, 0x1e376c08, 0x2748774c, 0x34b0bcb5, 0x391c0cb3, 0x4ed8aa4a, 0x5b9cca4f, 0x682e6ff3,
   0x748f82ee, 0x78a5636f, 0x84c87814, 0x8cc70208, 0x90befffa, 0xa4506ceb, 0xbef9a3f7, 0xc67178f2]

/-- Rotation to the right by fewer than 32 bits. -/
def rotate (word : UInt32) (bits : UInt32) : UInt32 := (word >>> bits) ||| (word <<< (32 - bits))

def turn (s : State) (constant word : UInt32) : State :=
  let mixE := rotate s.e 6 ^^^ rotate s.e 11 ^^^ rotate s.e 25
  let choice := (s.e &&& s.f) ^^^ (~~~s.e &&& s.g)
  let first := s.h + mixE + choice + constant + word
  let mixA := rotate s.a 2 ^^^ rotate s.a 13 ^^^ rotate s.a 22
  let majority := (s.a &&& s.b) ^^^ (s.a &&& s.c) ^^^ (s.b &&& s.c)
  { a := first + (mixA + majority), b := s.a, c := s.b, d := s.c
    e := s.d + first, f := s.e, g := s.f, h := s.g }

def nextWord (window : List UInt32) : UInt32 :=
  let early := window.getD 1 0
  let late := window.getD 14 0
  window.getD 0 0 + (rotate early 7 ^^^ rotate early 18 ^^^ (early >>> 3)) + window.getD 9 0 +
    (rotate late 17 ^^^ rotate late 19 ^^^ (late >>> 10))

/-- The rounds with the remaining constants; the window starts with the word of the next turn. -/
def turns (s : State) (window : List UInt32) : List UInt32 → State
  | [] => s
  | constant :: rest =>
    turns (turn s constant (window.getD 0 0)) (window.tail ++ [nextWord window]) rest

def absorb (s : State) (block : List UInt32) : State := s.add (turns s block constants)

def bigEndian : Nat → Nat → Text.Octets
  | 0, _ => []
  | count + 1, n => bigEndian count (n / 256) ++ [UInt8.ofNat (n % 256)]

/-- The message followed by a one bit, zero bits and its length in bits, up to a whole number of
blocks. -/
def pad (message : Text.Octets) : Text.Octets :=
  message ++ 0x80 :: List.replicate ((119 - message.length % 64) % 64) 0 ++
    bigEndian 8 (8 * message.length)

def toWords : Text.Octets → List UInt32
  | a :: b :: c :: d :: rest =>
    UInt32.ofNat (((a.toNat * 256 + b.toNat) * 256 + c.toNat) * 256 + d.toNat) :: toWords rest
  | _ => []

/-- Folds the blocks of a padded message into the state; `count` is the number of blocks. -/
def absorbAll (s : State) : Nat → List UInt32 → State
  | 0, _ => s
  | count + 1, words => absorbAll (absorb s (words.take 16)) count (words.drop 16)

def sha256 (message : Text.Octets) : String :=
  let words := toWords (pad message)
  let octets := (absorbAll .initial (words.length / 16) words).words.flatMap fun word =>
    bigEndian 4 word.toNat
  String.ofList (octets.flatMap fun octet =>
    [Text.hexDigit (octet.toNat / 16), Text.hexDigit (octet.toNat % 16)])

end PolicyCheck.Digest
