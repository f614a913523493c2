import PolicyCheck.Text.Pieces
import PolicyCheck.Text.Numeral
import PolicyCheck.Toml.Value

/-!
# TOML scalars

Strings are read character by character and return the text that follows. Every other scalar is a
word without blanks, apart from a date and a time with one space between them, and is judged by its
whole text.
-/

namespace PolicyCheck.Toml

/-- Whether a character may stand as it is in a string or in a comment. -/
def isPlainChar (c : Char) : Bool := c = '\t' || (0x20 ≤ c.toNat && c ≠ '\x7F')

/-! ### Strings -/

def escape? : Char → Option Char
  | 'b' => some '\x08'
  | 't' => some '\t'
  | 'n' => some '\n'
  | 'f' => some '\x0c'
  | 'r' => some '\r'
  | '"' => some '"'
  | '\\' => some '\\'
  | _ => none

def codePoint? (digits : List Char) : Option Char :=
  (Text.natOfBase? 16 digits).bind fun n => if n.isValidChar then some (Char.ofNat n) else none

/-- Reads a string on one line after its opening quote; only double quotes allow escapes. -/
def readString (quote : Char) (acc : List Char) : List Char → Option (List Char × List Char)
  | [] => none
  | '\\' :: 'u' :: a :: b :: c :: d :: rest =>
    if quote = '"' then
      match codePoint? [a, b, c, d] with
      | some x => readString quote (x :: acc) rest
      | none => none
    else readString quote ('\\' :: acc) ('u' :: a :: b :: c :: d :: rest)
  | '\\' :: 'U' :: a :: b :: c :: d :: e :: f :: g :: h :: rest =>
    if quote = '"' then
      match codePoint? [a, b, c, d, e, f, g, h] with
      | some x => readString quote (x :: acc) rest
      | none => none
    else readString quote ('\\' :: acc) ('U' :: a :: b :: c :: d :: e :: f :: g :: h :: rest)
  | '\\' :: e :: rest =>
    if quote = '"' then
      match escape? e with
      | some c => readString quote (c :: acc) rest
      | none => none
    else readString quote ('\\' :: acc) (e :: rest)
  | c :: rest =>
    if c = quote then some (acc.reverse, rest)
    else if isPlainChar c ∧ ¬(c = '\\' ∧ quote = '"') then readString quote (c :: acc) rest
    else none

inductive LongState where
  | text
  /-- A backslash and blanks, which must lead to a line break. -/
  | awaitingBreak
  /-- An escaped line break; blanks and further line breaks are dropped. -/
  | dropping
deriving DecidableEq, Repr

/-- Ends a string over several lines at a run of quotes. Up to two quotes before the last three
belong to the text. -/
def closeLong (quote : Char) (acc cs : List Char) : List Char × List Char :=
  let extra := min ((cs.takeWhile (· = quote)).length - 3) 2
  (acc.reverse ++ List.replicate extra quote, cs.drop (extra + 3))

/-- Reads a string over several lines after its opening quotes. A line break is read as a line feed. -/
def readLong (quote : Char) (acc : List Char) : LongState → List Char → Option (List Char × List Char)
  | _, [] => none
  | state, '\r' :: '\n' :: rest =>
    match state with
    | .text => readLong quote ('\n' :: acc) .text rest
    | _ => readLong quote acc .dropping rest
  | state, '\n' :: rest =>
    match state with
    | .text => readLong quote ('\n' :: acc) .text rest
    | _ => readLong quote acc .dropping rest
  | .text, '\\' :: 'u' :: a :: b :: c :: d :: rest =>
    if quote = '"' then
      match codePoint? [a, b, c, d] with
      | some x => readLong quote (x :: acc) .text rest
      | none => none
    else readLong quote ('\\' :: acc) .text ('u' :: a :: b :: c :: d :: rest)
  | .text, '\\' :: 'U' :: a :: b :: c :: d :: e :: f :: g :: h :: rest =>
    if quote = '"' then
      match codePoint? [a, b, c, d, e, f, g, h] with
      | some x => readLong quote (x :: acc) .text rest
      | none => none
    else readLong quote ('\\' :: acc) .text ('U' :: a :: b :: c :: d :: e :: f :: g :: h :: rest)
  | .text, '\\' :: e :: rest =>
    if quote = '"' then
      match escape? e with
      | some c => readLong quote (c :: acc) .text rest
      | none => readLong quote acc .awaitingBreak (e :: rest)
    else readLong quote ('\\' :: acc) .text (e :: rest)
  | .text, c :: rest =>
    if c = quote then
      if (rest.take 2 = [quote, quote]) then some (closeLong quote acc (c :: rest))
      else readLong quote (c :: acc) .text rest
    else if isPlainChar c ∧ ¬(c = '\\' ∧ quote = '"') then readLong quote (c :: acc) .text rest
    else none
  | .awaitingBreak, c :: rest =>
    if c = ' ' ∨ c = '\t' then readLong quote acc .awaitingBreak rest else none
  | .dropping, c :: rest =>
    if c = ' ' ∨ c = '\t' then readLong quote acc .dropping rest
    else readLong quote acc .text (c :: rest)
termination_by state cs => (cs.length, if state = .text then 0 else 1)

/-- Drops the line break at the start of a string over several lines. -/
def dropFirstBreak : List Char → List Char
  | '\r' :: '\n' :: rest => rest
  | '\n' :: rest => rest
  | cs => cs

def readAnyString? : List Char → Option (List Char × List Char)
  | '"' :: '"' :: '"' :: rest => readLong '"' [] .text (dropFirstBreak rest)
  | '\'' :: '\'' :: '\'' :: rest => readLong '\'' [] .text (dropFirstBreak rest)
  | '"' :: rest => readString '"' [] rest
  | '\'' :: rest => readString '\'' [] rest
  | _ => none

/-! ### Numbers -/

/-- The digits of a numeral, in which single underscores may stand between two digits. -/
def digits? (isDigit : Char → Bool) (cs : List Char) : Option (List Char) :=
  let pieces := Text.pieces '_' cs
  if pieces.all fun piece => !piece.isEmpty && piece.all isDigit then some pieces.flatten else none

/-- The digits of a decimal integer without sign: no zero stands in front of another digit. -/
def wholeDigits? (cs : List Char) : Option (List Char) :=
  (digits? Text.isDigit cs).filter fun digits => digits.head? ≠ some '0' || digits.length = 1

def cutSign : List Char → Bool × List Char
  | '+' :: rest => (false, rest)
  | '-' :: rest => (true, rest)
  | cs => (false, cs)

def signed (negative : Bool) (n : Nat) : Int := if negative then -(n : Int) else n

/-- An integer of 64 bits: decimal with a sign, or hexadecimal, octal or binary without one. -/
def integer? (word : List Char) : Option Int := do
  let ofBase? (base : Nat) (cs : List Char) : Option Int := do
    let digits ← digits? (fun c => (Text.digitOfBase? base c).isSome) cs
    return (← Text.natOfBase? base digits)
  let n ← match word with
    | '0' :: 'x' :: cs => ofBase? 16 cs
    | '0' :: 'o' :: cs => ofBase? 8 cs
    | '0' :: 'b' :: cs => ofBase? 2 cs
    | cs => do
      let (negative, cs) := cutSign cs
      let n ← Text.nat? (← wholeDigits? cs)
      pure (signed negative n)
  if Text.FitsInt64 n then some n else none

def exponent? (cs : List Char) : Option Int := do
  let (negative, cs) := cutSign cs
  let n ← Text.nat? (← digits? Text.isDigit cs)
  return signed negative n

/-- A floating-point number with a fraction or an exponent. One beyond all positive numbers is an
error, one beyond all negative ones the negative infinity. -/
def decimal? (word : List Char) : Option Double := do
  let (negative, cs) := cutSign word
  let isMark (c : Char) : Bool := c = 'e' || c = 'E'
  let (digits, exponent) := (cs.takeWhile (!isMark ·), cs.dropWhile (!isMark ·))
  let whole ← wholeDigits? (digits.takeWhile (· ≠ '.'))
  let fraction ← match digits.dropWhile (· ≠ '.') with
    | [] => some []
    | _ :: fraction => digits? Text.isDigit fraction
  if exponent.isEmpty ∧ '.' ∉ digits then none
  else
    let scale ← match exponent with
      | [] => some 0
      | _ :: exponent => exponent? exponent
    let d := Double.ofDecimal negative (← Text.nat? (whole ++ fraction)) (scale - fraction.length)
    if d = .infinite false then none else some d

def special? (word : List Char) : Option Double :=
  let (negative, cs) := cutSign word
  match String.ofList cs with
  | "inf" => some (.infinite negative)
  | "nan" => some .nan
  | _ => none

/-! ### Dates and times -/

/-- Takes a number of so many digits off the front of a text. -/
def take? (count : Nat) (cs : List Char) : Option (Nat × List Char) :=
  (Text.nat? (cs.take count)).bind fun n =>
    if (cs.take count).length = count then some (n, cs.drop count) else none

def daysIn (year month : Nat) : Nat :=
  if month = 2 then if year % 4 = 0 ∧ (year % 100 ≠ 0 ∨ year % 400 = 0) then 29 else 28
  else if month = 4 ∨ month = 6 ∨ month = 9 ∨ month = 11 then 30
  else 31

def afterDate? (cs : List Char) : Option (List Char) := do
  let (year, cs) ← take? 4 cs
  let '-' :: cs := cs | none
  let (month, cs) ← take? 2 cs
  let '-' :: cs := cs | none
  let (day, cs) ← take? 2 cs
  if 1 ≤ month ∧ month ≤ 12 ∧ 1 ≤ day ∧ day ≤ daysIn year month then some cs else none

def afterTime? (cs : List Char) : Option (List Char) := do
  let (hour, cs) ← take? 2 cs
  let ':' :: cs := cs | none
  let (minute, cs) ← take? 2 cs
  let ':' :: cs := cs | none
  let (second, cs) ← take? 2 cs
  if 24 ≤ hour ∨ 60 ≤ minute ∨ 61 ≤ second then none
  else match cs with
    | '.' :: cs =>
      if (cs.takeWhile Text.isDigit).isEmpty then none else some (cs.dropWhile Text.isDigit)
    | cs => some cs

/-- Whether a text is empty or the distance of a time from universal time. -/
def isOffset : List Char → Bool
  | [] | ['Z'] | ['z'] => true
  | c :: cs =>
    (c = '+' || c = '-') && match take? 2 cs with
      | some (hour, ':' :: cs) =>
        match take? 2 cs with
        | some (minute, []) => hour < 24 && minute < 60
        | _ => false
      | _ => false

/-- Whether a text is a time of day with or without its distance from universal time. -/
def isTime (cs : List Char) : Bool := (afterTime? cs).any isOffset

/-- Whether a word is a date, a time of day, or a date with a time. -/
def isMoment (word : List Char) : Bool :=
  match afterDate? word with
  | some [] => true
  | some (delimiter :: cs) =>
    (delimiter = 'T' || delimiter = 't' || delimiter = ' ') && isTime cs
  | none => (afterTime? word).any List.isEmpty

/-! ### Words -/

def endsWord (c : Char) : Bool :=
  c = ' ' || c = '\t' || c = '\n' || c = '\r' || c = ',' || c = ']' || c = '}' || c = '#'

/-- Takes a word off the front of a text. A time after a date and one space belongs to it. -/
def cutWord (cs : List Char) : List Char × List Char :=
  let word := cs.takeWhile (!endsWord ·)
  match cs.dropWhile (!endsWord ·) with
  | ' ' :: rest =>
    let time := rest.takeWhile (!endsWord ·)
    if afterDate? word = some [] ∧ isTime time then
      (word ++ ' ' :: time, rest.dropWhile (!endsWord ·))
    else (word, ' ' :: rest)
  | rest => (word, rest)

def ofWord? (word : List Char) : Option Value :=
  if word = "true".toList then some (.boolean true)
  else if word = "false".toList then some (.boolean false)
  else if isMoment word then some (.moment (String.ofList word))
  else ((integer? word).map .integer).or (((decimal? word).or (special? word)).map .float)

end PolicyCheck.Toml
