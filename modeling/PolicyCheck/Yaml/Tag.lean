import PolicyCheck.Yaml.Scalar
import PolicyCheck.Yaml.Token

/-!
# Tags, anchors and directives

A tag is given by a handle and a suffix, whose characters may be written as octets in hexadecimal.
The handle `!` stands for tags of the document's own; directives give further handles a meaning.
-/

namespace PolicyCheck.Yaml

open Text (Octets)

/-! ### Names -/

def nameHere (cells : List Cell) : List Char :=
  Cell.text (cells.takeWhile fun c => isNameChar c.char)

def afterName (cells : List Cell) : List Cell := cells.dropWhile fun c => isNameChar c.char

def endsAnchor (c : Char) : Bool :=
  c = '?' || c = ':' || c = ',' || c = ']' || c = '}' || c = '%' || c = '@' || c = '`'

/-- Reads the name of an anchor or of a reference after its indicator. -/
def readAnchor (cells : List Cell) : Option (List Char × List Cell) :=
  let name := nameHere cells
  let rest := afterName cells
  if name.isEmpty then none
  else if Cell.wordEnds rest || (Cell.char? rest).any endsAnchor then some (name, rest)
  else none

/-! ### Tags -/

def isTagChar (c : Char) : Bool :=
  isNameChar c || c = ';' || c = '/' || c = '?' || c = ':' || c = '@' || c = '&' || c = '=' ||
    c = '+' || c = '$' || c = '.' || c = '!' || c = '~' || c = '*' || c = '\'' || c = '(' || c = ')'

/-- Whether a character may stand in a tag that has a mark at its end. -/
def isVerbatimChar (c : Char) : Bool := isTagChar c || c = ',' || c = '[' || c = ']'

/-- The number of octets of a character whose first octet is given. -/
def octetCount? (lead : Nat) : Option Nat :=
  if lead < 0x80 then some 1
  else if lead < 0xC0 then none
  else if lead < 0xE0 then some 2
  else if lead < 0xF0 then some 3
  else if lead < 0xF8 then some 4
  else none

/-- Reads the characters of a tag. Octets in hexadecimal come in groups of one character each;
`owed` octets of the present group are still to come. -/
def readTagText (allowed : Char → Bool) (reversed : Octets) (owed : Nat) :
    List Cell → Option (Octets × List Cell)
  | [] => if owed = 0 then some (reversed.reverse, []) else none
  | c :: rest =>
    if c.char = '%' then
      match rest with
      | a :: b :: rest =>
        match hexadecimal? [a, b] with
        | none => none
        | some octet =>
          let owed? : Option Nat :=
            if owed = 0 then (octetCount? octet).map (· - 1)
            else if 0x80 ≤ octet ∧ octet < 0xC0 then some (owed - 1)
            else none
          match owed? with
          | none => none
          | some owed => readTagText allowed (UInt8.ofNat octet :: reversed) owed rest
      | _ => none
    else if owed ≠ 0 then none
    else if allowed c.char then
      readTagText allowed ((Text.Utf8.encode [c.char]).reverse ++ reversed) 0 rest
    else some (reversed.reverse, c :: rest)

/-- Reads a handle after its exclamation mark: a name between two marks, or else the first mark and
a name that is not closed. -/
def readHandle (cells : List Cell) : List Char × List Cell :=
  let name := nameHere cells
  let rest := afterName cells
  if Cell.char? rest = some '!' then ('!' :: name ++ ['!'], rest.tail) else ('!' :: name, rest)

def readTag (flow : Bool) (cells : List Cell) : Option (Token × List Cell) := do
  let (token, rest) ←
    if Cell.char? cells = some '<' then do
      let (text, rest) ← readTagText isVerbatimChar [] 0 cells.tail
      if text.isEmpty ∨ Cell.char? rest ≠ some '>' then none
      else some (Token.tag [] text, rest.tail)
    else do
      let (handle, rest) := readHandle cells
      if 1 < handle.length ∧ handle.getLast? = some '!' then do
        let (suffix, rest) ← readTagText isTagChar [] 0 rest
        if suffix.isEmpty then none else some (Token.tag handle suffix, rest)
      else do
        let (text, rest) ← readTagText isTagChar [] 0 rest
        let suffix := Text.Utf8.encode handle.tail ++ text
        -- The exclamation mark alone is a tag of its own.
        if suffix.isEmpty then some (Token.tag [] (Text.Utf8.encode ['!']), rest)
        else some (Token.tag ['!'] suffix, rest)
  if Cell.wordEnds rest || (flow && Cell.char? rest = some ',') then some (token, rest) else none

/-! ### Directives -/

/-- Reads a part of a version number, of nine digits at most. -/
def readVersionPart (cells : List Cell) : Option (Nat × List Cell) :=
  let digits := cells.takeWhile fun c => Text.isDigit c.char
  if 9 < digits.length then none
  else (Text.nat? (Cell.text digits)).map fun n =>
    (n, cells.dropWhile fun c => Text.isDigit c.char)

def readVersion (cells : List Cell) : Option (Token × List Cell) := do
  let (major, rest) ← readVersionPart cells
  if Cell.char? rest ≠ some '.' then none
  else
    let (minor, rest) ← readVersionPart rest.tail
    some (.version major minor, rest)

def readHandleDirective (cells : List Cell) : Option (Token × List Cell) := do
  if Cell.char? cells ≠ some '!' then none
  else
    let (handle, rest) := readHandle cells.tail
    if (1 < handle.length ∧ handle.getLast? ≠ some '!') ∨ ¬ (Cell.char? rest).any isSpace then none
    else
      let (expansion, rest) ← readTagText isVerbatimChar [] 0 (rest.dropWhile Cell.isSpace)
      if expansion.isEmpty ∨ ¬ Cell.wordEnds rest then none
      else some (.handle handle expansion, rest)

/-- Reads a directive after its percent sign, to the end of its line. -/
def readDirective (cells : List Cell) : Option (Token × List Cell) := do
  let name := nameHere cells
  let rest := afterName cells
  if ¬ Cell.wordEnds rest then none
  else
    let value := rest.dropWhile Cell.isSpace
    let (token, rest) ←
      if name = "YAML".toList then readVersion value
      else if name = "TAG".toList then readHandleDirective value
      else none
    (skipLineEnd? rest).map fun rest => (token, rest)

end PolicyCheck.Yaml
