import PolicyCheck.Text.Numeral

/-!
# Characters with their places

YAML gives meaning to columns. A text is therefore taken as a list of cells, each a character with
its line, its column and its distance from the start. A line break is one cell, whichever way it is
written: all but the separators U+2028 and U+2029 become a line feed.
-/

namespace PolicyCheck.Yaml

structure Cell where
  char : Char
  line : Nat
  column : Nat
  offset : Nat
deriving DecidableEq, Repr

def isBreak (c : Char) : Bool := c = '\n' || c = '\r' || c = '\x85' || c = '\u2028' || c = '\u2029'

def isSpace (c : Char) : Bool := c = ' ' || c = '\t'

/-- Whether a character may stand in a name: an ASCII letter or digit, `_` or `-`. -/
def isNameChar (c : Char) : Bool := c.isAlphanum || c = '_' || c = '-'

def isAllowed (c : Char) : Bool :=
  c = '\t' || c = '\n' || c = '\r' || c = '\x85' ||
    (0x20 ≤ c.toNat && c.toNat ≤ 0x7E) || (0xA0 ≤ c.toNat && c.toNat ≤ 0xFFFD) || 0x10000 ≤ c.toNat

namespace Cell

def isBreak (c : Cell) : Bool := Yaml.isBreak c.char

def isSpace (c : Cell) : Bool := Yaml.isSpace c.char

def isBlank (c : Cell) : Bool := c.isSpace || c.isBreak

def place (line column offset : Nat) : List Char → List Cell
  | [] => []
  | '\r' :: '\n' :: cs => ⟨'\n', line, column, offset⟩ :: place (line + 1) 0 (offset + 2) cs
  | c :: cs =>
    if Yaml.isBreak c then
      let c := if c = '\r' ∨ c = '\x85' then '\n' else c
      ⟨c, line, column, offset⟩ :: place (line + 1) 0 (offset + 1) cs
    else ⟨c, line, column, offset⟩ :: place line (column + 1) (offset + 1) cs

/-- The cells of a text, with every character allowed and without a byte order mark in front. -/
def ofText? (text : String) : Option (List Cell) :=
  let cs := match text.toList with
    | '\uFEFF' :: cs => cs
    | cs => cs
  if cs.all isAllowed then some (place 0 0 0 cs) else none

/-- Whether a word ends here: at a blank or at the end of the text. -/
def wordEnds : List Cell → Bool
  | [] => true
  | c :: _ => c.isBlank

/-- Whether a document marker stands here: `---` or `...` as a word at the start of a line. -/
def marksDocument : List Cell → Bool
  | a :: b :: c :: rest =>
    a.column = 0 && a.char = b.char && b.char = c.char && (a.char = '-' || a.char = '.') &&
      wordEnds rest
  | _ => false

def char? (cells : List Cell) : Option Char := cells.head?.map Cell.char

def text (cells : List Cell) : List Char := cells.map Cell.char

end Cell

end PolicyCheck.Yaml
