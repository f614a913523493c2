import PolicyCheck.Yaml.Cell

/-!
# Scalars

Reading of plain, quoted and block scalars. White space between two words of a plain or quoted scalar
is a `Gap`: blanks on one line stay as they are, a single line break becomes a space, and of several
line breaks the first is dropped. All readers return the cells that follow the scalar.
-/

namespace PolicyCheck.Yaml

/-! ### White space inside a scalar -/

inductive Gap where
  /-- Blanks on one line, last first. -/
  | blanks (reversed : List Char)
  /-- Line breaks: the first, if it counts, and the others, last first. -/
  | breaks (first : Option Char) (reversed : List Char)
deriving DecidableEq, Repr

namespace Gap

def none : Gap := .blanks []

def addBreak : Gap → Char → Gap
  | .blanks _, c => .breaks (some c) []
  | .breaks first others, c => .breaks first (c :: others)

/-- The gap with one more blank; blanks at the start of a line do not count. -/
def addSpace : Gap → Char → Gap
  | .blanks reversed, c => .blanks (c :: reversed)
  | gap, _ => gap

def isBroken : Gap → Bool
  | .blanks _ => false
  | .breaks .. => true

def isEmpty : Gap → Bool
  | .blanks reversed => reversed.isEmpty
  | .breaks .. => false

def text : Gap → List Char
  | .blanks reversed => reversed.reverse
  | .breaks (some '\n') [] => [' ']
  | .breaks (some '\n') others => others.reverse
  | .breaks first others => first.toList ++ others.reverse

/-- The characters of a scalar, last first, with the gap after them. -/
def onto (gap : Gap) (reversed : List Char) : List Char := gap.text.reverse ++ reversed

end Gap

/-! ### Plain scalars -/

def isFlowIndicator (c : Char) : Bool := c = ',' || c = '[' || c = ']' || c = '{' || c = '}'

structure PlainScalar where
  text : List Char
  /-- Whether the white space after the text goes over a line break. -/
  endsLine : Bool
  rest : List Cell

/-- Whether a plain scalar ends before a cell that is no blank. -/
def plainEnds (flow : Bool) (c : Cell) (rest : List Cell) : Bool :=
  (c.char = ':' && Cell.wordEnds rest) || (flow && isFlowIndicator c.char)

/-- Reads a plain scalar from within. The lines after the first have to reach the column `indent`
unless the scalar stands between brackets; `fresh` says that no character of the present word has
been read. -/
def readPlain (flow : Bool) (indent : Nat) (reversed : List Char) (gap : Gap) (fresh : Bool) :
    List Cell → Option PlainScalar
  | [] => some ⟨reversed.reverse, gap.isBroken, []⟩
  | c :: rest =>
    let stop : Option PlainScalar := some ⟨reversed.reverse, gap.isBroken, c :: rest⟩
    if c.isSpace then
      if gap.isBroken && c.char = '\t' && c.column < indent then none
      else readPlain flow indent reversed (gap.addSpace c.char) true rest
    else if c.isBreak then readPlain flow indent reversed (gap.addBreak c.char) true rest
    else if fresh && !flow && !gap.isEmpty && c.column < indent then stop
    else if fresh && (c.char = '#' || Cell.marksDocument (c :: rest)) then stop
    else if flow && c.char = ':' &&
        (Cell.char? rest).any fun d => d = '?' || isFlowIndicator d then none
    else if plainEnds flow c rest then stop
    else readPlain flow indent (c.char :: gap.onto reversed) .none false rest

/-! ### Quoted scalars -/

def hexadecimal? (cells : List Cell) : Option Nat := Text.natOfBase? 16 (Cell.text cells)

def charOfCode? (code : Nat) : Option Char :=
  if code.isValidChar then some (Char.ofNat code) else none

def escape? : Char → Option Char
  | '0' => some '\x00'
  | 'a' => some '\x07'
  | 'b' => some '\x08'
  | 't' | '\t' => some '\t'
  | 'n' => some '\n'
  | 'v' => some '\x0b'
  | 'f' => some '\x0c'
  | 'r' => some '\r'
  | 'e' => some '\x1b'
  | ' ' => some ' '
  | '"' => some '"'
  | '/' => some '/'
  | '\\' => some '\\'
  | 'N' => some '\x85'
  | '_' => some '\xa0'
  | 'L' => some '\u2028'
  | 'P' => some '\u2029'
  | _ => none

def escapeWidth? : Char → Option Nat
  | 'x' => some 2
  | 'u' => some 4
  | 'U' => some 8
  | _ => none

/-- Reads a quoted scalar from within, up to the closing quote. The first `owed` cells have been read
as part of an escape. -/
def readQuoted (single : Bool) (reversed : List Char) (gap : Gap) (owed : Nat) :
    List Cell → Option (List Char × List Cell)
  | [] => none
  | c :: rest =>
    if 0 < owed then readQuoted single reversed gap (owed - 1) rest
    else if c.isSpace then readQuoted single reversed (gap.addSpace c.char) 0 rest
    else if c.isBreak then readQuoted single reversed (gap.addBreak c.char) 0 rest
    else if Cell.marksDocument (c :: rest) then none
    else
      let reversed := gap.onto reversed
      if single then
        if c.char = '\'' then
          match rest with
          | d :: rest' =>
            if d.char = '\'' then readQuoted single ('\'' :: reversed) .none 0 rest'
            else some (reversed.reverse, rest)
          | [] => some (reversed.reverse, rest)
        else readQuoted single (c.char :: reversed) .none 0 rest
      else if c.char = '"' then some (reversed.reverse, rest)
      else if c.char = '\\' then
        match rest with
        | [] => none
        | d :: rest =>
          if d.isBreak then readQuoted single reversed (.breaks none []) 0 rest
          else
            match escapeWidth? d.char with
            | some width =>
              if rest.length < width then none
              else
                match (hexadecimal? (rest.take width)).bind charOfCode? with
                | some e => readQuoted single (e :: reversed) .none width rest
                | none => none
            | none =>
              match escape? d.char with
              | some e => readQuoted single (e :: reversed) .none 0 rest
              | none => none
      else readQuoted single (c.char :: reversed) .none 0 rest

/-! ### Block scalars -/

/-- What happens to the line breaks at the end of a block scalar. -/
inductive Chomping where
  | strip
  | clip
  | keep
deriving DecidableEq, Repr

def Chomping.ofChar? : Char → Option Chomping
  | '+' => some .keep
  | '-' => some .strip
  | _ => none

/-- Reads the indicators of a block scalar in either order: chomping and additional indentation. -/
def readBlockIndicators (cells : List Cell) : Option (Chomping × Option Nat × List Cell) :=
  let digit (cells : List Cell) : Option (Option Nat × List Cell) :=
    match cells with
    | c :: rest =>
      if c.char = '0' then none
      else match Text.digit? c.char with
        | some d => some (some d, rest)
        | none => some (none, c :: rest)
    | [] => some (none, [])
  match (Cell.char? cells).bind Chomping.ofChar? with
  | some chomping => (digit cells.tail).map fun (increment, rest) => (chomping, increment, rest)
  | none =>
    match digit cells with
    | some (some increment, rest) =>
      match (Cell.char? rest).bind Chomping.ofChar? with
      | some chomping => some (chomping, some increment, rest.tail)
      | none => some (.clip, some increment, rest)
    | some (none, rest) => some (.clip, none, rest)
    | none => none

/-- Skips blanks and a comment at the end of a line, and the line break. -/
def skipLineEnd? (cells : List Cell) : Option (List Cell) :=
  let cells := cells.dropWhile Cell.isSpace
  let cells := if Cell.char? cells = some '#' then cells.dropWhile (!·.isBreak) else cells
  match cells with
  | [] => some []
  | c :: rest => if c.isBreak then some rest else none

/-- Empty lines and indentation in front of a line of a block scalar. -/
structure BlockGap where
  reversed : List Char
  deepest : Nat
  rest : List Cell

/-- Reads empty lines and indentation up to a given column; `none` is any column. A tab in place of
indentation is an error. -/
def readBlockGap (indent : Option Nat) (reversed : List Char) (deepest : Nat) :
    List Cell → Option BlockGap
  | [] => some ⟨reversed, deepest, []⟩
  | c :: rest =>
    let indents := indent.all fun n => c.column < n
    if indents && c.char = ' ' then readBlockGap indent reversed deepest rest
    else
      let deepest := max deepest c.column
      if indents && c.char = '\t' then none
      else if c.isBreak then readBlockGap indent (c.char :: reversed) deepest rest
      else some ⟨reversed, deepest, c :: rest⟩

structure BlockLines where
  /-- The text, last character first, without the line break of the last line. -/
  reversed : List Char := []
  lastBreak : Option Char := none
  startsBlank : Bool := false
  /-- The line breaks of the empty lines since, last first. -/
  gap : List Char

namespace BlockLines

/-- The text with the line breaks before a further line. A folded scalar turns a single line break
between two lines into a space and drops the first of several, unless one of the lines starts with a
blank. -/
def joined (b : BlockLines) (folds startsBlank : Bool) : List Char :=
  if folds && b.lastBreak = some '\n' && !b.startsBlank && !startsBlank then
    if b.gap.isEmpty then ' ' :: b.reversed else b.gap ++ b.reversed
  else b.gap ++ b.lastBreak.toList ++ b.reversed

def finish (b : BlockLines) (chomping : Chomping) : List Char :=
  match chomping with
  | .strip => b.reversed.reverse
  | .clip => (b.lastBreak.toList ++ b.reversed).reverse
  | .keep => (b.gap ++ b.lastBreak.toList ++ b.reversed).reverse

end BlockLines

/-- Reads the lines of a block scalar that stand at the column `indent`, at most `limit` of them. -/
def readBlockLines (folds : Bool) (chomping : Chomping) (indent : Nat) :
    Nat → BlockLines → List Cell → Option (List Char × List Cell)
  | 0, _, _ => none
  | _ + 1, lines, [] => some (lines.finish chomping, [])
  | limit + 1, lines, c :: rest =>
    if c.column ≠ indent then some (lines.finish chomping, c :: rest)
    else
      let line := (c :: rest).takeWhile (!·.isBreak)
      let after := (c :: rest).dropWhile (!·.isBreak)
      match readBlockGap (some indent) [] 0 after.tail with
      | none => none
      | some gap =>
        readBlockLines folds chomping indent limit
          { reversed := (Cell.text line).reverse ++ lines.joined folds c.isSpace
            lastBreak := Cell.char? after
            startsBlank := c.isSpace
            gap := gap.reversed } gap.rest

/-- Reads a block scalar after its first indicator, below a collection at the column `parent?`. -/
def readBlock (folds : Bool) (parent? : Option Nat) (cells : List Cell) :
    Option (List Char × List Cell) := do
  let (chomping, increment?, cells) ← readBlockIndicators cells
  let cells ← skipLineEnd? cells
  let indent? := increment?.map fun n => parent?.getD 0 + n
  let gap ← readBlockGap indent? [] 0 cells
  let indent := indent?.getD (max gap.deepest (max 1 (parent?.elim 0 (· + 1))))
  readBlockLines folds chomping indent (gap.rest.length + 1) { gap := gap.reversed } gap.rest

end PolicyCheck.Yaml
