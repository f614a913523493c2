import PolicyCheck.Yaml.Tag

/-!
# From cells to tokens

Outside brackets the structure of a YAML text follows from its columns. `Layout` holds what is known
at a place of the text: the columns of the open block collections, the open brackets, and for each
level of brackets the place where a key may have started without a mark of its own. Such a simple key
becomes one when a colon follows on the same line, and its tokens are then put in front of it.
-/

namespace PolicyCheck.Yaml

/-- A place where a simple key may have started. -/
structure Candidate where
  position : Nat
  /-- Whether nothing but a key can stand there. -/
  required : Bool
  line : Nat
  column : Nat
  offset : Nat
deriving DecidableEq, Repr

structure Layout where
  tokens : List Token := []
  blocks : List Nat := []
  /-- The candidate outside all brackets or inside the innermost ones. -/
  candidate? : Option Candidate := none
  /-- The candidates of the enclosing levels, one for each open bracket. -/
  outer : List (Option Candidate) := []
  keyAllowed : Bool := true
deriving Repr

namespace Layout

def inFlow (l : Layout) : Bool := !l.outer.isEmpty

def add (l : Layout) (token : Token) : Layout := { l with tokens := token :: l.tokens }

def insert (l : Layout) (position : Nat) (tokens : List Token) : Layout :=
  let later := l.tokens.length - position
  { l with tokens := l.tokens.take later ++ tokens ++ l.tokens.drop later }

/-! ### Simple keys -/

/-- How far a colon may be from the start of its simple key. -/
def keyLimit : Nat := 1024

/-- Gives up a candidate; one that is required is an error. -/
def giveUp : Option Candidate → Option (Option Candidate)
  | some candidate => if candidate.required then none else some none
  | none => some none

/-- Gives up a candidate that is on another line than the cell or too far away. -/
def refresh (c : Cell) : Option Candidate → Option (Option Candidate)
  | some candidate =>
    if candidate.line < c.line ∨ candidate.offset + keyLimit < c.offset then giveUp (some candidate)
    else some (some candidate)
  | none => some none

/-- Gives up all candidates that are out of reach of a cell. -/
def refreshAll (l : Layout) (c : Cell) : Option Layout := do
  return { l with candidate? := ← refresh c l.candidate?, outer := ← l.outer.mapM (refresh c) }

def dropCandidate (l : Layout) : Option Layout := do
  return { l with candidate? := ← giveUp l.candidate? }

def markCandidate (l : Layout) (c : Cell) : Option Layout :=
  if l.keyAllowed then do
    let l ← l.dropCandidate
    return { l with candidate? := some {
      position := l.tokens.length
      required := !l.inFlow && l.blocks.head? = some c.column
      line := c.line
      column := c.column
      offset := c.offset } }
  else some l

/-! ### Block collections -/

/-- Whether a block collection at a column would lie deeper than the open ones. -/
def opens (l : Layout) (column : Nat) : Bool :=
  !l.inFlow && l.blocks.head?.all fun block => block < column

/-- Opens a block collection at a column, unless one is open there. -/
def openBlock (l : Layout) (column : Nat) (token : Token) : Layout :=
  if l.opens column then { l.add token with blocks := column :: l.blocks } else l

/-- Closes the block collections that lie deeper than a column; `none` is left of all columns. -/
def closeBlocks (l : Layout) (column : Option Nat) : Layout :=
  if l.inFlow then l
  else
    let closed := l.blocks.takeWhile fun block => column.all fun column => column < block
    { l with
      tokens := closed.map (fun _ => Token.blockEnd) ++ l.tokens
      blocks := l.blocks.drop closed.length }

def reset (l : Layout) : Option Layout := do
  let l ← (l.closeBlocks none).dropCandidate
  return { l with keyAllowed := false }

/-! ### Tokens -/

def openBracket (l : Layout) (c : Cell) (token : Token) : Option Layout := do
  let l ← l.markCandidate c
  return { l.add token with
    candidate? := none, outer := l.candidate? :: l.outer, keyAllowed := true }

def closeBracket (l : Layout) (token : Token) : Option Layout := do
  let l ← l.dropCandidate
  match l.outer with
  | candidate? :: outer => return { l.add token with candidate?, outer, keyAllowed := false }
  | [] => return { l.add token with keyAllowed := false }

def comma (l : Layout) : Option Layout := do
  let l ← l.dropCandidate
  return { l.add .flowEntry with keyAllowed := true }

def entry (l : Layout) (c : Cell) : Option Layout :=
  if !l.inFlow && !l.keyAllowed then none
  else do
    let l ← (l.openBlock c.column .blockSequence).dropCandidate
    return { l.add .blockEntry with keyAllowed := true }

def keyMark (l : Layout) (c : Cell) : Option Layout :=
  if !l.inFlow && !l.keyAllowed then none
  else do
    let l ← (l.openBlock c.column .blockMapping).dropCandidate
    return { l.add .key with keyAllowed := !l.inFlow }

/-- Adds the mark of a value; a candidate becomes the key. -/
def valueMark (l : Layout) (c : Cell) : Option Layout :=
  match l.candidate? with
  | some candidate =>
    let l := if l.opens candidate.column then
        { l.insert candidate.position [.key, .blockMapping] with
          blocks := candidate.column :: l.blocks }
      else l.insert candidate.position [.key]
    some { l.add .value with candidate? := none, keyAllowed := false }
  | none =>
    if !l.inFlow && !l.keyAllowed then none
    else
      let l := l.openBlock c.column .blockMapping
      some { l.add .value with keyAllowed := !l.inFlow }

def content (l : Layout) (c : Cell) (token : Token) : Option Layout := do
  let l ← l.markCandidate c
  return { l.add token with keyAllowed := false }

/-! ### The next token -/

/-- Skips white space and comments. Outside brackets a new line allows a simple key, and a tab may
not stand where a simple key may start. -/
def skipSpace (l : Layout) : List Cell → Bool → Layout × List Cell
  | [], _ => (l, [])
  | c :: rest, inComment =>
    if c.isBreak then
      skipSpace (if l.inFlow then l else { l with keyAllowed := true }) rest false
    else if inComment then skipSpace l rest true
    else if c.char = ' ' || (c.char = '\t' && (l.inFlow || !l.keyAllowed)) ||
        (c.char = '\uFEFF' && c.offset = 0) then skipSpace l rest false
    else if c.char = '#' then skipSpace l rest true
    else (l, c :: rest)

/-- Whether a plain scalar may start with a character that is followed by the given cells. -/
def startsPlain (l : Layout) (c : Char) (rest : List Cell) : Bool :=
  if c = '-' then !(Cell.char? rest).any isSpace
  else if c = '?' || c = ':' then !l.inFlow && !Cell.wordEnds rest
  else !(isSpace c || isFlowIndicator c || c = '#' || c = '&' || c = '*' || c = '!' || c = '|' || c = '>' ||
    c = '\'' || c = '"' || c = '%' || c = '@' || c = '`')

/-- Adds the token that starts with a cell, and returns the cells that follow. -/
def next (l : Layout) (c : Cell) (rest : List Cell) : Option (Layout × List Cell) :=
  let go (rest : List Cell) (l : Option Layout) : Option (Layout × List Cell) := l.map (·, rest)
  let ends := Cell.wordEnds rest
  if c.column = 0 ∧ c.char = '%' then do
    let (token, rest) ← readDirective rest
    go rest (l.reset.map (·.add token))
  else if Cell.marksDocument (c :: rest) then
    let token := if c.char = '-' then Token.documentStart else Token.documentEnd
    go (rest.drop 2) (l.reset.map (·.add token))
  else if c.char = '[' then go rest (l.openBracket c .openSequence)
  else if c.char = '{' then go rest (l.openBracket c .openMapping)
  else if c.char = ']' then go rest (l.closeBracket .closeSequence)
  else if c.char = '}' then go rest (l.closeBracket .closeMapping)
  else if c.char = ',' then go rest l.comma
  else if c.char = '-' && ends then go rest (l.entry c)
  else if c.char = '?' && (l.inFlow || ends) then go rest (l.keyMark c)
  else if c.char = ':' && (l.inFlow || ends) then go rest (l.valueMark c)
  else if c.char = '*' then do
    let (name, rest) ← readAnchor rest
    go rest (l.content c (.reference name))
  else if c.char = '&' then do
    let (name, rest) ← readAnchor rest
    go rest (l.content c (.anchor name))
  else if c.char = '!' then do
    let (token, rest) ← readTag l.inFlow rest
    go rest (l.content c token)
  else if (c.char = '|' || c.char = '>') && !l.inFlow then do
    let folds : Bool := c.char = '>'
    let (text, rest) ← readBlock folds l.blocks.head? rest
    let l ← l.dropCandidate
    let style := if folds then Style.folded else Style.literal
    some ({ l.add (.scalar style (String.ofList text)) with keyAllowed := true }, rest)
  else if c.char = '\'' || c.char = '"' then do
    let (text, rest) ← readQuoted (c.char = '\'') [] .none 0 rest
    go rest (l.content c (.scalar .quoted (String.ofList text)))
  else if l.startsPlain c.char rest then do
    let indent := l.blocks.head?.elim 0 (· + 1)
    let scalar ← readPlain l.inFlow indent [] .none true (c :: rest)
    let l ← l.content c (.scalar .plain (String.ofList scalar.text))
    some ({ l with keyAllowed := scalar.endsLine }, scalar.rest)
  else none

def run : Nat → Layout → List Cell → Option Layout
  | 0, _, _ => none
  | limit + 1, l, cells =>
    match l.skipSpace cells false with
    | (l, []) => l.reset
    | (l, c :: rest) => do
      let l ← l.refreshAll c
      let (l, rest) ← (l.closeBlocks (some c.column)).next c rest
      run limit l rest

end Layout

/-- The tokens of a text. Every token takes up a character, so their number is bounded. -/
def tokens? (text : String) : Option (List Token) := do
  let cells ← Cell.ofText? text
  let l ← Layout.run (cells.length + 1) {} cells
  return l.tokens.reverse

end PolicyCheck.Yaml
