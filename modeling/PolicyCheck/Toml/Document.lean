import PolicyCheck.Toml.Scalar

/-!
# TOML documents

A document is read line by line. A header names the table of the lines below it; a line defines the
value of a key in that table. A value may go over several lines only inside an array or a long
string. `Document.ofText?` gives the fields of the root table.
-/

namespace PolicyCheck.Toml

/-! ### White space and comments -/

def isBlank (c : Char) : Bool := c = ' ' || c = '\t'

def skipBlanks (cs : List Char) : List Char := cs.dropWhile isBlank

def skipLines (inComment : Bool) : List Char → List Char
  | [] => []
  | '\n' :: rest => skipLines false rest
  | '\r' :: '\n' :: rest => skipLines false rest
  | c :: rest =>
    if inComment then if isPlainChar c then skipLines true rest else c :: rest
    else if isBlank c then skipLines false rest
    else if c = '#' then skipLines true rest
    else c :: rest

/-- Takes the end of a line, and any comment before it, off the front of a text. -/
def endLine? (cs : List Char) : Option (List Char) :=
  let rest := match skipBlanks cs with
    | '#' :: rest => rest.dropWhile isPlainChar
    | rest => rest
  match rest with
  | [] => some []
  | '\n' :: rest => some rest
  | '\r' :: '\n' :: rest => some rest
  | _ => none

/-! ### Keys -/

def isKeyChar (c : Char) : Bool := c.isAlphanum || c = '-' || c = '_'

def readPart? : List Char → Option (String × List Char)
  | '"' :: rest => (readString '"' [] rest).map fun (text, rest) => (String.ofList text, rest)
  | '\'' :: rest => (readString '\'' [] rest).map fun (text, rest) => (String.ofList text, rest)
  | cs =>
    let part := cs.takeWhile isKeyChar
    if part.isEmpty then none else some (String.ofList part, cs.dropWhile isKeyChar)

/-- Reads the parts of a dotted key. Every part consumes a character, so fuel above the length of the
text is never used up. -/
def readParts? : Nat → List Char → Option (List String × List Char)
  | 0, _ => none
  | fuel + 1, cs =>
    match readPart? (skipBlanks cs) with
    | none => none
    | some (part, rest) =>
      match skipBlanks rest with
      | '.' :: rest => (readParts? fuel rest).map fun (parts, rest) => (part :: parts, rest)
      | rest => some ([part], rest)

/-- The least number of parts that is too many for a key, and of levels for a value. -/
def limit : Nat := 80

structure Key where
  path : List String
  name : String
deriving DecidableEq, Repr

def Key.parts (key : Key) : List String := key.path ++ [key.name]

/-- Reads a dotted key and the blanks around it. -/
def readKey? (cs : List Char) : Option (Key × List Char) := do
  let (parts, rest) ← readParts? (cs.length + 1) cs
  if limit ≤ parts.length then none
  else return (⟨parts.dropLast, ← parts.getLast?⟩, rest)

/-! ### Values -/

mutual

/-- Reads a value that may have `levels` levels of arrays and tables. Every call consumes a
character, so fuel above the length of the text is never used up. -/
def readValue? : Nat → Nat → List Char → Option (Value × List Char)
  | 0, _, _ => none
  | fuel + 1, levels, cs =>
    match levels, cs with
    | levels + 1, '[' :: rest => readItems? fuel levels [] rest
    | levels + 1, '{' :: rest =>
      match skipBlanks rest with
      | '}' :: rest => some (.table .inline [], rest)
      | rest => readFields? fuel levels [] rest
    | _, '"' :: rest =>
      (readAnyString? ('"' :: rest)).map fun (text, rest) => (.string (String.ofList text), rest)
    | _, '\'' :: rest =>
      (readAnyString? ('\'' :: rest)).map fun (text, rest) => (.string (String.ofList text), rest)
    | _, cs => (ofWord? (cutWord cs).1).map fun value => (value, (cutWord cs).2)

/-- Reads the elements of an array up to its end; a comma may follow the last one. -/
def readItems? : Nat → Nat → List Value → List Char → Option (Value × List Char)
  | 0, _, _, _ => none
  | fuel + 1, levels, acc, cs =>
    match skipLines false cs with
    | ']' :: rest => some (.array acc.reverse, rest)
    | cs =>
      match readValue? fuel levels cs with
      | none => none
      | some (value, rest) =>
        match skipLines false rest with
        | ',' :: rest => readItems? fuel levels (value :: acc) rest
        | ']' :: rest => some (.array (value :: acc).reverse, rest)
        | _ => none

/-- Reads the fields of a table inside a value up to its end. -/
def readFields? : Nat → Nat → Fields → List Char → Option (Value × List Char)
  | 0, _, _, _ => none
  | fuel + 1, levels, fields, cs =>
    match readKey? cs with
    | some (key, '=' :: rest) =>
      match readValue? fuel levels (skipBlanks rest) with
      | none => none
      | some (value, rest) =>
        match Fields.define key.path key.name value fields with
        | none => none
        | some fields =>
          match skipBlanks rest with
          | ',' :: rest => readFields? fuel levels fields rest
          | '}' :: rest => some (.table .inline fields, rest)
          | _ => none
    | _ => none

end

/-! ### Documents -/

structure Document where
  root : Fields := []
  header : List String := []
deriving Repr

namespace Document

def readLine? (d : Document) : List Char → Option (Document × List Char)
  | '[' :: '[' :: rest => do
    let (key, ']' :: ']' :: rest) ← readKey? rest | none
    return ({ root := ← Fields.addTable key.path key.name d.root, header := key.parts }, rest)
  | '[' :: rest => do
    let (key, ']' :: rest) ← readKey? rest | none
    return ({ root := ← Fields.openTable key.path key.name d.root, header := key.parts }, rest)
  | cs => do
    let (key, '=' :: rest) ← readKey? cs | none
    let (value, rest) ← readValue? (2 * rest.length + 2) limit.pred (skipBlanks rest)
    let root ← Fields.defineBelow d.header key.path key.name value d.root
    return ({ d with root }, rest)

/-- Reads lines up to the end of the text. Every line consumes a character, so fuel above the length
of the text is never used up. -/
def readLines? : Nat → Document → List Char → Option Document
  | 0, _, _ => none
  | fuel + 1, d, cs =>
    match endLine? cs with
    | some [] => some d
    | some rest => readLines? fuel d rest
    | none =>
      match readLine? d (skipBlanks cs) with
      | none => none
      | some (d, rest) =>
        match endLine? rest with
        | some rest => readLines? fuel d rest
        | none => none

def dropMark : List Char → List Char
  | '\uFEFF' :: rest => rest
  | cs => cs

def ofText? (text : String) : Option Fields :=
  let cs := dropMark text.toList
  (readLines? (cs.length + 2) {} cs).map Document.root

end Document

end PolicyCheck.Toml
