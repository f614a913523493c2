import PolicyCheck.Yaml.Layout
import PolicyCheck.Yaml.Node

/-!
# Documents

In a document the anchors have numbers instead of names. A reference is to the last node before it
that has its name; the name must have been given by then. The number of a node is the number of
different names in use where it starts, so that a name given once more does not use up a number. Of
several nodes with one number the one that starts last counts, wherever the reference stands.

Reading a document follows references again and again, so that a short text may stand for a huge
tree. `Reading` therefore counts them.
-/

namespace PolicyCheck.Yaml

abbrev Tree := Node Nat

structure Names where
  /-- The names in use with their numbers, latest first. -/
  numbers : List (List Char × Nat) := []
  count : Nat := 0
deriving Repr

namespace Names

/-- The names after the start of a node with the given properties. -/
def add (n : Names) (properties : Properties (List Char)) : Names :=
  match properties.anchor? with
  | none => n
  | some name =>
    { numbers := (name, n.count) :: n.numbers
      count := if (n.numbers.lookup name).isSome then n.count else n.count + 1 }

def numbered (n : Names) (properties : Properties (List Char)) : Properties Nat where
  anchor? := properties.anchor?.map fun _ => n.count
  tag? := properties.tag?

end Names

namespace Node

mutual

/-- Numbers the anchors of a node, and gives the names after it. -/
def number (names : Names) : WrittenNode → Option (Tree × Names)
  | .reference name => (names.numbers.lookup name).map fun n => (.reference n, names)
  | .scalar properties style text =>
    some (.scalar (names.numbered properties) style text, names.add properties)
  | .sequence properties items =>
    (numberItems (names.add properties) items).map fun (items, after) =>
      (.sequence (names.numbered properties) items, after)
  | .mapping properties entries =>
    (numberEntries (names.add properties) entries).map fun (entries, after) =>
      (.mapping (names.numbered properties) entries, after)

def numberItems (names : Names) : List WrittenNode → Option (List Tree × Names)
  | [] => some ([], names)
  | item :: items => do
    let (item, names) ← number names item
    let (items, names) ← numberItems names items
    some (item :: items, names)

def numberEntries (names : Names) : List (WrittenNode × WrittenNode) →
    Option (List (Tree × Tree) × Names)
  | [] => some ([], names)
  | (key, value) :: entries => do
    let (key, names) ← number names key
    let (value, names) ← number names value
    let (entries, names) ← numberEntries names entries
    some ((key, value) :: entries, names)

end

def properties? {α : Type} : Node α → Option (Properties α)
  | .reference _ => none
  | .scalar properties .. | .sequence properties _ | .mapping properties _ => some properties

/-- The node with its number in a list, if it has one. -/
def numberedSelf (node : Tree) : List (Nat × Tree) :=
  ((node.properties?.bind Properties.anchor?).map fun n => (n, node)).toList

mutual

/-- The anchored nodes with their numbers, in the order of their starts. -/
def anchored : Tree → List (Nat × Tree)
  | .reference _ => []
  | .scalar properties style text => numberedSelf (.scalar properties style text)
  | .sequence properties items =>
    numberedSelf (.sequence properties items) ++ anchoredItems items
  | .mapping properties entries =>
    numberedSelf (.mapping properties entries) ++ anchoredEntries entries

def anchoredItems : List Tree → List (Nat × Tree)
  | [] => []
  | item :: items => anchored item ++ anchoredItems items

def anchoredEntries : List (Tree × Tree) → List (Nat × Tree)
  | [] => []
  | (key, value) :: entries => anchored key ++ anchored value ++ anchoredEntries entries

end

mutual

/-- The size of a node; a collection counts at its start and at its end. -/
def size {α : Type} : Node α → Nat
  | .reference _ | .scalar .. => 1
  | .sequence _ items => sizeItems items + 2
  | .mapping _ entries => sizeEntries entries + 2

def sizeItems {α : Type} : List (Node α) → Nat
  | [] => 0
  | item :: items => size item + sizeItems items

def sizeEntries {α : Type} : List (Node α × Node α) → Nat
  | [] => 0
  | (key, value) :: entries => size key + size value + sizeEntries entries

end

end Node

structure Document where
  root? : Option Tree
  anchored : List (Nat × Tree)
deriving Repr

namespace Document

def ofText? (text : String) : Option Document := do
  let tokens ← tokens? text
  match ← Node.ofTokens? tokens with
  | none => some ⟨none, []⟩
  | some node =>
    let (root, _) ← node.number {}
    some ⟨some root, root.anchored.reverse⟩

def anchored? (d : Document) (number : Nat) : Option Tree := d.anchored.lookup number

def referenceLimit (d : Document) : Nat := 100 * d.root?.elim 1 Node.size

end Document

/-! ### Following references -/

/-- The deepest nesting of collections that is read from a document. -/
def maxDepth : Nat := 128

/-- A value that is read while a number of references may still be followed. -/
abbrev Reading (α : Type) : Type := StateT Nat Option α

namespace Document

def follow (d : Document) (node : Tree) : Reading Tree := fun left =>
  match node, left with
  | .reference number, left + 1 => (d.anchored? number).map (·, left)
  | .reference _, 0 => none
  | node, left => some (node, left)

/-- The result of a reading that may follow as many references as the document allows. -/
def read? {α : Type} (d : Document) (reading : Reading α) : Option α :=
  (reading d.referenceLimit).map Prod.fst

end Document

end PolicyCheck.Yaml
