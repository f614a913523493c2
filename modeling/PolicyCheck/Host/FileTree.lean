import PolicyCheck.Host.FilePath
import PolicyCheck.Text.Utf8
import PolicyCheck.Error

/-!
# File systems

A file system is a list of entries, each under the names that lead to it from the root. There are no
links, so a path leads to one place: it is walked name by name, and every name but the last must be
a directory. The order of the list is the order in which a directory shows its entries.
-/

namespace PolicyCheck

/-- The names that lead to a place from the root. -/
abbrev Place := List String

inductive Entry where
  | directory
  /-- A file, which may be a program. -/
  | file (contents : Text.Octets) (executable : Bool)
deriving DecidableEq, Repr, Inhabited

structure FileTree where
  /-- The entries; the root is not among them. -/
  entries : List (Place × Entry) := []
deriving Repr, Inhabited

namespace FileTree

def entry? (t : FileTree) (place : Place) : Option Entry :=
  if place = [] then some .directory else t.entries.lookup place

def isDirectoryAt (t : FileTree) (place : Place) : Bool := t.entry? place == some .directory

def put (t : FileTree) (place : Place) (entry : Entry) : FileTree :=
  if (t.entries.lookup place).isSome then
    ⟨t.entries.map fun e => if e.1 = place then (place, entry) else e⟩
  else ⟨t.entries ++ [(place, entry)]⟩

def prune (t : FileTree) (place : Place) : FileTree :=
  ⟨t.entries.filter fun e => !place.isPrefixOf e.1⟩

def nameBelow? (directory place : Place) : Option String :=
  match place.getLast? with
  | some name => if place = directory ++ [name] then some name else none
  | none => none

def namesIn (t : FileTree) (directory : Place) : List String :=
  t.entries.filterMap fun e => nameBelow? directory e.1

/-! ### Where a path leads -/

/-- The most octets that a name may have. -/
def maxName : Nat := 255

/-- The least number of octets that is too many for a path. -/
def maxPath : Nat := 4096

def fitting (name : String) : Except IoError String :=
  if name.utf8ByteSize ≤ maxName then .ok name else .error .nameTooLong

def enter (t : FileTree) (directory : Place) (name : String) : Except IoError Place :=
  if name = "." then .ok directory
  else if name = ".." then .ok directory.dropLast
  else do
    let place := directory ++ [← fitting name]
    match t.entry? place with
    | some .directory => return place
    | some (.file ..) => throw .notDirectory
    | none => throw .notFound

structure Target where
  place : Place
  /-- Whether the path ends in a slash and so asks for a directory. -/
  slashed : Bool
deriving DecidableEq, Repr

/-- Where a path leads from a directory; whether anything stands there does not matter. -/
def locate (t : FileTree) (directory : Place) (p : FilePath) : Except IoError Target :=
  if '\x00' ∈ p.text.toList then .error .unusableName
  else if p.text.isEmpty then .error .notFound
  else if maxPath ≤ p.text.utf8ByteSize then .error .nameTooLong
  else do
    let names := p.pieces.filter (· ≠ "")
    let start := if p.isAbsolute then [] else directory
    let above ← names.dropLast.foldlM t.enter start
    match names.getLast? with
    | none => return ⟨above, false⟩
    | some name =>
      if name = "." ∨ name = ".." then return ⟨← t.enter above name, false⟩
      else return ⟨above ++ [← fitting name], p.pieces.getLast? = some ""⟩

def find (t : FileTree) (directory : Place) (p : FilePath) : Except IoError (Place × Entry) := do
  let target ← t.locate directory p
  match t.entry? target.place with
  | none => throw .notFound
  | some .directory => return (target.place, .directory)
  | some (.file contents executable) =>
    if target.slashed then throw .notDirectory else return (target.place, .file contents executable)

/-! ### Operations -/

def read (t : FileTree) (directory : Place) (p : FilePath) : Except IoError Text.Octets := do
  match ← t.find directory p with
  | (_, .file contents _) => return contents
  | (_, .directory) => throw .isDirectory

def list (t : FileTree) (directory : Place) (p : FilePath) : Except IoError (List String) := do
  match ← t.find directory p with
  | (place, .directory) => return t.namesIn place
  | (_, .file ..) => throw .notDirectory

def write (t : FileTree) (directory : Place) (p : FilePath) (contents : Text.Octets) :
    Except IoError FileTree := do
  let target ← t.locate directory p
  if target.slashed then throw .isDirectory
  match t.entry? target.place with
  | some .directory => throw .isDirectory
  | some (.file _ executable) => return t.put target.place (.file contents executable)
  | none => return t.put target.place (.file contents false)

def makeDirectory (t : FileTree) (directory : Place) (p : FilePath) : Except IoError FileTree := do
  let target ← t.locate directory p
  if (t.entry? target.place).isSome then throw .alreadyExists
  return t.put target.place .directory

end FileTree

end PolicyCheck
