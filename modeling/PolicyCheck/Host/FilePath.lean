import PolicyCheck.Text.Pieces

/-!
# Paths of files

A path is kept as the text that was given, and is shown so. Its components leave out what does not
matter to where it leads: repeated slashes, a slash at the end, and the name `.` anywhere but in
front. The last component gives the name of the file, its stem and its extension.
-/

namespace PolicyCheck

structure FilePath where
  text : String
deriving DecidableEq, Repr, Inhabited

namespace FilePath

def slash : Char := '/'

inductive Component where
  | root
  /-- The directory itself, in front of a relative path. -/
  | current
  | parent
  | name (text : String)
deriving DecidableEq, Repr

def isAbsolute (p : FilePath) : Bool := p.text.toList.head? = some slash

def pieces (p : FilePath) : List String := (Text.pieces slash p.text.toList).map String.ofList

def componentOf? (piece : String) : Option Component :=
  if piece = "" ∨ piece = "." then none else if piece = ".." then some .parent else some (.name piece)

def components (p : FilePath) : List Component :=
  let front : List Component :=
    if p.isAbsolute then [.root] else if p.pieces.head? = some "." then [.current] else []
  front ++ p.pieces.filterMap componentOf?

/-- The name of the file that the path leads to, if its last step is a name. -/
def fileName? (p : FilePath) : Option String :=
  match p.components.getLast? with
  | some (.name text) => some text
  | _ => none

/-- A name before and after its last point. A point in front is part of the name. -/
def cutExtension (name : String) : String × Option String :=
  let cs := name.toList.reverse
  let extension := cs.takeWhile (· ≠ '.')
  match cs.drop extension.length with
  | '.' :: stem =>
    if stem.isEmpty then (name, none)
    else (String.ofList stem.reverse, some (String.ofList extension.reverse))
  | _ => (name, none)

def extension? (p : FilePath) : Option String := p.fileName?.bind fun name => (cutExtension name).2

/-- A path below another one, or the second path alone if that is absolute. -/
def join (base p : FilePath) : FilePath :=
  if p.isAbsolute then p
  else if base.text.isEmpty ∨ base.text.toList.getLast? = some slash then ⟨base.text ++ p.text⟩
  else ⟨base.text ++ "/" ++ p.text⟩

def ofNames (names : List String) : FilePath := ⟨"/" ++ "/".intercalate names⟩

def leadsLike (p q : FilePath) : Bool := p.components == q.components

example : (⟨"a//./b/"⟩ : FilePath).components = [.name "a", .name "b"] := by decide +kernel

example : (⟨"out/.tar.gz"⟩ : FilePath).extension? = some "gz" := by decide +kernel

example : (⟨".csv"⟩ : FilePath).extension? = none := by decide +kernel

end FilePath

end PolicyCheck
