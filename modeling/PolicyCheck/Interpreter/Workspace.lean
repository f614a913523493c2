import PolicyCheck.Datalog.Relation
import PolicyCheck.Host.Basic
import PolicyCheck.Interpreter.Settings

/-!
# Workspaces

Every run has a private directory of its own, made fresh in the directory for temporary files and
taken out again however the run ends. The directories that the settings do not name lie in it.
`Workspace.within` is the only way in which a run gets a workspace, and it always takes it out.
-/

namespace PolicyCheck.Interpreter

structure Workspace where
  root : Place
  binary : FilePath
  /-- The directory of output relations, unless output is discarded. -/
  outputDir? : Option FilePath
  includeDir : FilePath
  factDir : FilePath
  libraryDir : FilePath
deriving DecidableEq, Repr, Inhabited

/-! ### Fresh names -/

/-- The number of names that are tried for a fresh entry. -/
def maxTries : Nat := 65536

/-- The first name from a draw on that no entry has, and the number of the draw after it. -/
def freshName? (draws : Nat → Draw) (taken : List String) (front back : String) :
    Nat → Nat → Option (String × Nat)
  | 0, _ => none
  | tries + 1, n =>
    let name := front ++ (draws n).text ++ back
    if name ∈ taken then freshName? draws taken front back tries (n + 1) else some (name, n + 1)

def freshIn (directory : Place) (front back : String) : Action IoError String := do
  let h ← get
  match freshName? h.draws (h.files.namesIn directory) front back maxTries h.drawn with
  | some (name, drawn) =>
    set { h with drawn }
    return name
  | none => throw .alreadyExists

namespace Workspace

/-! ### Making and taking out -/

def entryPath (root : Place) (name : String) : FilePath := .ofNames (root ++ [name])

/-- The directory that the settings name, or a new one in the private directory. -/
def layDir (root : Place) (named? : Option FilePath) (name : String) : Action IoError FilePath := do
  match named? with
  | some p => Action.ask fun h => h.resolve p
  | none =>
    Host.makeDirectory (entryPath root name)
    return entryPath root name

def findLibrary (root : Place) (named? : Option FilePath) : Action IoError FilePath :=
  match named? with
  | some p => Action.ask fun h => h.resolve p
  | none => return .ofNames root

def layOut (root : Place) (s : Settings) : Action IoError Workspace := do
  let outputDir? ←
    if s.discards then pure none else some <$> layDir root s.outputDir? "output"
  let includeDir ← layDir root s.includeDir? "include"
  let factDir ← layDir root s.factDir? "facts"
  let libraryDir ← findLibrary root s.libraryDir?
  return { root, binary := s.binary, outputDir?, includeDir, factDir, libraryDir }

def makeRoot : Action IoError Place := do
  let directory := (← get).temporary
  let root := directory ++ [← freshIn directory "attest-policy-" ""]
  Host.makeDirectory (.ofNames root)
  return root

/-- Makes a workspace; if it cannot be laid out, the private directory is taken out again. -/
def make (s : Settings) : Action IoError Workspace := do
  let root ← makeRoot
  match ← Action.attempt (layOut root s) with
  | .ok w => return w
  | .error cause =>
    Host.prune root
    throw cause

def remove {ε : Type} (w : Workspace) : Action ε Unit := Host.prune w.root

def within {α : Type} (s : Settings) (use : Workspace → Action Error α) : Action Error α := do
  let w ← (make s).mapError .io
  let result ← Action.attempt (use w)
  w.remove
  Action.ofExcept result

/-! ### Files -/

def stageInclude (w : Workspace) (name text : String) : Action IoError FilePath := do
  let p := w.includeDir.join ⟨name⟩
  Host.write p text
  return p

/-- The contents of a fact file: its rows, each with a line break; but a single empty row leaves it
empty. -/
def factText (rows : List String) : String :=
  let text := "\n".intercalate rows
  if text.isEmpty then text else text ++ "\n"

def stageFacts (w : Workspace) (relation : String) (rows : List String) : Action IoError FilePath := do
  let p := w.factDir.join ⟨relation ++ ".facts"⟩
  Host.write p (factText rows)
  return p

/-- The relation that a file of the output directory holds, by the name of the file. -/
def relationName? (name : String) : Option String :=
  match FilePath.cutExtension name with
  | (stem, some "csv") => some stem
  | _ => none

/-- Adds the relation in a file of the output directory, if the file holds one. -/
def loadFile (h : Host) (dir : FilePath) (relations : Datalog.Relations) (name : String) :
    Except IoError Datalog.Relations :=
  match relationName? name with
  | none => .ok relations
  | some relation => do
    return relations.insert relation (.ofText (← h.readText (dir.join ⟨name⟩)))

/-- The relations in the output directory; none if output is discarded. -/
def load (h : Host) (w : Workspace) : Except IoError Datalog.Relations :=
  match w.outputDir? with
  | none => .ok ∅
  | some dir => do (← h.list dir).foldlM (loadFile h dir) ∅

end Workspace

end PolicyCheck.Interpreter
