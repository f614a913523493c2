import PolicyCheck.Command.Run

/-!
# The program

The program takes a picture of the files that its command line names, runs the command on that
picture, and writes what the command has written. No other program is started from here: the picture
holds none that may be run, so every Datalog policy fails as it does where the interpreter is missing.
-/

namespace PolicyCheck.Command

/-- A picture with what stands at a place, and for a directory the names in it. -/
def pictureOf (t : FileTree) (place : Place) : IO (FileTree × List String) := do
  let path := (← IO.currentDir) / (FilePath.ofNames place).text
  match ← path.metadata.toBaseIO with
  | .error _ => return (t, [])
  | .ok found =>
    match found.type with
    | .dir => return (t.put place .directory, (← path.readDir).toList.map fun e => e.fileName)
    | .file => return (t.put place (.file (← IO.FS.readBinFile path).toList false), [])
    | _ => return (t, [])

def pictureStep (walked : FileTree × Place × List String) (name : String) :
    IO (FileTree × Place × List String) := do
  let (t, place, _) := walked
  let place :=
    if name = "" ∨ name = "." then place
    else if name = ".." then place.dropLast
    else place ++ [name]
  let (t, names) ← pictureOf t place
  return (t, place, names)

/-- A picture with every place on a path, and with the entries of the last one. -/
def picturePath (directory : Place) (t : FileTree) (p : FilePath) : IO FileTree := do
  let names := if p.isAbsolute then p.pieces else directory ++ p.pieces
  let (t, place, entries) ← names.foldlM pictureStep (t, [], [])
  entries.foldlM (fun t name => return (← pictureOf t (place ++ [name])).1) t

/-- The host of the program: the working directory and the files that a command line names. -/
def pictureHost (words : List String) : IO Host := do
  let directory := ((← IO.currentDir).toString.splitOn "/").filter (· ≠ "")
  let paths := match Invocation.ofWords words with
    | .ok invocation => invocation.paths
    | .error _ => []
  let (files, _, _) ← directory.foldlM pictureStep ({}, [], [])
  let files ← paths.foldlM (picturePath directory) files
  return { files, directory, interpreterVariable? := ← IO.getEnv Interpreter.Settings.variableName }

def writeLog (words : List String) (h : Host) : IO Unit := do
  match (Invocation.ofWords words).toOption.bind Invocation.logPath? with
  | some p => if h.isFile p then IO.FS.writeFile p.text "" else pure ()
  | none => pure ()

end PolicyCheck.Command

def main (words : List String) : IO UInt32 := do
  let host ← PolicyCheck.Command.pictureHost words
  let (exit, host) := (PolicyCheck.Command.runProgram words).run host
  PolicyCheck.Command.writeLog words host
  IO.print host.output
  IO.eprint host.complaints
  return exit.toUInt32
