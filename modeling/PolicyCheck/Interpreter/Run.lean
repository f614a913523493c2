import PolicyCheck.Interpreter.Workspace

/-!
# Runs of the interpreter

The interpreter is started on a source file in the private directory of a workspace. It does not
always report errors by its exit status, so a run also fails if a line of its standard error holds
the word `Error`.
-/

namespace PolicyCheck.Interpreter

def errorMark : String := "Error"

/-- Whether a text reports an error on one of its lines. -/
def reportsError (text : List Char) : Bool :=
  (Text.lines text).any (Text.contains errorMark.toList)

namespace Workspace

def arguments (w : Workspace) (source : FilePath) (extra : List String) : List String :=
  [source.text,
    "--include-dir=" ++ w.includeDir.text,
    "--output-dir=" ++ (w.outputDir?.map FilePath.text).getD Settings.discard,
    "--fact-dir=" ++ w.factDir.text,
    "--library-dir=" ++ w.libraryDir.text] ++ extra

def commandLine (w : Workspace) (source : FilePath) (extra : List String) : String :=
  " ".intercalate (w.binary.text :: w.arguments source extra)

def invoke (w : Workspace) (source : FilePath) (extra : List String) : Action Error Unit := do
  let command := w.commandLine source extra
  let (status, stderr) ← (Host.start w.binary (w.arguments source extra) w.root).mapError fun cause =>
    .interpreter command cause.message
  let stderr := Text.Utf8.decodeLossy stderr
  if status ≠ 0 ∨ reportsError stderr then
    throw (.interpreter command (String.ofList stderr))

def writeSource (w : Workspace) (text : String) : Action IoError FilePath := do
  let p := entryPath w.root (← freshIn w.root "source-" ".dl")
  Host.write p text
  return p

/-- Runs a program whose source file lasts as long as the run, and collects the output relations. -/
def interpretText (w : Workspace) (text : String) : Action Error Datalog.Relations := do
  let source ← (w.writeSource text).mapError .io
  let result ← Action.attempt do
    w.invoke source []
    (Action.ask fun h => load h w).mapError .io
  Host.prune (w.root ++ source.fileName?.toList)
  Action.ofExcept result

def interpretFile (w : Workspace) (p : FilePath) (more : String) : Action Error Datalog.Relations := do
  let text ← (Action.ask fun h => h.readText p).mapError .io
  w.interpretText (text ++ more)

end Workspace

end PolicyCheck.Interpreter
