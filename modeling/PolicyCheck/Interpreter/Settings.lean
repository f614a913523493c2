import PolicyCheck.Host.FilePath
import PolicyCheck.Json.Record
import PolicyCheck.Text.Blank
import PolicyCheck.Toml.Document

/-!
# Settings of the interpreter

Which program to start and which directories to hand to it. A directory that is not set lies in the
private directory of the run. Output may be discarded, by a flag or by the output directory `-`.
-/

namespace PolicyCheck.Interpreter

structure Settings where
  binary : FilePath := ⟨"souffle"⟩
  outputDir? : Option FilePath := none
  includeDir? : Option FilePath := none
  factDir? : Option FilePath := none
  libraryDir? : Option FilePath := none
  discardOutput : Bool := false
deriving DecidableEq, Repr, Inhabited

namespace Settings

/-- The output directory that stands for discarding. -/
def discard : String := "-"

def variableName : String := "ATTEST_POLICY_INTERPRETER"

def discards (s : Settings) : Bool :=
  s.discardOutput || s.outputDir?.any fun dir => dir.leadsLike ⟨discard⟩

/-- The settings for a given value of the environment variable; a blank one counts as missing. -/
def ofVariable (value? : Option String) : Settings :=
  match value? with
  | some value => if (Text.trim value.toList).isEmpty then {} else { binary := ⟨value⟩ }
  | none => {}

/-! ### JSON -/

def toJson (s : Settings) : Json :=
  let dir (p? : Option FilePath) : Json := .ofOption (p?.map fun p => .string p.text)
  .object [("binary", .string s.binary.text), ("output_dir", dir s.outputDir?),
    ("include_dir", dir s.includeDir?), ("fact_dir", dir s.factDir?),
    ("library_dir", dir s.libraryDir?), ("discard_output", .bool s.discardOutput)]

def readPath? (value : Json.Syntax) : Option FilePath := value.string?.map FilePath.mk

/-- Reads settings; what is not given has its default. -/
def ofSyntax? (value : Json.Syntax) : Option Settings := do
  let [binary, outputDir, includeDir, factDir, libraryDir, discardOutput] ← value.record?
    ["binary", "output_dir", "include_dir", "fact_dir", "library_dir", "discard_output"] | none
  let dir? := Json.Syntax.defaulted? (Json.Syntax.nullable? readPath?) none
  return {
    binary := ← Json.Syntax.defaulted? readPath? ({} : Settings).binary binary
    outputDir? := ← dir? outputDir
    includeDir? := ← dir? includeDir
    factDir? := ← dir? factDir
    libraryDir? := ← dir? libraryDir
    discardOutput := ← Json.Syntax.defaulted? Json.Syntax.bool? false discardOutput }

def ofJsonText? (text : String) : Option Settings := (Json.Syntax.ofText? text).bind ofSyntax?

/-! ### TOML -/

def tomlPath? (fields : Toml.Fields) (key : String) : Option (Option FilePath) :=
  match Toml.Fields.get? key fields with
  | none => some none
  | some (.string text) => some (some ⟨text⟩)
  | some _ => none

def tomlFlag? (fields : Toml.Fields) (key : String) : Option Bool :=
  match Toml.Fields.get? key fields with
  | none => some false
  | some (.boolean value) => some value
  | some _ => none

def ofTomlText? (text : String) : Option Settings := do
  let fields ← Toml.Document.ofText? text
  return {
    binary := (← tomlPath? fields "binary").getD ({} : Settings).binary
    outputDir? := ← tomlPath? fields "output_dir"
    includeDir? := ← tomlPath? fields "include_dir"
    factDir? := ← tomlPath? fields "fact_dir"
    libraryDir? := ← tomlPath? fields "library_dir"
    discardOutput := ← tomlFlag? fields "discard_output" }

end Settings

end PolicyCheck.Interpreter
