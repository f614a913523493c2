import PolicyCheck.Host.Basic
import PolicyCheck.Interpreter.Settings

/-!
# Settings in files
-/

namespace PolicyCheck.Interpreter.Settings

def ofFile (h : Host) (p : FilePath) : Except Error Settings := do
  match ofTomlText? (← (h.readText p).mapError .io) with
  | some s => return s
  | none => throw (.parse .toml)

end PolicyCheck.Interpreter.Settings
