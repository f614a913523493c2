import PolicyCheck.Structural.OfYaml
import PolicyCheck.Host.Basic

/-!
# Structural policies in files
-/

namespace PolicyCheck.Structural.Policy

def ofFile (h : Host) (p : FilePath) : Except Error Policy := do
  ofYamlText (← (h.readText p).mapError .io)

end PolicyCheck.Structural.Policy
