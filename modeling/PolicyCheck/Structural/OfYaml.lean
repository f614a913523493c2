import PolicyCheck.Structural.Policy
import PolicyCheck.Definition.OfYaml
import PolicyCheck.Yaml.Record

/-!
# Structural policies in YAML

A policy is written as a record of its metadata and its definition. Without a definition it has the
empty one, and without a target it is for every repository.
-/

namespace PolicyCheck.Structural

open Yaml

structure Source where
  id : String
  description : String
  target : String
  definition : Definition
deriving Repr

namespace Source

def ofMetadata (d : Document) (definition : Definition) (node : Tree) : Reading Source := do
  let [id, description, target] ← d.record ["id", "description", "target"] node | failure
  let id ← required d.string id
  let description ← defaulted d.string "" description
  let target ← defaulted d.string Policy.anyTarget target
  return { id, description, target, definition }

/-- Reads a policy. The definition lies one level below the root of the document. -/
def ofTree (d : Document) (node : Tree) : Reading Source := do
  let [metadata, definition] ← d.record ["metadata", "definition"] node | failure
  let definition ← defaulted (Definition.ofTree d (maxDepth - 1)) .null definition
  required (ofMetadata d definition) metadata

def ofYamlText? (text : String) : Option Source := do
  let d ← Document.ofText? text
  d.ofRoot? (ofTree d)

end Source

namespace Policy

def ofSource (s : Source) : Except Error Policy :=
  ((new s.id s.description).withTarget s.target).compile s.definition

def ofYamlText (text : String) : Except Error Policy :=
  match Source.ofYamlText? text with
  | some source => ofSource source
  | none => .error (.parse .yaml)

end Policy

end PolicyCheck.Structural
