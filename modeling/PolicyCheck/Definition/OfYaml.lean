import PolicyCheck.Yaml.Value

/-!
# Definitions in YAML

A node becomes a definition: references are followed, the keys of each mapping have to differ, and
collections may be nested to a bounded depth. The number of references that are followed is bounded
too, so that a short text cannot stand for a huge tree.
-/

namespace PolicyCheck

namespace Definition

open Yaml

/-- The definition under a tag of the document's own. A second exclamation mark in front of the name
does not count. -/
def underTag? (name : String) (value : Definition) : Option Definition :=
  match name.toList with
  | [] => none
  | '!' :: c :: cs => some (.tagged (String.ofList (c :: cs)) value)
  | _ => some (.tagged name value)

def ofTree (d : Document) : Nat → Tree → Reading Definition
  | depth, node => do
    let node ← d.follow node
    let properties := node.properties?.getD {}
    let own? := properties.tag?.bind ownTag?
    let value ← match depth, node with
      | _, .scalar properties style text =>
        let tag? := if own?.isSome then none else properties.tag?
        liftM (scalarValue? tag? style text)
      | depth + 1, .sequence _ items => Definition.sequence <$> items.mapM (ofTree d depth)
      | depth + 1, .mapping _ entries =>
        let addEntry (acc : List (Definition × Definition)) (entry : Tree × Tree) :
            Reading (List (Definition × Definition)) := do
          let key ← ofTree d depth entry.1
          if acc.any fun other => same other.1 key then failure
          return (key, ← ofTree d depth entry.2) :: acc
        (fun entries => .mapping entries.reverse) <$> entries.foldlM addEntry []
      | _, _ => failure
    match own? with
    | some name => liftM (underTag? name value)
    | none => return value

/-- Reads a definition in YAML; a text without a document is the empty value. -/
def ofYamlText? (text : String) : Option Definition := do
  let d ← Document.ofText? text
  match d.root? with
  | none => some .null
  | some root => d.read? (ofTree d maxDepth root)

end Definition

end PolicyCheck
