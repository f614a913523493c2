import PolicyCheck.Datalog.Program

/-!
# Declarations and rules

The lines of a generated program before they become text: what a declaration declares, which
relation an input directive fills and which columns a pivot rule binds. Each has a `text`, the line
that goes into a `Program`.
-/

namespace PolicyCheck.Datalog

inductive AttributeType where
  | number
  | symbol
  | value
deriving DecidableEq, Repr

namespace AttributeType

def text : AttributeType → String
  | .number => "number"
  | .symbol => "symbol"
  | .value => "Value"

end AttributeType

structure Attribute where
  name : String
  type : AttributeType
deriving DecidableEq, Repr

namespace Attribute

def text (a : Attribute) : String := a.name ++ ":" ++ a.type.text

end Attribute

inductive Declaration where
  | table (relation : String) (attributes : List Attribute)
  | pivot (relation : String) (keys : List Attribute) (label : String)
  | names (relation label : String)
deriving DecidableEq, Repr

namespace Declaration

def relation : Declaration → String
  | .table relation _ => relation
  | .pivot relation .. => relation
  | .names relation _ => relation

def attributes : Declaration → List Attribute
  | .table _ attributes => attributes
  | .pivot _ keys label => keys ++ [⟨label, .symbol⟩, ⟨"value", .value⟩]
  | .names _ label => [⟨label, .symbol⟩]

def attributeList (attributes : List Attribute) : String :=
  ", ".intercalate (attributes.map Attribute.text)

def text : Declaration → String
  | .table relation attributes => s!".decl {relation} ({attributeList attributes})"
  | .pivot relation keys label =>
    s!".decl {relation}({attributeList keys}, {label}:symbol, value:Value)"
  | .names relation label => s!".decl {relation}({label}:symbol)"

end Declaration

/-- The directive that fills a relation from the table of the same name in a database. -/
structure Input where
  relation : String
  database : String
deriving DecidableEq, Repr

namespace Input

def text (i : Input) : String := s!".input {i.relation} (IO=sqlite, filename=\"{i.database}\")"

end Input

inductive Wrapper where
  | int
  | bool
  | string
deriving DecidableEq, Repr

namespace Wrapper

def text : Wrapper → String
  | .int => "$Int"
  | .bool => "$Bool"
  | .string => "$String"

end Wrapper

/-- A rule that turns one column of a table into tuples of a pivot relation:
`target(keys…, "label", wrapper(value)) :- source(pattern…).` -/
structure PivotRule where
  target : String
  keys : List String
  label : String
  wrapper : Wrapper
  source : String
  /-- The arguments of the body: variables, with `_` for any value. -/
  pattern : List String
  /-- A value that the rule leaves out. -/
  excluded : Option String := none
deriving DecidableEq, Repr

namespace PivotRule

def valueVariable : String := "value"

def wildcard : String := "_"

def headText (r : PivotRule) : String :=
  let keys := ", ".intercalate r.keys
  s!"{r.target}({keys}, \"{r.label}\", {r.wrapper.text}(value))"

def bodyText (r : PivotRule) : String :=
  let pattern := ", ".intercalate r.pattern
  s!"{r.source}({pattern})"

def guardText (r : PivotRule) : String :=
  match r.excluded with
  | some excluded => s!", value != \"{excluded}\""
  | none => ""

def text (r : PivotRule) : String := s!"{r.headText} :- {r.bodyText}{r.guardText}."

end PivotRule

structure NameFact where
  relation : String
  name : String
deriving DecidableEq, Repr

namespace NameFact

def text (f : NameFact) : String := s!"{f.relation}(\"{f.name}\")."

end NameFact

structure Outline where
  declarations : List Declaration := []
  inputs : List Input := []
  facts : List NameFact := []
  rules : List PivotRule := []
deriving DecidableEq, Repr

namespace Outline

def append (o p : Outline) : Outline where
  declarations := o.declarations ++ p.declarations
  inputs := o.inputs ++ p.inputs
  facts := o.facts ++ p.facts
  rules := o.rules ++ p.rules

instance : Append Outline := ⟨append⟩

def concat (outlines : List Outline) : Outline := outlines.foldr append {}

def program (o : Outline) : Program :=
  .ofLists (o.declarations.map Declaration.text) (o.inputs.map Input.text)
    (o.facts.map NameFact.text ++ o.rules.map PivotRule.text)

end Outline

end PolicyCheck.Datalog
