import PolicyCheck.Datalog.LineSet
import PolicyCheck.Json.Record
import PolicyCheck.Json.Printer

/-!
# Datalog programs

A program has three sections, each a set of lines: declarations, directives and rules. Its text
gives them in this order, one line each. Programs are merged section by section.
-/

namespace PolicyCheck.Datalog

structure Program where
  declarations : LineSet := ∅
  directives : LineSet := ∅
  rules : LineSet := ∅
deriving DecidableEq, Inhabited

namespace Program

instance : EmptyCollection Program := ⟨{}⟩

def ofLists (declarations directives rules : List String) : Program where
  declarations := .ofList declarations
  directives := .ofList directives
  rules := .ofList rules

def declare (p : Program) (line : String) : Program :=
  { p with declarations := p.declarations.insert line }

def direct (p : Program) (line : String) : Program :=
  { p with directives := p.directives.insert line }

def rule (p : Program) (line : String) : Program :=
  { p with rules := p.rules.insert line }

def merge (p q : Program) : Program where
  declarations := p.declarations ∪ q.declarations
  directives := p.directives ∪ q.directives
  rules := p.rules ∪ q.rules

def collect (programs : List Program) : Program := programs.foldl merge ∅

def size (p : Program) : Nat := p.declarations.size + p.directives.size + p.rules.size

def isEmpty (p : Program) : Bool := p.size == 0

def lines (p : Program) : List String := p.declarations.lines ++ p.directives.lines ++ p.rules.lines

def text (p : Program) : String := "\n".intercalate p.lines

def toJson (p : Program) : Json :=
  .object [("declarations", .ofStrings p.declarations.lines),
    ("directives", .ofStrings p.directives.lines), ("rules", .ofStrings p.rules.lines)]

/-- Reads a program whose three sections are all given, in any order and with repetitions. -/
def ofSyntax? (value : Json.Syntax) : Option Program := do
  let [declarations, directives, rules] ← value.record? ["declarations", "directives", "rules"]
    | none
  let section? := Json.Syntax.required? (Json.Syntax.list? Json.Syntax.string?)
  return ofLists (← section? declarations) (← section? directives) (← section? rules)

end Program

end PolicyCheck.Datalog
