import PolicyCheck.Structural.Node
import PolicyCheck.Json.Printer

/-!
# Checking documents

A check looks its value up from the root of the document. Checks run from left to right and stop at
the first that does not hold; every literal that is reached is reported.
-/

namespace PolicyCheck.Structural

/-- Whether a looked-up value counts as absent: it is missing, `null`, `false`, zero or empty. -/
def isFalsy : Option Json → Bool
  | none | some .null => true
  | some (.bool value) => !value
  | some (.number n) => n.toDouble.isZero
  | some (.string text) => text.isEmpty
  | some (.array items) => items.isEmpty
  | some (.object fields) => fields.isEmpty

namespace Literal

/-- Whether a looked-up value equals the literal. Two integers of 64 bits are compared exactly, any
other two numbers by their nearest binary64 numbers. -/
def accepts : Literal → Option Json → Bool
  | .bool expected, some (.bool actual) => expected == actual
  | .string expected, some (.string actual) => expected == actual
  | .int expected, some (.number actual) =>
    match actual.int64? with
    | some actual => actual == expected
    | none => Double.same actual.toDouble (.ofInt expected)
  | .double expected, some (.number actual) => Double.same actual.toDouble expected
  | _, _ => false

end Literal

inductive Level where
  | info
  | error
deriving DecidableEq, Repr

inductive Report where
  | success (path : Path)
  | mismatch (path : Path) (expected : Literal) (actual : Option Json)
deriving Repr

namespace Report

def level : Report → Level
  | .success _ => .info
  | .mismatch .. => .error

def text : Report → String
  | .success path => s!"{path.dotted}: validation successful."
  | .mismatch path expected actual =>
    let got := match actual with
      | some value => value.compact
      | none => "nothing"
    s!"{path.dotted}: expected {expected.text}, got {got}"

end Report

structure Evaluation where
  holds : Bool
  reports : List Report := []

def Evaluation.log (e : Evaluation) : List (Level × String) :=
  e.reports.map fun report => (report.level, report.text)

namespace Node

mutual

def evaluate (document : Json) : Node → Evaluation
  | .literal path value =>
    let actual := document.lookup path
    if value.accepts actual then ⟨true, [.success path]⟩
    else ⟨false, [.mismatch path value actual]⟩
  | .absent path => ⟨isFalsy (document.lookup path), []⟩
  | .allOf children => evaluateAll document children

def evaluateAll (document : Json) : List Node → Evaluation
  | [] => ⟨true, []⟩
  | child :: children =>
    let first := evaluate document child
    if first.holds then
      let rest := evaluateAll document children
      ⟨rest.holds, first.reports ++ rest.reports⟩
    else first

end

def holds (node : Node) (document : Json) : Bool := (node.evaluate document).holds

end Node

end PolicyCheck.Structural
