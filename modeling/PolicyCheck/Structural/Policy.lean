import PolicyCheck.Structural.Evaluation
import PolicyCheck.Structural.Record
import PolicyCheck.Json.Record

/-!
# Structural policies

A policy has a name, a description, the repository it is for and, once a definition has been
compiled, a tree of checks. Compiling a second time replaces the tree, and a definition with a fault
leaves the policy as it is.
-/

namespace PolicyCheck.Structural

structure Policy where
  id : String
  description : String
  target : String
  /-- The compiled tree, if there is one. -/
  root? : Option Node := none
deriving Repr, Inhabited

namespace Policy

def anyTarget : String := "any"

def new (id description : String) : Policy := { id, description, target := anyTarget }

def withTarget (p : Policy) (target : String) : Policy := { p with target }

def compile (p : Policy) (definition : Definition) : Except Error Policy :=
  match Node.compile definition with
  | .ok root => .ok { p with root? := some root }
  | .error fault => .error (.invalidPolicy fault)

/-- Compiles a definition, and stays as it is when the definition has a fault. -/
def recompile (p : Policy) (definition : Definition) : Policy :=
  (p.compile definition).toOption.getD p

def evaluate (p : Policy) (document : Json) : Except Error Evaluation :=
  match p.root? with
  | some root => .ok (root.evaluate document)
  | none => .error (.notCompiled p.id)

def validate (p : Policy) (document : Json) : Except Error Bool :=
  (p.evaluate document).map Evaluation.holds

def text (p : Policy) : String := s!"Policy(id='{p.id}', description='{p.description}')"

def checkCount? (p : Policy) : Option Nat := p.root?.map Node.checkCount

/-! ### JSON -/

def toJson (p : Policy) : Json :=
  .object [("id", .string p.id), ("description", .string p.description),
    ("target", .string p.target), ("root", .ofOption (p.root?.map Node.toJson))]

def readRoot? (value : Json.Syntax) : Option Node := (value.asWritten? 1).bind Node.ofJson?

/-- Reads a policy. In an object the tree may be missing, in an array it may only be `null`. -/
def ofSyntax? (value : Json.Syntax) : Option Policy := do
  let [id, description, target, root] ← value.record? ["id", "description", "target", "root"]
    | none
  let root := match value with
    | .object _ => some (root.getD .null)
    | _ => root
  let id ← Json.Syntax.required? Json.Syntax.string? id
  let description ← Json.Syntax.required? Json.Syntax.string? description
  let target ← Json.Syntax.required? Json.Syntax.string? target
  let root? ← Json.Syntax.required? (Json.Syntax.nullable? readRoot?) root
  return { id, description, target, root? }

end Policy

end PolicyCheck.Structural
