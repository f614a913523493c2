import PolicyCheck.Fact.Term
import PolicyCheck.Datalog.Program

/-!
# Documents as facts

Every scalar leaf of a document becomes one fact `json(prefix, id, term)`, in the order of the
document. Empty arrays and objects leave no fact. `visit` collects the terms on a walk that keeps its
place as one path, `terms` gives them by recursion.
-/

namespace PolicyCheck.Fact

mutual

/-- The terms of the leaves of a value at a path, in document order. -/
def terms (path : Path) : Json → List Term
  | .array items => itemTerms path 0 items
  | .object fields => fieldTerms path fields
  | scalar => (Term.ofScalar? scalar).toList.map (Term.wrap path)

def itemTerms (path : Path) (position : Nat) : List Json → List Term
  | [] => []
  | item :: items => terms (path ++ [.index position]) item ++ itemTerms path (position + 1) items

def fieldTerms (path : Path) : List (String × Json) → List Term
  | [] => []
  | (key, value) :: fields => terms (path ++ [.key key]) value ++ fieldTerms path fields

end

/-! ### The walk -/

mutual

def visit : Json → StateM Path (List Term)
  | .array items => visitItems 0 items
  | .object fields => visitFields fields
  | scalar => return (Term.ofScalar? scalar).toList.map (Term.wrap (← get))

/-- Collects the terms of the elements of the array at the current path, from a position on. -/
def visitItems (position : Nat) : List Json → StateM Path (List Term)
  | [] => return []
  | item :: items =>
    return (← Path.within (.index position) (visit item)) ++ (← visitItems (position + 1) items)

def visitFields : List (String × Json) → StateM Path (List Term)
  | [] => return []
  | (key, value) :: fields => return (← Path.within (.key key) (visit value)) ++ (← visitFields fields)

end

/-! ### Facts -/

def relation : String := "json"

structure Statement where
  label : String
  id : Int
  term : Term
deriving DecidableEq, Repr

namespace Statement

def text (s : Statement) : String :=
  relation ++ "(\"" ++ s.label ++ "\"," ++ toString s.id ++ "," ++ s.term.text ++ ")."

def row (s : Statement) : String := s.label ++ "\t" ++ toString s.id ++ "\t" ++ s.term.text

end Statement

def statements (document : Json) (label : String) (id : Int) : List Statement :=
  (terms [] document).map fun term => ⟨escape label, id, term⟩

def lines (document : Json) (label : String) (id : Int) : List String :=
  (statements document label id).map Statement.text

def rows (document : Json) (label : String) (id : Int) : List String :=
  (statements document label id).map Statement.row

def program (document : Json) (label : String) (id : Int) : Datalog.Program :=
  .ofLists [] [] (lines document label id)

end PolicyCheck.Fact
