import PolicyCheck.Json.Basic

/-!
# Paths into JSON documents

A path leads from the root of a document to a value in it, root first. `Json.lookup` follows a path
and fails when a step meets a value of another kind, a missing field or an index past the end.
-/

namespace PolicyCheck

inductive Step where
  | key (name : String)
  | index (position : Nat)
deriving DecidableEq, Repr

abbrev Path := List Step

namespace Step

def text : Step → String
  | .key name => name
  | .index position => toString position

end Step

namespace Path

def dotted (path : Path) : String := ".".intercalate (path.map Step.text)

def suffix : Step → String
  | .key name => "." ++ name
  | .index position => "[" ++ toString position ++ "]"

def bracketed : Path → String
  | [] => ""
  | .key name :: rest => name ++ String.join (rest.map suffix)
  | step :: rest => String.join ((step :: rest).map suffix)

end Path

namespace Path

/-- Takes a step down from the current path, does something there and steps back. -/
def within {α : Type} (step : Step) (walk : StateM Path α) : StateM Path α := do
  modify (· ++ [step])
  let found ← walk
  modify List.dropLast
  return found

/-- What leaves the path as it found it below a step does so above the step too. -/
theorem run_within {α : Type} {step : Step} {walk : StateM Path α} {path : Path} {found : α}
    (h : walk.run (path ++ [step]) = (found, path ++ [step])) :
    (within step walk).run path = (found, path) := by
  have hrun : (within step walk).run path =
      ((walk.run (path ++ [step])).1, (walk.run (path ++ [step])).2.dropLast) := rfl
  rw [hrun, h, List.dropLast_concat]

end Path

namespace Json

def step? : Step → Json → Option Json
  | .key name, .object fields => field? name fields
  | .index position, .array items => items[position]?
  | _, _ => none

def lookup : Path → Json → Option Json
  | [], value => some value
  | step :: path, value => (step? step value).bind (lookup path)

theorem lookup_append (p q : Path) (value : Json) :
    lookup (p ++ q) value = (lookup p value).bind (lookup q) := by
  induction p generalizing value with
  | nil => rfl
  | cons step p ih =>
    simp only [List.cons_append, lookup]
    cases step? step value with
    | none => rfl
    | some next => simpa using ih next

end Json

end PolicyCheck
