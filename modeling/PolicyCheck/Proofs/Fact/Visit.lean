import PolicyCheck.Proofs.Fact.Leaf
import PolicyCheck.Proofs.Json.Lookup

/-!
# The walk over a document

The walk that encodes a document keeps its place as one path, on which each loop puts a step before it
visits an element or a field, and from which it takes a step afterwards. The invariant is that a visit
leaves the path as it found it. So the next visit starts where it should, and the terms are those of the
leaves, each under the path at which its scalar can be looked up.
-/

namespace PolicyCheck

namespace Json

mutual

theorem leavesAt_append (start path : Path) (value : Json) :
    value.leavesAt (start ++ path) = (value.leavesAt path).map (Prod.map (start ++ ·) id) := by
  match value with
  | .array items => exact itemLeaves_append start path 0 items
  | .object fields => exact fieldLeaves_append start path fields
  | .null | .bool _ | .number _ | .string _ => rfl

theorem itemLeaves_append (start path : Path) (position : Nat) (items : List Json) :
    itemLeaves (start ++ path) position items =
      (itemLeaves path position items).map (Prod.map (start ++ ·) id) := by
  match items with
  | [] => rfl
  | item :: items =>
    rw [itemLeaves, itemLeaves, List.map_append, List.append_assoc, leavesAt_append,
      itemLeaves_append]

theorem fieldLeaves_append (start path : Path) (fields : List (String × Json)) :
    fieldLeaves (start ++ path) fields = (fieldLeaves path fields).map (Prod.map (start ++ ·) id) := by
  match fields with
  | [] => rfl
  | (key, value) :: fields =>
    rw [fieldLeaves, fieldLeaves, List.map_append, List.append_assoc, leavesAt_append,
      fieldLeaves_append]

end

theorem leavesAt_eq_map (start : Path) (value : Json) :
    value.leavesAt start = value.leaves.map (Prod.map (start ++ ·) id) := by
  rw [leaves, ← leavesAt_append, List.append_nil]

end Json

namespace Fact

/-! ### The path on the walk -/

theorem run_append {walk walk' : StateM Path (List Term)} {path : Path} {found found' : List Term}
    (h : walk.run path = (found, path)) (h' : walk'.run path = (found', path)) :
    (do return (← walk) ++ (← walk') : StateM Path (List Term)).run path = (found ++ found', path) := by
  have hrun : (do return (← walk) ++ (← walk') : StateM Path (List Term)).run path =
      ((walk.run path).1 ++ (walk'.run (walk.run path).2).1, (walk'.run (walk.run path).2).2) := rfl
  rw [hrun, h, h']

mutual

theorem run_visit (value : Json) (path : Path) :
    (visit value).run path = (terms path value, path) := by
  match value with
  | .array items => exact run_visitItems items path 0
  | .object fields => exact run_visitFields fields path
  | .null | .bool _ | .number _ | .string _ => rfl

theorem run_visitItems (items : List Json) (path : Path) (position : Nat) :
    (visitItems position items).run path = (itemTerms path position items, path) := by
  match items with
  | [] => rfl
  | item :: items =>
    exact run_append (Path.run_within (run_visit item _)) (run_visitItems items path (position + 1))

theorem run_visitFields (fields : List (String × Json)) (path : Path) :
    (visitFields fields).run path = (fieldTerms path fields, path) := by
  match fields with
  | [] => rfl
  | (key, value) :: fields =>
    exact run_append (Path.run_within (run_visit value _)) (run_visitFields fields path)

end

/-! ### Whole documents -/

theorem map_some_terms (start : Path) (document : Json) :
    (terms start document).map some =
      document.leaves.map fun leaf => (Term.ofScalar? leaf.2).map (Term.wrap (start ++ leaf.1)) := by
  have hterms := isTermOf_terms start document
  rw [Json.leavesAt_eq_map, List.forall₂_map_left_iff] at hterms
  rw [← List.forall₂_eq_eq_eq, List.forall₂_map_left_iff, List.forall₂_map_right_iff]
  refine hterms.flip.imp fun t leaf hterm => ?_
  obtain ⟨terminal, hterminal, ht⟩ := hterm
  change Term.ofScalar? leaf.2 = some terminal at hterminal
  rw [hterminal, ht]
  rfl

theorem length_statements (document : Json) (label : String) (id : Int) :
    (statements document label id).length = document.leafCount := by
  rw [statements, List.length_map, ← (isTermOf_terms [] document).length_eq, Json.length_leavesAt]

/-- The walk visits the scalars that can be looked up in a document, each once and in the order of their
paths, and leaves the path as it found it. There are as many facts as scalars, none of them below an empty
container. -/
theorem visit_leaves {document : Json} (hordered : document.Ordered) (start : Path) :
    (∀ path scalar, (path, scalar) ∈ document.leaves ↔
      document.lookup path = some scalar ∧ scalar.IsScalar) ∧
    (document.leaves.map Prod.fst).Pairwise Path.Before ∧
    (document.leaves.map Prod.fst).Nodup ∧
    (∃ found, (visit document).run start = (found, start) ∧
      found.map some =
        document.leaves.map fun leaf => (Term.ofScalar? leaf.2).map (Term.wrap (start ++ leaf.1))) ∧
    (∀ label id, statements document label id =
      ((visit document).run []).1.map (Statement.mk (escape label) id)) ∧
    (∀ label id, (lines document label id).length = document.leaves.length ∧
      (rows document label id).length = document.leaves.length) ∧
    document.leaves.length = document.leafCount ∧
    (∀ path container, document.lookup path = some container →
      container = .array [] ∨ container = .object [] → ∀ leaf ∈ document.leaves, ¬ path <+: leaf.1) ∧
    (∀ path t, Term.wrap (start ++ path) t = Term.wrap path (Term.wrap start t)) := by
  have hcount : document.leaves.length = document.leafCount := document.length_leavesAt []
  refine ⟨fun path scalar => hordered.mem_leaves_iff, List.pairwise_map.2 (hordered.pairwise_leavesAt []),
    hordered.nodup_paths, ⟨_, run_visit document start, map_some_terms start document⟩, ?_, ?_, hcount,
    ?_, ?_⟩
  · intro label id
    rw [run_visit, statements]
  · intro label id
    rw [lines, rows, List.length_map, List.length_map, length_statements, hcount]
    exact ⟨rfl, rfl⟩
  · intro path container hcontainer hempty leaf hleaf
    exact hordered.not_prefix_of_empty hcontainer hempty hleaf
  · intro path t
    exact Term.wrap_append start path t

/-- A document with an empty container and with equal scalars in an array and in an object. -/
def branched : Json := .object [("a", .array [.number (.int 1), .object [("b", .number (.int 1))]]),
  ("c", .array [])]

theorem ordered_branched : branched.Ordered := by
  have hinner : (Json.object [("b", .number (.int 1))]).Ordered :=
    .object (List.pairwise_singleton _ _) (List.forall_mem_singleton.2 (.number _))
  have hitems : ∀ item ∈ [.number (.int 1), .object [("b", .number (.int 1))]], Json.Ordered item :=
    List.forall_mem_cons.2 ⟨.number _, List.forall_mem_singleton.2 hinner⟩
  have hempty : (Json.array []).Ordered := .array (List.forall_mem_nil _)
  refine .object (List.pairwise_pair.2 (by decide)) ?_
  exact List.forall_mem_cons.2 ⟨.array hitems, List.forall_mem_singleton.2 hempty⟩

theorem visit_leaves_branched : branched.Ordered ∧
    (visit branched).run [.key "root"] =
      ([.array 0 (.object "a" (.object "root" (.int 1))),
        .object "b" (.array 1 (.object "a" (.object "root" (.int 1))))], [.key "root"]) ∧
    branched.leafCount = 2 := by
  obtain ⟨-, -, -, ⟨found, hrun, hfound⟩, -, -, hcount, -⟩ :=
    visit_leaves ordered_branched [.key "root"]
  have hterms : found.map some = [.array 0 (.object "a" (.object "root" (.int 1))),
      .object "b" (.array 1 (.object "a" (.object "root" (.int 1))))].map some := hfound
  refine ⟨ordered_branched, ?_, hcount⟩
  rw [hrun, (List.map_inj_right fun _ _ => Option.some.inj).1 hterms]

end Fact

end PolicyCheck
