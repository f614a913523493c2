import PolicyCheck.Fact.Encoding
import PolicyCheck.Proofs.Json.Leaf
import PolicyCheck.Proofs.Pairs

/-!
# The terms of leaves

The facts about a document are those about its leaves, one for each and in their order. A term consists
of a core and the steps around it. Those around the core of a leaf's term are the path to the leaf, the
step closest to the leaf outermost.
-/

namespace PolicyCheck

/-- The step with a key that fits between double quotes. -/
def Step.escaped : Step → Step
  | .key name => .key (Fact.escape name)
  | .index position => .index position

namespace Fact

def IsTermOf (leaf : Path × Json) (t : Term) : Prop :=
  ∃ terminal, Term.ofScalar? leaf.2 = some terminal ∧ t = terminal.wrap leaf.1

theorem IsTermOf.unique {leaf : Path × Json} {t t' : Term} (h : IsTermOf leaf t)
    (h' : IsTermOf leaf t') : t = t' := by
  obtain ⟨terminal, hterminal, rfl⟩ := h
  obtain ⟨terminal', hterminal', rfl⟩ := h'
  rw [hterminal] at hterminal'
  rw [Option.some.inj hterminal']

mutual

theorem isTermOf_terms (path : Path) (value : Json) :
    List.Forall₂ IsTermOf (value.leavesAt path) (terms path value) := by
  match value with
  | .array items => exact isTermOf_itemTerms path 0 items
  | .object fields => exact isTermOf_fieldTerms path fields
  | .null | .bool _ | .number _ | .string _ => exact .cons ⟨_, rfl, rfl⟩ .nil

theorem isTermOf_itemTerms (path : Path) (position : Nat) (items : List Json) :
    List.Forall₂ IsTermOf (Json.itemLeaves path position items) (itemTerms path position items) := by
  match items with
  | [] => exact .nil
  | item :: items =>
    exact List.rel_append (isTermOf_terms _ item) (isTermOf_itemTerms path (position + 1) items)

theorem isTermOf_fieldTerms (path : Path) (fields : List (String × Json)) :
    List.Forall₂ IsTermOf (Json.fieldLeaves path fields) (fieldTerms path fields) := by
  match fields with
  | [] => exact .nil
  | (key, value) :: fields =>
    exact List.rel_append (isTermOf_terms _ value) (isTermOf_fieldTerms path fields)

end

theorem mem_statements {document : Json} {label : String} {id : Int} {s : Statement} :
    s ∈ statements document label id ↔
      ∃ leaf ∈ document.leaves, ∃ t, IsTermOf leaf t ∧ s = ⟨escape label, id, t⟩ := by
  have hterms := isTermOf_terms [] document
  rw [statements, List.mem_map]
  constructor
  · intro ⟨t, ht, hs⟩
    obtain ⟨leaf, hleaf, hterm⟩ := exists_mem_of_forall₂_right hterms ht
    exact ⟨leaf, hleaf, t, hterm, hs.symm⟩
  · intro ⟨leaf, hleaf, t, hterm, hs⟩
    obtain ⟨t', ht', hterm'⟩ := exists_mem_of_forall₂_left hterms hleaf
    exact ⟨t', ht', by rw [hs, hterm.unique hterm']⟩

namespace Term

def steps : Term → List Step
  | .object key inner => .key key :: inner.steps
  | .array position inner => .index position :: inner.steps
  | _ => []

def core : Term → Term
  | .object _ inner => inner.core
  | .array _ inner => inner.core
  | t => t

def nest : List Step → Term → Term
  | [], t => t
  | .key key :: steps, t => .object key (nest steps t)
  | .index position :: steps, t => .array position (nest steps t)

theorem nest_steps_core (t : Term) : nest t.steps t.core = t := by
  induction t with
  | object key inner ih => exact congrArg (Term.object key) ih
  | array position inner ih => exact congrArg (Term.array position) ih
  | _ => rfl

theorem steps_under (t : Term) (step : Step) : (t.under step).steps = step.escaped :: t.steps := by
  cases step with
  | key name => rfl
  | index position => rfl

theorem core_under (t : Term) (step : Step) : (t.under step).core = t.core := by
  cases step with
  | key name => rfl
  | index position => rfl

theorem steps_wrap (path : Path) (t : Term) :
    (t.wrap path).steps = (path.map Step.escaped).reverse ++ t.steps := by
  induction path generalizing t with
  | nil => rfl
  | cons step path ih =>
    have hwrap : (t.wrap (step :: path)).steps = ((t.under step).wrap path).steps := rfl
    rw [hwrap, ih, steps_under, List.map_cons, List.reverse_cons, List.append_assoc,
      List.singleton_append]

theorem core_wrap (path : Path) (t : Term) : (t.wrap path).core = t.core := by
  induction path generalizing t with
  | nil => rfl
  | cons step path ih => exact (ih (t.under step)).trans (core_under t step)

theorem steps_core_ofScalar {scalar : Json} {t : Term} (h : ofScalar? scalar = some t) :
    t.steps = [] ∧ t.core = t := by
  cases scalar with
  | number n =>
    cases h
    rw [ofNumber]
    split
    · exact ⟨rfl, rfl⟩
    · exact ⟨rfl, rfl⟩
  | array items => cases h
  | object fields => cases h
  | _ =>
    cases h
    exact ⟨rfl, rfl⟩

end Term

end Fact

end PolicyCheck
