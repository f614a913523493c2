import Mathlib.Data.Set.Finite.Basic
import PolicyCheck.Proofs.Datalog.DocumentRules
import PolicyCheck.Proofs.Fact.Reading

/-!
# Paths rebuilt by rules

The rules of the prelude walk from the term of a leaf to its core, one constructor at a time, and put the
text of each step in front of what they have. The encoder nests the steps the other way round, the root's
step innermost, so that what a walk has at the core is the whole path, root first, with a point in front
if the path starts with a key.

A walk visits finitely many terms. `consequences` lists what the rules derive along it, and
`least_documentRules` says that the least contents closed under the rules are these lists: they are
closed, and closed contents that hold the facts hold them.
-/

namespace PolicyCheck.Fact

open Datalog (Datum Tuple Contents WalksClosed startsWithPoint)

namespace Term

def datum : Term → Datum
  | .int n => .single "$Int" (.number n)
  | .float digits => .single "$Float" (.float digits)
  | .string text => .single "$String" (.symbol text)
  | .bool b => .single "$Bool" (.number (if b then 1 else 0))
  | .null => .empty "$Null"
  | .object key inner => .pair "$Object" (.symbol key) inner.datum
  | .array position inner => .pair "$Array" (.number position) inner.datum

theorem eq_object_of_datum {t : Term} {k v : Datum} (h : t.datum = .pair "$Object" k v) :
    ∃ key inner, t = .object key inner ∧ k = .symbol key ∧ v = inner.datum := by
  cases t with
  | object key inner =>
    cases h
    exact ⟨key, inner, rfl, rfl, rfl⟩
  | array position inner => simp [datum] at h
  | _ => cases h

theorem eq_array_of_datum {t : Term} {k v : Datum} (h : t.datum = .pair "$Array" k v) :
    ∃ position inner, t = .array position inner ∧ k = .number position ∧ v = inner.datum := by
  cases t with
  | object key inner => simp [datum] at h
  | array position inner =>
    cases h
    exact ⟨position, inner, rfl, rfl, rfl⟩
  | _ => cases h

theorem steps_of_datum_single {t : Term} {constructor : String} {x : Datum}
    (h : t.datum = .single constructor x) : t.steps = [] := by
  cases t with
  | object key inner => cases h
  | array position inner => cases h
  | _ => rfl

theorem steps_of_datum_empty {t : Term} {constructor : String} (h : t.datum = .empty constructor) :
    t.steps = [] := by
  cases t with
  | object key inner => cases h
  | array position inner => cases h
  | _ => rfl

/-- The terms that a walk visits, each with the path below it. -/
def walk (suffix : String) : Term → List (Term × String)
  | .object key inner =>
    (.object key inner, suffix) :: inner.walk (Path.suffix (.key key) ++ suffix)
  | .array position inner =>
    (.array position inner, suffix) :: inner.walk (Path.suffix (.index position) ++ suffix)
  | t => [(t, suffix)]

def trail (t : Term) : String := String.join (t.steps.reverse.map Path.suffix)

theorem self_mem_walk (suffix : String) (t : Term) : (t, suffix) ∈ t.walk suffix := by
  cases t with
  | _ => exact List.mem_cons_self

def peel? : Term → Option (Step × Term)
  | .object key inner => some (.key key, inner)
  | .array position inner => some (.index position, inner)
  | _ => none

theorem peel_mem_walk {suffix below : String} {t u inner : Term} {step : Step}
    (hpeel : u.peel? = some (step, inner)) (h : (u, below) ∈ t.walk suffix) :
    (inner, Path.suffix step ++ below) ∈ t.walk suffix := by
  induction t generalizing suffix with
  | object key next ih =>
    rcases List.mem_cons.1 h with h | h
    · cases h
      cases hpeel
      exact List.mem_cons_of_mem _ (self_mem_walk _ _)
    · exact List.mem_cons_of_mem _ (ih h)
  | array position next ih =>
    rcases List.mem_cons.1 h with h | h
    · cases h
      cases hpeel
      exact List.mem_cons_of_mem _ (self_mem_walk _ _)
    · exact List.mem_cons_of_mem _ (ih h)
  | _ =>
    cases List.mem_singleton.1 h
    cases hpeel

theorem steps_core (t : Term) : t.core.steps = [] := by
  induction t with
  | object key inner ih => exact ih
  | array position inner ih => exact ih
  | _ => rfl

theorem trail_object (key : String) (inner : Term) :
    (object key inner).trail = inner.trail ++ Path.suffix (.key key) := by
  simp [trail, steps, String.join_append]

theorem trail_array (position : Nat) (inner : Term) :
    (array position inner).trail = inner.trail ++ Path.suffix (.index position) := by
  simp [trail, steps, String.join_append]

theorem mem_walk_iff_core {suffix below : String} {t u : Term} (hu : u.steps = []) :
    (u, below) ∈ t.walk suffix ↔ u = t.core ∧ below = t.trail ++ suffix := by
  induction t generalizing suffix with
  | object key next ih =>
    rw [walk, List.mem_cons, ih, trail_object, String.append_assoc, core, or_iff_right]
    intro h
    cases h
    cases hu
  | array position next ih =>
    rw [walk, List.mem_cons, ih, trail_array, String.append_assoc, core, or_iff_right]
    intro h
    cases h
    cases hu
  | _ => simp [walk, core, trail, steps]

end Term

def withoutPoint (text : String) : String :=
  if startsWithPoint text then String.ofList text.toList.tail else text

/-- Only a path that starts with a key has a point in front, as the text of its steps. -/
theorem withoutPoint_join (path : Path) :
    withoutPoint (String.join (path.map Path.suffix)) = path.bracketed := by
  cases path with
  | nil => rfl
  | cons step path =>
    rw [List.map_cons, String.join_cons]
    cases step with
    | key name =>
      have hpoint :
          startsWithPoint (Path.suffix (.key name) ++ String.join (path.map Path.suffix)) := by
        simp [startsWithPoint, Path.suffix]
      rw [withoutPoint, if_pos hpoint, Path.bracketed]
      apply String.toList_inj.1
      simp [Path.suffix]
    | index position =>
      have hpoint : ¬ startsWithPoint
          (Path.suffix (.index position) ++ String.join (path.map Path.suffix)) := by
        simp [startsWithPoint, Path.suffix]
      rw [withoutPoint, if_neg hpoint, Path.bracketed, List.map_cons, String.join_cons]
      exact fun _ h => nomatch h

namespace Statement

def tuple (s : Statement) : Tuple := [.symbol s.label, .number s.id, s.term.datum]

def walkTuple (s : Statement) (visited : Term × String) : Tuple :=
  [.symbol s.label, .number s.id, visited.1.datum, .symbol visited.2]

def keyTuple? (s : Statement) : Term × String → Option Tuple
  | (.object key _, suffix) => some [.symbol s.label, .number s.id, .symbol key, .symbol suffix]
  | _ => none

def indexTuple? (s : Statement) : Term × String → Option Tuple
  | (.array position _, suffix) =>
    some [.symbol s.label, .number s.id, .number position, .symbol suffix]
  | _ => none

def path (s : Statement) : String := withoutPoint s.term.trail

/-- What the rules derive from a fact, and the fact, by relations. -/
def consequences (s : Statement) : List (String × List Tuple) := [
  ("json", [s.tuple]),
  ("json_walk", (s.term.walk "").map s.walkTuple),
  ("json_leaf", [s.walkTuple (s.term.core, s.term.trail)]),
  ("json_path", [[.symbol s.label, .number s.id, .symbol s.path, s.term.core.datum]]),
  ("json_object_key", (s.term.walk "").filterMap s.keyTuple?),
  ("json_array_index", (s.term.walk "").filterMap s.indexTuple?)]

end Statement

def closure (statements : List Statement) : Contents :=
  fun r => {tuple | ∃ s ∈ statements, ∃ row ∈ s.consequences, row.1 = r ∧ tuple ∈ row.2}

section Closure

variable {statements : List Statement} {tuple : Tuple}

theorem finite_closure (statements : List Statement) :
    {row : String × Tuple | row.2 ∈ closure statements row.1}.Finite := by
  have hlist := List.finite_toSet (statements.flatMap fun s =>
    s.consequences.flatMap fun row => row.2.map (Prod.mk row.1))
  refine hlist.subset fun row hrow => ?_
  obtain ⟨s, hs, tuples, htuples, hname, hmem⟩ := hrow
  have hpair : row ∈ tuples.2.map (Prod.mk tuples.1) :=
    List.mem_map.2 ⟨row.2, hmem, by rw [hname]⟩
  exact List.mem_flatMap.2 ⟨s, hs, List.mem_flatMap.2 ⟨tuples, htuples, hpair⟩⟩

theorem mem_closure_json : tuple ∈ closure statements "json" ↔ ∃ s ∈ statements, s.tuple = tuple := by
  simp [closure, Statement.consequences, eq_comm]

theorem mem_closure_walk {n i v below : Datum} : [n, i, v, below] ∈ closure statements "json_walk" ↔
    ∃ s ∈ statements, ∃ t suffix, (t, suffix) ∈ s.term.walk "" ∧
      n = .symbol s.label ∧ i = .number s.id ∧ v = t.datum ∧ below = .symbol suffix := by
  simp [closure, Statement.consequences, Statement.walkTuple, eq_comm]

theorem mem_closure_leaf : tuple ∈ closure statements "json_leaf" ↔
    ∃ s ∈ statements, s.walkTuple (s.term.core, s.term.trail) = tuple := by
  simp [closure, Statement.consequences, eq_comm]

theorem mem_closure_path : tuple ∈ closure statements "json_path" ↔ ∃ s ∈ statements,
    [.symbol s.label, .number s.id, .symbol s.path, s.term.core.datum] = tuple := by
  simp [closure, Statement.consequences, eq_comm]

theorem mem_closure_key : tuple ∈ closure statements "json_object_key" ↔
    ∃ s ∈ statements, ∃ visited ∈ s.term.walk "", s.keyTuple? visited = some tuple := by
  simp [closure, Statement.consequences]

theorem mem_closure_index : tuple ∈ closure statements "json_array_index" ↔
    ∃ s ∈ statements, ∃ visited ∈ s.term.walk "", s.indexTuple? visited = some tuple := by
  simp [closure, Statement.consequences]

theorem mem_closure_leaf_of_core {s : Statement} (hs : s ∈ statements) {t : Term} {suffix : String}
    (hmem : (t, suffix) ∈ s.term.walk "") (hcore : t.steps = []) :
    [.symbol s.label, .number s.id, t.datum, .symbol suffix] ∈ closure statements "json_leaf" := by
  obtain ⟨rfl, rfl⟩ := (Term.mem_walk_iff_core hcore).1 hmem
  rw [String.append_empty]
  exact mem_closure_leaf.2 ⟨s, hs, rfl⟩

theorem walksClosed_closure (statements : List Statement) : WalksClosed (closure statements) where
  start := by
    intro n i v h
    obtain ⟨s, hs, htuple⟩ := mem_closure_json.1 h
    cases htuple
    exact mem_closure_walk.2 ⟨s, hs, s.term, "", s.term.self_mem_walk "", rfl, rfl, rfl, rfl⟩
  field := by
    intro n i k v below h
    obtain ⟨s, hs, t, suffix, hmem, hn, hi, hdatum, hbelow⟩ := mem_closure_walk.1 h
    obtain ⟨key, inner, rfl, hkey, hv⟩ := Term.eq_object_of_datum hdatum.symm
    cases hkey
    cases hbelow
    refine mem_closure_walk.2 ⟨s, hs, inner, _, Term.peel_mem_walk rfl hmem, hn, hi, hv, ?_⟩
    rw [Path.suffix, String.append_assoc]
  element := by
    intro n i m v below h
    obtain ⟨s, hs, t, suffix, hmem, hn, hi, hdatum, hbelow⟩ := mem_closure_walk.1 h
    obtain ⟨position, inner, rfl, hposition, hv⟩ := Term.eq_array_of_datum hdatum.symm
    cases hposition
    cases hbelow
    refine mem_closure_walk.2 ⟨s, hs, inner, _, Term.peel_mem_walk rfl hmem, hn, hi, hv, ?_⟩
    rw [Path.suffix, String.append_assoc, String.append_assoc]
    rfl
  leaf := by
    intro constructor _ n i x below h
    obtain ⟨s, hs, t, suffix, hmem, rfl, rfl, hdatum, rfl⟩ := mem_closure_walk.1 h
    rw [hdatum]
    exact mem_closure_leaf_of_core hs hmem (Term.steps_of_datum_single hdatum.symm)
  null := by
    intro n i below h
    obtain ⟨s, hs, t, suffix, hmem, rfl, rfl, hdatum, rfl⟩ := mem_closure_walk.1 h
    rw [hdatum]
    exact mem_closure_leaf_of_core hs hmem (Term.steps_of_datum_empty hdatum.symm)
  pointed := by
    intro n i v below h hpoint
    obtain ⟨s, hs, htuple⟩ := mem_closure_leaf.1 h
    cases htuple
    exact mem_closure_path.2 ⟨s, hs, by rw [Statement.path, withoutPoint, if_pos hpoint]⟩
  unpointed := by
    intro n i v below h hpoint
    obtain ⟨s, hs, htuple⟩ := mem_closure_leaf.1 h
    cases htuple
    exact mem_closure_path.2 ⟨s, hs, by rw [Statement.path, withoutPoint, if_neg hpoint]⟩
  key := by
    intro n i k v below h
    obtain ⟨s, hs, t, suffix, hmem, rfl, rfl, hdatum, rfl⟩ := mem_closure_walk.1 h
    obtain ⟨key, inner, rfl, rfl, -⟩ := Term.eq_object_of_datum hdatum.symm
    exact mem_closure_key.2 ⟨s, hs, _, hmem, rfl⟩
  index := by
    intro n i m v below h
    obtain ⟨s, hs, t, suffix, hmem, rfl, rfl, hdatum, rfl⟩ := mem_closure_walk.1 h
    obtain ⟨position, inner, rfl, rfl, -⟩ := Term.eq_array_of_datum hdatum.symm
    exact mem_closure_index.2 ⟨s, hs, _, hmem, rfl⟩

end Closure

section Derivation

variable {contents : Contents}

theorem walk_mem (hclosed : WalksClosed contents) {n i : Datum} {t : Term} {suffix : String}
    (h : [n, i, t.datum, .symbol suffix] ∈ contents "json_walk") :
    ∀ visited ∈ t.walk suffix,
      [n, i, visited.1.datum, .symbol visited.2] ∈ contents "json_walk" := by
  induction t generalizing suffix with
  | object key inner ih =>
    refine List.forall_mem_cons.2 ⟨h, ih ?_⟩
    rw [Path.suffix, String.append_assoc]
    exact hclosed.field _ _ _ _ _ h
  | array position inner ih =>
    have hshown : toString (position : Int) = toString position := rfl
    refine List.forall_mem_cons.2 ⟨h, ih ?_⟩
    rw [Path.suffix, String.append_assoc, String.append_assoc, ← hshown]
    exact hclosed.element _ _ _ _ _ h
  | _ =>
    intro visited hvisited
    rw [List.mem_singleton.1 hvisited]
    exact h

theorem leaf_mem (hclosed : WalksClosed contents) {n i below : Datum} {t : Term} (ht : t.steps = [])
    (h : [n, i, t.datum, below] ∈ contents "json_walk") :
    [n, i, t.datum, below] ∈ contents "json_leaf" := by
  cases t with
  | null => exact hclosed.null _ _ _ h
  | object key inner => cases ht
  | array position inner => cases ht
  | int n => exact hclosed.leaf "$Int" (by decide) _ _ _ _ h
  | float digits => exact hclosed.leaf "$Float" (by decide) _ _ _ _ h
  | string text => exact hclosed.leaf "$String" (by decide) _ _ _ _ h
  | bool b => exact hclosed.leaf "$Bool" (by decide) _ _ _ _ h

theorem consequences_mem (hclosed : WalksClosed contents) {s : Statement}
    (hs : s.tuple ∈ contents "json") :
    ∀ row ∈ s.consequences, ∀ tuple ∈ row.2, tuple ∈ contents row.1 := by
  have hwalk := walk_mem hclosed (hclosed.start _ _ _ hs)
  have hcore : (s.term.core, s.term.trail) ∈ s.term.walk "" :=
    (Term.mem_walk_iff_core s.term.steps_core).2 ⟨rfl, (String.append_empty).symm⟩
  have hleaf := leaf_mem hclosed s.term.steps_core (hwalk _ hcore)
  rw [Statement.consequences]
  simp only [List.forall_mem_cons, List.forall_mem_map, List.not_mem_nil, false_imp_iff,
    implies_true, and_true]
  refine ⟨hs, hwalk, hleaf, ?_, ?_, ?_⟩
  · rw [Statement.path, withoutPoint]
    split
    next hpoint => exact hclosed.pointed _ _ _ _ hleaf hpoint
    next hpoint => exact hclosed.unpointed _ _ _ _ hleaf hpoint
  · intro tuple htuple
    obtain ⟨⟨t, suffix⟩, hmem, hkey⟩ := List.mem_filterMap.1 htuple
    cases t with
    | object key inner =>
      cases hkey
      exact hclosed.key _ _ _ _ _ (hwalk _ hmem)
    | _ => cases hkey
  · intro tuple htuple
    obtain ⟨⟨t, suffix⟩, hmem, hindex⟩ := List.mem_filterMap.1 htuple
    cases t with
    | array position inner =>
      cases hindex
      exact hclosed.index _ _ _ _ _ (hwalk _ hmem)
    | _ => cases hindex

end Derivation

/-- The contents of the relations that lines of facts give. -/
def factsOf (lines : List String) : Contents :=
  fun r => {tuple | r = relation ∧ ∃ line ∈ lines, ∃ s, Statement.Reads line s ∧ s.tuple = tuple}

theorem mem_factsOf_lines {document : Json} (hsound : document.Sound) (label : String) (id : Int)
    {r : String} {tuple : Tuple} : tuple ∈ factsOf (lines document label id) r ↔
      r = relation ∧ ∃ s ∈ statements document label id, s.tuple = tuple := by
  refine and_congr_right fun _ => ?_
  constructor
  · intro ⟨line, hline, s, hreads, htuple⟩
    obtain ⟨s', hs', rfl⟩ := List.mem_map.1 hline
    rw [hreads.unique (reads_of_mem_statements hsound hs') rfl] at htuple
    exact ⟨s', hs', htuple⟩
  · intro ⟨s, hs, htuple⟩
    exact ⟨s.text, List.mem_map_of_mem hs, s, reads_of_mem_statements hsound hs, htuple⟩

theorem least_documentRules {document : Json} (hsound : document.Sound) (label : String) (id : Int) :
    Datalog.least Datalog.documentRules (factsOf (lines document label id)) =
      closure (statements document label id) := by
  apply le_antisymm
  · refine Datalog.least_le ?_ (Datalog.closed_documentRules.2 (walksClosed_closure _))
    intro r tuple htuple
    obtain ⟨rfl, s, hs, hs_tuple⟩ := (mem_factsOf_lines hsound label id).1 htuple
    exact mem_closure_json.2 ⟨s, hs, hs_tuple⟩
  · intro r tuple ⟨s, hs, row, hrow, hname, htuple⟩
    have hclosed : WalksClosed
        (Datalog.least Datalog.documentRules (factsOf (lines document label id))) :=
      Datalog.closed_documentRules.1 Datalog.closed_least
    have hfact : s.tuple ∈ factsOf (lines document label id) "json" :=
      (mem_factsOf_lines hsound label id).2 ⟨rfl, s, hs, rfl⟩
    rw [← hname]
    exact consequences_mem hclosed (Datalog.facts_le_least "json" hfact) row hrow tuple htuple

/-- The rules of the prelude find for each leaf of a document its path and its value, and no other path.
What they derive is finite. -/
theorem rebuilt_paths {document : Json} (hsound : document.Sound)
    (hkeys : ∀ leaf ∈ document.leaves, ∀ name, Step.key name ∈ leaf.1 → Quotable name)
    (label : String) (id : Int) :
    Datalog.PreludeFile.documents.lines.filter Datalog.isRuleLine = Datalog.documentLines ∧
    {row : String × Tuple | row.2 ∈
      Datalog.least Datalog.documentRules (factsOf (lines document label id)) row.1}.Finite ∧
    Datalog.least Datalog.documentRules (factsOf (lines document label id)) "json_path" =
      {tuple | ∃ leaf ∈ document.leaves, ∃ terminal, Term.ofScalar? leaf.2 = some terminal ∧
        tuple = [.symbol (escape label), .number id, .symbol leaf.1.bracketed, terminal.datum]} := by
  -- What remains is about one leaf: the steps of its term, outermost first, are its path reversed.
  rw [least_documentRules hsound]
  refine ⟨Datalog.filter_isRuleLine_documents, finite_closure _, ?_⟩
  have hpath {leaf : Path × Json} (hleaf : leaf ∈ document.leaves) {terminal : Term}
      (hterminal : Term.ofScalar? leaf.2 = some terminal) :
      withoutPoint (terminal.wrap leaf.1).trail = leaf.1.bracketed ∧
        (terminal.wrap leaf.1).core = terminal := by
    obtain ⟨hsteps, hcore⟩ := Term.steps_core_ofScalar hterminal
    constructor
    · rw [Term.trail, Term.steps_wrap, hsteps, List.append_nil, List.reverse_reverse,
        escaped_of_quotable (hkeys leaf hleaf), withoutPoint_join]
    · rw [Term.core_wrap, hcore]
  ext tuple
  rw [mem_closure_path]
  constructor
  · intro ⟨s, hs, htuple⟩
    obtain ⟨leaf, hleaf, t, ⟨terminal, hterminal, rfl⟩, rfl⟩ := mem_statements.1 hs
    obtain ⟨htrail, hcore⟩ := hpath hleaf hterminal
    refine ⟨leaf, hleaf, terminal, hterminal, ?_⟩
    rw [← htuple, Statement.path, htrail, hcore]
  · intro ⟨leaf, hleaf, terminal, hterminal, htuple⟩
    obtain ⟨htrail, hcore⟩ := hpath hleaf hterminal
    refine ⟨_, mem_statements.2 ⟨leaf, hleaf, _, ⟨terminal, hterminal, rfl⟩, rfl⟩, ?_⟩
    rw [htuple, Statement.path, htrail, hcore]

/-- A document with an empty key and with an object in an array. -/
def nested : Json := .object [("", .bool true),
  ("a", .array [.number (.int 1), .object [("b", .string "x")]])]

theorem leaves_nested : nested.leaves = [([.key ""], .bool true),
    ([.key "a", .index 0], .number (.int 1)), ([.key "a", .index 1, .key "b"], .string "x")] := rfl

theorem rebuilt_paths_nested :
    nested.Sound ∧
    (∀ leaf ∈ nested.leaves, ∀ name, Step.key name ∈ leaf.1 → Quotable name) ∧
    Datalog.least Datalog.documentRules (factsOf (lines nested "p" 7)) "json_path" = {
      [.symbol "p", .number 7, .symbol "", .single "$Bool" (.number 1)],
      [.symbol "p", .number 7, .symbol "a[0]", .single "$Int" (.number 1)],
      [.symbol "p", .number 7, .symbol "a[1].b", .single "$String" (.symbol "x")]} := by
  have hinner : (Json.object [("b", .string "x")]).Sound :=
    .object (List.forall_mem_singleton.2 (.string "x"))
  have hitems : ∀ item ∈ [.number (.int 1), .object [("b", .string "x")]], Json.Sound item :=
    List.forall_mem_cons.2 ⟨.number (.inl (by decide)), List.forall_mem_singleton.2 hinner⟩
  have hsound : nested.Sound := .object
    (List.forall_mem_cons.2 ⟨.bool true, List.forall_mem_singleton.2 (.array hitems)⟩)
  have hkeys : ∀ leaf ∈ nested.leaves, ∀ name, Step.key name ∈ leaf.1 → Quotable name := by
    rw [leaves_nested]
    simp [Quotable]
  refine ⟨hsound, hkeys, ?_⟩
  rw [(rebuilt_paths hsound hkeys "p" 7).2.2, leaves_nested]
  have hlabel : escape "p" = "p" := by rfl
  have htext : escape "x" = "x" := by rfl
  have hempty : Path.bracketed [.key ""] = "" := by rfl
  have hfirst : Path.bracketed [.key "a", .index 0] = "a[0]" := by rfl
  have hsecond : Path.bracketed [.key "a", .index 1, .key "b"] = "a[1].b" := by rfl
  have hnumber : Term.ofNumber (.int 1) = .int 1 := by rfl
  ext tuple
  simp [Term.ofScalar?, Term.datum, hlabel, htext, hempty, hfirst, hsecond, hnumber]

end PolicyCheck.Fact
