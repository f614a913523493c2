import PolicyCheck.Datalog.PreludeFile
import PolicyCheck.Proofs.Datalog.Rule

/-!
# The rules of the prelude

The rules about documents as data. Their lines are those of the prelude's file that are neither blank nor
comments nor declarations. What else there is to say about the rules goes through
`closed_documentRules`: contents to which they add nothing are those that meet one condition for each
rule, with the variables of the rule bound.
-/

namespace PolicyCheck.Datalog

/-- Whether a line belongs to a rule: it is neither blank nor a comment nor a declaration. -/
def isRuleLine (line : String) : Bool :=
  match line.toByteArray.data.toList with
  | [] => false
  | first :: _ => first != '/'.toUInt8 && first != '.'.toUInt8

namespace Rule

/-- The lines of conditions, each on a line of its own. -/
def conditionLines : List Literal → List String
  | [] => []
  | [l] => ["    " ++ l.text ++ "."]
  | l :: ls => ("    " ++ l.text ++ ",") :: conditionLines ls

/-- The lines of the rule with its conditions on lines of their own. -/
def brokenLines (r : Rule) : List String := (r.head.text ++ " :-") :: conditionLines r.body

end Rule

def startRule : Rule where
  head := ⟨"json_walk", [.var "name", .var "id", .var "leaf", .symbol ""]⟩
  body := [.atom ⟨"json", [.var "name", .var "id", .var "leaf"]⟩]

def fieldRule : Rule where
  head := ⟨"json_walk", [.var "name", .var "id", .var "inner",
    .cat (.symbol ".") (.cat (.var "key") (.var "suffix"))]⟩
  body := [.atom ⟨"json_walk",
    [.var "name", .var "id", .pair "$Object" (.var "key") (.var "inner"), .var "suffix"]⟩]

def elementRule : Rule where
  head := ⟨"json_walk", [.var "name", .var "id", .var "inner",
    .cat (.symbol "[") (.cat (.decimal (.var "index")) (.cat (.symbol "]") (.var "suffix")))]⟩
  body := [.atom ⟨"json_walk",
    [.var "name", .var "id", .pair "$Array" (.var "index") (.var "inner"), .var "suffix"]⟩]

def leafRule (value : Argument) : Rule where
  head := ⟨"json_leaf", [.var "name", .var "id", value, .var "suffix"]⟩
  body := [.atom ⟨"json_walk", [.var "name", .var "id", value, .var "suffix"]⟩]

/-- The relation of leaves, as both rules for paths read it. -/
def leafAtom : Atom := ⟨"json_leaf", [.var "name", .var "id", .var "value", .var "suffix"]⟩

/-- The path of a leaf drops a point in front. -/
def pointedRule : Rule where
  head := ⟨"json_path", [.var "name", .var "id",
    .slice (.var "suffix") (.number 1) (.minus (.length (.var "suffix")) (.number 1)), .var "value"]⟩
  body := [.atom leafAtom, .pointed (.var "suffix")]

/-- The path of a leaf without a point in front. -/
def unpointedRule : Rule where
  head := ⟨"json_path", [.var "name", .var "id", .var "suffix", .var "value"]⟩
  body := [.atom leafAtom, .unpointed (.var "suffix")]

/-- A step that a walk meets, with the path below it. -/
def stepRule (relation constructor step : String) : Rule where
  head := ⟨relation, [.var "name", .var "id", .var step, .var "suffix"]⟩
  body := [.atom ⟨"json_walk",
    [.var "name", .var "id", .pair constructor (.var step) .any, .var "suffix"]⟩]

def scalarConstructors : List String := ["$Int", "$Float", "$String", "$Bool"]

/-- The rules of the prelude in their order, with whether their conditions are on lines of their own. -/
def documentLayout : List (Rule × Bool) := [
  (startRule, false), (fieldRule, true), (elementRule, true)] ++
  (scalarConstructors.map fun constructor => (leafRule (.single constructor (.var "x")), false)) ++ [
  (leafRule (.empty "$Null"), false), (pointedRule, true), (unpointedRule, true),
  (stepRule "json_object_key" "$Object" "key", false),
  (stepRule "json_array_index" "$Array" "index", false)]

def documentRules : List Rule := documentLayout.map Prod.fst

def documentLines : List String :=
  documentLayout.flatMap fun (r, broken) => if broken then r.brokenLines else [r.text]

theorem filter_isRuleLine_documents :
    PreludeFile.documents.lines.filter isRuleLine = documentLines := by
  rfl

def valuation : List (String × Datum) → String → Datum
  | [], _ => .number 0
  | (name, value) :: bindings, x => if x = name then value else valuation bindings x

section AddsNothing

variable {contents : Contents}

theorem addsNothing_startRule : startRule.AddsNothing contents ↔
    ∀ n i v, [n, i, v] ∈ contents "json" → [n, i, v, .symbol ""] ∈ contents "json_walk" := by
  constructor
  · intro h n i v hfact
    refine h _ ⟨valuation [("name", n), ("id", i), ("leaf", v)], ?_, ?_⟩
    · simpa [startRule, Literal.Holds, valuation, List.forall₂_cons_left_iff] using hfact
    · simp [startRule, valuation, List.forall₂_cons_left_iff]
  · intro h tuple ⟨env, hbody, hhead⟩
    have hfact : [env "name", env "id", env "leaf"] ∈ contents "json" := by
      simpa [startRule, Literal.Holds, List.forall₂_cons_left_iff] using hbody
    obtain rfl : tuple = [env "name", env "id", env "leaf", .symbol ""] := by
      simpa [startRule, List.forall₂_cons_left_iff] using hhead
    exact h _ _ _ hfact

theorem addsNothing_fieldRule : fieldRule.AddsNothing contents ↔
    ∀ n i k v s, [n, i, .pair "$Object" (.symbol k) v, .symbol s] ∈ contents "json_walk" →
      [n, i, v, .symbol ("." ++ (k ++ s))] ∈ contents "json_walk" := by
  constructor
  · intro h n i k v s hwalk
    refine h _ ⟨valuation [("name", n), ("id", i), ("key", .symbol k), ("inner", v),
      ("suffix", .symbol s)], ?_, ?_⟩
    · simpa [fieldRule, Literal.Holds, valuation, List.forall₂_cons_left_iff] using hwalk
    · simp [fieldRule, valuation, List.forall₂_cons_left_iff]
  · intro h tuple ⟨env, hbody, hhead⟩
    have hwalk : [env "name", env "id", .pair "$Object" (env "key") (env "inner"), env "suffix"] ∈
        contents "json_walk" := by
      simpa [fieldRule, Literal.Holds, List.forall₂_cons_left_iff] using hbody
    obtain ⟨k, s, ⟨hk, hs⟩, rfl⟩ : ∃ k s, (env "key" = .symbol k ∧ env "suffix" = .symbol s) ∧
        tuple = [env "name", env "id", env "inner", .symbol ("." ++ (k ++ s))] := by
      simpa [fieldRule, List.forall₂_cons_left_iff] using hhead
    rw [hk, hs] at hwalk
    exact h _ _ _ _ _ hwalk

theorem addsNothing_elementRule : elementRule.AddsNothing contents ↔
    ∀ n i m v s, [n, i, .pair "$Array" (.number m) v, .symbol s] ∈ contents "json_walk" →
      [n, i, v, .symbol ("[" ++ (toString m ++ ("]" ++ s)))] ∈ contents "json_walk" := by
  constructor
  · intro h n i m v s hwalk
    refine h _ ⟨valuation [("name", n), ("id", i), ("index", .number m), ("inner", v),
      ("suffix", .symbol s)], ?_, ?_⟩
    · simpa [elementRule, Literal.Holds, valuation, List.forall₂_cons_left_iff] using hwalk
    · simp [elementRule, valuation, List.forall₂_cons_left_iff]
  · intro h tuple ⟨env, hbody, hhead⟩
    have hwalk : [env "name", env "id", .pair "$Array" (env "index") (env "inner"), env "suffix"] ∈
        contents "json_walk" := by
      simpa [elementRule, Literal.Holds, List.forall₂_cons_left_iff] using hbody
    obtain ⟨m, s, ⟨hm, hs⟩, rfl⟩ : ∃ m s, (env "index" = .number m ∧ env "suffix" = .symbol s) ∧
        tuple = [env "name", env "id", env "inner",
          .symbol ("[" ++ (toString m ++ ("]" ++ s)))] := by
      simpa [elementRule, List.forall₂_cons_left_iff] using hhead
    rw [hm, hs] at hwalk
    exact h _ _ _ _ _ hwalk

theorem addsNothing_leafRule (constructor : String) :
    (leafRule (.single constructor (.var "x"))).AddsNothing contents ↔
      ∀ n i x s, [n, i, .single constructor x, s] ∈ contents "json_walk" →
        [n, i, .single constructor x, s] ∈ contents "json_leaf" := by
  constructor
  · intro h n i x s hwalk
    refine h _ ⟨valuation [("name", n), ("id", i), ("x", x), ("suffix", s)], ?_, ?_⟩
    · simpa [leafRule, Literal.Holds, valuation, List.forall₂_cons_left_iff] using hwalk
    · simp [leafRule, valuation, List.forall₂_cons_left_iff]
  · intro h tuple ⟨env, hbody, hhead⟩
    have hwalk : [env "name", env "id", .single constructor (env "x"), env "suffix"] ∈
        contents "json_walk" := by
      simpa [leafRule, Literal.Holds, List.forall₂_cons_left_iff] using hbody
    obtain rfl : tuple = [env "name", env "id", .single constructor (env "x"), env "suffix"] := by
      simpa [leafRule, List.forall₂_cons_left_iff] using hhead
    exact h _ _ _ _ hwalk

theorem addsNothing_leafRule_empty (constructor : String) :
    (leafRule (.empty constructor)).AddsNothing contents ↔
      ∀ n i s, [n, i, .empty constructor, s] ∈ contents "json_walk" →
        [n, i, .empty constructor, s] ∈ contents "json_leaf" := by
  constructor
  · intro h n i s hwalk
    refine h _ ⟨valuation [("name", n), ("id", i), ("suffix", s)], ?_, ?_⟩
    · simpa [leafRule, Literal.Holds, valuation, List.forall₂_cons_left_iff] using hwalk
    · simp [leafRule, valuation, List.forall₂_cons_left_iff]
  · intro h tuple ⟨env, hbody, hhead⟩
    have hwalk : [env "name", env "id", .empty constructor, env "suffix"] ∈ contents "json_walk" := by
      simpa [leafRule, Literal.Holds, List.forall₂_cons_left_iff] using hbody
    obtain rfl : tuple = [env "name", env "id", .empty constructor, env "suffix"] := by
      simpa [leafRule, List.forall₂_cons_left_iff] using hhead
    exact h _ _ _ hwalk

theorem addsNothing_pointedRule : pointedRule.AddsNothing contents ↔
    ∀ n i v s, [n, i, v, .symbol s] ∈ contents "json_leaf" → startsWithPoint s →
      [n, i, .symbol (String.ofList s.toList.tail), v] ∈ contents "json_path" := by
  -- `substr` takes all that is left after the point, as many characters as `strlen` counts less one.
  have hrest (s : String) : s.toList.tail.take (s.length - 1) = s.toList.tail := by
    apply List.take_of_length_le
    rw [List.length_tail, String.length_toList]
  constructor
  · intro h n i v s hleaf hs
    refine h _ ⟨valuation [("name", n), ("id", i), ("value", v), ("suffix", .symbol s)], ?_, ?_⟩
    · simpa [pointedRule, leafAtom, Literal.Holds, valuation,
        List.forall₂_cons_left_iff, hs] using hleaf
    · simp [pointedRule, valuation, List.forall₂_cons_left_iff, hrest]
  · intro h tuple ⟨env, hbody, hhead⟩
    obtain ⟨hleaf, s, hs, hpoint⟩ :
        [env "name", env "id", env "value", env "suffix"] ∈ contents "json_leaf" ∧
          ∃ s, env "suffix" = .symbol s ∧ startsWithPoint s := by
      simpa [pointedRule, leafAtom, Literal.Holds, List.forall₂_cons_left_iff] using hbody
    obtain rfl : tuple =
        [env "name", env "id", .symbol (String.ofList s.toList.tail), env "value"] := by
      simpa [pointedRule, List.forall₂_cons_left_iff, hs, hrest] using hhead
    rw [hs] at hleaf
    exact h _ _ _ _ hleaf hpoint

theorem addsNothing_unpointedRule : unpointedRule.AddsNothing contents ↔
    ∀ n i v s, [n, i, v, .symbol s] ∈ contents "json_leaf" → ¬ startsWithPoint s →
      [n, i, .symbol s, v] ∈ contents "json_path" := by
  constructor
  · intro h n i v s hleaf hs
    refine h _ ⟨valuation [("name", n), ("id", i), ("value", v), ("suffix", .symbol s)], ?_, ?_⟩
    · simpa [unpointedRule, leafAtom, Literal.Holds, valuation,
        List.forall₂_cons_left_iff, hs] using hleaf
    · simp [unpointedRule, valuation, List.forall₂_cons_left_iff]
  · intro h tuple ⟨env, hbody, hhead⟩
    obtain ⟨hleaf, s, hs, hpoint⟩ :
        [env "name", env "id", env "value", env "suffix"] ∈ contents "json_leaf" ∧
          ∃ s, env "suffix" = .symbol s ∧ ¬ startsWithPoint s := by
      simpa [unpointedRule, leafAtom, Literal.Holds, List.forall₂_cons_left_iff] using hbody
    obtain rfl : tuple = [env "name", env "id", .symbol s, env "value"] := by
      simpa [unpointedRule, List.forall₂_cons_left_iff, hs] using hhead
    rw [hs] at hleaf
    exact h _ _ _ _ hleaf hpoint

theorem addsNothing_stepRule (relation constructor : String) {step : String} (hname : step ≠ "name")
    (hid : step ≠ "id") (hsuffix : step ≠ "suffix") :
    (stepRule relation constructor step).AddsNothing contents ↔
      ∀ n i k v s, [n, i, .pair constructor k v, s] ∈ contents "json_walk" →
        [n, i, k, s] ∈ contents relation := by
  constructor
  · intro h n i k v s hwalk
    refine h _ ⟨valuation [("name", n), ("id", i), (step, k), ("suffix", s)], ?_, ?_⟩
    · simpa [stepRule, Literal.Holds, valuation, List.forall₂_cons_left_iff, hname, hid,
        hsuffix.symm] using ⟨v, hwalk⟩
    · simp [stepRule, valuation, List.forall₂_cons_left_iff, hname, hid, hsuffix.symm]
  · intro h tuple ⟨env, hbody, hhead⟩
    obtain ⟨v, hwalk⟩ : ∃ v, [env "name", env "id", .pair constructor (env step) v, env "suffix"] ∈
        contents "json_walk" := by
      simpa [stepRule, Literal.Holds, List.forall₂_cons_left_iff] using hbody
    obtain rfl : tuple = [env "name", env "id", env step, env "suffix"] := by
      simpa [stepRule, List.forall₂_cons_left_iff] using hhead
    exact h _ _ _ _ _ hwalk

/-- What it means for contents that the rules of the prelude add nothing to them. -/
structure WalksClosed (contents : Contents) : Prop where
  start : ∀ n i v, [n, i, v] ∈ contents "json" → [n, i, v, .symbol ""] ∈ contents "json_walk"
  field : ∀ n i k v s, [n, i, .pair "$Object" (.symbol k) v, .symbol s] ∈ contents "json_walk" →
    [n, i, v, .symbol ("." ++ (k ++ s))] ∈ contents "json_walk"
  element : ∀ n i m v s, [n, i, .pair "$Array" (.number m) v, .symbol s] ∈ contents "json_walk" →
    [n, i, v, .symbol ("[" ++ (toString m ++ ("]" ++ s)))] ∈ contents "json_walk"
  leaf : ∀ constructor ∈ scalarConstructors, ∀ n i x s,
    [n, i, .single constructor x, s] ∈ contents "json_walk" →
      [n, i, .single constructor x, s] ∈ contents "json_leaf"
  null : ∀ n i s, [n, i, .empty "$Null", s] ∈ contents "json_walk" →
    [n, i, .empty "$Null", s] ∈ contents "json_leaf"
  pointed : ∀ n i v s, [n, i, v, .symbol s] ∈ contents "json_leaf" → startsWithPoint s →
    [n, i, .symbol (String.ofList s.toList.tail), v] ∈ contents "json_path"
  unpointed : ∀ n i v s, [n, i, v, .symbol s] ∈ contents "json_leaf" → ¬ startsWithPoint s →
    [n, i, .symbol s, v] ∈ contents "json_path"
  key : ∀ n i k v s, [n, i, .pair "$Object" k v, s] ∈ contents "json_walk" →
    [n, i, k, s] ∈ contents "json_object_key"
  index : ∀ n i m v s, [n, i, .pair "$Array" m v, s] ∈ contents "json_walk" →
    [n, i, m, s] ∈ contents "json_array_index"

theorem closed_documentRules : Closed documentRules contents ↔ WalksClosed contents := by
  have hkey : (stepRule "json_object_key" "$Object" "key").AddsNothing contents ↔ _ :=
    addsNothing_stepRule _ _ (by decide) (by decide) (by decide)
  have hindex : (stepRule "json_array_index" "$Array" "index").AddsNothing contents ↔ _ :=
    addsNothing_stepRule _ _ (by decide) (by decide) (by decide)
  rw [closed_iff, documentRules, documentLayout, List.forall_mem_map]
  simp only [List.forall_mem_append, List.forall_mem_map, List.forall_mem_cons,
    addsNothing_startRule, addsNothing_fieldRule, addsNothing_elementRule, addsNothing_leafRule,
    addsNothing_leafRule_empty, addsNothing_pointedRule, addsNothing_unpointedRule, hkey, hindex]
  constructor
  · intro ⟨⟨⟨hstart, hfield, helement, _⟩, hleaf⟩, hnull, hpointed, hunpointed, hkeys, hindices, _⟩
    exact ⟨hstart, hfield, helement, hleaf, hnull, hpointed, hunpointed, hkeys, hindices⟩
  · intro h
    exact ⟨⟨⟨h.start, h.field, h.element, List.forall_mem_nil _⟩, h.leaf⟩, h.null, h.pointed,
      h.unpointed, h.key, h.index, List.forall_mem_nil _⟩

end AddsNothing

end PolicyCheck.Datalog
