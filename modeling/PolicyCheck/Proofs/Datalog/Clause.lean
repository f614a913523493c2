import PolicyCheck.Datalog.Clause
import PolicyCheck.Proofs.Datalog.Rule
import PolicyCheck.Proofs.Except

/-!
# The rules of an outline

The facts and the pivot rules of an outline as Datalog rules: each has the same line as before. A text
in the place of an argument is taken as one variable, unless it is the wildcard. The language does so for
identifiers only, and a name such as `a, b` would read as two arguments; what is said about the text of a
program is said for `IsIdentifier` names.
-/

namespace PolicyCheck.Datalog

namespace Argument

/-- The argument that a bare text stands for, provided it is an identifier or the wildcard. -/
def ofText (text : String) : Argument := if text = PivotRule.wildcard then any else var text

theorem text_ofText (name : String) : (ofText name).text = name := by
  by_cases h : name = PivotRule.wildcard
  · rw [ofText, if_pos h, h]
    rfl
  · rw [ofText, if_neg h]
    rfl

theorem map_text_ofText (names : List String) : (names.map ofText).map text = names := by
  simp [Function.comp_def, text_ofText]

end Argument

def NameFact.rule (f : NameFact) : Rule where
  head := ⟨f.relation, [.symbol f.name]⟩

theorem NameFact.text_rule (f : NameFact) : f.rule.text = f.text := by
  have hshown (text : String) : toString text = text := rfl
  apply String.toList_inj.1
  simp [rule, Rule.text, Atom.text, Argument.text, text, hshown]

theorem NameFact.derives_iff {f : NameFact} {contents : Contents} {tuple : Tuple} :
    f.rule.Derives contents tuple ↔ tuple = [.symbol f.name] := by
  simp only [Rule.Derives, rule, forall₂_eq_some_iff]
  constructor
  · rintro ⟨env, -, hhead⟩
    exact (List.map_inj_right fun _ _ => Option.some.inj).1 hhead.symm
  · rintro rfl
    exact ⟨fun _ => .number 0, fun l hl => (List.not_mem_nil hl).elim, rfl⟩

namespace PivotRule

def valueArgument : Argument := .var valueVariable

def rule (r : PivotRule) : Rule where
  head := ⟨r.target, r.keys.map .ofText ++ [.symbol r.label, .single r.wrapper.text valueArgument]⟩
  body := .atom ⟨r.source, r.pattern.map .ofText⟩ ::
    r.excluded.toList.map fun excluded => .differs valueArgument (.symbol excluded)

theorem length_arguments_rule (r : PivotRule) :
    r.rule.head.arguments.length = r.keys.length + 2 := by
  rw [rule, List.length_append, List.length_map]
  rfl

theorem text_rule {r : PivotRule} (h : r.keys ≠ []) : r.rule.text = r.text := by
  have hshown (text : String) : toString text = text := rfl
  have hhead : r.rule.head.text = r.headText := by
    apply String.toList_inj.1
    simp only [rule, Atom.text, List.map_append, Argument.map_text_ofText]
    rw [String.intercalate_append_of_ne_nil h (by simp)]
    simp [Argument.text, headText, hshown, valueArgument, valueVariable]
  have hbody : ", ".intercalate (r.rule.body.map Literal.text) = r.bodyText ++ r.guardText := by
    apply String.toList_inj.1
    cases hexcluded : r.excluded with
    | none =>
      simp only [rule, hexcluded, Option.toList_none, List.map_nil, List.map_cons, Literal.text_atom,
        Atom.text, Argument.map_text_ofText]
      simp [bodyText, guardText, hexcluded, hshown]
    | some excluded =>
      simp only [rule, hexcluded, Option.toList_some, List.map_nil, List.map_cons, Literal.text_atom,
        Literal.text_differs, Atom.text, Argument.map_text_ofText]
      simp [bodyText, guardText, hexcluded, hshown, Argument.text, valueArgument, valueVariable]
  have hnonempty : r.rule.body ≠ [] := List.cons_ne_nil _ _
  rw [Rule.text, if_neg hnonempty, hhead, hbody, text]
  apply String.toList_inj.1
  simp [hshown]

end PivotRule

namespace Outline

def clauses (o : Outline) : List Rule := o.facts.map NameFact.rule ++ o.rules.map PivotRule.rule

theorem mem_clauses {o : Outline} {r : Rule} :
    r ∈ o.clauses ↔ (∃ f ∈ o.facts, f.rule = r) ∨ ∃ p ∈ o.rules, p.rule = r := by
  rw [clauses, List.mem_append, List.mem_map, List.mem_map]

theorem mem_clauses_append {o p : Outline} {r : Rule} :
    r ∈ (o ++ p).clauses ↔ r ∈ o.clauses ∨ r ∈ p.clauses := by
  have hfacts : (o ++ p).facts = o.facts ++ p.facts := rfl
  have hrules : (o ++ p).rules = o.rules ++ p.rules := rfl
  simp only [mem_clauses, hfacts, hrules, List.mem_append, or_and_right, exists_or]
  exact or_or_or_comm

theorem mem_clauses_concat {outlines : List Outline} {r : Rule} :
    r ∈ (concat outlines).clauses ↔ ∃ o ∈ outlines, r ∈ o.clauses := by
  induction outlines with
  | nil => simp [concat, clauses]
  | cons o outlines ih =>
    change r ∈ (o ++ concat outlines).clauses ↔ _
    rw [mem_clauses_append, ih, List.exists_mem_cons_iff]

theorem mem_clauses_concat_of_mapM {α ε : Type} {f : α → Except ε Outline} {as : List α}
    {os : List Outline} (h : as.mapM f = .ok os) {r : Rule} {P : α → Prop}
    (hP : ∀ a ∈ as, ∀ o, f a = .ok o → (r ∈ o.clauses ↔ P a)) :
    r ∈ (concat os).clauses ↔ ∃ a ∈ as, P a := by
  rw [mem_clauses_concat]
  constructor
  · intro ⟨o, ho, hr⟩
    obtain ⟨a, ha, hok⟩ := (mem_iff_of_mapM_eq_ok h).1 ho
    exact ⟨a, ha, (hP a ha o hok).1 hr⟩
  · intro ⟨a, ha, hPa⟩
    obtain ⟨o, ho, hok⟩ := exists_of_mapM_eq_ok h ha
    exact ⟨o, ho, (hP a ha o hok).2 hPa⟩

theorem mem_rules_program {o : Outline} (hkeys : ∀ p ∈ o.rules, p.keys ≠ []) {line : String} :
    line ∈ o.program.rules ↔ ∃ r ∈ o.clauses, r.text = line := by
  have hfacts : (o.facts.map NameFact.rule).map Rule.text = o.facts.map NameFact.text := by
    rw [List.map_map]
    exact List.map_congr_left fun f _ => f.text_rule
  have hrules : (o.rules.map PivotRule.rule).map Rule.text = o.rules.map PivotRule.text := by
    rw [List.map_map]
    exact List.map_congr_left fun p hp => PivotRule.text_rule (hkeys p hp)
  rw [program, Program.ofLists, LineSet.mem_ofList, ← hfacts, ← hrules, ← List.map_append, ← clauses,
    List.mem_map]

end Outline

end PolicyCheck.Datalog
