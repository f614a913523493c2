import PolicyCheck.Fact.Encoding
import PolicyCheck.Proofs.Schema.Contribution
import PolicyCheck.Proofs.Schema.KeyedPivot

/-!
# The lines of rules

A rule of a schema with plain names stands on one line, which opens with the relation of the rule's
head: one of the pivot by repository or one that belongs to a primary key.
-/

namespace PolicyCheck

open Text (OneLine oneLine_append oneLine_intercalate)

namespace Datalog

def Opens (relation line : String) : Prop := ∃ rest, line = relation ++ "(" ++ rest

theorem Opens.unique {relation relation' line : String} (h : Opens relation line)
    (h' : Opens relation' line) (hbracket : '(' ∉ relation.toList) (hbracket' : '(' ∉ relation'.toList) :
    relation = relation' := by
  obtain ⟨rest, hrest⟩ := h
  obtain ⟨rest', hrest'⟩ := h'
  have hinside : relation.toList ++ '(' :: rest.toList = relation'.toList ++ '(' :: rest'.toList := by
    simpa using congrArg String.toList (hrest.symm.trans hrest')
  exact String.toList_inj.1 (Text.append_cons_inj_of_not_mem hbracket hbracket' hinside).1

theorem NameFact.opens_text (f : NameFact) : Opens f.relation f.text :=
  ⟨"\"" ++ f.name ++ "\").", by
    apply String.toList_inj.1
    have hshown (text : String) : toString text = text := rfl
    simp [text, hshown]⟩

theorem PivotRule.opens_text (r : PivotRule) : Opens r.target r.text := by
  have hshown (text : String) : toString text = text := rfl
  refine ⟨", ".intercalate r.keys ++ ", \"" ++ r.label ++ "\", " ++ r.wrapper.text ++ "(value)) :- " ++
    r.bodyText ++ r.guardText ++ ".", ?_⟩
  apply String.toList_inj.1
  simp [text, headText, hshown]

theorem NameFact.oneLine_text {f : NameFact} (hrelation : OneLine f.relation) (hname : OneLine f.name) :
    OneLine f.text := by
  have hshown (text : String) : toString text = text := rfl
  have hmarks : OneLine "(\"" ∧ OneLine "\")." := by simp [OneLine]
  simp only [text, hshown, oneLine_append, hmarks, hrelation, hname, and_self]

theorem PivotRule.oneLine_text {r : PivotRule} (htarget : OneLine r.target)
    (hkeys : ∀ key ∈ r.keys, OneLine key) (hlabel : OneLine r.label) (hsource : OneLine r.source)
    (hpattern : ∀ name ∈ r.pattern, OneLine name) (hexcluded : ∀ e ∈ r.excluded, OneLine e) :
    OneLine r.text := by
  have hshown (text : String) : toString text = text := rfl
  have hcomma : OneLine ", " := by simp [OneLine]
  have hwrapper : OneLine r.wrapper.text := by
    cases r.wrapper <;> simp [OneLine, Wrapper.text]
  have hhead : OneLine r.headText := by
    have hmarks : OneLine "(" ∧ OneLine ", \"" ∧ OneLine "\", " ∧ OneLine "(value))" := by
      simp [OneLine]
    simp only [headText, hshown, oneLine_append, hmarks, htarget, hlabel, hwrapper,
      oneLine_intercalate hcomma hkeys, and_self]
  have hbody : OneLine r.bodyText := by
    have hmarks : OneLine "(" ∧ OneLine ")" := by simp [OneLine]
    simp only [bodyText, hshown, oneLine_append, hmarks, hsource,
      oneLine_intercalate hcomma hpattern, and_self]
  have hguard : OneLine r.guardText := by
    rw [guardText]
    cases he : r.excluded with
    | none => simp [OneLine]
    | some e =>
      have hmarks : OneLine ", value != \"" ∧ OneLine "\"" := by simp [OneLine]
      simp only [hshown, oneLine_append, hmarks, hexcluded e he, and_self]
  have hmarks : OneLine " :- " ∧ OneLine "." := by simp [OneLine]
  simp only [text, hshown, oneLine_append, hmarks, hhead, hbody, hguard, and_self]

end Datalog

/-! ### Schemas with plain names -/

open Datalog

def IsIdentifier (name : String) : Prop := ∀ c ∈ name.toList, c.isAlphanum = true ∨ c = '_'

theorem IsIdentifier.not_mem {name : String} (h : IsIdentifier name) {c : Char}
    (hc : c.isAlphanum = false) (hmark : c ≠ '_') : c ∉ name.toList := by
  intro hmem
  rcases h c hmem with hword | rfl
  · cases hc.symm.trans hword
  · exact hmark rfl

theorem IsIdentifier.oneLine {name : String} (h : IsIdentifier name) : OneLine name :=
  h.not_mem rfl (by decide)

namespace Table

structure PlainlyNamed (t : Table) : Prop where
  table : IsIdentifier t.name
  columns : ∀ c ∈ t.columns, IsIdentifier c.name

variable {t : Table} {c : Column}

theorem PlainlyNamed.relation (h : t.PlainlyNamed) : IsIdentifier t.relation := by
  rw [Table.relation]
  split
  · intro x hx
    rw [String.toList_ofList] at hx
    exact h.table x (List.mem_of_mem_tail hx)
  · exact h.table

theorem PlainlyNamed.oneLine_repositoryRule (h : t.PlainlyNamed) (hc : c ∈ t.columns) {r : PivotRule}
    (hr : t.repositoryRule c = .ok r) : OneLine r.text := by
  obtain ⟨w, -, rfl⟩ := repositoryRule_eq_ok hr
  refine PivotRule.oneLine_text ?_ ?_ ?_ h.relation.oneLine ?_ ?_
  · simp [OneLine, repositoryAttribute]
  · simp [OneLine]
  · have hpoint : OneLine "." := by simp [OneLine]
    simp only [oneLine_append, h.relation.oneLine, hpoint, (h.columns c hc).oneLine, and_self]
  · intro name hname
    obtain ⟨d, -, rfl⟩ := List.mem_map.1 hname
    split
    · simp [OneLine, PivotRule.valueVariable]
    · split
      · simp [OneLine]
      · simp [OneLine, PivotRule.wildcard]
  · intro e he
    split at he
    · obtain rfl := Option.some.inj he
      simp [OneLine, notApplicable]
    · cases he

theorem PlainlyNamed.oneLine_keyedRule (h : t.PlainlyNamed) (hc : c ∈ t.columns) {r : PivotRule}
    (hr : t.keyedRule t.attributeRelation t.primaryKey c = .ok r) : OneLine r.text := by
  obtain ⟨w, -, rfl⟩ := keyedRule_eq_ok hr
  refine PivotRule.oneLine_text ?_ ?_ (h.columns c hc).oneLine h.relation.oneLine ?_ nofun
  · have hend : OneLine "_attribute" := by simp [OneLine]
    simp only [attributeRelation, oneLine_append, h.relation.oneLine, hend, and_self]
  · intro key hkey
    obtain ⟨d, hd, rfl⟩ := List.mem_map.1 (primaryKey_subset hkey)
    exact (h.columns d hd).oneLine
  · intro name hname
    obtain ⟨d, hd, rfl⟩ := List.mem_map.1 hname
    split
    · simp [OneLine, PivotRule.valueVariable]
    · split
      · exact (h.columns d hd).oneLine
      · simp [OneLine, PivotRule.wildcard]

theorem PlainlyNamed.attributeRelation (h : t.PlainlyNamed) : IsIdentifier t.attributeRelation := by
  have hend : IsIdentifier "_attribute" := by simp [IsIdentifier]
  intro c hc
  rw [Table.attributeRelation, String.toList_append, List.mem_append] at hc
  rcases hc with hc | hc
  · exact h.relation c hc
  · exact hend c hc

/-- The relation of a head: that of the names, of the pivot by repository or of a primary key. -/
def HeadRelation (t : Table) (relation : String) : Prop :=
  relation ∈ [checkName, repositoryAttribute, t.attributeRelation]

theorem PlainlyNamed.headRelation (h : t.PlainlyNamed) {relation : String}
    (hrelation : t.HeadRelation relation) : IsIdentifier relation := by
  simp only [HeadRelation, List.mem_cons, List.not_mem_nil, or_false] at hrelation
  obtain rfl | rfl | rfl := hrelation
  · simp [IsIdentifier, checkName]
  · simp [IsIdentifier, repositoryAttribute]
  · exact h.attributeRelation

theorem not_headRelation_fact (t : Table) : ¬ t.HeadRelation Fact.relation := by
  simp only [HeadRelation, List.mem_cons, List.not_mem_nil, or_false]
  rintro (hnames | hpivot | hkeyed)
  · exact absurd hnames (by decide +kernel)
  · exact absurd hpivot (by decide +kernel)
  · have hlast := congrArg (fun relation => relation.toList.getLast?) hkeyed
    rw [attributeRelation, String.toList_append, List.getLast?_append] at hlast
    revert hlast
    simp [Fact.relation]

theorem primaryPivot_eq_ok {o : Outline} (h : t.primaryPivot = .ok o) :
    o.facts = [] ∧
      ∀ r ∈ o.rules, ∃ c ∈ t.columns, t.keyedRule t.attributeRelation t.primaryKey c = .ok r := by
  rw [primaryPivot] at h
  split at h
  · obtain rfl := Except.ok.inj h
    exact ⟨rfl, List.forall_mem_nil _⟩
  · obtain ⟨-, hfacts, hrules⟩ := keyedPivot_eq_ok h
    refine ⟨hfacts, fun r hr => ?_⟩
    obtain ⟨c, hc, -, -, hrule⟩ := (hrules r).1 hr
    exact ⟨c, hc, hrule⟩

theorem PlainlyNamed.line_of_contributes (h : t.PlainlyNamed) {database line : String} {q : Program}
    (hq : t.Contributes database q) (hline : line ∈ q.rules) :
    OneLine line ∧ ∃ relation, t.HeadRelation relation ∧ Opens relation line := by
  cases hq with
  | imports ho =>
    obtain ⟨d, -, ho⟩ := bind_eq_ok_iff.1 ho
    obtain rfl := Except.ok.inj ho
    cases LineSet.mem_ofList.1 hline
  | repository ho =>
    obtain ⟨hfacts, hrules⟩ := repositoryOutline_eq_ok ho
    rw [Outline.program, Program.ofLists, LineSet.mem_ofList, hfacts, List.mem_append] at hline
    rcases hline with hline | hline
    · obtain rfl := List.mem_singleton.1 hline
      refine ⟨NameFact.oneLine_text ?_ h.relation.oneLine, _, List.mem_cons_self, NameFact.opens_text _⟩
      simp [OneLine, checkName]
    · obtain ⟨r, hr, rfl⟩ := List.mem_map.1 hline
      obtain ⟨-, c, hc, -, hrule⟩ := (hrules r).1 hr
      refine ⟨h.oneLine_repositoryRule hc hrule, r.target, ?_, r.opens_text⟩
      obtain ⟨w, -, rfl⟩ := repositoryRule_eq_ok hrule
      exact List.mem_cons_of_mem _ List.mem_cons_self
  | primary ho =>
    obtain ⟨hfacts, hrules⟩ := primaryPivot_eq_ok ho
    rw [Outline.program, Program.ofLists, LineSet.mem_ofList, hfacts] at hline
    obtain ⟨r, hr, rfl⟩ := List.mem_map.1 hline
    obtain ⟨c, hc, hrule⟩ := hrules r hr
    refine ⟨h.oneLine_keyedRule hc hrule, r.target, ?_, r.opens_text⟩
    obtain ⟨w, -, rfl⟩ := keyedRule_eq_ok hrule
    exact List.mem_cons_of_mem _ (List.mem_cons_of_mem _ List.mem_cons_self)

end Table

/-- A rule of a program stands on one line, which opens with the relation of its head. -/
theorem Schema.opens_of_mem_rules {s : Schema} (hplain : ∀ t ∈ s.factTables, t.PlainlyNamed)
    {database line : String} {p : Program} (hp : s.generated database = .ok p) (hline : line ∈ p.rules) :
    OneLine line ∧ ∃ t ∈ s.factTables, ∃ relation, t.HeadRelation relation ∧ Opens relation line := by
  obtain ⟨q, hq, hline⟩ := (mem_part_generated (i := .rules) hp).1 hline
  cases hq with
  | pivot => cases LineSet.mem_ofList.1 hline
  | @table t q ht hq =>
    obtain ⟨hone, hopens⟩ := (hplain t ht).line_of_contributes hq hline
    exact ⟨hone, t, ht, hopens⟩

end PolicyCheck
