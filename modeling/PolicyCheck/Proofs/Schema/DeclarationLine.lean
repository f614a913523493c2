import PolicyCheck.Proofs.Schema.Import

/-!
# Declarations in the text

In the text of a program over plain names every declaration has a line of its own, and neither a directive
nor a rule reads as one. The relations that the text declares are those of the outline, each as often as it
has different lines.
-/

namespace PolicyCheck

open Datalog Text

namespace Datalog

theorem Attribute.oneLine_text {a : Attribute} (h : IsIdentifier a.name) : OneLine a.text := by
  have htype : OneLine a.type.text := by
    cases a.type <;> simp [OneLine, AttributeType.text]
  have hcolon : OneLine ":" := by simp [OneLine]
  simp only [text, oneLine_append, h.oneLine, hcolon, htype, and_self]

namespace Declaration

variable {d : Declaration}

theorem oneLine_attributeList {attributes : List Attribute} (h : ∀ a ∈ attributes, IsIdentifier a.name) :
    OneLine (attributeList attributes) := by
  refine oneLine_intercalate (by simp [OneLine]) fun part hpart => ?_
  obtain ⟨a, ha, rfl⟩ := List.mem_map.1 hpart
  exact Attribute.oneLine_text (h a ha)

theorem PlainlyNamed.oneLine (h : d.PlainlyNamed) : OneLine d.text := by
  have hshown (text : String) : toString text = text := rfl
  have hword : OneLine ".decl " := by simp [OneLine]
  cases d with
  | table relation attributes =>
    have hrelation : OneLine relation := h.relation.oneLine
    have hlist : OneLine (attributeList attributes) := oneLine_attributeList h.attributes
    have hmarks : OneLine " (" ∧ OneLine ")" := by simp [OneLine]
    simp only [text, hshown, oneLine_append, hword, hrelation, hlist, hmarks, and_self]
  | pivot relation keys label =>
    obtain ⟨hkeys, hlabel⟩ := List.forall_mem_append.1 h.attributes
    have hrelation : OneLine relation := h.relation.oneLine
    have hlist : OneLine (attributeList keys) := oneLine_attributeList hkeys
    have hlabel : OneLine label := (hlabel ⟨label, .symbol⟩ List.mem_cons_self).oneLine
    have hmarks : OneLine "(" ∧ OneLine ", " ∧ OneLine ":symbol, value:Value)" := by simp [OneLine]
    simp only [text, hshown, oneLine_append, hword, hrelation, hlist, hlabel, hmarks, and_self]
  | names relation label =>
    have hrelation : OneLine relation := h.relation.oneLine
    have hlabel : OneLine label := (h.attributes ⟨label, .symbol⟩ (List.mem_singleton_self _)).oneLine
    have hmarks : OneLine "(" ∧ OneLine ":symbol)" := by simp [OneLine]
    simp only [text, hshown, oneLine_append, hword, hrelation, hlabel, hmarks, and_self]

theorem PlainlyNamed.declared?_eq (h : d.PlainlyNamed) : declared? d.text = some d.relation :=
  d.declared?_text (h.relation.not_mem rfl (by decide)) (h.relation.not_mem rfl (by decide))

end Declaration

/-! ### The other lines -/

theorem declared?_eq_none {line : String} (h : ¬ declareWord.toList <+: line.toList) :
    declared? line = none := by
  rw [declared?, if_neg (mt List.isPrefixOf_iff_prefix.1 h)]

theorem Input.oneLine_text {relation database : String} (hrelation : IsIdentifier relation)
    (hdatabase : OneLine database) : OneLine (Input.mk relation database).text := by
  have hshown (text : String) : toString text = text := rfl
  have hmarks : OneLine ".input " ∧ OneLine " (IO=sqlite, filename=\"" ∧ OneLine "\")" := by simp [OneLine]
  simp only [text, hshown, oneLine_append, hrelation.oneLine, hmarks, hdatabase, and_self]

theorem Input.declared?_text (i : Input) : declared? i.text = none := by
  have hshown (text : String) : toString text = text := rfl
  refine declared?_eq_none ?_
  simp [text, declareWord, hshown]

theorem Opens.declared?_eq {relation line : String} (h : Opens relation line)
    (hpoint : '.' ∉ relation.toList) : declared? line = none := by
  obtain ⟨rest, rfl⟩ := h
  refine declared?_eq_none fun hstart => ?_
  rw [String.toList_append, String.toList_append, List.append_assoc] at hstart
  cases hrelation : relation.toList with
  | nil =>
    rw [hrelation] at hstart
    simp [declareWord] at hstart
  | cons c cs =>
    rw [hrelation] at hstart hpoint
    simp [declareWord] at hstart
    exact hpoint (hstart.1 ▸ List.mem_cons_self)

/-- The declarations in the program of an outline and those of the prelude have distinct relations if and
only if the outline declares each of its own once. -/
theorem Outline.nodup_declared_iff {o : Outline} (hnamed : ∀ d ∈ o.declarations, d.PlainlyNamed) :
    (PreludeFile.relations ++ o.program.declarations.lines.filterMap declared?).Nodup ↔ o.DeclaresOnce := by
  have hlines : o.program.declarations.lines.Nodup :=
    o.program.declarations.ascending.nodup
  have hmem (line : String) : line ∈ o.program.declarations.lines ↔ ∃ d ∈ o.declarations, d.text = line :=
    mem_declarations_program
  have hrelation (relation : String) : relation ∈ o.program.declarations.lines.filterMap declared? ↔
      ∃ d ∈ o.declarations, d.relation = relation := by
    rw [List.mem_filterMap]
    constructor
    · rintro ⟨line, hline, hdeclared⟩
      obtain ⟨d, hd, rfl⟩ := (hmem line).1 hline
      rw [(hnamed d hd).declared?_eq] at hdeclared
      exact ⟨d, hd, Option.some.inj hdeclared⟩
    · rintro ⟨d, hd, rfl⟩
      exact ⟨d.text, (hmem _).2 ⟨d, hd, rfl⟩, (hnamed d hd).declared?_eq⟩
  -- Every line declares a relation, so that none of them is left out.
  have hmap : o.program.declarations.lines.filterMap declared? =
      o.program.declarations.lines.map fun line => (declared? line).getD "" := by
    rw [← List.filterMap_eq_map]
    refine List.filterMap_congr fun line hline => ?_
    obtain ⟨d, hd, rfl⟩ := (hmem line).1 hline
    simp [(hnamed d hd).declared?_eq]
  rw [List.nodup_append']
  constructor
  · intro ⟨_, honce, hdisjoint⟩
    refine ⟨fun d hd hprelude => hdisjoint hprelude ((hrelation _).2 ⟨d, hd, rfl⟩), ?_⟩
    intro d hd d' hd' hsame
    rw [hmap] at honce
    refine List.inj_on_of_nodup_map honce ((hmem _).2 ⟨d, hd, rfl⟩) ((hmem _).2 ⟨d', hd', rfl⟩) ?_
    rw [(hnamed d hd).declared?_eq, (hnamed d' hd').declared?_eq, hsame]
  · intro honce
    refine ⟨PreludeFile.relations_eq ▸ by decide +kernel, ?_, ?_⟩
    · rw [hmap]
      refine hlines.map_on fun line hline line' hline' hsame => ?_
      obtain ⟨d, hd, rfl⟩ := (hmem line).1 hline
      obtain ⟨d', hd', rfl⟩ := (hmem line').1 hline'
      rw [(hnamed d hd).declared?_eq, (hnamed d' hd').declared?_eq] at hsame
      exact honce.line d hd d' hd' hsame
    · intro relation hprelude hdeclared
      obtain ⟨d, hd, rfl⟩ := (hrelation relation).1 hdeclared
      exact honce.prelude d hd hprelude

end Datalog

namespace Schema

variable {s : Schema} {database : String} {p : Program}

theorem textLines_generated (hplain : ∀ t ∈ s.factTables, t.PlainlyNamed) (hdatabase : OneLine database)
    (hp : s.generated database = .ok p) : textLines p.text = p.lines := by
  have hnonempty : p.lines ≠ [] := by
    have hpivot := text_mem_of_contributes hp .pivot List.mem_cons_self
    exact List.ne_nil_of_mem (List.mem_append_left _ (List.mem_append_left _ hpivot))
  rw [Program.text, textLines_intercalate hnonempty]
  refine flatMap_textLines fun line hline => ?_
  rcases List.mem_append.1 hline with hline | hline
  · rcases List.mem_append.1 hline with hline | hline
    · obtain ⟨o, ho, rfl⟩ := map_eq_ok_iff.1 hp
      obtain ⟨d, hd, rfl⟩ := Outline.mem_declarations_program.1 hline
      exact (plainlyNamed_of_mem_declarations hplain ho hd).1.oneLine
    · obtain ⟨t, ht, rfl⟩ := (mem_directives_generated hp).1 hline
      exact Input.oneLine_text (hplain t ht).relation hdatabase
  · exact (opens_of_mem_rules hplain hp hline).1

/-- Over plain names, the relations that the text of the generated program declares are distinct, also from
those of the prelude, if and only if the schema is distinct. -/
theorem nodup_declared_iff (hs : (s.tables.map Table.name).Nodup)
    (hplain : ∀ t ∈ s.factTables, t.PlainlyNamed) (hdatabase : OneLine database)
    (hp : s.generated database = .ok p) :
    (PreludeFile.relations ++ (textLines p.text).filterMap declared?).Nodup ↔ s.Distinct := by
  have hdirectives : p.directives.lines.filterMap declared? = [] := by
    refine List.filterMap_eq_nil_iff.2 fun line hline => ?_
    obtain ⟨t, -, rfl⟩ := (mem_directives_generated hp).1 hline
    exact Input.declared?_text _
  have hrules : p.rules.lines.filterMap declared? = [] := by
    refine List.filterMap_eq_nil_iff.2 fun line hline => ?_
    obtain ⟨-, t, ht, relation, hrelation, hopens⟩ := opens_of_mem_rules hplain hp hline
    exact hopens.declared?_eq (((hplain t ht).headRelation hrelation).not_mem rfl (by decide))
  rw [textLines_generated hplain hdatabase hp, Program.lines, List.filterMap_append, List.filterMap_append,
    hdirectives, hrules, List.append_nil, List.append_nil]
  obtain ⟨o, ho, rfl⟩ := map_eq_ok_iff.1 hp
  rw [Outline.nodup_declared_iff fun d hd => (plainlyNamed_of_mem_declarations hplain ho hd).1]
  exact ⟨distinct_of_declaresOnce ho, fun h => Outline.declaresOnce_of_nodup (nodup_of_distinct hs ho h)⟩

end Schema

end PolicyCheck
