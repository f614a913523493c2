import PolicyCheck.Proofs.Schema.RuleLine

/-!
# The imports of a program

A fact table is imported by a declaration, which has an attribute for each of its columns in their order,
and by a directive. Each of them is the only line of the program that starts as it does: the line of a
pivot has a bracket directly after the relation, where that of a table has a blank, and no two fact tables
have the same relation.
-/

namespace PolicyCheck

open Datalog

/-- The type that values of a column have in a relation. -/
def SqlType.attributeType? : SqlType → Option AttributeType
  | .integer | .boolean => some .number
  | .string | .text => some .symbol
  | .other _ => none

namespace Column

def attribute? (c : Column) : Option Attribute := c.type.attributeType?.map fun type => ⟨c.name, type⟩

variable {table : String} {c : Column} {a : Attribute}

theorem name_of_attribute? (h : c.attribute? = some a) : a.name = c.name := by
  obtain ⟨type, -, rfl⟩ := Option.map_eq_some_iff.1 h
  rfl

theorem toAttribute_eq_ok_iff : c.toAttribute table = .ok a ↔ c.attribute? = some a := by
  rw [toAttribute, attributeType, attribute?]
  cases c.type with
  | other type =>
    constructor
    · intro h
      cases h
    · intro h
      cases h
  | integer | boolean | string | text =>
    constructor
    · intro h
      exact congrArg some (Except.ok.inj h)
    · intro h
      exact congrArg Except.ok (Option.some.inj h)

end Column

structure Datalog.Declaration.PlainlyNamed (d : Declaration) : Prop where
  relation : IsIdentifier d.relation
  attributes : ∀ a ∈ d.attributes, IsIdentifier a.name

namespace Table

/-- The attributes of the table's relation: one for each column, in their order. -/
def Declares (t : Table) (attributes : List Attribute) : Prop :=
  t.columns.map Column.attribute? = attributes.map some

variable {t : Table} {o : Outline} {attributes : List Attribute}

theorem Declares.unique {attributes' : List Attribute} (h : t.Declares attributes)
    (h' : t.Declares attributes') : attributes = attributes' :=
  (List.map_inj_right fun _ _ => Option.some.inj).1 (h.symm.trans h')

theorem declares_of_importOutline {database : String} (h : t.importOutline database = .ok o) :
    ∃ attributes, t.Declares attributes ∧ o.declarations = [.table t.relation attributes] ∧
      o.inputs = [⟨t.relation, database⟩] := by
  obtain ⟨d, hd, h⟩ := bind_eq_ok_iff.1 h
  obtain ⟨attributes, hattributes, hd⟩ := bind_eq_ok_iff.1 hd
  obtain rfl := Except.ok.inj hd
  obtain rfl := Except.ok.inj h
  refine ⟨attributes, forall₂_eq_some_iff.1 ?_, rfl, rfl⟩
  exact (mapM_eq_ok_iff.1 hattributes).imp fun _ _ => Column.toAttribute_eq_ok_iff.1

theorem inputs_repositoryOutline (h : t.repositoryOutline = .ok o) : o.inputs = [] := by
  rw [repositoryOutline] at h
  split at h
  · obtain ⟨rules, -, h⟩ := bind_eq_ok_iff.1 h
    obtain rfl := Except.ok.inj h
    rfl
  · obtain rfl := Except.ok.inj h
    rfl

theorem inputs_primaryPivot (h : t.primaryPivot = .ok o) : o.inputs = [] := by
  rw [primaryPivot] at h
  split at h
  · obtain rfl := Except.ok.inj h
    rfl
  · obtain ⟨keys, -, h⟩ := bind_eq_ok_iff.1 h
    obtain ⟨rules, -, h⟩ := bind_eq_ok_iff.1 h
    obtain rfl := Except.ok.inj h
    rfl

theorem PlainlyNamed.declaration_table (h : t.PlainlyNamed) (hattributes : t.Declares attributes) :
    (Declaration.table t.relation attributes).PlainlyNamed where
  relation := h.relation
  attributes := by
    intro a ha
    obtain ⟨c, hc, hattribute⟩ := List.mem_map.1 (hattributes ▸ List.mem_map_of_mem ha)
    rw [Column.name_of_attribute? hattribute]
    exact h.columns c hc

theorem PlainlyNamed.declaration_pivot (h : t.PlainlyNamed) {keys : List Attribute}
    (hkeys : keys.map Attribute.name = t.primaryKey) :
    (Declaration.pivot t.attributeRelation keys "key").PlainlyNamed where
  relation := h.attributeRelation
  attributes := by
    intro a ha
    rcases List.mem_append.1 ha with ha | ha
    · obtain ⟨c, hc, hname⟩ := List.mem_map.1 (primaryKey_subset (hkeys ▸ List.mem_map_of_mem ha))
      exact hname ▸ h.columns c hc
    · rcases List.mem_pair.1 ha with rfl | rfl
      · simp [IsIdentifier]
      · simp [IsIdentifier]

end Table

/-! ### How lines start -/

namespace Datalog

/-- The start of the declaration of a fact table, up to its attributes. -/
def Declaration.tableStart (relation : String) : String := declareWord ++ relation ++ " ("

def Input.start (relation : String) : String := ".input " ++ relation ++ " ("

theorem Declaration.tableStart_prefix (relation : String) (attributes : List Attribute) :
    (tableStart relation).toList <+: (table relation attributes).text.toList := by
  have hshown (text : String) : toString text = text := rfl
  refine ⟨(attributeList attributes ++ ")").toList, ?_⟩
  simp [tableStart, text, declareWord, hshown]

theorem Declaration.of_tableStart_prefix {d : Declaration} {relation : String}
    (hd : IsIdentifier d.relation) (hrelation : IsIdentifier relation)
    (h : (tableStart relation).toList <+: d.text.toList) : d.relation = relation ∧ d.mark = ' ' := by
  obtain ⟨rest, hrest⟩ := h
  have hstart : declareWord.toList ++ relation.toList ++ ' ' :: ('(' :: rest) = d.text.toList := by
    rw [← hrest]
    simp [tableStart]
  have hdeclared : declared? d.text = some relation := by
    rw [← String.ofList_toList (s := d.text), ← hstart]
    exact declared?_append _ (hrelation.not_mem rfl (by decide)) (hrelation.not_mem rfl (by decide))
      (.inl rfl)
  -- The line has one relation, whichever way it is read; what stands behind it is the mark.
  rw [d.declared?_text (hd.not_mem rfl (by decide)) (hd.not_mem rfl (by decide))] at hdeclared
  have hsame := Option.some.inj hdeclared
  obtain ⟨rest', hrest'⟩ := d.text_eq
  rw [hrest', hsame] at hstart
  exact ⟨hsame, (List.cons.inj (List.append_cancel_left hstart)).1.symm⟩

theorem Input.start_prefix (relation database : String) :
    (start relation).toList <+: (Input.mk relation database).text.toList := by
  have hshown (text : String) : toString text = text := rfl
  refine ⟨("IO=sqlite, filename=\"" ++ database ++ "\")").toList, ?_⟩
  simp [start, text, hshown]

theorem Input.of_start_prefix {relation relation' database : String} (hrelation : IsIdentifier relation)
    (hrelation' : IsIdentifier relation')
    (h : (start relation').toList <+: (Input.mk relation database).text.toList) :
    relation = relation' := by
  obtain ⟨rest, hrest⟩ := h
  obtain ⟨rest', hrest'⟩ := Input.start_prefix relation database
  have hstart : relation.toList ++ ' ' :: ('(' :: rest') = relation'.toList ++ ' ' :: ('(' :: rest) := by
    have hsame := hrest'.trans hrest.symm
    simpa [start] using hsame
  exact String.toList_inj.1 (Text.append_cons_inj_of_not_mem (hrelation.not_mem rfl (by decide))
    (hrelation'.not_mem rfl (by decide)) hstart).1

end Datalog

/-! ### The lines of a program -/

namespace Datalog.Outline

variable {o : Outline} {line : String}

theorem mem_declarations_program :
    line ∈ o.program.part .declarations ↔ ∃ d ∈ o.declarations, d.text = line := by
  rw [← List.mem_map]
  exact LineSet.mem_ofList

theorem mem_directives_program :
    line ∈ o.program.part .directives ↔ ∃ i ∈ o.inputs, i.text = line := by
  rw [← List.mem_map]
  exact LineSet.mem_ofList

end Datalog.Outline

namespace Schema

variable {s : Schema} {database : String} {o : Outline} {p : Program} {line : String}

theorem exists_importOutline (hp : s.generated database = .ok p) {t : Table} (ht : t ∈ s.factTables) :
    ∃ o, t.importOutline database = .ok o := by
  have hsupported := (exists_generated_iff database).1 ⟨p, hp⟩ t ht
  exact (Table.exists_importOutline_iff database).2 hsupported

theorem mem_directives_generated (hp : s.generated database = .ok p) :
    line ∈ p.directives ↔ ∃ t ∈ s.factTables, (Input.mk t.relation database).text = line := by
  have hmem : line ∈ p.part .directives ↔ _ := mem_part_generated hp
  refine hmem.trans ⟨?_, ?_⟩
  · intro ⟨q, hq, hline⟩
    cases hq with
    | pivot => cases LineSet.mem_ofList.1 hline
    | @table t _ ht hq =>
      cases hq with
      | imports ho =>
        obtain ⟨i, hi, hline⟩ := Outline.mem_directives_program.1 hline
        obtain ⟨_, -, -, hinputs⟩ := Table.declares_of_importOutline ho
        rw [hinputs, List.mem_singleton] at hi
        exact ⟨t, ht, hi ▸ hline⟩
      | repository ho =>
        obtain ⟨i, hi, -⟩ := Outline.mem_directives_program.1 hline
        rw [Table.inputs_repositoryOutline ho] at hi
        cases hi
      | primary ho =>
        obtain ⟨i, hi, -⟩ := Outline.mem_directives_program.1 hline
        rw [Table.inputs_primaryPivot ho] at hi
        cases hi
  · intro ⟨t, ht, hline⟩
    obtain ⟨o, ho⟩ := exists_importOutline hp ht
    obtain ⟨_, -, -, hinputs⟩ := Table.declares_of_importOutline ho
    refine ⟨_, .table ht (.imports ho), Outline.mem_directives_program.2 ⟨_, ?_, hline⟩⟩
    rw [hinputs]
    exact List.mem_singleton_self _

theorem text_mem_of_contributes (hp : s.generated database = .ok p)
    (ho : s.Contributes database o.program) {d : Declaration} (hd : d ∈ o.declarations) :
    d.text ∈ p.declarations := by
  have hmem : d.text ∈ p.part .declarations ↔ _ := mem_part_generated hp
  exact hmem.2 ⟨_, ho, Outline.mem_declarations_program.2 ⟨d, hd, rfl⟩⟩

/-- A declaration has plain names, and it is that of a fact table or has a bracket after the relation. -/
theorem plainlyNamed_of_mem_declarations (hplain : ∀ t ∈ s.factTables, t.PlainlyNamed)
    (ho : s.outline database = .ok o) {d : Declaration} (hd : d ∈ o.declarations) :
    d.PlainlyNamed ∧ (d.mark = '(' ∨ ∃ t ∈ s.factTables, ∃ attributes, t.Declares attributes ∧
      d = .table t.relation attributes) := by
  obtain ⟨imports, pivots, keyed, himports, hpivots, hkeyed, rfl⟩ := outline_eq_ok_iff.1 ho
  simp only [Outline.mem_declarations_append, Outline.mem_declarations_concat,
    mem_iff_of_mapM_eq_ok himports, mem_iff_of_mapM_eq_ok hpivots, mem_iff_of_mapM_eq_ok hkeyed] at hd
  rcases hd with (⟨o, ⟨t, ht, ho⟩, hd⟩ | hd | ⟨o, ⟨t, -, ho⟩, hd⟩) | ⟨o, ⟨t, ht, ho⟩, hd⟩
  · obtain ⟨attributes, hattributes, hdeclarations, -⟩ := Table.declares_of_importOutline ho
    rw [hdeclarations, List.mem_singleton] at hd
    subst hd
    exact ⟨(hplain t ht).declaration_table hattributes, .inr ⟨t, ht, attributes, hattributes, rfl⟩⟩
  · rcases List.mem_pair.1 hd with rfl | rfl
    · refine ⟨⟨?_, ?_⟩, .inl rfl⟩
      · simp [IsIdentifier, Declaration.relation, Table.repositoryAttribute]
      · simp [IsIdentifier, Declaration.attributes]
    · refine ⟨⟨?_, ?_⟩, .inl rfl⟩
      · simp [IsIdentifier, Declaration.relation, Table.checkName]
      · simp [IsIdentifier, Declaration.attributes]
  · rw [List.map_eq_nil_iff.1 (Table.relations_repositoryOutline ho)] at hd
    cases hd
  · by_cases hkeyed : t.Keyed
    · obtain ⟨keys, hdeclarations, hnames⟩ := Table.declarations_primaryPivot hkeyed ho
      rw [hdeclarations, List.mem_singleton] at hd
      subst hd
      exact ⟨(hplain t ht).declaration_pivot hnames, .inl rfl⟩
    · have hrelations := Table.relations_primaryPivot ho
      rw [if_neg hkeyed] at hrelations
      rw [List.map_eq_nil_iff.1 hrelations] at hd
      cases hd

theorem tableStart_iff (hs : (s.tables.map Table.name).Nodup)
    (hplain : ∀ t ∈ s.factTables, t.PlainlyNamed) (hp : s.generated database = .ok p) {t : Table}
    (ht : t ∈ s.factTables) {attributes : List Attribute} (hattributes : t.Declares attributes) :
    line ∈ p.declarations ∧ (Declaration.tableStart t.relation).toList <+: line.toList ↔
      line = (Declaration.table t.relation attributes).text := by
  constructor
  · intro ⟨hline, hstart⟩
    obtain ⟨o, ho, rfl⟩ := map_eq_ok_iff.1 hp
    obtain ⟨d, hd, rfl⟩ := Outline.mem_declarations_program.1 hline
    obtain ⟨hnamed, hkind⟩ := plainlyNamed_of_mem_declarations hplain ho hd
    obtain ⟨hrelation, hmark⟩ := Declaration.of_tableStart_prefix hnamed.relation (hplain t ht).relation hstart
    rcases hkind with hbracket | ⟨u, hu, attributes', hattributes', rfl⟩
    · rw [hmark] at hbracket
      cases hbracket
    · obtain rfl := List.inj_on_of_nodup_map (nodup_relation hs) hu ht hrelation
      rw [hattributes'.unique hattributes]
  · rintro rfl
    obtain ⟨o, ho⟩ := exists_importOutline hp ht
    obtain ⟨attributes', hattributes', hdeclarations, -⟩ := Table.declares_of_importOutline ho
    rw [hattributes'.unique hattributes] at hdeclarations
    refine ⟨text_mem_of_contributes hp (.table ht (.imports ho)) ?_, Declaration.tableStart_prefix _ _⟩
    rw [hdeclarations]
    exact List.mem_singleton_self _

theorem inputStart_iff (hplain : ∀ t ∈ s.factTables, t.PlainlyNamed)
    (hp : s.generated database = .ok p) {t : Table} (ht : t ∈ s.factTables) :
    line ∈ p.directives ∧ (Input.start t.relation).toList <+: line.toList ↔
      line = (Input.mk t.relation database).text := by
  rw [mem_directives_generated hp]
  constructor
  · rintro ⟨⟨u, hu, rfl⟩, hstart⟩
    have hrelation : u.relation = t.relation :=
      Input.of_start_prefix (hplain u hu).relation (hplain t ht).relation hstart
    rw [hrelation]
  · rintro rfl
    exact ⟨⟨t, ht, rfl⟩, Input.start_prefix t.relation database⟩

end Schema

end PolicyCheck
