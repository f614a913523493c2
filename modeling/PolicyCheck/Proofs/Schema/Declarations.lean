import Mathlib.Data.List.Nodup
import PolicyCheck.Datalog.PreludeFile
import PolicyCheck.Proofs.Schema.Outline

/-!
# The declared relations of a program

A program declares the relations of the prelude, those of the fact tables, the two of the pivot by
repository, and a pivot for each fact table with a primary key. Nothing keeps the names of tables from
being those of other relations: the names are distinct only if the schema is `Distinct`.
-/

namespace PolicyCheck

open Datalog

namespace Datalog

def declareWord : String := ".decl "

/-- The relation that a line declares, if it is a declaration. -/
def declared? (line : String) : Option String :=
  if declareWord.toList.isPrefixOf line.toList then
    some (String.ofList ((line.toList.drop declareWord.length).takeWhile fun c => c ≠ ' ' ∧ c ≠ '('))
  else none

theorem declared?_append {relation : String} {c : Char} (rest : List Char)
    (hblank : ' ' ∉ relation.toList) (hbracket : '(' ∉ relation.toList) (hc : c = ' ' ∨ c = '(') :
    declared? (String.ofList (declareWord.toList ++ relation.toList ++ c :: rest)) = some relation := by
  have hname : ∀ x ∈ relation.toList, decide (x ≠ ' ' ∧ x ≠ '(') = true := by
    intro x hx
    refine decide_eq_true ⟨?_, ?_⟩
    · rintro rfl
      exact hblank hx
    · rintro rfl
      exact hbracket hx
  have hend : decide (c ≠ ' ' ∧ c ≠ '(') = false := by
    rcases hc with rfl | rfl
    · rfl
    · rfl
  have hword : declareWord.toList.isPrefixOf
      (declareWord.toList ++ (relation.toList ++ c :: rest)) = true :=
    List.isPrefixOf_iff_prefix.2 (List.prefix_append _ _)
  have hdrop : (declareWord.toList ++ (relation.toList ++ c :: rest)).drop declareWord.length =
      relation.toList ++ c :: rest := List.drop_left' rfl
  rw [declared?, String.toList_ofList, List.append_assoc, if_pos hword, hdrop,
    List.takeWhile_append_of_pos hname, List.takeWhile_cons_of_neg (by simp [hend]), List.append_nil,
    String.ofList_toList]

namespace Declaration

/-- The character after the relation in the line of a declaration. -/
def mark : Declaration → Char
  | .table .. => ' '
  | .pivot .. | .names .. => '('

theorem text_eq (d : Declaration) :
    ∃ rest, d.text.toList = declareWord.toList ++ d.relation.toList ++ d.mark :: rest := by
  have hshown (text : String) : toString text = text := rfl
  cases d with
  | table relation attributes =>
    refine ⟨("(" ++ attributeList attributes ++ ")").toList, ?_⟩
    simp [text, Declaration.relation, declareWord, hshown, mark]
  | pivot relation keys label =>
    refine ⟨(attributeList keys ++ ", " ++ label ++ ":symbol, value:Value)").toList, ?_⟩
    simp [text, Declaration.relation, declareWord, hshown, mark]
  | names relation label =>
    refine ⟨(label ++ ":symbol)").toList, ?_⟩
    simp [text, Declaration.relation, declareWord, hshown, mark]

theorem declared?_text (d : Declaration) (hblank : ' ' ∉ d.relation.toList)
    (hbracket : '(' ∉ d.relation.toList) : declared? d.text = some d.relation := by
  obtain ⟨rest, hrest⟩ := d.text_eq
  have hmark : d.mark = ' ' ∨ d.mark = '(' := by
    cases d with
    | table relation attributes => exact .inl rfl
    | pivot relation keys label => exact .inr rfl
    | names relation label => exact .inr rfl
  rw [← String.ofList_toList (s := d.text), hrest]
  exact declared?_append rest hblank hbracket hmark

theorem mark_eq_of_text_eq {d d' : Declaration} (hrelation : d.relation = d'.relation)
    (htext : d.text = d'.text) : d.mark = d'.mark := by
  obtain ⟨rest, hrest⟩ := d.text_eq
  obtain ⟨rest', hrest'⟩ := d'.text_eq
  rw [htext, hrest', hrelation] at hrest
  exact (List.cons.inj (List.append_cancel_left hrest)).1.symm

theorem getLast?_label_of_text_eq {relation relation' label label' : String} {keys keys' : List Attribute}
    (hlabel : label.toList ≠ []) (hlabel' : label'.toList ≠ [])
    (htext : (pivot relation keys label).text = (pivot relation' keys' label').text) :
    label.toList.getLast? = label'.toList.getLast? := by
  have hshown (text : String) : toString text = text := rfl
  have hlist := congrArg String.toList htext
  simp only [text, hshown, String.toList_append] at hlist
  have hlast := congrArg List.getLast? (List.append_cancel_right hlist)
  rwa [List.getLast?_append_of_ne_nil _ hlabel, List.getLast?_append_of_ne_nil _ hlabel'] at hlast

end Declaration

/-! ### The relations of the prelude -/

def PreludeFile.relations : List String := (PreludeFile.all.flatMap PreludeFile.lines).filterMap declared?

/-- Whether the first octet of a line is that of a point. -/
def pointed (line : String) : Bool := line.toByteArray.data.toList.head? == some 46

theorem pointed_of_declared? {line relation : String} (h : declared? line = some relation) :
    pointed line = true := by
  rw [declared?] at h
  split at h
  · rename_i hword
    obtain ⟨cs, hcs⟩ := List.isPrefixOf_iff_prefix.1 hword
    have hline : line = String.ofList ('.' :: ("decl ".toList ++ cs)) := by
      rw [← String.ofList_toList (s := line), ← hcs]
      rfl
    have hpoint : ['.'].utf8Encode.data.toList = [46] := by decide
    rw [pointed, hline, String.toByteArray_ofList, List.utf8Encode_cons, ByteArray.data_append,
      Array.toList_append, hpoint]
    rfl
  · cases h

theorem filterMap_declared? (lines : List String) :
    lines.filterMap declared? = (lines.filter pointed).filterMap declared? := by
  rw [List.filterMap_filter]
  refine List.filterMap_congr fun line _ => ?_
  cases hdeclared : declared? line with
  | none => simp
  | some relation => rw [if_pos (pointed_of_declared? hdeclared)]

theorem PreludeFile.relations_eq : PreludeFile.relations =
    ["json", "json_walk", "json_leaf", "json_path", "json_object_key", "json_array_index"] := by
  -- Only the lines that start with a point are taken apart: to read a text is slow.
  rw [PreludeFile.relations, filterMap_declared?]
  decide +kernel

namespace Outline

def relations (o : Outline) : List String := o.declarations.map Declaration.relation

theorem relations_append (o p : Outline) : (o ++ p).relations = o.relations ++ p.relations :=
  List.map_append

theorem relations_concat (outlines : List Outline) :
    (concat outlines).relations = outlines.flatMap relations := by
  induction outlines with
  | nil => rfl
  | cons o outlines ih =>
    change (o ++ concat outlines).relations = _
    rw [relations_append, ih, List.flatMap_cons]

theorem mem_declarations_append {o p : Outline} {d : Declaration} :
    d ∈ (o ++ p).declarations ↔ d ∈ o.declarations ∨ d ∈ p.declarations := List.mem_append

theorem mem_declarations_concat {outlines : List Outline} {d : Declaration} :
    d ∈ (concat outlines).declarations ↔ ∃ o ∈ outlines, d ∈ o.declarations := by
  induction outlines with
  | nil => simp [concat]
  | cons o outlines ih =>
    change d ∈ (o ++ concat outlines).declarations ↔ _
    rw [mem_declarations_append, ih, List.exists_mem_cons_iff]

theorem mem_declarations_of_mapM {ε : Type} {f : Table → Except ε Outline} {ts : List Table}
    {os : List Outline} (hmap : ts.mapM f = .ok os) {t : Table} (ht : t ∈ ts) :
    ∃ o, f t = .ok o ∧ ∀ d ∈ o.declarations, d ∈ (concat os).declarations := by
  obtain ⟨o, ho, hok⟩ := exists_of_mapM_eq_ok hmap ht
  exact ⟨o, hok, fun d hd => mem_declarations_concat.2 ⟨o, ho, hd⟩⟩

/-- No relation of the prelude is declared by the outline, and no relation by two of its lines. -/
structure DeclaresOnce (o : Outline) : Prop where
  prelude : ∀ d ∈ o.declarations, d.relation ∉ PreludeFile.relations
  line : ∀ d ∈ o.declarations, ∀ d' ∈ o.declarations, d.relation = d'.relation → d.text = d'.text

theorem declaresOnce_of_nodup {o : Outline} (h : (PreludeFile.relations ++ o.relations).Nodup) :
    o.DeclaresOnce := by
  obtain ⟨-, hrelations, hdisjoint⟩ := List.nodup_append'.1 h
  constructor
  · intro d hd hprelude
    exact hdisjoint hprelude (List.mem_map_of_mem hd)
  · intro d hd d' hd' hrelation
    rw [List.inj_on_of_nodup_map hrelations hd hd' hrelation]

/-- The relations of the outlines of tables, when each table contributes those that are known of it. -/
theorem relations_concat_of_mapM {ε : Type} {f : Table → Except ε Outline} {g : Table → List String}
    (hf : ∀ t o, f t = .ok o → o.relations = g t) {ts : List Table} {os : List Outline}
    (hmap : ts.mapM f = .ok os) : (concat os).relations = ts.flatMap g := by
  rw [relations_concat]
  have hall := mapM_eq_ok_iff.1 hmap
  clear hmap
  induction hall with
  | nil => rfl
  | @cons t o ts os hhead _ ih => rw [List.flatMap_cons, List.flatMap_cons, ih, hf t o hhead]

end Outline

end Datalog

namespace Table

def Keyed (t : Table) : Prop := t.primaryKey ≠ []

instance (t : Table) : Decidable t.Keyed := inferInstanceAs (Decidable (_ ≠ _))

def attributeRelation (t : Table) : String := t.relation ++ "_attribute"

theorem declarations_importOutline {database : String} {t : Table} {o : Outline}
    (h : t.importOutline database = .ok o) :
    ∃ attributes, o.declarations = [.table t.relation attributes] := by
  obtain ⟨d, hd, h⟩ := bind_eq_ok_iff.1 h
  obtain ⟨attributes, -, hd⟩ := bind_eq_ok_iff.1 hd
  obtain rfl := Except.ok.inj hd
  obtain rfl := Except.ok.inj h
  exact ⟨attributes, rfl⟩

theorem relations_importOutline {database : String} {t : Table} {o : Outline}
    (h : t.importOutline database = .ok o) : o.relations = [t.relation] := by
  obtain ⟨attributes, hdeclarations⟩ := declarations_importOutline h
  rw [Outline.relations, hdeclarations]
  rfl

theorem relations_repositoryOutline {t : Table} {o : Outline} (h : t.repositoryOutline = .ok o) :
    o.relations = [] := by
  rw [repositoryOutline] at h
  split at h
  · obtain ⟨rules, -, h⟩ := bind_eq_ok_iff.1 h
    obtain rfl := Except.ok.inj h
    rfl
  · obtain rfl := Except.ok.inj h
    rfl

theorem name_keyAttribute {t : Table} {key : String} {a : Attribute} (h : t.keyAttribute key = .ok a) :
    a.name = key := by
  rw [keyAttribute] at h
  split at h
  · rename_i c hfound
    obtain ⟨type, -, h⟩ := bind_eq_ok_iff.1 h
    obtain rfl := Except.ok.inj h
    have hname := List.find?_some (p := fun c : Column => c.name == key) hfound
    exact beq_iff_eq.1 hname
  · cases h

theorem declarations_primaryPivot {t : Table} {o : Outline} (hkeyed : t.Keyed)
    (h : t.primaryPivot = .ok o) : ∃ keys, o.declarations = [.pivot t.attributeRelation keys "key"] ∧
      keys.map Attribute.name = t.primaryKey := by
  have hnonempty : ¬ t.primaryKey.isEmpty = true := mt List.isEmpty_iff.1 hkeyed
  rw [primaryPivot, if_neg hnonempty] at h
  obtain ⟨keys, hkeys, h⟩ := bind_eq_ok_iff.1 h
  obtain ⟨rules, -, h⟩ := bind_eq_ok_iff.1 h
  obtain rfl := Except.ok.inj h
  refine ⟨keys, rfl, ?_⟩
  rw [← List.forall₂_eq_eq_eq, List.forall₂_map_left_iff]
  exact ((mapM_eq_ok_iff.1 hkeys).imp fun _ _ => name_keyAttribute).flip

theorem relations_primaryPivot {t : Table} {o : Outline} (h : t.primaryPivot = .ok o) :
    o.relations = if t.Keyed then [t.attributeRelation] else [] := by
  by_cases hkeyed : t.Keyed
  · obtain ⟨keys, hdeclarations, -⟩ := declarations_primaryPivot hkeyed h
    rw [Outline.relations, hdeclarations, if_pos hkeyed]
    rfl
  · have hempty : t.primaryKey = [] := not_not.1 hkeyed
    rw [primaryPivot, if_pos (by rw [hempty]; rfl)] at h
    obtain rfl := Except.ok.inj h
    rw [if_neg hkeyed]
    rfl

end Table

namespace Schema

theorem relations_outline {s : Schema} {database : String} {o : Outline}
    (h : s.outline database = .ok o) :
    o.relations = s.factTables.map Table.relation ++ [Table.repositoryAttribute, Table.checkName] ++
      (s.factTables.filter Table.Keyed).map Table.attributeRelation := by
  obtain ⟨imports, pivots, keyed, himports, hpivots, hkeyed, rfl⟩ := outline_eq_ok_iff.1 h
  have hi : (Outline.concat imports).relations = s.factTables.map Table.relation := by
    rw [Outline.relations_concat_of_mapM (fun _ _ => Table.relations_importOutline) himports,
      List.map_eq_flatMap]
  have hp : (pivotDeclarations ++ .concat pivots).relations =
      [Table.repositoryAttribute, Table.checkName] := by
    rw [Outline.relations_append,
      Outline.relations_concat_of_mapM (fun _ _ => Table.relations_repositoryOutline) hpivots]
    simp [Outline.relations, pivotDeclarations, Declaration.relation]
  have hk : (Outline.concat keyed).relations =
      (s.factTables.filter Table.Keyed).map Table.attributeRelation := by
    rw [Outline.relations_concat_of_mapM (fun _ _ => Table.relations_primaryPivot) hkeyed]
    induction s.factTables with
    | nil => rfl
    | cons t ts ih =>
      by_cases ht : t.Keyed
      · simp [ht, ih]
      · simp [ht, ih]
  rw [Outline.relations_append, Outline.relations_append, hi, hp, hk]

/-! ### Distinct names -/

/-- The relations of the prelude and of the pivot by repository. -/
def reserved : List String :=
  PreludeFile.relations ++ [Table.repositoryAttribute, Table.checkName]

theorem reserved_eq : reserved =
    ["json", "json_walk", "json_leaf", "json_path", "json_object_key", "json_array_index",
      "repository_attribute", "check_name"] := by
  rw [reserved, PreludeFile.relations_eq]
  rfl

/-- No name of a fact table's relation is reserved, and neither is that of a pivot by primary key nor
that of a fact table's relation again. -/
structure Distinct (s : Schema) : Prop where
  unreserved : ∀ t ∈ s.factTables, t.relation ∉ reserved
  keyed : ∀ t ∈ s.factTables, t.Keyed → t.relation ≠ "repository"
  unpivoted : ∀ t ∈ s.factTables, ∀ u ∈ s.factTables, u.Keyed → t.relation ≠ u.attributeRelation

/-- The mark is all that the relation of a fact table leaves out of its name. -/
theorem name_eq_of_isFact {t : Table} (ht : t.isFact = true) :
    t.name.toList = Table.factMark :: t.relation.toList := by
  obtain ⟨cs, hcs⟩ := List.head?_eq_some_iff.1 (beq_iff_eq.1 ht)
  rw [Table.relation, if_pos ht, String.toList_ofList, hcs, List.tail_cons]

theorem nodup_relation {s : Schema} (hs : (s.tables.map Table.name).Nodup) :
    (s.factTables.map Table.relation).Nodup := by
  refine List.Nodup.map_on (fun t ht u hu h => ?_) (hs.of_map.filter _)
  obtain ⟨htable, hfact⟩ := List.mem_filter.1 ht
  obtain ⟨hutable, hufact⟩ := List.mem_filter.1 hu
  refine List.inj_on_of_nodup_map hs htable hutable (String.toList_inj.1 ?_)
  rw [name_eq_of_isFact hfact, name_eq_of_isFact hufact, h]

/-- A pivot by primary key has a reserved name only if it is that of the pivot by repository. -/
theorem attributeRelation_mem_reserved {t : Table} :
    t.attributeRelation ∈ reserved ↔ t.relation = "repository" := by
  have hends : reserved.filter (fun name => "_attribute".toList.isSuffixOf name.toList) =
      ["repository" ++ "_attribute"] := by
    rw [reserved_eq]
    decide +kernel
  have hend : "_attribute".toList.isSuffixOf t.attributeRelation.toList = true := by
    rw [Table.attributeRelation, String.toList_append, List.isSuffixOf_iff_suffix]
    exact List.suffix_append _ _
  have hmem : t.attributeRelation ∈ reserved ↔ t.attributeRelation = "repository" ++ "_attribute" := by
    rw [← List.mem_singleton, ← hends, List.mem_filter, hend]
    simp
  rw [hmem, Table.attributeRelation, String.append_left_inj]

theorem nodup_attributeRelation {s : Schema} (hs : (s.tables.map Table.name).Nodup) :
    ((s.factTables.filter Table.Keyed).map Table.attributeRelation).Nodup := by
  have hrelations : ((s.factTables.filter Table.Keyed).map Table.relation).Nodup :=
    (nodup_relation hs).sublist (List.filter_sublist.map _)
  have hmap : (s.factTables.filter Table.Keyed).map Table.attributeRelation =
      ((s.factTables.filter Table.Keyed).map Table.relation).map (· ++ "_attribute") := by
    rw [List.map_map]
    rfl
  rw [hmap]
  exact hrelations.map fun a b h => (String.append_left_inj "_attribute").1 h

theorem nodup_of_distinct {s : Schema} {database : String} {o : Outline}
    (hs : (s.tables.map Table.name).Nodup) (ho : s.outline database = .ok o) (hdistinct : s.Distinct) :
    (PreludeFile.relations ++ o.relations).Nodup := by
  have hperm : (PreludeFile.relations ++ o.relations).Perm (reserved ++
      (s.factTables.map Table.relation ++
        (s.factTables.filter Table.Keyed).map Table.attributeRelation)) := by
    rw [relations_outline ho, reserved]
    simp only [List.append_assoc]
    refine List.Perm.append_left _ ?_
    rw [← List.append_assoc, ← List.append_assoc]
    exact List.perm_append_comm.append_right _
  have hreserved : reserved.Nodup := by
    rw [reserved_eq]
    decide +kernel
  rw [hperm.nodup_iff, List.nodup_append', List.nodup_append']
  refine ⟨hreserved, ⟨nodup_relation hs, nodup_attributeRelation hs, ?_⟩, ?_⟩
  · intro name hname hpivot
    obtain ⟨t, ht, rfl⟩ := List.mem_map.1 hname
    obtain ⟨u, hu, hrelation⟩ := List.mem_map.1 hpivot
    obtain ⟨hfact, hkeyed⟩ := List.mem_filter.1 hu
    exact hdistinct.unpivoted t ht u hfact (of_decide_eq_true hkeyed) hrelation.symm
  · intro name hname hmem
    rcases List.mem_append.1 hmem with hmem | hmem
    · obtain ⟨t, ht, rfl⟩ := List.mem_map.1 hmem
      exact hdistinct.unreserved t ht hname
    · obtain ⟨u, hu, rfl⟩ := List.mem_map.1 hmem
      obtain ⟨hfact, hkeyed⟩ := List.mem_filter.1 hu
      exact hdistinct.keyed u hfact (of_decide_eq_true hkeyed) (attributeRelation_mem_reserved.1 hname)

/-- The declaration of a fact table, those of the pivot by repository and that of a pivot by primary key
are among the declarations of the schema. -/
theorem declarations_outline {s : Schema} {database : String} {o : Outline}
    (h : s.outline database = .ok o) :
    (∀ t ∈ s.factTables, ∃ attributes, .table t.relation attributes ∈ o.declarations) ∧
      .pivot Table.repositoryAttribute [⟨"repository", .number⟩] "attribute" ∈ o.declarations ∧
      .names Table.checkName "check" ∈ o.declarations ∧
      ∀ t ∈ s.factTables, t.Keyed → ∃ keys, .pivot t.attributeRelation keys "key" ∈ o.declarations := by
  obtain ⟨imports, checks, pivots, himports, -, hpivots, rfl⟩ := outline_eq_ok_iff.1 h
  simp only [Outline.mem_declarations_append]
  refine ⟨fun t ht => ?_, .inl (.inr (.inl List.mem_cons_self)),
    .inl (.inr (.inl (List.mem_cons_of_mem _ List.mem_cons_self))), fun t ht htkeyed => ?_⟩
  · obtain ⟨o, ho, hmem⟩ := Outline.mem_declarations_of_mapM himports ht
    obtain ⟨attributes, hdeclarations⟩ := Table.declarations_importOutline ho
    exact ⟨attributes, .inl (.inl (hmem _ (hdeclarations ▸ List.mem_singleton_self _)))⟩
  · obtain ⟨o, ho, hmem⟩ := Outline.mem_declarations_of_mapM hpivots ht
    obtain ⟨keys, hdeclarations, -⟩ := Table.declarations_primaryPivot htkeyed ho
    exact ⟨keys, .inr (hmem _ (hdeclarations ▸ List.mem_singleton_self _))⟩

/-- Where each relation has one line the schema is distinct: the line of a fact table has a blank where
that of a pivot or of the names has a bracket, and the two kinds of pivots have different labels. -/
theorem distinct_of_declaresOnce {s : Schema} {database : String} {o : Outline}
    (ho : s.outline database = .ok o) (honce : o.DeclaresOnce) : s.Distinct := by
  obtain ⟨htables, hpivot, hnames, hkeyed⟩ := declarations_outline ho
  have htable_ne (t : Table) (ht : t ∈ s.factTables) (d : Declaration) (hd : d ∈ o.declarations)
      (hmark : d.mark = '(') : t.relation ≠ d.relation := by
    intro hrelation
    obtain ⟨attributes, htable⟩ := htables t ht
    have hline : (Declaration.table t.relation attributes).mark = d.mark :=
      Declaration.mark_eq_of_text_eq hrelation (honce.line _ htable d hd hrelation)
    rw [hmark] at hline
    cases hline
  constructor
  · intro t ht hmem
    rcases List.mem_append.1 hmem with hprelude | hmem
    · obtain ⟨attributes, htable⟩ := htables t ht
      exact honce.prelude _ htable hprelude
    · rcases List.mem_pair.1 hmem with hrelation | hrelation
      · exact htable_ne t ht _ hpivot rfl hrelation
      · exact htable_ne t ht _ hnames rfl hrelation
  · intro t ht htkeyed hrelation
    obtain ⟨keys, hkey⟩ := hkeyed t ht htkeyed
    have hsame : t.attributeRelation = Table.repositoryAttribute := by
      rw [Table.attributeRelation, hrelation]
      rfl
    have hlast := Declaration.getLast?_label_of_text_eq (by decide) (by decide)
      (honce.line _ hkey _ hpivot hsame)
    cases hlast
  · intro t ht u hu hukeyed
    obtain ⟨keys, hkey⟩ := hkeyed u hu hukeyed
    exact htable_ne t ht _ hkey rfl

/-- The lines of the declarations of a generated program are those of the outline. No relation is
declared twice beside the prelude, and no two lines declare one relation, exactly if the schema is
distinct. -/
theorem nodup_relations_iff {s : Schema} {database : String} {p : Program}
    (hs : (s.tables.map Table.name).Nodup) (hp : s.generated database = .ok p) :
    ∃ o : Outline, s.outline database = .ok o ∧
      (∀ line, line ∈ p.declarations ↔ ∃ d ∈ o.declarations, d.text = line) ∧
      ((PreludeFile.relations ++ o.relations).Nodup ↔ s.Distinct) ∧
      (o.DeclaresOnce ↔ s.Distinct) := by
  obtain ⟨o, ho, rfl⟩ := map_eq_ok_iff.1 hp
  have honce (hdistinct : s.Distinct) : o.DeclaresOnce :=
    Outline.declaresOnce_of_nodup (nodup_of_distinct hs ho hdistinct)
  refine ⟨o, ho, fun line => ?_, ?_, distinct_of_declaresOnce ho, honce⟩
  · rw [Outline.program, Program.ofLists, LineSet.mem_ofList, List.mem_map]
  · constructor
    · intro hnodup
      exact distinct_of_declaresOnce ho (Outline.declaresOnce_of_nodup hnodup)
    · exact nodup_of_distinct hs ho

/-- A schema with one fact table, which has a primary key. -/
def single (table : String) : Schema := ⟨[⟨table, [⟨"id", .integer, true⟩]⟩]⟩

theorem nodup_relations_single :
    ∃ o : Outline, (single "_check").outline "/db" = .ok o ∧
      (PreludeFile.relations ++ o.relations).Nodup ∧ o.DeclaresOnce := by
  have hsome : ((single "_check").generated "/db").toOption.isSome = true := by decide +kernel
  have hdistinct : (single "_check").Distinct := by
    constructor
    · rw [reserved_eq]
      decide +kernel
    · decide +kernel
    · decide +kernel
  cases hp : (single "_check").generated "/db" with
  | error e =>
    rw [hp] at hsome
    cases hsome
  | ok p =>
    obtain ⟨o, ho, -, hnodup, honce⟩ := nodup_relations_iff (by decide) hp
    exact ⟨o, ho, hnodup.2 hdistinct, honce.2 hdistinct⟩

/-- A fact table by the name of the repository has the pivot by repository declared again. -/
theorem redeclared_repository_attribute :
    ((single "_repository").tables.map Table.name).Nodup ∧
      ∃ p, (single "_repository").generated "/db" = .ok p ∧
        ".decl repository_attribute(repository:number, attribute:symbol, value:Value)" ∈ p.declarations ∧
        ".decl repository_attribute(id:number, key:symbol, value:Value)" ∈ p.declarations := by
  refine ⟨by decide, ?_⟩
  have hlines : ((single "_repository").generated "/db").toOption.map (fun p => p.declarations.lines) = some
      [".decl check_name(check:symbol)", ".decl repository (id:number)",
        ".decl repository_attribute(id:number, key:symbol, value:Value)",
        ".decl repository_attribute(repository:number, attribute:symbol, value:Value)"] := by
    decide +kernel
  cases hp : (single "_repository").generated "/db" with
  | error e =>
    rw [hp] at hlines
    cases hlines
  | ok p =>
    rw [hp] at hlines
    have hdeclarations : p.declarations.lines = _ := Option.some.inj hlines
    refine ⟨p, rfl, ?_, ?_⟩
    · change _ ∈ p.declarations.lines
      rw [hdeclarations]
      exact List.mem_cons_of_mem _ (List.mem_cons_of_mem _ (List.mem_cons_of_mem _ List.mem_cons_self))
    · change _ ∈ p.declarations.lines
      rw [hdeclarations]
      exact List.mem_cons_of_mem _ (List.mem_cons_of_mem _ List.mem_cons_self)

end Schema

end PolicyCheck
