import PolicyCheck.Proofs.Schema.Import

/-!
# Agreement of declarations and rules

Declarations, directives, heads and bodies come from loops of their own over the columns of a table. They
agree: the declaration of a fact table has an attribute for each column, in order; the body of a rule has
an argument for each, with the value's variable in the place of the column that the rule is labelled with;
and a head has as many arguments as the relation has attributes in the declaration of the same pivot. What
a pivot binds in a body (`Table.Projects`) is the same for both kinds of pivots.
-/

namespace PolicyCheck

open Datalog

namespace Datalog

def Argument.variables : Argument → List String
  | any => [PivotRule.wildcard]
  | var name => [name]
  | symbol _ | number _ | empty _ => []
  | single _ content => content.variables
  | decimal subject | length subject => subject.variables
  | pair _ first second | cat first second | minus first second => first.variables ++ second.variables
  | slice subject start size => subject.variables ++ start.variables ++ size.variables

def Atom.variables (a : Atom) : List String := a.arguments.flatMap Argument.variables

/-- The atoms in the body of a rule, without the conditions. -/
def Rule.atoms (r : Rule) : List Atom :=
  r.body.filterMap fun
    | .atom a => some a
    | _ => none

/-- The head of a rule has an argument for each attribute in the one declaration of its relation, and its
variables are those of the body. -/
structure Rule.Fits (declarations : List Declaration) (r : Rule) : Prop where
  head : ∃ d, (∀ d', d' ∈ declarations ∧ d'.relation = r.head.relation ↔ d' = d) ∧
    r.head.arguments.length = d.attributes.length
  bound : ∀ x ∈ r.head.variables, x ∈ r.atoms.flatMap Atom.variables

theorem PivotRule.atoms_rule (p : PivotRule) : p.rule.atoms = [⟨p.source, p.pattern.map .ofText⟩] := by
  rw [Rule.atoms, rule]
  cases p.excluded with
  | none => rfl
  | some e => rfl

end Datalog

namespace Column

variable {c : Column} {a : Attribute}

theorem type_of_attribute? {constructor : String} (ha : c.attribute? = some a)
    (hconstructor : c.type.constructor? = some constructor) :
    (a.type = .symbol ↔ constructor = "$String") ∧
      (a.type = .number ↔ constructor = "$Int" ∨ constructor = "$Bool") := by
  obtain ⟨type, hattribute, rfl⟩ := Option.map_eq_some_iff.1 ha
  change (type = .symbol ↔ _) ∧ (type = .number ↔ _)
  cases htype : c.type with
  | other name =>
    rw [htype] at hattribute
    cases hattribute
  | integer | boolean | string | text =>
    rw [htype] at hattribute hconstructor
    obtain rfl := Option.some.inj hattribute
    obtain rfl := Option.some.inj hconstructor
    decide

end Column

namespace Table

/-- What a rule for one column of the table binds in its body, and what it wraps. -/
structure Projects (t : Table) (c : Column) (p : PivotRule) : Prop where
  mem : c ∈ t.columns
  source : p.source = t.relation
  length : p.pattern.length = t.columns.length
  value : ∀ i : Nat, t.columns[i]? = some c → p.pattern[i]? = some PivotRule.valueVariable
  keys : ∀ k ∈ p.keys, k ∈ p.pattern
  wrapper : c.type.constructor? = some p.wrapper.text

/-- A rule agrees with the declaration of the table: its body has one atom with an argument for each
column, and the column that it is labelled with is the one that it binds and wraps. -/
structure Agrees (t : Table) (attributes : List Attribute) (nameOf : Column → String) (r : Rule) :
    Prop where
  body : ∃ arguments, r.atoms = [⟨t.relation, arguments⟩] ∧ arguments.length = t.columns.length
  value : ∃ keys constructor column, ∃ position : Nat, ∃ declared,
    r.head.arguments = keys ++ [.symbol (nameOf column), .single constructor PivotRule.valueArgument] ∧
    t.columns[position]? = some column ∧
    (∀ c ∈ t.columns, nameOf c = nameOf column → c = column) ∧
    (∀ a ∈ r.atoms, a.arguments[position]? = some PivotRule.valueArgument) ∧
    attributes[position]? = some declared ∧
    (declared.type = .symbol ↔ constructor = "$String") ∧
    (declared.type = .number ↔ constructor = "$Int" ∨ constructor = "$Bool")

variable {t : Table} {c : Column} {p : PivotRule} {attributes : List Attribute}

theorem projects_of_pattern {keys : List String} {variableOf : String → String} (hc : c ∈ t.columns)
    (hsource : p.source = t.relation) (hheads : p.keys = keys.map variableOf)
    (hpattern : p.pattern = t.columns.map fun d =>
      if d.name = c.name then PivotRule.valueVariable
      else if d.name ∈ keys then variableOf d.name
      else PivotRule.wildcard)
    (hkeys : ∀ k ∈ keys, k ∈ t.columns.map Column.name) (happart : c.name ∉ keys)
    (hwrapper : c.type.constructor? = some p.wrapper.text) : t.Projects c p where
  mem := hc
  source := hsource
  length := by rw [hpattern, List.length_map]
  value := by
    intro i hi
    rw [hpattern, List.getElem?_map, hi, Option.map_some, if_pos rfl]
  keys := by
    intro x hx
    rw [hheads] at hx
    obtain ⟨k, hk, rfl⟩ := List.mem_map.1 hx
    obtain ⟨d, hd, rfl⟩ := List.mem_map.1 (hkeys k hk)
    have hne : d.name ≠ c.name := fun heq => happart (heq ▸ hk)
    rw [hpattern]
    refine List.mem_map.2 ⟨d, hd, ?_⟩
    rw [if_neg hne, if_pos hk]
  wrapper := hwrapper

theorem Projects.bound (h : t.Projects c p) :
    ∀ x ∈ p.rule.head.variables, x ∈ p.rule.atoms.flatMap Atom.variables := by
  obtain ⟨i, hi⟩ := List.getElem?_of_mem h.mem
  have hvalue : PivotRule.valueVariable ∈ p.pattern := List.mem_of_getElem? (h.value i hi)
  have hbody {k x : String} (hk : k ∈ p.pattern) (hx : x ∈ (Argument.ofText k).variables) :
      x ∈ p.rule.atoms.flatMap Atom.variables := by
    rw [p.atoms_rule]
    exact List.mem_flatMap.2 ⟨_, List.mem_singleton_self _,
      List.mem_flatMap.2 ⟨_, List.mem_map_of_mem hk, hx⟩⟩
  intro x hx
  obtain ⟨a, ha, hx⟩ := List.mem_flatMap.1 hx
  rcases List.mem_append.1 ha with ha | ha
  · obtain ⟨k, hk, rfl⟩ := List.mem_map.1 ha
    exact hbody (h.keys k hk) hx
  · rcases List.mem_pair.1 ha with rfl | rfl
    · cases hx
    · exact hbody hvalue hx

theorem Projects.fits (h : t.Projects c p) {declarations : List Declaration} {d : Declaration}
    (hd : ∀ d', d' ∈ declarations ∧ d'.relation = p.target ↔ d' = d)
    (hlength : d.attributes.length = p.keys.length + 2) : p.rule.Fits declarations :=
  ⟨⟨d, hd, p.length_arguments_rule.trans hlength.symm⟩, h.bound⟩

theorem Projects.agrees (h : t.Projects c p) (hattributes : t.Declares attributes)
    {nameOf : Column → String} (hlabel : p.label = nameOf c)
    (hname : ∀ d ∈ t.columns, nameOf d = nameOf c → d = c) : t.Agrees attributes nameOf p.rule where
  body := by
    refine ⟨p.pattern.map .ofText, ?_, ?_⟩
    · rw [p.atoms_rule, h.source]
    · rw [List.length_map, h.length]
  value := by
    obtain ⟨i, hi⟩ := List.getElem?_of_mem h.mem
    have hdeclared := congrArg (·[i]?) hattributes
    simp only [List.getElem?_map, hi, Option.map_some] at hdeclared
    obtain ⟨a, ha, hattribute⟩ := Option.map_eq_some_iff.1 hdeclared.symm
    obtain ⟨hsymbol, hnumber⟩ := Column.type_of_attribute? hattribute.symm h.wrapper
    refine ⟨p.keys.map .ofText, p.wrapper.text, c, i, a, ?_, hi, hname, ?_, ha, hsymbol, hnumber⟩
    · rw [← hlabel]
      rfl
    · intro atom hatom
      rw [p.atoms_rule] at hatom
      rw [List.mem_singleton.1 hatom, List.getElem?_map, h.value i hi]
      rfl

/-! ### The two kinds of pivots -/

theorem projects_repositoryRule (hc : c ∈ t.columns) (hmeta : c.name ∉ metaColumns)
    (hrepository : repositoryColumn ∈ t.columns.map Column.name) (h : t.repositoryRule c = .ok p) :
    t.Projects c p := by
  have hbinds := binds_repositoryRule hc hmeta hrepository h
  obtain ⟨w, hw, rfl⟩ := repositoryRule_eq_ok h
  exact projects_of_pattern hc hbinds.source hbinds.heads hbinds.pattern hbinds.keys_mem hbinds.apart hw

theorem projects_keyedRule (hc : c ∈ t.columns) (hkey : c.name ∉ t.primaryKey) {target : String}
    (h : t.keyedRule target t.primaryKey c = .ok p) : t.Projects c p := by
  obtain ⟨w, hw, rfl⟩ := keyedRule_eq_ok h
  exact projects_of_pattern hc rfl t.primaryKey.map_id.symm rfl (fun _ => primaryKey_subset) hkey hw

end Table

namespace Schema

variable {s : Schema} {database : String} {o : Outline} {p : Program} {line : String}

theorem declarations_repositoryPivot (h : s.repositoryPivot = .ok o) :
    o.declarations = pivotDeclarations.declarations := by
  obtain ⟨pivots, hpivots, rfl⟩ := repositoryPivot_eq_ok_iff.1 h
  have hnone : (Outline.concat pivots).declarations = [] := by
    rw [List.eq_nil_iff_forall_not_mem]
    intro d hd
    obtain ⟨o, ho, hd⟩ := Outline.mem_declarations_concat.1 hd
    obtain ⟨t, -, ht⟩ := (mem_iff_of_mapM_eq_ok hpivots).1 ho
    have hrelations := Table.relations_repositoryOutline ht
    rw [List.map_eq_nil_iff.1 hrelations] at hd
    cases hd
  change pivotDeclarations.declarations ++ (Outline.concat pivots).declarations = _
  rw [hnone, List.append_nil]

end Schema

namespace Schema

variable {s : Schema} {database : String} {o : Outline} {p : Program} {line : String}

/-- A pivot of a schema, with the text that its rules put beside the value of a column. -/
inductive Pivots (s : Schema) : (Table → Column → String) → Outline → Prop
  | repository {o : Outline} (h : s.repositoryPivot = .ok o) :
    s.Pivots (fun t c => t.relation ++ "." ++ c.name) o
  | primary {t : Table} {o : Outline} (ht : t ∈ s.factTables) (h : t.primaryPivot = .ok o) :
    s.Pivots (fun _ c => c.name) o

/-! ### The rules of a program -/

theorem exists_primaryPivot (hp : s.generated database = .ok p) {t : Table} (ht : t ∈ s.factTables) :
    ∃ o, t.primaryPivot = .ok o :=
  Table.Supported.exists_primaryPivot ((exists_generated_iff database).1 ⟨p, hp⟩ t ht)

theorem keys_ne_nil_outline (h : s.outline database = .ok o) : ∀ p ∈ o.rules, p.keys ≠ [] := by
  intro p hp
  -- What is known of a rule of the outline is its clause, which has an argument for each key.
  have hkeys {p' : PivotRule} (hrule : p'.rule = p.rule) (hkeys : p'.keys ≠ []) : p.keys ≠ [] := by
    have hlength := congrArg (fun r => r.head.arguments.length) hrule
    simp only [PivotRule.length_arguments_rule] at hlength
    rw [← List.length_pos_iff] at hkeys ⊢
    omega
  rcases (mem_clauses_outline h).1 (Outline.mem_clauses.2 (.inr ⟨p, hp, rfl⟩)) with
    ⟨pivot, hpivot, hclause⟩ | ⟨t, -, hkeyed, c, -, -, p', hp', hrule⟩
  · rcases Outline.mem_clauses.1 hclause with ⟨f, -, hfact⟩ | ⟨p', hp', hrule⟩
    · cases congrArg Rule.body hfact
    · exact hkeys hrule (keys_ne_nil_repositoryPivot hpivot p' hp')
  · obtain ⟨w, -, rfl⟩ := Table.keyedRule_eq_ok hp'
    exact hkeys hrule hkeyed

theorem mem_rules_generated (hp : s.generated database = .ok p) :
    line ∈ p.rules ↔ ∃ nameOf o, s.Pivots nameOf o ∧ ∃ r ∈ o.clauses, r.text = line := by
  obtain ⟨o, ho, hprogram⟩ := map_eq_ok_iff.1 hp
  have hclauses (r : Rule) : r ∈ o.clauses ↔ ∃ nameOf q, s.Pivots nameOf q ∧ r ∈ q.clauses := by
    rw [mem_clauses_outline ho]
    constructor
    · rintro (⟨pivot, hpivot, hr⟩ | ⟨t, ht, hr⟩)
      · exact ⟨_, _, .repository hpivot, hr⟩
      · obtain ⟨q, hq⟩ := exists_primaryPivot hp ht
        exact ⟨_, _, .primary ht hq, (Table.mem_clauses_primaryPivot hq).2 hr⟩
    · rintro ⟨_, q, hpivots, hr⟩
      cases hpivots with
      | repository hpivot => exact .inl ⟨q, hpivot, hr⟩
      | primary ht hq => exact .inr ⟨_, ht, (Table.mem_clauses_primaryPivot hq).1 hr⟩
  rw [← hprogram, Outline.mem_rules_program (keys_ne_nil_outline ho)]
  constructor
  · intro ⟨r, hr, hline⟩
    obtain ⟨nameOf, q, hpivots, hr⟩ := (hclauses r).1 hr
    exact ⟨nameOf, q, hpivots, r, hr, hline⟩
  · intro ⟨nameOf, q, hpivots, r, hr, hline⟩
    exact ⟨r, (hclauses r).2 ⟨nameOf, q, hpivots, hr⟩, hline⟩

theorem Pivots.text_mem {nameOf : Table → Column → String} (h : s.Pivots nameOf o)
    (hp : s.generated database = .ok p) : ∀ d ∈ o.declarations, d.text ∈ p.declarations := by
  intro d hd
  cases h with
  | repository ho =>
    rw [declarations_repositoryPivot ho] at hd
    exact text_mem_of_contributes hp .pivot hd
  | primary ht ho => exact text_mem_of_contributes hp (.table ht (.primary ho)) hd

theorem mem_pivotDeclarations_iff {d d' : Declaration} (hd : d ∈ pivotDeclarations.declarations) :
    d' ∈ pivotDeclarations.declarations ∧ d'.relation = d.relation ↔ d' = d := by
  have hrelations : (pivotDeclarations.declarations.map Declaration.relation).Nodup := by decide +kernel
  constructor
  · intro ⟨hd', hrelation⟩
    exact List.inj_on_of_nodup_map hrelations hd' hd hrelation
  · rintro rfl
    exact ⟨hd, rfl⟩

theorem fits_nameFact (name : String) :
    (NameFact.rule ⟨Table.checkName, name⟩).Fits pivotDeclarations.declarations := by
  have hd : .names Table.checkName "check" ∈ pivotDeclarations.declarations :=
    List.mem_cons_of_mem _ List.mem_cons_self
  exact ⟨⟨_, fun d' => mem_pivotDeclarations_iff hd, rfl⟩, fun x hx => nomatch hx⟩

/-- A rule of a pivot without a body is the fact about a name. Every other one is labelled with the column
that it projects, and has an argument for each key beside the label and the value. -/
theorem Pivots.cases_of_mem {nameOf : Table → Column → String} (h : s.Pivots nameOf o) {r : Rule}
    (hr : r ∈ o.clauses) : r.body = [] ∧ r.Fits o.declarations ∨
      ∃ t ∈ s.factTables, ∃ c q, t.Projects c q ∧ q.label = nameOf t c ∧ q.rule = r ∧
        ∃ d : Declaration, (∀ d', d' ∈ o.declarations ∧ d'.relation = q.target ↔ d' = d) ∧
          d.attributes.length = q.keys.length + 2 := by
  cases h with
  | repository ho =>
    rw [declarations_repositoryPivot ho]
    obtain ⟨t, ht, rfl | ⟨hpivots, c, hc, hmeta, q, hq, rfl⟩⟩ := (mem_clauses_repositoryPivot ho).1 hr
    · exact .inl ⟨rfl, fits_nameFact t.relation⟩
    · have hrepository := (Table.pivotsByRepository_iff.1 hpivots).2
      have hprojects := Table.projects_repositoryRule hc hmeta hrepository hq
      obtain ⟨w, -, rfl⟩ := Table.repositoryRule_eq_ok hq
      exact .inr ⟨t, ht, c, _, hprojects, rfl, rfl, _,
        fun d' => mem_pivotDeclarations_iff List.mem_cons_self, rfl⟩
  | @primary t _ ht ho =>
    obtain ⟨hkeyed, c, hc, hkey, q, hq, rfl⟩ := (Table.mem_clauses_primaryPivot ho).1 hr
    obtain ⟨keys, hdeclarations, hnames⟩ := Table.declarations_primaryPivot hkeyed ho
    have hprojects := Table.projects_keyedRule hc hkey hq
    obtain ⟨w, -, rfl⟩ := Table.keyedRule_eq_ok hq
    rw [hdeclarations]
    refine .inr ⟨t, ht, c, _, hprojects, rfl, rfl, .pivot t.attributeRelation keys "key", fun d' => ?_, ?_⟩
    · rw [List.mem_singleton]
      exact ⟨fun h => h.1, fun h => ⟨h, h ▸ rfl⟩⟩
    · change (keys ++ _).length = _
      rw [List.length_append, ← hnames, List.length_map]
      rfl

theorem Pivots.name_eq {nameOf : Table → Column → String} (h : s.Pivots nameOf o) {t : Table}
    {c d : Column} (heq : nameOf t d = nameOf t c) : d.name = c.name := by
  cases h with
  | repository => exact (String.append_right_inj _).1 heq
  | primary => exact heq

theorem Pivots.fits {nameOf : Table → Column → String} (h : s.Pivots nameOf o) {r : Rule}
    (hr : r ∈ o.clauses) : r.Fits o.declarations := by
  rcases h.cases_of_mem hr with ⟨-, hfits⟩ | ⟨t, -, c, q, hprojects, -, rfl, d, hd, hlength⟩
  · exact hfits
  · exact hprojects.fits hd hlength

theorem Pivots.agrees {nameOf : Table → Column → String} (h : s.Pivots nameOf o)
    (hcolumns : ∀ t ∈ s.factTables, (t.columns.map Column.name).Nodup)
    (hp : s.generated database = .ok p) {r : Rule} (hr : r ∈ o.clauses) (hbody : r.body ≠ []) :
    ∃ t ∈ s.factTables, ∃ attributes, t.Declares attributes ∧ t.Agrees attributes (nameOf t) r := by
  rcases h.cases_of_mem hr with ⟨hempty, -⟩ | ⟨t, ht, c, q, hprojects, hlabel, rfl, -⟩
  · exact absurd hempty hbody
  · obtain ⟨i, hi⟩ := exists_importOutline hp ht
    obtain ⟨attributes, hattributes, -⟩ := Table.declares_of_importOutline hi
    refine ⟨t, ht, attributes, hattributes, hprojects.agrees hattributes hlabel fun d hd heq => ?_⟩
    exact List.inj_on_of_nodup_map (hcolumns t ht) hd hprojects.mem (h.name_eq heq)

/-- Declarations, directives and rules of a program agree. Each fact table is declared once, with its
columns in order, and has one directive. A rule fits the declaration that its pivot makes for its head. If
it has a body, that is an atom over a fact table with an argument for each column, and the rule wraps the
column that it is labelled with according to its type. -/
theorem generated_agrees (hs : (s.tables.map Table.name).Nodup)
    (hcolumns : ∀ t ∈ s.factTables, (t.columns.map Column.name).Nodup)
    (hplain : ∀ t ∈ s.factTables, t.PlainlyNamed) (hp : s.generated database = .ok p) :
    (∀ t ∈ s.factTables, ∃ attributes, t.Declares attributes ∧
      (∀ line, line ∈ p.declarations ∧ (Declaration.tableStart t.relation).toList <+: line.toList ↔
        line = (Declaration.table t.relation attributes).text) ∧
      (∀ line, line ∈ p.directives ∧ (Input.start t.relation).toList <+: line.toList ↔
        line = (Input.mk t.relation database).text)) ∧
    (∀ line, line ∈ p.rules ↔ ∃ nameOf o, s.Pivots nameOf o ∧ ∃ r ∈ o.clauses, r.text = line) ∧
    (∀ nameOf o, s.Pivots nameOf o → (∀ d ∈ o.declarations, d.text ∈ p.declarations) ∧
      ∀ r ∈ o.clauses, r.Fits o.declarations ∧ (r.body ≠ [] →
        ∃ t ∈ s.factTables, ∃ attributes, t.Declares attributes ∧
          t.Agrees attributes (nameOf t) r)) := by
  refine ⟨fun t ht => ?_, fun line => mem_rules_generated hp, fun nameOf o hpivots => ?_⟩
  · obtain ⟨o, ho⟩ := exists_importOutline hp ht
    obtain ⟨attributes, hattributes, -⟩ := Table.declares_of_importOutline ho
    exact ⟨attributes, hattributes, fun line => tableStart_iff hs hplain hp ht hattributes,
      fun line => inputStart_iff hplain hp ht⟩
  · refine ⟨hpivots.text_mem hp, fun r hr => ⟨hpivots.fits hr, fun hbody => ?_⟩⟩
    exact hpivots.agrees hcolumns hp hr hbody

def resultsOnly : Schema := ⟨[Table.results]⟩

theorem factTables_resultsOnly : resultsOnly.factTables = [Table.results] := by decide +kernel

theorem relation_results : Table.results.relation = "result" := by decide +kernel

theorem generated_agrees_resultsOnly :
    (resultsOnly.tables.map Table.name).Nodup ∧
    (∀ t ∈ resultsOnly.factTables, (t.columns.map Column.name).Nodup) ∧
    (∀ t ∈ resultsOnly.factTables, t.PlainlyNamed) ∧
    ∃ p, resultsOnly.generated "/db" = .ok p ∧
      (∀ line, line ∈ p.declarations ∧ (Declaration.tableStart "result").toList <+: line.toList ↔
        line = ".decl result (id:number, check_id:symbol, passed:number)") ∧
      "result_attribute(id, \"passed\", $Bool(value)) :- result(id, _, value)." ∈ p.rules := by
  have hs : (resultsOnly.tables.map Table.name).Nodup := by decide
  have hcolumns : ∀ t ∈ resultsOnly.factTables, (t.columns.map Column.name).Nodup := by
    rw [factTables_resultsOnly]
    exact List.forall_mem_singleton.2 (by decide)
  have hplain : ∀ t ∈ resultsOnly.factTables, t.PlainlyNamed := by
    rw [factTables_resultsOnly]
    refine List.forall_mem_singleton.2 ⟨?_, ?_⟩
    · simp [IsIdentifier, Table.results]
    · simp [IsIdentifier, Table.results]
  have hsupported : ∀ t ∈ resultsOnly.factTables, t.Supported := by
    rw [factTables_resultsOnly]
    refine List.forall_mem_singleton.2 ?_
    simp [Table.Supported, Table.results, Column.Unsupported]
  obtain ⟨p, hp⟩ := (exists_generated_iff "/db").2 hsupported
  obtain ⟨htables, hrules, -⟩ := generated_agrees hs hcolumns hplain hp
  refine ⟨hs, hcolumns, hplain, p, hp, ?_, ?_⟩
  · have hdeclares : Table.results.Declares
        [⟨"id", .number⟩, ⟨"check_id", .symbol⟩, ⟨"passed", .number⟩] := rfl
    rw [factTables_resultsOnly] at htables
    obtain ⟨attributes, hattributes, hdeclaration, -⟩ := htables _ (List.mem_singleton_self _)
    obtain rfl := hattributes.unique hdeclares
    rw [relation_results] at hdeclaration
    exact hdeclaration
  · have ht : Table.results ∈ resultsOnly.factTables := factTables_resultsOnly ▸ List.mem_singleton_self _
    obtain ⟨o, ho⟩ := exists_primaryPivot hp ht
    obtain ⟨q, hq⟩ := Table.results.exists_keyedRule Table.results.attributeRelation
      Table.results.primaryKey (c := ⟨"passed", .boolean, false⟩) rfl
    have hclause : q.rule ∈ o.clauses := (Table.mem_clauses_primaryPivot ho).2
      ⟨by decide, ⟨"passed", .boolean, false⟩, by decide, by decide, q, hq, rfl⟩
    obtain ⟨w, hw, rfl⟩ := Table.keyedRule_eq_ok hq
    refine (hrules _).2 ⟨_, o, .primary ht ho, _, hclause, ?_⟩
    cases w with
    | int | string => exact absurd hw (by decide)
    | bool => decide +kernel

end Schema

end PolicyCheck
