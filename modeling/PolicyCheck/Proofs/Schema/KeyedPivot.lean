import PolicyCheck.Proofs.Schema.Declarations
import PolicyCheck.Proofs.Schema.RepositoryPivot

/-!
# Pivots by keys

A pivot by keys transposes a table: it derives one tuple for each row and each column that is neither
a key nor ignored. The key columns become variables under their own names, so this holds only while no
key has the name of the value's variable or of the wildcard. The pivots by primary key are of this
kind, and no other rule of a program derives their relations.
-/

namespace PolicyCheck

open Datalog

namespace Table

variable {t : Table} {target : String} {keys ignored : List String} {c : Column}

/-- The tuples that a table transposes to: the cells of the keys in a row, the name of a column that is
neither a key nor ignored, and the tagged cell of the row in it. -/
def transposed (t : Table) (keys ignored : List String) (contents : Contents) : Set Tuple :=
  {tuple | ∃ row ∈ t.rows contents, ∃ c ∈ t.columns, c.name ∉ keys ∧ c.name ∉ ignored ∧
    ∃ cells value constructor, List.Forall₂ (fun k d => t.cell? row k = some d) keys cells ∧
      t.cell? row c.name = some value ∧ c.type.constructor? = some constructor ∧
      tuple = cells ++ [.symbol c.name, .single constructor value]}

theorem keyedRule_eq_ok {r : PivotRule} (h : t.keyedRule target keys c = .ok r) :
    ∃ w, c.type.constructor? = some w.text ∧ r = {
      target, keys
      label := c.name
      wrapper := w
      source := t.relation
      pattern := t.keyedPattern keys c.name } := by
  obtain ⟨w, hw, h⟩ := bind_eq_ok_iff.1 h
  exact ⟨w, Column.constructor?_of_wrapper hw, (Except.ok.inj h).symm⟩

theorem exists_keyedRule (target : String) (keys : List String) {name : String}
    (h : c.type.constructor? = some name) : ∃ r, t.keyedRule target keys c = .ok r := by
  obtain ⟨⟨w, hw⟩, -⟩ := Column.exists_types_of_supported t.name (Column.not_unsupported_of_constructor? h)
  exact ⟨_, bind_eq_ok_iff.2 ⟨w, hw, rfl⟩⟩

theorem mem_columns_of_keyAttribute {k : String} {a : Attribute} (h : t.keyAttribute k = .ok a) :
    k ∈ t.columns.map Column.name := by
  rw [keyAttribute] at h
  cases hcolumn : t.column? k with
  | none =>
    rw [hcolumn] at h
    cases h
  | some c =>
    have hname := List.find?_some hcolumn
    rw [← beq_iff_eq.1 hname]
    exact List.mem_map_of_mem (List.mem_of_find?_eq_some hcolumn)

theorem binds_keyedRule {r : PivotRule} (hvalue : PivotRule.valueVariable ∉ keys)
    (hwildcard : PivotRule.wildcard ∉ keys) (hkeys : ∀ k ∈ keys, k ∈ t.columns.map Column.name)
    (hcolumn : c ∈ t.columns) (hkey : c.name ∉ keys) (h : t.keyedRule target keys c = .ok r) :
    t.Binds r c.name keys id := by
  obtain ⟨w, -, rfl⟩ := keyedRule_eq_ok h
  constructor
  · rfl
  · exact (List.map_id keys).symm
  · rfl
  · exact List.mem_map_of_mem hcolumn
  · exact hkeys
  · exact hkey
  · intro k _ k' _ heq
    exact heq
  · intro k hk heq
    exact hvalue (heq ▸ hk)
  · intro k hk heq
    exact hwildcard (heq ▸ hk)

/-- The parts of a pivot: its keys are columns of the table, and it has one rule for each column that is
neither a key nor ignored. -/
theorem keyedPivot_eq_ok {o : Outline} (h : t.keyedPivot target keys ignored = .ok o) :
    (∀ k ∈ keys, k ∈ t.columns.map Column.name) ∧ o.facts = [] ∧ ∀ p, p ∈ o.rules ↔
      ∃ c ∈ t.columns, c.name ∉ keys ∧ c.name ∉ ignored ∧ t.keyedRule target keys c = .ok p := by
  obtain ⟨attributes, hattributes, h⟩ := bind_eq_ok_iff.1 h
  obtain ⟨rules, hrules, h⟩ := bind_eq_ok_iff.1 h
  obtain rfl := Except.ok.inj h
  refine ⟨fun k hk => ?_, rfl, fun p => ?_⟩
  · obtain ⟨a, -, ha⟩ := exists_of_mapM_eq_ok hattributes hk
    exact mem_columns_of_keyAttribute ha
  · simp only [mem_iff_of_mapM_eq_ok hrules, List.mem_filter, decide_eq_true_eq, and_assoc]

theorem mem_clauses_keyedPivot {o : Outline} (h : t.keyedPivot target keys ignored = .ok o) {r : Rule} :
    r ∈ o.clauses ↔ ∃ c ∈ t.columns, c.name ∉ keys ∧ c.name ∉ ignored ∧
      ∃ p, t.keyedRule target keys c = .ok p ∧ p.rule = r := by
  obtain ⟨-, hfacts, hrules⟩ := keyedPivot_eq_ok h
  simp only [Outline.mem_clauses, hfacts, List.not_mem_nil, false_and, exists_false, false_or, hrules]
  constructor
  · rintro ⟨p, ⟨c, hc, hkey, hignored, hp⟩, hr⟩
    exact ⟨c, hc, hkey, hignored, p, hp, hr⟩
  · rintro ⟨c, hc, hkey, hignored, p, hp, hr⟩
    exact ⟨p, ⟨c, hc, hkey, hignored, hp⟩, hr⟩

theorem keys_eq_of_mem_rules {o : Outline} (h : t.keyedPivot target keys ignored = .ok o) {p : PivotRule}
    (hp : p ∈ o.rules) : p.keys = keys := by
  obtain ⟨-, -, hrules⟩ := keyedPivot_eq_ok h
  obtain ⟨c, -, -, -, hc⟩ := (hrules p).1 hp
  obtain ⟨w, -, rfl⟩ := keyedRule_eq_ok hc
  rfl

/-- Rules that are those of the columns outside the keys derive what the table transposes to. -/
theorem derived_eq_transposed {rules : List Rule} (hnames : (t.columns.map Column.name).Nodup)
    (hvalue : PivotRule.valueVariable ∉ keys) (hwildcard : PivotRule.wildcard ∉ keys)
    (hkeys : ∀ k ∈ keys, k ∈ t.columns.map Column.name)
    (hrules : ∀ r, r.head.relation = target → (r ∈ rules ↔ ∃ c ∈ t.columns, c.name ∉ keys ∧
      c.name ∉ ignored ∧ ∃ p, t.keyedRule target keys c = .ok p ∧ p.rule = r))
    (contents : Contents) : derived rules contents target = t.transposed keys ignored contents := by
  ext tuple
  constructor
  · intro ⟨r, hr, hrelation, hderives⟩
    obtain ⟨c, hc, hkey, hignored, p, hp, rfl⟩ := (hrules r hrelation).1 hr
    rw [(binds_keyedRule hvalue hwildcard hkeys hc hkey hp).derives_iff hnames] at hderives
    obtain ⟨row, hrow, cells, value, hcells, hcell, -, rfl⟩ := hderives
    obtain ⟨w, hw, rfl⟩ := keyedRule_eq_ok hp
    exact ⟨row, hrow, c, hc, hkey, hignored, cells, value, w.text, hcells, hcell, hw, rfl⟩
  · rintro ⟨row, hrow, c, hc, hkey, hignored, cells, value, name, hcells, hcell, hname, rfl⟩
    obtain ⟨p, hp⟩ := t.exists_keyedRule target keys hname
    have hbinds := binds_keyedRule hvalue hwildcard hkeys hc hkey hp
    obtain ⟨w, hw, rfl⟩ := keyedRule_eq_ok hp
    obtain rfl := Option.some.inj (hw.symm.trans hname)
    refine ⟨_, (hrules _ rfl).2 ⟨c, hc, hkey, hignored, _, hp, rfl⟩, rfl, ?_⟩
    have hexcluded : ∀ e, (none : Option String) = some e → value ≠ .symbol e := by
      intro e he
      cases he
    rw [hbinds.derives_iff hnames]
    exact ⟨row, hrow, cells, value, hcells, hcell, hexcluded, rfl⟩

/-! ### Pivots by primary key -/

theorem mem_clauses_primaryPivot {o : Outline} (h : t.primaryPivot = .ok o) {r : Rule} :
    r ∈ o.clauses ↔ t.Keyed ∧ ∃ c ∈ t.columns, c.name ∉ t.primaryKey ∧
      ∃ p, t.keyedRule t.attributeRelation t.primaryKey c = .ok p ∧ p.rule = r := by
  by_cases hkeyed : t.Keyed
  · have hnonempty : ¬ t.primaryKey.isEmpty = true := mt List.isEmpty_iff.1 hkeyed
    rw [primaryPivot, if_neg hnonempty] at h
    rw [mem_clauses_keyedPivot h]
    simp [hkeyed, attributeRelation]
  · have hempty : t.primaryKey = [] := not_not.1 hkeyed
    rw [primaryPivot, if_pos (by rw [hempty]; rfl)] at h
    obtain rfl := Except.ok.inj h
    simp [hkeyed, Outline.clauses]

theorem relation_keyedRule {r : PivotRule} (h : t.keyedRule target keys c = .ok r) :
    r.rule.head.relation = target := by
  obtain ⟨w, -, rfl⟩ := keyedRule_eq_ok h
  rfl

theorem primaryKey_subset {k : String} (hk : k ∈ t.primaryKey) : k ∈ t.columns.map Column.name := by
  obtain ⟨c, hc, rfl⟩ := List.mem_map.1 hk
  exact List.mem_map_of_mem (List.mem_filter.1 hc).1

theorem clauses_importOutline {database : String} {o : Outline} (h : t.importOutline database = .ok o) :
    o.clauses = [] := by
  obtain ⟨d, -, h⟩ := bind_eq_ok_iff.1 h
  obtain rfl := Except.ok.inj h
  rfl

end Table

namespace Schema

variable {s : Schema} {database : String} {o : Outline}

/-- The rules of a program: those of the pivot by repository and of the pivots by primary key. -/
theorem mem_clauses_outline (h : s.outline database = .ok o) {r : Rule} :
    r ∈ o.clauses ↔ (∃ pivot, s.repositoryPivot = .ok pivot ∧ r ∈ pivot.clauses) ∨
      ∃ t ∈ s.factTables, t.Keyed ∧ ∃ c ∈ t.columns, c.name ∉ t.primaryKey ∧
        ∃ p, t.keyedRule t.attributeRelation t.primaryKey c = .ok p ∧ p.rule = r := by
  obtain ⟨imports, checks, pivots, himports, hchecks, hpivots, rfl⟩ := outline_eq_ok_iff.1 h
  have hrepository : s.repositoryPivot = .ok (pivotDeclarations ++ .concat checks) :=
    repositoryPivot_eq_ok_iff.2 ⟨checks, hchecks, rfl⟩
  have hnone : r ∉ (Outline.concat imports).clauses := by
    intro hr
    obtain ⟨o, ho, hr⟩ := Outline.mem_clauses_concat.1 hr
    obtain ⟨t, -, ht⟩ := (mem_iff_of_mapM_eq_ok himports).1 ho
    rw [Table.clauses_importOutline ht] at hr
    cases hr
  rw [Outline.mem_clauses_append, Outline.mem_clauses_append, or_iff_right hnone,
    Outline.mem_clauses_concat_of_mapM hpivots fun t _ _ ho => Table.mem_clauses_primaryPivot ho]
  refine or_congr ?_ Iff.rfl
  simp only [hrepository, Except.ok.injEq, exists_eq_left']

/-- The rules for a pivot by primary key are those of its table, unless the pivot by repository has the
same relation. -/
theorem mem_clauses_attributeRelation (hs : (s.tables.map Table.name).Nodup)
    (h : s.outline database = .ok o) {t : Table} (ht : t ∈ s.factTables) (hkeyed : t.Keyed)
    (hrepository : t.relation ≠ "repository") {r : Rule} (hr : r.head.relation = t.attributeRelation) :
    r ∈ o.clauses ↔ ∃ c ∈ t.columns, c.name ∉ t.primaryKey ∧
      ∃ p, t.keyedRule t.attributeRelation t.primaryKey c = .ok p ∧ p.rule = r := by
  rw [mem_clauses_outline h]
  constructor
  · rintro (⟨pivot, hpivot, hmem⟩ | ⟨u, hu, -, c, hc, hkey, p, hp, hrule⟩)
    · exfalso
      have hreserved : t.attributeRelation ∈ reserved := by
        rw [← hr]
        obtain ⟨u, -, rfl | ⟨-, c, -, -, p, hp, rfl⟩⟩ := (mem_clauses_repositoryPivot hpivot).1 hmem
        · exact List.mem_append_right _ (List.mem_cons_of_mem _ List.mem_cons_self)
        · rw [Table.relation_repositoryRule hp]
          exact List.mem_append_right _ List.mem_cons_self
      exact hrepository (attributeRelation_mem_reserved.1 hreserved)
    · have hsame : u.attributeRelation = t.attributeRelation := by
        rw [← hr, ← hrule, Table.relation_keyedRule hp]
      have hrelation : u.relation = t.relation := (String.append_left_inj "_attribute").1 hsame
      obtain rfl := List.inj_on_of_nodup_map (nodup_relation hs) hu ht hrelation
      exact ⟨c, hc, hkey, p, hp, hrule⟩
  · intro ⟨c, hc, hkey, p, hp, hrule⟩
    exact .inr ⟨t, ht, hkeyed, c, hc, hkey, p, hp, hrule⟩

end Schema

namespace Table

/-- A pivot whose keys are neither called as the value's variable nor as the wildcard transposes the
table, and the pivot by primary key of a table in a program does so too. -/
theorem derived_keyedPivot {t : Table} (hnames : (t.columns.map Column.name).Nodup) :
    (∀ target keys ignored o, keys ≠ [] → "value" ∉ keys → "_" ∉ keys →
      t.keyedPivot target keys ignored = .ok o →
        (∀ line, line ∈ o.program.rules ↔ ∃ r ∈ o.clauses, r.text = line) ∧
          ∀ contents, derived o.clauses contents target = t.transposed keys ignored contents) ∧
      ∀ (s : Schema) database o, (s.tables.map Table.name).Nodup → s.outline database = .ok o →
        t ∈ s.factTables → t.Keyed → "value" ∉ t.primaryKey → "_" ∉ t.primaryKey →
          t.relation ≠ "repository" →
            ∀ contents, derived o.clauses contents (t.relation ++ "_attribute") =
              t.transposed t.primaryKey [] contents := by
  constructor
  · intro target keys ignored o hnonempty hvalue hwildcard ho
    obtain ⟨hkeys, -⟩ := keyedPivot_eq_ok ho
    constructor
    · intro line
      exact Outline.mem_rules_program fun p hp => keys_eq_of_mem_rules ho hp ▸ hnonempty
    · exact derived_eq_transposed hnames hvalue hwildcard hkeys fun r _ => mem_clauses_keyedPivot ho
  · intro s database o hs ho ht hkeyed hvalue hwildcard hrepository
    refine derived_eq_transposed hnames hvalue hwildcard (fun k hk => primaryKey_subset hk) ?_
    intro r hr
    rw [Schema.mem_clauses_attributeRelation hs ho ht hkeyed hrepository hr]
    simp [attributeRelation]

/-- A table of results with a column beside the key and the result. -/
def results : Table :=
  ⟨"_result", [⟨"id", .integer, true⟩, ⟨"check_id", .string, false⟩, ⟨"passed", .boolean, false⟩]⟩

def resultRow : Tuple := [.number 7, .symbol "mcn_build_as_code_1", .number 1]

theorem derived_keyedPivot_results :
    (results.columns.map Column.name).Nodup ∧ "value" ∉ ["id"] ∧ "_" ∉ ["id"] ∧
      ∃ o, results.keyedPivot "result_attribute" ["id"] ["check_id"] = .ok o ∧
        derived o.clauses (fun _ => {resultRow}) "result_attribute" =
          {[.number 7, .symbol "passed", .single "$Bool" (.number 1)]} := by
  have hnames : (results.columns.map Column.name).Nodup := by decide +kernel
  have hsome : (results.keyedPivot "result_attribute" ["id"] ["check_id"]).toOption.isSome = true := by
    decide +kernel
  refine ⟨hnames, by decide, by decide, ?_⟩
  cases ho : results.keyedPivot "result_attribute" ["id"] ["check_id"] with
  | error e =>
    rw [ho] at hsome
    cases hsome
  | ok o =>
    refine ⟨o, rfl, ?_⟩
    rw [((derived_keyedPivot hnames).1 _ _ _ o (by decide) (by decide) (by decide) ho).2]
    ext tuple
    simp [results, transposed, rows, resultRow, cell?, SqlType.constructor?, List.lookup_cons,
      List.forall₂_cons_left_iff]

/-- A table whose primary key has the name of the value's variable. -/
def measures : Table := ⟨"_measure", [⟨"value", .integer, true⟩, ⟨"passed", .boolean, false⟩]⟩

def measuredRow : Tuple := [.number 1, .number 0]

/-- A key that is called as the value's variable is compared with the value, and the row is lost. -/
theorem captured_key :
    (measures.columns.map Column.name).Nodup ∧ measures.primaryKey = ["value"] ∧
      ∃ o, measures.keyedPivot "measure_attribute" ["value"] [] = .ok o ∧
        derived o.clauses (fun _ => {measuredRow}) "measure_attribute" = ∅ ∧
        [.number 1, .symbol "passed", .single "$Bool" (.number 0)] ∈
          measures.transposed ["value"] [] fun _ => {measuredRow} := by
  have hsome : (measures.keyedPivot "measure_attribute" ["value"] []).toOption.isSome = true := by
    decide +kernel
  refine ⟨by decide, by decide, ?_⟩
  cases ho : measures.keyedPivot "measure_attribute" ["value"] [] with
  | error e =>
    rw [ho] at hsome
    cases hsome
  | ok o =>
    refine ⟨o, rfl, ?_, ?_⟩
    · rw [Set.eq_empty_iff_forall_notMem]
      rintro tuple ⟨r, hr, -, env, hbody, -⟩
      obtain ⟨c, hc, hkey, -, p, hp, rfl⟩ := (mem_clauses_keyedPivot ho).1 hr
      obtain ⟨w, -, rfl⟩ := keyedRule_eq_ok hp
      obtain ⟨⟨row, hrow, hmatches⟩, -⟩ := holds_body_iff.1 hbody
      obtain rfl := Set.mem_singleton_iff.1 hrow
      rcases List.mem_pair.1 hc with rfl | rfl
      · exact hkey List.mem_cons_self
      · have hpattern : (measures.keyedPattern ["value"] "passed").map Argument.ofText =
            [.var "value", .var "value"] := by decide
        rw [hpattern] at hmatches
        obtain ⟨hfirst, hothers⟩ := List.forall₂_cons.1 hmatches
        obtain ⟨hsecond, -⟩ := List.forall₂_cons.1 hothers
        have hsame : some (Datum.number 1) = some (Datum.number 0) := hfirst.symm.trans hsecond
        cases hsame
    · refine ⟨measuredRow, ⟨rfl, rfl⟩, ⟨"passed", .boolean, false⟩, by decide, by decide, by decide,
        [.number 1], .number 0, "$Bool", ?_, by decide, rfl, rfl⟩
      exact .cons (by decide) .nil

end Table

end PolicyCheck
