import Mathlib.Data.Set.Insert
import PolicyCheck.Proofs.Schema.Pivot
import PolicyCheck.Proofs.Text.Pieces

/-!
# The pivot by repository

Over any contents of the tables, the pivot by repository derives one attribute for each row of a check
table with a repository and each of its columns that is not a meta column, unless the column holds
symbols and the row says that the check does not apply. It derives the names of all fact tables.
-/

namespace PolicyCheck

open Datalog

namespace Table

variable {t : Table} {c : Column}

theorem holdsChecks_iff : t.holdsChecks = true ↔ "check".toList <:+: t.name.toList :=
  Text.contains_iff_infix

theorem pivotsByRepository_iff :
    t.pivotsByRepository = true ↔
      "check".toList <:+: t.name.toList ∧ repositoryColumn ∈ t.columns.map Column.name := by
  rw [pivotsByRepository, Bool.and_eq_true, holdsChecks_iff, column?, List.find?_isSome, List.mem_map]
  simp

theorem repositoryRule_eq_ok {r : PivotRule} (h : t.repositoryRule c = .ok r) :
    ∃ w, c.type.constructor? = some w.text ∧ r = {
      target := repositoryAttribute
      keys := ["repository"]
      label := t.relation ++ "." ++ c.name
      wrapper := w
      source := t.relation
      pattern := t.repositoryPattern c.name
      excluded := if c.type.isSymbol then some notApplicable else none } := by
  obtain ⟨w, hw, h⟩ := bind_eq_ok_iff.1 h
  obtain ⟨a, ha, h⟩ := bind_eq_ok_iff.1 h
  refine ⟨w, Column.constructor?_of_wrapper hw, ?_⟩
  rw [← Except.ok.inj h]
  simp only [Column.eq_symbol_iff_isSymbol ha]

theorem exists_repositoryRule {name : String} (h : c.type.constructor? = some name) :
    ∃ r, t.repositoryRule c = .ok r := by
  obtain ⟨⟨w, hw⟩, a, ha⟩ :=
    Column.exists_types_of_supported t.name (Column.not_unsupported_of_constructor? h)
  exact ⟨_, bind_eq_ok_iff.2 ⟨w, hw, bind_eq_ok_iff.2 ⟨a, ha, rfl⟩⟩⟩

theorem binds_repositoryRule {r : PivotRule} (hcolumn : c ∈ t.columns) (hmeta : c.name ∉ metaColumns)
    (hrepository : repositoryColumn ∈ t.columns.map Column.name) (h : t.repositoryRule c = .ok r) :
    t.Binds r c.name [repositoryColumn] fun _ => "repository" := by
  obtain ⟨w, -, rfl⟩ := repositoryRule_eq_ok h
  have hne : c.name ≠ repositoryColumn := fun heq => hmeta (heq ▸ List.mem_cons_self)
  constructor
  · rfl
  · rfl
  · simp only [repositoryPattern, List.mem_singleton]
  · exact List.mem_map_of_mem hcolumn
  · intro k hk
    rw [List.mem_singleton.1 hk]
    exact hrepository
  · exact mt List.mem_singleton.1 hne
  · intro k hk k' hk' _
    rw [List.mem_singleton.1 hk, List.mem_singleton.1 hk']
  · intro k _
    decide
  · intro k _
    decide

/-- The attributes that the rows of a table have in a column: the repository, the name of the column
with that of the relation, and the tagged value. A symbol that says that a check does not apply is
none. -/
def attributes (t : Table) (c : Column) (contents : Contents) : Set Tuple :=
  {tuple | ∃ row ∈ t.rows contents, ∃ repository value constructor,
    t.cell? row "repository_id" = some repository ∧ t.cell? row c.name = some value ∧
      c.type.constructor? = some constructor ∧ ¬ (c.type.isSymbol = true ∧ value = .symbol "n/a") ∧
      tuple = [repository, .symbol (t.relation ++ "." ++ c.name), .single constructor value]}

theorem exists_constructor? {contents : Contents} {tuple : Tuple} (h : tuple ∈ t.attributes c contents) :
    ∃ name, c.type.constructor? = some name := by
  obtain ⟨row, -, repository, value, name, -, -, hname, -⟩ := h
  exact ⟨name, hname⟩

theorem relation_repositoryRule {r : PivotRule} (h : t.repositoryRule c = .ok r) :
    r.rule.head.relation = "repository_attribute" := by
  obtain ⟨w, -, rfl⟩ := repositoryRule_eq_ok h
  rfl

theorem derives_repositoryRule_iff {r : PivotRule} (hnames : (t.columns.map Column.name).Nodup)
    (hcolumn : c ∈ t.columns) (hmeta : c.name ∉ metaColumns)
    (hrepository : repositoryColumn ∈ t.columns.map Column.name) (h : t.repositoryRule c = .ok r)
    {contents : Contents} {tuple : Tuple} :
    r.rule.Derives contents tuple ↔ tuple ∈ t.attributes c contents := by
  rw [(binds_repositoryRule hcolumn hmeta hrepository h).derives_iff hnames]
  obtain ⟨w, hw, rfl⟩ := repositoryRule_eq_ok h
  have hexcluded (value : Datum) :
      (∀ e, (if c.type.isSymbol then some notApplicable else none) = some e → value ≠ .symbol e) ↔
        ¬ (c.type.isSymbol = true ∧ value = .symbol "n/a") := by
    cases c.type.isSymbol with
    | true => simp [notApplicable]
    | false => simp
  constructor
  · rintro ⟨row, hrow, cells, value, hcells, hvalue, hne, rfl⟩
    obtain ⟨repository, others, hcell, hothers, rfl⟩ := List.forall₂_cons_left_iff.1 hcells
    obtain rfl := List.forall₂_nil_left_iff.1 hothers
    exact ⟨row, hrow, repository, value, w.text, hcell, hvalue, hw, (hexcluded value).1 hne, rfl⟩
  · rintro ⟨row, hrow, repository, value, constructor, hcell, hvalue, hconstructor, hne, rfl⟩
    obtain rfl := Option.some.inj (hw.symm.trans hconstructor)
    exact ⟨row, hrow, [repository], value, .cons hcell .nil, hvalue, (hexcluded value).2 hne, rfl⟩

theorem repositoryOutline_eq_ok {o : Outline} (h : t.repositoryOutline = .ok o) :
    o.facts = [⟨checkName, t.relation⟩] ∧ ∀ p, p ∈ o.rules ↔ t.pivotsByRepository = true ∧
      ∃ c ∈ t.columns, c.name ∉ metaColumns ∧ t.repositoryRule c = .ok p := by
  rw [repositoryOutline] at h
  by_cases hpivots : t.pivotsByRepository = true
  · rw [if_pos hpivots] at h
    obtain ⟨rules, hrules, h⟩ := bind_eq_ok_iff.1 h
    obtain rfl := Except.ok.inj h
    refine ⟨rfl, fun p => ?_⟩
    simp only [hpivots, true_and, mem_iff_of_mapM_eq_ok hrules, List.mem_filter, decide_eq_true_eq,
      and_assoc]
  · rw [if_neg hpivots] at h
    obtain rfl := Except.ok.inj h
    exact ⟨rfl, fun p => iff_of_false List.not_mem_nil fun hp => hpivots hp.1⟩

theorem mem_clauses_repositoryOutline {o : Outline} (h : t.repositoryOutline = .ok o) {r : Rule} :
    r ∈ o.clauses ↔ r = NameFact.rule ⟨checkName, t.relation⟩ ∨
      t.pivotsByRepository = true ∧
        ∃ c ∈ t.columns, c.name ∉ metaColumns ∧ ∃ p, t.repositoryRule c = .ok p ∧ p.rule = r := by
  obtain ⟨hfacts, hrules⟩ := repositoryOutline_eq_ok h
  simp only [Outline.mem_clauses, hfacts, List.mem_singleton, exists_eq_left, hrules]
  rw [eq_comm]
  refine or_congr Iff.rfl ?_
  constructor
  · rintro ⟨p, ⟨hpivots, c, hc, hmeta, hp⟩, hr⟩
    exact ⟨hpivots, c, hc, hmeta, p, hp, hr⟩
  · rintro ⟨hpivots, c, hc, hmeta, p, hp, hr⟩
    exact ⟨p, ⟨hpivots, c, hc, hmeta, hp⟩, hr⟩

end Table

namespace Schema

variable {s : Schema} {o : Outline}

theorem mem_clauses_repositoryPivot (h : s.repositoryPivot = .ok o) {r : Rule} :
    r ∈ o.clauses ↔ ∃ t ∈ s.factTables, r = NameFact.rule ⟨Table.checkName, t.relation⟩ ∨
      t.pivotsByRepository = true ∧ ∃ c ∈ t.columns, c.name ∉ Table.metaColumns ∧
        ∃ p, t.repositoryRule c = .ok p ∧ p.rule = r := by
  obtain ⟨outlines, hmap, rfl⟩ := repositoryPivot_eq_ok_iff.1 h
  have hdeclarations : r ∉ pivotDeclarations.clauses := List.not_mem_nil
  rw [Outline.mem_clauses_append, Outline.mem_clauses_concat_of_mapM hmap fun t _ _ ho =>
    Table.mem_clauses_repositoryOutline ho]
  exact or_iff_right hdeclarations

theorem keys_ne_nil_repositoryPivot (h : s.repositoryPivot = .ok o) : ∀ p ∈ o.rules, p.keys ≠ [] := by
  intro p hp hkeys
  have hlength := p.length_arguments_rule
  rw [hkeys] at hlength
  obtain ⟨t, -, hname | ⟨-, c, -, -, p', hp', hrule⟩⟩ :=
    (mem_clauses_repositoryPivot h).1 (Outline.mem_clauses.2 (.inr ⟨p, hp, rfl⟩))
  · rw [hname] at hlength
    simp [NameFact.rule] at hlength
  · obtain ⟨w, -, rfl⟩ := Table.repositoryRule_eq_ok hp'
    rw [← hrule, PivotRule.length_arguments_rule] at hlength
    simp at hlength

/-- The rules of the pivot by repository, over any contents of the tables: the lines of the program are
theirs, and they derive the attributes of the check tables and the names of the fact tables. -/
theorem derived_repositoryPivot
    (hnames : ∀ t ∈ s.factTables, (t.columns.map Column.name).Nodup) (ho : s.repositoryPivot = .ok o) :
    (∀ line, line ∈ o.program.rules ↔ ∃ r ∈ o.clauses, r.text = line) ∧
      ∀ contents,
        derived o.clauses contents "repository_attribute" =
          {tuple | ∃ t ∈ s.factTables, "check".toList <:+: t.name.toList ∧
            "repository_id" ∈ t.columns.map Column.name ∧
            ∃ c ∈ t.columns, c.name ∉ ["repository_id", "check_id", "id"] ∧
              tuple ∈ t.attributes c contents} ∧
        derived o.clauses contents "check_name" =
          {tuple | ∃ t ∈ s.factTables, tuple = [.symbol t.relation]} := by
  refine ⟨fun line => Outline.mem_rules_program (keys_ne_nil_repositoryPivot ho),
    fun contents => ⟨?_, ?_⟩⟩
  · ext tuple
    constructor
    · intro hparts
      obtain ⟨r, hr, hrelation, hderives⟩ := hparts
      obtain ⟨t, ht, rfl | ⟨hpivots, c, hc, hmeta, p, hp, rfl⟩⟩ := (mem_clauses_repositoryPivot ho).1 hr
      · simp [NameFact.rule, Table.checkName] at hrelation
      · obtain ⟨hchecks, hrepository⟩ := Table.pivotsByRepository_iff.1 hpivots
        exact ⟨t, ht, hchecks, hrepository, c, hc, hmeta,
          (Table.derives_repositoryRule_iff (hnames t ht) hc hmeta hrepository hp).1 hderives⟩
    · intro hparts
      obtain ⟨t, ht, hchecks, hrepository, c, hc, hmeta, htuple⟩ := hparts
      obtain ⟨name, hname⟩ := Table.exists_constructor? htuple
      obtain ⟨p, hp⟩ := t.exists_repositoryRule hname
      have hpivots := Table.pivotsByRepository_iff.2 ⟨hchecks, hrepository⟩
      refine ⟨p.rule, (mem_clauses_repositoryPivot ho).2
        ⟨t, ht, .inr ⟨hpivots, c, hc, hmeta, p, hp, rfl⟩⟩, Table.relation_repositoryRule hp, ?_⟩
      exact (Table.derives_repositoryRule_iff (hnames t ht) hc hmeta hrepository hp).2 htuple
  · ext tuple
    constructor
    · intro hparts
      obtain ⟨r, hr, hrelation, hderives⟩ := hparts
      obtain ⟨t, ht, rfl | ⟨hpivots, c, hc, hmeta, p, hp, rfl⟩⟩ := (mem_clauses_repositoryPivot ho).1 hr
      · exact ⟨t, ht, NameFact.derives_iff.1 hderives⟩
      · rw [Table.relation_repositoryRule hp] at hrelation
        simp at hrelation
    · intro hparts
      obtain ⟨t, ht, rfl⟩ := hparts
      exact ⟨_, (mem_clauses_repositoryPivot ho).2 ⟨t, ht, .inl rfl⟩, rfl, NameFact.derives_iff.2 rfl⟩

def buildChecks : Schema :=
  ⟨[⟨"_build_as_code_check", [⟨"id", .integer, true⟩, ⟨"repository_id", .integer, false⟩,
    ⟨"check_id", .string, false⟩, ⟨"passed", .boolean, false⟩, ⟨"build_tool", .text, false⟩]⟩]⟩

/-- One row of the check table: the build passed, and a build tool does not apply. -/
def builtRow : Tuple := [.number 1, .number 10, .symbol "mcn_build_as_code_1", .number 1, .symbol "n/a"]

theorem derived_buildChecks :
    (∀ t ∈ buildChecks.factTables, (t.columns.map Column.name).Nodup) ∧
      ∃ o, buildChecks.repositoryPivot = .ok o ∧
        derived o.clauses (fun _ => {builtRow}) "repository_attribute" =
          {[.number 10, .symbol "build_as_code_check.passed", .single "$Bool" (.number 1)]} := by
  have hnames : ∀ t ∈ buildChecks.factTables, (t.columns.map Column.name).Nodup := by decide +kernel
  have hsome : buildChecks.repositoryPivot.toOption.isSome = true := by decide +kernel
  have htables : buildChecks.factTables = buildChecks.tables := by decide +kernel
  have hrelation (columns : List Column) :
      (Table.mk "_build_as_code_check" columns).relation = "build_as_code_check" := by
    simp [Table.relation, Table.isFact, Table.factMark]
  have hchecks : "check".toList <:+: "_build_as_code_check".toList :=
    ⟨"_build_as_code_".toList, [], by simp⟩
  refine ⟨hnames, ?_⟩
  cases ho : buildChecks.repositoryPivot with
  | error e =>
    rw [ho] at hsome
    cases hsome
  | ok o =>
    refine ⟨o, rfl, ?_⟩
    rw [((derived_repositoryPivot hnames ho).2 fun _ => {builtRow}).1, htables]
    ext tuple
    simp [buildChecks, Table.attributes, Table.rows, builtRow, Table.cell?, SqlType.constructor?,
      SqlType.isSymbol, hrelation, List.lookup_cons]
    exact fun _ => hchecks

end Schema

end PolicyCheck
