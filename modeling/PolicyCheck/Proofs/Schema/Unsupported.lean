import PolicyCheck.Proofs.Schema.Outline

/-!
# Columns of unsupported types

The declarations of the fact tables are made first and look at every column, in the order of the
schema. So the first column of an unsupported type is the one that is reported, and what is compiled
after the declarations meets no such column and has nothing left to fail on.
-/

namespace PolicyCheck

open Datalog

namespace Column

variable {c : Column}

theorem toAttribute_eq_error_iff {table : String} {e : Error} :
    c.toAttribute table = .error e ↔ ∃ type, c.type = .other type ∧ e = c.unsupported table type := by
  rw [toAttribute, attributeType]
  cases c.type with
  | other type => simp [bind, Except.bind, eq_comm]
  | integer | string | text | boolean => simp [bind, Except.bind, pure, Except.pure]

theorem type_of_wrapper_eq_error {table : String} {e : Error} (h : c.wrapper table = .error e) :
    ∃ type, c.type = .other type ∧ e = c.unsupported table type := by
  rw [wrapper] at h
  cases htype : c.type with
  | other type =>
    rw [htype] at h
    exact ⟨type, rfl, (Except.error.inj h).symm⟩
  | integer | string | text | boolean =>
    rw [htype] at h
    cases h

end Column

namespace Table

variable {t : Table}

/-- The column is the first of the table with an unsupported type, which has this name. -/
def FirstUnsupported (t : Table) (c : Column) (type : String) : Prop :=
  ∃ front back, t.columns = front ++ c :: back ∧ (∀ other ∈ front, ¬ other.Unsupported) ∧
    c.type = .other type

theorem importOutline_eq_error_iff {database : String} {e : Error} :
    t.importOutline database = .error e ↔
      ∃ c type, t.FirstUnsupported c type ∧ e = c.unsupported t.name type := by
  have hcolumns : t.importOutline database = .error e ↔
      t.columns.mapM (Column.toAttribute t.name) = .error e := by
    rw [importOutline, bind_eq_error_iff, declaration, bind_eq_error_iff]
    simp [pure, Except.pure]
  rw [hcolumns, mapM_eq_error_iff]
  simp only [Column.exists_toAttribute_iff, Column.toAttribute_eq_error_iff]
  constructor
  · rintro ⟨front, c, back, hcolumns, hfront, type, htype, he⟩
    exact ⟨c, type, ⟨front, back, hcolumns, hfront, htype⟩, he⟩
  · rintro ⟨c, type, ⟨front, back, hcolumns, hfront, htype⟩, he⟩
    exact ⟨front, c, back, hcolumns, hfront, type, htype, he⟩

/-- A pivot of any table by its own primary key never misses a key column: it can only fail on the
type of a column. -/
theorem type_of_keyedPivot_eq_error {target : String} {ignored : List String} {e : Error}
    (h : t.keyedPivot target t.primaryKey ignored = .error e) :
    ∃ c ∈ t.columns, ∃ type, c.type = .other type ∧ e = c.unsupported t.name type := by
  rcases bind_eq_error_iff.1 h with hkeys | ⟨attributes, -, h⟩
  · obtain ⟨front, key, back, hsplit, -, hkey⟩ := mapM_eq_error_iff.1 hkeys
    have hmem : key ∈ t.primaryKey := hsplit ▸ List.mem_append_right _ List.mem_cons_self
    obtain ⟨c, hc, hfound⟩ := exists_column?_of_mem_primaryKey hmem
    rw [keyAttribute, hfound] at hkey
    exact ⟨c, hc, Column.toAttribute_eq_error_iff.1 hkey⟩
  · rcases bind_eq_error_iff.1 h with hrules | ⟨rules, -, hpure⟩
    · obtain ⟨front, c, back, hsplit, -, hrule⟩ := mapM_eq_error_iff.1 hrules
      have hmem : c ∈ t.columns :=
        (List.mem_filter.1 (hsplit ▸ List.mem_append_right _ List.mem_cons_self)).1
      rcases bind_eq_error_iff.1 hrule with hwrapper | ⟨w, -, hpure⟩
      · exact ⟨c, hmem, Column.type_of_wrapper_eq_error hwrapper⟩
      · cases hpure
    · cases hpure

end Table

namespace Schema

variable {s : Schema} {database : String} {e : Error}

/-- The column is the first of an unsupported type, taking the fact tables in the order of the schema
and the columns in the order of their table. -/
def FirstUnsupported (s : Schema) (t : Table) (c : Column) (type : String) : Prop :=
  ∃ front back, s.factTables = front ++ t :: back ∧ (∀ other ∈ front, other.Supported) ∧
    t.FirstUnsupported c type

theorem importOutline_eq_error_iff :
    s.importOutline database = .error e ↔
      ∃ t c type, s.FirstUnsupported t c type ∧ e = c.unsupported t.name type := by
  have htables : s.importOutline database = .error e ↔
      s.factTables.mapM (Table.importOutline database) = .error e := by
    rw [importOutline, bind_eq_error_iff]
    simp [pure, Except.pure]
  rw [htables, mapM_eq_error_iff]
  simp only [Table.exists_importOutline_iff, Table.importOutline_eq_error_iff]
  constructor
  · rintro ⟨front, t, back, htables, hfront, c, type, hfirst, he⟩
    exact ⟨t, c, type, ⟨front, back, htables, hfront, hfirst⟩, he⟩
  · rintro ⟨t, c, type, ⟨front, back, htables, hfront, hfirst⟩, he⟩
    exact ⟨front, t, back, htables, hfront, c, type, hfirst, he⟩

theorem supported_of_importOutline {o : Outline} (h : s.importOutline database = .ok o) :
    ∀ t ∈ s.factTables, t.Supported := by
  obtain ⟨imports, himports, -⟩ := bind_eq_ok_iff.1 h
  intro t ht
  exact (Table.exists_importOutline_iff database).1 (exists_mapM_eq_ok_iff.1 ⟨imports, himports⟩ t ht)

theorem generated_eq_error_iff_importOutline :
    s.generated database = .error e ↔ s.importOutline database = .error e := by
  rw [generated, map_eq_error_iff, outline, bind_eq_error_iff]
  refine or_iff_left ?_
  rintro ⟨imports, himports, hrest⟩
  have hsupported := supported_of_importOutline himports
  obtain ⟨o, ho⟩ : ∃ o, s.outline database = .ok o := by
    obtain ⟨p, hp⟩ := (exists_generated_iff database).2 hsupported
    obtain ⟨o, ho, -⟩ := map_eq_ok_iff.1 hp
    exact ⟨o, ho⟩
  rw [outline, himports] at ho
  cases ho.symm.trans hrest

/-- The schema with other columns in its tables without facts. -/
def recolumned (s : Schema) (columns : Table → List Column) : Schema where
  tables := s.tables.map fun t => if t.isFact then t else { t with columns := columns t }

theorem factTables_recolumned (s : Schema) (columns : Table → List Column) :
    (s.recolumned columns).factTables = s.factTables := by
  rw [factTables, factTables, recolumned, List.filter_map]
  have hfact : Table.isFact ∘ (fun t : Table => if t.isFact then t else { t with columns := columns t }) =
      Table.isFact := by
    funext t
    simp only [Function.comp_apply]
    split <;> rfl
  rw [hfact]
  refine (List.map_congr_left fun t ht => ?_).trans (List.map_id _)
  rw [if_pos (List.mem_filter.1 ht).2]
  rfl

theorem exists_generated_error_iff (database : String) :
    (∃ e, s.generated database = .error e) ↔ ∃ t ∈ s.factTables, ∃ c ∈ t.columns, c.Unsupported := by
  have herror : (∃ e, s.generated database = .error e) ↔ ¬ ∃ p, s.generated database = .ok p := by
    cases s.generated database <;> simp
  rw [herror, exists_generated_iff]
  simp only [Table.Supported, not_forall, not_not, exists_prop]

/-- A schema fails on the first column of an unsupported type in its fact tables, and on nothing else:
the columns of other tables do not matter, and once the fact tables are declared no pivot fails. A pivot
by the primary key of any table never misses a key. -/
theorem generated_eq_error_iff (s : Schema) (database : String) :
    ((∃ e, s.generated database = .error e) ↔ ∃ t ∈ s.factTables, ∃ c ∈ t.columns, c.Unsupported) ∧
    (∀ e, s.generated database = .error e ↔ ∃ t c type, s.FirstUnsupported t c type ∧
      e = .unsupportedColumnType t.name c.name type) ∧
    (∀ columns, (s.recolumned columns).generated database = s.generated database) ∧
    (∀ imports, s.importOutline database = .ok imports →
      (∃ pivot, s.repositoryPivot = .ok pivot) ∧
      ∀ t ∈ s.factTables, ∀ target ignored, ∃ pivot,
        t.keyedPivot target t.primaryKey ignored = .ok pivot) ∧
    ∀ (t : Table) target ignored e, t.keyedPivot target t.primaryKey ignored = .error e →
      ∃ c ∈ t.columns, ∃ type, c.type = .other type ∧ e = .unsupportedColumnType t.name c.name type := by
  refine ⟨exists_generated_error_iff database, fun e => ?_, fun columns => ?_, fun imports himports => ?_,
    fun t target ignored e he => Table.type_of_keyedPivot_eq_error he⟩
  · rw [generated_eq_error_iff_importOutline, importOutline_eq_error_iff]
    rfl
  · have htables := s.factTables_recolumned columns
    rw [generated, generated, outline, outline, importOutline, importOutline, repositoryPivot,
      repositoryPivot, primaryPivots, primaryPivots, htables]
  · have hsupported := supported_of_importOutline himports
    exact ⟨exists_repositoryPivot hsupported,
      fun t ht target ignored => (hsupported t ht).exists_keyedPivot target ignored⟩

/-! ### A schema with two unsupported columns in a row -/

namespace Stamped

def plainTable : Table := ⟨"repository", [⟨"id", .other "BLOB", true⟩]⟩

def countTable : Table := ⟨"_count", [⟨"id", .integer, true⟩, ⟨"amount", .integer, false⟩]⟩

def created : Column := ⟨"created", .other "DATETIME", false⟩

def stampTable : Table := ⟨"_stamp", [⟨"id", .integer, true⟩, created, ⟨"data", .other "BLOB", false⟩]⟩

def stamped : Schema := ⟨[plainTable, countTable, stampTable]⟩

def counted : Schema := ⟨[plainTable, countTable]⟩

theorem firstUnsupported : stamped.FirstUnsupported stampTable created "DATETIME" := by
  refine ⟨[countTable], [], by decide +kernel, ?_, [⟨"id", .integer, true⟩], _, rfl, ?_, rfl⟩
  · simp [Table.Supported, countTable, Column.Unsupported]
  · simp [Column.Unsupported]

end Stamped

open Stamped in
theorem generated_eq_error_iff_stamped :
    stamped.generated "/db" = .error (.unsupportedColumnType "_stamp" "created" "DATETIME") ∧
    (∃ imports, counted.importOutline "/db" = .ok imports) ∧ countTable ∈ counted.factTables ∧
    ∃ pivot, countTable.keyedPivot "count_attribute" countTable.primaryKey [] = .ok pivot := by
  obtain ⟨-, herror, -⟩ := generated_eq_error_iff stamped "/db"
  obtain ⟨-, -, -, hpivots, -⟩ := generated_eq_error_iff counted "/db"
  have himport : ∃ imports, counted.importOutline "/db" = .ok imports := by
    rw [importOutline, show counted.factTables = [countTable] by decide +kernel]
    exact ⟨_, rfl⟩
  obtain ⟨imports, himports⟩ := himport
  have htable : countTable ∈ counted.factTables := by decide +kernel
  exact ⟨(herror _).2 ⟨stampTable, created, "DATETIME", firstUnsupported, rfl⟩, ⟨imports, himports⟩, htable,
    (hpivots imports himports).2 countTable htable "count_attribute" []⟩

end Schema

end PolicyCheck
