import PolicyCheck.Proofs.Except
import PolicyCheck.Schema.Prelude

/-!
# The outline of a schema

A table can be compiled if and only if it has no column of an unsupported type. The outline of a schema
is put together from those of its fact tables, with two declarations of its own, and there is one if and
only if all of its fact tables can be compiled.
-/

namespace PolicyCheck

open Datalog

namespace Column

/-- No Datalog type stands for the type of the column. -/
def Unsupported (c : Column) : Prop := ∃ type, c.type = .other type

variable {c : Column}

theorem exists_toAttribute_iff {table : String} :
    (∃ a, c.toAttribute table = .ok a) ↔ ¬ c.Unsupported := by
  rw [toAttribute, attributeType, Unsupported]
  cases c.type with
  | other type => simp [bind, Except.bind]
  | integer | string | text | boolean => simp [bind, Except.bind, pure, Except.pure]

theorem exists_types_of_supported (table : String) (h : ¬ c.Unsupported) :
    (∃ w, c.wrapper table = .ok w) ∧ ∃ a, c.attributeType table = .ok a := by
  rw [wrapper, attributeType]
  cases htype : c.type with
  | other type => exact absurd ⟨type, htype⟩ h
  | integer | string | text | boolean => exact ⟨⟨_, rfl⟩, _, rfl⟩

end Column

namespace Table

variable {t : Table}

def Supported (t : Table) : Prop := ∀ c ∈ t.columns, ¬ c.Unsupported

theorem exists_importOutline_iff (database : String) : (∃ o, t.importOutline database = .ok o) ↔ t.Supported := by
  have hcolumns : (∃ attributes, t.columns.mapM (Column.toAttribute t.name) = .ok attributes) ↔
      t.Supported := by
    simp only [exists_mapM_eq_ok_iff, Column.exists_toAttribute_iff, Supported]
  rw [← hcolumns]
  refine ⟨fun ⟨o, ho⟩ => ?_, fun ⟨attributes, hattributes⟩ => ?_⟩
  · obtain ⟨d, hd, -⟩ := bind_eq_ok_iff.1 ho
    obtain ⟨attributes, hattributes, -⟩ := bind_eq_ok_iff.1 hd
    exact ⟨attributes, hattributes⟩
  · have hdeclaration : t.declaration = .ok (.table t.relation attributes) :=
      bind_eq_ok_iff.2 ⟨attributes, hattributes, rfl⟩
    exact ⟨_, bind_eq_ok_iff.2 ⟨_, hdeclaration, rfl⟩⟩

theorem Supported.exists_repositoryOutline (h : t.Supported) : ∃ o, t.repositoryOutline = .ok o := by
  have hrules : ∃ rules,
      (t.columns.filter fun c => c.name ∉ metaColumns).mapM t.repositoryRule = .ok rules := by
    refine exists_mapM_eq_ok_iff.2 fun c hc => ?_
    obtain ⟨⟨w, hw⟩, a, ha⟩ := Column.exists_types_of_supported t.name (h c (List.mem_filter.1 hc).1)
    exact ⟨_, bind_eq_ok_iff.2 ⟨w, hw, bind_eq_ok_iff.2 ⟨a, ha, rfl⟩⟩⟩
  obtain ⟨rules, hrules⟩ := hrules
  rw [repositoryOutline]
  split
  · exact ⟨_, bind_eq_ok_iff.2 ⟨rules, hrules, rfl⟩⟩
  · exact ⟨_, rfl⟩

theorem exists_column?_of_mem_primaryKey {key : String} (hkey : key ∈ t.primaryKey) :
    ∃ c ∈ t.columns, t.column? key = some c := by
  obtain ⟨c, hc, rfl⟩ := List.mem_map.1 hkey
  have hsome : (t.column? c.name).isSome = true :=
    List.find?_isSome.2 ⟨c, (List.mem_filter.1 hc).1, beq_self_eq_true c.name⟩
  obtain ⟨found, hfound⟩ := Option.isSome_iff_exists.1 hsome
  exact ⟨found, List.mem_of_find?_eq_some hfound, hfound⟩

theorem Supported.exists_keyedPivot (h : t.Supported) (target : String) (ignored : List String) :
    ∃ o, t.keyedPivot target t.primaryKey ignored = .ok o := by
  have hattributes : ∃ attributes, t.primaryKey.mapM t.keyAttribute = .ok attributes := by
    refine exists_mapM_eq_ok_iff.2 fun key hkey => ?_
    obtain ⟨c, hc, hfound⟩ := exists_column?_of_mem_primaryKey hkey
    rw [keyAttribute, hfound]
    exact Column.exists_toAttribute_iff.2 (h c hc)
  have hrules : ∃ rules, (t.columns.filter fun c => c.name ∉ t.primaryKey ∧ c.name ∉ ignored).mapM
      (t.keyedRule target t.primaryKey) = .ok rules := by
    refine exists_mapM_eq_ok_iff.2 fun c hc => ?_
    obtain ⟨⟨w, hw⟩, -⟩ := Column.exists_types_of_supported t.name (h c (List.mem_filter.1 hc).1)
    exact ⟨_, bind_eq_ok_iff.2 ⟨w, hw, rfl⟩⟩
  obtain ⟨attributes, hattributes⟩ := hattributes
  obtain ⟨rules, hrules⟩ := hrules
  exact ⟨_, bind_eq_ok_iff.2 ⟨attributes, hattributes, bind_eq_ok_iff.2 ⟨rules, hrules, rfl⟩⟩⟩

theorem Supported.exists_primaryPivot (h : t.Supported) : ∃ o, t.primaryPivot = .ok o := by
  rw [primaryPivot]
  split
  · exact ⟨_, rfl⟩
  · exact h.exists_keyedPivot _ []

end Table

namespace Schema

variable {s : Schema} {database : String} {o : Outline}

/-- The declarations of the pivot by repository and of the names. -/
def pivotDeclarations : Outline where
  declarations := [.pivot Table.repositoryAttribute [⟨"repository", .number⟩] "attribute",
    .names Table.checkName "check"]

theorem repositoryPivot_eq_ok_iff :
    s.repositoryPivot = .ok o ↔ ∃ pivots, s.factTables.mapM Table.repositoryOutline = .ok pivots ∧
      o = pivotDeclarations ++ .concat pivots := by
  constructor
  · intro ho
    obtain ⟨pivots, hpivots, ho⟩ := bind_eq_ok_iff.1 ho
    exact ⟨pivots, hpivots, (Except.ok.inj ho).symm⟩
  · rintro ⟨pivots, hpivots, rfl⟩
    exact bind_eq_ok_iff.2 ⟨pivots, hpivots, rfl⟩

theorem exists_repositoryPivot (h : ∀ t ∈ s.factTables, t.Supported) : ∃ o, s.repositoryPivot = .ok o := by
  obtain ⟨pivots, hpivots⟩ := exists_mapM_eq_ok_iff.2 fun t ht => (h t ht).exists_repositoryOutline
  exact ⟨_, repositoryPivot_eq_ok_iff.2 ⟨pivots, hpivots, rfl⟩⟩

theorem outline_eq_ok_iff :
    s.outline database = .ok o ↔ ∃ imports pivots keyed,
      s.factTables.mapM (Table.importOutline database) = .ok imports ∧
        s.factTables.mapM Table.repositoryOutline = .ok pivots ∧
        s.factTables.mapM Table.primaryPivot = .ok keyed ∧
        o = .concat imports ++ (pivotDeclarations ++ .concat pivots) ++ .concat keyed := by
  refine ⟨fun ho => ?_, fun ⟨imports, pivots, keyed, himports, hpivots, hkeyed, ho⟩ => ?_⟩
  · obtain ⟨importing, himporting, ho⟩ := bind_eq_ok_iff.1 ho
    obtain ⟨pivot, hpivot, ho⟩ := bind_eq_ok_iff.1 ho
    obtain ⟨keying, hkeying, ho⟩ := bind_eq_ok_iff.1 ho
    obtain ⟨imports, himports, himporting⟩ := bind_eq_ok_iff.1 himporting
    obtain ⟨pivots, hpivots, rfl⟩ := repositoryPivot_eq_ok_iff.1 hpivot
    obtain ⟨keyed, hkeyed, hkeying⟩ := bind_eq_ok_iff.1 hkeying
    obtain rfl := Except.ok.inj himporting
    obtain rfl := Except.ok.inj hkeying
    exact ⟨imports, pivots, keyed, himports, hpivots, hkeyed, (Except.ok.inj ho).symm⟩
  · have himporting : s.importOutline database = .ok (.concat imports) :=
      bind_eq_ok_iff.2 ⟨imports, himports, rfl⟩
    have hpivot : s.repositoryPivot = .ok (pivotDeclarations ++ .concat pivots) :=
      repositoryPivot_eq_ok_iff.2 ⟨pivots, hpivots, rfl⟩
    have hkeying : s.primaryPivots = .ok (.concat keyed) := bind_eq_ok_iff.2 ⟨keyed, hkeyed, rfl⟩
    rw [outline, himporting, hpivot, hkeying, ho]
    rfl

theorem exists_generated_iff (database : String) :
    (∃ p, s.generated database = .ok p) ↔ ∀ t ∈ s.factTables, t.Supported := by
  refine ⟨fun ⟨p, hp⟩ t ht => ?_, fun hall => ?_⟩
  · obtain ⟨o, ho, -⟩ := map_eq_ok_iff.1 hp
    obtain ⟨imports, -, -, himports, -⟩ := outline_eq_ok_iff.1 ho
    exact (Table.exists_importOutline_iff database).1 (exists_mapM_eq_ok_iff.1 ⟨imports, himports⟩ t ht)
  · obtain ⟨imports, himports⟩ := exists_mapM_eq_ok_iff.2 fun t ht =>
      (Table.exists_importOutline_iff database).2 (hall t ht)
    obtain ⟨pivots, hpivots⟩ := exists_mapM_eq_ok_iff.2 fun t ht => (hall t ht).exists_repositoryOutline
    obtain ⟨keyed, hkeyed⟩ := exists_mapM_eq_ok_iff.2 fun t ht => (hall t ht).exists_primaryPivot
    exact ⟨_, map_eq_ok_iff.2
      ⟨_, outline_eq_ok_iff.2 ⟨imports, pivots, keyed, himports, hpivots, hkeyed, rfl⟩, rfl⟩⟩

end Schema

end PolicyCheck
