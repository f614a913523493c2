import PolicyCheck.Proofs.Datalog.Program
import PolicyCheck.Proofs.Schema.Outline

/-!
# What each table contributes

The program of a schema has the lines of two declarations of its own and, table by table, those of the
fact tables. What a table is compiled to does not depend on the other tables, so the program of a schema
is known by the set of its fact tables.
-/

namespace PolicyCheck

open Datalog

inductive Table.Contributes (t : Table) (database : String) : Program → Prop
  | imports {o : Outline} (h : t.importOutline database = .ok o) : t.Contributes database o.program
  | repository {o : Outline} (h : t.repositoryOutline = .ok o) : t.Contributes database o.program
  | primary {o : Outline} (h : t.primaryPivot = .ok o) : t.Contributes database o.program

namespace Schema

variable {s s' : Schema} {database : String} {p q : Program} {i : Program.Part} {line : String}

inductive Contributes (s : Schema) (database : String) : Program → Prop
  | pivot : s.Contributes database pivotDeclarations.program
  | table {t : Table} {q : Program} (ht : t ∈ s.factTables) (hq : t.Contributes database q) :
    s.Contributes database q

theorem mem_part_generated (hp : s.generated database = .ok p) :
    line ∈ p.part i ↔ ∃ q, s.Contributes database q ∧ line ∈ q.part i := by
  obtain ⟨o, ho, rfl⟩ := map_eq_ok_iff.1 hp
  obtain ⟨imports, pivots, keyed, himports, hpivots, hkeyed, rfl⟩ := outline_eq_ok_iff.1 ho
  simp only [Outline.mem_part_program_append, Outline.mem_part_program_concat,
    mem_iff_of_mapM_eq_ok himports, mem_iff_of_mapM_eq_ok hpivots, mem_iff_of_mapM_eq_ok hkeyed]
  refine ⟨?_, fun ⟨q, hq, hline⟩ => ?_⟩
  · rintro ((⟨o, ⟨t, ht, ho⟩, hline⟩ | hline | ⟨o, ⟨t, ht, ho⟩, hline⟩) | ⟨o, ⟨t, ht, ho⟩, hline⟩)
    · exact ⟨_, .table ht (.imports ho), hline⟩
    · exact ⟨_, .pivot, hline⟩
    · exact ⟨_, .table ht (.repository ho), hline⟩
    · exact ⟨_, .table ht (.primary ho), hline⟩
  · cases hq with
    | pivot => exact .inl (.inr (.inl hline))
    | @table t _ ht hq =>
      cases hq with
      | @imports o ho => exact .inl (.inl ⟨o, ⟨t, ht, ho⟩, hline⟩)
      | @repository o ho => exact .inl (.inr (.inr ⟨o, ⟨t, ht, ho⟩, hline⟩))
      | @primary o ho => exact .inr ⟨o, ⟨t, ht, ho⟩, hline⟩

/-- Schemas with the same fact tables have the same program, or none of them has any. -/
theorem generated_congr (database : String) (h : ∀ t, t ∈ s.factTables ↔ t ∈ s'.factTables) :
    (s.generated database).toOption = (s'.generated database).toOption := by
  have hsupported : (∃ p, s.generated database = .ok p) ↔ ∃ p, s'.generated database = .ok p := by
    simp only [exists_generated_iff, h]
  have hcontributes (q : Program) : s.Contributes database q ↔ s'.Contributes database q := by
    refine ⟨fun hq => ?_, fun hq => ?_⟩
    · cases hq with
      | pivot => exact .pivot
      | table ht hq => exact .table ((h _).1 ht) hq
    · cases hq with
      | pivot => exact .pivot
      | table ht hq => exact .table ((h _).2 ht) hq
  cases hp : s.generated database with
  | error e =>
    cases hp' : s'.generated database with
    | error e' => rfl
    | ok p' =>
      obtain ⟨p, hok⟩ := hsupported.2 ⟨p', hp'⟩
      cases hp.symm.trans hok
  | ok p =>
    obtain ⟨p', hp'⟩ := hsupported.1 ⟨p, hp⟩
    have heq : p = p' := by
      refine Program.ext_of_mem_part fun i line => ?_
      simp only [mem_part_generated hp, mem_part_generated hp', hcontributes]
    rw [hp', heq]

theorem factTables_append (ts us : List Table) :
    (Schema.mk (ts ++ us)).factTables = (Schema.mk ts).factTables ++ (Schema.mk us).factTables :=
  List.filter_append ts us

/-- The program of tables with further ones is the merge of the two programs, if there are both. -/
theorem generated_append (database : String) (ts us : List Table) :
    ((∃ p, (Schema.mk (ts ++ us)).generated database = .ok p) ↔
      (∃ p, (Schema.mk ts).generated database = .ok p) ∧
        ∃ q, (Schema.mk us).generated database = .ok q) ∧
    ∀ p q, (Schema.mk ts).generated database = .ok p → (Schema.mk us).generated database = .ok q →
      (Schema.mk (ts ++ us)).generated database = .ok (p.merge q) := by
  have hiff : (∃ p, (Schema.mk (ts ++ us)).generated database = .ok p) ↔
      (∃ p, (Schema.mk ts).generated database = .ok p) ∧
        ∃ q, (Schema.mk us).generated database = .ok q := by
    simp only [exists_generated_iff, factTables_append, List.forall_mem_append]
  refine ⟨hiff, fun p q hp hq => ?_⟩
  have hcontributes (r : Program) : (Schema.mk (ts ++ us)).Contributes database r ↔
      (Schema.mk ts).Contributes database r ∨ (Schema.mk us).Contributes database r := by
    refine ⟨fun hr => ?_, fun hr => ?_⟩
    · cases hr with
      | pivot => exact .inl .pivot
      | table ht hr =>
        rw [factTables_append, List.mem_append] at ht
        exact ht.imp (fun ht => .table ht hr) fun ht => .table ht hr
    · rcases hr with hr | hr
      · cases hr with
        | pivot => exact .pivot
        | table ht hr => exact .table (factTables_append ts us ▸ List.mem_append_left _ ht) hr
      · cases hr with
        | pivot => exact .pivot
        | table ht hr => exact .table (factTables_append ts us ▸ List.mem_append_right _ ht) hr
  obtain ⟨merged, hmerged⟩ := hiff.2 ⟨⟨p, hp⟩, q, hq⟩
  have heq : merged = p.merge q := by
    refine Program.ext_of_mem_part fun i line => ?_
    simp only [Program.mem_part_merge, mem_part_generated hmerged, mem_part_generated hp,
      mem_part_generated hq, hcontributes, or_and_right, exists_or]
  rw [hmerged, heq]

end Schema

end PolicyCheck
