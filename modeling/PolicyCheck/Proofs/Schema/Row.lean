import Mathlib.Data.List.Nodup
import PolicyCheck.Dictionary
import PolicyCheck.Proofs.Datalog.Clause
import PolicyCheck.Schema.Basic

/-!
# Rows of a table

A row of a table has a value for each column, in the order of the columns. The arguments of an atom
that are given by the names of the columns fit a row exactly if each fits the row's value in the column
of its name, whatever the order and the number of columns: this is all that is known of positions.
-/

namespace PolicyCheck

open Datalog

theorem mem_of_lookup_zip {names : List String} {row : Tuple} {name : String} {d : Datum}
    (h : (names.zip row).lookup name = some d) : name ∈ names := by
  induction names generalizing row with
  | nil => cases h
  | cons first names ih =>
    cases row with
    | nil => cases h
    | cons value row =>
      rw [List.zip_cons_cons, Dictionary.lookup_cons] at h
      by_cases hname : name = first
      · rw [hname]
        exact List.mem_cons_self
      · rw [if_neg hname] at h
        exact List.mem_cons_of_mem first (ih h)

theorem exists_lookup_zip {names : List String} {row : Tuple} (h : row.length = names.length)
    {name : String} (hname : name ∈ names) : ∃ d, (names.zip row).lookup name = some d := by
  induction names generalizing row with
  | nil => cases hname
  | cons first names ih =>
    cases row with
    | nil => cases h
    | cons value row =>
      rw [List.zip_cons_cons, Dictionary.lookup_cons]
      by_cases hfirst : name = first
      · exact ⟨value, if_pos hfirst⟩
      · rw [if_neg hfirst]
        exact ih (Nat.succ.inj h) ((List.mem_cons.1 hname).resolve_left hfirst)

/-- A relation between names and values holds along a row exactly if it holds of every name and the
value that the row has under it. -/
theorem forall₂_iff_lookup_zip {names : List String} (hnames : names.Nodup) {row : Tuple}
    {R : String → Datum → Prop} :
    List.Forall₂ R names row ↔
      row.length = names.length ∧ ∀ name d, (names.zip row).lookup name = some d → R name d := by
  induction names generalizing row with
  | nil =>
    rw [List.forall₂_nil_left_iff]
    constructor
    · rintro rfl
      exact ⟨rfl, fun name d h => nomatch h⟩
    · intro h
      exact List.eq_nil_of_length_eq_zero h.1
  | cons first names ih =>
    obtain ⟨hfirst, hnames⟩ := List.nodup_cons.1 hnames
    cases row with
    | nil =>
      constructor
      · intro h
        cases h
      · intro h
        cases h.1
    | cons value row =>
      rw [List.forall₂_cons, ih hnames, List.zip_cons_cons, List.length_cons, List.length_cons]
      constructor
      · intro ⟨hvalue, hlength, hothers⟩
        refine ⟨congrArg Nat.succ hlength, fun name d h => ?_⟩
        rw [Dictionary.lookup_cons] at h
        split at h
        · rename_i hname
          rw [hname, ← Option.some.inj h]
          exact hvalue
        · exact hothers name d h
      · intro ⟨hlength, hall⟩
        refine ⟨hall first value ?_, Nat.succ.inj hlength, fun name d h => hall name d ?_⟩
        · rw [Dictionary.lookup_cons, if_pos rfl]
        · have hname : name ≠ first := by
            rintro rfl
            exact hfirst (mem_of_lookup_zip h)
          rw [Dictionary.lookup_cons, if_neg hname]
          exact h

namespace Table

/-- The rows of the table: the tuples of its relation that have a value for each column. -/
def rows (t : Table) (contents : Contents) : Set Tuple :=
  {row | row ∈ contents t.relation ∧ row.length = t.columns.length}

/-- The value of a row in the column of a name. -/
def cell? (t : Table) (row : Tuple) (name : String) : Option Datum :=
  ((t.columns.map Column.name).zip row).lookup name

variable {t : Table} {row : Tuple}

theorem exists_cell? (h : row.length = t.columns.length) {name : String}
    (hname : name ∈ t.columns.map Column.name) : ∃ d, t.cell? row name = some d :=
  exists_lookup_zip (by rw [h, List.length_map]) hname

/-- Arguments by the names of the columns fit a row exactly if they fit its cells. -/
theorem matches_iff_cell? (hnames : (t.columns.map Column.name).Nodup) {env : String → Datum}
    (argument : String → Argument) :
    List.Forall₂ (Argument.Matches env) (t.columns.map fun c => argument c.name) row ↔
      row.length = t.columns.length ∧
        ∀ name d, t.cell? row name = some d → (argument name).Matches env d := by
  have hmap : t.columns.map (fun c => argument c.name) = (t.columns.map Column.name).map argument := by
    rw [List.map_map]
    rfl
  rw [hmap, List.forall₂_map_left_iff, forall₂_iff_lookup_zip hnames, List.length_map]
  rfl

end Table

end PolicyCheck
