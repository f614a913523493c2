import PolicyCheck.Json.Record
import PolicyCheck.Proofs.Pairs

/-!
# Reading records

When a reader accepts a JSON text: which values a list of strings is read from, and how a record with all
of its fields is written.
-/

namespace PolicyCheck

namespace Json.Syntax

variable {name : String} {names : List String} {fields : List (Option String × Syntax)}
  {value : Syntax} {values : List Syntax}

def ofStrings (items : List String) : Syntax := .array (items.map fun item => .string (some item))

theorem string?_eq_some_iff {text : String} : value.string? = some text ↔ value = .string (some text) := by
  cases value <;> simp [string?]

theorem list?_string?_eq_some_iff {texts : List String} :
    list? string? value = some texts ↔ value = ofStrings texts := by
  cases value with
  | array items =>
    rw [list?, mapM_eq_some_iff, ofStrings, array.injEq, ← List.forall₂_eq_eq_eq,
      List.forall₂_map_right_iff]
    simp only [string?_eq_some_iff]
  | null | bool | number | string | object => simp [list?, ofStrings]

theorem onlyField?_eq_some_some_iff :
    onlyField? name fields = some (some value) ↔
      (fields.filter fun field => field.1 == some name) = [(some name, value)] := by
  rw [onlyField?]
  constructor
  · intro h
    split at h
    · cases h
    · rename_i field hfilter
      have hfield : field ∈ fields.filter fun field => field.1 == some name := by
        rw [hfilter]
        exact List.mem_singleton_self field
      obtain ⟨-, hname⟩ := List.mem_filter.1 hfield
      obtain rfl := Option.some.inj (Option.some.inj h)
      rw [hfilter, ← eq_of_beq hname]
    · cases h
  · intro h
    rw [h]

theorem map_some_append_replicate_eq_iff {items : List Syntax} {n : Nat} :
    items.map some ++ List.replicate n none = values.map some ↔ items = values ∧ n = 0 := by
  constructor
  · intro h
    have hzero : n = 0 := by
      by_contra hpos
      have hnone : none ∈ values.map some := by
        rw [← h]
        exact List.mem_append_right _ (List.mem_replicate.2 ⟨hpos, rfl⟩)
      simp at hnone
    rw [hzero, List.replicate_zero, List.append_nil] at h
    exact ⟨List.map_injective_iff.2 (fun _ _ => Option.some.inj) h, hzero⟩
  · rintro ⟨rfl, rfl⟩
    rw [List.replicate_zero, List.append_nil]

/-- All fields of a record are given when an object has each of them once, or an array has just them. -/
theorem record?_eq_some_map_some_iff :
    value.record? names = some (values.map some) ↔
      (∃ fields, value = .object fields ∧ (∀ field ∈ fields, field.1.isSome = true) ∧
        List.Forall₂ (fun name v => (fields.filter fun field => field.1 == some name) = [(some name, v)])
          names values) ∨
      value = .array values ∧ values.length = names.length := by
  cases value with
  | object fields =>
    have hfields : names.mapM (onlyField? · fields) = some (values.map some) ↔
        List.Forall₂ (fun name v => (fields.filter fun field => field.1 == some name) = [(some name, v)])
          names values := by
      rw [mapM_eq_some_iff, List.forall₂_map_right_iff]
      simp only [onlyField?_eq_some_some_iff]
    simp only [record?, object.injEq, exists_eq_left', reduceCtorEq, false_and, or_false]
    by_cases hnamed : ∀ field ∈ fields, field.1.isSome = true
    · rw [if_pos (List.all_eq_true.2 hnamed), hfields, and_iff_right hnamed]
    · rw [if_neg (mt List.all_eq_true.1 hnamed)]
      exact ⟨fun h => (nomatch h), fun h => absurd h.1 hnamed⟩
  | array items =>
    simp only [record?, reduceCtorEq, false_and, exists_false, false_or, array.injEq]
    split
    · rw [Option.some.injEq, map_some_append_replicate_eq_iff]
      refine and_congr_right ?_
      rintro rfl
      omega
    · rename_i hlength
      refine ⟨fun h => (nomatch h), ?_⟩
      rintro ⟨rfl, hsame⟩
      omega
  | null | bool | number | string => simp [record?]

end Json.Syntax

end PolicyCheck
