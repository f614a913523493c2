import PolicyCheck.Structural.Evaluation
import PolicyCheck.Proofs.Number.Zero

/-!
# The meaning of definitions

What a definition asks of a document, by recursion on the definition: a part of the definition is
asked of the part of the value that it stands at, and of nothing else. No path occurs here, so this
is the measure for compiled trees, which find every value by its path from the root.
-/

namespace PolicyCheck

namespace Json

/-- The element of an array; no other value has elements. -/
def item? (position : Nat) : Json → Option Json
  | .array items => items[position]?
  | _ => none

theorem step?_index (position : Nat) (value : Json) :
    step? (.index position) value = value.item? position := by
  cases value <;> rfl

theorem step?_key (name : String) (value : Json) : step? (.key name) value = value.get? name := by
  cases value <;> rfl

theorem lookup_concat (path : Path) (step : Step) (document : Json) :
    document.lookup (path ++ [step]) = (document.lookup path).bind (step? step) := by
  have hstep : lookup [step] = step? step := by
    funext value
    exact Option.bind_fun_some _
  rw [lookup_append, hstep]

/-- Whether a looked-up value is missing, `null`, `false`, zero or empty. -/
def isVacant : Option Json → Bool
  | none | some .null | some (.bool false) | some (.string "") | some (.array [])
  | some (.object []) => true
  | some (.number n) => n.isZero
  | _ => false

end Json

namespace Definition

open Structural

mutual

/-- Whether a definition holds of a value, which may be missing. -/
def holds : Definition → Option Json → Bool
  | .null, value => Json.isVacant value
  | .bool expected, value => (Literal.bool expected).accepts value
  | .number expected, value => (Literal.ofNumber expected).accepts value
  | .string expected, value => (Literal.string expected).accepts value
  | .sequence items, value => holdsItems 0 items value
  | .mapping entries, value => holdsEntries entries value
  | .tagged .., _ => false

/-- Whether items, from a position on, hold of the elements of a value. -/
def holdsItems (position : Nat) : List Definition → Option Json → Bool
  | [], _ => true
  | item :: items, value =>
    holds item (value.bind (Json.item? position)) && holdsItems (position + 1) items value

def holdsEntries : List (Definition × Definition) → Option Json → Bool
  | [], _ => true
  | (.string name, item) :: entries, value =>
    holds item (value.bind (Json.get? name)) && holdsEntries entries value
  | _ :: _, _ => false

end

private theorem holdsItems_iff (items : List Definition) (position : Nat) (value : Option Json) :
    holdsItems position items value = true ↔
      ∀ (i : Nat) (item : Definition), items[i]? = some item →
        item.holds (value.bind (Json.item? (position + i))) = true := by
  induction items generalizing position with
  | nil => simp [holdsItems]
  | cons item items ih =>
    rw [holdsItems, Bool.and_eq_true, ih]
    constructor
    · rintro ⟨hitem, hitems⟩ i other hother
      cases i with
      | zero =>
        obtain rfl : item = other := by simpa using hother
        exact hitem
      | succ i =>
        have hrest := hitems i other (by simpa using hother)
        rwa [Nat.add_assoc, Nat.add_comm 1] at hrest
    · intro h
      refine ⟨h 0 item rfl, fun i other hother => ?_⟩
      have hrest := h (i + 1) other (by simpa using hother)
      rwa [Nat.add_assoc, Nat.add_comm 1]

theorem holds_sequence (items : List Definition) (value : Option Json) :
    (sequence items).holds value = true ↔
      ∀ (i : Nat) (item : Definition), items[i]? = some item →
        item.holds (value.bind (Json.item? i)) = true := by
  rw [holds, holdsItems_iff]
  simp only [Nat.zero_add]

/-- A mapping holds when its keys are strings and each value holds of the field under its key. -/
theorem holds_mapping (entries : List (Definition × Definition)) (value : Option Json) :
    (mapping entries).holds value = true ↔
      ∀ entry ∈ entries, ∃ name, entry.1 = string name ∧
        entry.2.holds (value.bind (Json.get? name)) = true := by
  rw [holds]
  induction entries with
  | nil => simp [holdsEntries]
  | cons entry entries ih =>
    obtain ⟨key, item⟩ := entry
    cases key <;> simp [holdsEntries, ih]

example : (mapping [(string "x", null), (string "y", sequence [bool true])]).holds
    (some (.object [("x", .number (.int 0)), ("y", .array [.bool true, .null])])) = true := by
  decide

end Definition

theorem Structural.isFalsy_eq (value : Option Json) : isFalsy value = Json.isVacant value := by
  match value with
  | none | some .null | some (.bool true) | some (.bool false) => rfl
  | some (.number n) => exact Number.isZero_toDouble n
  | some (.string text) =>
    by_cases htext : text = ""
    · subst htext
      rfl
    · simp [isFalsy, Json.isVacant, htext]
  | some (.array []) | some (.array (_ :: _)) => rfl
  | some (.object []) | some (.object (_ :: _)) => rfl

end PolicyCheck
