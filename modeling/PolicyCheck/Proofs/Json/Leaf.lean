import PolicyCheck.Json.Path
import PolicyCheck.Json.Syntax
import PolicyCheck.Proofs.Number.Plain

/-!
# The leaves of documents

A leaf is a scalar of a document with the path to it. A document is sound if it holds numbers of
documents only, as every document that is read from text does.
-/

namespace PolicyCheck

namespace Json

mutual

/-- The leaves of a value at a path, in document order. -/
def leavesAt (path : Path) : Json → List (Path × Json)
  | .array items => itemLeaves path 0 items
  | .object fields => fieldLeaves path fields
  | scalar => [(path, scalar)]

/-- The leaves of the elements of an array from a position on. -/
def itemLeaves (path : Path) (position : Nat) : List Json → List (Path × Json)
  | [] => []
  | item :: items =>
    leavesAt (path ++ [.index position]) item ++ itemLeaves path (position + 1) items

def fieldLeaves (path : Path) : List (String × Json) → List (Path × Json)
  | [] => []
  | (key, value) :: fields => leavesAt (path ++ [.key key]) value ++ fieldLeaves path fields

end

def leaves (document : Json) : List (Path × Json) := leavesAt [] document

/-- Whether the numbers of a value are such as a document can hold: integers within 64 bits and finite
binary64 numbers. -/
inductive Sound : Json → Prop
  | null : Sound .null
  | bool (b : Bool) : Sound (.bool b)
  | number {n : Number} (h : n.Sound) : Sound (.number n)
  | string (text : String) : Sound (.string text)
  | array {items : List Json} (h : ∀ item ∈ items, Sound item) : Sound (.array items)
  | object {fields : List (String × Json)} (h : ∀ field ∈ fields, Sound field.2) :
    Sound (.object fields)

mutual

theorem Sound.leavesAt {value : Json} (h : value.Sound) (path : Path) {leaf : Path × Json}
    (hleaf : leaf ∈ value.leavesAt path) : leaf.2.Sound := by
  match value with
  | .array items =>
    cases h with
    | array h => exact sound_itemLeaves h path 0 hleaf
  | .object fields =>
    cases h with
    | object h => exact sound_fieldLeaves h path hleaf
  | .null | .bool _ | .number _ | .string _ =>
    rw [List.mem_singleton.1 hleaf]
    exact h

theorem sound_itemLeaves {items : List Json} (h : ∀ item ∈ items, item.Sound) (path : Path)
    (position : Nat) {leaf : Path × Json} (hleaf : leaf ∈ itemLeaves path position items) :
    leaf.2.Sound := by
  match items with
  | [] => cases hleaf
  | item :: items =>
    obtain ⟨hitem, hitems⟩ := List.forall_mem_cons.1 h
    rcases List.mem_append.1 hleaf with hleaf | hleaf
    · exact hitem.leavesAt _ hleaf
    · exact sound_itemLeaves hitems path _ hleaf

theorem sound_fieldLeaves {fields : List (String × Json)} (h : ∀ field ∈ fields, field.2.Sound)
    (path : Path) {leaf : Path × Json} (hleaf : leaf ∈ fieldLeaves path fields) :
    leaf.2.Sound := by
  match fields with
  | [] => cases hleaf
  | (key, value) :: fields =>
    obtain ⟨hvalue, hfields⟩ := List.forall_mem_cons.1 h
    rcases List.mem_append.1 hleaf with hleaf | hleaf
    · exact Sound.leavesAt hvalue _ hleaf
    · exact sound_fieldLeaves hfields path hleaf

end

theorem mem_insertField {key : String} {value : Json} {fields : List (String × Json)}
    {field : String × Json} (h : field ∈ insertField key value fields) :
    field = (key, value) ∨ field ∈ fields := by
  induction fields with
  | nil => exact .inl (List.mem_singleton.1 h)
  | cons next fields ih =>
    rw [insertField] at h
    split at h
    · exact List.mem_cons.1 h
    · split at h
      · exact (List.mem_cons.1 h).imp_right (List.mem_cons_of_mem _)
      · rcases List.mem_cons.1 h with rfl | h
        · exact .inr List.mem_cons_self
        · exact (ih h).imp_right (List.mem_cons_of_mem _)

namespace Syntax

theorem mem_sortFields {fields : List (String × Json)} {field : String × Json}
    (h : field ∈ sortFields fields) : field ∈ fields := by
  have hfold (fields sorted : List (String × Json))
      (h : field ∈ fields.foldl (fun sorted field => insertField field.1 field.2 sorted) sorted) :
      field ∈ sorted ∨ field ∈ fields := by
    induction fields generalizing sorted with
    | nil => exact .inl h
    | cons next fields ih =>
      rcases ih _ h with h | h
      · rcases mem_insertField h with rfl | h
        · exact .inr List.mem_cons_self
        · exact .inl h
      · exact .inr (List.mem_cons_of_mem _ h)
  exact (hfold fields [] h).resolve_left List.not_mem_nil

theorem sound_toNumber? {numeral : Numeral} {n : Number} (h : numeral.toNumber? = some n) :
    n.Sound := by
  unfold Numeral.toNumber? at h
  extract_lets value d at h
  split at h
  next hint =>
    cases h
    exact hint.2.1
  next =>
    split at h
    next hfinite =>
      cases h
      exact hfinite
    next => cases h

variable {P : Json → Prop}

/-- Whether a property of values passes from the parts of a text to the value that is read. -/
structure Reads (P : Json → Prop) : Prop where
  null : P .null
  bool (b : Bool) : P (.bool b)
  number {n : Number} (h : n.Sound) : P (.number n)
  string (text : String) : P (.string text)
  array {items : List Json} (h : ∀ item ∈ items, P item) : P (.array items)
  object {fields : List (String × Json)} (h : ∀ field ∈ fields, P field.2) :
    P (.object (sortFields fields))

mutual

theorem Reads.toJsonWithin? (hP : Reads P) {levels : Nat} {text : Syntax} {value : Json}
    (h : Syntax.toJsonWithin? sortFields levels text = some value) : P value := by
  match levels, text with
  | _, .null =>
    cases h
    exact hP.null
  | _, .bool b =>
    cases h
    exact hP.bool b
  | _, .number numeral =>
    obtain ⟨n, hn, rfl⟩ := Option.map_eq_some_iff.1 h
    exact hP.number (sound_toNumber? hn)
  | _, .string text =>
    obtain ⟨text, -, rfl⟩ := Option.map_eq_some_iff.1 h
    exact hP.string text
  | 0, .array items => cases h
  | levels + 1, .array items =>
    obtain ⟨values, hvalues, rfl⟩ := Option.map_eq_some_iff.1 h
    exact hP.array (hP.itemsWithin? hvalues)
  | 0, .object fields => cases h
  | levels + 1, .object fields =>
    obtain ⟨values, hvalues, rfl⟩ := Option.map_eq_some_iff.1 h
    exact hP.object (hP.fieldsWithin? hvalues)

theorem Reads.itemsWithin? (hP : Reads P) {levels : Nat} {items : List Syntax} {values : List Json}
    (h : Syntax.itemsWithin? sortFields levels items = some values) : ∀ value ∈ values, P value := by
  match items with
  | [] =>
    cases h
    exact List.forall_mem_nil _
  | item :: items =>
    rw [Syntax.itemsWithin?] at h
    split at h
    next hvalue hvalues =>
      cases h
      exact List.forall_mem_cons.2 ⟨hP.toJsonWithin? hvalue, hP.itemsWithin? hvalues⟩
    next => cases h

theorem Reads.fieldsWithin? (hP : Reads P) {levels : Nat} {fields : List (Option String × Syntax)}
    {values : List (String × Json)}
    (h : Syntax.fieldsWithin? sortFields levels fields = some values) : ∀ field ∈ values, P field.2 := by
  match fields with
  | [] =>
    cases h
    exact List.forall_mem_nil _
  | (key, item) :: fields =>
    unfold Syntax.fieldsWithin? at h
    split at h
    next hvalue hvalues =>
      cases h
      exact List.forall_mem_cons.2 ⟨hP.toJsonWithin? hvalue, hP.fieldsWithin? hvalues⟩
    next => cases h

end

theorem Reads.ofText? (hP : Reads P) {text : String} {document : Json}
    (h : Json.ofText? text = some document) : P document := by
  obtain ⟨value, -, hvalue⟩ := Option.bind_eq_some_iff.1 h
  exact hP.toJsonWithin? hvalue

end Syntax

theorem sound_ofText? {text : String} {document : Json} (h : ofText? text = some document) :
    document.Sound := by
  have hreads : Syntax.Reads Sound := {
    null := .null
    bool := .bool
    number := .number
    string := .string
    array := .array
    object := fun hfields => .object fun field hfield => hfields field (Syntax.mem_sortFields hfield) }
  exact hreads.ofText? h

end Json

end PolicyCheck
