import PolicyCheck.Proofs.Pairs
import PolicyCheck.Proofs.Structural.Grammar

/-!
# Documents that grow

A document grows by elements at the end of its arrays and by new fields in its objects, at any depth. What
a path leads to grows with it, and a scalar stays as it is. So a check for a literal that holds of a document
keeps holding when the document grows; a check for an absent value does not, and a policy without such
checks accepts all that a document it accepts can grow to.
-/

namespace PolicyCheck

namespace Json

/-! ### Growth -/

mutual

/-- Whether a document is extended by another one: equal scalars, arrays whose elements are extended at
their positions, or objects whose fields are extended under their keys. As JSON values, no integer is equal
to a number with a fraction or an exponent. -/
def extendedBy : Json → Json → Bool
  | .null, .null => true
  | .bool a, .bool b => a == b
  | .number a, .number b => Definition.sameNumber a b
  | .string a, .string b => a == b
  | .array items, .array others => itemsExtendedBy items others
  | .object fields, .object others => fieldsExtendedBy fields others
  | _, _ => false

/-- Whether elements are extended by the first elements of an array. -/
def itemsExtendedBy : List Json → List Json → Bool
  | [], _ => true
  | item :: items, other :: others => extendedBy item other && itemsExtendedBy items others
  | _ :: _, [] => false

def fieldsExtendedBy : List (String × Json) → List (String × Json) → Bool
  | [], _ => true
  | (key, value) :: fields, others =>
    (match field? key others with
      | some other => extendedBy value other
      | none => false) && fieldsExtendedBy fields others

end

theorem exists_extended_of_item {items others : List Json} (h : itemsExtendedBy items others = true)
    {position : Nat} {item : Json} (hitem : items[position]? = some item) :
    ∃ other, others[position]? = some other ∧ item.extendedBy other = true := by
  induction items generalizing others position with
  | nil => cases hitem
  | cons first items ih =>
    cases others with
    | nil => cases h
    | cons other others =>
      rw [itemsExtendedBy, Bool.and_eq_true] at h
      cases position with
      | zero =>
        obtain rfl := Option.some.inj hitem
        exact ⟨other, rfl, h.1⟩
      | succ position => exact ih h.2 hitem

theorem exists_extended_of_field {fields others : List (String × Json)}
    (h : fieldsExtendedBy fields others = true) {key : String} {value : Json}
    (hvalue : field? key fields = some value) :
    ∃ other, field? key others = some other ∧ value.extendedBy other = true := by
  induction fields with
  | nil => cases hvalue
  | cons field fields ih =>
    obtain ⟨name, first⟩ := field
    rw [fieldsExtendedBy, Bool.and_eq_true] at h
    rw [field?] at hvalue
    by_cases hname : name = key
    · rw [if_pos hname, Option.some_inj] at hvalue
      subst hname hvalue
      cases hother : field? name others with
      | none =>
        rw [hother] at h
        cases h.1
      | some other =>
        rw [hother] at h
        exact ⟨other, rfl, h.1⟩
    · rw [if_neg hname] at hvalue
      exact ih h.2 hvalue

theorem exists_extended_of_step {document grown : Json} (h : document.extendedBy grown = true)
    {step : Step} {value : Json} (hvalue : step? step document = some value) :
    ∃ other, step? step grown = some other ∧ value.extendedBy other = true := by
  cases document with
  | array items =>
    cases grown with
    | array others =>
      cases step with
      | index position => exact exists_extended_of_item h hvalue
      | key name => cases hvalue
    | null | bool | number | string | object => cases h
  | object fields =>
    cases grown with
    | object others =>
      cases step with
      | key name => exact exists_extended_of_field h hvalue
      | index position => cases hvalue
    | null | bool | number | string | array => cases h
  | null | bool | number | string => cases step <;> cases hvalue

/-- What a path leads to is extended by what it leads to in the grown document. -/
theorem exists_extended_of_lookup {document grown : Json} (h : document.extendedBy grown = true)
    {path : Path} {value : Json} (hvalue : document.lookup path = some value) :
    ∃ other, grown.lookup path = some other ∧ value.extendedBy other = true := by
  induction path generalizing document grown with
  | nil =>
    obtain rfl := Option.some.inj hvalue
    exact ⟨grown, rfl, h⟩
  | cons step path ih =>
    obtain ⟨next, hnext, hvalue⟩ := Option.bind_eq_some_iff.1 hvalue
    obtain ⟨other, hother, h⟩ := exists_extended_of_step h hnext
    obtain ⟨last, hlast, h⟩ := ih h hvalue
    exact ⟨last, Option.bind_eq_some_iff.2 ⟨other, hother, hlast⟩, h⟩

end Json

namespace Double

theorem same_congr {x y : Double} (h : same x y = true) (z : Double) : same x z = same y z := by
  cases x <;> cases y <;> cases z <;> simp_all [same]

end Double

namespace Structural

namespace Literal

theorem accepts_of_sameNumber (value : Literal) {m n : Number} (h : Definition.sameNumber m n = true) :
    value.accepts (some (.number m)) = value.accepts (some (.number n)) := by
  cases m with
  | int a =>
    cases n with
    | int b =>
      obtain rfl : a = b := by simpa [Definition.sameNumber] using h
      rfl
    | double y => cases h
  | double x =>
    cases n with
    | int b => cases h
    | double y =>
      rw [Definition.sameNumber, Bool.or_eq_true, Bool.and_eq_true, beq_iff_eq, beq_iff_eq] at h
      rcases h with hsame | ⟨rfl, rfl⟩
      · -- The zeros of both signs are the same number, but not the same value: no literal tells them apart.
        cases value with
        | int expected => exact Double.same_congr hsame (.ofInt expected)
        | double expected => exact Double.same_congr hsame expected
        | bool | string => rfl
      · rfl

theorem accepts_of_extendedBy {value : Literal} {document grown : Json}
    (hextended : document.extendedBy grown = true) (h : value.accepts (some document) = true) :
    value.accepts (some grown) = true := by
  cases document with
  | null | array | object => cases value <;> cases h
  | bool a =>
    cases grown with
    | bool b =>
      obtain rfl : a = b := by simpa [Json.extendedBy] using hextended
      exact h
    | null | number | string | array | object => cases hextended
  | string a =>
    cases grown with
    | string b =>
      obtain rfl : a = b := by simpa [Json.extendedBy] using hextended
      exact h
    | null | bool | number | array | object => cases hextended
  | number m =>
    cases grown with
    | number n => rwa [← accepts_of_sameNumber value hextended]
    | null | bool | string | array | object => cases hextended

theorem exists_of_accepts {value : Literal} {found : Option Json} (h : value.accepts found = true) :
    ∃ document, found = some document := by
  cases found with
  | none =>
    rw [accepts_none] at h
    cases h
  | some document => exact ⟨document, rfl⟩

end Literal

theorem Check.holds_of_extendedBy {document grown : Json} (hextended : document.extendedBy grown = true)
    {path : Path} {value : Literal} (h : (Check.literal path value).holds document = true) :
    (Check.literal path value).holds grown = true := by
  rw [Check.holds] at h ⊢
  obtain ⟨found, hfound⟩ := Literal.exists_of_accepts h
  obtain ⟨other, hother, hfound_extended⟩ := Json.exists_extended_of_lookup hextended hfound
  rw [hfound] at h
  rw [hother]
  exact Literal.accepts_of_extendedBy hfound_extended h

namespace Policy

theorem exists_literal_of_mem_checks {definition : Definition} {root : Node}
    (hroot : Node.compile definition = .ok root) (hnull : ¬ Definition.null.PartOf definition)
    {check : Check} (hcheck : check ∈ root.checks) : ∃ path value, check = .literal path value := by
  obtain ⟨leaf, hleaf, hasks⟩ := exists_mem_of_forall₂_left (Node.asks_of_compile hroot) hcheck
  cases hasks with
  | null path => exact absurd (Definition.partOf_of_mem_leaves hleaf) hnull
  | bool path b => exact ⟨path, .bool b, rfl⟩
  | number path n => exact ⟨path, .ofNumber n, rfl⟩
  | string path text => exact ⟨path, .string text, rfl⟩

/-- A policy without a null goes on accepting a document that grows. -/
theorem validate_of_extendedBy {p q : Policy} {definition : Definition}
    (hcompile : p.compile definition = .ok q) (hnull : ¬ Definition.null.PartOf definition)
    {document grown : Json} (hextended : document.extendedBy grown = true)
    (haccepts : q.validate document = .ok true) : q.validate grown = .ok true := by
  obtain ⟨root, hroot, hvalidate⟩ := exists_validate_eq hcompile
  rw [hvalidate, Except.ok.injEq, Node.holds_iff_forall_checks] at haccepts ⊢
  intro check hcheck
  obtain ⟨path, value, rfl⟩ := exists_literal_of_mem_checks hroot hnull hcheck
  exact Check.holds_of_extendedBy hextended (haccepts _ hcheck)

/-- The definition that asks for a number and for an array with two elements. -/
def askedPair : Definition :=
  .mapping [(.string "a", .number (.int 1)), (.string "b", .sequence [.bool true, .string "x"])]

/-- An array may grow beyond the positions that a policy asks for, and an object by any field. -/
theorem validate_of_extendedBy_longer :
    let document : Json := .object [("a", .number (.int 1)), ("b", .array [.bool true, .string "x"])]
    let grown : Json := .object [("a", .number (.int 1)),
      ("b", .array [.bool true, .string "x", .null]), ("c", .object [])]
    let q := (new "p" "").recompile askedPair
    (new "p" "").compile askedPair = .ok q ∧ ¬ Definition.null.PartOf askedPair ∧
    document.extendedBy grown = true ∧ q.validate document = .ok true ∧
    q.validate grown = .ok true := by
  intro document grown q
  have hcompile : (new "p" "").compile askedPair = .ok q := rfl
  have hnull : ¬ Definition.null.PartOf askedPair := by
    intro h
    rw [askedPair] at h
    cases h with
    | key hentry h => rcases List.mem_pair.1 hentry with rfl | rfl <;> cases h
    | value hentry h =>
      rcases List.mem_pair.1 hentry with rfl | rfl
      · cases h
      · cases h with
        | item hitem h => rcases List.mem_pair.1 hitem with rfl | rfl <;> cases h
  have hextended : document.extendedBy grown = true := by decide
  have haccepts : q.validate document = .ok true := rfl
  exact ⟨hcompile, hnull, hextended, haccepts,
    validate_of_extendedBy hcompile hnull hextended haccepts⟩

end Policy

end Structural

end PolicyCheck
