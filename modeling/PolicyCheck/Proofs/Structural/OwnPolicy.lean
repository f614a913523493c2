import PolicyCheck.Proofs.Json.Lookup
import PolicyCheck.Proofs.Pairs
import PolicyCheck.Proofs.Structural.Grammar
import PolicyCheck.Proofs.Structural.Integer

/-!
# Documents as their own policies

A document is a definition of itself. Its leaves are the leaves of that definition, so that the compiled
tree has one check for each of them, at its path. Each of these checks holds of the document; and where
another document has something else at the path of a leaf, the check for that leaf fails, whatever the rest
of that document is.
-/

namespace PolicyCheck

/-! ### The definition of a document -/

namespace Definition

mutual

def ofJson : Json → Definition
  | .null => .null
  | .bool b => .bool b
  | .number n => .number n
  | .string text => .string text
  | .array items => .sequence (ofItems items)
  | .object fields => .mapping (ofFields fields)

def ofItems : List Json → List Definition
  | [] => []
  | item :: items => ofJson item :: ofItems items

def ofFields : List (String × Json) → List (Definition × Definition)
  | [] => []
  | (key, value) :: fields => (.string key, ofJson value) :: ofFields fields

end

theorem exists_of_mem_ofItems {items : List Json} {inner : Definition} (h : inner ∈ ofItems items) :
    ∃ item, inner = ofJson item := by
  induction items with
  | nil => cases h
  | cons item items ih =>
    rcases List.mem_cons.1 h with rfl | h
    · exact ⟨item, rfl⟩
    · exact ih h

theorem exists_of_mem_ofFields {fields : List (String × Json)} {entry : Definition × Definition}
    (h : entry ∈ ofFields fields) : ∃ key value, entry = (.string key, ofJson value) := by
  induction fields with
  | nil => cases h
  | cons field fields ih =>
    rcases List.mem_cons.1 h with rfl | h
    · exact ⟨field.1, field.2, rfl⟩
    · exact ih h

theorem exists_eq_ofJson_of_partOf {part definition : Definition} (h : part.PartOf definition)
    {document : Json} (hdocument : definition = ofJson document) : ∃ inner, part = ofJson inner := by
  induction h generalizing document with
  | self => exact ⟨document, hdocument⟩
  | item hitem _ ih =>
    cases document with
    | array items =>
      cases hdocument
      obtain ⟨item, rfl⟩ := exists_of_mem_ofItems hitem
      exact ih rfl
    | null | bool | number | string | object => cases hdocument
  | key hentry _ ih =>
    cases document with
    | object fields =>
      cases hdocument
      obtain ⟨key, value, rfl⟩ := exists_of_mem_ofFields hentry
      exact ih (show .string key = ofJson (.string key) from rfl)
    | null | bool | number | string | array => cases hdocument
  | value hentry _ ih =>
    cases document with
    | object fields =>
      cases hdocument
      obtain ⟨key, value, rfl⟩ := exists_of_mem_ofFields hentry
      exact ih rfl
    | null | bool | number | string | array => cases hdocument
  | content _ _ => cases document <;> cases hdocument

theorem not_foreign_ofJson (document : Json) : ¬ (ofJson document).Foreign := by
  intro h
  cases document with
  | object fields =>
    cases h with
    | key hentry hkey =>
      obtain ⟨key, value, rfl⟩ := exists_of_mem_ofFields hentry
      exact hkey key rfl
  | null | bool | number | string | array => cases h

mutual

theorem leavesAt_ofJson (path : Path) (document : Json) :
    ((ofJson document).itemsAt path).filterMap Item.leaf? =
      (document.leavesAt path).map fun leaf => (leaf.1, ofJson leaf.2) := by
  match document with
  | .null | .bool _ | .number _ | .string _ => rfl
  | .array items => exact leavesAt_ofItems path 0 items
  | .object fields => exact leavesAt_ofFields path fields

theorem leavesAt_ofItems (path : Path) (position : Nat) (items : List Json) :
    (sequenceItems path position (ofItems items)).filterMap Item.leaf? =
      (Json.itemLeaves path position items).map fun leaf => (leaf.1, ofJson leaf.2) := by
  match items with
  | [] => rfl
  | item :: items =>
    rw [ofItems, sequenceItems, List.filterMap_append, leavesAt_ofJson, leavesAt_ofItems,
      Json.itemLeaves, List.map_append]

theorem leavesAt_ofFields (path : Path) (fields : List (String × Json)) :
    (entryItems path (ofFields fields)).filterMap Item.leaf? =
      (Json.fieldLeaves path fields).map fun leaf => (leaf.1, ofJson leaf.2) := by
  match fields with
  | [] => rfl
  | (key, value) :: fields =>
    rw [ofFields, entryItems, List.filterMap_cons_none rfl, List.filterMap_append, leavesAt_ofJson,
      leavesAt_ofFields, Json.fieldLeaves, List.map_append]
    rfl

end

end Definition

/-! ### Differences -/

namespace Json

inductive Kind where
  | null
  | bool
  | number
  | string
  | array
  | object
deriving DecidableEq, Repr

def kind : Json → Kind
  | .null => .null
  | .bool _ => .bool
  | .number _ => .number
  | .string _ => .string
  | .array _ => .array
  | .object _ => .object

/-- Whether a looked-up value is certainly not a given one: it is missing, of another kind, or another
truth value, another string or another signed integer of 64 bits. -/
inductive Differs : Json → Option Json → Prop
  | missing (value : Json) : Differs value none
  | kind {value other : Json} (h : other.kind ≠ value.kind) : Differs value (some other)
  | bool {b b' : Bool} (h : b' ≠ b) : Differs (.bool b) (some (.bool b'))
  | string {text text' : String} (h : text' ≠ text) : Differs (.string text) (some (.string text'))
  | integer {n n' : Int} (hn : Text.FitsInt64 n) (hn' : Text.FitsInt64 n') (h : n' ≠ n) :
    Differs (.number (.int n)) (some (.number (.int n')))

end Json

namespace Structural

namespace Literal

theorem accepts_ofNumber_self {n : Number} (h : n.Sound) :
    (ofNumber n).accepts (some (.number n)) = true := by
  cases hint : n.int64? with
  | some value => simp [ofNumber, accepts, hint]
  | none =>
    have hnan : n.toDouble ≠ .nan := by
      intro hnan
      have hfinite := h.isFinite_toDouble
      rw [hnan] at hfinite
      cases hfinite
    simp [ofNumber, accepts, hint, Double.same_self hnan]

/-- The kind of the values that a literal may be equal to. -/
def kind : Literal → Json.Kind
  | .bool _ => .bool
  | .string _ => .string
  | .int _ | .double _ => .number

theorem kind_ofNumber (n : Number) : (ofNumber n).kind = .number := by
  rw [ofNumber]
  cases n.int64? <;> rfl

theorem accepts_of_kind_ne {value : Literal} {other : Json} (h : other.kind ≠ value.kind) :
    value.accepts (some other) = false := by
  cases value <;> cases other <;> first | rfl | exact absurd rfl h

end Literal

namespace Check

variable {path : Path} {leaf document : Json} {check : Check}

theorem holds_of_lookup (hasks : check.Asks (path, .ofJson leaf)) (hsound : leaf.Sound)
    (hlookup : document.lookup path = some leaf) : check.holds document = true := by
  cases leaf with
  | null =>
    cases hasks
    rw [holds, hlookup]
    rfl
  | bool b =>
    cases hasks
    rw [holds, hlookup]
    exact beq_self_eq_true b
  | string text =>
    cases hasks
    rw [holds, hlookup]
    exact beq_self_eq_true text
  | number n =>
    cases hasks
    cases hsound with
    | number hn =>
      rw [holds, hlookup]
      exact Literal.accepts_ofNumber_self hn
  | array | object => cases hasks

/-- The check for a leaf that is no null is one for a literal of its kind. -/
theorem exists_literal_of_asks (hasks : check.Asks (path, .ofJson leaf)) (hnull : leaf ≠ .null) :
    ∃ value, check = .literal path value ∧ value.kind = leaf.kind := by
  cases leaf with
  | null => exact absurd rfl hnull
  | bool | string =>
    cases hasks
    exact ⟨_, rfl, rfl⟩
  | number n =>
    cases hasks
    exact ⟨_, rfl, Literal.kind_ofNumber n⟩
  | array | object => cases hasks

theorem not_holds_of_differs (hasks : check.Asks (path, .ofJson leaf)) (hnull : leaf ≠ .null)
    (hdiffers : Json.Differs leaf (document.lookup path)) : check.holds document = false := by
  obtain ⟨value, rfl, hkind⟩ := exists_literal_of_asks hasks hnull
  rw [holds]
  generalize document.lookup path = found at hdiffers
  cases hdiffers with
  | missing => exact Literal.accepts_none value
  | kind h => exact Literal.accepts_of_kind_ne (hkind ▸ h)
  | bool h =>
    cases hasks
    exact beq_eq_false_iff_ne.2 h.symm
  | string h =>
    cases hasks
    exact beq_eq_false_iff_ne.2 h.symm
  | integer hn hn' h =>
    cases hasks
    rw [← Bool.not_eq_true, Literal.accepts_int_iff, if_pos ⟨hn, hn'⟩]
    exact h

end Check

namespace Policy

/-- A document is a policy that accepts it, and that rejects every document with something else at the path
of one of its leaves, if that leaf is no null. -/
theorem compile_ofJson (p : Policy) {document : Json} (hsound : document.Sound)
    (hordered : document.Ordered) :
    ∃ q, p.compile (.ofJson document) = .ok q ∧ q.validate document = .ok true ∧
      ∀ path leaf, (path, leaf) ∈ document.leaves → leaf ≠ .null →
        ∀ tampered : Json, Json.Differs leaf (tampered.lookup path) →
          q.validate tampered = .ok false := by
  have hgrammar : ¬ ∃ part : Definition, part.PartOf (.ofJson document) ∧ part.Foreign := by
    intro ⟨part, hpart, hforeign⟩
    obtain ⟨inner, rfl⟩ := Definition.exists_eq_ofJson_of_partOf hpart rfl
    exact Definition.not_foreign_ofJson inner hforeign
  obtain ⟨root, hroot⟩ := (Node.exists_compile_eq_ok_iff _).2 hgrammar
  have hcompile : p.compile (.ofJson document) = .ok { p with root? := some root } :=
    compile_eq_ok_iff.2 ⟨root, hroot, rfl⟩
  have hasks := Node.asks_of_compile hroot
  rw [Definition.leaves, Definition.items, Definition.leavesAt_ofJson] at hasks
  refine ⟨_, hcompile, ?_, ?_⟩
  · rw [validate_of_root rfl, Except.ok.injEq, Node.holds_iff_forall_checks]
    intro check hcheck
    obtain ⟨asked, hasked, hcheck_asks⟩ := exists_mem_of_forall₂_left hasks hcheck
    obtain ⟨leaf, hleaf, rfl⟩ := List.mem_map.1 hasked
    have hlookup := (hordered.mem_leaves_iff.1 hleaf).1
    exact Check.holds_of_lookup hcheck_asks (hsound.leavesAt [] hleaf) hlookup
  · intro path leaf hleaf hnull tampered hdiffers
    obtain ⟨check, hcheck, hcheck_asks⟩ :=
      exists_mem_of_forall₂_right hasks (List.mem_map_of_mem hleaf)
    have hfails := Check.not_holds_of_differs hcheck_asks hnull hdiffers
    rw [validate_of_root rfl, Except.ok.injEq, ← Bool.not_eq_true, Node.holds_iff_forall_checks]
    intro hholds
    rw [hholds check hcheck] at hfails
    cases hfails

def signed : Json := .object [("a", .array [.number (.int 7), .null]), ("b", .object [])]

/-- The empty container and the null may go; the number may not become a string. -/
theorem compile_ofJson_signed :
    let tampered : Json := .object [("a", .array [.string "7"])]
    signed.Sound ∧ signed.Ordered ∧
    ∃ q, (new "p" "").compile (.ofJson signed) = .ok q ∧ q.validate signed = .ok true ∧
      ([.key "a", .index 0], .number (.int 7)) ∈ signed.leaves ∧
      q.validate tampered = .ok false := by
  intro tampered
  have hsound : signed.Sound := by
    refine .object (List.forall_mem_cons.2 ⟨.array ?_, List.forall_mem_singleton.2 ?_⟩)
    · exact List.forall_mem_cons.2 ⟨.number (.inl (by decide)), List.forall_mem_singleton.2 .null⟩
    · exact .object (List.forall_mem_nil _)
  have hordered : signed.Ordered := by
    refine .object (List.pairwise_pair.2 (by decide)) ?_
    refine List.forall_mem_cons.2 ⟨.array ?_, List.forall_mem_singleton.2 ?_⟩
    · exact List.forall_mem_cons.2 ⟨.number _, List.forall_mem_singleton.2 .null⟩
    · exact .object List.Pairwise.nil (List.forall_mem_nil _)
  have hleaf : ([.key "a", .index 0], .number (.int 7)) ∈ signed.leaves := List.mem_cons_self
  obtain ⟨q, hcompile, haccepts, hrejects⟩ := compile_ofJson (new "p" "") hsound hordered
  refine ⟨hsound, hordered, q, hcompile, haccepts, hleaf, ?_⟩
  exact hrejects _ _ hleaf nofun tampered (.kind (by decide))

end Policy

end Structural

end PolicyCheck
