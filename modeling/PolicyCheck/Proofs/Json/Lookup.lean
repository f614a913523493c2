import Mathlib.Data.List.Lex
import PolicyCheck.Proofs.Json.Leaf

/-!
# Looking leaves up

The fields of an object of a document ascend, as reading leaves them, so that each key leads to one
value. The leaves of such a document are the scalars that can be looked up in it, each under its own path,
and they are listed in the order of these paths: elements by their positions and fields by their keys.
-/

namespace PolicyCheck

/-- Whether a step comes before another one in the same array or object. -/
inductive Step.Before : Step → Step → Prop
  | key {name name' : String} (h : name < name') : Before (.key name) (.key name')
  | index {position position' : Nat} (h : position < position') :
    Before (.index position) (.index position')

theorem Step.not_before_self (step : Step) : ¬ step.Before step := by
  intro h
  cases h with
  | key h => exact String.lt_irrefl _ h
  | index h => exact Nat.lt_irrefl _ h

/-- Whether a path comes before another one, by the first steps in which they differ. -/
def Path.Before (p q : Path) : Prop := List.Lex Step.Before p q

namespace Path

theorem Before.append_left {p q : Path} (h : p.Before q) (path : Path) :
    Before (path ++ p) (path ++ q) := List.Lex.append_left _ h path

theorem before_of_step {step step' : Step} (h : step.Before step') (path p q : Path) :
    Before (path ++ step :: p) (path ++ step' :: q) :=
  Before.append_left (List.Lex.rel h) path

theorem not_before_self (p : Path) : ¬ p.Before p := by
  induction p with
  | nil => exact List.not_lex_nil
  | cons step p ih =>
    intro h
    cases h with
    | cons h => exact ih h
    | rel h => exact step.not_before_self h

end Path

namespace Json

/-- Whether a value is neither an array nor an object. -/
def IsScalar : Json → Prop
  | .array _ | .object _ => False
  | _ => True

/-! ### Ascending fields -/

/-- Whether the keys of fields ascend, so that none occurs twice. -/
def Ascending (fields : List (String × Json)) : Prop := fields.Pairwise fun a b => a.1 < b.1

/-- Whether the fields of every object in a value ascend. -/
inductive Ordered : Json → Prop
  | null : Ordered .null
  | bool (b : Bool) : Ordered (.bool b)
  | number (n : Number) : Ordered (.number n)
  | string (text : String) : Ordered (.string text)
  | array {items : List Json} (h : ∀ item ∈ items, Ordered item) : Ordered (.array items)
  | object {fields : List (String × Json)} (hfields : Ascending fields)
    (h : ∀ field ∈ fields, Ordered field.2) : Ordered (.object fields)

theorem ascending_insertField {key : String} {value : Json} {fields : List (String × Json)}
    (h : Ascending fields) : Ascending (insertField key value fields) := by
  induction fields with
  | nil => exact List.pairwise_singleton _ _
  | cons next fields ih =>
    obtain ⟨hnext, hfields⟩ := List.pairwise_cons.1 h
    rw [insertField]
    split
    · rename_i hlt
      refine List.pairwise_cons.2 ⟨fun field hfield => ?_, h⟩
      rcases List.mem_cons.1 hfield with rfl | hfield
      · exact hlt
      · exact String.lt_trans hlt (hnext field hfield)
    · split
      · rename_i heq
        subst heq
        exact List.pairwise_cons.2 ⟨hnext, hfields⟩
      · rename_i hnlt hne
        refine List.pairwise_cons.2 ⟨fun field hfield => ?_, ih hfields⟩
        rcases mem_insertField hfield with rfl | hfield
        · exact Std.lt_of_le_of_ne (String.not_lt.1 hnlt) fun heq => hne heq.symm
        · exact hnext field hfield

theorem ascending_sortFields (fields : List (String × Json)) :
    Ascending (Syntax.sortFields fields) := by
  have hfold (fields sorted : List (String × Json)) (h : Ascending sorted) :
      Ascending (fields.foldl (fun sorted field => insertField field.1 field.2 sorted) sorted) := by
    induction fields generalizing sorted with
    | nil => exact h
    | cons field fields ih => exact ih _ (ascending_insertField h)
  exact hfold fields [] List.Pairwise.nil

theorem ordered_ofText? {text : String} {document : Json} (h : ofText? text = some document) :
    document.Ordered := by
  have hreads : Syntax.Reads Ordered := {
    null := .null
    bool := .bool
    number := fun {n} _ => .number n
    string := .string
    array := .array
    object := fun {fields} hfields => .object (ascending_sortFields fields) fun field hfield =>
      hfields field (Syntax.mem_sortFields hfield) }
  exact hreads.ofText? h

theorem field?_eq_some_iff {fields : List (String × Json)} (h : Ascending fields) {key : String}
    {value : Json} : field? key fields = some value ↔ (key, value) ∈ fields := by
  induction fields with
  | nil => simp [field?]
  | cons next fields ih =>
    obtain ⟨name, first⟩ := next
    obtain ⟨hnext, hfields⟩ := List.pairwise_cons.1 h
    rw [field?, List.mem_cons]
    by_cases heq : name = key
    · have hnone : (key, value) ∉ fields := by
        intro hmem
        exact String.lt_irrefl key (heq ▸ hnext _ hmem)
      rw [if_pos heq, or_iff_left hnone, heq, Prod.mk.injEq, Option.some_inj]
      exact ⟨fun h => ⟨rfl, h.symm⟩, fun h => h.2.symm⟩
    · have hne : (key, value) ≠ (name, first) := fun h => heq (congrArg Prod.fst h).symm
      rw [if_neg heq, ih hfields, or_iff_right hne]

/-! ### Leaves by their paths -/

-- What a path leads to in a container is what its rest leads to in an element or a field; only for fields
-- does this need the order, without which `lookup` would pass over all but the first of a key.

theorem lookup_array_eq_some_iff {items : List Json} {path : Path} {scalar : Json}
    (hscalar : scalar.IsScalar) : lookup path (.array items) = some scalar ↔
      ∃ position item p, items[position]? = some item ∧ path = .index position :: p ∧
        item.lookup p = some scalar := by
  constructor
  · intro h
    match path with
    | [] =>
      cases h
      exact hscalar.elim
    | .key name :: p => cases h
    | .index position :: p =>
      obtain ⟨item, hitem, hlookup⟩ := Option.bind_eq_some_iff.1 h
      exact ⟨position, item, p, hitem, rfl, hlookup⟩
  · intro ⟨position, item, p, hitem, hpath, hlookup⟩
    rw [hpath]
    exact Option.bind_eq_some_iff.2 ⟨item, hitem, hlookup⟩

theorem lookup_object_eq_some_iff {fields : List (String × Json)} (hfields : Ascending fields)
    {path : Path} {scalar : Json} (hscalar : scalar.IsScalar) :
    lookup path (.object fields) = some scalar ↔
      ∃ field ∈ fields, ∃ p, path = .key field.1 :: p ∧ field.2.lookup p = some scalar := by
  constructor
  · intro h
    match path with
    | [] =>
      cases h
      exact hscalar.elim
    | .index position :: p => cases h
    | .key name :: p =>
      obtain ⟨value, hvalue, hlookup⟩ := Option.bind_eq_some_iff.1 h
      exact ⟨(name, value), (field?_eq_some_iff hfields).1 hvalue, p, rfl, hlookup⟩
  · intro ⟨field, hfield, p, hpath, hlookup⟩
    rw [hpath]
    exact Option.bind_eq_some_iff.2 ⟨field.2, (field?_eq_some_iff hfields).2 hfield, hlookup⟩

mutual

theorem Ordered.mem_leavesAt_iff {value : Json} (h : value.Ordered) {path : Path} {leaf : Path × Json} :
    leaf ∈ value.leavesAt path ↔
      leaf.2.IsScalar ∧ ∃ p, leaf.1 = path ++ p ∧ value.lookup p = some leaf.2 := by
  match value with
  | .array items =>
    cases h with
    | array h =>
      rw [leavesAt, mem_itemLeaves_iff h]
      refine and_congr_right fun hscalar => ?_
      simp only [lookup_array_eq_some_iff hscalar, Nat.zero_add]
      constructor
      · intro ⟨position, item, p, hitem, hpath, hlookup⟩
        exact ⟨_, hpath, position, item, p, hitem, rfl, hlookup⟩
      · intro ⟨_, hpath, position, item, p, hitem, heq, hlookup⟩
        exact ⟨position, item, p, hitem, heq ▸ hpath, hlookup⟩
  | .object fields =>
    cases h with
    | object hfields h =>
      rw [leavesAt, mem_fieldLeaves_iff h]
      refine and_congr_right fun hscalar => ?_
      simp only [lookup_object_eq_some_iff hfields hscalar]
      constructor
      · intro ⟨field, hfield, p, hpath, hlookup⟩
        exact ⟨_, hpath, field, hfield, p, rfl, hlookup⟩
      · intro ⟨_, hpath, field, hfield, p, heq, hlookup⟩
        exact ⟨field, hfield, p, heq ▸ hpath, hlookup⟩
  | .null | .bool _ | .number _ | .string _ =>
    obtain ⟨leafPath, scalar⟩ := leaf
    simp only [leavesAt, List.mem_singleton, Prod.mk.injEq]
    constructor
    · intro ⟨hpath, hleaf⟩
      rw [hpath, hleaf]
      exact ⟨trivial, [], (List.append_nil path).symm, rfl⟩
    · intro ⟨_, p, hpath, hlookup⟩
      match p with
      | [] => exact ⟨hpath.trans (List.append_nil path), (Option.some.inj hlookup).symm⟩
      | .key _ :: _ | .index _ :: _ => cases hlookup

theorem mem_itemLeaves_iff {items : List Json} (h : ∀ item ∈ items, item.Ordered) {path : Path}
    {start : Nat} {leaf : Path × Json} : leaf ∈ itemLeaves path start items ↔
      leaf.2.IsScalar ∧ ∃ position item p, items[position]? = some item ∧
        leaf.1 = path ++ .index (start + position) :: p ∧ item.lookup p = some leaf.2 := by
  match items with
  | [] => simp [itemLeaves]
  | item :: items =>
    obtain ⟨hitem, hitems⟩ := List.forall_mem_cons.1 h
    rw [itemLeaves, List.mem_append, hitem.mem_leavesAt_iff, mem_itemLeaves_iff hitems, ← and_or_left]
    refine and_congr_right fun _ => ?_
    -- The first element stands at `start`, and the others one further on than in the rest of the list.
    constructor
    · intro hleaf
      rcases hleaf with ⟨p, hpath, hlookup⟩ | ⟨position, other, p, hother, hpath, hlookup⟩
      · refine ⟨0, item, p, rfl, ?_, hlookup⟩
        rw [hpath, List.append_assoc]
        rfl
      · refine ⟨position + 1, other, p, hother, ?_, hlookup⟩
        rw [hpath, Nat.add_right_comm, Nat.add_assoc]
    · intro ⟨position, other, p, hother, hpath, hlookup⟩
      match position with
      | 0 =>
        obtain rfl := Option.some.inj hother
        refine .inl ⟨p, ?_, hlookup⟩
        rw [hpath, List.append_assoc]
        rfl
      | position + 1 =>
        refine .inr ⟨position, other, p, hother, ?_, hlookup⟩
        rw [hpath, Nat.add_right_comm, Nat.add_assoc]

theorem mem_fieldLeaves_iff {fields : List (String × Json)} (h : ∀ field ∈ fields, field.2.Ordered)
    {path : Path} {leaf : Path × Json} : leaf ∈ fieldLeaves path fields ↔
      leaf.2.IsScalar ∧ ∃ field ∈ fields, ∃ p,
        leaf.1 = path ++ .key field.1 :: p ∧ field.2.lookup p = some leaf.2 := by
  match fields with
  | [] => simp [fieldLeaves]
  | (key, value) :: fields =>
    obtain ⟨hvalue, hfields⟩ := List.forall_mem_cons.1 h
    rw [fieldLeaves, List.mem_append, hvalue.mem_leavesAt_iff, mem_fieldLeaves_iff hfields,
      ← and_or_left, List.exists_mem_cons_iff]
    simp only [List.append_assoc, List.singleton_append]

end

theorem Ordered.mem_leaves_iff {document : Json} (h : document.Ordered) {path : Path} {scalar : Json} :
    (path, scalar) ∈ document.leaves ↔ document.lookup path = some scalar ∧ scalar.IsScalar := by
  rw [leaves, h.mem_leavesAt_iff]
  simp [and_comm]

mutual

theorem Ordered.pairwise_leavesAt {value : Json} (h : value.Ordered) (path : Path) :
    (value.leavesAt path).Pairwise fun a b => a.1.Before b.1 := by
  match value with
  | .array items =>
    cases h with
    | array h => exact pairwise_itemLeaves h path 0
  | .object fields =>
    cases h with
    | object hfields h => exact pairwise_fieldLeaves hfields h path
  | .null | .bool _ | .number _ | .string _ => exact List.pairwise_singleton _ _

theorem pairwise_itemLeaves {items : List Json} (h : ∀ item ∈ items, item.Ordered) (path : Path)
    (start : Nat) : (itemLeaves path start items).Pairwise fun a b => a.1.Before b.1 := by
  match items with
  | [] => exact List.Pairwise.nil
  | item :: items =>
    obtain ⟨hitem, hitems⟩ := List.forall_mem_cons.1 h
    refine List.pairwise_append.2 ⟨hitem.pairwise_leavesAt _, pairwise_itemLeaves hitems path _, ?_⟩
    intro a ha b hb
    obtain ⟨-, p, hpath, -⟩ := hitem.mem_leavesAt_iff.1 ha
    obtain ⟨-, position, _, q, -, hpath', -⟩ := (mem_itemLeaves_iff hitems).1 hb
    rw [hpath, hpath', List.append_assoc]
    exact Path.before_of_step (.index (by omega)) path p q

theorem pairwise_fieldLeaves {fields : List (String × Json)} (hfields : Ascending fields)
    (h : ∀ field ∈ fields, field.2.Ordered) (path : Path) :
    (fieldLeaves path fields).Pairwise fun a b => a.1.Before b.1 := by
  match fields with
  | [] => exact List.Pairwise.nil
  | (key, value) :: fields =>
    obtain ⟨hvalue, hvalues⟩ := List.forall_mem_cons.1 h
    obtain ⟨hkey, hkeys⟩ := List.pairwise_cons.1 hfields
    refine List.pairwise_append.2
      ⟨Ordered.pairwise_leavesAt hvalue _, pairwise_fieldLeaves hkeys hvalues path, ?_⟩
    intro a ha b hb
    obtain ⟨-, p, hpath, -⟩ := (Ordered.mem_leavesAt_iff hvalue).1 ha
    obtain ⟨-, field, hfield, q, hpath', -⟩ := (mem_fieldLeaves_iff hvalues).1 hb
    rw [hpath, hpath', List.append_assoc]
    exact Path.before_of_step (.key (hkey field hfield)) path p q

end

theorem Ordered.nodup_paths {document : Json} (h : document.Ordered) :
    (document.leaves.map Prod.fst).Nodup := by
  have hpairwise := List.pairwise_map.2 (h.pairwise_leavesAt [])
  refine hpairwise.imp fun {p q} hbefore heq => ?_
  exact p.not_before_self (heq ▸ hbefore)

theorem Ordered.not_prefix_of_empty {document : Json} (h : document.Ordered) {path : Path}
    {container : Json} (hcontainer : document.lookup path = some container)
    (hempty : container = .array [] ∨ container = .object []) {leaf : Path × Json}
    (hleaf : leaf ∈ document.leaves) : ¬ path <+: leaf.1 := by
  intro hbelow
  obtain ⟨p, hp⟩ := hbelow
  obtain ⟨hlookup, hscalar⟩ := h.mem_leaves_iff.1 hleaf
  rw [← hp, lookup_append, hcontainer, Option.bind_some] at hlookup
  rcases hempty with rfl | rfl
  · obtain ⟨position, item, -, hitem, -⟩ := (lookup_array_eq_some_iff hscalar).1 hlookup
    cases hitem
  · obtain ⟨field, hfield, -⟩ := (lookup_object_eq_some_iff List.Pairwise.nil hscalar).1 hlookup
    cases hfield

/-! ### Their number -/

mutual

def leafCount : Json → Nat
  | .array items => itemLeafCount items
  | .object fields => fieldLeafCount fields
  | _ => 1

/-- The number of scalars in the elements of an array. -/
def itemLeafCount : List Json → Nat
  | [] => 0
  | item :: items => leafCount item + itemLeafCount items

/-- The number of scalars in the fields of an object. -/
def fieldLeafCount : List (String × Json) → Nat
  | [] => 0
  | (_, value) :: fields => leafCount value + fieldLeafCount fields

end

mutual

theorem length_leavesAt (path : Path) (value : Json) : (value.leavesAt path).length = value.leafCount := by
  match value with
  | .array items => exact length_itemLeaves path 0 items
  | .object fields => exact length_fieldLeaves path fields
  | .null | .bool _ | .number _ | .string _ => rfl

theorem length_itemLeaves (path : Path) (start : Nat) (items : List Json) :
    (itemLeaves path start items).length = itemLeafCount items := by
  match items with
  | [] => rfl
  | item :: items =>
    rw [itemLeaves, List.length_append, length_leavesAt, length_itemLeaves, itemLeafCount]

theorem length_fieldLeaves (path : Path) (fields : List (String × Json)) :
    (fieldLeaves path fields).length = fieldLeafCount fields := by
  match fields with
  | [] => rfl
  | (key, value) :: fields =>
    rw [fieldLeaves, List.length_append, length_leavesAt, length_fieldLeaves, fieldLeafCount]

end

end Json

end PolicyCheck
