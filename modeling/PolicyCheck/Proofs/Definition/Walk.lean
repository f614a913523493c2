import Mathlib.Data.List.Basic
import PolicyCheck.Error

/-!
# Walking through definitions

What a definition contains is listed depth first, each value with the path that leads to it and each key
with the path of its mapping, a key before its value. The list is about the tree alone: what is listed is
part of the definition, and a tagged value or a key that is no string is listed wherever it hides, or hides
behind another one.
-/

namespace PolicyCheck

namespace Definition

/-! ### Parts -/

/-- Whether a tree is another one or stands somewhere in it. -/
inductive PartOf : Definition → Definition → Prop
  | self (definition : Definition) : PartOf definition definition
  | item {part item : Definition} {items : List Definition} (hitem : item ∈ items)
    (h : PartOf part item) : PartOf part (.sequence items)
  | key {part : Definition} {entry : Definition × Definition} {entries : List (Definition × Definition)}
    (hentry : entry ∈ entries) (h : PartOf part entry.1) : PartOf part (.mapping entries)
  | value {part : Definition} {entry : Definition × Definition}
    {entries : List (Definition × Definition)} (hentry : entry ∈ entries) (h : PartOf part entry.2) :
    PartOf part (.mapping entries)
  | content {part value : Definition} {tag : String} (h : PartOf part value) :
    PartOf part (.tagged tag value)

theorem PartOf.trans {part inner outer : Definition} (h : part.PartOf inner) (h' : inner.PartOf outer) :
    part.PartOf outer := by
  induction h' with
  | self => exact h
  | item hitem _ ih => exact .item hitem ih
  | key hentry _ ih => exact .key hentry ih
  | value hentry _ ih => exact .value hentry ih
  | content _ ih => exact .content ih

/-- Whether a tree is no policy by itself: it is a tagged value, or a mapping with a key that is no
string. -/
inductive Foreign : Definition → Prop
  | tagged (tag : String) (value : Definition) : Foreign (.tagged tag value)
  | key {entry : Definition × Definition} {entries : List (Definition × Definition)}
    (hentry : entry ∈ entries) (hkey : ∀ name, entry.1 ≠ .string name) : Foreign (.mapping entries)

/-- Whether the keys of each mapping in a tree are pairwise distinct. -/
def DistinctKeys (definition : Definition) : Prop :=
  ∀ entries, PartOf (.mapping entries) definition → (entries.map Prod.fst).Nodup

theorem DistinctKeys.sequence {items : List Definition} (h : ∀ item ∈ items, item.DistinctKeys) :
    DistinctKeys (.sequence items) := by
  intro entries hpart
  cases hpart with
  | item hitem hpart => exact h _ hitem entries hpart

theorem DistinctKeys.mapping {entries : List (Definition × Definition)}
    (hkeys : (entries.map Prod.fst).Nodup)
    (h : ∀ entry ∈ entries, entry.1.DistinctKeys ∧ entry.2.DistinctKeys) :
    DistinctKeys (.mapping entries) := by
  intro others hpart
  cases hpart with
  | self => exact hkeys
  | key hentry hpart => exact (h _ hentry).1 others hpart
  | value hentry hpart => exact (h _ hentry).2 others hpart

theorem DistinctKeys.tagged {tag : String} {value : Definition} (h : value.DistinctKeys) :
    DistinctKeys (.tagged tag value) := by
  intro entries hpart
  cases hpart with
  | content hpart => exact h entries hpart

theorem DistinctKeys.of_item {items : List Definition} (h : DistinctKeys (.sequence items)) :
    ∀ item ∈ items, item.DistinctKeys :=
  fun _ hitem entries hpart => h entries (.item hitem hpart)

theorem DistinctKeys.of_value {entries : List (Definition × Definition)}
    (h : DistinctKeys (.mapping entries)) : ∀ entry ∈ entries, entry.2.DistinctKeys :=
  fun _ hentry others hpart => h others (.value hentry hpart)

/-! ### The walk through a definition -/

inductive Item where
  | value (path : Path) (value : Definition)
  | key (path : Path) (key : Definition)

namespace Item

/-- The path of the value, or of the mapping of the key. -/
def path : Item → Path
  | .value path _ => path
  | .key path _ => path

/-- The fault that the item is in a policy, if it is one. -/
def fault? : Item → Option PolicyFault
  | .value path (.tagged tag _) => some (.taggedValue tag path)
  | .value .. => none
  | .key _ (.string _) => none
  | .key path other => some (.keyNotString other path)

/-- The item, if it is a null or a scalar in the place of a value. -/
def leaf? : Item → Option (Path × Definition)
  | .value path .null => some (path, .null)
  | .value path (.bool b) => some (path, .bool b)
  | .value path (.number n) => some (path, .number n)
  | .value path (.string text) => some (path, .string text)
  | _ => none

end Item

/-- The steps that a key leads on; a key that is no string leads nowhere. -/
def steps : Definition → Path
  | .string name => [.key name]
  | _ => []

mutual

/-- The walk through the definition of the value at a path, depth first: a value comes before all that is
in it, and a key before its value. -/
def itemsAt (path : Path) : Definition → List Item
  | .sequence items => .value path (.sequence items) :: sequenceItems path 0 items
  | .mapping entries => .value path (.mapping entries) :: entryItems path entries
  | .tagged tag value => .value path (.tagged tag value) :: itemsAt path value
  | scalar => [.value path scalar]

/-- The walk through the items of a sequence from a position on. -/
def sequenceItems (path : Path) (position : Nat) : List Definition → List Item
  | [] => []
  | item :: items =>
    itemsAt (path ++ [.index position]) item ++ sequenceItems path (position + 1) items

def entryItems (path : Path) : List (Definition × Definition) → List Item
  | [] => []
  | (key, value) :: entries =>
    .key path key :: (itemsAt (path ++ key.steps) value ++ entryItems path entries)

end

def items (definition : Definition) : List Item := definition.itemsAt []

/-- The nulls and scalars of a definition with their paths, in the order of the walk. -/
def leaves (definition : Definition) : List (Path × Definition) := definition.items.filterMap Item.leaf?

variable {path : Path} {item : Item}

theorem mem_sequenceItems {position : Nat} {items : List Definition} :
    item ∈ sequenceItems path position items ↔ ∃ (i : Nat) (definition : Definition),
      items[i]? = some definition ∧
      item ∈ definition.itemsAt (path ++ [.index (position + i)]) := by
  induction items generalizing position with
  | nil => simp [sequenceItems]
  | cons first items ih =>
    rw [sequenceItems, List.mem_append, ih]
    constructor
    · intro h
      rcases h with h | ⟨i, definition, hdefinition, h⟩
      · exact ⟨0, first, rfl, h⟩
      · exact ⟨i + 1, definition, hdefinition, by rwa [Nat.add_comm i, ← Nat.add_assoc]⟩
    · intro ⟨i, definition, hdefinition, h⟩
      match i with
      | 0 =>
        obtain rfl := Option.some.inj hdefinition
        exact .inl h
      | i + 1 => exact .inr ⟨i, definition, hdefinition, by rwa [Nat.add_assoc, Nat.add_comm 1]⟩

theorem mem_entryItems {entries : List (Definition × Definition)} :
    item ∈ entryItems path entries ↔ ∃ entry ∈ entries,
      item = .key path entry.1 ∨ item ∈ entry.2.itemsAt (path ++ entry.1.steps) := by
  induction entries with
  | nil => simp [entryItems]
  | cons entry entries ih =>
    obtain ⟨key, value⟩ := entry
    rw [entryItems, List.mem_cons, List.mem_append, ih, List.exists_mem_cons_iff, or_assoc]

/-- Whether an item is a part of a definition, or a key of a mapping in it. -/
def Item.StandsIn (definition : Definition) : Item → Prop
  | .value _ part => part.PartOf definition
  | .key _ name => ∃ entries, PartOf (.mapping entries) definition ∧ name ∈ entries.map Prod.fst

theorem Item.StandsIn.trans {inner outer : Definition} (h : item.StandsIn inner)
    (hpart : inner.PartOf outer) : item.StandsIn outer := by
  cases item with
  | value p value => exact PartOf.trans h hpart
  | key p key =>
    obtain ⟨entries, hentries, hkey⟩ := h
    exact ⟨entries, hentries.trans hpart, hkey⟩

mutual

theorem standsIn_of_mem {definition : Definition} {path : Path} {item : Item}
    (hitem : item ∈ definition.itemsAt path) : item.StandsIn definition := by
  match definition with
  | .null | .bool _ | .number _ | .string _ =>
    obtain rfl := List.mem_singleton.1 hitem
    exact PartOf.self _
  | .sequence items =>
    rcases List.mem_cons.1 hitem with rfl | hitem
    · exact PartOf.self _
    · obtain ⟨inner, hinner, hstands⟩ := standsIn_of_mem_sequenceItems hitem
      exact hstands.trans (.item hinner (.self inner))
  | .mapping entries =>
    rcases List.mem_cons.1 hitem with rfl | hitem
    · exact PartOf.self _
    · obtain ⟨entry, hentry, rfl | hstands⟩ := standsIn_of_mem_entryItems hitem
      · exact ⟨entries, .self _, List.mem_map_of_mem hentry⟩
      · exact hstands.trans (.value hentry (.self entry.2))
  | .tagged tag value =>
    rcases List.mem_cons.1 hitem with rfl | hitem
    · exact PartOf.self _
    · exact (standsIn_of_mem hitem).trans (.content (.self value))

theorem standsIn_of_mem_sequenceItems {items : List Definition} {path : Path} {position : Nat}
    {item : Item} (hitem : item ∈ sequenceItems path position items) :
    ∃ inner ∈ items, item.StandsIn inner := by
  match items with
  | [] => cases hitem
  | first :: items =>
    rcases List.mem_append.1 hitem with hitem | hitem
    · exact ⟨first, List.mem_cons_self, standsIn_of_mem hitem⟩
    · obtain ⟨inner, hinner, hstands⟩ := standsIn_of_mem_sequenceItems hitem
      exact ⟨inner, List.mem_cons_of_mem _ hinner, hstands⟩

theorem standsIn_of_mem_entryItems {entries : List (Definition × Definition)} {path : Path}
    {item : Item} (hitem : item ∈ entryItems path entries) :
    ∃ entry ∈ entries, item = .key path entry.1 ∨ item.StandsIn entry.2 := by
  match entries with
  | [] => cases hitem
  | (key, value) :: entries =>
    rcases List.mem_cons.1 hitem with rfl | hitem
    · exact ⟨(key, value), List.mem_cons_self, .inl rfl⟩
    · rcases List.mem_append.1 hitem with hitem | hitem
      · exact ⟨(key, value), List.mem_cons_self, .inr (standsIn_of_mem hitem)⟩
      · obtain ⟨entry, hentry, hstands⟩ := standsIn_of_mem_entryItems hitem
        exact ⟨entry, List.mem_cons_of_mem _ hentry, hstands⟩

end

theorem Item.eq_value_of_leaf? {leaf : Path × Definition} (h : item.leaf? = some leaf) :
    item = .value leaf.1 leaf.2 := by
  cases item with
  | value p value =>
    cases value with
    | null | bool | number | string =>
      cases h
      rfl
    | sequence | mapping | tagged => cases h
  | key p key => cases h

theorem partOf_of_mem_leaves {definition : Definition} {leaf : Path × Definition}
    (hleaf : leaf ∈ definition.leaves) : leaf.2.PartOf definition := by
  obtain ⟨item, hitem, h⟩ := List.mem_filterMap.1 hleaf
  rw [Item.eq_value_of_leaf? h] at hitem
  exact standsIn_of_mem hitem

/-! ### Faults -/

theorem Item.eq_tagged_of_fault? {value : Definition} {fault : PolicyFault}
    (h : (Item.value path value).fault? = some fault) :
    ∃ tag inner, value = .tagged tag inner ∧ .taggedValue tag path = fault := by
  cases value with
  | tagged tag inner => exact ⟨tag, inner, rfl, Option.some.inj h⟩
  | null | bool | number | string | sequence | mapping => cases h

theorem Item.eq_of_fault?_key {key : Definition} {fault : PolicyFault}
    (h : (Item.key path key).fault? = some fault) : .keyNotString key path = fault := by
  cases key with
  | string name => cases h
  | null | bool | number | sequence | mapping | tagged => exact Option.some.inj h

theorem Item.fault?_key_isSome {key : Definition} :
    (Item.key path key).fault?.isSome = true ↔ ∀ name, key ≠ .string name := by
  cases key <;> simp [Item.fault?]

theorem exists_fault_of_partOf {part definition : Definition} (h : part.PartOf definition)
    (hpart : part.Foreign) (path : Path) :
    ∃ item ∈ definition.itemsAt path, item.fault?.isSome = true := by
  induction h generalizing path with
  | self =>
    cases hpart with
    | tagged tag value => exact ⟨_, List.mem_cons_self, rfl⟩
    | key hentry hkey =>
      exact ⟨_, List.mem_cons_of_mem _ (mem_entryItems.2 ⟨_, hentry, .inl rfl⟩),
        Item.fault?_key_isSome.2 hkey⟩
  | item hitem _ ih =>
    obtain ⟨i, hi⟩ := List.getElem?_of_mem hitem
    obtain ⟨item, hmem, hfault⟩ := ih (path ++ [.index (0 + i)])
    exact ⟨item, List.mem_cons_of_mem _ (mem_sequenceItems.2 ⟨i, _, hi, hmem⟩), hfault⟩
  | @key entry entries hentry h _ =>
    -- Nothing is part of a string but itself, so a key with such a part is no string.
    have hkey : ∀ name, entry.1 ≠ .string name := by
      intro name hname
      rw [hname] at h
      cases h
      cases hpart
    exact ⟨_, List.mem_cons_of_mem _ (mem_entryItems.2 ⟨entry, hentry, .inl rfl⟩),
      Item.fault?_key_isSome.2 hkey⟩
  | value hentry _ ih =>
    obtain ⟨item, hmem, hfault⟩ := ih _
    exact ⟨item, List.mem_cons_of_mem _ (mem_entryItems.2 ⟨_, hentry, .inr hmem⟩), hfault⟩
  | content _ _ => exact ⟨_, List.mem_cons_self, rfl⟩

theorem exists_foreign_of_fault {definition : Definition} (hitem : item ∈ definition.itemsAt path)
    (hfault : item.fault?.isSome = true) : ∃ part : Definition, part.PartOf definition ∧ part.Foreign := by
  have hstands := standsIn_of_mem hitem
  cases item with
  | value p value =>
    obtain ⟨fault, hfault⟩ := Option.isSome_iff_exists.1 hfault
    obtain ⟨tag, inner, rfl, -⟩ := Item.eq_tagged_of_fault? hfault
    exact ⟨_, hstands, .tagged tag inner⟩
  | key p key =>
    obtain ⟨entries, hentries, hkey⟩ := hstands
    obtain ⟨entry, hentry, rfl⟩ := List.mem_map.1 hkey
    exact ⟨_, hentries, .key hentry (Item.fault?_key_isSome.1 hfault)⟩

end Definition

end PolicyCheck
