/-!
# Dictionaries

Values under names, held in ascending order of the names, so that the order in which they were
entered does not show. Every operation is known by what it does to `get?`.
-/

namespace PolicyCheck

structure Dictionary (α : Type) where
  entries : List (String × α) := []
  ascending : (entries.map Prod.fst).Pairwise (· < ·) := by exact .nil
deriving Repr

namespace Dictionary

variable {α β : Type}

theorem ascending_nil : (([] : List (String × α)).map Prod.fst).Pairwise (· < ·) := .nil

instance : EmptyCollection (Dictionary α) := ⟨⟨[], ascending_nil⟩⟩

instance : Inhabited (Dictionary α) := ⟨∅⟩

def names (d : Dictionary α) : List String := d.entries.map Prod.fst

def get? (d : Dictionary α) (name : String) : Option α := d.entries.lookup name

def place (name : String) (value : α) : List (String × α) → List (String × α)
  | [] => [(name, value)]
  | other :: others =>
    if name < other.1 then (name, value) :: other :: others
    else if name = other.1 then (name, value) :: others
    else other :: place name value others

theorem mem_names_place {name x : String} {value : α} {l : List (String × α)} :
    x ∈ (place name value l).map Prod.fst ↔ x = name ∨ x ∈ l.map Prod.fst := by
  induction l with
  | nil => simp [place]
  | cons other others ih =>
    simp only [place]
    split
    · simp
    · split
      · rename_i h
        simp [h]
      · simp only [List.map_cons, List.mem_cons, ih, or_left_comm]

theorem ascending_place {name : String} {value : α} {l : List (String × α)}
    (h : (l.map Prod.fst).Pairwise (· < ·)) :
    ((place name value l).map Prod.fst).Pairwise (· < ·) := by
  induction l with
  | nil => simp [place]
  | cons other others ih =>
    obtain ⟨head, tail⟩ := List.pairwise_cons.1 h
    simp only [place]
    split
    · rename_i hlt
      refine List.pairwise_cons.2 ⟨fun x hx => ?_, h⟩
      rcases List.mem_cons.1 hx with rfl | hx
      · exact hlt
      · exact String.lt_trans hlt (head x hx)
    · split
      · rename_i he
        refine List.pairwise_cons.2 ⟨fun x hx => ?_, tail⟩
        simpa [he] using head x hx
      · rename_i hnlt hne
        refine List.pairwise_cons.2 ⟨fun x hx => ?_, ih tail⟩
        rcases mem_names_place.1 hx with rfl | hx
        · exact Std.lt_of_le_of_ne (String.not_lt.1 hnlt) fun he => hne he.symm
        · exact head x hx

/-- Enters a value under a name, in place of any value that was there. -/
def insert (d : Dictionary α) (name : String) (value : α) : Dictionary α where
  entries := place name value d.entries
  ascending := ascending_place d.ascending

/-- The dictionary of a list of entries; of a repeated name the last value counts. -/
def ofList (l : List (String × α)) : Dictionary α := l.foldl (fun d e => d.insert e.1 e.2) ∅

theorem lookup_cons {x : String} {entry : String × α} {l : List (String × α)} :
    (entry :: l).lookup x = if x = entry.1 then some entry.2 else l.lookup x := by
  obtain ⟨name, value⟩ := entry
  by_cases h : x = name
  · simp [h]
  · have hb : (x == name) = false := beq_eq_false_iff_ne.mpr h
    simp [List.lookup_cons, hb, h]

theorem lookup_place {name x : String} {value : α} {l : List (String × α)} :
    (place name value l).lookup x = if x = name then some value else l.lookup x := by
  induction l with
  | nil => simp [place, lookup_cons]
  | cons other others ih =>
    simp only [place]
    split
    · simp [lookup_cons]
    · split
      · rename_i h
        by_cases hx : x = name <;> simp_all [lookup_cons]
      · rename_i h
        by_cases hx : x = name <;> simp_all [lookup_cons]

@[simp] theorem get?_insert {d : Dictionary α} {name x : String} {value : α} :
    (d.insert name value).get? x = if x = name then some value else d.get? x := lookup_place

@[simp] theorem get?_empty {x : String} : (∅ : Dictionary α).get? x = none := rfl

end Dictionary

end PolicyCheck
