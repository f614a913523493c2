/-!
# Sets of lines

A section of a Datalog program is a set of lines, written in ascending order of code points. The
order is part of the type, so that two sections with the same lines are equal and have one text.
Every operation is known by its members.
-/

namespace PolicyCheck.Datalog

structure LineSet where
  lines : List String
  ascending : lines.Pairwise (· < ·) := by exact .nil
deriving DecidableEq

namespace LineSet

instance : EmptyCollection LineSet := ⟨{ lines := [] }⟩

instance : Inhabited LineSet := ⟨∅⟩

instance : Membership String LineSet := ⟨fun s line => line ∈ s.lines⟩

def size (s : LineSet) : Nat := s.lines.length

def place (line : String) : List String → List String
  | [] => [line]
  | other :: others =>
    if line < other then line :: other :: others
    else if line = other then other :: others
    else other :: place line others

theorem mem_place {line x : String} {l : List String} : x ∈ place line l ↔ x = line ∨ x ∈ l := by
  induction l with
  | nil => simp [place]
  | cons other others ih =>
    simp only [place]
    split
    · simp
    · split
      · rename_i h
        subst h
        simp
      · simp [ih, or_left_comm]

theorem ascending_place {line : String} {l : List String} (h : l.Pairwise (· < ·)) :
    (place line l).Pairwise (· < ·) := by
  induction l with
  | nil => simp [place]
  | cons other others ih =>
    obtain ⟨head, tail⟩ := List.pairwise_cons.1 h
    simp only [place]
    split
    · rename_i hlt
      refine List.pairwise_cons.2 ⟨fun x hx => ?_, h⟩
      rcases List.mem_cons.1 hx with rfl | hx
      · exact hlt
      · exact String.lt_trans hlt (head x hx)
    · split
      · exact h
      · rename_i hnlt hne
        refine List.pairwise_cons.2 ⟨fun x hx => ?_, ih tail⟩
        rcases mem_place.1 hx with rfl | hx
        · exact Std.lt_of_le_of_ne (String.not_lt.1 hnlt) fun he => hne he.symm
        · exact head x hx

def insert (s : LineSet) (line : String) : LineSet where
  lines := place line s.lines
  ascending := ascending_place s.ascending

def ofList (l : List String) : LineSet := l.foldl insert ∅

def union (s t : LineSet) : LineSet := t.lines.foldl insert s

instance : Union LineSet := ⟨union⟩

@[simp] theorem not_mem_empty (line : String) : line ∉ (∅ : LineSet) := by
  intro h
  cases h

@[simp] theorem mem_insert {s : LineSet} {line x : String} :
    x ∈ s.insert line ↔ x = line ∨ x ∈ s := mem_place

theorem mem_foldl_insert {l : List String} {s : LineSet} {x : String} :
    x ∈ l.foldl insert s ↔ x ∈ s ∨ x ∈ l := by
  induction l generalizing s with
  | nil => simp
  | cons line l ih =>
    simp only [List.foldl_cons, ih, mem_insert, List.mem_cons]
    grind

@[simp] theorem mem_ofList {l : List String} {x : String} : x ∈ ofList l ↔ x ∈ l := by
  simp [ofList, mem_foldl_insert]

@[simp] theorem mem_union {s t : LineSet} {x : String} : x ∈ s ∪ t ↔ x ∈ s ∨ x ∈ t :=
  mem_foldl_insert

end LineSet

end PolicyCheck.Datalog
