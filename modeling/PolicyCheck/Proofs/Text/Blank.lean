import PolicyCheck.Proofs.Text.Numeral
import PolicyCheck.Text.Blank

/-!
# White space around texts

Trimming takes a blank front and a blank back from a text and stops at the first characters that are not
blank. A numeral has no blank character, so it can be trimmed to in one way only.
-/

namespace PolicyCheck.Text

def Blank (cs : List Char) : Prop := ∀ c ∈ cs, isBlank c = true

instance (cs : List Char) : Decidable (Blank cs) := decidable_of_iff (cs.all isBlank = true) List.all_eq_true

variable {front cs back : List Char}

theorem dropWhile_isBlank_append (hfront : Blank front) (h : ∀ c ∈ cs.head?, isBlank c = false) :
    (front ++ cs).dropWhile isBlank = cs := by
  rw [List.dropWhile_append_of_pos hfront]
  cases cs with
  | nil => rfl
  | cons c cs => exact List.dropWhile_cons_of_neg (ne_true_of_eq_false (h c rfl))

theorem trim_append (hfront : Blank front) (hback : Blank back) (hne : cs ≠ [])
    (h : ∀ c ∈ cs, isBlank c = false) : trim (front ++ cs ++ back) = cs := by
  have hreverse : Blank back.reverse := fun c hc => hback c (List.mem_reverse.1 hc)
  have hhead : ∀ c ∈ (cs ++ back).head?, isBlank c = false := by
    obtain ⟨d, ds, rfl⟩ := List.exists_cons_of_ne_nil hne
    intro c hc
    exact h c (Option.some.inj hc ▸ List.mem_cons_self)
  have hlast : ∀ c ∈ cs.reverse.head?, isBlank c = false := by
    intro c hc
    exact h c (List.mem_reverse.1 (List.mem_of_head? hc))
  rw [trim, List.append_assoc, dropWhile_isBlank_append hfront hhead, List.reverse_append,
    dropWhile_isBlank_append hreverse hlast, List.reverse_reverse]

theorem exists_append_trim (cs : List Char) :
    ∃ front back, cs = front ++ trim cs ++ back ∧ Blank front ∧ Blank back := by
  let rest := cs.dropWhile isBlank
  have hrest : rest = trim cs ++ (rest.reverse.takeWhile isBlank).reverse := by
    show rest = (rest.reverse.dropWhile isBlank).reverse ++ _
    rw [← List.reverse_append, List.takeWhile_append_dropWhile, List.reverse_reverse]
  refine ⟨cs.takeWhile isBlank, (rest.reverse.takeWhile isBlank).reverse, ?_, ?_, ?_⟩
  · rw [List.append_assoc, ← hrest, List.takeWhile_append_dropWhile]
  · exact List.all_eq_true.1 List.all_takeWhile
  · intro c hc
    exact List.all_eq_true.1 List.all_takeWhile c (List.mem_reverse.1 hc)

theorem isBlank_of_isDigit {c : Char} (h : c.isDigit = true) : isBlank c = false := by
  rw [Char.isDigit, Bool.and_eq_true, decide_eq_true_iff, decide_eq_true_iff] at h
  have hlow : 48 ≤ c.toNat := h.1
  have hhigh : c.toNat ≤ 57 := h.2
  simp only [isBlank, blankRanges, List.any_cons, List.any_nil, Bool.or_false, Bool.or_eq_false_iff,
    Bool.and_eq_false_iff, decide_eq_false_iff_not, Nat.not_le]
  omega

theorem IsSigned.ne_nil {n : Int} (h : IsSigned cs n) : cs ≠ [] := by
  cases h with
  | unsigned h => exact h.1
  | plus h => exact List.cons_ne_nil _ _
  | minus h => exact List.cons_ne_nil _ _

theorem IsSigned.isBlank_eq_false {n : Int} (h : IsSigned cs n) : ∀ c ∈ cs, isBlank c = false := by
  cases h with
  | unsigned h => exact fun c hc => isBlank_of_isDigit (h.2 c hc)
  | plus h => exact List.forall_mem_cons.2 ⟨by decide, fun c hc => isBlank_of_isDigit (h.2 c hc)⟩
  | minus h => exact List.forall_mem_cons.2 ⟨by decide, fun c hc => isBlank_of_isDigit (h.2 c hc)⟩

theorem isSigned_trim_iff {n : Int} : IsSigned (trim cs) n ↔
    ∃ front numeral back, cs = front ++ numeral ++ back ∧ Blank front ∧ Blank back ∧ IsSigned numeral n := by
  constructor
  · intro h
    obtain ⟨front, back, hcs, hfront, hback⟩ := exists_append_trim cs
    exact ⟨front, trim cs, back, hcs, hfront, hback, h⟩
  · rintro ⟨front, numeral, back, rfl, hfront, hback, h⟩
    rwa [trim_append hfront hback h.ne_nil h.isBlank_eq_false]

end PolicyCheck.Text
