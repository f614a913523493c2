import PolicyCheck.Proofs.Number.Nearest
import PolicyCheck.Proofs.Number.Plain
import PolicyCheck.Proofs.Structural.Compilation

/-!
# Checks for integers

A definition and a document can hold the integers of signed and of unsigned words of 64 bits. A check for
one of them is exact as long as both integers fit a signed word, or one of them lies below the integers
that are rounded to `2^63`. The others are told apart by their nearest binary64 numbers only, so that a
check for one of them is met by its neighbours too.
-/

namespace PolicyCheck

open Text (FitsInt64 FitsUInt64)

namespace Double

variable {m n : Int}

private theorem same_ofInt_eq_false (hm : (Number.int m).Sound) (hn : (Number.int n).Sound)
    (hlarge : ¬ FitsInt64 m) (hsmall : n < tiedBelow) : same (ofInt m) (ofInt n) = false := by
  rw [tiedBelow] at hsmall
  simp only [Number.Sound, FitsInt64, FitsUInt64] at hm hn hlarge
  have hlow : 9223372036854775808 ≤ nearest m.natAbs := le_nearest (by omega) (by omega)
  rw [← Bool.not_eq_true, same_ofInt_iff (by omega) (by omega), if_neg (by omega)]
  by_cases hnegative : n < 0
  · rw [if_pos hnegative]
    omega
  · have hhigh : nearest n.natAbs < 9223372036854775808 := by
      apply nearest_lt
      rw [tiedBelow]
      omega
    rw [if_neg hnegative]
    omega

/-- Integers from the tie on have equal nearest binary64 numbers if the same multiple of 2048 is nearest
to both. -/
private theorem same_ofInt_iff_of_le (hm : (Number.int m).Sound) (hn : (Number.int n).Sound)
    (hm_le : (tiedBelow : Int) ≤ m) (hn_le : (tiedBelow : Int) ≤ n) :
    same (ofInt m) (ofInt n) = true ↔ roundQuotient m.toNat 2048 = roundQuotient n.toNat 2048 := by
  have hmabs : m.natAbs = m.toNat := by omega
  have hnabs : n.natAbs = n.toNat := by omega
  simp only [Number.Sound, FitsInt64, FitsUInt64] at hm hn
  rw [same_ofInt_iff (by omega) (by omega), if_neg (by omega), if_neg (by omega), hmabs, hnabs,
    nearest_of_le (by omega) (by omega), nearest_of_le (by omega) (by omega)]
  omega

end Double

namespace Structural

theorem Literal.accepts_int_iff (n m : Int) :
    (Literal.ofNumber (.int n)).accepts (some (.number (.int m))) = true ↔
      if FitsInt64 n ∧ FitsInt64 m then m = n else Double.same (.ofInt m) (.ofInt n) = true := by
  by_cases hn : FitsInt64 n
  · by_cases hm : FitsInt64 m
    · simp [ofNumber, accepts, Number.int64?, hn, hm]
    · simp [ofNumber, accepts, Number.int64?, Number.toDouble, hn, hm]
  · simp [ofNumber, accepts, Number.int64?, Number.toDouble, hn]

namespace Node

/-- A check for an integer, compiled at any path, is exact if both integers fit a signed word or one of
them lies below the tie. Else it compares the nearest multiples of 2048. -/
theorem holds_integer_iff {n m : Int} (hn : (Number.int n).Sound) (hm : (Number.int m).Sound)
    {path : Path} {document : Json} (hdocument : document.lookup path = some (.number (.int m))) :
    ∃ check, (compileAt path (.number (.int n))).result = .ok check ∧
      (FitsInt64 n ∧ FitsInt64 m ∨ n < Double.tiedBelow ∨ m < Double.tiedBelow →
        (check.holds document = true ↔ n = m)) ∧
      (¬ (FitsInt64 n ∧ FitsInt64 m) → Double.tiedBelow ≤ n → Double.tiedBelow ≤ m →
        (check.holds document = true ↔
          Double.roundQuotient n.toNat 2048 = Double.roundQuotient m.toNat 2048)) := by
  refine ⟨.literal path (.ofNumber (.int n)), rfl, fun hexact => ?_, fun hwide hn_le hm_le => ?_⟩
  · rw [holds, holds_literal, hdocument, Literal.accepts_int_iff]
    by_cases hwords : FitsInt64 n ∧ FitsInt64 m
    · rw [if_pos hwords]
      exact eq_comm
    · have hbelow : n < Double.tiedBelow ∨ m < Double.tiedBelow := hexact.resolve_left hwords
      have hne : n ≠ m := by
        rintro rfl
        simp only [Number.Sound, FitsInt64, FitsUInt64, Double.tiedBelow] at hn hwords hbelow
        omega
      -- One of the two is beyond signed words and the other below the tie, whichever is which.
      have hsame : Double.same (.ofInt m) (.ofInt n) = false := by
        by_cases hlarge : FitsInt64 m
        · have hn_large : ¬ FitsInt64 n := fun h => hwords ⟨h, hlarge⟩
          rw [Double.same_comm]
          apply Double.same_ofInt_eq_false hn hm hn_large
          simp only [Number.Sound, FitsInt64, FitsUInt64, Double.tiedBelow] at hn hn_large hbelow ⊢
          omega
        · apply Double.same_ofInt_eq_false hm hn hlarge
          simp only [Number.Sound, FitsInt64, FitsUInt64, Double.tiedBelow] at hm hlarge hbelow ⊢
          omega
      rw [if_neg hwords, hsame]
      exact iff_of_false Bool.false_ne_true hne
  · rw [holds, holds_literal, hdocument, Literal.accepts_int_iff, if_neg hwide,
      Double.same_ofInt_iff_of_le hm hn hm_le hn_le]
    exact eq_comm

/-- The document that holds an integer under the key `a`. -/
def numbered (m : Int) : Json := .object [("a", .number (.int m))]

/-- A check for the greatest signed word fails on the first integer that is not rounded to `2^63` with it. -/
theorem holds_integer_apart :
    (Number.int 9223372036854775807).Sound ∧ (Number.int 9223372036854776833).Sound ∧
    (numbered 9223372036854776833).lookup [.key "a"] = some (.number (.int 9223372036854776833)) ∧
    ∃ check, (compileAt [.key "a"] (.number (.int 9223372036854775807))).result = .ok check ∧
      check.holds (numbered 9223372036854776833) = false := by
  have hn : (Number.int 9223372036854775807).Sound := .inl (by decide)
  have hm : (Number.int 9223372036854776833).Sound := .inr (by decide)
  have hdocument : (numbered 9223372036854776833).lookup [.key "a"] =
      some (.number (.int 9223372036854776833)) := rfl
  obtain ⟨check, hcheck, -, hround⟩ := holds_integer_iff hn hm hdocument
  refine ⟨hn, hm, hdocument, check, hcheck, ?_⟩
  rw [← Bool.not_eq_true, hround (by decide) (by decide) (by decide)]
  decide

/-- The check for the greatest signed word is met by its successor. -/
theorem holds_integer_successor :
    (Number.int 9223372036854775807).Sound ∧ (Number.int 9223372036854775808).Sound ∧
    (numbered 9223372036854775808).lookup [.key "a"] = some (.number (.int 9223372036854775808)) ∧
    ∃ check, (compileAt [.key "a"] (.number (.int 9223372036854775807))).result = .ok check ∧
      check.holds (numbered 9223372036854775808) = true := by
  refine ⟨.inl (by decide), .inr (by decide), rfl, _, rfl, ?_⟩
  decide +kernel

end Node

end Structural

end PolicyCheck
