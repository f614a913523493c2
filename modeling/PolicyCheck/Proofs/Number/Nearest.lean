import Mathlib.Algebra.Group.Nat.Defs
import PolicyCheck.Proofs.Number.Zero

/-!
# Integers among the binary64 numbers

The binary64 numbers around a natural number of 53 bits or more stand at equal distances, a power of two
that grows with the number of bits. Two integers have equal nearest binary64 numbers exactly if rounding
to these distances takes them to one integer (`same_ofInt_iff`). Between `2^63` and `2^64` the distance is
2048; below `2^63` it is at most 1024, so that rounding moves no integer by more than 512.
-/

namespace PolicyCheck.Double

theorem two_mul_roundQuotient_le (num den : Nat) :
    2 * (roundQuotient num den * den) ≤ 2 * num + den := by
  have hdiv := Nat.div_add_mod num den
  simp only [roundQuotient]
  generalize num / den = quotient at hdiv ⊢
  generalize num % den = rest at hdiv ⊢
  have hcomm : den * quotient = quotient * den := Nat.mul_comm den quotient
  split
  · omega
  · split
    · rw [Nat.add_mul]
      omega
    · rcases Nat.mod_two_eq_zero_or_one quotient with hparity | hparity
      · rw [hparity, Nat.add_zero]
        omega
      · rw [hparity, Nat.add_mul]
        omega

theorem div_le_roundQuotient (num den : Nat) : num / den ≤ roundQuotient num den := by
  simp only [roundQuotient]
  split
  · omega
  · split <;> omega

theorem roundQuotient_one (num : Nat) : roundQuotient num 1 = num := by
  simp [roundQuotient, Nat.mod_one]

/-- The distance of neighbouring binary64 numbers around a natural number, if it has 53 bits or more. -/
def spacing (n : Nat) : Nat := 2 ^ (n.log2 - 52)

/-- The natural number that the binary64 number nearest to a natural number is. -/
def nearest (n : Nat) : Nat := roundQuotient n (spacing n) * spacing n

def oneUnits : Nat := 2 ^ 1074

theorem oneUnits_pos : 0 < oneUnits := by
  rw [oneUnits]
  apply Nat.two_pow_pos

/-- Both ways of scaling, by a shift of the number or of the distance, lead to the same units. -/
private theorem scaled_eq {n : Nat} {shift : Int} (hshift : shift = (n.log2 : Int) - 52) :
    roundQuotient (n <<< (-shift).toNat) (1 <<< shift.toNat) * 2 ^ (n.log2 + 1022) =
      nearest n * oneUnits := by
  rw [nearest, spacing, Nat.shiftLeft_eq, Nat.shiftLeft_eq, Nat.one_mul]
  by_cases hlarge : 52 ≤ n.log2
  · have hup : (-shift).toNat = 0 := by omega
    have hdown : shift.toNat = n.log2 - 52 := by omega
    have hsum : n.log2 + 1022 = (n.log2 - 52) + 1074 := by omega
    have hscale : 2 ^ (n.log2 + 1022) = 2 ^ (n.log2 - 52) * oneUnits := by
      rw [oneUnits, ← Nat.pow_add, hsum]
    rw [hup, hdown, hscale, Nat.pow_zero, Nat.mul_one, ← Nat.mul_assoc]
  · have hup : (-shift).toNat = 52 - n.log2 := by omega
    have hdown : shift.toNat = 0 := by omega
    have hspacing : n.log2 - 52 = 0 := by omega
    have hsum : (52 - n.log2) + (n.log2 + 1022) = 1074 := by omega
    have hscale : 2 ^ (52 - n.log2) * 2 ^ (n.log2 + 1022) = oneUnits := by
      rw [oneUnits, ← Nat.pow_add]
      exact congrArg (2 ^ ·) hsum
    rw [hup, hdown, hspacing, Nat.pow_zero, roundQuotient_one, roundQuotient_one, Nat.mul_one,
      Nat.mul_assoc, hscale]

theorem ofInt_eq {n : Int} (h : n.natAbs < 18446744073709551616) :
    ∃ mantissa scale, ofInt n = .finite (n < 0) mantissa scale ∧
      mantissa <<< scale = nearest n.natAbs * oneUnits := by
  by_cases hn : n = 0
  · subst hn
    exact ⟨0, 0, rfl, by rw [Nat.zero_shiftLeft, show nearest (0 : Int).natAbs = 0 from rfl, Nat.zero_mul]⟩
  · have habs : n.natAbs ≠ 0 := Int.natAbs_ne_zero.2 hn
    have hlog : n.natAbs.log2 < 64 := (Nat.log2_lt habs).2 h
    have hscale : (binaryExponent n.natAbs 1 + 1022).toNat = n.natAbs.log2 + 1022 := by
      rw [binaryExponent_one habs]
      omega
    have hshift : ((n.natAbs.log2 + 1022 : Nat) : Int) - 1074 = (n.natAbs.log2 : Int) - 52 := by omega
    have hunits := scaled_eq hshift
    rw [ofInt, ofQuotient, if_neg habs]
    simp only [hscale]
    generalize hshift' : ((n.natAbs.log2 + 1022 : Nat) : Int) - 1074 = shift at hunits ⊢
    generalize roundQuotient (n.natAbs <<< (-shift).toNat) (1 <<< shift.toNat) = mantissa at hunits ⊢
    -- Where rounding carries to the next power of two, the scale takes up the factor.
    by_cases hcarry : mantissa = 2 * fullMantissa
    · refine ⟨fullMantissa, n.natAbs.log2 + 1022 + 1, ?_, ?_⟩
      · rw [if_pos hcarry]
        exact if_neg (by omega)
      · rw [← hunits, hcarry, Nat.shiftLeft_eq, Nat.pow_succ, Nat.mul_comm 2 fullMantissa,
          Nat.mul_comm (2 ^ (n.natAbs.log2 + 1022)) 2, Nat.mul_assoc]
    · refine ⟨mantissa, n.natAbs.log2 + 1022, ?_, ?_⟩
      · rw [if_neg hcarry]
        exact if_neg (by omega)
      · rw [← hunits, Nat.shiftLeft_eq]

/-- Integers within 64 bits have equal nearest binary64 numbers if they are rounded to one integer. -/
theorem same_ofInt_iff {m n : Int} (hm : m.natAbs < 18446744073709551616)
    (hn : n.natAbs < 18446744073709551616) :
    same (ofInt m) (ofInt n) = true ↔
      (if m < 0 then -(nearest m.natAbs : Int) else nearest m.natAbs) =
        if n < 0 then -(nearest n.natAbs : Int) else nearest n.natAbs := by
  obtain ⟨mantissa, scale, hofInt, hunits⟩ := ofInt_eq hm
  obtain ⟨mantissa', scale', hofInt', hunits'⟩ := ofInt_eq hn
  have hsigned (i : Int) (k : Nat) : (if decide (i < 0) = true then -((k * oneUnits : Nat) : Int)
      else ((k * oneUnits : Nat) : Int)) = (if i < 0 then -(k : Int) else k) * (oneUnits : Int) := by
    by_cases hi : i < 0
    · rw [if_pos (decide_eq_true hi), if_pos hi, Int.natCast_mul, Int.neg_mul]
    · rw [if_neg (by simpa using hi), if_neg hi, Int.natCast_mul]
  have hpos : (oneUnits : Int) ≠ 0 := Int.natCast_ne_zero.2 (Nat.pos_iff_ne_zero.1 oneUnits_pos)
  rw [hofInt, hofInt', same, beq_iff_eq, units, units, hunits, hunits', hsigned, hsigned]
  exact Int.mul_eq_mul_right_iff hpos

theorem spacing_le {n k : Nat} (h : n < 2 ^ (k + 53)) : spacing n ≤ 2 ^ k := by
  by_cases hn : n = 0
  · subst hn
    exact Nat.one_le_two_pow
  · have hlog := (Nat.log2_lt hn).2 h
    exact Nat.pow_le_pow_right (by decide) (by omega)

theorem spacing_eq {n k : Nat} (hle : 2 ^ (k + 52) ≤ n) (hlt : n < 2 ^ (k + 53)) :
    spacing n = 2 ^ k := by
  have hn : n ≠ 0 := by
    have := Nat.two_pow_pos (k + 52)
    omega
  have hlow := (Nat.le_log2 hn).2 hle
  have hhigh := (Nat.log2_lt hn).2 hlt
  have hlog : n.log2 - 52 = k := by omega
  rw [spacing, hlog]

/-- The least integer that is rounded to `2^63`: it is as far from it as from the number below. -/
def tiedBelow : Nat := 9223372036854775296

theorem nearest_lt {n : Nat} (h : n < tiedBelow) : nearest n < 9223372036854775808 := by
  rw [tiedBelow] at h
  have hspacing : spacing n ≤ 1024 := spacing_le (k := 10) (by omega)
  have hle := two_mul_roundQuotient_le n (spacing n)
  rw [nearest]
  omega

theorem nearest_of_le {n : Nat} (hle : tiedBelow ≤ n) (hlt : n < 18446744073709551616) :
    nearest n = roundQuotient n 2048 * 2048 := by
  rw [tiedBelow] at hle
  by_cases hlarge : 9223372036854775808 ≤ n
  · have hspacing : spacing n = 2048 := spacing_eq (k := 11) (by omega) (by omega)
    rw [nearest, hspacing]
  · have hspacing : spacing n = 1024 := spacing_eq (k := 10) (by omega) (by omega)
    have hfine : roundQuotient n 1024 = 9007199254740992 := by
      have hquotient : n / 1024 = 9007199254740991 := by omega
      simp only [roundQuotient, hquotient]
      split
      · omega
      · split <;> omega
    have hcoarse : roundQuotient n 2048 = 4503599627370496 := by
      have hquotient : n / 2048 = 4503599627370495 := by omega
      simp only [roundQuotient, hquotient]
      split
      · omega
      · split <;> omega
    rw [nearest, hspacing, hfine, hcoarse]

theorem le_nearest {n : Nat} (hle : 9223372036854775808 ≤ n) (hlt : n < 18446744073709551616) :
    9223372036854775808 ≤ nearest n := by
  have hdiv := div_le_roundQuotient n 2048
  rw [nearest_of_le (by rw [tiedBelow]; omega) hlt]
  omega

end PolicyCheck.Double
