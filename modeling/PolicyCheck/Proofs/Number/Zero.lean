import PolicyCheck.Number.Basic

/-!
# Zero

A number counts as zero when its nearest binary64 number is a zero. For an integer this is the
integer zero alone: rounding never takes another integer to zero, since the binary exponent of a
positive integer is not negative.
-/

namespace PolicyCheck

namespace Double

theorem isZero_finite (negative : Bool) (mantissa scale : Nat) :
    (finite negative mantissa scale).isZero = (mantissa == 0) := by
  have hshift : mantissa <<< scale = 0 ↔ mantissa = 0 := by
    have hpow : 2 ^ scale ≠ 0 := Nat.pos_iff_ne_zero.1 (Nat.two_pow_pos scale)
    rw [Nat.shiftLeft_eq, Nat.mul_eq_zero, or_iff_left hpow]
  rw [Bool.eq_iff_iff, beq_iff_eq, ← hshift]
  simp only [isZero, same, zero, units, beq_iff_eq]
  cases negative <;> simp

theorem roundQuotient_pos {num den : Nat} (hden : 0 < den) (hle : den ≤ num) :
    0 < roundQuotient num den := by
  have hquotient : 0 < num / den := Nat.div_pos hle hden
  simp only [roundQuotient]
  split
  · exact hquotient
  · split <;> omega

/-- The fraction that is rounded to the mantissa of a positive integer is at least one. -/
private theorem one_le_scaled {n : Nat} (hn : n ≠ 0) {shift : Int} (hshift : shift ≤ (n.log2 : Int)) :
    1 <<< shift.toNat ≤ n <<< (-shift).toNat := by
  rw [Nat.shiftLeft_eq, Nat.shiftLeft_eq, Nat.one_mul]
  have hpow : 2 ^ shift.toNat ≤ 2 ^ n.log2 := Nat.pow_le_pow_right (by decide) (by omega)
  calc
    2 ^ shift.toNat ≤ n := Nat.le_trans hpow (Nat.log2_self_le hn)
    _ ≤ n * 2 ^ (-shift).toNat := Nat.le_mul_of_pos_right n (Nat.two_pow_pos _)

theorem binaryExponent_one {n : Nat} (hn : n ≠ 0) : binaryExponent n 1 = n.log2 := by
  have hlog : Nat.log2 1 = 0 := by decide
  have hexponent : (n.log2 : Int) - (0 : Nat) = n.log2 := by omega
  have hle : 1 <<< (n.log2 : Int).toNat ≤ n <<< (-(n.log2 : Int)).toNat :=
    one_le_scaled hn (Int.le_refl _)
  rw [binaryExponent, hlog, hexponent]
  exact if_neg (Nat.not_lt.2 hle)

theorem isZero_ofQuotient {negative : Bool} {num den : Nat} (hnum : num ≠ 0) {shift : Int}
    (hshift : shift = ((binaryExponent num den + 1022).toNat : Int) - 1074)
    (hmantissa : 0 < roundQuotient (num <<< (-shift).toNat) (den <<< shift.toNat)) :
    (ofQuotient negative num den).isZero = false := by
  rw [ofQuotient, if_neg hnum]
  simp only [← hshift]
  generalize roundQuotient (num <<< (-shift).toNat) (den <<< shift.toNat) = mantissa at hmantissa
  generalize (binaryExponent num den + 1022).toNat = scale
  have hfull : 0 < fullMantissa := by decide
  by_cases hcarry : mantissa = 2 * fullMantissa
  · rw [if_pos hcarry]
    by_cases hlarge : 2045 < scale + 1
    · rw [if_pos hlarge]
      rfl
    · rw [if_neg hlarge, isZero_finite]
      exact beq_eq_false_iff_ne.2 (Nat.pos_iff_ne_zero.1 hfull)
  · rw [if_neg hcarry]
    by_cases hlarge : 2045 < scale
    · rw [if_pos hlarge]
      rfl
    · rw [if_neg hlarge, isZero_finite]
      exact beq_eq_false_iff_ne.2 (Nat.pos_iff_ne_zero.1 hmantissa)

theorem isZero_ofInt (n : Int) : (ofInt n).isZero = (n == 0) := by
  by_cases hn : n = 0
  · subst hn
    rfl
  · have habs : n.natAbs ≠ 0 := Int.natAbs_ne_zero.2 hn
    rw [beq_eq_false_iff_ne.2 hn, ofInt]
    refine isZero_ofQuotient habs rfl (roundQuotient_pos ?_ (one_le_scaled habs ?_))
    · rw [Nat.shiftLeft_eq, Nat.one_mul]
      exact Nat.two_pow_pos _
    · rw [binaryExponent_one habs]
      omega

end Double

namespace Number

def isZero : Number → Bool
  | .int n => n == 0
  | .double (.finite _ mantissa _) => mantissa == 0
  | .double _ => false

theorem isZero_toDouble (n : Number) : n.toDouble.isZero = n.isZero := by
  match n with
  | .int n => exact Double.isZero_ofInt n
  | .double (.finite negative mantissa scale) => exact Double.isZero_finite negative mantissa scale
  | .double .nan => rfl
  | .double (.infinite _) => rfl

end Number

end PolicyCheck
