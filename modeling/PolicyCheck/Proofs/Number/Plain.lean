import PolicyCheck.Fact.Term
import PolicyCheck.Proofs.Number.Zero
import PolicyCheck.Proofs.Text.Numeral

/-!
# The plain text of numbers

The plain text of a finite number is an optional minus sign and digits, with or without a fraction. As a
tagged value it always has a fraction. The numbers of documents are all finite: integers within 64 bits
and finite binary64 numbers.
-/

namespace PolicyCheck

open Text

namespace Double

inductive IsPositional : List Char → Prop
  | whole {cs : List Char} (h : Digits cs) : IsPositional cs
  | fraction {cs ds : List Char} (hcs : Digits cs) (hds : Digits ds) : IsPositional (cs ++ '.' :: ds)

theorem isPositional_positional (d : Decimal) : IsPositional (positional d).toList := by
  obtain ⟨hnonempty, hdigits⟩ := digits_toString d.digits
  have hzeros (n : Nat) : ∀ c ∈ List.replicate n '0', c.isDigit = true := by
    intro c hc
    rw [List.eq_of_mem_replicate hc]
    rfl
  rw [positional]
  by_cases hexponent : 0 ≤ d.exponent
  · rw [if_pos hexponent, String.toList_ofList]
    exact .whole (Digits.append ⟨hnonempty, hdigits⟩ (hzeros _))
  · rw [if_neg hexponent]
    by_cases hplaces : d.exponent.natAbs < (toString d.digits).toList.length
    · rw [if_pos hplaces, String.toList_ofList]
      refine .fraction ⟨?_, fun c hc => hdigits c (List.mem_of_mem_take hc)⟩
        ⟨?_, fun c hc => hdigits c (List.mem_of_mem_drop hc)⟩
      · rw [ne_eq, List.take_eq_nil_iff]
        rintro (hwhole | hnil)
        · omega
        · exact hnonempty hnil
      · rw [ne_eq, List.drop_eq_nil_iff]
        omega
    · rw [if_neg hplaces, String.toList_ofList]
      have hzero : Digits ['0'] := ⟨List.cons_ne_nil _ _, hzeros 1⟩
      refine .fraction hzero ⟨List.append_ne_nil_of_right_ne_nil _ hnonempty, fun c hc => ?_⟩
      rcases List.mem_append.1 hc with hc | hc
      · exact hzeros _ c hc
      · exact hdigits c hc

theorem plain_of_isFinite {d : Double} (h : d.isFinite = true) :
    ∃ sign cs, (sign = [] ∨ sign = ['-']) ∧ IsPositional cs ∧ d.plain.toList = sign ++ cs := by
  cases d with
  | nan => cases h
  | infinite negative => cases h
  | finite negative mantissa scale =>
    refine ⟨(signText negative).toList, (if mantissa = 0 then "0" else
      positional (shortest .awayFromZero mantissa scale)).toList, ?_, ?_, String.toList_append⟩
    · cases negative with
      | false => exact .inl rfl
      | true => exact .inr rfl
    · by_cases hzero : mantissa = 0
      · rw [if_pos hzero]
        exact .whole (digits_toString 0)
      · rw [if_neg hzero]
        exact isPositional_positional _

theorem isFinite_ofInt {n : Int} (h : n.natAbs < 18446744073709551616) : (ofInt n).isFinite = true := by
  by_cases hn : n = 0
  · subst hn
    rfl
  · have habs : n.natAbs ≠ 0 := Int.natAbs_ne_zero.2 hn
    have hlog : n.natAbs.log2 < 64 := (Nat.log2_lt habs).2 h
    have hscale : (binaryExponent n.natAbs 1 + 1022).toNat = n.natAbs.log2 + 1022 := by
      rw [binaryExponent_one habs]
      omega
    rw [ofInt, ofQuotient, if_neg habs]
    simp only [hscale]
    split
    · rw [if_neg (by omega)]
      rfl
    · rw [if_neg (by omega)]
      rfl

end Double

def Number.Sound : Number → Prop
  | .int n => Text.FitsInt64 n ∨ Text.FitsUInt64 n
  | .double d => d.isFinite = true

theorem Number.Sound.isFinite_toDouble {n : Number} (h : n.Sound) : n.toDouble.isFinite = true := by
  cases n with
  | int n =>
    apply Double.isFinite_ofInt
    rcases h with ⟨hlow, hhigh⟩ | ⟨hlow, hhigh⟩
    · omega
    · omega
  | double d => exact h

theorem Fact.Term.isFraction_floatText {d : Double} (h : d.isFinite = true) :
    IsFraction (floatText d).toList := by
  obtain ⟨sign, cs, hsign, hcs, hplain⟩ := Double.plain_of_isFinite h
  have hfraction {whole fraction : List Char} (hwhole : Digits whole) (hdigits : Digits fraction) :
      IsFraction (sign ++ (whole ++ '.' :: fraction)) := by
    rcases hsign with rfl | rfl
    · exact .unsigned hwhole hdigits
    · exact .negative hwhole hdigits
  have hpoint : '.' ∉ sign := by
    rcases hsign with rfl | rfl
    · decide
    · decide
  rw [floatText]
  cases hcs with
  | whole hcs =>
    have hmem : '.' ∉ d.plain.toList := by
      rw [hplain, List.mem_append]
      exact not_or.2 ⟨hpoint, hcs.not_mem rfl⟩
    rw [if_neg hmem, String.toList_append, hplain, List.append_assoc]
    exact hfraction hcs (digits_toString 0)
  | fraction hcs hds =>
    have hmem : '.' ∈ d.plain.toList := by
      rw [hplain]
      exact List.mem_append_right _ (List.mem_append_right _ List.mem_cons_self)
    rw [if_pos hmem, hplain]
    exact hfraction hcs hds

end PolicyCheck
