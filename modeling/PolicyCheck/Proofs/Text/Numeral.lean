import PolicyCheck.Text.Numeral

/-!
# Decimal numerals

A numeral is read digit by digit, so that a text denotes one number at most. The written form of a
number denotes it.
-/

namespace PolicyCheck.Text

def Digits (cs : List Char) : Prop := cs ≠ [] ∧ ∀ c ∈ cs, c.isDigit = true

instance (cs : List Char) : Decidable (Digits cs) :=
  decidable_of_iff (cs ≠ [] ∧ cs.all Char.isDigit = true) (and_congr_right fun _ => List.all_eq_true)

def valueOf (cs : List Char) : Nat := Nat.ofDigitChars 10 cs 0

theorem digits_toString (n : Nat) : Digits (toString n).toList := by
  rw [Nat.toString_eq_repr, Nat.toList_repr]
  exact ⟨Nat.toDigits_ne_nil, fun c hc => Nat.isDigit_of_mem_toDigits (by decide) (by decide) hc⟩

theorem valueOf_toString (n : Nat) : valueOf (toString n).toList = n := by
  rw [valueOf, Nat.toString_eq_repr, Nat.toList_repr]
  exact Nat.ofDigitChars_toDigits (by decide) (by decide)

theorem Digits.append {cs ds : List Char} (h : Digits cs) (hs : ∀ d ∈ ds, d.isDigit = true) :
    Digits (cs ++ ds) := by
  refine ⟨List.append_ne_nil_of_left_ne_nil h.1 ds, fun c hc => ?_⟩
  rcases List.mem_append.1 hc with hc | hc
  · exact h.2 c hc
  · exact hs c hc

theorem Digits.not_mem {cs : List Char} (h : Digits cs) {c : Char} (hc : c.isDigit = false) : c ∉ cs := by
  intro hmem
  rw [h.2 c hmem] at hc
  cases hc

/-- Whether a text is that of an integer: digits, with a minus sign in front of a negative one. -/
inductive IsInteger : List Char → Int → Prop
  | unsigned {cs : List Char} (h : Digits cs) : IsInteger cs (valueOf cs)
  | negative {cs : List Char} (h : Digits cs) : IsInteger ('-' :: cs) (-valueOf cs)

theorem isInteger_toString (n : Int) : IsInteger (toString n).toList n := by
  cases n with
  | ofNat n =>
    have h := IsInteger.unsigned (digits_toString n)
    rw [valueOf_toString] at h
    exact h
  | negSucc n =>
    have h := IsInteger.negative (digits_toString (n + 1))
    rw [valueOf_toString] at h
    have htext : (toString (Int.negSucc n)).toList = '-' :: (toString (n + 1)).toList := by
      have hsign : toString (Int.negSucc n) = "-" ++ toString (n + 1) := rfl
      rw [hsign, String.toList_append]
      rfl
    rw [htext]
    exact h

theorem IsInteger.unique {cs : List Char} {m n : Int} (hm : IsInteger cs m) (hn : IsInteger cs n) :
    m = n := by
  have hminus {cs : List Char} : ¬ Digits ('-' :: cs) := fun h => h.not_mem (by decide) List.mem_cons_self
  cases hm with
  | unsigned hm =>
    cases hn with
    | unsigned hn => rfl
    | negative hn => exact absurd hm hminus
  | negative hm =>
    cases hn with
    | unsigned hn => exact absurd hn hminus
    | negative hn => rfl

theorem IsInteger.not_mem {cs : List Char} {n : Int} (h : IsInteger cs n) {c : Char}
    (hc : c.isDigit = false) (hminus : c ≠ '-') : c ∉ cs := by
  cases h with
  | unsigned h => exact h.not_mem hc
  | negative h => exact List.not_mem_cons_of_ne_of_not_mem hminus (h.not_mem hc)

/-- Whether a text is that of a fraction: digits around a point, with or without a minus sign. -/
inductive IsFraction : List Char → Prop
  | unsigned {whole fraction : List Char} (hwhole : Digits whole) (hfraction : Digits fraction) :
    IsFraction (whole ++ '.' :: fraction)
  | negative {whole fraction : List Char} (hwhole : Digits whole) (hfraction : Digits fraction) :
    IsFraction ('-' :: (whole ++ '.' :: fraction))

theorem IsFraction.not_mem {cs : List Char} (h : IsFraction cs) {c : Char} (hc : c.isDigit = false)
    (hminus : c ≠ '-') (hpoint : c ≠ '.') : c ∉ cs := by
  have hparts {whole fraction : List Char} (hwhole : Digits whole) (hfraction : Digits fraction) :
      c ∉ whole ++ '.' :: fraction := by
    rw [List.mem_append, List.mem_cons]
    rintro (hmem | heq | hmem)
    · exact hwhole.not_mem hc hmem
    · exact hpoint heq
    · exact hfraction.not_mem hc hmem
  cases h with
  | unsigned hwhole hfraction => exact hparts hwhole hfraction
  | negative hwhole hfraction =>
    exact List.not_mem_cons_of_ne_of_not_mem hminus (hparts hwhole hfraction)

/-! ### Reading back -/

theorem digitOfBase?_of_isDigit {c : Char} (h : c.isDigit = true) :
    digitOfBase? 10 c = some (c.toNat - '0'.toNat) := by
  rw [Char.isDigit, Bool.and_eq_true, decide_eq_true_iff, decide_eq_true_iff] at h
  have hrange : '0' ≤ c ∧ c ≤ '9' := h
  have hlt : c.toNat - '0'.toNat < 10 := by
    have hle : c.toNat ≤ 57 := h.2
    change c.toNat - 48 < 10
    omega
  rw [digitOfBase?, if_pos hrange, Option.filter_some, if_pos (decide_eq_true hlt)]

theorem isDigit_of_isDigit {c : Char} (h : c.isDigit = true) : isDigit c = true := by
  rw [Char.isDigit, Bool.and_eq_true, decide_eq_true_iff, decide_eq_true_iff] at h
  have hrange : '0' ≤ c ∧ c ≤ '9' := h
  rw [isDigit, digit?, if_pos hrange, Option.isSome_some]

theorem natFrom?_of_digits {cs : List Char} (h : ∀ c ∈ cs, c.isDigit = true) (value : Nat) :
    natFrom? 10 value cs = some (Nat.ofDigitChars 10 cs value) := by
  induction cs generalizing value with
  | nil => rfl
  | cons c cs ih =>
    obtain ⟨hc, hcs⟩ := List.forall_mem_cons.1 h
    rw [natFrom?, digitOfBase?_of_isDigit hc, Option.bind_some, ih hcs, Nat.ofDigitChars_cons,
      Nat.mul_comm]

theorem isDigit_of_digitOfBase? {c : Char} {d : Nat} (h : digitOfBase? 10 c = some d) : c.isDigit = true := by
  obtain ⟨hvalue, hd⟩ := Option.filter_eq_some_iff.1 h
  have hlt : d < 10 := of_decide_eq_true hd
  by_cases hrange : '0' ≤ c ∧ c ≤ '9'
  · exact Bool.and_eq_true_iff.2 ⟨decide_eq_true hrange.1, decide_eq_true hrange.2⟩
  · -- A letter has a value of ten or more.
    rw [if_neg hrange] at hvalue
    split at hvalue
    · obtain rfl := Option.some.inj hvalue
      omega
    · split at hvalue
      · obtain rfl := Option.some.inj hvalue
        omega
      · cases hvalue

theorem natFrom?_eq_some_iff {cs : List Char} {value n : Nat} :
    natFrom? 10 value cs = some n ↔ (∀ c ∈ cs, c.isDigit = true) ∧ n = Nat.ofDigitChars 10 cs value := by
  refine ⟨fun h => ?_, fun ⟨hdigits, hn⟩ => hn ▸ natFrom?_of_digits hdigits value⟩
  have hdigits : ∀ c ∈ cs, c.isDigit = true := by
    induction cs generalizing value with
    | nil => exact List.forall_mem_nil _
    | cons c cs ih =>
      rw [natFrom?] at h
      obtain ⟨d, hd, hrest⟩ := Option.bind_eq_some_iff.1 h
      exact List.forall_mem_cons.2 ⟨isDigit_of_digitOfBase? hd, ih hrest⟩
  rw [natFrom?_of_digits hdigits] at h
  exact ⟨hdigits, (Option.some.inj h).symm⟩

theorem nat?_eq_some_iff {cs : List Char} {n : Nat} : nat? cs = some n ↔ Digits cs ∧ n = valueOf cs := by
  rw [nat?, natOfBase?, Digits, valueOf]
  by_cases hnil : cs = []
  · simp [hnil]
  · rw [if_neg (mt List.isEmpty_iff.1 hnil), natFrom?_eq_some_iff]
    simp [hnil]

theorem nat?_toString (n : Nat) : nat? (toString n).toList = some n := by
  obtain ⟨hne, hdigits⟩ := digits_toString n
  rw [nat?, natOfBase?, if_neg (mt List.isEmpty_iff.1 hne), natFrom?_of_digits hdigits]
  exact congrArg some (valueOf_toString n)

/-- Whether a text is a numeral: digits, any number of them zeros in front, with or without a sign. -/
inductive IsSigned : List Char → Int → Prop
  | unsigned {cs : List Char} (h : Digits cs) : IsSigned cs (valueOf cs)
  | plus {cs : List Char} (h : Digits cs) : IsSigned ('+' :: cs) (valueOf cs)
  | minus {cs : List Char} (h : Digits cs) : IsSigned ('-' :: cs) (-valueOf cs)

theorem IsInteger.isSigned {cs : List Char} {n : Int} (h : IsInteger cs n) : IsSigned cs n := by
  cases h with
  | unsigned h => exact .unsigned h
  | negative h => exact .minus h

theorem map_nat?_eq_some_iff {cs : List Char} {n : Int} (sign : Int → Int) :
    (do return (← nat? cs : Int) : Option Int).map sign = some n ↔ Digits cs ∧ n = sign (valueOf cs) := by
  rw [Option.map_eq_some_iff]
  constructor
  · rintro ⟨m, hm, rfl⟩
    obtain ⟨value, hvalue, hcast⟩ := Option.bind_eq_some_iff.1 hm
    obtain ⟨hdigits, rfl⟩ := nat?_eq_some_iff.1 hvalue
    exact ⟨hdigits, congrArg sign (Option.some.inj hcast).symm⟩
  · rintro ⟨hdigits, rfl⟩
    exact ⟨_, Option.bind_eq_some_iff.2 ⟨_, nat?_eq_some_iff.2 ⟨hdigits, rfl⟩, rfl⟩, rfl⟩

theorem int?_eq_some_iff {cs : List Char} {n : Int} : int? cs = some n ↔ IsSigned cs n := by
  constructor
  · intro h
    rw [int?.eq_def] at h
    split at h
    · obtain ⟨hdigits, rfl⟩ := (map_nat?_eq_some_iff _).1 h
      exact .minus hdigits
    · obtain ⟨hdigits, rfl⟩ := (map_nat?_eq_some_iff _).1 h
      exact .plus hdigits
    · obtain ⟨hdigits, rfl⟩ := (map_nat?_eq_some_iff _).1 h
      exact .unsigned hdigits
  · intro h
    cases h with
    | plus h => exact (map_nat?_eq_some_iff _).2 ⟨h, rfl⟩
    | minus h => exact (map_nat?_eq_some_iff _).2 ⟨h, rfl⟩
    | unsigned h =>
      -- Digits do not start with a sign.
      rw [int?.eq_def]
      split
      · exact absurd List.mem_cons_self (h.not_mem rfl)
      · exact absurd List.mem_cons_self (h.not_mem rfl)
      · exact (map_nat?_eq_some_iff _).2 ⟨h, rfl⟩

theorem int64?_eq_some_iff {cs : List Char} {n : Int} : int64? cs = some n ↔ IsSigned cs n ∧ FitsInt64 n := by
  rw [int64?, Option.filter_eq_some_iff, int?_eq_some_iff, decide_eq_true_iff]

theorem head?_toString {n : Nat} (h : 0 < n) : (toString n).toList.head? ≠ some '0' := by
  rw [Nat.toString_eq_repr, Nat.toList_repr]
  induction n using Nat.strongRecOn with
  | ind n ih =>
    by_cases hlt : n < 10
    · rw [Nat.toDigits_of_lt_base hlt]
      have hsmall : ∀ d < 10, 0 < d → [d.digitChar].head? ≠ some '0' := by decide
      exact hsmall n hlt h
    · have hle : 10 ≤ n := Nat.le_of_not_lt hlt
      have hfront := ih (n / 10) (Nat.div_lt_self h (by decide)) (Nat.div_pos hle (by decide))
      rw [Nat.toDigits_of_base_le (by decide) hle, List.head?_append]
      obtain ⟨c, cs, hcs⟩ := List.exists_cons_of_ne_nil (Nat.toDigits_ne_nil (b := 10) (n := n / 10))
      rwa [hcs] at hfront ⊢

end PolicyCheck.Text
