import Mathlib.Algebra.Group.Nat.Defs
import Mathlib.Tactic.ByContra
import Mathlib.Tactic.SplitIfs
import PolicyCheck.Proofs.Pairs
import PolicyCheck.Text.Utf8

/-!
# Decoding UTF-8

What decoding makes of arbitrary octets, said without the states of the decoder. A character stands for
the octets that encode it. Where no character stands, the longest sequence of octets that some character
begins with is ill-formed, or a single octet if no character begins with that. The decoder goes through
the octets once; the invariant of its loop is which characters the octets under way may still become.
-/

namespace PolicyCheck.Text.Utf8

open String (utf8EncodeChar)

def Begins (octets : Octets) : Prop := ∃ c, octets <+: utf8EncodeChar c

/-- The octets are a maximal ill-formed sequence in front of others: no character stands where they
start, they are the beginning of one or a single octet, and they cannot be longer. -/
structure IllFormed (octets others : Octets) : Prop where
  ne_nil : octets ≠ []
  whole : ∀ c, ¬ utf8EncodeChar c <+: octets ++ others
  begins : Begins octets ∨ octets.length = 1
  maximal : ∀ octet ∈ others.head?, ¬ Begins (octets ++ [octet])

/-- The characters that octets stand for, with `none` for each maximal ill-formed sequence. -/
inductive Decodes : Octets → List (Option Char) → Prop
  | nil : Decodes [] []
  | char (c : Char) {octets : Octets} {cs : List (Option Char)} (rest : Decodes octets cs) :
    Decodes (utf8EncodeChar c ++ octets) (some c :: cs)
  | illFormed {octets others : Octets} {cs : List (Option Char)} (bad : IllFormed octets others)
    (rest : Decodes others cs) : Decodes (octets ++ others) (none :: cs)

theorem Begins.of_append {octets others : Octets} (h : Begins (octets ++ others)) : Begins octets := by
  obtain ⟨c, hc⟩ := h
  exact ⟨c, (List.prefix_append octets others).trans hc⟩

/-! ### The octets of a character -/

/-- The last octets of a code point, each with six of its bits. -/
def lastOctets : Nat → Nat → Octets
  | 0, _ => []
  | n + 1, v => UInt8.ofNat (v / 64 ^ n % 64 + 0x80) :: lastOctets n v

/-- The number of octets of a code point after the first. -/
def furtherOctets (v : Nat) : Nat :=
  if v ≤ 0x7F then 0 else if v ≤ 0x7FF then 1 else if v ≤ 0xFFFF then 2 else 3

def firstOctet (v : Nat) : Nat :=
  if v ≤ 0x7F then v else if v ≤ 0x7FF then v / 64 + 0xC0 else if v ≤ 0xFFFF then v / 4096 + 0xE0
  else v / 262144 + 0xF0

theorem octets_cases (v : Nat) :
    v ≤ 0x7F ∧ furtherOctets v = 0 ∧ firstOctet v = v ∨
    (0x7F < v ∧ v ≤ 0x7FF) ∧ furtherOctets v = 1 ∧ firstOctet v = v / 64 + 0xC0 ∨
    (0x7FF < v ∧ v ≤ 0xFFFF) ∧ furtherOctets v = 2 ∧ firstOctet v = v / 4096 + 0xE0 ∨
    0xFFFF < v ∧ furtherOctets v = 3 ∧ firstOctet v = v / 262144 + 0xF0 := by
  rw [furtherOctets, firstOctet]
  split_ifs <;> omega

theorem length_lastOctets (n v : Nat) : (lastOctets n v).length = n := by
  induction n with
  | zero => rfl
  | succ n ih => rw [lastOctets, List.length_cons, ih]

theorem isValidChar_toNat (c : Char) : c.toNat < 0xD800 ∨ 0xDFFF < c.toNat ∧ c.toNat < 0x110000 := c.valid

theorem toNat_ofNat_of_valid {v : Nat} (h : v < 0xD800 ∨ 0xDFFF < v ∧ v < 0x110000) :
    (Char.ofNat v).toNat = v := by
  rw [Char.ofNat, dif_pos h]
  rfl

theorem firstOctet_lt (c : Char) : firstOctet c.toNat < 256 := by
  have hvalid := isValidChar_toNat c
  have hcases := octets_cases c.toNat
  omega

theorem utf8EncodeChar_eq (c : Char) :
    utf8EncodeChar c = UInt8.ofNat (firstOctet c.toNat) :: lastOctets (furtherOctets c.toNat) c.toNat := by
  have hvalid := isValidChar_toNat c
  rw [utf8EncodeChar, Char.toNat_val, firstOctet, furtherOctets]
  split_ifs with h7 h11 h16
  · rfl
  · have hfirst : c.toNat / 64 % 32 = c.toNat / 64 := by omega
    simp [lastOctets, hfirst]
  · have hfirst : c.toNat / 4096 % 16 = c.toNat / 4096 := by omega
    simp [lastOctets, hfirst]
  · have hfirst : c.toNat / 262144 % 8 = c.toNat / 262144 := by omega
    simp [lastOctets, hfirst]

theorem singleton_prefix_iff {octet : UInt8} {c : Char} :
    [octet] <+: utf8EncodeChar c ↔ firstOctet c.toNat = octet.toNat := by
  rw [utf8EncodeChar_eq, List.cons_prefix_cons, and_iff_left List.nil_prefix, ← UInt8.toNat_inj,
    UInt8.toNat_ofNat', Nat.mod_eq_of_lt (firstOctet_lt c), eq_comm]

theorem encode_eq_of_begin {c d : Char} (h : utf8EncodeChar c <+: utf8EncodeChar d) :
    utf8EncodeChar c = utf8EncodeChar d := by
  refine h.eq_of_length ?_
  rw [utf8EncodeChar_eq, utf8EncodeChar_eq, List.cons_prefix_cons, ← UInt8.toNat_inj, UInt8.toNat_ofNat',
    UInt8.toNat_ofNat', Nat.mod_eq_of_lt (firstOctet_lt c), Nat.mod_eq_of_lt (firstOctet_lt d)] at h
  have hfurther : furtherOctets c.toNat = furtherOctets d.toNat := by
    have hc := isValidChar_toNat c
    have hd := isValidChar_toNat d
    have hcasesc := octets_cases c.toNat
    have hcasesd := octets_cases d.toNat
    have hfirst := h.1
    omega
  rw [utf8EncodeChar_eq, utf8EncodeChar_eq, List.length_cons, List.length_cons, length_lastOctets,
    length_lastOctets, hfurther]

/-! ### Octets under way -/

/-- A code point that the octets under way may become, by the range of its next octet. -/
def Pending.Takes (p : Pending) (v : Nat) : Prop :=
  v / 64 ^ (p.owed + 1) = p.bits ∧ p.low ≤ v / 64 ^ p.owed % 64 + 0x80 ∧ v / 64 ^ p.owed % 64 + 0x80 ≤ p.high

/-- The octets are under way: they begin the characters that may become of them, all of which are
characters, and are no character yet. -/
structure Pending.After (p : Pending) (octets : Octets) : Prop where
  ne_nil : octets ≠ []
  range : 0x80 ≤ p.low ∧ p.low ≤ p.high ∧ p.high ≤ 0xBF
  prefix_iff : ∀ c, octets <+: utf8EncodeChar c ↔ p.Takes c.toNat
  encode_eq : ∀ c, octets <+: utf8EncodeChar c → utf8EncodeChar c = octets ++ lastOctets (p.owed + 1) c.toNat
  valid : ∀ v, p.Takes v → v < 0xD800 ∨ 0xDFFF < v ∧ v < 0x110000

/-- The first octets of characters that need more octets, and what is then under way. -/
def LeadsTo (octet : Nat) (p : Pending) : Prop :=
  (0xC2 ≤ octet ∧ octet ≤ 0xDF) ∧ p = ⟨0, 0x80, 0xBF, octet - 0xC0⟩ ∨
  octet = 0xE0 ∧ p = ⟨1, 0xA0, 0xBF, 0⟩ ∨
  octet = 0xED ∧ p = ⟨1, 0x80, 0x9F, 0xD⟩ ∨
  (0xE1 ≤ octet ∧ octet ≤ 0xEF ∧ octet ≠ 0xED) ∧ p = ⟨1, 0x80, 0xBF, octet - 0xE0⟩ ∨
  octet = 0xF0 ∧ p = ⟨2, 0x90, 0xBF, 0⟩ ∨
  (0xF1 ≤ octet ∧ octet ≤ 0xF3) ∧ p = ⟨2, 0x80, 0xBF, octet - 0xF0⟩ ∨
  octet = 0xF4 ∧ p = ⟨2, 0x80, 0x8F, 4⟩

theorem lead_cases (octet : Nat) :
    match lead octet with
    | .char c => octet ≤ 0x7F ∧ c = Char.ofNat octet
    | .invalid => 0x7F < octet ∧ octet < 0xC2 ∨ 0xF4 < octet
    | .pending p => LeadsTo octet p := by
  rw [lead]
  split_ifs
  · exact ⟨by assumption, rfl⟩
  · exact .inl (by omega)
  · exact .inl ⟨by omega, rfl⟩
  · exact .inr (.inl ⟨by assumption, rfl⟩)
  · exact .inr (.inr (.inl ⟨by assumption, rfl⟩))
  · exact .inr (.inr (.inr (.inl ⟨by omega, rfl⟩)))
  · exact .inr (.inr (.inr (.inr (.inl ⟨by assumption, rfl⟩))))
  · exact .inr (.inr (.inr (.inr (.inr (.inl ⟨by omega, rfl⟩)))))
  · exact .inr (.inr (.inr (.inr (.inr (.inr ⟨by assumption, rfl⟩)))))
  · exact .inr (by omega)

theorem leadsTo_of_lead {octet : Nat} {p : Pending} (h : lead octet = .pending p) : LeadsTo octet p := by
  have hcases := lead_cases octet
  rwa [h] at hcases

theorem range_of_lead {octet : Nat} {p : Pending} (h : lead octet = .pending p) :
    0x80 ≤ p.low ∧ p.low ≤ p.high ∧ p.high ≤ 0xBF := by
  obtain ⟨-, rfl⟩ | ⟨-, rfl⟩ | ⟨-, rfl⟩ | ⟨-, rfl⟩ | ⟨-, rfl⟩ | ⟨-, rfl⟩ | ⟨-, rfl⟩ := leadsTo_of_lead h <;> simp

/-- The code points that a first octet leads to are those of the characters with this first octet, and
as many octets are owed as these have. -/
theorem takes_of_lead_iff {octet v : Nat} {p : Pending} (h : lead octet = .pending p) :
    p.Takes v ↔ (v < 0xD800 ∨ 0xDFFF < v ∧ v < 0x110000) ∧ firstOctet v = octet := by
  have hcases := octets_cases v
  obtain ⟨h, rfl⟩ | ⟨h, rfl⟩ | ⟨h, rfl⟩ | ⟨h, rfl⟩ | ⟨h, rfl⟩ | ⟨h, rfl⟩ | ⟨h, rfl⟩ := leadsTo_of_lead h <;>
    simp only [Pending.Takes, Nat.reduceAdd, Nat.reducePow] <;> omega

theorem furtherOctets_of_lead {octet v : Nat} {p : Pending} (h : lead octet = .pending p)
    (hv : firstOctet v = octet) : furtherOctets v = p.owed + 1 := by
  have hcases := octets_cases v
  obtain ⟨h, rfl⟩ | ⟨h, rfl⟩ | ⟨h, rfl⟩ | ⟨h, rfl⟩ | ⟨h, rfl⟩ | ⟨h, rfl⟩ | ⟨h, rfl⟩ := leadsTo_of_lead h <;>
    dsimp only <;> omega

theorem after_of_lead {octet : UInt8} {p : Pending} (h : lead octet.toNat = .pending p) :
    p.After [octet] where
  ne_nil := List.cons_ne_nil octet []
  range := range_of_lead h
  prefix_iff c := by
    rw [singleton_prefix_iff, takes_of_lead_iff h, and_iff_right (isValidChar_toNat c)]
  encode_eq c hc := by
    have hfirst := singleton_prefix_iff.1 hc
    rw [utf8EncodeChar_eq, hfirst, furtherOctets_of_lead h hfirst, UInt8.ofNat_toNat]
    rfl
  valid v hv := ((takes_of_lead_iff h).1 hv).1

theorem encode_of_lead {octet : UInt8} {c : Char} (h : lead octet.toNat = .char c) :
    utf8EncodeChar c = [octet] := by
  have hcases := lead_cases octet.toNat
  rw [h] at hcases
  obtain ⟨hle, rfl⟩ := hcases
  have hvalue : (Char.ofNat octet.toNat).toNat = octet.toNat := toNat_ofNat_of_valid (.inl (by omega))
  rw [utf8EncodeChar_eq, hvalue, firstOctet, furtherOctets, if_pos (by omega), if_pos (by omega),
    UInt8.ofNat_toNat]
  rfl

theorem not_begins_of_lead {octet : UInt8} (h : lead octet.toNat = .invalid) : ¬ Begins [octet] := by
  rintro ⟨c, hc⟩
  have hvalid := isValidChar_toNat c
  have hfirst := singleton_prefix_iff.1 hc
  have hcases := octets_cases c.toNat
  have hinvalid := lead_cases octet.toNat
  rw [h] at hinvalid
  dsimp only at hinvalid
  omega

theorem toNat_lastOctet (n v : Nat) :
    (UInt8.ofNat (v / 64 ^ n % 64 + 0x80)).toNat = v / 64 ^ n % 64 + 0x80 := by
  have hlt := Nat.mod_lt (v / 64 ^ n) (show 0 < 64 by decide)
  rw [UInt8.toNat_ofNat', Nat.mod_eq_of_lt (by omega)]

theorem Pending.takes_iff {p : Pending} {v : Nat} : p.Takes v ↔
    v / 64 ^ p.owed / 64 = p.bits ∧ p.low ≤ v / 64 ^ p.owed % 64 + 0x80 ∧
      v / 64 ^ p.owed % 64 + 0x80 ≤ p.high := by
  rw [Takes, Nat.div_div_eq_div_mul, ← Nat.pow_succ]

namespace Pending.After

variable {p : Pending} {octets : Octets} {octet : UInt8}

theorem begins (h : p.After octets) : Begins octets := by
  obtain ⟨hlow, hle, hhigh⟩ := h.range
  let v := (p.bits * 64 + (p.low - 0x80)) * 64 ^ p.owed
  have hv : v / 64 ^ p.owed = p.bits * 64 + (p.low - 0x80) := Nat.mul_div_cancel _ (Nat.pow_pos (by decide))
  have htakes : p.Takes v := by
    rw [takes_iff, hv]
    omega
  refine ⟨Char.ofNat v, (h.prefix_iff _).2 ?_⟩
  rwa [toNat_ofNat_of_valid (h.valid v htakes)]

theorem whole (h : p.After octets) (c : Char) : ¬ utf8EncodeChar c <+: octets := by
  intro hc
  obtain ⟨d, hd⟩ := h.begins
  have hlength := hc.length_le
  rw [encode_eq_of_begin (hc.trans hd), h.encode_eq d hd, List.length_append, length_lastOctets] at hlength
  omega

theorem append_prefix_iff (h : p.After octets) {c : Char} : octets ++ [octet] <+: utf8EncodeChar c ↔
    p.Takes c.toNat ∧ c.toNat / 64 ^ p.owed % 64 + 0x80 = octet.toNat := by
  have hnext (hbegin : octets <+: utf8EncodeChar c) : octets ++ [octet] <+: utf8EncodeChar c ↔
      c.toNat / 64 ^ p.owed % 64 + 0x80 = octet.toNat := by
    rw [h.encode_eq c hbegin, List.prefix_append_right_inj, lastOctets, List.cons_prefix_cons,
      and_iff_left List.nil_prefix, ← UInt8.toNat_inj, toNat_lastOctet, eq_comm]
  constructor
  · intro hc
    have hbegin := (List.prefix_append octets [octet]).trans hc
    exact ⟨(h.prefix_iff c).1 hbegin, (hnext hbegin).1 hc⟩
  · rintro ⟨htakes, hoctet⟩
    exact (hnext ((h.prefix_iff c).2 htakes)).2 hoctet

theorem range_of_begins (h : p.After octets) (hbegins : Begins (octets ++ [octet])) :
    p.low ≤ octet.toNat ∧ octet.toNat ≤ p.high := by
  obtain ⟨c, hc⟩ := hbegins
  obtain ⟨⟨-, hlow, hhigh⟩, hoctet⟩ := h.append_prefix_iff.1 hc
  exact ⟨hoctet ▸ hlow, hoctet ▸ hhigh⟩

theorem encode_eq_of_last (h : p.After octets) (howed : p.owed = 0)
    (hrange : p.low ≤ octet.toNat ∧ octet.toNat ≤ p.high) :
    utf8EncodeChar (Char.ofNat (p.bits * 64 + (octet.toNat - 0x80))) = octets ++ [octet] := by
  obtain ⟨hlow, hle, hhigh⟩ := h.range
  let v := p.bits * 64 + (octet.toNat - 0x80)
  have htakes : p.Takes v := by
    rw [takes_iff, howed, Nat.pow_zero, Nat.div_one]
    omega
  have hv : (Char.ofNat v).toNat = v := toNat_ofNat_of_valid (h.valid v htakes)
  have hbegin : octets ++ [octet] <+: utf8EncodeChar (Char.ofNat v) := by
    rw [h.append_prefix_iff, hv, howed, Nat.pow_zero, Nat.div_one]
    exact ⟨htakes, by omega⟩
  have hencode := h.encode_eq _ ((List.prefix_append octets [octet]).trans hbegin)
  refine (hbegin.eq_of_length ?_).symm
  rw [hencode, List.length_append, List.length_append, length_lastOctets, howed]
  rfl

theorem step {owed : Nat} (h : p.After octets) (howed : p.owed = owed + 1)
    (hrange : p.low ≤ octet.toNat ∧ octet.toNat ≤ p.high) :
    (⟨owed, 0x80, 0xBF, p.bits * 64 + (octet.toNat - 0x80)⟩ : Pending).After (octets ++ [octet]) := by
  obtain ⟨hlow, hle, hhigh⟩ := h.range
  have htakes (v : Nat) : (⟨owed, 0x80, 0xBF, p.bits * 64 + (octet.toNat - 0x80)⟩ : Pending).Takes v ↔
      p.Takes v ∧ v / 64 ^ p.owed % 64 + 0x80 = octet.toNat := by
    have hlt := Nat.mod_lt (v / 64 ^ owed) (show 0 < 64 by decide)
    rw [takes_iff (p := p), Takes, howed]
    dsimp only
    omega
  refine ⟨by simp, ⟨Nat.le_refl _, by simp, Nat.le_refl _⟩, fun c => ?_, fun c hc => ?_, fun v hv => ?_⟩
  · rw [h.append_prefix_iff, htakes]
  · have hoctet := (h.append_prefix_iff.1 hc).2
    rw [h.encode_eq c ((List.prefix_append octets [octet]).trans hc), howed, lastOctets, ← howed, hoctet,
      UInt8.ofNat_toNat, List.append_assoc]
    rfl
  · exact h.valid v ((htakes v).1 hv).1

end Pending.After

/-! ### The decoder -/

theorem Pending.After.illFormed {p : Pending} {octets others : Octets} (h : p.After octets)
    (hothers : ∀ octet ∈ others.head?, ¬ (p.low ≤ octet.toNat ∧ octet.toNat ≤ p.high)) :
    IllFormed octets others := by
  have hmaximal : ∀ octet ∈ others.head?, ¬ Begins (octets ++ [octet]) :=
    fun octet hoctet hbegins => hothers octet hoctet (h.range_of_begins hbegins)
  refine ⟨h.ne_nil, fun c hc => ?_, .inl h.begins, hmaximal⟩
  rcases List.prefix_or_prefix_of_prefix hc (List.prefix_append octets others) with hwhole | hbegin
  · exact h.whole c hwhole
  · -- The character goes on with an octet, which is then the next one.
    rw [h.encode_eq c hbegin, lastOctets, List.prefix_append_right_inj] at hc
    obtain ⟨rest, rfl⟩ := hc
    refine hmaximal _ rfl ⟨c, ?_⟩
    rw [h.encode_eq c hbegin, lastOctets, List.prefix_append_right_inj]
    exact List.prefix_append [_] _

theorem illFormed_singleton {octet : UInt8} (h : ¬ Begins [octet]) (others : Octets) :
    IllFormed [octet] others := by
  refine ⟨List.cons_ne_nil octet [], fun c hc => ?_, .inr rfl, fun next _ hbegins => h hbegins.of_append⟩
  rw [utf8EncodeChar_eq, List.singleton_append, List.cons_prefix_cons] at hc
  refine h ⟨c, ?_⟩
  rw [utf8EncodeChar_eq, hc.1]
  exact List.prefix_append [octet] _

theorem run_cons_of_not_range {p : Pending} {octet : UInt8} {others : Octets}
    (h : ¬ (p.low ≤ octet.toNat ∧ octet.toNat ≤ p.high)) :
    run (some p) (octet :: others) = none :: run none (octet :: others) := by
  simp only [run, step, if_neg h, List.cons_append]

/-- The decoder goes through the octets as they stand for characters, from between characters and from
octets under way. -/
theorem decodes_run (others : Octets) : Decodes others (run none others) ∧
    ∀ p octets, Pending.After p octets → Decodes (octets ++ others) (run (some p) others) := by
  induction others with
  | nil => exact ⟨.nil, fun p octets h => .illFormed (h.illFormed nofun) .nil⟩
  | cons octet others ih =>
    obtain ⟨hbetween, hunder⟩ := ih
    have hfresh : Decodes (octet :: others) (run none (octet :: others)) := by
      rw [run, step]
      cases hlead : lead octet.toNat with
      | char c =>
        have hchar := Decodes.char c hbetween
        rwa [encode_of_lead hlead] at hchar
      | pending p => exact hunder p [octet] (after_of_lead hlead)
      | invalid => exact .illFormed (illFormed_singleton (not_begins_of_lead hlead) others) hbetween
    refine ⟨hfresh, fun p octets h => ?_⟩
    by_cases hrange : p.low ≤ octet.toNat ∧ octet.toNat ≤ p.high
    · rw [List.append_cons, run, step]
      simp only [if_pos hrange]
      cases howed : p.owed with
      | zero =>
        rw [← h.encode_eq_of_last howed hrange]
        exact .char _ hbetween
      | succ owed => exact hunder _ _ (h.step howed hrange)
    · rw [run_cons_of_not_range hrange]
      refine .illFormed (h.illFormed ?_) hfresh
      rintro _ ⟨⟩
      exact hrange

theorem decodes_chars (octets : Octets) : Decodes octets (chars octets) := (decodes_run octets).1

/-! ### Texts that are well-formed -/

theorem utf8EncodeChar_injective {c d : Char} (h : utf8EncodeChar c = utf8EncodeChar d) : c = d := by
  have hc := ByteArray.utf8DecodeChar?_utf8EncodeChar_append (b := ByteArray.empty) (c := c)
  rw [h, ByteArray.utf8DecodeChar?_utf8EncodeChar_append] at hc
  exact (Option.some.inj hc).symm

theorem utf8EncodeChar_ne_nil (c : Char) : utf8EncodeChar c ≠ [] := by
  rw [utf8EncodeChar_eq]
  exact List.cons_ne_nil _ _

/-- An ill-formed sequence that begins with a maximal one at the same place is no longer. -/
theorem IllFormed.eq_of_begin {octets octets' others others' : Octets} (h : IllFormed octets others)
    (h' : IllFormed octets' others') (heq : octets ++ others = octets' ++ others')
    (hbegin : octets <+: octets') : octets = octets' := by
  obtain ⟨rest, rfl⟩ := hbegin
  rw [List.append_assoc, List.append_cancel_left_eq] at heq
  cases rest with
  | nil => exact (List.append_nil octets).symm
  | cons next rest =>
    -- The longer one has two octets at least, so that a character begins with it.
    have hbegins : Begins (octets ++ [next] ++ rest) := by
      rw [List.append_assoc]
      refine h'.begins.resolve_right fun hlength => ?_
      have hpos := List.length_pos_iff.2 h.ne_nil
      rw [List.length_append, List.length_cons] at hlength
      omega
    exact absurd hbegins.of_append (h.maximal next (by rw [heq]; rfl))

theorem IllFormed.eq {octets octets' others others' : Octets} (h : IllFormed octets others)
    (h' : IllFormed octets' others') (heq : octets ++ others = octets' ++ others') :
    octets = octets' ∧ others = others' := by
  have hsame : octets = octets' := by
    rcases List.prefix_or_prefix_of_prefix (List.prefix_append octets others)
        (heq ▸ List.prefix_append octets' others') with hbegin | hbegin
    · exact h.eq_of_begin h' heq hbegin
    · exact (h'.eq_of_begin h heq.symm hbegin).symm
  subst hsame
  exact ⟨rfl, List.append_cancel_left heq⟩

theorem Decodes.unique {octets : Octets} {cs cs' : List (Option Char)} (h : Decodes octets cs)
    (h' : Decodes octets cs') : cs = cs' := by
  induction h generalizing cs' with
  | nil =>
    generalize hoctets : ([] : Octets) = all at h'
    cases h' with
    | nil => rfl
    | char d rest' => exact absurd (List.append_eq_nil_iff.1 hoctets.symm).1 (utf8EncodeChar_ne_nil d)
    | illFormed bad' rest' => exact absurd (List.append_eq_nil_iff.1 hoctets.symm).1 bad'.ne_nil
  | @char c octets cs rest ih =>
    generalize hoctets : utf8EncodeChar c ++ octets = all at h'
    cases h' with
    | nil => exact absurd (List.append_eq_nil_iff.1 hoctets).1 (utf8EncodeChar_ne_nil c)
    | @char d octets' cs' rest' =>
      have hcd : utf8EncodeChar c = utf8EncodeChar d := by
        rcases List.prefix_or_prefix_of_prefix (List.prefix_append _ octets)
            (hoctets ▸ List.prefix_append _ octets') with hbegin | hbegin
        · exact encode_eq_of_begin hbegin
        · exact (encode_eq_of_begin hbegin).symm
      obtain rfl := utf8EncodeChar_injective hcd
      rw [ih (List.append_cancel_left hoctets ▸ rest')]
    | illFormed bad' rest' => exact absurd (hoctets ▸ List.prefix_append _ octets) (bad'.whole c)
  | @illFormed octets others cs bad rest ih =>
    generalize hoctets : octets ++ others = all at h'
    cases h' with
    | nil => exact absurd (List.append_eq_nil_iff.1 hoctets).1 bad.ne_nil
    | char d rest' => exact absurd (hoctets ▸ List.prefix_append _ _) (bad.whole d)
    | illFormed bad' rest' =>
      obtain ⟨-, rfl⟩ := bad.eq bad' hoctets
      rw [ih rest']

theorem decodes_encode (cs : List Char) : Decodes (encode cs) (cs.map some) := by
  induction cs with
  | nil => exact .nil
  | cons c cs ih =>
    rw [encode, List.flatMap_cons]
    exact .char c ih

theorem decode?_encode (cs : List Char) : decode? (encode cs) = some cs := by
  rw [decode?, (decodes_chars (encode cs)).unique (decodes_encode cs), List.mapM_map]
  show cs.mapM (fun c => pure c) = some cs
  rw [List.mapM_pure, List.map_id']
  rfl

theorem Decodes.eq_encode {octets : Octets} {cs : List Char} (h : Decodes octets (cs.map some)) :
    octets = encode cs := by
  generalize hall : cs.map some = all at h
  induction h generalizing cs with
  | nil =>
    rw [List.map_eq_nil_iff.1 hall]
    rfl
  | @char c octets others rest ih =>
    obtain ⟨d, ds, rfl, hd, hds⟩ := List.map_eq_cons_iff.1 hall
    rw [← Option.some.inj hd, ih hds, encode, encode, List.flatMap_cons]
  | illFormed bad rest ih =>
    obtain ⟨d, ds, -, hd, -⟩ := List.map_eq_cons_iff.1 hall
    cases hd

theorem decode?_eq_some_iff {octets : Octets} {cs : List Char} : decode? octets = some cs ↔ octets = encode cs := by
  refine ⟨fun h => ?_, fun h => h ▸ decode?_encode cs⟩
  have hchars : (chars octets).map id = cs.map some := forall₂_eq_some_iff.1 (mapM_eq_some_iff.1 h)
  rw [List.map_id] at hchars
  exact Decodes.eq_encode (hchars ▸ decodes_chars octets)

/-- A text that octets stand for, with the replacement character for each ill-formed sequence. -/
def Lossy (octets : Octets) (text : List Char) : Prop :=
  ∃ cs, Decodes octets cs ∧ text = cs.map fun c => c.getD '\uFFFD'

theorem lossy_iff {octets : Octets} {text : List Char} : Lossy octets text ↔ text = decodeLossy octets := by
  constructor
  · rintro ⟨cs, hcs, rfl⟩
    rw [hcs.unique (decodes_chars octets), decodeLossy]
  · rintro rfl
    exact ⟨chars octets, decodes_chars octets, rfl⟩

/-! ### Characters of one octet -/

/-- Octets and characters in step: an octet below 128 is the character with this number, and all other
characters stand for octets from 128 on. -/
inductive InStep : Octets → List Char → Prop
  | nil : InStep [] []
  | single {octets : Octets} {cs : List Char} (c : Char) (single : c.toNat < 0x80) (rest : InStep octets cs) :
    InStep (UInt8.ofNat c.toNat :: octets) (c :: cs)
  | several {octets others : Octets} {cs : List Char} (c : Char) (ne_nil : octets ≠ [])
    (several : ∀ octet ∈ octets, 0x80 ≤ octet.toNat) (beyond : 0x80 ≤ c.toNat) (rest : InStep others cs) :
    InStep (octets ++ others) (c :: cs)

theorem le_of_mem_lastOctets {octet : UInt8} {n v : Nat} (h : octet ∈ lastOctets n v) : 0x80 ≤ octet.toNat := by
  induction n with
  | zero => cases h
  | succ n ih =>
    rcases List.mem_cons.1 h with rfl | hrest
    · rw [toNat_lastOctet]
      omega
    · exact ih hrest

theorem encode_of_single {c : Char} (h : c.toNat < 0x80) : utf8EncodeChar c = [UInt8.ofNat c.toNat] := by
  rw [utf8EncodeChar_eq, firstOctet, furtherOctets, if_pos (by omega), if_pos (by omega)]
  rfl

theorem le_of_mem_encode {c : Char} (h : 0x80 ≤ c.toNat) {octet : UInt8} (hmem : octet ∈ utf8EncodeChar c) :
    0x80 ≤ octet.toNat := by
  rw [utf8EncodeChar_eq] at hmem
  rcases List.mem_cons.1 hmem with rfl | hlast
  · have hcases := octets_cases c.toNat
    rw [UInt8.toNat_ofNat', Nat.mod_eq_of_lt (firstOctet_lt c)]
    omega
  · exact le_of_mem_lastOctets hlast

/-- No octet below 128 is part of an ill-formed sequence: it would be a character by itself. -/
theorem IllFormed.le_of_mem {octets others : Octets} (h : IllFormed octets others) {octet : UInt8}
    (hmem : octet ∈ octets) : 0x80 ≤ octet.toNat := by
  by_contra hlt
  obtain ⟨c, hc⟩ : ∃ c, utf8EncodeChar c = octets := by
    rcases h.begins with ⟨c, hc⟩ | hlength
    · have hsingle : c.toNat < 0x80 := by
        by_contra hle
        exact hlt (le_of_mem_encode (by omega) (hc.subset hmem))
      refine ⟨c, (hc.eq_of_length_le ?_).symm⟩
      rw [encode_of_single hsingle]
      exact List.length_pos_iff.2 h.ne_nil
    · obtain ⟨single, rfl⟩ := List.length_eq_one_iff.1 hlength
      obtain rfl := List.mem_singleton.1 hmem
      have hvalue : (Char.ofNat octet.toNat).toNat = octet.toNat := toNat_ofNat_of_valid (.inl (by omega))
      refine ⟨Char.ofNat octet.toNat, ?_⟩
      rw [encode_of_single (by omega), hvalue, UInt8.ofNat_toNat]
  exact h.whole c (hc ▸ List.prefix_append _ others)

theorem Lossy.inStep {octets : Octets} {text : List Char} (h : Lossy octets text) : InStep octets text := by
  obtain ⟨cs, hcs, rfl⟩ := h
  induction hcs with
  | nil => exact .nil
  | char c rest ih =>
    by_cases hsingle : c.toNat < 0x80
    · rw [encode_of_single hsingle]
      exact .single c hsingle ih
    · exact .several c (utf8EncodeChar_ne_nil c) (fun octet => le_of_mem_encode (by omega)) (by omega) ih
  | illFormed bad rest ih => exact .several _ bad.ne_nil (fun octet => bad.le_of_mem) (by decide) ih

def Single (word : List Char) : Prop := ∀ c ∈ word, c.toNat < 0x80

instance (word : List Char) : Decidable (Single word) :=
  List.decidableBAll (fun c : Char => c.toNat < 0x80) word

theorem encode_cons_of_single {c : Char} (h : c.toNat < 0x80) (word : List Char) :
    encode (c :: word) = UInt8.ofNat c.toNat :: encode word := by
  rw [encode, List.flatMap_cons, encode_of_single h]
  rfl

theorem toNat_single {c : Char} (h : c.toNat < 0x80) : (UInt8.ofNat c.toNat).toNat = c.toNat := by
  rw [UInt8.toNat_ofNat', Nat.mod_eq_of_lt (by omega)]

namespace InStep

variable {octets : Octets} {cs word : List Char}

theorem prefix_iff (h : InStep octets cs) (hword : Single word) : encode word <+: octets ↔ word <+: cs := by
  induction h generalizing word with
  | nil =>
    cases word with
    | nil => exact iff_of_true List.nil_prefix List.nil_prefix
    | cons d word =>
      rw [encode_cons_of_single (hword d List.mem_cons_self)]
      simp
  | @single octets cs c hc rest ih =>
    cases word with
    | nil => exact iff_of_true List.nil_prefix List.nil_prefix
    | cons d word =>
      obtain ⟨hd, hrest⟩ := List.forall_mem_cons.1 hword
      have hsame : UInt8.ofNat d.toNat = UInt8.ofNat c.toNat ↔ d = c := by
        rw [← UInt8.toNat_inj, toNat_single hd, toNat_single hc, Char.toNat_inj]
      rw [encode_cons_of_single hd, List.cons_prefix_cons, List.cons_prefix_cons, hsame, ih hrest]
  | @several octets others cs c hne hseveral hc rest ih =>
    cases word with
    | nil => exact iff_of_true List.nil_prefix List.nil_prefix
    | cons d word =>
      have hd := hword d List.mem_cons_self
      obtain ⟨octet, octets, rfl⟩ := List.exists_cons_of_ne_nil hne
      have hoctet := hseveral octet List.mem_cons_self
      rw [encode_cons_of_single hd, List.cons_append, List.cons_prefix_cons, List.cons_prefix_cons]
      refine iff_of_false ?_ ?_
      · rintro ⟨rfl, -⟩
        rw [toNat_single hd] at hoctet
        omega
      · rintro ⟨rfl, -⟩
        omega

theorem encode_infix_append {d : Char} (hd : d.toNat < 0x80) {octets others : Octets}
    (hoctets : ∀ octet ∈ octets, 0x80 ≤ octet.toNat) :
    encode (d :: word) <:+: octets ++ others ↔ encode (d :: word) <:+: others := by
  induction octets with
  | nil => rfl
  | cons octet octets ih =>
    obtain ⟨hoctet, hrest⟩ := List.forall_mem_cons.1 hoctets
    have hbegin : ¬ encode (d :: word) <+: octet :: (octets ++ others) := by
      rw [encode_cons_of_single hd, List.cons_prefix_cons]
      rintro ⟨rfl, -⟩
      rw [toNat_single hd] at hoctet
      omega
    rw [List.cons_append, List.infix_cons_iff, or_iff_right hbegin, ih hrest]

theorem infix_iff (h : InStep octets cs) (hword : Single word) (hne : word ≠ []) :
    encode word <:+: octets ↔ word <:+: cs := by
  obtain ⟨d, word, rfl⟩ := List.exists_cons_of_ne_nil hne
  have hd := hword d List.mem_cons_self
  induction h with
  | nil => simp [encode_cons_of_single hd]
  | single c hc rest ih =>
    rw [List.infix_cons_iff, List.infix_cons_iff]
    exact or_congr ((InStep.single c hc rest).prefix_iff hword) ih
  | @several octets others cs c hoctets hseveral hc rest ih =>
    have hbegin : ¬ d :: word <+: c :: cs := by
      rw [List.cons_prefix_cons]
      rintro ⟨rfl, -⟩
      omega
    rw [List.infix_cons_iff, or_iff_right hbegin]
    exact (encode_infix_append hd hseveral).trans ih

end InStep

end PolicyCheck.Text.Utf8
