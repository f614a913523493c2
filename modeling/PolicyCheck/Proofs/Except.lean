import PolicyCheck.Proofs.Pairs

/-!
# Results that may be errors

How a chain of results and a list of results come to be free of errors.
-/

namespace PolicyCheck

variable {ε α β : Type}

theorem bind_eq_ok_iff {result : Except ε α} {next : α → Except ε β} {b : β} :
    (result >>= next) = .ok b ↔ ∃ a, result = .ok a ∧ next a = .ok b := by
  cases result with
  | ok a => simp [bind, Except.bind]
  | error e => simp [bind, Except.bind]

/-- A chain fails at its first step, or the first step gives a value and the rest fails on it. -/
theorem bind_eq_error_iff {result : Except ε α} {next : α → Except ε β} {e : ε} :
    (result >>= next) = .error e ↔
      result = .error e ∨ ∃ a, result = .ok a ∧ next a = .error e := by
  cases result with
  | ok a => simp [bind, Except.bind]
  | error e' => simp [bind, Except.bind]

theorem map_eq_ok_iff {f : α → β} {result : Except ε α} {b : β} :
    result.map f = .ok b ↔ ∃ a, result = .ok a ∧ f a = b := by
  cases result <;> simp [Except.map]

theorem map_eq_error_iff {f : α → β} {result : Except ε α} {e : ε} :
    result.map f = .error e ↔ result = .error e := by
  cases result <;> simp [Except.map]

theorem mapError_eq_ok_iff {ε' : Type} {f : ε → ε'} {result : Except ε α} {a : α} :
    result.mapError f = .ok a ↔ result = .ok a := by
  cases result <;> simp [Except.mapError]

theorem toOption_map (f : α → β) (result : Except ε α) :
    (result.map f).toOption = result.toOption.map f := by
  cases result <;> rfl

theorem toOption_eq_some_iff {result : Except ε α} {a : α} : result.toOption = some a ↔ result = .ok a := by
  cases result <;> simp [Except.toOption]

theorem error_or_ok_of_toOption_eq {result result' : Except ε α}
    (h : result.toOption = result'.toOption) :
    (∃ e e', result = .error e ∧ result' = .error e') ∨ ∃ a, result = .ok a ∧ result' = .ok a := by
  cases result <;> cases result' <;> simp_all [Except.toOption]

theorem mapM_eq_ok_iff {f : α → Except ε β} {as : List α} {bs : List β} :
    as.mapM f = .ok bs ↔ List.Forall₂ (fun a b => f a = .ok b) as bs := by
  induction as generalizing bs with
  | nil =>
    rw [List.mapM_nil, List.forall₂_nil_left_iff]
    exact ⟨fun h => (Except.ok.inj h).symm, fun h => congrArg Except.ok h.symm⟩
  | cons a as ih =>
    rw [List.mapM_cons, bind_eq_ok_iff, List.forall₂_cons_left_iff]
    constructor
    · rintro ⟨b, hb, h⟩
      obtain ⟨others, hothers, hbs⟩ := bind_eq_ok_iff.1 h
      exact ⟨b, others, hb, ih.1 hothers, (Except.ok.inj hbs).symm⟩
    · rintro ⟨b, others, hb, hothers, rfl⟩
      exact ⟨b, hb, bind_eq_ok_iff.2 ⟨others, ih.2 hothers, rfl⟩⟩

theorem exists_of_mapM_eq_ok {f : α → Except ε β} {as : List α} {bs : List β} {a : α}
    (h : as.mapM f = .ok bs) (ha : a ∈ as) : ∃ b ∈ bs, f a = .ok b :=
  exists_mem_of_forall₂_left (mapM_eq_ok_iff.1 h) ha

theorem mem_iff_of_mapM_eq_ok {f : α → Except ε β} {as : List α} {bs : List β}
    (h : as.mapM f = .ok bs) {b : β} : b ∈ bs ↔ ∃ a ∈ as, f a = .ok b := by
  constructor
  · intro hb
    exact exists_mem_of_forall₂_right (mapM_eq_ok_iff.1 h) hb
  · intro ⟨a, ha, hok⟩
    obtain ⟨b', hb', hok'⟩ := exists_of_mapM_eq_ok h ha
    rw [hok] at hok'
    rw [Except.ok.inj hok']
    exact hb'

theorem not_forall₂_of_error {f : α → Except ε β} {as : List α} {a : α} {e : ε} (ha : a ∈ as)
    (he : f a = .error e) (bs : List β) : ¬ List.Forall₂ (fun a b => f a = .ok b) as bs := by
  intro h
  obtain ⟨b, -, hok⟩ := exists_mem_of_forall₂_left h ha
  rw [he] at hok
  cases hok

theorem exists_forall₂_or_error (f : α → Except ε β) (as : List α) :
    (∃ bs, List.Forall₂ (fun a b => f a = .ok b) as bs) ∨ ∃ a ∈ as, ∃ e, f a = .error e := by
  induction as with
  | nil => exact .inl ⟨[], .nil⟩
  | cons a as ih =>
    rcases ih with ⟨bs, hbs⟩ | ⟨other, hother, e, he⟩
    · cases ha : f a with
      | error e => exact .inr ⟨a, List.mem_cons_self, e, ha⟩
      | ok b => exact .inl ⟨b :: bs, .cons ha hbs⟩
    · exact .inr ⟨other, List.mem_cons_of_mem a hother, e, he⟩

theorem exists_mapM_eq_ok_iff {f : α → Except ε β} {as : List α} :
    (∃ bs, as.mapM f = .ok bs) ↔ ∀ a ∈ as, ∃ b, f a = .ok b := by
  refine ⟨fun ⟨bs, hbs⟩ a ha => ?_, fun hall => ?_⟩
  · obtain ⟨b, -, hb⟩ := exists_of_mapM_eq_ok hbs ha
    exact ⟨b, hb⟩
  · rcases exists_forall₂_or_error f as with ⟨bs, hbs⟩ | ⟨a, ha, e, he⟩
    · exact ⟨bs, mapM_eq_ok_iff.2 hbs⟩
    · obtain ⟨b, hb⟩ := hall a ha
      cases he.symm.trans hb

theorem mapM_eq_error_iff {f : α → Except ε β} {as : List α} {e : ε} :
    as.mapM f = .error e ↔
      ∃ front a back, as = front ++ a :: back ∧ (∀ x ∈ front, ∃ b, f x = .ok b) ∧ f a = .error e := by
  induction as with
  | nil =>
    rw [List.mapM_nil]
    exact ⟨nofun, fun ⟨front, a, back, h, _⟩ => absurd h.symm (by simp)⟩
  | cons a as ih =>
    rw [List.mapM_cons, bind_eq_error_iff]
    constructor
    · rintro (ha | ⟨b, hb, hrest⟩)
      · exact ⟨[], a, as, rfl, nofun, ha⟩
      · rcases bind_eq_error_iff.1 hrest with hrest | ⟨bs, -, hpure⟩
        · obtain ⟨front, a', back, rfl, hfront, he⟩ := ih.1 hrest
          exact ⟨a :: front, a', back, rfl, List.forall_mem_cons.2 ⟨⟨b, hb⟩, hfront⟩, he⟩
        · cases hpure
    · rintro ⟨front, a', back, has, hfront, he⟩
      rcases List.cons_eq_append_iff.1 has with ⟨rfl, hcons⟩ | ⟨front', rfl, rfl⟩
      · obtain ⟨rfl, -⟩ := List.cons_eq_cons.1 hcons
        exact .inl he
      · obtain ⟨⟨b, hb⟩, hfront⟩ := List.forall_mem_cons.1 hfront
        exact .inr ⟨b, hb, bind_eq_error_iff.2 (.inl (ih.2 ⟨front', a', back, rfl, hfront, he⟩))⟩

end PolicyCheck
