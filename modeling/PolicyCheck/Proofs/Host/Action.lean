import PolicyCheck.Host.Basic

/-!
# What actions do to a host

`Action.on` gives the result of an action on a host together with the host after it. Each way of
putting actions together is known by one equation for `on`; proofs about a run take it apart with
these and do not look inside the monad.
-/

namespace PolicyCheck

namespace Action

variable {ε ε' α β : Type}

/-- The result of an action on a host, and the host after it. -/
def on (a : Action ε α) (h : Host) : Except ε α × Host := (ExceptT.run a).run h

@[simp] theorem on_pure (value : α) (h : Host) : (pure value : Action ε α).on h = (.ok value, h) := rfl

@[simp] theorem on_throw (e : ε) (h : Host) : (throw e : Action ε α).on h = (.error e, h) := rfl

@[simp] theorem on_get (h : Host) : (get : Action ε Host).on h = (.ok h, h) := rfl

@[simp] theorem on_set (h h' : Host) : (set h' : Action ε PUnit).on h = (.ok (), h') := rfl

/-- An action goes on where the one before it has left the host, unless that one failed. -/
theorem on_bind (a : Action ε α) (next : α → Action ε β) (h : Host) :
    (a >>= next).on h =
      match a.on h with
      | (.ok value, h') => (next value).on h'
      | (.error e, h') => (.error e, h') := by
  change (match a.on h with
    | (result, h') => (ExceptT.bindCont next result : StateM Host (Except ε β)).run h') = _
  rcases a.on h with ⟨_ | value, h'⟩
  · rfl
  · rfl

theorem on_bind_of_ok {a : Action ε α} {next : α → Action ε β} {h h' : Host} {value : α}
    (ha : a.on h = (.ok value, h')) : (a >>= next).on h = (next value).on h' := by
  rw [on_bind, ha]

theorem on_bind_of_error {a : Action ε α} {next : α → Action ε β} {h h' : Host} {e : ε}
    (ha : a.on h = (.error e, h')) : (a >>= next).on h = (.error e, h') := by
  rw [on_bind, ha]

/-- Two actions in a row succeed when the first does and the second does from there. -/
theorem on_bind_eq_ok {a : Action ε α} {next : α → Action ε β} {h h' : Host} {b : β} :
    (a >>= next).on h = (.ok b, h') ↔
      ∃ value h₁, a.on h = (.ok value, h₁) ∧ (next value).on h₁ = (.ok b, h') := by
  rcases ha : a.on h with ⟨e | value, h₁⟩
  · rw [on_bind_of_error ha]
    simp
  · rw [on_bind_of_ok ha]
    constructor
    · exact fun hnext => ⟨value, h₁, rfl, hnext⟩
    · rintro ⟨_, _, heq, hnext⟩
      obtain ⟨hvalue, rfl⟩ := Prod.mk.inj heq
      obtain rfl := Except.ok.inj hvalue
      exact hnext

/-- Two actions in a row fail when the first does or the second does from there. -/
theorem on_bind_eq_error {a : Action ε α} {next : α → Action ε β} {h h' : Host} {e : ε} :
    (a >>= next).on h = (.error e, h') ↔
      a.on h = (.error e, h') ∨ ∃ value h₁, a.on h = (.ok value, h₁) ∧ (next value).on h₁ = (.error e, h') := by
  rcases ha : a.on h with ⟨e' | value, h₁⟩
  · rw [on_bind_of_error ha]
    simp
  · rw [on_bind_of_ok ha]
    constructor
    · exact fun hnext => .inr ⟨value, h₁, rfl, hnext⟩
    · rintro (herror | ⟨_, _, heq, hnext⟩)
      · cases (Prod.mk.inj herror).1
      · obtain ⟨hvalue, rfl⟩ := Prod.mk.inj heq
        obtain rfl := Except.ok.inj hvalue
        exact hnext

@[simp] theorem on_mapError (f : ε → ε') (a : Action ε α) (h : Host) :
    (a.mapError f).on h = ((a.on h).1.mapError f, (a.on h).2) := rfl

@[simp] theorem on_attempt (a : Action ε α) (h : Host) :
    (a.attempt : Action ε' (Except ε α)).on h = (.ok (a.on h).1, (a.on h).2) := rfl

@[simp] theorem on_ofExcept (result : Except ε α) (h : Host) : (ofExcept result).on h = (result, h) := rfl

@[simp] theorem on_ask (f : Host → Except ε α) (h : Host) : (ask f).on h = (f h, h) := rfl

theorem on_pure_eq_ok {value value' : α} {h h' : Host} :
    (pure value : Action ε α).on h = (.ok value', h') ↔ value = value' ∧ h = h' := by
  rw [on_pure, Prod.mk.injEq, Except.ok.injEq]

@[simp] theorem on_liftM (m : StateM Host α) (h : Host) :
    (liftM m : Action ε α).on h = (.ok (m.run h).1, (m.run h).2) := rfl

theorem exists_on_eq {a : Action ε α} {h : Host} {result : Except ε α} (hresult : (a.on h).1 = result) :
    ∃ left, a.on h = (result, left) := ⟨(a.on h).2, Prod.ext hresult rfl⟩

theorem ext_on {a b : Action ε α} (h : ∀ host, a.on host = b.on host) : a = b := funext h

/-! ### Actions that only read -/

theorem pure_eq_ask (value : α) : (pure value : Action ε α) = ask fun _ => .ok value := rfl

theorem get_eq_ask : (get : Action ε Host) = ask .ok := rfl

theorem mapError_ask (f : Host → Except ε α) (g : ε → ε') :
    (ask f).mapError g = ask fun h => (f h).mapError g := rfl

theorem on_bind_ask_of_ok {f : Host → Except ε α} {next : α → Action ε β} {h : Host} {value : α}
    (hf : f h = .ok value) : (ask f >>= next).on h = (next value).on h := by
  rw [on_bind, on_ask, hf]

theorem on_bind_ask_of_error {f : Host → Except ε α} {next : α → Action ε β} {h : Host} {e : ε}
    (hf : f h = .error e) : (ask f >>= next).on h = (.error e, h) := by
  rw [on_bind, on_ask, hf]

theorem on_bind_ask_eq_ok {f : Host → Except ε α} {next : α → Action ε β} {h h' : Host} {b : β} :
    (ask f >>= next).on h = (.ok b, h') ↔ ∃ value, f h = .ok value ∧ (next value).on h = (.ok b, h') := by
  rw [on_bind, on_ask]
  cases f h with
  | error e => simp
  | ok value => simp

theorem ask_bind (f : Host → Except ε α) (next : α → Host → Except ε β) :
    (ask f >>= fun value => ask (next value)) = ask fun h => f h >>= fun value => next value h := by
  refine ext_on fun h => ?_
  rw [on_bind, on_ask, on_ask]
  cases f h <;> rfl

end Action

namespace Host

theorem resolve_eq_ok_iff {h : Host} {p q : FilePath} :
    h.resolve p = .ok q ↔
      (p.isAbsolute = true ∨ h.files.isDirectoryAt h.directory = true) ∧ h.absolute p = q := by
  rw [resolve, ← Bool.or_eq_true]
  by_cases hthere : (p.isAbsolute || h.files.isDirectoryAt h.directory) = true
  · rw [if_pos hthere, Except.ok.injEq, and_iff_right hthere]
  · rw [if_neg hthere]
    simp [hthere]

end Host

end PolicyCheck
