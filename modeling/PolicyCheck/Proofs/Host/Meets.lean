import PolicyCheck.Proofs.Host.Action

/-!
# How results and steps may end

A condition on the errors and one on the values, which hold of the result of a step on every host. They
are shown of a chain of steps by the chain: what is known of a value is known where the next step takes
it up.
-/

namespace PolicyCheck

variable {ε ε' α β : Type} {E : ε → Prop} {E' : ε' → Prop} {Q : α → Prop} {R : β → Prop}

/-- The error is as the first condition says, or the value as the second. -/
def Meets (E : ε → Prop) (Q : α → Prop) : Except ε α → Prop
  | .error e => E e
  | .ok value => Q value

theorem Meets.bind {result : Except ε α} {next : α → Except ε β} (h : Meets E Q result)
    (hnext : ∀ value, Q value → Meets E R (next value)) : Meets E R (result >>= next) := by
  cases result with
  | error e => exact h
  | ok value => exact hnext value h

theorem Meets.map {result : Except ε α} {f : α → β} (h : Meets E Q result) (hf : ∀ value, Q value → R (f value)) :
    Meets E R (result.map f) := by
  cases result with
  | error e => exact h
  | ok value => exact hf value h

theorem Meets.mapError {result : Except ε α} {f : ε → ε'} (h : Meets E Q result) (hf : ∀ e, E e → E' (f e)) :
    Meets E' Q (result.mapError f) := by
  cases result with
  | error e => exact hf e h
  | ok value => exact h

theorem Meets.mapM {f : α → Except ε β} (hf : ∀ a, Meets E (fun _ => True) (f a)) (as : List α) :
    Meets E (fun _ => True) (as.mapM f) := by
  induction as with
  | nil => exact trivial
  | cons a as ih =>
    rw [List.mapM_cons]
    exact (hf a).bind fun _ _ => ih.bind fun _ _ => trivial

namespace Action

def Meets (E : ε → Prop) (Q : α → Prop) (a : Action ε α) : Prop := ∀ h, PolicyCheck.Meets E Q (a.on h).1

theorem meets_pure {value : α} (h : Q value) : (pure value : Action ε α).Meets E Q := fun _ => h

theorem meets_throw {e : ε} (h : E e) : (throw e : Action ε α).Meets E Q := fun _ => h

theorem meets_ofExcept {result : Except ε α} (h : PolicyCheck.Meets E Q result) :
    (ofExcept result).Meets E Q := fun _ => h

theorem meets_ask {f : Host → Except ε α} (h : ∀ host, PolicyCheck.Meets E Q (f host)) :
    (ask f).Meets E Q := h

theorem meets_liftM {m : StateM Host α} (h : ∀ host, Q (m.run host).1) :
    (liftM m : Action ε α).Meets E Q := h

theorem Meets.bind {a : Action ε α} {next : α → Action ε β} (ha : a.Meets E Q)
    (hnext : ∀ value, Q value → (next value).Meets E R) : (a >>= next).Meets E R := by
  intro h
  have hfirst := ha h
  rcases hon : a.on h with ⟨e | value, h'⟩
  · rw [hon] at hfirst
    rw [on_bind_of_error hon]
    exact hfirst
  · rw [hon] at hfirst
    rw [on_bind_of_ok hon]
    exact hnext value hfirst h'

theorem Meets.mapError {a : Action ε α} {f : ε → ε'} (ha : a.Meets E Q) (hf : ∀ e, E e → E' (f e)) :
    (a.mapError f).Meets E' Q := fun h => (ha h).mapError hf

theorem Meets.mapM {f : α → Action ε β} (hf : ∀ a, (f a).Meets E fun _ => True) (as : List α) :
    (as.mapM f).Meets E fun _ => True := by
  induction as with
  | nil => exact meets_pure trivial
  | cons a as ih =>
    rw [List.mapM_cons]
    exact (hf a).bind fun _ _ => ih.bind fun _ _ => meets_pure trivial

end Action

end PolicyCheck
