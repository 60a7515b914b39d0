import Ioscpp.Support.Action

/-!
# Actions that cannot be told apart

Two actions agree on related states when they return the same, a value or a failure,
and leave related states.  A program may then go on after a failure, and still not tell
on which of the states it runs.

## Main results

- `get_bind`, `outcome`, `zoom`: the rules by which two runs agree.
-/

namespace Ioscpp.Support.Action

variable {ε σ τ α β : Type}

/-- From related states the same comes back, and the states that are left are
related. -/
def Agrees (R : σ → τ → Prop) (x : Action ε σ α) (y : Action ε τ α) : Prop :=
  ∀ ⦃state other⦄, R state other →
    (x.run state).1 = (y.run other).1 ∧ R (x.run state).2 (y.run other).2

namespace Agrees

variable {R : σ → τ → Prop} {x : Action ε σ α} {y : Action ε τ α}
  {f : α → Action ε σ β} {g : α → Action ε τ β}

theorem pure (a : α) : Agrees R (Pure.pure a : Action ε σ α) (Pure.pure a) :=
  fun _ _ hR => ⟨rfl, hR⟩

theorem fail (e : ε) : Agrees R (Action.fail e : Action ε σ α) (Action.fail e) :=
  fun _ _ hR => ⟨rfl, hR⟩

theorem lift (result : Checked ε α) :
    Agrees R (Action.lift result) (Action.lift result) := by
  intro state other hR
  rw [run_lift, run_lift]
  exact ⟨rfl, hR⟩

theorem bind (h : Agrees R x y) (hf : ∀ a, Agrees R (f a) (g a)) :
    Agrees R (x >>= f) (y >>= g) := by
  intro state other hR
  obtain ⟨hresult, hnext⟩ := h hR
  rcases hx : x.run state with ⟨fault | a, next⟩ <;>
    rcases hy : y.run other with ⟨fault' | a', next'⟩ <;>
    rw [hx, hy] at hresult hnext
  · rw [run_bind_error hx, run_bind_error hy]
    cases hresult
    exact ⟨rfl, hnext⟩
  · cases hresult
  · cases hresult
  · cases hresult
    rw [run_bind_ok hx, run_bind_ok hy]
    exact hf a hnext

theorem map (h : Agrees R x y) (f : α → β) : Agrees R (f <$> x) (f <$> y) := by
  intro state other hR
  obtain ⟨hresult, hnext⟩ := h hR
  rw [run_map, run_map]
  exact ⟨congrArg (Except.map f) hresult, hnext⟩

theorem ite {c : Prop} [Decidable c] {x' : Action ε σ α} {y' : Action ε τ α}
    (h : Agrees R x y) (h' : Agrees R x' y') :
    Agrees R (if c then x else x') (if c then y else y') := by
  split
  · exact h
  · exact h'

/-- The states are read, and the rest may use how they are related. -/
theorem get_bind {f : σ → Action ε σ β} {g : τ → Action ε τ β}
    (h : ∀ state other, R state other → Agrees R (f state) (g other)) :
    Agrees R ((get : Action ε σ σ) >>= f) ((get : Action ε τ τ) >>= g) := by
  intro state other hR
  rw [run_bind_ok (run_get other), run_bind_ok (run_get state)]
  exact h state other hR hR

theorem modify {f : σ → σ} {g : τ → τ}
    (h : ∀ state other, R state other → R (f state) (g other)) :
    Agrees R (modify f : Action ε σ PUnit) (modify g : Action ε τ PUnit) :=
  fun state other hR => ⟨rfl, h state other hR⟩

theorem set {next : σ} {next' : τ} (h : R next next') :
    Agrees R (MonadStateOf.set next : Action ε σ PUnit)
      (MonadStateOf.set next' : Action ε τ PUnit) :=
  fun _ _ _ => ⟨rfl, h⟩

/-- A failure is the same on both sides, so what is done about it is too. -/
theorem outcome (h : Agrees R x y) :
    Agrees R (Action.outcome x) (Action.outcome y) := by
  intro state other hR
  obtain ⟨hresult, hnext⟩ := h hR
  rw [run_outcome, run_outcome]
  rcases hx : x.run state with ⟨result, next⟩
  rcases hy : y.run other with ⟨result', next'⟩
  rw [hx, hy] at hresult hnext
  cases hresult
  rcases result with (_ | _) | _ <;> exact ⟨rfl, hnext⟩

/-- Actions on a part of each state, when the rest is related and stays. -/
theorem zoom {σ' τ' : Type} {R' : σ' → τ' → Prop} {get : σ → σ'}
    {set : σ → σ' → σ} {get' : τ → τ'} {set' : τ → τ' → τ}
    {x : Action ε σ' α} {y : Action ε τ' α} (h : Agrees R' x y)
    (hget : ∀ state other, R state other → R' (get state) (get' other))
    (hset : ∀ state other part part', R state other → R' part part' →
      R (set state part) (set' other part')) :
    Agrees R (Action.zoom get set x) (Action.zoom get' set' y) := by
  intro state other hR
  obtain ⟨hresult, hnext⟩ := h (hget state other hR)
  rw [run_zoom, run_zoom]
  exact ⟨hresult, hset state other _ _ hR hnext⟩

end Agrees

end Ioscpp.Support.Action
