import Ioscpp.Support.Action

/-!
# Actions that do the same on related states

An action on one state simulates an action on another when it returns what the
other returns, and the states that they leave are related again.  Nothing is asked
of it where the other fails.  The rules follow the shape of a `do` block, so that
two programs that are one text over two kinds of state are compared operation by
operation.

## Main results

- `get_bind`, `zoom`: the rules by which one run simulates another.
-/

namespace Ioscpp.Support.Action

variable {ε σ τ α β : Type}

/-- Whatever `y` returns, `x` returns from a related state. -/
def Simulates (R : σ → τ → Prop) (x : Action ε σ α) (y : Action ε τ α) : Prop :=
  ∀ ⦃state other a next'⦄, R state other → y.run other = (.ok a, next') →
    ∃ next, x.run state = (.ok a, next) ∧ R next next'

namespace Simulates

variable {R : σ → τ → Prop} {x : Action ε σ α} {y : Action ε τ α}
  {f : α → Action ε σ β} {g : α → Action ε τ β}

theorem pure (a : α) : Simulates R (Pure.pure a : Action ε σ α) (Pure.pure a) := by
  intro state other b next' hR hrun
  cases hrun
  exact ⟨state, rfl, hR⟩

/-- Where the second action fails there is nothing to show. -/
theorem fail (x : Action ε σ α) (e : ε) : Simulates R x (Action.fail e) := by
  intro state other a next' _ hrun
  cases hrun

theorem lift (result : Checked ε α) :
    Simulates R (Action.lift result) (Action.lift result) := by
  intro state other a next' hR hrun
  rw [run_lift] at hrun
  cases hresult : result with
  | error fault =>
      rw [hresult] at hrun
      cases hrun
  | ok b =>
      rw [hresult] at hrun
      cases hrun
      exact ⟨state, rfl, hR⟩

theorem bind (h : Simulates R x y) (hf : ∀ a, Simulates R (f a) (g a)) :
    Simulates R (x >>= f) (y >>= g) := by
  intro state other b last' hR hrun
  rcases hy : y.run other with ⟨fault | a, next'⟩
  · rw [run_bind_error hy] at hrun
    cases hrun
  · rw [run_bind_ok hy] at hrun
    obtain ⟨next, hx, hnext⟩ := h hR hy
    rw [run_bind_ok hx]
    exact hf a hnext hrun

theorem ite {c : Prop} [Decidable c] {x' : Action ε σ α} {y' : Action ε τ α}
    (h : c → Simulates R x y) (h' : ¬ c → Simulates R x' y') :
    Simulates R (if c then x else x') (if c then y else y') := by
  by_cases hc : c
  · rw [if_pos hc, if_pos hc]
    exact h hc
  · rw [if_neg hc, if_neg hc]
    exact h' hc

/-- The states are read, and the rest may use how they are related. -/
theorem get_bind {f : σ → Action ε σ β} {g : τ → Action ε τ β}
    (h : ∀ state other, R state other → Simulates R (f state) (g other)) :
    Simulates R ((get : Action ε σ σ) >>= f) ((get : Action ε τ τ) >>= g) := by
  intro state other b last' hR hrun
  rw [run_bind_ok (run_get other)] at hrun
  rw [run_bind_ok (run_get state)]
  exact h state other hR hR hrun

theorem set {next : σ} {next' : τ} (h : R next next') :
    Simulates R (MonadStateOf.set next : Action ε σ PUnit)
      (MonadStateOf.set next' : Action ε τ PUnit) := by
  intro state other a last' _ hrun
  cases hrun
  exact ⟨next, rfl, h⟩

theorem modify {f : σ → σ} {g : τ → τ}
    (h : ∀ state other, R state other → R (f state) (g other)) :
    Simulates R (modify f : Action ε σ PUnit) (modify g : Action ε τ PUnit) := by
  intro state other a last' hR hrun
  cases hrun
  exact ⟨f state, rfl, h state other hR⟩

/-- Actions on a part of each state, when the rest is related and stays. -/
theorem zoom {σ' τ' : Type} {R' : σ' → τ' → Prop} {get : σ → σ'}
    {set : σ → σ' → σ} {get' : τ → τ'} {set' : τ → τ' → τ}
    {x : Action ε σ' α} {y : Action ε τ' α} (h : Simulates R' x y)
    (hget : ∀ state other, R state other → R' (get state) (get' other))
    (hset : ∀ state other part part', R state other → R' part part' →
      R (set state part) (set' other part')) :
    Simulates R (Action.zoom get set x) (Action.zoom get' set' y) := by
  intro state other a last' hR hrun
  rw [run_zoom] at hrun
  obtain ⟨hvalue, rfl⟩ := Prod.mk.inj hrun
  obtain ⟨part, hpart, hrelated⟩ := h (hget state other hR)
    (show y.run (get' other) = (.ok a, (y.run (get' other)).2) by
      rw [← hvalue])
  refine ⟨set state part, ?_, hset state other _ _ hR hrelated⟩
  rw [run_zoom, hpart]

end Simulates

end Ioscpp.Support.Action
