import Ioscpp.Support.Checked

/-!
# Stateful operations that can fail

An operation on an object changes the object also when it fails, so the state
stands beside the outcome and not inside it.  `Action ε σ` is that monad, with
the equations that run a sequence one step at a time.

## Main results

- `run_bind`: sequencing: an error ends the operation and keeps the state it left.
-/

namespace Ioscpp.Support

/-- An operation on a state `σ`: an outcome, and the state it leaves. -/
abbrev Action (ε σ : Type) := ExceptT (Fault ε) (StateM σ)

namespace Action

variable {ε σ τ α β : Type}

/-- Runs an operation. -/
def run (x : Action ε σ α) (state : σ) : Checked ε α × σ := x state

/-- A checked computation that does not touch the state. -/
def lift (x : Checked ε α) : Action ε σ α := fun state => (x, state)

/-- Ends the operation with an error. -/
def fail (e : ε) : Action ε σ α := lift (.error (.error e))

/-- An operation on a part of the state. -/
def zoom (get : σ → τ) (set : σ → τ → σ) (x : Action ε τ α) : Action ε σ α :=
  fun state => ((x (get state)).1, set state (x (get state)).2)

/-- Runs an operation and hands on its outcome, an error included. -/
def attempt (x : Action ε σ α) : Action ε σ (Checked ε α) :=
  fun state => (.ok (x state).1, (x state).2)

/-- Runs an operation and hands on its outcome, when that is a value or an error
of the operation's own; what is neither passes through. -/
def outcome (x : Action ε σ α) : Action ε σ (Checked ε α) := fun state =>
  match x state with
  | (.ok a, next) => (.ok (.ok a), next)
  | (.error (.error e), next) => (.ok (.error (.error e)), next)
  | (.error fault, next) => (.error fault, next)

@[simp] theorem run_lift (x : Checked ε α) (state : σ) :
    (lift x).run state = (x, state) := rfl

@[simp] theorem run_fail (e : ε) (state : σ) :
    (fail e : Action ε σ α).run state = (.error (.error e), state) := rfl

@[simp] theorem run_attempt (x : Action ε σ α) (state : σ) :
    (attempt x).run state = (.ok (x.run state).1, (x.run state).2) := rfl

theorem run_outcome (x : Action ε σ α) (state : σ) :
    (outcome x).run state =
      match x.run state with
      | (.ok a, next) => (.ok (.ok a), next)
      | (.error (.error e), next) => (.ok (.error (.error e)), next)
      | (.error fault, next) => (.error fault, next) := rfl

theorem run_outcome_ok {x : Action ε σ α} {state next : σ} {a : α}
    (h : x.run state = (.ok a, next)) :
    (outcome x).run state = (.ok (.ok a), next) := by
  rw [run_outcome, h]

theorem run_outcome_error {x : Action ε σ α} {state next : σ} {e : ε}
    (h : x.run state = (.error (.error e), next)) :
    (outcome x).run state = (.ok (.error (.error e)), next) := by
  rw [run_outcome, h]

@[simp] theorem run_pure (a : α) (state : σ) :
    (pure a : Action ε σ α).run state = (.ok a, state) := rfl

@[simp] theorem run_get (state : σ) :
    (get : Action ε σ σ).run state = (.ok state, state) := rfl

@[simp] theorem run_set (next state : σ) :
    (set next : Action ε σ PUnit).run state = (.ok PUnit.unit, next) := rfl

@[simp] theorem run_modify (f : σ → σ) (state : σ) :
    (modify f : Action ε σ PUnit).run state = (.ok PUnit.unit, f state) := rfl

@[simp] theorem run_zoom (get : σ → τ) (set : σ → τ → σ) (x : Action ε τ α)
    (state : σ) :
    (zoom get set x).run state =
      ((x.run (get state)).1, set state (x.run (get state)).2) := rfl

/-- Sequencing: an error ends the operation and keeps the state it left. -/
theorem run_bind (x : Action ε σ α) (f : α → Action ε σ β) (state : σ) :
    (x >>= f).run state =
      match x.run state with
      | (.ok a, next) => (f a).run next
      | (.error e, next) => (.error e, next) := by
  change ExceptT.bindCont f (x state).1 (x state).2 = _
  unfold run
  rcases x state with ⟨_ | _, next⟩ <;> rfl

theorem run_bind_ok {x : Action ε σ α} {f : α → Action ε σ β} {state next : σ}
    {a : α} (h : x.run state = (.ok a, next)) :
    (x >>= f).run state = (f a).run next := by
  rw [run_bind, h]

theorem run_bind_error {x : Action ε σ α} {f : α → Action ε σ β}
    {state next : σ} {e : Fault ε} (h : x.run state = (.error e, next)) :
    (x >>= f).run state = (.error e, next) := by
  rw [run_bind, h]

@[simp] theorem run_map (f : α → β) (x : Action ε σ α) (state : σ) :
    (f <$> x).run state = ((x.run state).1.map f, (x.run state).2) := by
  rw [← bind_pure_comp, run_bind]
  rcases x.run state with ⟨_ | _, next⟩ <;> rfl

end Action

end Ioscpp.Support
