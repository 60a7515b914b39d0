import Ioscpp.Support.ActionTriple

/-!
# Actions that keep a log

A program whose steps are observed is the same program on a state with a log
beside it.  `Erases` says that forgetting the log gives the program back; it
follows the shape of a `do` block, as the rules of triples do.

## Main results

- `Erases.of_run`: a run that was observed is a run.
- `Erases.note_bind`: what is noted first is forgotten.
-/

namespace Ioscpp.Support.Action

variable {ε σ κ α β : Type}

/-- An operation that is not observed. -/
def quiet (x : Action ε σ α) : Action ε (σ × List κ) α :=
  zoom Prod.fst (fun state part => (part, state.2)) x

/-- Adds an event to the log. -/
def note (event : κ) : Action ε (σ × List κ) PUnit :=
  modify fun state => (state.1, state.2 ++ [event])

@[simp] theorem run_quiet (x : Action ε σ α) (state : σ) (log : List κ) :
    (quiet x).run (state, log) = ((x.run state).1, ((x.run state).2, log)) := rfl

@[simp] theorem run_note (event : κ) (state : σ) (log : List κ) :
    (note event : Action ε (σ × List κ) PUnit).run (state, log) =
      (.ok PUnit.unit, (state, log ++ [event])) := rfl

/-- The observed operation has the outcome and the state of the other. -/
def Erases (y : Action ε (σ × List κ) α) (x : Action ε σ α) : Prop :=
  ∀ state log, (y.run (state, log)).1 = (x.run state).1 ∧
    (y.run (state, log)).2.1 = (x.run state).2

section Erases

variable {y : Action ε (σ × List κ) α} {x : Action ε σ α}

/-- A run that was observed is a run. -/
theorem Erases.of_run (h : Erases y x) {state next : σ} {log log' : List κ}
    {result : Checked ε α} (hrun : y.run (state, log) = (result, (next, log'))) :
    x.run state = (result, next) := by
  obtain ⟨hresult, hstate⟩ := h state log
  rw [hrun] at hresult hstate
  exact Prod.ext hresult.symm hstate.symm

theorem erases_quiet (x : Action ε σ α) :
    Erases (quiet x : Action ε (σ × List κ) α) x :=
  fun _ _ => ⟨rfl, rfl⟩

theorem erases_pure (a : α) :
    Erases (pure a : Action ε (σ × List κ) α) (pure a : Action ε σ α) :=
  fun _ _ => ⟨rfl, rfl⟩

theorem erases_lift (result : Checked ε α) :
    Erases (lift result : Action ε (σ × List κ) α) (lift result) :=
  fun _ _ => ⟨rfl, rfl⟩

theorem Erases.bind (h : Erases y x) {g : α → Action ε (σ × List κ) β}
    {f : α → Action ε σ β} (hf : ∀ a, Erases (g a) (f a)) :
    Erases (y >>= g) (x >>= f) := by
  intro state log
  obtain ⟨hresult, hstate⟩ := h state log
  rcases hrun : x.run state with ⟨result, next⟩
  rcases hrun' : y.run (state, log) with ⟨result', next', log'⟩
  rw [hrun, hrun'] at hresult hstate
  obtain rfl : result' = result := hresult
  obtain rfl : next' = next := hstate
  cases result' with
  | ok a =>
      rw [run_bind_ok hrun, run_bind_ok hrun']
      exact hf a next' log'
  | error e =>
      rw [run_bind_error hrun, run_bind_error hrun']
      exact ⟨rfl, rfl⟩

/-- What is noted first is forgotten. -/
theorem Erases.note_bind (event : κ) (h : Erases y x) :
    Erases (note event >>= fun _ => y) x :=
  fun state log => h state (log ++ [event])

theorem Erases.attempt (h : Erases y x) : Erases (attempt y) (attempt x) := by
  intro state log
  obtain ⟨hresult, hstate⟩ := h state log
  rw [run_attempt, run_attempt, hresult]
  exact ⟨rfl, hstate⟩

theorem Erases.ite {c : Prop} [Decidable c] {y' : Action ε (σ × List κ) α}
    {x' : Action ε σ α} (h : Erases y x) (h' : Erases y' x') :
    Erases (if c then y else y') (if c then x else x') := by
  split
  · exact h
  · exact h'

end Erases

end Ioscpp.Support.Action
