import Mathlib.Logic.Function.Basic

/-!
# Ledgers

Events are logged under the name of what they are about.  An automaton says which
events may follow one another for one name, and a ledger says in which state each
name is.  An event moves one entry of the ledger and leaves the others.

## Main results

- `Books.append`: an event that is allowed moves its own entry.
-/

namespace Ioscpp.Support

section Ledger

variable {ι κ η : Type} [DecidableEq ι] {step : η → κ → Option η} {start : η}
  {ledger : ι → η} {log : List (ι × κ)} {name : ι} {event : κ} {next : η}

/-- The state that the events under a name lead to; none when one of them was not
allowed. -/
def replay (step : η → κ → Option η) (start : η) (name : ι) (log : List (ι × κ)) :
    Option η :=
  ((log.filter fun entry => entry.1 = name).map Prod.snd).foldlM step start

/-- Every event was allowed, and the ledger says where each name is. -/
def Books (step : η → κ → Option η) (start : η) (ledger : ι → η)
    (log : List (ι × κ)) : Prop :=
  ∀ name, replay step start name log = some (ledger name)

theorem books_nil : Books step start (fun _ : ι => start) [] := fun _ => rfl

/-- An event that is allowed moves its own entry. -/
theorem Books.append (h : Books step start ledger log)
    (hstep : step (ledger name) event = some next) :
    Books step start (Function.update ledger name next) (log ++ [(name, event)]) := by
  intro other
  have hother := h other
  rw [replay] at hother ⊢
  rw [List.filter_append, List.map_append, List.foldlM_append, hother]
  by_cases hname : name = other
  · subst hname
    simp [hstep]
  · simp [hname, Function.update_of_ne (Ne.symm hname)]

end Ledger

end Ioscpp.Support
