import Ioscpp.Support.Action

/-!
# Pre- and postconditions of actions

`Triple P x Q E` says what an action does from every state of which `P` holds:
with a value `a` it leaves a state of which `Q a` holds, and when it ends with a
fault `e` it leaves one of which `E e` holds.  An action keeps its state when it
fails, so `E` is as much a part of its specification as `Q` is.  The rules
follow the shape of a `do` block.

## Main results

- `bind_certain`, `bind_of_run`: the rules for sequencing.
- `outcome`: the rule for an outcome that is handed on.
- `zoom`, `keeps_zoom`: the rules for an action on a part of the state.
-/

namespace Ioscpp.Support.Action

variable {ε σ τ α β : Type}

/-- What an action does from the states of `P`. -/
def Triple (P : σ → Prop) (x : Action ε σ α) (Q : α → σ → Prop)
    (E : Fault ε → σ → Prop) : Prop :=
  ∀ state, P state →
    match x.run state with
    | (.ok a, next) => Q a next
    | (.error e, next) => E e next

namespace Triple

variable {P P' : σ → Prop} {Q Q' : α → σ → Prop} {R : β → σ → Prop}
  {E E' : Fault ε → σ → Prop} {x : Action ε σ α} {f : α → Action ε σ β}

/-! ## Using a triple -/

theorem of_ok (h : Triple P x Q E) {state next : σ} {a : α} (hP : P state)
    (hrun : x.run state = (.ok a, next)) : Q a next := by
  have hpost := h state hP
  rw [hrun] at hpost
  exact hpost

theorem of_error (h : Triple P x Q E) {state next : σ} {e : Fault ε}
    (hP : P state) (hrun : x.run state = (.error e, next)) : E e next := by
  have hpost := h state hP
  rw [hrun] at hpost
  exact hpost

/-- An action that cannot fault returns a value. -/
theorem exists_ok (h : Triple P x Q (fun _ _ => False)) {state : σ}
    (hP : P state) : ∃ a next, x.run state = (.ok a, next) ∧ Q a next := by
  have hpost := h state hP
  rcases hrun : x.run state with ⟨e | a, next⟩
  · rw [hrun] at hpost
    exact hpost.elim
  · rw [hrun] at hpost
    exact ⟨a, next, rfl, hpost⟩

theorem imp (h : Triple P x Q E) (hP : ∀ state, P' state → P state)
    (hQ : ∀ a state, Q a state → Q' a state)
    (hE : ∀ e state, E e state → E' e state) : Triple P' x Q' E' := by
  intro state hstate
  have hpost := h state (hP state hstate)
  rcases hrun : x.run state with ⟨e | a, next⟩
  · rw [hrun] at hpost
    exact hE e next hpost
  · rw [hrun] at hpost
    exact hQ a next hpost

theorem imp_pre (h : Triple P x Q E) (hP : ∀ state, P' state → P state) :
    Triple P' x Q E :=
  h.imp hP (fun _ _ hq => hq) fun _ _ he => he

theorem imp_post (h : Triple P x Q E)
    (hQ : ∀ a state, Q a state → Q' a state)
    (hE : ∀ e state, E e state → E' e state) : Triple P x Q' E' :=
  h.imp (fun _ hp => hp) hQ hE

/-! ## The rules of a `do` block -/

theorem pure {a : α} (h : ∀ state, P state → Q a state) :
    Triple P (Pure.pure a : Action ε σ α) Q E := h

theorem bind (hx : Triple P x Q E) (hf : ∀ a, Triple (Q a) (f a) R E) :
    Triple P (x >>= f) R E := by
  intro state hP
  have hpost := hx state hP
  rw [run_bind]
  rcases hrun : x.run state with ⟨e | a, next⟩
  · rw [hrun] at hpost
    exact hpost
  · rw [hrun] at hpost
    exact hf a next hpost

/-- A first step that cannot fault. -/
theorem bind_certain (hx : Triple P x Q (fun _ _ => False))
    (hf : ∀ a, Triple (Q a) (f a) R E) : Triple P (x >>= f) R E :=
  bind (hx.imp_post (fun _ _ hq => hq) fun _ _ he => he.elim) hf

theorem ite {c : Prop} [Decidable c] {y : Action ε σ α}
    (hx : c → Triple P x Q E) (hy : ¬ c → Triple P y Q E) :
    Triple P (if c then x else y) Q E := by
  split
  · exact hx ‹_›
  · exact hy ‹_›

/-- Reading the state: the rest may use what is known of it. -/
theorem get_bind {f : σ → Action ε σ β}
    (h : ∀ state, P state → Triple (fun s => s = state) (f state) R E) :
    Triple P ((get : Action ε σ σ) >>= f) R E := by
  intro state hP
  rw [run_bind_ok (run_get state)]
  exact h state hP state rfl

/-- A precondition is shown for one state at a time. -/
theorem of_state (h : ∀ state, P state → Triple (fun s => s = state) x Q E) :
    Triple P x Q E :=
  fun state hP => h state hP state rfl

/-- What holds of a state is a precondition met there. -/
theorem at_state (h : Triple P x Q E) {state : σ} (hP : P state) :
    Triple (fun s => s = state) x Q E :=
  h.imp_pre fun _ heq => heq ▸ hP

/-- A first step whose run is known. -/
theorem bind_of_run {state next : σ} {a : α} (hrun : x.run state = (.ok a, next))
    (hf : Triple (fun s => s = next) (f a) R E) :
    Triple (fun s => s = state) (x >>= f) R E := by
  rintro _ rfl
  rw [run_bind_ok hrun]
  exact hf next rfl

/-- An action whose run is known. -/
theorem of_run {state next : σ} {a : α} (hrun : x.run state = (.ok a, next))
    (hQ : Q a next) : Triple (fun s => s = state) x Q E := by
  rintro _ rfl
  rw [hrun]
  exact hQ

/-- A checked computation whose value is known. -/
theorem lift_ok_bind {a : α} {f : α → Action ε σ β} (h : Triple P (f a) R E) :
    Triple P (Action.lift (.ok a) >>= f) R E := by
  intro state hP
  rw [run_bind_ok (run_lift _ state)]
  exact h state hP

theorem modify {g : σ → σ} {Q : PUnit → σ → Prop}
    (h : ∀ state, P state → Q PUnit.unit (g state)) :
    Triple P (modify g : Action ε σ PUnit) Q E := h

theorem lift {result : Checked ε α}
    (hok : ∀ a, result = .ok a → ∀ state, P state → Q a state)
    (herror : ∀ e, result = .error e → ∀ state, P state → E e state) :
    Triple P (Action.lift result) Q E := by
  intro state hP
  rw [run_lift]
  cases result with
  | ok a => exact hok a rfl state hP
  | error e => exact herror e rfl state hP

theorem fail {e : ε} (h : ∀ state, P state → E (.error e) state) :
    Triple P (Action.fail e : Action ε σ α) Q E := h

/-- An outcome that is handed on: what is known of it is known by its case. -/
theorem outcome (h : Triple P x Q E) :
    Triple P (Action.outcome x)
      (fun result state =>
        match result with
        | .ok a => Q a state
        | .error fault => E fault state) E := by
  intro state hP
  have hpost := h state hP
  rcases hrun : x.run state with ⟨fault | a, next⟩
  · rw [hrun] at hpost
    rw [run_outcome, hrun]
    cases fault <;> exact hpost
  · rw [hrun] at hpost
    rw [run_outcome, hrun]
    exact hpost

/-- An outcome that is handed on, of an action that cannot fault. -/
theorem outcome_ok (h : Triple P x Q (fun _ _ => False)) :
    Triple P (Action.outcome x)
      (fun result state => ∃ a, result = .ok a ∧ Q a state)
      (fun _ _ => False) := by
  refine h.outcome.imp_post (fun result state hpost => ?_) fun _ _ h => h
  cases result with
  | ok a => exact ⟨a, rfl, hpost⟩
  | error fault => exact hpost.elim

/-- An outcome that is handed on, of an action whose faults are errors. -/
theorem outcome_reported {F : ε → σ → Prop}
    (h : Triple P x Q (fun fault state => ∃ e, fault = .error e ∧ F e state)) :
    Triple P (Action.outcome x)
      (fun result state => (∃ a, result = .ok a ∧ Q a state) ∨
        ∃ e, result = .error (.error e) ∧ F e state)
      (fun _ _ => False) := by
  intro state hP
  have hpost := h state hP
  rcases hrun : x.run state with ⟨fault | a, next⟩
  · rw [hrun] at hpost
    obtain ⟨e, rfl, he⟩ := hpost
    rw [run_outcome_error hrun]
    exact .inr ⟨e, rfl, he⟩
  · rw [hrun] at hpost
    rw [run_outcome_ok hrun]
    exact .inl ⟨a, rfl, hpost⟩

/-- What holds however an action ends holds when its outcome is handed on. -/
theorem outcome_any {R : σ → Prop} (h : Triple P x (fun _ => R) (fun _ => R)) :
    Triple P (Action.outcome x) (fun _ => R) (fun _ => R) := by
  refine h.outcome.imp_post (fun result state hpost => ?_) fun _ _ h => h
  cases result with
  | ok a => exact hpost
  | error fault => exact hpost

/-- An action on a part of the state. -/
theorem zoom {get : σ → τ} {set : σ → τ → σ} {y : Action ε τ α} {P : σ → Prop}
    (h : ∀ state, P state → Triple (fun s => s = get state) y
      (fun a part => Q a (set state part)) (fun e part => E e (set state part))) :
    Triple P (Action.zoom get set y) Q E := by
  intro state hP
  have hpost := h state hP (get state) rfl
  rw [run_zoom]
  rcases hrun : y.run (get state) with ⟨e | a, part⟩
  · rw [hrun] at hpost
    exact hpost
  · rw [hrun] at hpost
    exact hpost

end Triple

/-! ## Invariants -/

/-- The action keeps `I`, however it ends. -/
def Keeps (I : σ → Prop) (x : Action ε σ α) : Prop :=
  Triple I x (fun _ => I) (fun _ => I)

section Keeps

variable {I : σ → Prop} {x : Action ε σ α} {f : α → Action ε σ β}

theorem Keeps.state (h : Keeps I x) {state : σ} (hI : I state) :
    I (x.run state).2 := by
  have hpost := h state hI
  rcases hrun : x.run state with ⟨_ | _, next⟩ <;>
    (rw [hrun] at hpost; exact hpost)

theorem Keeps.bind (hx : Keeps I x) (hf : ∀ a, Keeps I (f a)) :
    Keeps I (x >>= f) :=
  Triple.bind hx hf

theorem keeps_pure (a : α) : Keeps I (pure a : Action ε σ α) :=
  Triple.pure fun _ h => h

theorem keeps_lift (result : Checked ε α) :
    Keeps I (lift result : Action ε σ α) :=
  Triple.lift (fun _ _ _ h => h) fun _ _ _ h => h

theorem Keeps.attempt (h : Keeps I x) : Keeps I (attempt x) := by
  intro state hI
  rw [run_attempt]
  exact h.state hI

theorem Keeps.of_state (h : ∀ state, I state → I (x.run state).2) :
    Keeps I x := by
  intro state hI
  have hstate := h state hI
  rcases hrun : x.run state with ⟨_ | _, next⟩ <;>
    (rw [hrun] at hstate; exact hstate)

theorem Keeps.outcome (h : Keeps I x) : Keeps I (outcome x) :=
  Triple.outcome_any h

theorem Keeps.map (h : Keeps I x) (f : α → β) : Keeps I (f <$> x) := by
  refine Keeps.of_state fun state hI => ?_
  rw [run_map]
  exact h.state hI

theorem keeps_fail (e : ε) : Keeps I (fail e : Action ε σ α) :=
  keeps_lift _

/-- An action on a part of the state keeps what it keeps of that part. -/
theorem Keeps.zoom {I : τ → Prop} {get : σ → τ} {set : σ → τ → σ}
    {y : Action ε τ α} (h : Keeps I y)
    (hset : ∀ state part, get (set state part) = part) :
    Keeps (fun state => I (get state)) (Action.zoom get set y) := by
  refine Keeps.of_state fun state hI => ?_
  rw [run_zoom]
  dsimp only
  rw [hset]
  exact h.state hI

theorem keeps_ite {c : Prop} [Decidable c] {y : Action ε σ α}
    (hx : Keeps I x) (hy : Keeps I y) : Keeps I (if c then x else y) :=
  Triple.ite (fun _ => hx) fun _ => hy

theorem keeps_modify {g : σ → σ} (h : ∀ state, I state → I (g state)) :
    Keeps I (modify g : Action ε σ PUnit) :=
  Triple.modify h

theorem Keeps.get_bind {f : σ → Action ε σ β} (h : ∀ state, Keeps I (f state)) :
    Keeps I ((get : Action ε σ σ) >>= f) :=
  Triple.get_bind fun state hI => (h state).imp_pre fun _ heq => heq ▸ hI

/-- An invariant that does not see the part of the state an action works on. -/
theorem keeps_zoom {get : σ → τ} {set : σ → τ → σ} {y : Action ε τ α}
    (h : ∀ state part, I state → I (set state part)) :
    Keeps I (zoom get set y) := by
  intro state hI
  rw [run_zoom]
  rcases y.run (get state) with ⟨_ | _, part⟩
  · exact h state part hI
  · exact h state part hI

end Keeps

end Ioscpp.Support.Action
