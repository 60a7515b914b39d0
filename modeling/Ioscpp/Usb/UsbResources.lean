import Ioscpp.Usb.UsbHeld

/-!
# Programs with USB transports

Over any sequence of calls on any number of transports the log of `libusb` is lawful,
and what is still held is exactly what the transports that are left hold
(`books_runAll`).  The calls that one transport makes are balanced by themselves
(`UsbHeld`); here the transports come and go, and each keeps a context of its own.

## Main results

- `Good.perform`: one call keeps what is held in step with the transports.
- `books_runAll`: any sequence of calls does.
-/

namespace Ioscpp.Usb

open Ioscpp.Support
open Ioscpp.Support.Action

/-! ## Runs -/

/-- The transports of a program, in its variables. -/
abbrev Slots := Nat → Option Impl

/-- What a program asks for.  `openTo` moves what was opened into a variable, and
`move` what another one has; what the variable had before is destroyed.

A variable without a transport is one that nothing was opened into, or that was moved
from.  `transfer` and `close` do nothing on it here; in the source both go through the
null pointer that the move left, so a program that asks for them has no behaviour that
the model could show, and makes no call of `libusb`. -/
inductive Call where
  | isPresent (id : DeviceId)
  | list
  | openTo (slot : Nat) (id : DeviceId)
  | transfer (slot : Nat)
  | close (slot : Nat)
  | move (source target : Nat)
  | destroy (slot : Nat)

/-- The end of what a variable had. -/
def dropped {δ : Type} (held : Option Impl) (log : Log δ) : Log δ :=
  match held with
  | none => log
  | some impl => ((destroy impl).run log).2

section Runs

variable {δ : Type} (usb : Libusb δ)

def perform : Call → Slots × Log δ → Slots × Log δ
  | .isPresent id, (slots, log) => (slots, ((isPresent usb id).run log).2)
  | .list, (slots, log) => (slots, ((list usb).run log).2)
  | .openTo slot id, (slots, log) =>
      match (openTransport usb id).run log with
      | (.ok impl, next) =>
          (Function.update slots slot (some impl), dropped (slots slot) next)
      | (.error _, next) => (slots, next)
  | .transfer slot, (slots, log) =>
      match slots slot with
      | none => (slots, log)
      | some impl => (slots, ((transfer impl).run log).2)
  | .close slot, (slots, log) =>
      match slots slot with
      | none => (slots, log)
      | some impl =>
          match (close impl).run log with
          | (.ok closed, next) => (Function.update slots slot (some closed), next)
          | (.error _, next) => (slots, next)
  | .move source target, (slots, log) =>
      if source = target then (slots, log)
      else (Function.update (Function.update slots target (slots source)) source none,
        dropped (slots target) log)
  | .destroy slot, (slots, log) =>
      (Function.update slots slot none, dropped (slots slot) log)

def runAll : List Call → Slots × Log δ → Slots × Log δ
  | [], state => state
  | call :: rest, state => runAll rest (perform usb call state)

/-- A transfer is asked of a transport that is open: one that was opened, not moved
from, and not closed since. -/
def Call.Proper (slots : Slots) : Call → Prop
  | .transfer slot => ∃ impl, slots slot = some impl ∧ impl.handle ≠ none
  | _ => True

/-- Every transfer of a run is asked of a transport that is open then. -/
def CarefulRun : List Call → Slots × Log δ → Prop
  | [], _ => True
  | call :: rest, state => call.Proper state.1 ∧ CarefulRun rest (perform usb call state)

/-- What is held is what the transports hold, each of a context of its own. -/
structure Matches (ledger : Nat → Option Hold) (slots : Slots) : Prop where
  held : ∀ context hold, ledger context = some hold ↔
    ∃ slot impl, slots slot = some impl ∧ impl.context = some context ∧
      impl.hold = hold
  apart : ∀ slot other impl impl', slots slot = some impl → slots other = some impl' →
    impl.context = impl'.context → slot = other
  named : ∀ slot impl, slots slot = some impl → ∃ context, impl.Of context

section Matches

variable {ledger : Nat → Option Hold} {slots : Slots} {slot other context : Nat}
  {impl next : Impl}

theorem Matches.ledger_eq (h : Matches ledger slots) (hslot : slots slot = some impl)
    (hof : impl.Of context) : ledger context = some impl.hold :=
  (h.held context impl.hold).mpr ⟨slot, impl, hslot, hof.context_eq, rfl⟩

/-- Nothing else is of the context of a transport. -/
theorem Matches.context_ne (h : Matches ledger slots) (hslot : slots slot = some impl)
    (hof : impl.Of context) (hother : slots other = some next) (hne : other ≠ slot) :
    next.context ≠ some context := fun hcontext =>
  hne (h.apart other slot next impl hother hslot (hcontext.trans hof.context_eq.symm))

/-- What a variable has is replaced by a transport of the same context, which no
other variable has, or by none. -/
theorem Matches.replace (h : Matches ledger slots) {held : Option Impl}
    (hnew : ∀ next, held = some next → next.Of context)
    (hold : ∀ impl, slots slot = some impl → impl.Of context)
    (hothers : ∀ other impl, slots other = some impl → other ≠ slot →
      impl.context ≠ some context) :
    Matches (Function.update ledger context (held.map Impl.hold))
      (Function.update slots slot held) := by
  have hcases : ∀ other impl, Function.update slots slot held other = some impl ↔
      other = slot ∧ held = some impl ∨ other ≠ slot ∧ slots other = some impl := by
    intro other impl
    by_cases hother : other = slot
    · simp [hother]
    · simp [hother]
  have hkept : ∀ other impl, slots other = some impl →
      impl.context ≠ some context → other ≠ slot := by
    rintro other impl himpl hne rfl
    exact hne (hold impl himpl).context_eq
  constructor
  · intro name hold'
    by_cases hname : name = context
    · subst hname
      rw [Function.update_self, Option.map_eq_some_iff]
      constructor
      · rintro ⟨next, hnext, hhold⟩
        exact ⟨slot, next, (hcases slot next).mpr (.inl ⟨rfl, hnext⟩),
          (hnew next hnext).context_eq, hhold⟩
      · rintro ⟨other, impl, himpl, hcontext, hhold⟩
        rcases (hcases other impl).mp himpl with ⟨-, hheld⟩ | ⟨hother, himpl⟩
        · exact ⟨impl, hheld, hhold⟩
        · exact absurd hcontext (hothers other impl himpl hother)
    · rw [Function.update_of_ne hname, h.held]
      constructor
      · rintro ⟨other, impl, himpl, hcontext, hhold⟩
        have hne : impl.context ≠ some context := by
          rw [hcontext]
          exact fun heq => hname (Option.some.inj heq)
        exact ⟨other, impl, (hcases other impl).mpr
          (.inr ⟨hkept other impl himpl hne, himpl⟩), hcontext, hhold⟩
      · rintro ⟨other, impl, himpl, hcontext, hhold⟩
        rcases (hcases other impl).mp himpl with ⟨-, hheld⟩ | ⟨-, himpl⟩
        · rw [(hnew impl hheld).context_eq] at hcontext
          exact absurd (Option.some.inj hcontext).symm hname
        · exact ⟨other, impl, himpl, hcontext, hhold⟩
  · intro first second impl impl' hfirst hsecond heq
    rcases (hcases first impl).mp hfirst with ⟨h1, hheld⟩ | ⟨h1, himpl⟩ <;>
      rcases (hcases second impl').mp hsecond with ⟨h2, hheld'⟩ | ⟨h2, himpl'⟩
    · rw [h1, h2]
    · rw [(hnew impl hheld).context_eq] at heq
      exact absurd heq.symm (hothers second impl' himpl' h2)
    · rw [(hnew impl' hheld').context_eq] at heq
      exact absurd heq (hothers first impl himpl h1)
    · exact h.apart first second impl impl' himpl himpl' heq
  · intro other impl himpl
    rcases (hcases other impl).mp himpl with ⟨-, hheld⟩ | ⟨-, himpl⟩
    · exact ⟨context, hnew impl hheld⟩
    · exact h.named other impl himpl

/-- A transport that is moved is in another variable, which had none. -/
theorem Matches.move (h : Matches ledger slots) {source target : Nat}
    (hne : source ≠ target) (htarget : slots target = none) :
    Matches ledger (Function.update (Function.update slots target (slots source))
      source none) := by
  -- the variable that has what this one had before
  let back : Nat → Nat := fun other => if other = target then source else other
  have hcases : ∀ other impl,
      Function.update (Function.update slots target (slots source)) source none other =
        some impl ↔ other ≠ source ∧ slots (back other) = some impl := by
    intro other impl
    by_cases hsource : other = source
    · simp [hsource]
    · by_cases hother : other = target
      · simp [back, hother, Ne.symm hne]
      · simp [back, hsource, hother]
  have hback : ∀ other impl, slots other = some impl →
      ∃ moved, moved ≠ source ∧ back moved = other := by
    intro other impl himpl
    by_cases hsource : other = source
    · exact ⟨target, Ne.symm hne, by simp [back, hsource]⟩
    · have hother : other ≠ target := by
        rintro rfl
        rw [htarget] at himpl
        cases himpl
      exact ⟨other, hsource, by simp [back, hother]⟩
  constructor
  · intro context hold
    rw [h.held]
    constructor
    · rintro ⟨other, impl, himpl, hrest⟩
      obtain ⟨moved, hmoved, rfl⟩ := hback other impl himpl
      exact ⟨moved, impl, (hcases moved impl).mpr ⟨hmoved, himpl⟩, hrest⟩
    · rintro ⟨other, impl, himpl, hrest⟩
      exact ⟨back other, impl, ((hcases other impl).mp himpl).2, hrest⟩
  · intro first second impl impl' hfirst hsecond heq
    obtain ⟨h1, hfirst⟩ := (hcases first impl).mp hfirst
    obtain ⟨h2, hsecond⟩ := (hcases second impl').mp hsecond
    have hsame := h.apart _ _ impl impl' hfirst hsecond heq
    by_cases h3 : first = target <;> by_cases h4 : second = target <;>
      simp only [back, h3, h4, if_true, if_false] at hsame
    · rw [h3, h4]
    · exact absurd hsame.symm h2
    · exact absurd hsame h1
    · exact hsame
  · intro other impl himpl
    exact h.named _ impl ((hcases other impl).mp himpl).2

end Matches

/-- A state of a run. -/
def Good (state : Slots × Log δ) : Prop :=
  ∃ ledger, Stands ledger state.2 ∧ Matches ledger state.1

section Steps

variable {ledger : Nat → Option Hold} {slots : Slots} {slot context : Nat} {log : Log δ}

/-- The ledger but for a transport. -/
theorem Stands.at_slot {impl : Impl} (h : Stands ledger log)
    (hslot : ledger context = some impl.hold) :
    At (Function.update ledger context none) context impl.hold log := by
  rw [At, Function.update_idem, ← hslot, Function.update_eq_self]
  exact h

/-- A transport ends, and nothing is held of its context any more. -/
theorem Stands.dropped {impl : Impl} (h : Stands ledger log) (hof : impl.Of context)
    (hledger : ledger context = some impl.hold) :
    Stands (Function.update ledger context none) (dropped (some impl) log) := by
  have hfree : Function.update ledger context none context = none :=
    Function.update_self ..
  obtain ⟨_, next, hrun, hnext⟩ :=
    (triple_destroy (E := fun _ _ => False) hof hfree).exists_ok (h.at_slot hledger)
  change Stands _ ((destroy impl).run log).2
  rw [hrun]
  exact hnext

theorem Matches.clear {impl : Impl} (h : Matches ledger slots)
    (hslot : slots slot = some impl) (hof : impl.Of context) :
    Matches (Function.update ledger context none) (Function.update slots slot none) := by
  have hnone : ∀ next, (none : Option Impl) = some next → next.Of context :=
    fun next hnext => nomatch hnext
  refine h.replace hnone (fun other hother => ?_)
    fun other next hnext hne => h.context_ne hslot hof hnext hne
  rw [hslot] at hother
  exact Option.some.inj hother ▸ hof

/-- What a variable had ends. -/
theorem Good.clear (hstands : Stands ledger log) (hmatches : Matches ledger slots)
    (slot : Nat) :
    ∃ after, Stands after (dropped (slots slot) log) ∧
      Matches after (Function.update slots slot none) := by
  cases hslot : slots slot with
  | none =>
      refine ⟨ledger, hstands, ?_⟩
      rwa [← hslot, Function.update_eq_self]
  | some impl =>
      obtain ⟨context, hof⟩ := hmatches.named slot impl hslot
      exact ⟨_, hstands.dropped hof (hmatches.ledger_eq hslot hof),
        hmatches.clear hslot hof⟩

/-- A transport of a new context is put into a variable, and what the variable had
ends. -/
theorem Good.put {impl : Impl} (hmatches : Matches ledger slots)
    (hfree : ledger context = none) (hof : impl.Of context)
    (hat : At ledger context impl.hold log) (slot : Nat) :
    Good (Function.update slots slot (some impl), dropped (slots slot) log) := by
  have hnew : ∀ next, some impl = some next → next.Of context :=
    fun next hnext => Option.some.inj hnext ▸ hof
  have hothers : ∀ other next, slots other = some next → other ≠ slot →
      next.context ≠ some context := by
    intro other next hnext _ hcontext
    have hheld := (hmatches.held context next.hold).mpr ⟨other, next, hnext, hcontext, rfl⟩
    rw [hfree] at hheld
    cases hheld
  cases hslot : slots slot with
  | none =>
      refine ⟨_, hat, hmatches.replace hnew (fun old hold => ?_) hothers⟩
      rw [hslot] at hold
      cases hold
  | some old =>
      obtain ⟨name, hname⟩ := hmatches.named slot old hslot
      have hledger := hmatches.ledger_eq hslot hname
      have hne : name ≠ context := by
        rintro rfl
        rw [hfree] at hledger
        cases hledger
      have hdropped := Stands.dropped hat hname
        ((Function.update_of_ne hne ..).trans hledger)
      rw [Function.update_comm (Ne.symm hne)] at hdropped
      have hempty : ∀ next, Function.update slots slot none slot = some next →
          next.Of context := by
        intro next hnext
        rw [Function.update_self] at hnext
        cases hnext
      have hput := (hmatches.clear hslot hname).replace hnew hempty
        fun other next hnext hother => hothers other next
          ((Function.update_of_ne hother ..).symm.trans hnext) hother
      rw [Function.update_idem] at hput
      exact ⟨_, hdropped, hput⟩

/-- A transfer leaves what is held as it is. -/
theorem Stands.transferred {impl : Impl} (hstands : Stands ledger log)
    (hof : impl.Of context) (hledger : ledger context = some impl.hold)
    (hopen : impl.handle ≠ none) : Stands ledger ((transfer impl).run log).2 := by
  obtain ⟨_, next, hrun, hnext⟩ :=
    (triple_transfer (E := fun _ _ => False) hof hopen).exists_ok
      (hstands.at_slot hledger)
  rw [At, Function.update_idem, ← hledger, Function.update_eq_self] at hnext
  rwa [hrun]

/-- A transport that is closed keeps its context. -/
theorem Good.close {impl : Impl} (hstands : Stands ledger log)
    (hmatches : Matches ledger slots) (hslot : slots slot = some impl) :
    ∃ closed next, (Usb.close impl).run log = (.ok closed, next) ∧
      Good (Function.update slots slot (some closed), next) := by
  obtain ⟨context, hof⟩ := hmatches.named slot impl hslot
  have hledger := hmatches.ledger_eq hslot hof
  obtain ⟨closed, next, hrun, hclosed, hnext⟩ :=
    (triple_close (E := fun _ _ => False) hof).exists_ok (hstands.at_slot hledger)
  rw [At, Function.update_idem] at hnext
  have hnew : ∀ other, some closed = some other → other.Of context :=
    fun other hother => Option.some.inj hother ▸ hclosed
  have hold : ∀ other, slots slot = some other → other.Of context := by
    intro other hother
    rw [hslot] at hother
    exact Option.some.inj hother ▸ hof
  exact ⟨closed, next, hrun, _, hnext, hmatches.replace hnew hold
    fun other next hother hne => hmatches.context_ne hslot hof hother hne⟩

/-- A call keeps what is held to what the transports hold: what it opened stands in a
variable, and what it dropped was given back. -/
theorem Good.perform {state : Slots × Log δ} (h : Good state) {call : Call}
    (hproper : call.Proper state.1) : Good (perform usb call state) := by
  obtain ⟨slots, log⟩ := state
  obtain ⟨ledger, hstands, hmatches⟩ := h
  cases call with
  | isPresent id => exact ⟨ledger, (keeps_isPresent usb id).state hstands, hmatches⟩
  | list => exact ⟨ledger, (keeps_list usb).state hstands, hmatches⟩
  | openTo slot id =>
      have hopen := triple_openTransport usb id log hstands
      rcases hrun : (openTransport usb id).run log with ⟨fault | impl, next⟩
      · rw [hrun] at hopen
        rw [Usb.perform, hrun]
        exact ⟨ledger, hopen, hmatches⟩
      · rw [hrun] at hopen
        rw [Usb.perform, hrun]
        obtain ⟨context, hfree, hof, hat⟩ := hopen
        exact Good.put hmatches hfree hof hat slot
  | transfer slot =>
      obtain ⟨impl, hslot, hopen⟩ := hproper
      obtain ⟨context, hof⟩ := hmatches.named slot impl hslot
      have hnext := hstands.transferred hof (hmatches.ledger_eq hslot hof) hopen
      rw [Usb.perform, show slots slot = some impl from hslot]
      exact ⟨ledger, hnext, hmatches⟩
  | close slot =>
      cases hslot : slots slot with
      | none =>
          rw [Usb.perform, hslot]
          exact ⟨ledger, hstands, hmatches⟩
      | some impl =>
          obtain ⟨closed, next, hrun, hnext⟩ := Good.close hstands hmatches hslot
          rw [Usb.perform, hslot]
          dsimp only
          rw [hrun]
          exact hnext
  | move source target =>
      rw [Usb.perform]
      split
      · exact ⟨ledger, hstands, hmatches⟩
      · rename_i hne
        obtain ⟨after, hafter, hmatches'⟩ := Good.clear hstands hmatches target
        have hmoved := hmatches'.move hne (Function.update_self ..)
        rw [Function.update_idem, Function.update_of_ne hne] at hmoved
        exact ⟨after, hafter, hmoved⟩
  | destroy slot =>
      exact Good.clear hstands hmatches slot

theorem Good.runAll {state : Slots × Log δ} (h : Good state) {calls : List Call}
    (hcareful : CarefulRun usb calls state) : Good (runAll usb calls state) := by
  induction calls generalizing state with
  | nil => exact h
  | cons call rest ih => exact ih (h.perform usb hcareful.1) hcareful.2

end Steps

/-- A program without transports. -/
def start {δ : Type} : Slots × Log δ := (fun _ => none, [])

theorem good_start : Good (start : Slots × Log δ) := by
  refine ⟨fun _ => none, ⟨books_nil, fun _ _ => rfl⟩, ?_, ?_, ?_⟩
  · intro context hold
    constructor
    · intro h
      cases h
    · rintro ⟨slot, impl, h, -⟩
      cases h
  · intro slot other impl impl' h
    cases h
  · intro slot impl h
    cases h

/-- However the calls on any number of transports follow one another, and whatever
`libusb` answers, every event of its log was allowed when it came: nothing is used
before it is taken or after it is given back, and nothing is given back twice.  What is
still held at the end is what the transports that are left hold. -/
theorem books_runAll {calls : List Call} (hcareful : CarefulRun usb calls start) :
    ∃ ledger, Books account none ledger (runAll usb calls start).2 ∧
      ∀ context hold, ledger context = some hold ↔
        ∃ slot impl, (runAll usb calls start).1 slot = some impl ∧
          impl.context = some context ∧ impl.hold = hold := by
  obtain ⟨ledger, hstands, hmatches⟩ := good_start.runAll usb hcareful
  exact ⟨ledger, hstands.1, hmatches.held⟩

end Runs

/-! ### A run -/

/-- A device with a mux interface, whose interface cannot be claimed at first. -/
private def busyUsb : Libusb Unit where
  linux := true
  strerror _ := []
  init _ := 0
  deviceList _ := .ok [()]
  deviceDescriptor _ _ := .ok ⟨0x05ac, 0x12a8, 3, 1⟩
  activeConfig _ _ := none
  config _ _ _ := some ⟨1, [⟨⟨0xff, 0xfe, 2, 1, [⟨0x85, 2⟩, ⟨4, 2⟩]⟩, []⟩]⟩
  configByValue _ _ _ := some ⟨1, [⟨⟨0xff, 0xfe, 2, 1, []⟩, []⟩]⟩
  openDevice _ _ := 0
  serialText _ _ _ := ascii "serial"
  configuration _ := some 0
  setConfiguration _ _ := 0
  kernelDriverActive _ _ := 1
  claimInterface log _ := if log.length < 30 then -6 else 0

/-- An attempt that fails, one that succeeds over it, transfers, and the end. -/
private def busyCalls : List Call :=
  [.openTo 0 {}, .openTo 0 {}, .transfer 0, .move 0 1, .transfer 1, .close 1, .destroy 1]

theorem books_runAll_busyUsb :
    ∃ ledger, Books account none ledger (runAll busyUsb busyCalls start).2 ∧
      ∀ context hold, ledger context = some hold ↔
        ∃ slot impl, (runAll busyUsb busyCalls start).1 slot = some impl ∧
          impl.context = some context ∧ impl.hold = hold := by
  refine books_runAll busyUsb ⟨trivial, trivial, ?_, trivial, ?_, trivial, trivial, trivial⟩
  · exact ⟨_, rfl, by decide +kernel⟩
  · exact ⟨_, rfl, by decide +kernel⟩

end Ioscpp.Usb
