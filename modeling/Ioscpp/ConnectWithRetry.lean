import Ioscpp.Error

/-!
# Connecting with retries

`connect_with_retry` opens a transport and connects over it, again and again up to
a number of attempts.  The transport that is open lives in a holder of the
caller, which may still hold a transport from before.  What the operating system
and the device do is a state of its own, on which the two callables act.

An attempt that cannot open a transport leaves the holder alone, so the holder is
empty after a failure exactly if it was before, or some attempt opened one.

## Main results

- `ends_retryLoop`: the loop ends as its attempts do.
- `holder_consistent_iff`: when the holder of the caller is consistent after the call.
-/

namespace Ioscpp

open Ioscpp.Support

/-- What a call acts on: the outside, the caller's holder, how often `open` was
called, and the delays in milliseconds. -/
structure Retry (σ τ : Type) where
  world : σ
  transport : Option τ
  opens : Nat := 0
  slept : List Int := []

/-- How an attempt ends: `open` fails, `connect` fails on the transport that was opened,
or both succeed. `connect` may change the transport it is given. -/
inductive Attempt (τ α : Type) where
  | notOpened (error : Error)
  | notConnected (error : Error)
  | connected (transport : τ) (value : α)

namespace Attempt

variable {τ α : Type}

def isConnected : Attempt τ α → Bool
  | connected _ _ => true
  | _ => false

/-- A transport was opened. -/
def isOpened : Attempt τ α → Bool
  | notOpened _ => false
  | _ => true

def result : Attempt τ α → Except Error α
  | notOpened error => .error error
  | notConnected error => .error error
  | connected _ value => .ok value

/-- The transport that connected. -/
def transport : Attempt τ α → Option τ
  | connected transport _ => some transport
  | _ => none

theorem transport_of_closed {attempt : Attempt τ α}
    (h : attempt.isOpened = false) : attempt.transport = none := by
  cases attempt with
  | notOpened => rfl
  | notConnected => cases h
  | connected => cases h

theorem transport_of_failed {attempt : Attempt τ α}
    (h : attempt.isConnected = false) : attempt.transport = none := by
  cases attempt with
  | notOpened => rfl
  | notConnected => rfl
  | connected => cases h

end Attempt

section Callables

variable {σ τ α : Type} (open' : σ → Except Error τ × σ)
variable (connect : τ → σ → Except Error α × τ × σ)

/-! ## The loop -/

/-- The delay before an attempt after the first. -/
def sleepBefore (backoff : Int) (attempt : Nat) (state : Retry σ τ) :
    Retry σ τ :=
  if 0 < attempt then
    { state with slept := state.slept ++ [backoff * 2 ^ min (attempt - 1) 20] }
  else state

/-- The attempts that are left, with the result of the last one. -/
def retryLoop (backoff : Int) : (left attempt : Nat) → Except Error α →
    Retry σ τ → Except Error α × Retry σ τ
  | 0, _, result, state => (result, state)
  | left + 1, attempt, _, state =>
      let state := sleepBefore backoff attempt state
      let state := { state with opens := state.opens + 1 }
      match open' state.world with
      | (.error error, world) =>
          retryLoop backoff left (attempt + 1) (.error error)
            { state with world := world }
      | (.ok opened, world) =>
          match connect opened world with
          | (.error error, _, world) =>
              retryLoop backoff left (attempt + 1) (.error error)
                { state with world := world, transport := none }
          | (.ok value, transport, world) =>
              (.ok value, { state with world, transport := some transport })

def connectWithRetry (attempts : Int) (backoff : Int) (state : Retry σ τ) :
    Except Error α × Retry σ τ :=
  retryLoop open' connect backoff attempts.toNat 0
    (.error ⟨.transport, ascii "the transport was not opened"⟩) state

/-! ## The attempts of a call -/

/-- One attempt, on the outside alone. -/
def attemptOnce (world : σ) : Attempt τ α × σ :=
  match open' world with
  | (.error error, world) => (.notOpened error, world)
  | (.ok opened, world) =>
      match connect opened world with
      | (.error error, _, world) => (.notConnected error, world)
      | (.ok value, transport, world) => (.connected transport value, world)

/-- The outcomes of so many attempts, were none of them the last. -/
def outcomes : Nat → σ → List (Attempt τ α)
  | 0, _ => []
  | count + 1, world =>
      (attemptOnce open' connect world).1 ::
        outcomes count (attemptOnce open' connect world).2

/-- The first attempt that connects, or else the last one. -/
def decisive (script : List (Attempt τ α)) : Option (Attempt τ α) :=
  (script.find? Attempt.isConnected).or script.getLast?

theorem mem_of_decisive {script : List (Attempt τ α)} {attempt : Attempt τ α}
    (h : decisive script = some attempt) : attempt ∈ script := by
  unfold decisive at h
  rcases hfind : script.find? Attempt.isConnected with _ | found
  · rw [hfind] at h
    exact List.mem_of_getLast? h
  · rw [hfind] at h
    obtain rfl : found = attempt := Option.some.inj h
    exact List.mem_of_find?_eq_some hfind

theorem eq_nil_of_decisive {script : List (Attempt τ α)}
    (h : decisive script = none) : script = [] := by
  unfold decisive at h
  rw [Option.or_eq_none_iff] at h
  exact List.getLast?_eq_none_iff.mp h.2

/-- If no attempt opens a transport, the decisive one does not. -/
theorem closed_of_any {script : List (Attempt τ α)} {attempt : Attempt τ α}
    (hany : script.any Attempt.isOpened = false)
    (h : decisive script = some attempt) : attempt.isOpened = false := by
  rw [List.any_eq_false] at hany
  exact Bool.eq_false_iff.mpr (hany attempt (mem_of_decisive h))

theorem decisive_cons_connected {attempt : Attempt τ α}
    (h : attempt.isConnected = true) (rest : List (Attempt τ α)) :
    decisive (attempt :: rest) = some attempt := by
  unfold decisive
  rw [List.find?_cons_of_pos h]
  rfl

theorem decisive_cons_failed {attempt : Attempt τ α}
    (h : attempt.isConnected = false) (rest : List (Attempt τ α)) :
    decisive (attempt :: rest) = (decisive rest).or (some attempt) := by
  unfold decisive
  rw [List.find?_cons_of_neg (by rw [h]; exact Bool.false_ne_true),
    List.getLast?_cons]
  cases rest.find? Attempt.isConnected with
  | some found => rfl
  | none =>
      cases rest.getLast? with
      | none => rfl
      | some last => rfl

/-- How the run of a loop ends, by the outcomes of its attempts. -/
structure Ends (script : List (Attempt τ α)) (start : Retry σ τ)
    (result : Except Error α) (run : Except Error α × Retry σ τ) : Prop where
  opens : run.2.opens =
    start.opens + min script.length (script.findIdx Attempt.isConnected + 1)
  result : run.1 = ((decisive script).map Attempt.result).getD result
  transport : run.2.transport =
    if script.any Attempt.isOpened then (decisive script).bind Attempt.transport
    else start.transport

section Ends

variable {script : List (Attempt τ α)} {start : Retry σ τ}
variable {attempt : Attempt τ α} {result : Except Error α}
variable {run : Except Error α × Retry σ τ}

/-- An attempt that connects is the last. -/
theorem Ends.connected {transport : τ} {value : α} {world : σ}
    (rest : List (Attempt τ α)) (slept : List Int) :
    Ends (.connected transport value :: rest) start result
      (.ok value, ⟨world, some transport, start.opens + 1, slept⟩) where
  opens := by
    rw [List.findIdx_cons, List.length_cons]
    show start.opens + 1 = start.opens + min (rest.length + 1) (0 + 1)
    omega
  result := by
    rw [decisive_cons_connected rfl]
    rfl
  transport := by
    rw [decisive_cons_connected rfl, List.any_cons]
    rfl

/-- An attempt that fails hands its error and its holder on. -/
theorem Ends.failed {next : Retry σ τ} (h : Ends script next attempt.result run)
    (hfailed : attempt.isConnected = false)
    (hopens : next.opens = start.opens + 1)
    (htransport : next.transport =
      if attempt.isOpened then none else start.transport) :
    Ends (attempt :: script) start result run where
  opens := by
    rw [h.opens, hopens, List.findIdx_cons, hfailed, List.length_cons]
    show _ = start.opens + min (script.length + 1)
      (script.findIdx Attempt.isConnected + 1 + 1)
    omega
  result := by
    rw [h.result, decisive_cons_failed hfailed]
    cases decisive script with
    | none => rfl
    | some last => rfl
  transport := by
    have hnone := Attempt.transport_of_failed hfailed
    rw [h.transport, htransport, decisive_cons_failed hfailed, List.any_cons]
    rcases hlast : decisive script with _ | last
    · show (if _ then none else _) = if _ then attempt.transport else _
      rw [hnone]
      cases script.any Attempt.isOpened <;> cases attempt.isOpened <;> rfl
    · show (if _ then last.transport else _) = if _ then last.transport else _
      rcases hany : script.any Attempt.isOpened with _ | _
      · -- the later attempts open nothing, so the last of them connects nothing
        have hclosed := closed_of_any hany hlast
        rw [Attempt.transport_of_closed hclosed]
        cases attempt.isOpened <;> rfl
      · rw [Bool.or_true]
        rfl

end Ends

/-- The loop ends as its attempts do: with the first that connects, or with the error of
the last one when none does, after the delays between them. -/
theorem ends_retryLoop (backoff : Int) (left attempt : Nat)
    (result : Except Error α) (state : Retry σ τ) :
    Ends (outcomes open' connect left state.world) state result
      (retryLoop open' connect backoff left attempt result state) := by
  induction left generalizing attempt result state with
  | zero => exact ⟨rfl, rfl, rfl⟩
  | succ left ih =>
      have hworld : (sleepBefore backoff attempt state).world = state.world := by
        unfold sleepBefore
        split <;> rfl
      have hopens : (sleepBefore backoff attempt state).opens = state.opens := by
        unfold sleepBefore
        split <;> rfl
      have hheld : (sleepBefore backoff attempt state).transport =
          state.transport := by
        unfold sleepBefore
        split <;> rfl
      unfold outcomes retryLoop attemptOnce
      dsimp only
      rw [hworld]
      rcases hopen : open' state.world with ⟨error | opened, world⟩
      · have hrest := ih (attempt + 1) (.error error)
          { sleepBefore backoff attempt state with
            world := world
            opens := (sleepBefore backoff attempt state).opens + 1 }
        exact Ends.failed hrest rfl (congrArg (· + 1) hopens) hheld
      · dsimp only
        rcases hconnect : connect opened world with ⟨error | value, transport, next⟩
        · have hrest := ih (attempt + 1) (.error error)
            { sleepBefore backoff attempt state with
              world := next
              transport := none
              opens := (sleepBefore backoff attempt state).opens + 1 }
          exact Ends.failed hrest rfl (congrArg (· + 1) hopens) rfl
        · dsimp only
          rw [hopens]
          exact Ends.connected _ _

/-! ## The holder -/

/-- The call makes the attempts up to the first that connects, returns its result
or else the last error, and leaves in the holder what connected or nothing.  Of no
attempts nothing is said but that nothing is opened. -/
structure Consistent (script : List (Attempt τ α)) (opens : Nat)
    (run : Except Error α × Retry σ τ) : Prop where
  opens : run.2.opens =
    opens + min script.length (script.findIdx Attempt.isConnected + 1)
  result : ∀ attempt, decisive script = some attempt → run.1 = attempt.result
  transport : ∀ attempt, decisive script = some attempt →
    run.2.transport = attempt.transport

/-- The holder was empty before the call, no attempt is made, or some attempt
opens a transport. -/
def Emptied (script : List (Attempt τ α)) (transport : Option τ) : Prop :=
  transport = none ∨ script = [] ∨ ∃ attempt ∈ script, attempt.isOpened = true

/-- Whatever the two callables do, the holder is consistent after the call exactly if it
was empty before it, no attempt is made, or some attempt opens a transport: an attempt
that opens none leaves what it finds. -/
theorem holder_consistent_iff (attempts backoff : Int) (state : Retry σ τ) :
    Consistent (outcomes open' connect attempts.toNat state.world) state.opens
        (connectWithRetry open' connect attempts backoff state) ↔
      Emptied (outcomes open' connect attempts.toNat state.world)
        state.transport := by
  have hends : Ends _ _ _ (connectWithRetry open' connect attempts backoff state) :=
    ends_retryLoop open' connect backoff attempts.toNat 0 _ state
  generalize outcomes open' connect attempts.toNat state.world = script at *
  constructor
  · intro hconsistent
    rcases hany : script.any Attempt.isOpened with _ | _
    · have hheld := hends.transport
      rw [hany] at hheld
      rcases hlast : decisive script with _ | last
      · exact .inr (.inl (eq_nil_of_decisive hlast))
      · left
        have hclosed := closed_of_any hany hlast
        have htransport := hconsistent.transport last hlast
        rw [Attempt.transport_of_closed hclosed] at htransport
        exact hheld.symm.trans htransport
    · exact .inr (.inr (List.any_eq_true.mp hany))
  · intro hemptied
    refine ⟨hends.opens, ?_, ?_⟩
    · intro attempt hattempt
      rw [hends.result, hattempt]
      rfl
    · intro attempt hattempt
      rw [hends.transport, hattempt]
      rcases hany : script.any Attempt.isOpened with _ | _
      · have hclosed := closed_of_any hany hattempt
        rw [Attempt.transport_of_closed hclosed]
        rcases hemptied with hempty | rfl | ⟨opened, hmem, hopened⟩
        · exact hempty
        · cases hattempt
        · rw [List.any_eq_false] at hany
          exact absurd hopened (hany opened hmem)
      · rfl

end Callables

/-- The error of a device that is gone. -/
private def gone : Error := ⟨.transport, ascii "the device was not found"⟩

/-- The one attempt finds no device, and the holder keeps the transport of the
link that was dropped. -/
theorem not_holder_consistent_gone :
    outcomes (σ := Unit) (τ := Nat) (α := Unit) (fun _ => (.error gone, ()))
        (fun transport _ => (.ok (), transport, ())) 1 () = [.notOpened gone] ∧
      connectWithRetry (σ := Unit) (τ := Nat) (α := Unit)
        (fun _ => (.error gone, ())) (fun transport _ => (.ok (), transport, ()))
        1 250 { world := (), transport := some 7 } =
      (.error gone, { world := (), transport := some 7, opens := 1 }) :=
  ⟨rfl, rfl⟩

end Ioscpp
