import Ioscpp.Crypto.Pair
import Ioscpp.Usbmuxd

/-!
# Pairing over a byte stream

However `lockdownd` is reached, a run of `pair` is the run with the answers that its
requests lead to (`mirrors_pair`).  A request over a byte stream that neither faults
nor throws always leads to one (`answers_byteStream`).

## Main results

- `mirrors_pair`: a run of `pair` over a stream is the run with the answers of its
  requests.
- `exists_answers_paired_of_error_iff`: so what decides on an error of `pair` are the
  device's answers.
-/

namespace Ioscpp.Crypto

open Ioscpp.Support
open Ioscpp.Protocol

/-- Every request ends in an answer or in an error of its own. -/
def Answers (σ : Type) [LockdownRequests σ] : Prop :=
  ∀ message (lockdown : σ),
    Settled ((LockdownRequests.request message).run lockdown).1

/-- For some answers, whatever comes behind them, the scripted operation ends as
the other does and leaves what is behind the answers. -/
def Mirrors {σ τ α : Type} (x : Action Error (σ × τ) α)
    (y : Action Error (ScriptedLockdown × τ) α) : Prop :=
  ∀ lockdown host, ∃ answers, ∀ rest exchanges, ∃ exchanges',
    y.run (({ answers := answers ++ rest, exchanges } : ScriptedLockdown), host) =
      ((x.run (lockdown, host)).1,
        ({ answers := rest, exchanges := exchanges' } : ScriptedLockdown),
        (x.run (lockdown, host)).2.2)

namespace Mirrors

variable {σ τ α β : Type} {x : Action Error (σ × τ) α}
  {y : Action Error (ScriptedLockdown × τ) α}

theorem lift (result : Result α) :
    Mirrors (Action.lift result : Action Error (σ × τ) α) (Action.lift result) :=
  fun _ _ => ⟨[], fun _ exchanges => ⟨exchanges, rfl⟩⟩

theorem modify (f : τ → τ) :
    Mirrors (modify fun state => (state.1, f state.2) : Action Error (σ × τ) PUnit)
      (modify fun state => (state.1, f state.2)) :=
  fun _ _ => ⟨[], fun _ exchanges => ⟨exchanges, rfl⟩⟩

theorem bind {f : α → Action Error (σ × τ) β}
    {g : α → Action Error (ScriptedLockdown × τ) β} (h : Mirrors x y)
    (hf : ∀ a, Mirrors (f a) (g a)) : Mirrors (x >>= f) (y >>= g) := by
  intro lockdown host
  obtain ⟨first, hfirst⟩ := h lockdown host
  rcases hrun : x.run (lockdown, host) with ⟨fault | a, lockdown', host'⟩
  · refine ⟨first, fun rest exchanges => ?_⟩
    obtain ⟨exchanges', hy⟩ := hfirst rest exchanges
    rw [hrun] at hy
    refine ⟨exchanges', ?_⟩
    rw [Action.run_bind_error hrun, Action.run_bind_error hy]
  · obtain ⟨second, hsecond⟩ := hf a lockdown' host'
    refine ⟨first ++ second, fun rest exchanges => ?_⟩
    obtain ⟨exchanges', hy⟩ := hfirst (second ++ rest) exchanges
    obtain ⟨exchanges'', hg⟩ := hsecond rest exchanges'
    rw [hrun] at hy
    refine ⟨exchanges'', ?_⟩
    rw [Action.run_bind_ok hrun, List.append_assoc, Action.run_bind_ok hy, hg]

/-- What is read of the state is the part of the host. -/
theorem get_bind {f : τ → Action Error (σ × τ) β}
    {g : τ → Action Error (ScriptedLockdown × τ) β}
    (h : ∀ host, Mirrors (f host) (g host)) :
    Mirrors ((get : Action Error (σ × τ) _) >>= fun state => f state.2)
      ((get : Action Error (ScriptedLockdown × τ) _) >>= fun state =>
        g state.2) :=
  fun lockdown host => h host lockdown host

theorem outcome (h : Mirrors x y) :
    Mirrors (Action.outcome x) (Action.outcome y) := by
  intro lockdown host
  obtain ⟨answers, hanswers⟩ := h lockdown host
  refine ⟨answers, fun rest exchanges => ?_⟩
  obtain ⟨exchanges', hy⟩ := hanswers rest exchanges
  refine ⟨exchanges', ?_⟩
  rw [Action.run_outcome, Action.run_outcome, hy]
  rcases x.run (lockdown, host) with ⟨fault | a, next⟩
  · cases fault with
    | error error => rfl
    | outOfBounds => rfl
    | exception => rfl
    | outOfFuel => rfl
  · rfl

theorem ite {c : Prop} [Decidable c] {x' : Action Error (σ × τ) α}
    {y' : Action Error (ScriptedLockdown × τ) α} (h : Mirrors x y)
    (h' : Mirrors x' y') :
    Mirrors (if c then x else x') (if c then y else y') := by
  split
  · exact h
  · exact h'

end Mirrors

/-! ## Pairing -/

section OnLockdown

variable {σ τ α β : Type} (x : Action Error σ α)

theorem onLockdown_bind (f : α → Action Error σ β) :
    (onLockdown (x >>= f) : Action Error (σ × τ) β) =
      onLockdown x >>= fun a => onLockdown (f a) := by
  funext state
  show (onLockdown (x >>= f)).run state = (onLockdown x >>= _).run state
  unfold onLockdown
  rw [Action.run_zoom, Action.run_bind, Action.run_bind, Action.run_zoom]
  rcases x.run state.1 with ⟨fault | a, next⟩
  · rfl
  · rfl

theorem onLockdown_outcome :
    (onLockdown (Action.outcome x) : Action Error (σ × τ) _) =
      Action.outcome (onLockdown x) := by
  funext state
  show (onLockdown (Action.outcome x)).run state =
    (Action.outcome (onLockdown x)).run state
  unfold onLockdown
  rw [Action.run_zoom, Action.run_outcome, Action.run_outcome, Action.run_zoom]
  rcases x.run state.1 with ⟨fault | a, next⟩
  · cases fault with
    | error error => rfl
    | outOfBounds => rfl
    | exception => rfl
    | outOfFuel => rfl
  · rfl

end OnLockdown

/-- The end of `pair` asks for nothing. -/
theorem mirrors_takeAnswer {σ : Type} (answer : Plist) :
    Mirrors (takeAnswer answer : Action Error (σ × Pairing) Unit)
      (takeAnswer answer) := by
  apply (Mirrors.modify _).bind
  intro _
  apply Mirrors.get_bind (f := requireCertificate) (g := requireCertificate)
  intro pairing
  exact Mirrors.ite (Mirrors.lift _) (Mirrors.lift _)

section Pair

variable {σ τ : Type} [LockdownRequests σ] (hanswers : Answers σ)

include hanswers

theorem mirrors_request (message : Plist) :
    Mirrors
      (onLockdown (LockdownRequests.request message) : Action Error (σ × τ) Plist)
      (onLockdown (LockdownRequests.request message)) := by
  intro lockdown host
  have hrun : ∃ answer, ((LockdownRequests.request message).run lockdown).1 =
      ofExcept answer := by
    rcases hanswers message lockdown with ⟨answer, h⟩ | ⟨error, h⟩
    · exact ⟨.ok answer, h⟩
    · exact ⟨.error error, h⟩
  obtain ⟨answer, hanswer⟩ := hrun
  refine ⟨[answer], fun rest exchanges => ⟨exchanges ++ [(message, answer)], ?_⟩⟩
  unfold onLockdown
  rw [Action.run_zoom, Action.run_zoom, hanswer]
  rfl

theorem mirrors_pairLoop (message : Plist) (beforeDeadline : Nat) :
    Mirrors
      (onLockdown (pairLoop message beforeDeadline) : Action Error (σ × τ) Plist)
      (onLockdown (pairLoop message beforeDeadline)) := by
  induction beforeDeadline with
  | zero => exact mirrors_request hanswers message
  | succ beforeDeadline ih =>
      unfold pairLoop
      rw [onLockdown_bind, onLockdown_bind, onLockdown_outcome,
        onLockdown_outcome]
      apply (mirrors_request hanswers message).outcome.bind
      intro result
      cases result with
      | ok answer => exact Mirrors.lift (.ok answer)
      | error fault =>
          cases fault with
          | error error =>
              dsimp only
              by_cases hpending : isPending error = true
              · rw [if_pos hpending, if_pos hpending]
                exact ih
              · rw [if_neg hpending, if_neg hpending]
                exact Mirrors.lift _
          | outOfBounds => exact Mirrors.lift _
          | exception => exact Mirrors.lift _
          | outOfFuel => exact Mirrors.lift _

/-- A run of `pair` over a device's stream is the run with the answers of its requests:
what the requests ended in is all that the pairing sees of the device. -/
theorem mirrors_pair {Key : Type} (writer : CertificateWriter Key)
    (beforeDeadline : Nat) :
    Mirrors (pair writer beforeDeadline : Action Error (σ × Pairing) Unit)
      (pair writer beforeDeadline) := by
  apply (mirrors_request hanswers _).bind
  intro answer
  apply (Mirrors.lift _).bind
  intro key
  apply (Mirrors.lift _).bind
  intro chain
  apply (Mirrors.modify _).bind
  intro _
  apply (mirrors_request hanswers _).outcome.bind
  intro wifi
  apply (Mirrors.modify _).bind
  intro _
  apply Mirrors.get_bind
    (f := fun pairing =>
      onLockdown (pairLoop (pairRequest pairing) beforeDeadline) >>= takeAnswer)
    (g := fun pairing =>
      onLockdown (pairLoop (pairRequest pairing) beforeDeadline) >>= takeAnswer)
  intro pairing
  exact (mirrors_pairLoop hanswers _ _).bind mirrors_takeAnswer

end Pair

/-! ## Byte streams -/

section ByteStream

variable {σ : Type} [ByteStream σ]

/-- Each operation of the stream ends with a value or an error of its own. -/
structure SettledStream (σ : Type) [ByteStream σ] : Prop where
  readExact : ∀ count (stream : σ),
    Settled ((ByteStream.readExact count).run stream).1
  write : ∀ data (stream : σ), Settled ((ByteStream.write data).run stream).1

omit [ByteStream σ] in
theorem settled_run_bind {α β : Type} {x : Action Error σ α}
    {f : α → Action Error σ β} {stream : σ} (h : Settled (x.run stream).1)
    (hf : ∀ a next, Settled ((f a).run next).1) :
    Settled ((x >>= f).run stream).1 := by
  rw [Action.run_bind]
  rcases hrun : x.run stream with ⟨fault | a, next⟩
  · rw [hrun] at h
    rcases h with ⟨a, h⟩ | ⟨error, h⟩
    · cases h
    · cases h
      exact settled_error error
  · exact hf a next

theorem settled_checkAnswer (answer : Plist) :
    Settled (Lockdown.checkAnswer answer) := by
  unfold Lockdown.checkAnswer
  split
  · exact settled_error _
  · exact settled_ok _

/-- A request over such a stream ends in an answer or in an error. -/
theorem answers_byteStream (h : SettledStream σ) : Answers σ := by
  intro message stream
  apply settled_run_bind (h.write _ _)
  intro _ stream
  apply settled_run_bind (h.readExact _ _)
  intro lengthBytes stream
  show Settled ((if beValue lengthBytes < Lockdown.kMinPlistLength then _
    else _ : Action Error σ Plist).run stream).1
  split
  · exact settled_error _
  · apply settled_run_bind (h.readExact _ _)
    intro answer stream
    have hparse := Usbmuxd.settled_parsePlist answer
    apply settled_run_bind (x := Action.lift (Plist.parse answer)) hparse
    intro answer stream
    exact settled_checkAnswer answer

theorem settledStream_memory : SettledStream MemoryByteStream where
  readExact count stream := by
    by_cases hle : count ≤ stream.incoming.length
    · rw [MemoryByteStream.run_readExact_of_le stream hle]
      exact settled_ok _
    · rw [MemoryByteStream.run_readExact_of_lt stream (by omega)]
      exact settled_error _
  write _ _ := settled_ok ()

/-- For every device at the other end of such a stream there are answers that
decide whether an error of `pair` leaves the pairing unpaired. -/
theorem exists_answers_paired_of_error_iff {Key : Type} (h : SettledStream σ)
    {writer : CertificateWriter Key} (hwriter : writer.WritesBytes)
    (beforeDeadline : Nat) (stream : σ) {pairing : Pairing}
    (hpairing : pairing.paired = false) :
    ∃ answers,
      (∀ fault, ((pair writer beforeDeadline).run (stream, pairing)).1 =
          .error fault →
        ((pair writer beforeDeadline).run (stream, pairing)).2.2.paired =
          false) ↔
      ¬ Refused writer beforeDeadline answers := by
  obtain ⟨answers, hanswers⟩ := mirrors_pair (answers_byteStream h) writer
    beforeDeadline stream pairing
  obtain ⟨exchanges, hrun⟩ := hanswers [] []
  rw [List.append_nil] at hrun
  have hiff := paired_of_error_iff beforeDeadline ⟨answers, []⟩ pairing hwriter
    hpairing
  rw [hrun] at hiff
  exact ⟨answers, hiff⟩

end ByteStream

end Ioscpp.Crypto
