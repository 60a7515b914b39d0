import Ioscpp.Protocol.Http2

/-!
# Invariants of an HTTP/2 connection

The calls of a connection are loops around four things: a control frame or the
preface that is written, a DATA frame that is written and taken off the windows,
a frame that is read and handled, and a message that is handed out.  What these
keep, every session keeps.  An invariant may speak of the messages that `read`
has returned.

## Main results

- `session`: what the parts of every call keep, and a fresh connection has, holds of
  every session.
-/

namespace Ioscpp.Protocol.Http2

open Ioscpp.Support
open Ioscpp.Support.Action

variable {τ : Type} [Transport τ]

/-- An operation of the transport changes the transport only. -/
theorem triple_onTransport {τ α : Type} (x : Action Error τ α)
    (http2 : Http2 τ) :
    Triple (fun state => state = http2) (onTransport x)
      (fun _ state => ∃ transport, state = { http2 with transport })
      (fun _ state => ∃ transport, state = { http2 with transport }) := by
  rintro state rfl
  rw [onTransport, run_zoom]
  rcases x.run state.transport with ⟨_ | _, transport⟩
  · exact ⟨transport, rfl⟩
  · exact ⟨transport, rfl⟩

/-- What is written but DATA and answers: the preface, and the frames that open
the connection or a stream. -/
def IsOpening (bytes : Bytes) : Prop :=
  bytes = kHttp2Preface ∨ (∃ payload, bytes = appendFrame [] kSettings 0 0 payload) ∨
    (∃ increment, bytes = windowUpdateFrame 0 increment) ∨
    ∃ stream, bytes = headersFrame stream

/-- A relation between the messages returned so far and the connection that the
parts of its calls keep. -/
structure Invariant (I : List Http2Message → Http2 τ → Prop) : Prop where
  opening : ∀ returned bytes, IsOpening bytes →
    Keeps (I returned) (onTransport (Transport.write bytes))
  data : ∀ returned http2 stream payload, I returned http2 → payload ≠ [] →
    (payload.length : Int) ≤ http2.budget →
    Triple (fun state => state = http2)
      (onTransport (Transport.write (dataFrame stream payload)))
      (fun _ state => I returned (spend stream payload.length state))
      (fun _ => I returned)
  readFrame : ∀ returned, Keeps (I returned) readFrame
  handOut : ∀ returned http2 message rest, I returned http2 →
    http2.received = message :: rest →
    I (returned ++ [message]) { http2 with received := rest }

namespace Invariant

variable {I : List Http2Message → Http2 τ → Prop}

theorem awaitSettings (h : Invariant I) (returned : List Http2Message)
    (fuel : Nat) : Keeps (I returned) (awaitSettings fuel) := by
  induction fuel with
  | zero => exact keeps_lift _
  | succ fuel ih =>
      refine .get_bind fun http2 => keeps_ite (keeps_pure _) ?_
      split
      · exact keeps_lift _
      · exact (h.readFrame returned).bind fun _ => ih

theorem connect (h : Invariant I) (returned : List Http2Message) (fuel : Nat) :
    Keeps (I returned) (connect fuel) :=
  (h.opening returned _ (.inl rfl)).bind fun _ =>
    (h.opening returned _ (.inr (.inl ⟨_, rfl⟩))).bind fun _ =>
      (h.opening returned _ (.inr (.inr (.inl ⟨_, rfl⟩)))).bind fun _ =>
        h.awaitSettings returned fuel

theorem write (h : Invariant I) (returned : List Http2Message) (stream : UInt32)
    (fuel : Nat) (payload : Bytes) :
    Keeps (I returned) (write stream fuel payload) := by
  induction fuel generalizing payload with
  | zero => exact keeps_ite (keeps_pure _) (keeps_lift _)
  | succ fuel ih =>
      refine Triple.ite (fun _ => keeps_pure _) fun hne => ?_
      refine Triple.get_bind fun http2 hI => Triple.ite (fun _ => ?_)
        fun hbudget => ?_
      · exact ((h.readFrame returned).bind fun _ => ih payload).imp_pre
          fun _ heq => heq ▸ hI
      · have hdata := h.data returned http2 stream
          (payload.take (min http2.budget.toNat payload.length)) hI
        rw [List.length_take, min_eq_left (min_le_right _ _)] at hdata
        refine (hdata ?_ (by omega)).bind fun _ =>
          Triple.bind (Triple.modify fun _ hstate => hstate) fun _ => ih _
        intro hnil
        rw [List.take_eq_nil_iff] at hnil
        rcases hnil with hzero | hnil
        · have hpos := List.length_pos_iff.mpr hne
          omega
        · exact hne hnil

theorem read (h : Invariant I) (returned : List Http2Message) (fuel : Nat) :
    Triple (I returned) (read fuel)
      (fun message => I (returned ++ [message])) (fun _ => I returned) := by
  induction fuel with
  | zero => exact Triple.lift (fun _ h => nomatch h) fun _ _ _ hI => hI
  | succ fuel ih =>
      refine Triple.get_bind fun http2 hI => ?_
      split
      · rename_i message rest hreceived
        rintro state rfl
        exact h.handOut returned _ message rest hI hreceived
      · split
        · exact Triple.fail fun _ heq => heq ▸ hI
        · exact (Triple.bind (h.readFrame returned) fun _ => ih).imp_pre
            fun _ heq => heq ▸ hI

theorem perform (h : Invariant I) {returned : List Http2Message}
    {http2 : Http2 τ} (hI : I returned http2) (call : Nat × Call) :
    I (returned ++ (perform call http2).1) (perform call http2).2 := by
  obtain ⟨fuel, call⟩ := call
  cases call with
  | openStream stream =>
      rw [Http2.perform, List.append_nil]
      exact (h.opening returned _ (.inr (.inr (.inr ⟨stream, rfl⟩)))).state hI
  | write stream payload =>
      rw [Http2.perform, List.append_nil]
      exact (h.write returned stream fuel payload).state hI
  | read =>
      have hread := h.read returned fuel http2 hI
      rw [Http2.perform]
      rcases hrun : (Http2.read fuel).run http2 with ⟨_ | message, next⟩
      · rw [hrun] at hread
        rw [List.append_nil]
        exact hread
      · rw [hrun] at hread
        exact hread

theorem performAll (h : Invariant I) (calls : List (Nat × Call))
    {returned : List Http2Message} {http2 : Http2 τ} (hI : I returned http2) :
    I (returned ++ (performAll calls http2).1) (performAll calls http2).2 := by
  induction calls generalizing returned http2 with
  | nil =>
      rw [Http2.performAll, List.append_nil]
      exact hI
  | cons call rest ih =>
      rw [Http2.performAll, ← List.append_assoc]
      exact ih (h.perform hI call)

/-- What holds of a fresh connection holds of every session. -/
theorem session (h : Invariant I) {transport : τ} (hI : I [] { transport })
    (fuel : Nat) (calls : List (Nat × Call)) :
    I (session transport fuel calls).1 (session transport fuel calls).2 := by
  have hconnect := (h.connect [] fuel).state hI
  exact h.performAll calls hconnect

end Invariant

end Ioscpp.Protocol.Http2
