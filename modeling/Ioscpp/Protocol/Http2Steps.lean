import Ioscpp.Protocol.Http2Frames
import Ioscpp.Protocol.Http2Invariant

/-!
# Runs of an HTTP/2 connection

A run is a connection and the parts of its calls, one after the other: a frame
that opens something, a DATA frame within the windows, a frame that is read, a
message that is handed out.  Each may fail in the transport, and the run goes on
from what it leaves.  Every session is a run, so what holds of all runs holds at
every point of a session, also in the middle of a call.  Reading a frame is
receiving it and then handling it.

## Main results

- `run_session`: every session is a run of steps.
- `Invariant.run`: what the parts of every call keep, a run keeps.
-/

namespace Ioscpp.Protocol

open Ioscpp.Support
open Ioscpp.Support.Action

namespace Http2

variable {τ : Type} [Transport τ]

/-! ## Receiving and handling -/

/-- Receives a frame: all of its bytes, which stay in the buffer. -/
def receiveFrame : Action Error (Http2 τ) Http2Frame := do
  fill 9
  let http2 ← get
  let (length, type, flags, stream) ← Action.lift (frameHeader http2.buffer)
  fill (9 + length)
  let http2 ← get
  let payload ← Action.lift (slice http2.buffer 9 length)
  return ⟨type, flags, stream, payload⟩

/-- Takes a frame off the buffer. -/
def dropFrame (frame : Http2Frame) (http2 : Http2 τ) : Http2 τ :=
  { http2 with buffer := http2.buffer.drop (9 + frame.payload.length) }

/-- A frame that is read is received, handled and taken off the buffer. -/
theorem run_readFrame (http2 : Http2 τ) :
    readFrame.run http2 =
      match receiveFrame.run http2 with
      | (.error e, next) => (.error e, next)
      | (.ok frame, next) =>
          match (handleFrame frame).run next with
          | (.error e, last) => (.error e, last)
          | (.ok _, last) => (.ok (), dropFrame frame last) := by
  rw [readFrame, receiveFrame]
  rcases hfill : (fill 9).run http2 with ⟨e | _, first⟩
  · rw [run_bind_error hfill, run_bind_error hfill]
  rw [run_bind_ok hfill, run_bind_ok hfill, run_bind_ok (run_get first),
    run_bind_ok (run_get first)]
  rcases hheader : (frameHeader first.buffer) with e | ⟨length, type, flags, stream⟩
  · rw [run_bind_error (run_lift _ first), run_bind_error (run_lift _ first)]
  rw [run_bind_ok (run_lift _ first), run_bind_ok (run_lift _ first)]
  dsimp only
  rcases hwhole : (fill (9 + length)).run first with ⟨e | _, second⟩
  · rw [run_bind_error hwhole, run_bind_error hwhole]
  rw [run_bind_ok hwhole, run_bind_ok hwhole, run_bind_ok (run_get second),
    run_bind_ok (run_get second)]
  rcases hslice : (slice second.buffer 9 length : Result Bytes) with e | payload
  · rw [run_bind_error (run_lift _ second), run_bind_error (run_lift _ second)]
  have hlength : payload.length = length := by
    unfold slice at hslice
    split at hslice
    · obtain rfl := Except.ok.inj hslice
      rw [List.length_take, List.length_drop]
      omega
    · cases hslice
  rw [run_bind_ok (run_lift _ second), run_bind_ok (run_lift _ second), run_pure]
  dsimp only
  rcases hhandle : (handleFrame ⟨type, flags, stream, payload⟩).run second with
    ⟨e | _, last⟩
  · rw [run_bind_error hhandle]
  · rw [run_bind_ok hhandle, run_modify]
    dsimp only [dropFrame]
    rw [hlength]

/-! ## Steps -/

/-- A part of a call. -/
inductive Step where
  /-- The preface, or a frame that opens the connection or a stream. -/
  | opening (bytes : Bytes)
  /-- A DATA frame. -/
  | data (stream : UInt32) (payload : Bytes)
  /-- A frame that is read. -/
  | readFrame
  /-- A message that is handed out. -/
  | handOut

namespace Step

/-- A step that a call can take: the DATA frames are not empty, and within the
windows. -/
def Allowed (http2 : Http2 τ) : Step → Prop
  | opening bytes => IsOpening bytes
  | data _ payload => payload ≠ [] ∧ (payload.length : Int) ≤ http2.budget
  | readFrame => True
  | handOut => True

/-- Takes a step, whether or not it succeeds: what it hands out, and the
connection it leaves. -/
def take (http2 : Http2 τ) : Step → List Http2Message × Http2 τ
  | opening bytes =>
      ([], ((onTransport (Transport.write bytes)).run http2).2)
  | data stream payload =>
      match (onTransport (Transport.write (dataFrame stream payload))).run
        http2 with
      | (.ok _, next) => ([], spend stream payload.length next)
      | (.error _, next) => ([], next)
  | readFrame => ([], (Http2.readFrame.run http2).2)
  | handOut =>
      match http2.received with
      | message :: rest => ([message], { http2 with received := rest })
      | [] => ([], http2)

end Step

/-- A run from a connection: the steps, the messages they hand out, and the
connection they leave. -/
inductive Run (start : Http2 τ) :
    List Step → List Http2Message → Http2 τ → Prop
  | nil : Run start [] [] start
  | concat {steps : List Step} {returned : List Http2Message} {http2 : Http2 τ}
      (before : Run start steps returned http2) (step : Step)
      (allowed : step.Allowed http2) :
      Run start (steps ++ [step]) (returned ++ (step.take http2).1)
        (step.take http2).2

/-- A step that hands out nothing goes on with a run. -/
theorem Run.next {start http2 next : Http2 τ} {steps : List Step}
    {returned : List Http2Message} (h : Run start steps returned http2)
    (step : Step) (hallowed : step.Allowed http2)
    (htake : step.take http2 = ([], next)) :
    ∃ steps, Run start steps returned next := by
  have hnext := h.concat step hallowed
  rw [htake, List.append_nil] at hnext
  exact ⟨_, hnext⟩

/-- The parts of every call are the steps of a run. -/
theorem invariant_run (start : Http2 τ) :
    Invariant fun returned http2 => ∃ steps, Run start steps returned http2 where
  opening returned bytes hopening := by
    refine Keeps.of_state ?_
    rintro http2 ⟨steps, hrun⟩
    exact hrun.next (.opening bytes) hopening rfl
  data returned http2 stream payload := by
    rintro ⟨steps, hrun⟩ hne hbudget state rfl
    have hallowed : (Step.data stream payload).Allowed state := ⟨hne, hbudget⟩
    rcases hwrite : (onTransport (Transport.write
      (dataFrame stream payload))).run state with ⟨e | _, next⟩
    · refine hrun.next (.data stream payload) hallowed ?_
      rw [Step.take, hwrite]
    · refine hrun.next (.data stream payload) hallowed ?_
      rw [Step.take, hwrite]
  readFrame returned := by
    refine Keeps.of_state ?_
    rintro http2 ⟨steps, hrun⟩
    exact hrun.next .readFrame trivial rfl
  handOut returned http2 message rest := by
    rintro ⟨steps, hrun⟩ hreceived
    have hnext := hrun.concat .handOut trivial
    rw [Step.take, hreceived] at hnext
    exact ⟨_, hnext⟩

/-- Every session is a run: its calls are made of steps, in their order, and the
messages that its reads return are those that the steps hand out. -/
theorem run_session (transport : τ) (fuel : Nat) (calls : List (Nat × Call)) :
    ∃ steps, Run { transport } steps (session transport fuel calls).1
      (session transport fuel calls).2 :=
  (invariant_run { transport }).session ⟨[], .nil⟩ fuel calls

/-- What the parts of every call keep, a step keeps. -/
theorem Invariant.step {I : List Http2Message → Http2 τ → Prop} (h : Invariant I)
    {returned : List Http2Message} {http2 : Http2 τ} (hI : I returned http2)
    {step : Step} (hallowed : step.Allowed http2) :
    I (returned ++ (step.take http2).1) (step.take http2).2 := by
  cases step with
  | opening bytes =>
      rw [Step.take, List.append_nil]
      exact (h.opening returned bytes hallowed).state hI
  | data stream payload =>
      have hdata := h.data returned http2 stream payload hI hallowed.1 hallowed.2
        http2 rfl
      rw [Step.take]
      rcases hwrite : (onTransport (Transport.write
        (dataFrame stream payload))).run http2 with ⟨_ | _, next⟩
      · rw [hwrite] at hdata
        rw [List.append_nil]
        exact hdata
      · rw [hwrite] at hdata
        rw [List.append_nil]
        exact hdata
  | readFrame =>
      rw [Step.take, List.append_nil]
      exact (h.readFrame returned).state hI
  | handOut =>
      rw [Step.take]
      split
      · rename_i message rest hreceived
        exact h.handOut returned http2 message rest hI hreceived
      · rw [List.append_nil]
        exact hI

/-- What the parts of every call keep, a run keeps. -/
theorem Invariant.run {I : List Http2Message → Http2 τ → Prop} (h : Invariant I)
    {start http2 : Http2 τ} {steps : List Step} {returned : List Http2Message}
    (hrun : Run start steps returned http2) (hI : I [] start) :
    I returned http2 := by
  induction hrun with
  | nil => exact hI
  | concat _ step hallowed ih => exact h.step ih hallowed

end Http2

end Ioscpp.Protocol
