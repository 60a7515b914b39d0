import Ioscpp.ByteStreamSimulation
import Ioscpp.Support.ActionLog

/-!
# Streams with a trace

A service codec is one program over any byte stream, so it also runs over a stream that
keeps a trace beside it: what was written, and what each read returned, in their order.
The outcome and the stream are those of the program without the trace; the trace says
what the outcome does not, such as that a request is written before its answer is read.

## Main results

- `Traced.erases_readExact`, `Traced.erases_write`: a traced stream does what the stream
  does.
- `Traced.simulates_readExact`: reads add to the trace what they take of the bytes in
  memory, and nothing else.
-/

namespace Ioscpp

open Ioscpp.Support
open Ioscpp.Support.Action
open Ioscpp.Protocol

/-- What is done with a stream. -/
inductive StreamEvent where
  | wrote (data : Bytes)
  | took (data : Bytes)
  deriving DecidableEq, Repr

/-- A stream with the trace of what was done with it. -/
abbrev Traced (σ : Type) := σ × List StreamEvent

namespace Traced

variable {σ : Type} [ByteStream σ]

def readExact (count : Nat) : Action Error (Traced σ) Bytes := do
  let data ← Action.quiet (ByteStream.readExact count)
  Action.note (.took data)
  return data

def write (data : Bytes) : Action Error (Traced σ) Unit := do
  Action.note (.wrote data)
  Action.quiet (ByteStream.write data)

instance : ByteStream (Traced σ) where
  readExact := readExact
  write := write

theorem run_readExact_ok {stream next : σ} {count : Nat} {data : Bytes}
    (h : (ByteStream.readExact count).run stream = (.ok data, next))
    (trace : List StreamEvent) :
    (ByteStream.readExact count).run ((stream, trace) : Traced σ) =
      (.ok data, (next, trace ++ [.took data])) := by
  have hquiet : (Action.quiet (ByteStream.readExact count)).run (stream, trace) =
      (.ok data, (next, trace)) := by
    rw [run_quiet, h]
  change (readExact count).run (stream, trace) = _
  rw [readExact, run_bind_ok hquiet, run_bind_ok (run_note _ _ _), run_pure]

theorem run_write_ok {stream next : σ} {data : Bytes}
    (h : (ByteStream.write data).run stream = (.ok (), next))
    (trace : List StreamEvent) :
    (ByteStream.write data).run ((stream, trace) : Traced σ) =
      (.ok (), (next, trace ++ [.wrote data])) := by
  change (write data).run (stream, trace) = _
  rw [write, run_bind_ok (run_note _ _ _), run_quiet, h]

/-! ## Without the trace -/

theorem erases_readExact (count : Nat) :
    Erases (ByteStream.readExact count : Action Error (Traced σ) Bytes)
      (ByteStream.readExact count) := by
  intro stream trace
  rcases hrun : (ByteStream.readExact count).run stream with ⟨fault | data, next⟩
  · have hquiet : (Action.quiet (ByteStream.readExact count)).run (stream, trace) =
        (.error fault, (next, trace)) := by
      rw [run_quiet, hrun]
    change ((readExact count).run (stream, trace)).1 = _ ∧
      ((readExact count).run (stream, trace)).2.1 = _
    rw [readExact, run_bind_error hquiet]
    exact ⟨rfl, rfl⟩
  · rw [run_readExact_ok hrun]
    exact ⟨rfl, rfl⟩

theorem erases_write (data : Bytes) :
    Erases (ByteStream.write data : Action Error (Traced σ) Unit)
      (ByteStream.write data) :=
  (erases_quiet _).note_bind _

theorem erases_send (message : Plist) :
    Erases (PlistService.send message : Action Error (Traced σ) Unit)
      (PlistService.send message) :=
  erases_write _

theorem erases_receive :
    Erases (PlistService.receive : Action Error (Traced σ) Plist)
      PlistService.receive := by
  refine (erases_readExact 4).bind fun lengthBytes => ?_
  refine Erases.ite (fun stream trace => ⟨rfl, rfl⟩) ?_
  exact (erases_readExact _).bind fun body => erases_lift _

/-! ## Reading -/

variable {R : σ → MemoryByteStream → Prop} {front : List StreamEvent} {total : Bytes}

/-- A stream with this trace and then reads, which took the bytes in `total` that are
no longer in memory. -/
def Reads (R : σ → MemoryByteStream → Prop) (front : List StreamEvent) (total : Bytes)
    (traced : Traced σ) (memory : MemoryByteStream) : Prop :=
  R traced.1 memory ∧ ∃ reads : List Bytes,
    traced.2 = front ++ reads.map .took ∧ reads.flatten ++ memory.incoming = total

omit [ByteStream σ] in
theorem reads_start {traced : Traced σ} {memory : MemoryByteStream}
    (h : R traced.1 memory) : Reads R traced.2 memory.incoming traced memory :=
  ⟨h, [], (List.append_nil _).symm, rfl⟩

theorem simulates_readExact (h : CarriesBytes R) (count : Nat) :
    Simulates (Reads R front total) (ByteStream.readExact count)
      (ByteStream.readExact count) := by
  rintro ⟨stream, trace⟩ memory data next ⟨hR, reads, rfl, htotal⟩ hrun
  obtain ⟨after, hafter, hnext⟩ := h.readExact count hR hrun
  obtain ⟨-, rfl, rfl⟩ := MemoryByteStream.of_run_readExact hrun
  refine ⟨_, run_readExact_ok hafter _, hnext, reads ++ [memory.incoming.take count],
    ?_, ?_⟩
  · rw [List.append_assoc, List.map_append, List.map_singleton]
  · rw [List.flatten_append, List.flatten_singleton, List.append_assoc,
      List.take_append_drop, htotal]

/-- A message is read, and nothing of what is behind it. -/
theorem run_receive (h : CarriesBytes R) {traced : Traced σ} {bytes rest written : Bytes}
    {message : Plist} (hmessage : PlistService.Frames bytes message)
    (hreads : Reads R front total traced ⟨bytes ++ rest, written⟩) :
    ∃ next, PlistService.receive.run traced = (.ok message, next) ∧
      Reads R front total next ⟨rest, written⟩ :=
  PlistService.simulates_receive (simulates_readExact h) hreads
    (PlistService.run_receive hmessage written rest)

end Traced

end Ioscpp
