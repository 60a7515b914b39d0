import Ioscpp.Error
import Ioscpp.Support.Action

/-!
# Byte streams

A `ByteStream` is the byte-level view of a service connection: it reads exactly
the bytes asked for and writes all of them.  A service codec rides any
implementation, so the operations are a class over the stream's own state.

`MemoryByteStream` is the in-memory implementation: it hands out the bytes that
were fed to it and records the bytes written.
-/

namespace Ioscpp

open Ioscpp.Support

/-- The operations a service codec uses of its stream. -/
class ByteStream (σ : Type) where
  /-- Reads exactly `count` bytes, or fails. -/
  readExact : Nat → Action Error σ Bytes
  /-- Writes the whole of `data`, or fails. -/
  write : Bytes → Action Error σ Unit

/-- An in-memory stream: what is still to be read, and what was written. -/
structure MemoryByteStream where
  incoming : Bytes
  written : Bytes
  deriving DecidableEq, Repr

namespace MemoryByteStream

def readExact (count : Nat) : Action Error MemoryByteStream Bytes := do
  let stream ← get
  if count ≤ stream.incoming.length then do
    set { stream with incoming := stream.incoming.drop count }
    return stream.incoming.take count
  else
    Action.fail ⟨.io, ascii "the stream ended early"⟩

def write (data : Bytes) : Action Error MemoryByteStream Unit :=
  modify fun stream => { stream with written := stream.written ++ data }

instance : ByteStream MemoryByteStream where
  readExact := readExact
  write := write

theorem run_readExact_of_le (stream : MemoryByteStream) {count : Nat}
    (h : count ≤ stream.incoming.length) :
    (ByteStream.readExact count).run stream =
      (.ok (stream.incoming.take count),
        { stream with incoming := stream.incoming.drop count }) := by
  simp [ByteStream.readExact, readExact, Action.run_bind, h, Except.map]

theorem run_readExact_of_lt (stream : MemoryByteStream) {count : Nat}
    (h : stream.incoming.length < count) :
    (ByteStream.readExact count).run stream =
      (.error (.error ⟨.io, ascii "the stream ended early"⟩), stream) := by
  simp [ByteStream.readExact, readExact, Action.run_bind, Nat.not_le.mpr h]

/-- A read that succeeds had the bytes. -/
theorem of_run_readExact {stream next : MemoryByteStream} {count : Nat}
    {bytes : Bytes} (h : (ByteStream.readExact count).run stream = (.ok bytes, next)) :
    count ≤ stream.incoming.length ∧ bytes = stream.incoming.take count ∧
      next = { stream with incoming := stream.incoming.drop count } := by
  by_cases hcount : count ≤ stream.incoming.length
  · rw [run_readExact_of_le stream hcount] at h
    obtain ⟨hbytes, rfl⟩ := Prod.mk.inj h
    exact ⟨hcount, (Except.ok.inj hbytes).symm, rfl⟩
  · rw [run_readExact_of_lt stream (Nat.lt_of_not_le hcount)] at h
    cases h

/-- Bytes that were fed are read back, and what follows is left. -/
theorem run_readExact_append {bytes : Bytes} {count : Nat}
    (h : bytes.length = count) (rest written : Bytes) :
    (ByteStream.readExact count).run
        (⟨bytes ++ rest, written⟩ : MemoryByteStream) =
      (.ok bytes, ⟨rest, written⟩) := by
  have hle : count ≤ (bytes ++ rest).length := by
    rw [List.length_append]
    omega
  rw [run_readExact_of_le _ hle]
  simp only [List.take_left' h, List.drop_left' h]

@[simp] theorem run_write (data : Bytes) (stream : MemoryByteStream) :
    (ByteStream.write data).run stream =
      (.ok (), { stream with written := stream.written ++ data }) := rfl

end MemoryByteStream

end Ioscpp
