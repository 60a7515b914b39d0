import Ioscpp.Connection

/-!
# The calls of a transport

A transport beside the list of the calls that were made to it and of what it
answered.  It behaves as the transport does, so what holds of the list holds
over every transport.
-/

namespace Ioscpp

open Ioscpp.Support
open Ioscpp.Protocol

/-- A call and its answer. -/
inductive TransportCall where
  | read (result : Result Bytes)
  | write (data : Bytes) (result : Result Unit)
  | close

/-- A transport and the calls made to it, in their order and with their answers. -/
structure Recorded (τ : Type) where
  transport : τ
  calls : List TransportCall := []

namespace Recorded

variable {τ : Type}

section Transport

variable [Transport τ]

def read (count : Nat) : Action Error (Recorded τ) Bytes := fun state =>
  (((Transport.read count).run state.transport).1, {
    transport := ((Transport.read count).run state.transport).2
    calls := state.calls ++
      [.read ((Transport.read count).run state.transport).1] })

def write (data : Bytes) : Action Error (Recorded τ) Unit := fun state =>
  (((Transport.write data).run state.transport).1, {
    transport := ((Transport.write data).run state.transport).2
    calls := state.calls ++
      [.write data ((Transport.write data).run state.transport).1] })

instance : Transport (Recorded τ) where
  read := read
  write := write

end Transport

instance [ClosableTransport τ] : ClosableTransport (Recorded τ) where
  close state := {
    transport := ClosableTransport.close state.transport
    calls := state.calls ++ [.close] }

section Keeps

variable [Transport τ]

theorem run_read (count : Nat) (state : Recorded τ) :
    (Transport.read count).run state =
      (((Transport.read count).run state.transport).1, {
        transport := ((Transport.read count).run state.transport).2
        calls := state.calls ++
          [.read ((Transport.read count).run state.transport).1] }) := rfl

theorem run_write (data : Bytes) (state : Recorded τ) :
    (Transport.write data).run state =
      (((Transport.write data).run state.transport).1, {
        transport := ((Transport.write data).run state.transport).2
        calls := state.calls ++
          [.write data ((Transport.write data).run state.transport).1] }) := rfl

/-- The calls made since `base`, each of which has the property. -/
def Since (base : List TransportCall) (P : TransportCall → Prop)
    (state : Recorded τ) : Prop :=
  ∃ more, state.calls = base ++ more ∧ ∀ call ∈ more, P call

variable {base : List TransportCall} {P : TransportCall → Prop}

omit [Transport τ] in
theorem Since.append {state : Recorded τ} {transport : τ}
    (h : Since base P state) {call : TransportCall} (hcall : P call) :
    Since base P ⟨transport, state.calls ++ [call]⟩ := by
  obtain ⟨more, hcalls, hmore⟩ := h
  refine ⟨more ++ [call], ?_, ?_⟩
  · rw [hcalls, List.append_assoc]
  · rw [List.forall_mem_append, List.forall_mem_singleton]
    exact ⟨hmore, hcall⟩

theorem keeps_read (hP : ∀ result, P (.read result)) (count : Nat) :
    Action.Keeps (Since base P) (Transport.read count :
      Action Error (Recorded τ) Bytes) := by
  intro state h
  rw [run_read]
  rcases (Transport.read count).run state.transport with ⟨_ | _, next⟩
  · exact h.append (hP _)
  · exact h.append (hP _)

end Keeps

end Recorded

end Ioscpp
