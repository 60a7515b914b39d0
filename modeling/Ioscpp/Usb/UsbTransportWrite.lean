import Ioscpp.Usb.UsbTransport

/-!
# Writes of the USB transport

A write offers its data until a transfer moves any of it, fails, or has spent its
budget.  What a transfer moved is not offered again, so over writes that stop at the
first failure the device has taken a beginning of what was written, each byte once
(`taken_writeWhile`).

## Main results

- `run_write`: the device takes a beginning of the data, and all of it when the write
  succeeds.
- `taken_writeWhile`: so it does over writes that stop at the first failure.
-/

namespace Ioscpp.Usb

open Ioscpp.Support

/-- One call of `libusb_bulk_transfer` for a write: its result code, how many bytes of
the data the device took, and whether the budget was spent when it returned. -/
structure OutAttempt where
  rc : Int
  moved : Nat
  expired : Bool

/-- The writing half of the transport: how `libusb` will answer, and what the device
took. -/
structure UsbOut where
  attempts : List OutAttempt
  taken : Bytes := []

namespace UsbOut

/-- The loop over the attempts at one transfer; each offers the data from its
start. -/
def bulkTransfer (data : Bytes) : List OutAttempt → Bytes → Option OutAttempt × UsbOut
  | [], taken => (none, ⟨[], taken⟩)
  | attempt :: rest, taken =>
      let next := taken ++ data.take attempt.moved
      if attempt.rc ≠ errorTimeout ∨ attempt.moved > 0 then (some attempt, ⟨rest, next⟩)
      else if attempt.expired then (some attempt, ⟨rest, next⟩)
      else bulkTransfer data rest next

/-- What the outcome of a transfer means for its write. -/
def checkTransfer (strerror : Int → Bytes) (data : Bytes) :
    Option OutAttempt → Result Unit
  | none => .error .outOfFuel
  | some attempt =>
      if attempt.rc ≠ 0 then
        if attempt.rc = errorTimeout ∧ attempt.moved > 0 then
          .error (.error ⟨.transport,
            ascii "short USB write: the stream is desynchronized"⟩)
        else .error (.error ⟨.transport, ascii "libusb_bulk_transfer (write): " ++
          strerror attempt.rc⟩)
      else if attempt.moved ≠ data.length then
        .error (.error ⟨.transport, ascii "short USB write"⟩)
      else .ok ()

/-- `UsbTransport::write`. -/
def write (strerror : Int → Bytes) (data : Bytes) : Action Error UsbOut Unit := do
  if data = [] then return ()
  else do
    let out ← get
    let (attempt, next) := bulkTransfer data out.attempts out.taken
    set next
    Action.lift (checkTransfer strerror data attempt)

/-- Writes one after the other, and no more after one that failed. -/
def writeWhile (strerror : Int → Bytes) : List Bytes → Action Error UsbOut Unit
  | [] => return ()
  | data :: rest => do
      write strerror data
      writeWhile strerror rest

variable {strerror : Int → Bytes} {data : Bytes}

/-- Only the last attempt of a transfer moved anything. -/
theorem taken_bulkTransfer (data : Bytes) (attempts : List OutAttempt) (taken : Bytes) :
    (bulkTransfer data attempts taken).2.taken = taken ++
      ((bulkTransfer data attempts taken).1.map fun attempt =>
        data.take attempt.moved).getD [] := by
  induction attempts generalizing taken with
  | nil => exact (List.append_nil _).symm
  | cons attempt rest ih =>
      rw [bulkTransfer]
      split
      · rfl
      · rename_i hretry
        split
        · rfl
        · have hnothing : attempt.moved = 0 :=
            Nat.eq_zero_of_not_pos fun hpos => hretry (.inr hpos)
          rw [hnothing, List.take_zero, List.append_nil]
          exact ih taken

theorem moved_of_checkTransfer {attempt : Option OutAttempt}
    (h : checkTransfer strerror data attempt = .ok ()) :
    ∃ last, attempt = some last ∧ last.moved = data.length := by
  cases attempt with
  | none => cases h
  | some last =>
      refine ⟨last, rfl, ?_⟩
      rw [checkTransfer] at h
      split at h
      · split at h
        · cases h
        · cases h
      · split at h
        · cases h
        · rename_i hmoved
          exact not_not.mp hmoved

/-- The device takes a beginning of the data, and all of it when the write succeeds. -/
theorem run_write (strerror : Int → Bytes) (data : Bytes) (out : UsbOut) :
    ∃ part, part <+: data ∧
      ((write strerror data).run out).2.taken = out.taken ++ part ∧
      (((write strerror data).run out).1 = .ok () → part = data) := by
  by_cases hempty : data = []
  · subst hempty
    exact ⟨[], List.nil_prefix, (List.append_nil _).symm, fun _ => rfl⟩
  · have hrun : (write strerror data).run out =
        (checkTransfer strerror data (bulkTransfer data out.attempts out.taken).1,
          (bulkTransfer data out.attempts out.taken).2) := by
      rw [write, if_neg hempty]
      rfl
    rw [hrun]
    refine ⟨_, ?_, taken_bulkTransfer data out.attempts out.taken, fun hok => ?_⟩
    · cases (bulkTransfer data out.attempts out.taken).1 with
      | none => exact List.nil_prefix
      | some attempt => exact List.take_prefix _ _
    · obtain ⟨last, hlast, hmoved⟩ := moved_of_checkTransfer hok
      rw [hlast, Option.map_some, Option.getD_some, hmoved, List.take_length]

/-- Over writes that stop at the first failure, the device has a beginning of what was
written, and all of it when none failed: nothing is lost, repeated or out of order. -/
theorem taken_writeWhile (strerror : Int → Bytes) (writes : List Bytes) (out : UsbOut) :
    ∃ part, part <+: writes.flatten ∧
      ((writeWhile strerror writes).run out).2.taken = out.taken ++ part ∧
      (((writeWhile strerror writes).run out).1 = .ok () → part = writes.flatten) := by
  induction writes generalizing out with
  | nil => exact ⟨[], List.nil_prefix, (List.append_nil _).symm, fun _ => rfl⟩
  | cons data rest ih =>
      obtain ⟨part, hpart, htaken, hwhole⟩ := run_write strerror data out
      rcases hrun : (write strerror data).run out with ⟨fault | _, next⟩
      · rw [hrun] at htaken
        rw [writeWhile, Action.run_bind_error hrun]
        refine ⟨part, hpart.trans (List.prefix_append _ _), htaken, fun hok => ?_⟩
        cases hok
      · rw [hrun] at htaken hwhole
        obtain rfl := hwhole rfl
        obtain ⟨more, hmore, hlast, hall⟩ := ih next
        rw [writeWhile, Action.run_bind_ok hrun, List.flatten_cons]
        refine ⟨part ++ more, List.prefix_append_right_inj _ |>.mpr hmore, ?_, fun hok => ?_⟩
        · rw [hlast, htaken, List.append_assoc]
        · rw [hall hok]

end UsbOut

end Ioscpp.Usb
