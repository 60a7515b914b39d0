import Ioscpp.Error
import Ioscpp.Support.Action

/-!
# The USB transport

`UsbTransport` reads one bulk transfer at a time into a buffer, and hands the
buffer out over as many reads as it takes.  What `libusb` does is a script: the
outcome of every attempt at a transfer.

A failed transfer leaves the buffer at its full size, with the offset of before,
so a later read hands out what is in it.  No byte comes from a failed transfer
exactly when no read asks for any after such a failure
(`nothingStale_iff_careful`).

## Main results

- `bulkTransfer_eq_some`: a transfer takes attempts up to the one that ends it.
- `read_cases`: what a read does to the bytes returned and to the buffer.
- `nothingStale_iff_careful`: when no byte comes from a transfer that failed.
-/

namespace Ioscpp.Usb

open Ioscpp.Support

def kReadBufferSize : Nat := 3 * 16384

/-- `LIBUSB_ERROR_TIMEOUT`. -/
def errorTimeout : Int := -7

/-- One call of `libusb_bulk_transfer`: its result code, the bytes it moved, and
whether the budget of the transfer was spent when it returned. -/
structure Attempt where
  rc : Int
  data : Bytes
  expired : Bool
  fits : data.length ≤ kReadBufferSize

/-- What is read: the result is 0, or a timeout that moved bytes. -/
def Attempt.Succeeded (attempt : Attempt) : Prop :=
  attempt.rc = 0 ∨ attempt.rc = errorTimeout ∧ attempt.data ≠ []

instance (attempt : Attempt) : Decidable attempt.Succeeded :=
  inferInstanceAs (Decidable (_ ∨ _))

/-- The transport: its buffer, and how `libusb` will answer. -/
structure UsbTransport where
  incoming : Bytes := []
  incomingOffset : Nat := 0
  attempts : List Attempt

/-- The loop over the attempts at one transfer; none when `libusb` does not
return. -/
def bulkTransfer : List Attempt → Option (Attempt × List Attempt)
  | [] => none
  | attempt :: rest =>
      if attempt.rc ≠ errorTimeout ∨ attempt.data ≠ [] then some (attempt, rest)
      else if attempt.expired then some (attempt, rest)
      else bulkTransfer rest

/-- `std::vector::resize`. -/
def resize (bytes : Bytes) (size : Nat) : Bytes :=
  bytes.take size ++ List.replicate (size - bytes.length) 0

/-- The buffer after a transfer wrote at its start. -/
def overwrite (data buffer : Bytes) : Bytes := data ++ buffer.drop data.length

namespace UsbTransport

/-- Hands out what the buffer holds, up to `size` bytes. -/
def handOut (size : Nat) : Action Error UsbTransport Bytes := do
  let transport ← get
  let available := transport.incoming.length - transport.incomingOffset
  let count := min available size
  set { transport with incomingOffset := transport.incomingOffset + count }
  return (transport.incoming.drop transport.incomingOffset).take count

/-- Reads up to `size` bytes; `strerror` is `libusb_strerror`. -/
def read (strerror : Int → Bytes) (size : Nat) :
    Action Error UsbTransport Bytes := do
  let transport ← get
  if transport.incoming.length ≤ transport.incomingOffset then
    match bulkTransfer transport.attempts with
    | none => Action.lift (.error .outOfFuel)
    | some (attempt, rest) =>
        let buffer := overwrite attempt.data
          (resize transport.incoming kReadBufferSize)
        if attempt.rc ≠ 0 ∧
            ¬(attempt.rc = errorTimeout ∧ attempt.data ≠ []) then do
          set { transport with
            incoming := buffer
            attempts := rest }
          Action.fail ⟨.transport, ascii "libusb_bulk_transfer (read): " ++
            strerror attempt.rc⟩
        else do
          set { transport with
            incoming := resize buffer attempt.data.length
            incomingOffset := 0
            attempts := rest }
          if attempt.data = [] then return []
          else handOut size
  else handOut size

/-- Makes reads of the given sizes, whatever becomes of each. -/
def readAll (strerror : Int → Bytes) : List Nat → UsbTransport →
    List (Result Bytes) × UsbTransport
  | [], transport => ([], transport)
  | size :: rest, transport =>
      let (result, next) := (read strerror size).run transport
      let (results, last) := readAll strerror rest next
      (result :: results, last)

/-! ## One read -/

/-- What the buffer still holds. -/
def pending (transport : UsbTransport) : Bytes :=
  transport.incoming.drop transport.incomingOffset

/-- The offset is inside the buffer, and the buffer no larger than its size. -/
structure Good (transport : UsbTransport) : Prop where
  offset : transport.incomingOffset ≤ transport.incoming.length
  size : transport.incoming.length ≤ kReadBufferSize

variable {strerror : Int → Bytes} {transport : UsbTransport} {size : Nat}

theorem take_pending (size : Nat) (transport : UsbTransport) :
    transport.pending.take size = transport.pending.take
      (min (transport.incoming.length - transport.incomingOffset) size) := by
  rw [List.take_eq_take_min, pending, List.length_drop, Nat.min_comm]

theorem run_handOut (size : Nat) (transport : UsbTransport) :
    (handOut size).run transport = (.ok (transport.pending.take size),
      { transport with
        incomingOffset := transport.incomingOffset +
          min (transport.incoming.length - transport.incomingOffset) size }) := by
  rw [take_pending]
  rfl

/-- A read of what is buffered. -/
theorem run_read_pending
    (h : transport.incomingOffset < transport.incoming.length) :
    (read strerror size).run transport = (.ok (transport.pending.take size),
      { transport with
        incomingOffset := transport.incomingOffset +
          min (transport.incoming.length - transport.incomingOffset) size }) := by
  rw [read, Action.run_bind_ok (Action.run_get _), if_neg (by omega)]
  exact run_handOut size transport

/-- A read for which `libusb` does not return. -/
theorem run_read_blocked
    (h : transport.incoming.length ≤ transport.incomingOffset)
    (hblocked : bulkTransfer transport.attempts = none) :
    (read strerror size).run transport = (.error .outOfFuel, transport) := by
  rw [read, Action.run_bind_ok (Action.run_get _), if_pos h, hblocked]
  rfl

/-- A read whose transfer fails. -/
theorem run_read_failed {attempt : Attempt} {rest : List Attempt}
    (h : transport.incoming.length ≤ transport.incomingOffset)
    (htransfer : bulkTransfer transport.attempts = some (attempt, rest))
    (hfailed : ¬attempt.Succeeded) :
    ∃ e, (read strerror size).run transport = (.error (.error e),
      { transport with
        incoming :=
          overwrite attempt.data (resize transport.incoming kReadBufferSize)
        attempts := rest }) := by
  rw [read, Action.run_bind_ok (Action.run_get _), if_pos h, htransfer]
  dsimp only
  rw [if_pos (not_or.mp hfailed)]
  exact ⟨_, rfl⟩

theorem resize_overwrite (data buffer : Bytes) :
    resize (overwrite data buffer) data.length = data := by
  rw [resize, overwrite, List.take_left, List.length_append,
    show data.length - (data.length + (buffer.drop data.length).length) = 0 by
      omega]
  exact List.append_nil _

/-- A read whose transfer succeeds. -/
theorem run_read_succeeded {attempt : Attempt} {rest : List Attempt}
    (h : transport.incoming.length ≤ transport.incomingOffset)
    (htransfer : bulkTransfer transport.attempts = some (attempt, rest))
    (hsucceeded : attempt.Succeeded) :
    (read strerror size).run transport = (.ok (attempt.data.take size), {
      incoming := attempt.data
      incomingOffset := min attempt.data.length size
      attempts := rest }) := by
  rw [read, Action.run_bind_ok (Action.run_get _), if_pos h, htransfer]
  dsimp only
  rw [if_neg (fun hfailed => not_or.mpr hfailed hsucceeded),
    resize_overwrite, Action.run_bind_ok (Action.run_set _ _)]
  split
  · rename_i hempty
    rw [hempty, List.length_nil, Nat.zero_min, List.take_nil]
    rfl
  · rw [run_handOut]
    simp [pending]

/-! ## Any number of reads -/

/-- The bytes that results return. -/
def returned (results : List (Result Bytes)) : Bytes :=
  results.flatMap fun result => result.toOption.getD []

/-- The bytes of the attempts that succeeded. -/
def delivered (attempts : List Attempt) : Bytes :=
  (attempts.filter fun attempt => attempt.Succeeded).flatMap (·.data)

/-- After each of the calls, what was returned is a prefix of `before` and of
the bytes that the successful attempts delivered so far. -/
def NothingStale (strerror : Int → Bytes) (before : Bytes)
    (transport : UsbTransport) (sizes : List Nat) : Prop :=
  ∀ made, made <+: sizes → ∃ taken,
    transport.attempts = taken ++ (readAll strerror made transport).2.attempts ∧
    returned (readAll strerror made transport).1 <+: before ++ delivered taken

/-- The transfer of the next read fails, and the buffer of before was not a full
one. -/
def Fails (transport : UsbTransport) : Prop :=
  transport.incoming.length ≤ transport.incomingOffset ∧
    transport.incomingOffset < kReadBufferSize ∧
    ∃ attempt rest, bulkTransfer transport.attempts = some (attempt, rest) ∧
      ¬attempt.Succeeded

/-- No read asks for bytes after a read whose transfer failed, unless the buffer
was full before it. -/
def Careful (strerror : Int → Bytes) : UsbTransport → List Nat → Prop
  | _, [] => True
  | transport, size :: rest =>
      (transport.Fails → ∀ later ∈ rest, later = 0) ∧
        Careful strerror ((read strerror size).run transport).2 rest

theorem delivered_append (attempts attempts' : List Attempt) :
    delivered (attempts ++ attempts') = delivered attempts ++ delivered attempts' := by
  rw [delivered, List.filter_append, List.flatMap_append]
  rfl

/-- A transfer takes attempts that did not succeed, which delivered nothing that counts,
and the one that ends it. -/
theorem bulkTransfer_eq_some {attempts rest : List Attempt} {attempt : Attempt}
    (h : bulkTransfer attempts = some (attempt, rest)) :
    ∃ retried, attempts = retried ++ (attempt :: rest) ∧
      delivered retried = [] := by
  induction attempts with
  | nil => cases h
  | cons first attempts ih =>
      rw [bulkTransfer] at h
      split at h
      · cases h
        exact ⟨[], rfl, rfl⟩
      · rename_i htimeout
        obtain ⟨hrc, hdata⟩ := not_or.mp htimeout
        split at h
        · cases h
          exact ⟨[], rfl, rfl⟩
        · obtain ⟨retried, hattempts, hdelivered⟩ := ih h
          have hrc := not_not.mp hrc
          have hfirst : ¬first.Succeeded := by
            rintro (hzero | ⟨-, hmoved⟩)
            · rw [hzero] at hrc
              cases hrc
            · exact hdata hmoved
          refine ⟨first :: retried, by rw [hattempts]; rfl, ?_⟩
          rw [delivered, List.filter_cons_of_neg (by simpa using hfirst)]
          exact hdelivered

theorem length_resize (bytes : Bytes) (size : Nat) :
    (resize bytes size).length = size := by
  rw [resize, List.length_append, List.length_take, List.length_replicate]
  omega

theorem length_overwrite {data buffer : Bytes}
    (h : data.length ≤ buffer.length) :
    (overwrite data buffer).length = buffer.length := by
  rw [overwrite, List.length_append, List.length_drop]
  omega

theorem pending_of_le (h : transport.incoming.length ≤ transport.incomingOffset) :
    transport.pending = [] := List.drop_eq_nil_of_le h

theorem delivered_attempt {retried : List Attempt} (attempt : Attempt)
    (h : delivered retried = []) :
    delivered (retried ++ [attempt]) =
      if attempt.Succeeded then attempt.data else [] := by
  rw [delivered_append, h, List.nil_append, delivered]
  by_cases hsucceeded : attempt.Succeeded
  · simp [hsucceeded]
  · simp [hsucceeded]

/-- A read that makes no transfer. -/
theorem keeps_pending (h : transport.Good) (size : Nat) :
    let next := { transport with
      incomingOffset := transport.incomingOffset +
        min (transport.incoming.length - transport.incomingOffset) size }
    next.Good ∧ transport.pending = transport.pending.take size ++ next.pending := by
  refine ⟨⟨?_, h.size⟩, ?_⟩
  · have hoffset := h.offset
    dsimp only
    omega
  · rw [take_pending]
    dsimp only [pending]
    rw [← List.drop_drop, List.take_append_drop]

theorem split_data (data : Bytes) (size : Nat) :
    data = data.take size ++ data.drop (min data.length size) := by
  rcases Nat.le_total data.length size with hle | hle
  · rw [Nat.min_eq_left hle, List.take_of_length_le hle, List.drop_length,
      List.append_nil]
  · rw [Nat.min_eq_right hle, List.take_append_drop]

/-- What a read does to the bytes returned, to the attempts that are left and to
what the buffer holds: it is as it should be, or the transfer fails and leaves
something in the buffer. -/
theorem read_cases (strerror : Int → Bytes) (size : Nat) (h : transport.Good) :
    (∃ result next got, (read strerror size).run transport = (result, next) ∧
      next.Good ∧ transport.attempts = got ++ next.attempts ∧
      transport.pending ++ delivered got =
        result.toOption.getD [] ++ next.pending ∧ ¬transport.Fails) ∨
    (∃ e next got, (read strerror size).run transport = (.error e, next) ∧
      next.incomingOffset < next.incoming.length ∧
      transport.attempts = got ++ next.attempts ∧
      transport.pending ++ delivered got = [] ∧ transport.Fails) := by
  by_cases hpending : transport.incomingOffset < transport.incoming.length
  · have hfails : ¬transport.Fails := fun hfails => by
      have hempty := hfails.1
      omega
    obtain ⟨hgood, hsplit⟩ := keeps_pending h size
    exact .inl ⟨_, _, [], run_read_pending hpending, hgood, rfl,
      (List.append_nil _).trans hsplit, hfails⟩
  · have hempty : transport.incoming.length ≤ transport.incomingOffset := by omega
    have hnil := pending_of_le hempty
    cases htransfer : bulkTransfer transport.attempts with
    | none =>
        have hfails : ¬transport.Fails := by
          rintro ⟨-, -, attempt, rest, hsome, -⟩
          rw [htransfer] at hsome
          cases hsome
        exact .inl ⟨_, _, [], run_read_blocked hempty htransfer, h, rfl,
          List.append_nil _, hfails⟩
    | some outcome =>
        obtain ⟨attempt, rest⟩ := outcome
        obtain ⟨retried, hattempts, hretried⟩ := bulkTransfer_eq_some htransfer
        have hgot : transport.attempts = retried ++ [attempt] ++ rest := by
          rw [hattempts, List.append_assoc, List.singleton_append]
        have hdelivered := delivered_attempt attempt hretried
        by_cases hsucceeded : attempt.Succeeded
        · rw [if_pos hsucceeded] at hdelivered
          have hfails : ¬transport.Fails := by
            rintro ⟨-, -, failed, after, hsome, hfailed⟩
            rw [htransfer] at hsome
            cases hsome
            exact hfailed hsucceeded
          refine .inl ⟨_, _, _, run_read_succeeded hempty htransfer hsucceeded,
            ⟨Nat.min_le_left _ _, attempt.fits⟩, hgot, ?_, hfails⟩
          rw [hnil, hdelivered, List.nil_append]
          exact split_data attempt.data size
        · rw [if_neg hsucceeded] at hdelivered
          obtain ⟨e, hrun⟩ := @run_read_failed strerror _ size _ _ hempty
            htransfer hsucceeded
          have hresize := length_resize transport.incoming kReadBufferSize
          have hlength := length_overwrite (hresize.symm ▸ attempt.fits)
          rw [hresize] at hlength
          by_cases hfull : transport.incomingOffset < kReadBufferSize
          · refine .inr ⟨_, _, _, hrun, ?_, hgot, ?_, hempty, hfull, attempt, rest,
              htransfer, hsucceeded⟩
            · exact hlength.symm ▸ hfull
            · rw [hnil, hdelivered, List.nil_append]
          · have hoffset := h.offset
            have hsize := h.size
            have hend : transport.incomingOffset = kReadBufferSize := by omega
            refine .inl ⟨_, _, _, hrun, ⟨?_, hlength.le⟩, hgot, ?_,
              fun hfails => hfull hfails.2.1⟩
            · exact hend.trans hlength.symm |>.le
            · rw [hnil, hdelivered, List.nil_append]
              exact (pending_of_le (hlength.trans hend.symm).le).symm

theorem attempts_read (strerror : Int → Bytes) (size : Nat)
    (transport : UsbTransport) :
    ∃ got, transport.attempts =
      got ++ ((read strerror size).run transport).2.attempts := by
  by_cases hpending : transport.incomingOffset < transport.incoming.length
  · rw [run_read_pending hpending]
    exact ⟨[], rfl⟩
  · have hempty : transport.incoming.length ≤ transport.incomingOffset := by omega
    cases htransfer : bulkTransfer transport.attempts with
    | none =>
        rw [run_read_blocked hempty htransfer]
        exact ⟨[], rfl⟩
    | some outcome =>
        obtain ⟨attempt, rest⟩ := outcome
        obtain ⟨retried, hattempts, -⟩ := bulkTransfer_eq_some htransfer
        refine ⟨retried ++ [attempt], ?_⟩
        rw [hattempts, List.append_assoc, List.singleton_append]
        by_cases hsucceeded : attempt.Succeeded
        · rw [run_read_succeeded hempty htransfer hsucceeded]
        · obtain ⟨e, hrun⟩ := @run_read_failed strerror _ size _ _ hempty
            htransfer hsucceeded
          rw [hrun]

theorem attempts_readAll (strerror : Int → Bytes) (sizes : List Nat)
    (transport : UsbTransport) :
    ∃ taken, transport.attempts =
      taken ++ (readAll strerror sizes transport).2.attempts := by
  induction sizes generalizing transport with
  | nil => exact ⟨[], rfl⟩
  | cons size sizes ih =>
      obtain ⟨got, hgot⟩ := attempts_read strerror size transport
      obtain ⟨taken, htaken⟩ := ih ((read strerror size).run transport).2
      refine ⟨got ++ taken, ?_⟩
      rw [hgot, htaken, List.append_assoc]
      rfl

/-- The first read can be taken away, with what it did. -/
theorem nothingStale_cons {result : Result Bytes} {next : UsbTransport}
    {got : List Attempt} {before after : Bytes} {sizes : List Nat}
    (hrun : (read strerror size).run transport = (result, next))
    (hattempts : transport.attempts = got ++ next.attempts)
    (hbytes : before ++ delivered got = result.toOption.getD [] ++ after) :
    NothingStale strerror before transport (size :: sizes) ↔
      NothingStale strerror after next sizes := by
  have hcons : ∀ made, readAll strerror (size :: made) transport =
      (result :: (readAll strerror made next).1,
        (readAll strerror made next).2) := by
    intro made
    rw [readAll, hrun]
  have hfront : ∀ made taken,
      (returned (result :: (readAll strerror made next).1) <+:
        before ++ delivered (got ++ taken)) ↔
      returned (readAll strerror made next).1 <+: after ++ delivered taken := by
    intro made taken
    rw [delivered_append, ← List.append_assoc, hbytes, List.append_assoc]
    exact List.prefix_append_right_inj _
  constructor
  · intro h made hmade
    obtain ⟨taken, htaken, hreturned⟩ := h (size :: made)
      (List.cons_prefix_cons.mpr ⟨rfl, hmade⟩)
    obtain ⟨taken', htaken'⟩ := attempts_readAll strerror made next
    rw [hcons] at htaken hreturned
    have heq : taken = got ++ taken' := by
      rw [hattempts, htaken', ← List.append_assoc] at htaken
      exact (List.append_cancel_right htaken).symm
    rw [heq] at hreturned
    exact ⟨taken', htaken', (hfront made taken').mp hreturned⟩
  · intro h made hmade
    cases made with
    | nil => exact ⟨[], rfl, List.nil_prefix⟩
    | cons first made =>
        obtain ⟨rfl, htail⟩ := List.cons_prefix_cons.mp hmade
        obtain ⟨taken, htaken, hreturned⟩ := h made htail
        refine ⟨got ++ taken, ?_, ?_⟩
        · rw [hcons, hattempts, htaken, List.append_assoc]
        · rw [hcons]
          exact (hfront made taken).mpr hreturned

/-- After a failure left something in the buffer, only reads of nothing return
nothing. -/
theorem nothingStale_stale {next : UsbTransport} {sizes : List Nat}
    (h : next.incomingOffset < next.incoming.length) :
    NothingStale strerror [] next sizes ↔ ∀ size ∈ sizes, size = 0 := by
  induction sizes with
  | nil =>
      refine ⟨by simp, fun _ made hmade => ?_⟩
      rw [List.prefix_nil.mp hmade]
      exact ⟨[], rfl, List.nil_prefix⟩
  | cons size sizes ih =>
      have hrun := @run_read_pending strerror _ size h
      rw [List.forall_mem_cons]
      by_cases hzero : size = 0
      · subst hzero
        rw [Nat.min_zero, List.take_zero] at hrun
        have hcons : NothingStale strerror [] next (0 :: sizes) ↔
            NothingStale strerror [] next sizes :=
          @nothingStale_cons _ _ _ _ _ [] [] [] sizes hrun rfl rfl
        exact hcons.trans (ih.trans (by simp))
      · constructor
        · intro hstale
          obtain ⟨taken, htaken, hfront⟩ := hstale [size]
            (List.cons_prefix_cons.mpr ⟨rfl, List.nil_prefix⟩)
          rw [readAll, hrun] at htaken hfront
          have hnil : taken = [] := List.self_eq_append_left.mp htaken
          rw [hnil] at hfront
          have hempty : next.pending.take size ++ [] = [] :=
            List.prefix_nil.mp hfront
          have hlength := congrArg List.length hempty
          rw [List.append_nil, List.length_take, pending, List.length_drop,
            List.length_nil] at hlength
          omega
        · intro hall
          exact absurd hall.1 hzero

theorem careful_stale {next : UsbTransport} {sizes : List Nat}
    (h : next.incomingOffset < next.incoming.length)
    (hzero : ∀ size ∈ sizes, size = 0) : Careful strerror next sizes := by
  induction sizes with
  | nil => trivial
  | cons size sizes ih =>
      obtain ⟨rfl, hzeros⟩ := List.forall_mem_cons.mp hzero
      have hrun := @run_read_pending strerror _ 0 h
      rw [Nat.min_zero] at hrun
      refine ⟨fun hfails => hzeros, ?_⟩
      rw [hrun]
      exact ih hzeros

theorem nothingStale_iff {sizes : List Nat} (h : transport.Good) :
    NothingStale strerror transport.pending transport sizes ↔
      Careful strerror transport sizes := by
  induction sizes generalizing transport with
  | nil =>
      refine ⟨fun _ => trivial, fun _ made hmade => ?_⟩
      rw [List.prefix_nil.mp hmade]
      exact ⟨[], rfl, List.nil_prefix⟩
  | cons size sizes ih =>
      rcases read_cases strerror size h with
        ⟨result, next, got, hrun, hgood, hattempts, hbytes, hfails⟩ |
        ⟨e, next, got, hrun, hstale, hattempts, hbytes, hfails⟩
      · rw [nothingStale_cons hrun hattempts hbytes, ih hgood, Careful, hrun]
        exact ⟨fun hcareful => ⟨fun h => absurd h hfails, hcareful⟩, And.right⟩
      · have hcons : NothingStale strerror transport.pending transport
            (size :: sizes) ↔ NothingStale strerror [] next sizes :=
          nothingStale_cons hrun hattempts hbytes
        rw [hcons, nothingStale_stale hstale, Careful, hrun]
        exact ⟨fun hzero => ⟨fun _ => hzero, careful_stale hstale hzero⟩,
          fun hcareful => hcareful.1 hfails⟩

/-- The bytes that the reads of a new transport return are, after each read, a prefix of
what the successful transfers delivered, if and only if the reads are careful: behind a
read whose transfer failed none asks for bytes, unless the buffer was full before. -/
theorem nothingStale_iff_careful (strerror : Int → Bytes)
    (attempts : List Attempt) (sizes : List Nat) :
    NothingStale strerror [] { attempts := attempts } sizes ↔
      Careful strerror { attempts := attempts } sizes :=
  nothingStale_iff ⟨Nat.zero_le _, Nat.zero_le _⟩

/-- A transfer that fails after two bytes: the next read returns them. -/
theorem not_nothingStale_failedTransfer :
    ¬NothingStale (fun _ => []) [] {
      attempts := [{
        rc := -1
        data := [1, 2]
        expired := false
        fits := by decide }] } [2, 2] := by
  intro hstale
  obtain ⟨hzero, -⟩ := (@nothingStale_iff (fun _ => []) { attempts := _ } _
    ⟨Nat.zero_le _, Nat.zero_le _⟩).mp hstale
  have hfailed : ¬Attempt.Succeeded {
      rc := -1
      data := [1, 2]
      expired := false
      fits := by decide } := by
    rintro (hrc | ⟨hrc, -⟩) <;> cases hrc
  have hlater := hzero ⟨Nat.le_refl 0, by decide, _, _, rfl, hfailed⟩ 2
    List.mem_cons_self
  cases hlater

end UsbTransport

end Ioscpp.Usb
