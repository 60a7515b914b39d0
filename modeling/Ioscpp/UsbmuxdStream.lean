import Ioscpp.Stream

/-!
# Streams over usbmuxd

A stream that was opened over a socket to `usbmuxd` owns its transport, which
carries the raw bytes of the port: there is no mux and nothing is acknowledged.
Its exact read is the one of a direct link, over another way to receive more.

## Main results

- `UsbmuxdStream.triple_readExact`: an exact read returns the next bytes of the
  port, or fails when fewer come.
-/

namespace Ioscpp

open Ioscpp.Support

/-- A stream over `usbmuxd`: its transport, the bytes received but for those that
were returned whole, and how many of them were returned. -/
structure UsbmuxdStream (τ : Type) where
  transport : τ
  incoming : Bytes := []
  incomingOffset : Nat := 0

namespace UsbmuxdStream

/-- The most that is read at a time. -/
def kUsbMru : Nat := 16384

section Operations

variable {τ : Type} [Transport τ]

/-- An operation of the owned transport. -/
def onTransport {α : Type} (x : Action Error τ α) :
    Action Error (UsbmuxdStream τ) α :=
  Action.zoom transport (fun stream transport => { stream with transport }) x

/-- Hands the data to the transport. -/
def write (data : Bytes) : Action Error (UsbmuxdStream τ) Unit :=
  onTransport (Transport.write data)

/-- Reads what the transport has; false is the end of the stream. -/
def receiveMore : Action Error (UsbmuxdStream τ) Bool := do
  let bytes ← onTransport (Transport.read kUsbMru)
  if bytes = [] then return false
  else do
    modify fun stream => { stream with incoming := stream.incoming ++ bytes }
    return true

/-- Receives more when everything received was returned.  No reset gives a reason
for the end. -/
def replenish : Action Error (UsbmuxdStream τ) Unit := do
  let stream ← get
  if stream.incomingOffset = stream.incoming.length then do
    modify fun stream => { stream with incoming := [], incomingOffset := 0 }
    if ← receiveMore then return ()
    else Action.fail (Stream.resetError [])
  else return ()

/-- Takes up to `count` bytes of what was received. -/
def takeIncoming (count : Nat) : Action Error (UsbmuxdStream τ) Bytes := do
  let stream ← get
  let data := (stream.incoming.drop stream.incomingOffset).take count
  modify fun stream =>
    { stream with incomingOffset := stream.incomingOffset + data.length }
  return data

/-- The loop that reads what is missing.  A turn takes a byte at least. -/
def readExactLoop (count : Nat) : Nat → Bytes → Action Error (UsbmuxdStream τ) Bytes
  | 0, data =>
      if count ≤ data.length then return data
      else Action.lift (.error .outOfFuel)
  | fuel + 1, data =>
      if count ≤ data.length then return data
      else do
        replenish
        let more ← takeIncoming (count - data.length)
        readExactLoop count fuel (data ++ more)

/-- Reads exactly `count` bytes. -/
def readExact (count : Nat) : Action Error (UsbmuxdStream τ) Bytes :=
  readExactLoop count count []

end Operations

/-! ## Reading from a script -/

/-- The bytes that were received and not returned. -/
def unread {τ : Type} (stream : UsbmuxdStream τ) : Bytes :=
  stream.incoming.drop stream.incomingOffset

/-- These are the bytes that reads have still to return before the transport fails
or ends. -/
structure Holds (rest : Bytes) (stream : UsbmuxdStream ScriptedTransport) :
    Prop where
  offset : stream.incomingOffset ≤ stream.incoming.length
  bytes : stream.unread ++ stream.transport.ahead = rest

variable {rest : Bytes}

/-- More is received until nothing comes. -/
theorem triple_receiveMore :
    Action.Triple
      (fun stream : UsbmuxdStream ScriptedTransport => Holds rest stream ∧
        stream.incoming = [])
      receiveMore
      (fun more stream => if more then Holds rest stream ∧ stream.unread ≠ []
        else rest = [])
      (fun _ _ => rest = []) := by
  have hread : Action.Triple
      (fun stream : UsbmuxdStream ScriptedTransport => Holds rest stream ∧
        stream.incoming = [])
      (onTransport (Transport.read kUsbMru))
      (fun bytes stream => bytes = [] ∧ rest = [] ∨ bytes ≠ [] ∧
        stream.incoming = [] ∧ stream.incomingOffset = 0 ∧
        rest = bytes ++ stream.transport.ahead)
      (fun _ _ => rest = []) := by
    refine Action.Triple.zoom fun stream hstream => ?_
    obtain ⟨h, hnil⟩ := hstream
    have hoffset : stream.incomingOffset = 0 := by
      have hle := h.offset
      rw [hnil] at hle
      exact Nat.le_zero.mp hle
    have hrest : stream.transport.ahead = rest := by
      rw [← h.bytes, unread, hnil, List.drop_nil, List.nil_append]
    refine (ScriptedTransport.triple_read_ahead
      (by decide : 0 < kUsbMru) rest).imp ?_ ?_ fun _ _ h => h
    · rintro _ rfl
      exact hrest
    · rintro bytes transport (hnone | ⟨hne, hbytes⟩)
      · exact .inl hnone
      · exact .inr ⟨hne, hnil, hoffset, hbytes⟩
  refine hread.bind fun bytes => Action.Triple.ite (fun hnil => ?_) fun hne => ?_
  · refine Action.Triple.pure fun stream hstream => ?_
    rcases hstream with ⟨-, hrest⟩ | ⟨hne, -⟩
    · exact hrest
    · exact absurd hnil hne
  · refine Action.Triple.bind (Q := fun _ stream => Holds rest stream ∧
      stream.unread ≠ []) (Action.Triple.modify ?_)
        fun _ => Action.Triple.pure fun _ h => h
    rintro stream (⟨hnil, -⟩ | ⟨-, hincoming, hoffset, rfl⟩)
    · exact absurd hnil hne
    · refine ⟨⟨?_, ?_⟩, ?_⟩
      · rw [hoffset]
        exact Nat.zero_le _
      · rw [unread, hincoming, hoffset]
        rfl
      · rw [unread, hincoming, hoffset]
        exact hne

/-- After this there are bytes to return, or the transport has no more. -/
theorem triple_replenish :
    Action.Triple (Holds rest) replenish
      (fun _ stream => Holds rest stream ∧ stream.unread ≠ [])
      (fun _ _ => rest = []) := by
  refine Action.Triple.get_bind fun stream h => Action.Triple.ite ?_ ?_
  · intro hspent
    refine Action.Triple.bind (Q := fun _ other => Holds rest other ∧
      other.incoming = []) (Action.Triple.modify ?_) fun _ => ?_
    · rintro _ rfl
      refine ⟨⟨Nat.le_refl 0, ?_⟩, rfl⟩
      rw [← h.bytes, unread, unread, hspent, List.drop_length]
      rfl
    · refine triple_receiveMore.bind fun more => ?_
      cases more with
      | true => exact Action.Triple.pure fun _ h => h
      | false => exact Action.Triple.fail fun _ h => h
  · intro hleft
    refine Action.Triple.pure ?_
    rintro _ rfl
    refine ⟨h, fun hnil => ?_⟩
    have hoffset := h.offset
    have hlength := congrArg List.length hnil
    rw [unread, List.length_drop, List.length_nil] at hlength
    omega

/-- Bytes that were received are returned. -/
theorem Holds.take {stream : UsbmuxdStream ScriptedTransport}
    (h : Holds rest stream) (count : Nat) :
    ∃ next, (takeIncoming count).run stream =
        (.ok (stream.unread.take count), next) ∧
      stream.unread.take count <+: rest ∧
      Holds (rest.drop (stream.unread.take count).length) next := by
  have hle : (stream.unread.take count).length ≤ stream.unread.length :=
    List.length_take_le' _ _
  refine ⟨_, rfl, ?_, ?_, ?_⟩
  · rw [← h.bytes]
    exact (List.take_prefix _ _).trans (List.prefix_append _ _)
  · have hoffset := h.offset
    have hlength : stream.unread.length =
        stream.incoming.length - stream.incomingOffset := List.length_drop
    have hsize : (stream.unread.take count).length ≤
        stream.incoming.length - stream.incomingOffset := hlength ▸ hle
    change stream.incomingOffset + (stream.unread.take count).length ≤
      stream.incoming.length
    omega
  · rw [← h.bytes, List.drop_append_of_le_length hle]
    congr 1
    rw [unread, unread, List.drop_drop]

/-- The loop returns what is missing, or less comes than that. -/
theorem triple_readExactLoop {count fuel : Nat} {data : Bytes}
    (hdata : data.length ≤ count) (hfuel : count ≤ data.length + fuel) :
    Action.Triple (Holds rest) (readExactLoop count fuel data)
      (fun bytes stream => count - data.length ≤ rest.length ∧
        bytes = data ++ rest.take (count - data.length) ∧
        Holds (rest.drop (count - data.length)) stream)
      (fun _ _ => rest.length < count - data.length) := by
  induction fuel generalizing rest data with
  | zero =>
      refine Action.Triple.ite (fun hle => ?_) fun hlt => absurd hfuel hlt
      refine Action.Triple.pure fun stream h => ?_
      rw [Nat.sub_eq_zero_of_le hle, List.take_zero, List.append_nil, List.drop_zero]
      exact ⟨Nat.zero_le _, rfl, h⟩
  | succ fuel ih =>
      refine Action.Triple.ite (fun hle => ?_) fun hlt => ?_
      · refine Action.Triple.pure fun stream h => ?_
        rw [Nat.sub_eq_zero_of_le hle, List.take_zero, List.append_nil,
          List.drop_zero]
        exact ⟨Nat.zero_le _, rfl, h⟩
      · refine Action.Triple.bind (triple_replenish.imp_post (fun _ _ h => h) ?_)
          fun _ => Action.Triple.of_state ?_
        · rintro _ _ rfl
          rw [List.length_nil]
          omega
        · rintro middle ⟨hmiddle, hunread⟩
          obtain ⟨next, hrun, hprefix, hnext⟩ := hmiddle.take (count - data.length)
          refine Action.Triple.bind_of_run hrun ?_
          have hpos := List.length_pos_iff.mpr hunread
          have hmore : 0 < (middle.unread.take (count - data.length)).length := by
            rw [List.length_take]
            omega
          have hsize : (middle.unread.take (count - data.length)).length ≤
              count - data.length := List.length_take_le _ _
          generalize middle.unread.take (count - data.length) = more at *
          obtain ⟨rest, rfl⟩ := hprefix
          rw [List.drop_left] at hnext
          have hmissing : count - (data ++ more).length =
              count - data.length - more.length := by
            rw [List.length_append, Nat.sub_sub]
          refine ((@ih rest (data ++ more) (by rw [List.length_append]; omega)
            (by rw [List.length_append]; omega)).at_state hnext).imp_post ?_ ?_
          · rintro bytes last ⟨henough, rfl, hlast⟩
            rw [hmissing] at henough hlast
            refine ⟨by rw [List.length_append]; omega, ?_, ?_⟩
            · rw [hmissing, List.take_append, List.take_of_length_le hsize,
                List.append_assoc]
            · rw [List.drop_append, List.drop_of_length_le hsize, List.nil_append]
              exact hlast
          · intro e last hshort
            rw [hmissing] at hshort
            rw [List.length_append]
            omega

/-- An exact read returns the next bytes and leaves the others, or fails when fewer come
before the transport ends. -/
theorem triple_readExact (count : Nat) :
    Action.Triple (Holds rest) (readExact count)
      (fun bytes stream => count ≤ rest.length ∧ bytes = rest.take count ∧
        Holds (rest.drop count) stream)
      (fun _ _ => rest.length < count) :=
  triple_readExactLoop (Nat.zero_le _) (by simp)

end UsbmuxdStream

end Ioscpp
