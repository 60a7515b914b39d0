import Ioscpp.TcpLinkSequence
import Ioscpp.Support.ActionLog

/-!
# A link with a log

The operations of a link beside the log of the segments that it took and of those
that it handed to the tunnel, in their order.  They are the link's own, with an
event noted at `sendSegment` and at `receiveSegment`; without the log they are the
link's operations.
-/

namespace Ioscpp.TcpLink

open Ioscpp.Support
open Ioscpp.Protocol

/-- What a link does with segments. -/
inductive LinkEvent where
  | took (segment : Segment)
  | sent (flags : UInt8) (payload : Bytes)
  deriving DecidableEq, Repr

namespace Logged

variable {τ : Type} [Transport τ]

/-- An operation that is observed. -/
abbrev LoggedAction (τ α : Type) :=
  Action Error ((τ × TcpLink) × List LinkEvent) α

def sendSegment (flags : UInt8) (payload : Bytes) : LoggedAction τ Unit := do
  Action.note (.sent flags payload)
  Action.quiet (TcpLink.sendSegment flags payload)

def receiveSegment (fuel : Nat) : LoggedAction τ Segment := do
  let segment ← Action.quiet (TcpLink.receiveSegment fuel)
  Action.note (.took segment)
  return segment

def awaitSynAck : Nat → LoggedAction τ Unit
  | 0 => Action.lift (.error .outOfFuel)
  | fuel + 1 => do
      let segment ← receiveSegment (fuel + 1)
      if segment.flags &&& TcpRst ≠ 0 then
        Action.fail ⟨.device, ascii "the RSD refused the connection"⟩
      else if segment.flags &&& (TcpSyn ||| TcpAck) = TcpSyn ||| TcpAck then do
        Action.quiet
          (update fun link => { link with recvSeq := segment.sequence + 1 })
        sendSegment TcpAck []
        Action.quiet (update fun link => { link with established := true })
      else awaitSynAck fuel

def connect (fuel : Nat) (address : Bytes) (port : UInt16) :
    LoggedAction τ Unit := do
  let state ← Action.quiet get
  if !state.2.sourceValid then
    Action.fail (protocolError "the tunnel-local address is not IPv6")
  else do
    let destination ← Action.lift (parseIpv6 address)
    Action.quiet (update fun link =>
      { link with destination, peerPort := port, sendSeq := 0, recvSeq := 0 })
    sendSegment TcpSyn []
    awaitSynAck fuel

def handleSegment (segment : Segment) (again : LoggedAction τ Bool) :
    LoggedAction τ Bool :=
  if segment.flags &&& TcpRst ≠ 0 then do
    Action.quiet (update fun link => { link with closed := true })
    Action.fail ⟨.device, ascii "the device reset the connection"⟩
  else if segment.flags &&& TcpFin ≠ 0 then do
    Action.quiet (update fun link => { link with
      recvSeq := segment.sequence + UInt32.ofNat segment.payload.length + 1 })
    let _ ← Action.attempt (sendSegment (TcpAck ||| TcpFin) [])
    Action.quiet (update fun link => { link with closed := true })
    if segment.payload = [] then return false
    else do
      Action.quiet (update fun link => { link with incoming := segment.payload })
      again
  else if segment.payload ≠ [] then do
    Action.quiet (update fun link => { link with
      recvSeq := segment.sequence + UInt32.ofNat segment.payload.length })
    sendSegment TcpAck []
    Action.quiet (update fun link => { link with incoming := segment.payload })
    again
  else again

def awaitIncoming : Nat → LoggedAction τ Bool
  | 0 => do
      let state ← Action.quiet get
      if state.2.incomingOffset ≠ state.2.incoming.length then return true
      else Action.lift (.error .outOfFuel)
  | fuel + 1 => do
      let state ← Action.quiet get
      if state.2.incomingOffset ≠ state.2.incoming.length then return true
      else do
        Action.quiet
          (update fun link => { link with incoming := [], incomingOffset := 0 })
        if state.2.closed then return false
        else do
          let segment ← receiveSegment (fuel + 1)
          handleSegment segment (awaitIncoming fuel)

def read (count fuel : Nat) : LoggedAction τ Bytes := do
  if ← awaitIncoming fuel then Action.quiet (takeIncoming count) else return []

def writeLoop : Nat → Bytes → LoggedAction τ Unit
  | 0, data =>
      if data = [] then return () else Action.lift (.error .outOfFuel)
  | fuel + 1, data =>
      if data = [] then return ()
      else do
        let state ← Action.quiet get
        let chunk := min state.2.mss data.length
        sendSegment TcpAck (data.take chunk)
        writeLoop fuel (data.drop chunk)

def write (data : Bytes) : LoggedAction τ Unit := writeLoop data.length data

def close : LoggedAction τ Unit := do
  let state ← Action.quiet get
  if state.2.closed then return ()
  else do
    Action.quiet (update fun link => { link with closed := true })
    if state.2.established then do
      let _ ← Action.attempt (sendSegment (TcpFin ||| TcpAck) [])
      return ()
    else return ()

/-! ## Without the log -/

section Erases

theorem erases_sendSegment (flags : UInt8) (payload : Bytes) :
    Action.Erases (sendSegment flags payload : LoggedAction τ Unit)
      (TcpLink.sendSegment flags payload) :=
  (Action.erases_quiet _).note_bind _

theorem erases_receiveSegment (fuel : Nat) :
    Action.Erases (receiveSegment fuel : LoggedAction τ Segment)
      (TcpLink.receiveSegment fuel) := by
  have h : Action.Erases (receiveSegment fuel : LoggedAction τ Segment)
      (TcpLink.receiveSegment fuel >>= fun segment => pure segment) :=
    (Action.erases_quiet _).bind fun segment =>
      (Action.erases_pure segment).note_bind _
  rwa [bind_pure] at h

theorem erases_awaitSynAck (fuel : Nat) :
    Action.Erases (awaitSynAck fuel : LoggedAction τ Unit)
      (TcpLink.awaitSynAck fuel) := by
  induction fuel with
  | zero => exact Action.erases_lift _
  | succ fuel ih =>
      refine (erases_receiveSegment _).bind fun segment =>
        (Action.erases_lift _).ite (Action.Erases.ite ?_ ih)
      exact (Action.erases_quiet _).bind fun _ =>
        (erases_sendSegment _ _).bind fun _ => Action.erases_quiet _

theorem erases_connect (fuel : Nat) (address : Bytes) (port : UInt16) :
    Action.Erases (connect fuel address port : LoggedAction τ Unit)
      (TcpLink.connect fuel address port) := by
  refine (Action.erases_quiet _).bind fun state =>
    (Action.erases_lift _).ite ?_
  exact (Action.erases_lift _).bind fun destination =>
    (Action.erases_quiet _).bind fun _ =>
      (erases_sendSegment _ _).bind fun _ => erases_awaitSynAck fuel

theorem erases_awaitIncoming (fuel : Nat) :
    Action.Erases (awaitIncoming fuel : LoggedAction τ Bool)
      (TcpLink.awaitIncoming fuel) := by
  induction fuel with
  | zero =>
      exact (Action.erases_quiet _).bind fun state =>
        (Action.erases_pure _).ite (Action.erases_lift _)
  | succ fuel ih =>
      refine (Action.erases_quiet _).bind fun state =>
        (Action.erases_pure _).ite ?_
      refine (Action.erases_quiet _).bind fun _ =>
        (Action.erases_pure _).ite ?_
      refine (erases_receiveSegment _).bind fun segment => ?_
      refine Action.Erases.ite ?_ (Action.Erases.ite ?_ (Action.Erases.ite ?_ ih))
      · exact (Action.erases_quiet _).bind fun _ => Action.erases_lift _
      · refine (Action.erases_quiet _).bind fun _ =>
          (erases_sendSegment _ _).attempt.bind fun _ =>
            (Action.erases_quiet _).bind fun _ => (Action.erases_pure _).ite ?_
        exact (Action.erases_quiet _).bind fun _ => ih
      · exact (Action.erases_quiet _).bind fun _ =>
          (erases_sendSegment _ _).bind fun _ =>
            (Action.erases_quiet _).bind fun _ => ih

theorem erases_read (count fuel : Nat) :
    Action.Erases (read count fuel : LoggedAction τ Bytes)
      (TcpLink.read count fuel) := by
  refine (erases_awaitIncoming fuel).bind fun more => ?_
  cases more with
  | true => exact Action.erases_quiet _
  | false => exact Action.erases_pure _

theorem erases_write (data : Bytes) :
    Action.Erases (write data : LoggedAction τ Unit) (TcpLink.write data) := by
  rw [write, TcpLink.write]
  generalize data.length = fuel
  induction fuel generalizing data with
  | zero => exact (Action.erases_pure _).ite (Action.erases_lift _)
  | succ fuel ih =>
      exact (Action.erases_pure _).ite ((Action.erases_quiet _).bind fun state =>
        (erases_sendSegment _ _).bind fun _ => ih _)

theorem erases_close :
    Action.Erases (close : LoggedAction τ Unit) TcpLink.close := by
  refine (Action.erases_quiet _).bind fun state => (Action.erases_pure _).ite ?_
  refine (Action.erases_quiet _).bind fun _ => Action.Erases.ite ?_
    (Action.erases_pure _)
  exact (erases_sendSegment _ _).attempt.bind fun _ => Action.erases_pure _

end Erases

end Logged

end Ioscpp.TcpLink
