import Ioscpp.Connection

/-!
# Streams on a direct link

A `Stream` is one mux TCP connection to a port of the device.  It reads the
frames of its connection and skips those that are not for its two ports; it
acknowledges each frame that it takes, and keeps what a read leaves of a
payload.

A stream object can be moved from.  It has no connection then, and is closed.
-/

namespace Ioscpp

open Ioscpp.Support
open Ioscpp.Protocol

structure Stream where
  /-- Whether the object has its connection: it was not moved from. -/
  attached : Bool := true
  localPort : UInt16
  remotePort : UInt16
  txSeq : UInt32 := 1
  txAck : UInt32 := 1
  closed : Bool := false
  resetReason : Bytes := []
  /-- The payloads received, but for those that were returned whole. -/
  incoming : Bytes := []
  /-- The bytes of it that were returned. -/
  incomingOffset : Nat := 0
  deriving DecidableEq, Repr

namespace Stream

/-- The longest payload of a frame, whatever the version. -/
def kMaxPayload : Nat := 3 * 16384 - kMuxHeaderSize - kTcpHeaderSize

/-- The receive window, as the header carries it. -/
def kTcpWindow : UInt16 := UInt16.ofNat (131072 >>> 8)

/-- The diagnostic that a reset may carry, without the end of its line. -/
def resetText (payload : Bytes) : Bytes :=
  payload.rdropWhile fun byte => byte = 0 ∨ byte = 0x0a ∨ byte = 0x0d

/-- The error of a refused port. -/
def refused (reason : Bytes) : Error where
  code := .device
  message :=
    if reason = [] then ascii "the device refused the port"
    else ascii "the device refused the port: " ++ reason

/-- The error of a read that a reset ended. -/
def resetError (reason : Bytes) : Error where
  code := .protocol
  message :=
    if reason = [] then
      ascii "the device reset the port before the read was satisfied"
    else ascii "the device reset the port: " ++ reason

/-- The header of the stream's next frame. -/
def header (stream : Stream) (flags : UInt8) : TcpHeader where
  sourcePort := stream.localPort
  destinationPort := stream.remotePort
  sequence := stream.txSeq
  acknowledgement := stream.txAck
  flags := flags
  window := kTcpWindow

/-- The TCP header and the payload of a frame, when it is one for these ports. -/
def acceptFrame (localPort remotePort : UInt16) (frame : Frame) :
    Result (Option (TcpHeader × Bytes)) :=
  if frame.header.protocol ≠ MuxProtocol.tcp.id ∨
      frame.payload.length < kTcpHeaderSize then return none
  else do
    let tcp ← TcpHeader.decode (← slice frame.payload 0 kTcpHeaderSize)
    if tcp.destinationPort ≠ localPort ∨ tcp.sourcePort ≠ remotePort then
      return none
    else return some (tcp, frame.payload.drop kTcpHeaderSize)

variable {τ : Type} [Transport τ]

/-- Reads frames until one is for these ports. -/
def receiveTcp (localPort remotePort : UInt16) :
    Nat → Action Error (τ × Connection) (TcpHeader × Bytes)
  | 0 => Action.lift (.error .outOfFuel)
  | fuel + 1 => do
      let frame ← Connection.receive
      match ← Action.lift (acceptFrame localPort remotePort frame) with
      | none => receiveTcp localPort remotePort fuel
      | some answer => return answer

/-! ## Operations of an object -/

/-- Changes the stream. -/
def update (f : Stream → Stream) :
    Action Error ((τ × Connection) × Stream) PUnit :=
  modify fun state => (state.1, f state.2)

/-- An operation of the stream's connection.  To use an object that was moved
from is to follow a null pointer. -/
def onConnection {α : Type} (x : Action Error (τ × Connection) α) :
    Action Error ((τ × Connection) × Stream) α := do
  let state ← get
  if state.2.attached then
    Action.zoom Prod.fst (fun state connection => (connection, state.2)) x
  else Action.lift (.error .outOfBounds)

/-- Resets the port, when this was not done and the link is up. -/
def closeNow : Action Error ((τ × Connection) × Stream) Unit := do
  let state ← get
  if state.2.closed ∨ ¬ state.2.attached then return ()
  else do
    update fun stream => { stream with closed := true }
    if state.1.2.closed then return ()
    else do
      let _ ← Action.attempt
        (onConnection (Connection.sendTcp (state.2.header TcpRst) []))
      return ()

/-- Opens a stream to a port: SYN, SYN|ACK, ACK. -/
def openDirect (fuel : Nat) (port : UInt16) :
    Action Error (τ × Connection) Stream := do
  let localPort ← Connection.allocateLocalPort
  Connection.sendTcp {
    sourcePort := localPort
    destinationPort := port
    flags := TcpSyn
    window := kTcpWindow } []
  let answer ← receiveTcp localPort port fuel
  if answer.1.flags &&& TcpRst ≠ 0 then
    Action.fail (refused (resetText answer.2))
  else if answer.1.flags ≠ TcpSyn ||| TcpAck then
    Action.fail (protocolError
      "the device did not answer the SYN with a SYN|ACK")
  else do
    let stream : Stream := {
      localPort, remotePort := port, txSeq := 1, txAck := answer.1.sequence + 1 }
    match ← Action.attempt (Connection.sendTcp (stream.header TcpAck) []) with
    | .ok () => return stream
    | .error fault => do
        -- the stream is destroyed here
        Action.zoom (fun state => (state, stream)) (fun _ part => part.1) closeNow
        Action.lift (.error fault)

/-- The loop that sends the data in frames.  A frame has a byte at least, so
`fuel` is the length of the data. -/
def writeLoop : Nat → Bytes → Action Error ((τ × Connection) × Stream) Unit
  | 0, data =>
      if data = [] then return () else Action.lift (.error .outOfFuel)
  | fuel + 1, data =>
      if data = [] then return ()
      else do
        let state ← get
        let chunk := min kMaxPayload data.length
        onConnection
          (Connection.sendTcp (state.2.header TcpAck) (data.take chunk))
        update fun stream =>
          { stream with txSeq := stream.txSeq + UInt32.ofNat chunk }
        writeLoop fuel (data.drop chunk)

/-- Writes the whole of `data`. -/
def write (data : Bytes) : Action Error ((τ × Connection) × Stream) Unit :=
  writeLoop data.length data

/-- Receives frames until one carries data for the stream; false is a reset.
Every frame of the stream is acknowledged, also an empty one. -/
def receiveMore : Nat → Action Error ((τ × Connection) × Stream) Bool
  | 0 => Action.lift (.error .outOfFuel)
  | fuel + 1 => do
      let state ← get
      let answer ← onConnection
        (receiveTcp state.2.localPort state.2.remotePort (fuel + 1))
      if answer.1.flags &&& TcpRst ≠ 0 then do
        update fun stream =>
          { stream with resetReason := resetText answer.2, closed := true }
        return false
      else do
        update fun stream => { stream with
          txAck := answer.1.sequence + UInt32.ofNat answer.2.length }
        let state ← get
        onConnection (Connection.sendTcp (state.2.header TcpAck) [])
        if answer.2 ≠ [] then do
          update fun stream =>
            { stream with incoming := stream.incoming ++ answer.2 }
          return true
        else receiveMore fuel

/-- Receives more when everything received was returned. -/
def replenish (turns : Nat) : Action Error ((τ × Connection) × Stream) Unit := do
  let state ← get
  if state.2.incomingOffset = state.2.incoming.length then do
    update fun stream => { stream with incoming := [], incomingOffset := 0 }
    if ← receiveMore turns then return ()
    else do
      let state ← get
      Action.fail (resetError state.2.resetReason)
  else return ()

/-- Takes up to `count` bytes of what was received. -/
def takeIncoming (count : Nat) :
    Action Error ((τ × Connection) × Stream) Bytes := do
  let state ← get
  let data := (state.2.incoming.drop state.2.incomingOffset).take count
  update fun stream =>
    { stream with incomingOffset := stream.incomingOffset + data.length }
  return data

/-- The loop that reads what is missing.  A turn takes a byte at least. -/
def readExactLoop (count turns : Nat) : Nat → Bytes →
    Action Error ((τ × Connection) × Stream) Bytes
  | 0, data =>
      if count ≤ data.length then return data
      else Action.lift (.error .outOfFuel)
  | fuel + 1, data =>
      if count ≤ data.length then return data
      else do
        replenish turns
        let more ← takeIncoming (count - data.length)
        readExactLoop count turns fuel (data ++ more)

/-- Reads exactly `count` bytes. -/
def readExact (count turns : Nat) :
    Action Error ((τ × Connection) × Stream) Bytes :=
  readExactLoop count turns count []

/-- Reads everything until the device resets the port. -/
def readAllLoop (turns : Nat) : Nat → Bytes →
    Action Error ((τ × Connection) × Stream) Bytes
  | 0, _ => Action.lift (.error .outOfFuel)
  | fuel + 1, output => do
      let state ← get
      if state.2.incomingOffset < state.2.incoming.length then do
        update fun stream =>
          { stream with incomingOffset := stream.incoming.length }
        readAllLoop turns fuel
          (output ++ state.2.incoming.drop state.2.incomingOffset)
      else do
        update fun stream => { stream with incoming := [], incomingOffset := 0 }
        if ← receiveMore turns then readAllLoop turns fuel output
        else return output

def readAll (turns fuel : Nat) :
    Action Error ((τ × Connection) × Stream) Bytes :=
  readAllLoop turns fuel []

/-! ## Moves -/

/-- An object after it was moved from. -/
def movedFrom (other : Stream) : Stream :=
  { other with attached := false, closed := true, resetReason := [], incoming := [] }

/-! ## What the operations keep of the connection -/

section Keeps

/-- A fact that the session and the transport have no part in. -/
def Apart (I : τ × Connection → Prop) : Prop :=
  ∀ link transport session, I link → I (transport, { link.2 with session })

variable {I : τ × Connection → Prop}

omit [Transport τ] in
theorem keeps_onSession {α : Type} (hI : Apart I)
    (x : Action Error (τ × Session) α) :
    Action.Keeps I (Connection.onSession x) :=
  Action.keeps_zoom fun link part h => hI link part.1 part.2 h

/-- What receiving a frame keeps, the wait for one of the stream keeps. -/
theorem keeps_receiveTcp (h : Action.Keeps I Connection.receive)
    (localPort remotePort : UInt16) (fuel : Nat) :
    Action.Keeps I (receiveTcp localPort remotePort fuel) := by
  induction fuel with
  | zero => exact Action.keeps_lift _
  | succ fuel ih =>
      refine h.bind fun frame =>
        (Action.keeps_lift _).bind fun answer => ?_
      cases answer with
      | none => exact ih
      | some answer => exact Action.keeps_pure _

omit [Transport τ] in
/-- An operation of the connection keeps what the connection's own operation
keeps. -/
theorem keeps_onConnection {α : Type} {x : Action Error (τ × Connection) α}
    (h : Action.Keeps I x) :
    Action.Keeps (fun state : (τ × Connection) × Stream => I state.1)
      (onConnection x) := by
  refine Action.Keeps.get_bind fun state => Action.keeps_ite ?_ (Action.keeps_lift _)
  refine Action.Triple.zoom fun state hstate => ?_
  exact h.imp_pre fun link hlink => hlink ▸ hstate

theorem keeps_closeNow (hI : Apart I) :
    Action.Keeps (fun state : (τ × Connection) × Stream => I state.1)
      closeNow := by
  refine Action.Keeps.get_bind fun state =>
    Action.keeps_ite (Action.keeps_pure _) ?_
  refine Action.Keeps.bind (Action.keeps_modify fun _ h => h) fun _ =>
    Action.keeps_ite (Action.keeps_pure _) ?_
  exact Action.Keeps.bind (keeps_onConnection (keeps_onSession hI _)).attempt
    fun _ => Action.keeps_pure _

end Keeps

/-! ## A stream that was opened -/

/-- A new stream has the port that was next; an open that fails uses it up. -/
theorem triple_openDirect (fuel : Nat) (port localPort : UInt16) :
    Action.Triple (fun link : τ × Connection => link.2.nextPort = localPort)
      (openDirect fuel port)
      (fun stream link =>
        stream = { localPort, remotePort := port, txAck := stream.txAck } ∧
        link.2.nextPort = localPort + 1)
      (fun _ link => link.2.nextPort = localPort + 1) := by
  have hI : Apart fun link : τ × Connection =>
      link.2.nextPort = localPort + 1 := fun _ _ _ h => h
  have hallocate : Action.Triple
      (fun link : τ × Connection => link.2.nextPort = localPort)
      Connection.allocateLocalPort
      (fun allocated link => allocated = localPort ∧
        link.2.nextPort = localPort + 1)
      (fun _ link => link.2.nextPort = localPort + 1) := by
    rintro link rfl
    exact ⟨rfl, rfl⟩
  refine hallocate.bind fun allocated => ?_
  refine Action.Triple.of_state fun first hfirst => ?_
  obtain ⟨rfl, hnext⟩ := hfirst
  refine Action.Triple.bind
    ((keeps_onSession hI _).imp_pre fun _ h => h ▸ hnext) fun _ => ?_
  refine Action.Triple.bind (keeps_receiveTcp (keeps_onSession hI _) _ _ _)
    fun answer => ?_
  refine Action.Triple.ite (fun _ => Action.Triple.fail fun _ h => h) fun _ => ?_
  refine Action.Triple.ite (fun _ => Action.Triple.fail fun _ h => h) fun _ => ?_
  refine Action.Triple.bind (keeps_onSession hI _).attempt fun result => ?_
  cases result with
  | ok => exact Action.Triple.pure fun _ h => ⟨rfl, h⟩
  | error fault =>
      refine Action.Triple.bind (Q := fun _ link => link.2.nextPort = _) ?_
        fun _ => Action.Triple.lift (fun _ h => by cases h) fun _ _ _ h => h
      refine Action.Triple.zoom fun link hlink => ?_
      exact (keeps_closeNow hI).imp_pre fun _ h => h ▸ hlink

end Stream

end Ioscpp
