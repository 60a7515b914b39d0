import Ioscpp.Protocol.Usbmux
import Ioscpp.TransportReading

/-!
# The mux session

A session frames the byte stream of a transport and numbers the frames.  The
header of a frame depends on the version that was negotiated; before the
handshake it is 0, and the header is that of version 1.

## Main results

- `run_send`: a frame that fits is numbered, and handed to the transport.
- `run_receive`: a whole frame in front of a script is received, however it is cut.
-/

namespace Ioscpp

open Ioscpp.Support
open Ioscpp.Protocol

/-- The largest frame. -/
def kMaxFrameSize : Nat := 3 * 16384

/-- A whole mux frame. -/
structure Frame where
  header : MuxHeader
  payload : Bytes
  deriving DecidableEq, Repr

/-- The session's own state; the transport stands beside it. -/
structure Session where
  version : UInt32 := 0
  txSeq : UInt16 := 0
  rxSeq : UInt16 := 0
  deriving DecidableEq, Repr

namespace Session

/-- The error of a link that ends inside a frame. -/
def closedMidFrame : Error :=
  protocolError "the device closed the link mid-frame"

/-- Restarts the numbers, as the setup packet of version 2 does. -/
def resetSequences (session : Session) : Session :=
  { session with txSeq := 0, rxSeq := 0xffff }

/-- The header of the next frame. -/
def nextHeader (session : Session) (protocol : MuxProtocol) (payload : Bytes) :
    MuxHeader where
  protocol := protocol.id
  length := UInt32.ofNat (MuxHeader.wireSize session.version + payload.length)
  magic := kMuxMagic
  txSeq := session.txSeq
  rxSeq := session.rxSeq

/-- The bytes of the next frame. -/
def frameBytes (session : Session) (protocol : MuxProtocol) (payload : Bytes) :
    Bytes :=
  ((session.nextHeader protocol payload).encode session.version).take
    (MuxHeader.wireSize session.version) ++ payload

variable {τ : Type} [Transport τ]

/-- An operation of the transport. -/
def onTransport {α : Type} (x : Action Error τ α) :
    Action Error (τ × Session) α :=
  Action.zoom Prod.fst (fun state transport => (transport, state.2)) x

/-- Sends a frame.  Its number is taken before it is written. -/
def send (protocol : MuxProtocol) (payload : Bytes) :
    Action Error (τ × Session) Unit := do
  let state ← get
  if kMaxFrameSize - MuxHeader.wireSize state.2.version < payload.length then
    Action.fail ⟨.invalidArgument,
      ascii "the payload does not fit in one mux frame"⟩
  else do
    modify fun state => (state.1, { state.2 with txSeq := state.2.txSeq + 1 })
    onTransport (Transport.write (state.2.frameBytes protocol payload))

/-- Reads exactly one frame. -/
def receive : Action Error (τ × Session) Frame := do
  let state ← get
  let headerSize := MuxHeader.wireSize state.2.version
  let headerBytes ← onTransport (Transport.readExact closedMidFrame headerSize)
  let header ← Action.lift (MuxHeader.decode headerBytes state.2.version)
  if header.length.toNat < headerSize ∨ kMaxFrameSize < header.length.toNat then
    Action.fail (protocolError "the mux frame length is out of range")
  else do
    let payload ← onTransport
      (Transport.readExact closedMidFrame (header.length.toNat - headerSize))
    -- the number that the device acknowledges is the one sent back to it
    modify fun state => (state.1, { state.2 with rxSeq := header.rxSeq })
    return { header, payload }

/-! ## Sending -/

/-- A payload that fits in a frame: with the header of the version it is no longer than
the largest frame. -/
def Fits (version : UInt32) (payload : Bytes) : Prop :=
  payload.length ≤ kMaxFrameSize - MuxHeader.wireSize version

theorem length_frameBytes (session : Session) (protocol : MuxProtocol)
    (payload : Bytes) :
    (session.frameBytes protocol payload).length =
      MuxHeader.wireSize session.version + payload.length := by
  rw [frameBytes, List.length_append, MuxHeader.length_wire]

/-- A frame that fits is numbered, and handed to the transport. The number is used up
also when the transport fails. -/
theorem run_send {protocol : MuxProtocol} {payload : Bytes} {transport : τ}
    {session : Session} (h : Fits session.version payload) :
    (send protocol payload).run (transport, session) =
      (((Transport.write (session.frameBytes protocol payload)).run transport).1,
        ((Transport.write (session.frameBytes protocol payload)).run transport).2,
        { session with txSeq := session.txSeq + 1 }) := by
  rw [send, Action.run_bind_ok (Action.run_get _), if_neg (Nat.not_lt.mpr h),
    Action.run_bind_ok (Action.run_modify _ _), onTransport, Action.run_zoom]

/-- A frame that does not fit is refused, and changes nothing. -/
theorem run_send_tooLong {protocol : MuxProtocol} {payload : Bytes}
    {transport : τ} {session : Session} (h : ¬ Fits session.version payload) :
    (send protocol payload).run (transport, session) =
      (.error (.error ⟨.invalidArgument,
        ascii "the payload does not fit in one mux frame"⟩),
        transport, session) := by
  rw [send, Action.run_bind_ok (Action.run_get _), if_pos (Nat.not_le.mp h),
    Action.run_fail]

/-! ## Receiving -/

/-- A whole frame of a version, as it stands on the wire. -/
structure IsFrame (version : UInt32) (frame : Frame) (bytes : Bytes) : Prop where
  header : MuxHeader.decode (bytes.take (MuxHeader.wireSize version)) version =
    .ok frame.header
  payload : bytes.drop (MuxHeader.wireSize version) = frame.payload
  length : frame.header.length.toNat = bytes.length
  lower : MuxHeader.wireSize version ≤ bytes.length
  upper : bytes.length ≤ kMaxFrameSize

/-- What a session sends is a frame. -/
theorem isFrame_frameBytes {session : Session} {protocol : MuxProtocol}
    {payload : Bytes} (h : Fits session.version payload) :
    IsFrame session.version
      ⟨(session.nextHeader protocol payload).visible session.version, payload⟩
      (session.frameBytes protocol payload) := by
  have hle := MuxHeader.wireSize_le session.version
  have hlength := session.length_frameBytes protocol payload
  have hwire :=
    (session.nextHeader protocol payload).length_wire session.version
  rw [Fits, kMaxFrameSize] at h
  refine ⟨?_, ?_, ?_, by omega, by rw [kMaxFrameSize]; omega⟩
  · rw [frameBytes, List.take_left' hwire]
    exact MuxHeader.decode_wire _ _
  · rw [frameBytes, List.drop_left' hwire]
  · have hvisible : ((session.nextHeader protocol payload).visible
        session.version).length = UInt32.ofNat
          (MuxHeader.wireSize session.version + payload.length) := by
      rw [MuxHeader.visible]
      split <;> rfl
    rw [hvisible, UInt32.toNat_ofNat', hlength]
    omega

/-- A whole frame at the front of a script is received, however it is cut, and
exactly its bytes are read. -/
theorem run_receive {transport : ScriptedTransport} {session : Session}
    {frame : Frame} {bytes rest : Bytes} (hclean : transport.Clean)
    (hframe : IsFrame session.version frame bytes)
    (hremaining : transport.remaining = bytes ++ rest) :
    ∃ next, receive.run (transport, session) =
        (.ok frame, next, { session with rxSeq := frame.header.rxSeq }) ∧
      ScriptedTransport.Delivers transport next bytes := by
  have hlower := hframe.lower
  have hsplit : bytes.length = (bytes.take
      (MuxHeader.wireSize session.version)).length + frame.payload.length := by
    rw [← hframe.payload, ← List.length_append, List.take_append_drop]
  have htake : (bytes.take (MuxHeader.wireSize session.version)).length =
      MuxHeader.wireSize session.version := by
    rw [List.length_take]
    omega
  rw [htake] at hsplit
  have hwhole : bytes =
      bytes.take (MuxHeader.wireSize session.version) ++ frame.payload := by
    rw [← hframe.payload, List.take_append_drop]
  obtain ⟨middle, hheader, hfirst⟩ := @ScriptedTransport.run_readExact transport
    closedMidFrame (MuxHeader.wireSize session.version) hclean (by
      rw [hremaining, List.length_append]
      omega)
  have hfront : transport.remaining.take (MuxHeader.wireSize session.version) =
      bytes.take (MuxHeader.wireSize session.version) := by
    rw [hremaining, List.take_append_of_le_length hlower]
  rw [hfront] at hheader hfirst
  have hmiddle : middle.remaining = frame.payload ++ rest := by
    have hdelivered := hfirst.remaining
    rw [hremaining, hwhole, List.append_assoc, List.take_left' htake]
      at hdelivered
    exact (List.append_cancel_left hdelivered).symm
  obtain ⟨next, hpayload, hsecond⟩ := @ScriptedTransport.run_readExact middle
    closedMidFrame frame.payload.length (hfirst.clean hclean) (by
      rw [hmiddle, List.length_append]
      omega)
  rw [hmiddle, List.take_left] at hpayload hsecond
  refine ⟨next, ?_, ?_⟩
  · have hrange : ¬ (frame.header.length.toNat <
        MuxHeader.wireSize session.version ∨
          kMaxFrameSize < frame.header.length.toNat) := by
      have hupper := hframe.upper
      rw [hframe.length]
      omega
    have hmissing : frame.header.length.toNat -
        MuxHeader.wireSize session.version = frame.payload.length := by
      rw [hframe.length]
      omega
    have hheaderRun : (onTransport (Transport.readExact closedMidFrame
        (MuxHeader.wireSize session.version))).run (transport, session) =
        (.ok (bytes.take (MuxHeader.wireSize session.version)),
          middle, session) := by
      rw [onTransport, Action.run_zoom, hheader]
    have hpayloadRun : (onTransport (Transport.readExact closedMidFrame
        frame.payload.length)).run (middle, session) =
        (.ok frame.payload, next, session) := by
      rw [onTransport, Action.run_zoom, hpayload]
    rw [receive, Action.run_bind_ok (Action.run_get _)]
    dsimp only
    rw [Action.run_bind_ok hheaderRun, hframe.header,
      Action.run_bind_ok (Action.run_lift _ _), if_neg hrange, hmissing,
      Action.run_bind_ok hpayloadRun, Action.run_bind_ok (Action.run_modify _ _),
      Action.run_pure]
  · rw [hwhole]
    exact hfirst.trans hsecond

end Session

end Ioscpp
