import Ioscpp.Stream

/-!
# The frames of a device

What a device sends over a direct link to one open stream: its TCP frames, and
between them whatever else the link carries.  A frame is described by its
fields; the lemmas say what the stream's parser makes of it, and what a frame
that the stream sends says.
-/

namespace Ioscpp.Stream

open Ioscpp.Support
open Ioscpp.Protocol

/-- A frame that is not for these ports: it is of another mux protocol, too short
for a TCP header, or for other ports. -/
inductive Stray (localPort remotePort : UInt16) (frame : Frame) : Prop where
  | otherProtocol (h : frame.header.protocol ≠ MuxProtocol.tcp.id)
  | short (h : frame.payload.length < kTcpHeaderSize)
  | otherPorts (tcp : TcpHeader) (rest : Bytes)
      (h : frame.payload = tcp.encode ++ rest) (hoffset : tcp.dataOffset < 16)
      (hports : tcp.destinationPort ≠ localPort ∨ tcp.sourcePort ≠ remotePort)

/-- A TCP frame for these ports, with a header of 20 bytes. -/
structure IsSegment (localPort remotePort : UInt16) (frame : Frame)
    (tcp : TcpHeader) (payload : Bytes) : Prop where
  protocol : frame.header.protocol = MuxProtocol.tcp.id
  bytes : frame.payload = tcp.encode ++ payload
  dataOffset : tcp.dataOffset = 5
  destination : tcp.destinationPort = localPort
  source : tcp.sourcePort = remotePort

/-- The frames of a device that resets nothing: the payloads that it sends to
these ports, and the number that each frame for them is to be acknowledged
with. -/
inductive FromDevice (version : UInt32) (localPort remotePort : UInt16) :
    List Bytes → List Bytes → List UInt32 → Prop where
  | stop : FromDevice version localPort remotePort [] [] []
  | stray {bytes : Bytes} {frame : Frame} {frames payloads : List Bytes}
      {numbers : List UInt32} (hframe : Session.IsFrame version frame bytes)
      (hstray : Stray localPort remotePort frame)
      (hrest : FromDevice version localPort remotePort frames payloads numbers) :
      FromDevice version localPort remotePort (bytes :: frames) payloads numbers
  | empty {bytes : Bytes} {frame : Frame} {frames payloads : List Bytes}
      {numbers : List UInt32} {tcp : TcpHeader}
      (hframe : Session.IsFrame version frame bytes)
      (hsegment : IsSegment localPort remotePort frame tcp [])
      (hrst : tcp.flags &&& TcpRst = 0)
      (hrest : FromDevice version localPort remotePort frames payloads numbers) :
      FromDevice version localPort remotePort (bytes :: frames) payloads
        (tcp.sequence :: numbers)
  | data {bytes payload : Bytes} {frame : Frame} {frames payloads : List Bytes}
      {numbers : List UInt32} {tcp : TcpHeader}
      (hframe : Session.IsFrame version frame bytes)
      (hsegment : IsSegment localPort remotePort frame tcp payload)
      (hpayload : payload ≠ []) (hrst : tcp.flags &&& TcpRst = 0)
      (hrest : FromDevice version localPort remotePort frames payloads numbers) :
      FromDevice version localPort remotePort (bytes :: frames)
        (payload :: payloads)
        ((tcp.sequence + UInt32.ofNat payload.length) :: numbers)

/-! ## What the parser makes of them -/

section Accept

variable {localPort remotePort : UInt16} {frame : Frame} {tcp : TcpHeader}
  {payload : Bytes}

/-- A TCP header in front of a payload is parsed as it was written. -/
theorem acceptFrame_encode (hprotocol : frame.header.protocol = MuxProtocol.tcp.id)
    (hbytes : frame.payload = tcp.encode ++ payload) (hoffset : tcp.dataOffset < 16) :
    acceptFrame localPort remotePort frame = .ok (
      if tcp.destinationPort ≠ localPort ∨ tcp.sourcePort ≠ remotePort then none
      else some (tcp, payload)) := by
  have hlength : frame.payload.length = 20 + payload.length := by
    rw [hbytes, List.length_append, tcp.length_encode]
  have hlong : ¬ (frame.header.protocol ≠ MuxProtocol.tcp.id ∨
      frame.payload.length < kTcpHeaderSize) := by
    rw [hlength, kTcpHeaderSize, hprotocol]
    simp
  rw [acceptFrame, if_neg hlong, kTcpHeaderSize, slice_of_le (by omega), ok_bind,
    List.drop_zero, hbytes, List.take_left' tcp.length_encode,
    TcpHeader.decode_encode hoffset, ok_bind, List.drop_left' tcp.length_encode]
  split <;> rfl

theorem Stray.acceptFrame_eq (h : Stray localPort remotePort frame) :
    acceptFrame localPort remotePort frame = .ok none := by
  cases h with
  | otherProtocol h => rw [acceptFrame, if_pos (.inl h)]; rfl
  | short h => rw [acceptFrame, if_pos (.inr h)]; rfl
  | otherPorts tcp rest h hoffset hports =>
      by_cases hprotocol : frame.header.protocol = MuxProtocol.tcp.id
      · rw [acceptFrame_encode hprotocol h hoffset, if_pos hports]
      · rw [acceptFrame, if_pos (.inl hprotocol)]; rfl

theorem IsSegment.acceptFrame_eq
    (h : IsSegment localPort remotePort frame tcp payload) :
    acceptFrame localPort remotePort frame = .ok (some (tcp, payload)) := by
  rw [acceptFrame_encode h.protocol h.bytes (by rw [h.dataOffset]; decide), if_neg]
  rw [h.destination, h.source]
  simp

/-- A frame always has an answer. -/
theorem acceptFrame_total (localPort remotePort : UInt16) (frame : Frame) :
    ∃ answer, acceptFrame localPort remotePort frame = .ok answer := by
  by_cases hshort : frame.header.protocol ≠ MuxProtocol.tcp.id ∨
      frame.payload.length < kTcpHeaderSize
  · exact ⟨none, by rw [acceptFrame, if_pos hshort]; rfl⟩
  · have hlong : 20 ≤ frame.payload.length := by
      rw [kTcpHeaderSize] at hshort
      omega
    have hsize : ((frame.payload.drop 0).take 20).length = 20 := by
      rw [List.length_take, List.length_drop]
      omega
    obtain ⟨tcp, htcp⟩ := TcpHeader.decode_of_le (Nat.le_of_eq hsize.symm)
    rw [acceptFrame, if_neg hshort, kTcpHeaderSize, slice_of_le (by omega),
      ok_bind, htcp, ok_bind]
    split
    · exact ⟨none, rfl⟩
    · exact ⟨_, rfl⟩

end Accept

/-! ## Frames of a device -/

/-- The header of a frame from a port of the device to local port 1. -/
def deviceHeader (port : UInt16) (flags : UInt8) (sequence : UInt32) :
    TcpHeader where
  sourcePort := port
  destinationPort := 1
  sequence := sequence
  flags := flags

/-- The frame of such a header, at version 1. -/
def deviceFrame (port : UInt16) (flags : UInt8) (sequence : UInt32)
    (payload : Bytes) : Bytes :=
  Session.frameBytes { version := 1 } .tcp
    ((deviceHeader port flags sequence).encode ++ payload)

/-! ## What a frame that is sent says -/

/-- The TCP header of a frame that a session of this version sent. -/
def sentTcp (version : UInt32) (bytes : Bytes) : Result TcpHeader := do
  TcpHeader.decode (← slice bytes (MuxHeader.wireSize version) kTcpHeaderSize)

theorem sentTcp_frameBytes (session : Session) {tcp : TcpHeader} (payload : Bytes)
    (hoffset : tcp.dataOffset < 16) :
    sentTcp session.version
      (session.frameBytes .tcp (tcp.encode ++ payload)) = .ok tcp := by
  have hwire := (session.nextHeader .tcp (tcp.encode ++ payload)).length_wire
    session.version
  have hlength := session.length_frameBytes .tcp (tcp.encode ++ payload)
  rw [List.length_append, tcp.length_encode] at hlength
  rw [sentTcp, kTcpHeaderSize, slice_of_le (by omega), ok_bind,
    Session.frameBytes, List.drop_left' hwire, List.take_left' tcp.length_encode,
    TcpHeader.decode_encode hoffset]

/-- The flags of a TCP frame that a session of this version sent. -/
def sentFlags (version : UInt32) (bytes : Bytes) : Option UInt8 :=
  match MuxHeader.decode (bytes.take (MuxHeader.wireSize version)) version,
      sentTcp version bytes with
  | .ok mux, .ok tcp =>
      if mux.protocol = MuxProtocol.tcp.id then some tcp.flags else none
  | _, _ => none

theorem sentFlags_frameBytes (session : Session) {tcp : TcpHeader}
    (payload : Bytes) (hoffset : tcp.dataOffset < 16) :
    sentFlags session.version
      (session.frameBytes .tcp (tcp.encode ++ payload)) = some tcp.flags := by
  have hwire := (session.nextHeader .tcp (tcp.encode ++ payload)).length_wire
    session.version
  have hprotocol : ((session.nextHeader .tcp (tcp.encode ++ payload)).visible
      session.version).protocol = MuxProtocol.tcp.id := by
    rw [MuxHeader.visible]
    split <;> rfl
  have hmux : MuxHeader.decode ((session.frameBytes .tcp
      (tcp.encode ++ payload)).take (MuxHeader.wireSize session.version))
        session.version =
      .ok ((session.nextHeader .tcp (tcp.encode ++ payload)).visible
        session.version) := by
    rw [Session.frameBytes, List.take_left' hwire]
    exact MuxHeader.decode_wire _ _
  rw [sentFlags, hmux, sentTcp_frameBytes session payload hoffset]
  dsimp only
  rw [if_pos hprotocol]

end Ioscpp.Stream
