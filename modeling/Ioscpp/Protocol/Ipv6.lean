import Ioscpp.Transport

/-!
# IPv6 packets

The tunnel is a byte stream of IPv6 packets with nothing between them.  The
framer reads the fixed header, whose payload length says where the packet ends,
and then the rest; what it reads beyond is kept for the next packet.
-/

namespace Ioscpp.Protocol

open Ioscpp.Support

/-- The size of the fixed header. -/
def kIpv6HeaderSize : Nat := 40

/-- The largest packet: the header and a 16-bit payload length. -/
def kIpv6MaxPacketSize : Nat := kIpv6HeaderSize + 65535

/-- The size of one transport read request. -/
def kReadSize : Nat := 16384

/-- Sixteen bytes. -/
structure Ipv6Address where
  bytes : Bytes
  size : bytes.length = 16
  deriving Repr

instance instDecidableEqIpv6Address : DecidableEq Ipv6Address :=
  fun first second => decidable_of_iff (first.bytes = second.bytes) (by
    cases first
    cases second
    exact (Ipv6Address.mk.injEq _ _ _ _).to_iff.symm)

/-- The address of zeros. -/
def Ipv6Address.zero : Ipv6Address := ⟨List.replicate 16 0, rfl⟩

/-- The fixed header. -/
structure Ipv6Header where
  version : UInt8 := 6
  trafficClass : UInt8 := 0
  flowLabel : UInt32 := 0
  payloadLength : UInt16 := 0
  nextHeader : UInt8 := 0
  hopLimit : UInt8 := 0
  source : Ipv6Address := .zero
  destination : Ipv6Address := .zero
  deriving DecidableEq, Repr

namespace Ipv6Header

def encode (header : Ipv6Header) : Bytes :=
  [((header.version &&& 0x0f) <<< 4) ||| ((header.trafficClass >>> 4) &&& 0x0f),
    ((header.trafficClass &&& 0x0f) <<< 4) |||
      ((header.flowLabel >>> 16) &&& 0x0f).toUInt8,
    (header.flowLabel >>> 8).toUInt8, header.flowLabel.toUInt8] ++
    beBytes 2 header.payloadLength.toNat ++
    [header.nextHeader, header.hopLimit] ++
    header.source.bytes ++ header.destination.bytes

/-- The address at an offset. -/
def addressAt (bytes : Bytes) (offset : Nat) : Result Ipv6Address := do
  let view ← slice bytes offset 16
  if h : view.length = 16 then return ⟨view, h⟩ else .error .outOfBounds

/-- Parses the fixed header, whose span has 40 bytes. -/
def decode (bytes : Bytes) : Result Ipv6Header := do
  let first ← byteAt bytes 0
  let second ← byteAt bytes 1
  let third ← byteAt bytes 2
  let fourth ← byteAt bytes 3
  let payloadLength ← readBe bytes 4 2
  let nextHeader ← byteAt bytes 6
  let hopLimit ← byteAt bytes 7
  let source ← addressAt bytes 8
  let destination ← addressAt bytes 24
  return {
    version := first >>> 4
    trafficClass := ((first &&& 0x0f) <<< 4) ||| ((second >>> 4) &&& 0x0f)
    flowLabel := ((second &&& 0x0f).toUInt32 <<< 16) |||
      (third.toUInt32 <<< 8) ||| fourth.toUInt32
    payloadLength := UInt16.ofNat payloadLength
    nextHeader, hopLimit, source, destination }

theorem length_encode (header : Ipv6Header) : header.encode.length = 40 := by
  simp [encode, header.source.size, header.destination.size]

theorem addressAt_of_le {bytes : Bytes} {offset : Nat}
    (h : offset + 16 ≤ bytes.length) :
    ∃ address, addressAt bytes offset = .ok address := by
  have hlength : ((bytes.drop offset).take 16).length = 16 := by
    rw [List.length_take, List.length_drop]
    omega
  refine ⟨⟨_, hlength⟩, ?_⟩
  rw [addressAt, slice_of_le h, ok_bind, dif_pos hlength]
  rfl

/-- A header of 40 bytes is parsed; these are the fields that the framer and the
link look at. -/
theorem decode_of_le {bytes : Bytes} (h : 40 ≤ bytes.length) :
    ∃ header, decode bytes = .ok header ∧
      (∃ first : UInt8, bytes[0]? = some first ∧ header.version = first >>> 4) ∧
      header.payloadLength.toNat = beValue ((bytes.drop 4).take 2) ∧
      bytes[6]? = some header.nextHeader := by
  obtain ⟨source, hsource⟩ := @addressAt_of_le bytes 8 (by omega)
  obtain ⟨destination, hdestination⟩ := @addressAt_of_le bytes 24 (by omega)
  have hvalue : beValue ((bytes.drop 4).take 2) < 65536 := by
    have hlt := beValue_lt ((bytes.drop 4).take 2)
    have hlength : ((bytes.drop 4).take 2).length = 2 := by
      rw [List.length_take, List.length_drop]
      omega
    rw [hlength] at hlt
    exact hlt
  have hword : (UInt16.ofNat
      (beValue ((bytes.drop 4).take 2) % 2 ^ 64)).toNat =
      beValue ((bytes.drop 4).take 2) := by
    rw [UInt16.toNat_ofNat']
    omega
  rw [decode, byteAt_of_lt (by omega), ok_bind, byteAt_of_lt (by omega), ok_bind,
    byteAt_of_lt (by omega), ok_bind, byteAt_of_lt (by omega), ok_bind,
    readBe_eq (by omega), ok_bind, byteAt_of_lt (by omega), ok_bind,
    byteAt_of_lt (by omega), ok_bind, hsource, ok_bind, hdestination, ok_bind]
  exact ⟨_, rfl, ⟨_, List.getElem?_eq_getElem (by omega), rfl⟩, hword,
    List.getElem?_eq_getElem (by omega)⟩

end Ipv6Header

/-! ## The framer -/

/-- The framer's own state; the transport stands beside it, since several framers
can read from one. -/
structure Ipv6Framer where
  maxPacketSize : Nat := kIpv6MaxPacketSize
  buffer : Bytes := []
  /-- The bytes of the buffer that belong to packets already returned. -/
  offset : Nat := 0
  deriving DecidableEq, Repr

namespace Ipv6Framer

variable {τ : Type} [Transport τ]

/-- Drops the consumed prefix. -/
def compact (framer : Ipv6Framer) : Ipv6Framer :=
  { framer with buffer := framer.buffer.drop framer.offset, offset := 0 }

/-- The error of a tunnel that ends inside a packet. -/
def closedMidPacket : Error := protocolError "the tunnel closed mid-packet"

/-- Ensures that `count` bytes are available.  The consumed prefix is dropped
once, before reading. -/
def fill (count : Nat) : Action Error (τ × Ipv6Framer) Unit := do
  modify fun state => (state.1, state.2.compact)
  Action.zoom (fun state => (state.1, state.2.buffer))
    (fun state buffered =>
      (buffered.1, { state.2 with buffer := buffered.2 }))
    (Buffered.fill closedMidPacket kReadSize count)

/-- Reads exactly one whole packet. -/
def readPacket : Action Error (τ × Ipv6Framer) Bytes := do
  fill kIpv6HeaderSize
  let state ← get
  let bytes ← Action.lift
    (slice state.2.buffer state.2.offset kIpv6HeaderSize)
  let header ← Action.lift (Ipv6Header.decode bytes)
  if header.version ≠ 6 then
    Action.fail (protocolError "the tunnel packet is not IPv6")
  else do
    let total := kIpv6HeaderSize + header.payloadLength.toNat
    if state.2.maxPacketSize < total then
      Action.fail (protocolError
        "the tunnel packet is larger than the negotiated MTU")
    else do
      fill total
      let state ← get
      let packet ← Action.lift (slice state.2.buffer state.2.offset total)
      modify fun state =>
        (state.1, { state.2 with offset := state.2.offset + total })
      return packet

/-- Writes one whole packet. -/
def writePacket {τ : Type} [Transport τ] (packet : Bytes) :
    Action Error (τ × Ipv6Framer) Unit :=
  Action.zoom Prod.fst (fun state transport => (transport, state.2))
    (Transport.write packet)

end Ipv6Framer

end Ioscpp.Protocol
