import Ioscpp.Error

/-!
# The mux protocol

A mux frame is a header and a payload.  The header has two fields, and five when
version 2 was negotiated; its length field counts the header.  The payload of a
TCP frame starts with a TCP header, which the link over the tunnel uses too.
Every field is sent most significant byte first.

## Main results

- `MuxHeader.decode_wire`, `TcpHeader.decode_encode`: the headers are read back.
-/

namespace Ioscpp.Protocol

open Ioscpp.Support

/-- The size of a frame header of version 2. -/
def kMuxHeaderSize : Nat := 16

/-- The size of its two first fields, the header of version 1. -/
def kMuxHeaderSizeV1 : Nat := 8

def kMuxMagic : UInt32 := 0xfeedface

/-- The protocol of a frame. -/
inductive MuxProtocol where
  | version
  | control
  | setup
  | tcp
  deriving DecidableEq, Repr

/-- The number that a header carries for it. -/
def MuxProtocol.id : MuxProtocol → UInt32
  | version => 0
  | control => 1
  | setup => 2
  | tcp => 6

structure MuxHeader where
  protocol : UInt32 := 0
  /-- The size of the whole frame. -/
  length : UInt32 := 0
  magic : UInt32 := kMuxMagic
  txSeq : UInt16 := 0
  rxSeq : UInt16 := 0
  deriving DecidableEq, Repr

namespace MuxHeader

def wireSize (version : UInt32) : Nat :=
  if 2 ≤ version then kMuxHeaderSize else kMuxHeaderSizeV1

/-- The 16 bytes of a header; those of the fields that `version` lacks are
zeros. -/
def encode (header : MuxHeader) (version : UInt32) : Bytes :=
  beBytes 4 header.protocol.toNat ++ (beBytes 4 header.length.toNat ++
    if 2 ≤ version then
      beBytes 4 header.magic.toNat ++
        (beBytes 2 header.txSeq.toNat ++ beBytes 2 header.rxSeq.toNat)
    else List.replicate 8 0)

def decode (bytes : Bytes) (version : UInt32) : Result MuxHeader := do
  let protocol ← readBe bytes 0 4
  let length ← readBe bytes 4 4
  let header : MuxHeader := {
    protocol := UInt32.ofNat protocol
    length := UInt32.ofNat length }
  if 2 ≤ version ∧ kMuxHeaderSize ≤ bytes.length then do
    let magic ← readBe bytes 8 4
    let txSeq ← readBe bytes 12 2
    let rxSeq ← readBe bytes 14 2
    return { header with
      magic := UInt32.ofNat magic
      txSeq := UInt16.ofNat txSeq
      rxSeq := UInt16.ofNat rxSeq }
  else return header

/-- What a header of `version` says. -/
def visible (header : MuxHeader) (version : UInt32) : MuxHeader :=
  if 2 ≤ version then header
  else { protocol := header.protocol, length := header.length }

theorem wireSize_pos (version : UInt32) : 0 < wireSize version := by
  rw [wireSize]
  split <;> decide

theorem wireSize_le (version : UInt32) : wireSize version ≤ 16 := by
  rw [wireSize]
  split <;> decide

theorem le_wireSize (version : UInt32) : 8 ≤ wireSize version := by
  rw [wireSize]
  split <;> decide

theorem length_encode (header : MuxHeader) (version : UInt32) :
    (header.encode version).length = 16 := by
  rw [encode]
  split <;> simp

theorem length_wire (header : MuxHeader) (version : UInt32) :
    ((header.encode version).take (wireSize version)).length =
      wireSize version := by
  have hle := wireSize_le version
  rw [List.length_take, length_encode]
  omega

/-- A header of `version` is parsed. -/
theorem decode_of_length {bytes : Bytes} {version : UInt32}
    (h : bytes.length = wireSize version) :
    ∃ header, decode bytes version = .ok header := by
  have hle := le_wireSize version
  rw [decode, readBe_eq (by omega), ok_bind, readBe_eq (by omega), ok_bind]
  split
  · rename_i hlong
    rw [kMuxHeaderSize] at hlong
    rw [readBe_eq (by omega), ok_bind, readBe_eq (by omega), ok_bind,
      readBe_eq (by omega), ok_bind]
    exact ⟨_, rfl⟩
  · exact ⟨_, rfl⟩

/-- The two first words of a header, whatever follows them. -/
private theorem readBe_words (header : MuxHeader) (rest : Bytes) :
    (readBe (beBytes 4 header.protocol.toNat ++
        (beBytes 4 header.length.toNat ++ rest)) 0 4 : Result Nat) =
      .ok header.protocol.toNat ∧
    (readBe (beBytes 4 header.protocol.toNat ++
        (beBytes 4 header.length.toNat ++ rest)) 4 4 : Result Nat) =
      .ok header.length.toNat := by
  have hprotocol := header.protocol.toNat_lt
  have hlength := header.length.toNat_lt
  exact ⟨readBe_word [] _ rfl rfl (by omega) (by omega),
    readBe_word (beBytes 4 header.protocol.toNat) _ rfl (by simp) (by omega)
      (by omega)⟩

/-- What `version` sends of a header is read back: of a header of version 1 only its two
first words. -/
theorem decode_wire (header : MuxHeader) (version : UInt32) :
    decode ((header.encode version).take (wireSize version)) version =
      .ok (header.visible version) := by
  by_cases hversion : 2 ≤ version
  · have hmagic := header.magic.toNat_lt
    have htx := header.txSeq.toNat_lt
    have hrx := header.rxSeq.toNat_lt
    have hwire : (header.encode version).take (wireSize version) =
        beBytes 4 header.protocol.toNat ++ (beBytes 4 header.length.toNat ++
          (beBytes 4 header.magic.toNat ++
            (beBytes 2 header.txSeq.toNat ++ beBytes 2 header.rxSeq.toNat))) := by
      have hle : (header.encode version).length ≤ wireSize version := by
        rw [length_encode, wireSize, if_pos hversion, kMuxHeaderSize]
      rw [List.take_of_length_le hle, encode, if_pos hversion]
    obtain ⟨hprotocol, hlength⟩ := readBe_words header
      (beBytes 4 header.magic.toNat ++
        (beBytes 2 header.txSeq.toNat ++ beBytes 2 header.rxSeq.toNat))
    rw [← hwire] at hprotocol hlength
    have hmagicWord : (readBe ((header.encode version).take (wireSize version)) 8 4 :
        Result Nat) = .ok header.magic.toNat :=
      readBe_word (beBytes 4 header.protocol.toNat ++
        beBytes 4 header.length.toNat) _
        (hwire.trans (List.append_assoc _ _ _).symm) (by simp) (by omega)
        (by omega)
    have htxWord : (readBe ((header.encode version).take (wireSize version)) 12 2 :
        Result Nat) = .ok header.txSeq.toNat :=
      readBe_word (beBytes 4 header.protocol.toNat ++
        (beBytes 4 header.length.toNat ++ beBytes 4 header.magic.toNat))
        (beBytes 2 header.rxSeq.toNat) (by rw [hwire]; simp) (by simp) (by omega)
        (by omega)
    have hrxWord : (readBe ((header.encode version).take (wireSize version)) 14 2 :
        Result Nat) = .ok header.rxSeq.toNat :=
      readBe_word (beBytes 4 header.protocol.toNat ++
        (beBytes 4 header.length.toNat ++ (beBytes 4 header.magic.toNat ++
          beBytes 2 header.txSeq.toNat))) [] (by rw [hwire]; simp) (by simp)
        (by omega) (by omega)
    have hlong : kMuxHeaderSize ≤
        ((header.encode version).take (wireSize version)).length := by
      rw [length_wire, wireSize, if_pos hversion]
    rw [decode, hprotocol, ok_bind, hlength, ok_bind, if_pos ⟨hversion, hlong⟩,
      hmagicWord, ok_bind, htxWord, ok_bind, hrxWord, ok_bind, visible,
      if_pos hversion]
    simp
  · have hwire : (header.encode version).take (wireSize version) =
        beBytes 4 header.protocol.toNat ++
          (beBytes 4 header.length.toNat ++ []) := by
      have hsize : wireSize version = 8 := if_neg hversion
      rw [encode, if_neg hversion, ← List.append_assoc,
        List.take_left' (by simp [hsize]), List.append_nil]
    obtain ⟨hprotocol, hlength⟩ := readBe_words header []
    rw [hwire, decode, hprotocol, ok_bind, hlength, ok_bind,
      if_neg fun h => hversion h.1, visible, if_neg hversion]
    simp

end MuxHeader

/-- The payload of the version handshake. -/
structure VersionHeader where
  major : UInt32 := 2
  minor : UInt32 := 0
  padding : UInt32 := 0
  deriving DecidableEq, Repr

namespace VersionHeader

def kSize : Nat := 12

def encode (header : VersionHeader) : Bytes :=
  beBytes 4 header.major.toNat ++
    (beBytes 4 header.minor.toNat ++ beBytes 4 header.padding.toNat)

/-- Parses a version, whose span has 12 bytes. -/
def decode (bytes : Bytes) : Result VersionHeader := do
  let major ← readBe bytes 0 4
  let minor ← readBe bytes 4 4
  let padding ← readBe bytes 8 4
  return {
    major := UInt32.ofNat major
    minor := UInt32.ofNat minor
    padding := UInt32.ofNat padding }

end VersionHeader

/-- The size of a TCP header. -/
def kTcpHeaderSize : Nat := 20

def TcpFin : UInt8 := 0x01
def TcpSyn : UInt8 := 0x02
def TcpRst : UInt8 := 0x04
def TcpPsh : UInt8 := 0x08
def TcpAck : UInt8 := 0x10
def TcpUrg : UInt8 := 0x20

structure TcpHeader where
  sourcePort : UInt16 := 0
  destinationPort : UInt16 := 0
  sequence : UInt32 := 0
  acknowledgement : UInt32 := 0
  /-- In words of 32 bits. -/
  dataOffset : UInt8 := 5
  flags : UInt8 := 0
  window : UInt16 := 0
  checksum : UInt16 := 0
  urgent : UInt16 := 0
  deriving DecidableEq, Repr

namespace TcpHeader

def encode (header : TcpHeader) : Bytes :=
  beBytes 2 header.sourcePort.toNat ++
    (beBytes 2 header.destinationPort.toNat ++
    (beBytes 4 header.sequence.toNat ++
    (beBytes 4 header.acknowledgement.toNat ++
    ([header.dataOffset <<< 4, header.flags] ++
    (beBytes 2 header.window.toNat ++
    (beBytes 2 header.checksum.toNat ++ beBytes 2 header.urgent.toNat))))))

/-- Parses a header, whose span has 20 bytes. -/
def decode (bytes : Bytes) : Result TcpHeader := do
  let sourcePort ← readBe bytes 0 2
  let destinationPort ← readBe bytes 2 2
  let sequence ← readBe bytes 4 4
  let acknowledgement ← readBe bytes 8 4
  let dataOffset ← byteAt bytes 12
  let flags ← byteAt bytes 13
  let window ← readBe bytes 14 2
  let checksum ← readBe bytes 16 2
  let urgent ← readBe bytes 18 2
  return {
    sourcePort := UInt16.ofNat sourcePort
    destinationPort := UInt16.ofNat destinationPort
    sequence := UInt32.ofNat sequence
    acknowledgement := UInt32.ofNat acknowledgement
    dataOffset := dataOffset >>> 4
    flags
    window := UInt16.ofNat window
    checksum := UInt16.ofNat checksum
    urgent := UInt16.ofNat urgent }

theorem length_encode (header : TcpHeader) : header.encode.length = 20 := by
  simp [encode]

/-- A header of 20 bytes is parsed. -/
theorem decode_of_le {bytes : Bytes} (h : 20 ≤ bytes.length) :
    ∃ header, decode bytes = .ok header := by
  rw [decode, readBe_eq (by omega), ok_bind, readBe_eq (by omega), ok_bind,
    readBe_eq (by omega), ok_bind, readBe_eq (by omega), ok_bind,
    byteAt_of_lt (by omega), ok_bind, byteAt_of_lt (by omega), ok_bind,
    readBe_eq (by omega), ok_bind, readBe_eq (by omega), ok_bind,
    readBe_eq (by omega), ok_bind]
  exact ⟨_, rfl⟩

/-- A word of the header is read back, by the bytes that stand there. -/
private theorem readBe_encode {header : TcpHeader} {offset size value : Nat}
    (hbytes : (header.encode.drop offset).take size = beBytes size value)
    (hend : offset + size ≤ 20) (h : value < 256 ^ size) (hsize : size ≤ 4) :
    (readBe header.encode offset size : Result Nat) = .ok value := by
  have h64 : value < 2 ^ 64 :=
    h.trans ((Nat.pow_le_pow_right (by decide) hsize).trans_lt (by decide))
  rw [readBe_eq (by rwa [length_encode]), hbytes, beValue_beBytes_of_lt h,
    Nat.mod_eq_of_lt h64]

/-- A header with a data offset of four bits is read back. -/
theorem decode_encode {header : TcpHeader} (h : header.dataOffset < 16) :
    decode header.encode = .ok header := by
  have hshift : ∀ offset : UInt8, offset < 16 → offset <<< 4 >>> 4 = offset := by
    decide +kernel
  have hshort (value : UInt16) : value.toNat < 256 ^ 2 := value.toNat_lt
  have hlong (value : UInt32) : value.toNat < 256 ^ 4 := value.toNat_lt
  have hoffset : (byteAt header.encode 12 : Result UInt8) =
      .ok (header.dataOffset <<< 4) := rfl
  have hflags : (byteAt header.encode 13 : Result UInt8) =
      .ok header.flags := rfl
  rw [decode,
    readBe_encode rfl (by decide) (hshort header.sourcePort) (by decide), ok_bind,
    readBe_encode rfl (by decide) (hshort header.destinationPort) (by decide),
    ok_bind,
    readBe_encode rfl (by decide) (hlong header.sequence) (by decide), ok_bind,
    readBe_encode rfl (by decide) (hlong header.acknowledgement) (by decide),
    ok_bind, hoffset, ok_bind, hflags, ok_bind,
    readBe_encode rfl (by decide) (hshort header.window) (by decide), ok_bind,
    readBe_encode rfl (by decide) (hshort header.checksum) (by decide), ok_bind,
    readBe_encode rfl (by decide) (hshort header.urgent) (by decide), ok_bind,
    hshift _ h]
  simp

end TcpHeader

end Ioscpp.Protocol
