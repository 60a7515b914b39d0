import Ioscpp.Support.OnesComplement
import Ioscpp.TcpLink

/-!
# The checksum of a segment

The device's TCP adds the 16-bit words of the pseudo-header and of the segment
that it received, and drops a segment whose sum does not fold to `0xffff`.  The
sum of the words is taken in 32 bits and folded once at the end, so it must not
overflow on the way.

## Main results

- `addWords_spec`: the running sum does not overflow.
- `segmentChecksum_spec`: what is left of the sum over a segment is complemented.
- `segmentPacket_verifies`: the receiver's sum over what was sent folds to `0xffff`.
-/

namespace Ioscpp

open Ioscpp.Support
open Ioscpp.Protocol

/-! ## The running sum -/

/-- No addition of `addWords` leaves the 32 bits of the sum: before each word, the
running sum and the word are below `2 ^ 32` together. -/
def AddsWithinRange (sum : UInt32) : Bytes → Prop
  | first :: second :: rest =>
      sum.toNat + word first second < 2 ^ 32 ∧
        AddsWithinRange
          (sum + ((first.toUInt32 <<< 8) ||| second.toUInt32)) rest
  | [last] => sum.toNat + word last 0 < 2 ^ 32
  | [] => True

theorem toNat_word (first second : UInt8) :
    ((first.toUInt32 <<< 8) ||| second.toUInt32).toNat = word first second := by
  have hfirst := first.toNat_lt
  have hshift : (first.toUInt32 <<< 8).toNat = first.toNat <<< 8 := by
    rw [UInt32.toNat_shiftLeft, UInt8.toNat_toUInt32]
    show first.toNat <<< 8 % 2 ^ 32 = first.toNat <<< 8
    rw [Nat.shiftLeft_eq]
    omega
  rw [UInt32.toNat_or, hshift, UInt8.toNat_toUInt32,
    ← Nat.shiftLeft_add_eq_or_of_lt second.toNat_lt, Nat.shiftLeft_eq, word]

/-- As long as all the words fit, the running sum is their sum, and no addition on the
way overflows. -/
theorem addWords_spec : ∀ (bytes : Bytes) (sum : UInt32),
    sum.toNat + wordSum bytes < 2 ^ 32 →
      AddsWithinRange sum bytes ∧
        (addWords sum bytes).toNat = sum.toNat + wordSum bytes
  | [], sum, _ => ⟨trivial, by simp [addWords, wordSum]⟩
  | [last], sum, h => by
      have hlast : (last.toUInt32 <<< 8).toNat = word last 0 := by
        have hword := toNat_word last 0
        simpa using hword
      constructor
      · exact h
      · show (sum + (last.toUInt32 <<< 8)).toNat = sum.toNat + word last 0
        rw [UInt32.toNat_add, hlast]
        exact Nat.mod_eq_of_lt h
  | first :: second :: rest, sum, h => by
      rw [wordSum_cons_cons] at h
      have hsum : (sum + ((first.toUInt32 <<< 8) ||| second.toUInt32)).toNat =
          sum.toNat + word first second := by
        rw [UInt32.toNat_add, toNat_word]
        exact Nat.mod_eq_of_lt (by omega)
      have hrest := addWords_spec rest
        (sum + ((first.toUInt32 <<< 8) ||| second.toUInt32)) (by omega)
      constructor
      · exact ⟨by omega, hrest.1⟩
      · rw [addWords, hrest.2, hsum, wordSum_cons_cons]
        omega

/-- The loop over the carries folds the sum. -/
theorem toNat_foldLoop (fuel : Nat) (sum : UInt32)
    (h : foldLoop fuel sum >>> 16 = 0) :
    (foldLoop fuel sum).toNat = onesFold sum.toNat := by
  induction fuel generalizing sum with
  | zero =>
      have hlt := (shiftRight_eq_zero_iff sum).mp h
      exact (onesFold_of_lt hlt).symm
  | succ fuel ih =>
      rw [foldLoop] at h ⊢
      by_cases hdone : sum >>> 16 = 0
      · rw [if_pos hdone] at h ⊢
        have hlt := (shiftRight_eq_zero_iff sum).mp h
        exact (onesFold_of_lt hlt).symm
      · rw [if_neg hdone] at h ⊢
        rw [ih (foldCarries sum) h, toNat_foldCarries]
        exact onesFold_endAround sum.toNat

/-- A checksum is the complement of the folded sum. -/
theorem toNat_finishChecksum (sum : UInt32) :
    (finishChecksum sum).toNat = 65535 - onesFold sum.toNat := by
  have hfold := toNat_foldLoop 2 sum (foldLoop_two sum)
  have hlt := (onesFold_spec sum.toNat).1
  rw [finishChecksum, UInt16.toNat_not, UInt32.toNat_toUInt16, hfold,
    Nat.mod_eq_of_lt hlt]
  rfl

/-! ## The checksum field -/

theorem wordSum_beBytes_append {width : Nat} (h : width % 2 = 0) (value : Nat)
    (rest : Bytes) :
    wordSum (beBytes width value ++ rest) =
      wordSum (beBytes width value) + wordSum rest :=
  wordSum_append rest (beBytes width value) (by rw [length_beBytes, h])

/-- The checksum field stands on a word, and adds itself. -/
theorem wordSum_encode (header : TcpHeader) (payload : Bytes) :
    wordSum (header.encode ++ payload) =
      wordSum ({ header with checksum := 0 }.encode ++ payload) +
        header.checksum.toNat := by
  have hsum := wordSum_beBytes header.checksum.toNat_lt
  have hzero : wordSum (beBytes 2 (0 : UInt16).toNat) = 0 :=
    wordSum_beBytes (by decide)
  have htwo := @wordSum_beBytes_append 2 rfl
  have hfour := @wordSum_beBytes_append 4 rfl
  simp only [TcpHeader.encode, List.append_assoc, List.cons_append,
    List.nil_append, htwo, hfour, wordSum_cons_cons, hsum, hzero]
  omega

/-! ## The sent segment -/

/-- The pseudo-header of a packet that arrived: its two addresses, the length of
what follows its header, and its next header. -/
def receivedPseudoHeader (packet : Bytes) : Bytes :=
  (packet.drop 8).take 32 ++ beBytes 4 (packet.length - kIpv6HeaderSize) ++
    [0, 0, 0, packet.getD 6 0]

/-- The check that the receiver of a packet makes: the words of the pseudo header, made
of the packet's own header, and of the segment fold to `0xffff`. -/
def ChecksumVerifies (packet : Bytes) : Prop :=
  onesFold (wordSum
    (receivedPseudoHeader packet ++ packet.drop kIpv6HeaderSize)) = 0xffff

namespace TcpLink

variable (link : TcpLink) (flags : UInt8) (payload : Bytes)

/-- The header of a segment, before its checksum is known. -/
def segmentHeader : TcpHeader where
  sourcePort := link.sourcePort
  destinationPort := link.peerPort
  sequence := link.sendSeq
  acknowledgement := link.recvSeq
  flags
  window := kTcpWindow

/-- The bytes of a segment that its checksum is computed over. -/
def summedSegment : Bytes := (link.segmentHeader flags).encode ++ payload

/-- The checksum of a segment. -/
def segmentChecksum : UInt16 :=
  tcpChecksum link.source link.destination (link.summedSegment flags payload)

/-- The bytes of a segment as it is sent. -/
def finishedSegment : Bytes :=
  { link.segmentHeader flags with
    checksum := link.segmentChecksum flags payload }.encode ++ payload

theorem length_summedSegment :
    (link.summedSegment flags payload).length = 20 + payload.length := by
  rw [summedSegment, List.length_append, TcpHeader.length_encode]

theorem length_finishedSegment :
    (link.finishedSegment flags payload).length = 20 + payload.length := by
  rw [finishedSegment, List.length_append, TcpHeader.length_encode]

/-- A packet is the fixed header and the segment. -/
theorem drop_segmentPacket :
    (link.segmentPacket flags payload).drop kIpv6HeaderSize =
      link.finishedSegment flags payload := by
  rw [segmentPacket]
  apply List.drop_left'
  exact Ipv6Header.length_encode _

theorem length_segmentPacket :
    (link.segmentPacket flags payload).length = 60 + payload.length := by
  have hsegment := length_finishedSegment link flags payload
  rw [← drop_segmentPacket, List.length_drop] at hsegment
  have hlong : kIpv6HeaderSize = 40 := rfl
  omega

/-- The receiver makes the pseudo-header that the sender made. -/
theorem receivedPseudoHeader_segmentPacket (h : 20 + payload.length < 2 ^ 32) :
    receivedPseudoHeader (link.segmentPacket flags payload) =
      pseudoHeader link.source link.destination
        (UInt32.ofNat (link.summedSegment flags payload).length) := by
  have hlength : (link.segmentPacket flags payload).length - kIpv6HeaderSize =
      20 + payload.length := by
    rw [length_segmentPacket, kIpv6HeaderSize]
    omega
  have hnat : (UInt32.ofNat (20 + payload.length)).toNat = 20 + payload.length := by
    rw [UInt32.toNat_ofNat', Nat.mod_eq_of_lt h]
  have haddresses : ((link.segmentPacket flags payload).drop 8).take 32 =
      link.source.bytes ++ link.destination.bytes := by
    have hdrop : (link.segmentPacket flags payload).drop 8 =
        (link.source.bytes ++ link.destination.bytes) ++
          link.finishedSegment flags payload := rfl
    rw [hdrop]
    apply List.take_left'
    rw [List.length_append, link.source.size, link.destination.size]
  have hnext : (link.segmentPacket flags payload).getD 6 0 = kNextTcp := rfl
  rw [receivedPseudoHeader, pseudoHeader, haddresses, hlength, hnext,
    length_summedSegment, hnat]

/-- The pseudo-header of a segment. -/
def segmentPseudoHeader : Bytes :=
  pseudoHeader link.source link.destination
    (UInt32.ofNat (link.summedSegment flags payload).length)

theorem length_segmentPseudoHeader :
    (link.segmentPseudoHeader flags payload).length = 40 := by
  simp [segmentPseudoHeader, pseudoHeader, link.source.size,
    link.destination.size]

/-- The words of a segment are too few to overflow. -/
theorem segmentSum_lt (h : payload.length ≤ 65535) :
    wordSum (link.segmentPseudoHeader flags payload) +
      wordSum (link.summedSegment flags payload) < 2 ^ 32 := by
  have hpseudo := wordSum_le (link.segmentPseudoHeader flags payload)
  have hsegment := wordSum_le (link.summedSegment flags payload)
  rw [length_segmentPseudoHeader] at hpseudo
  rw [length_summedSegment] at hsegment
  omega

/-- The running sum over a segment: it stays in range, and what is left of it is
complemented. -/
theorem segmentChecksum_spec (h : payload.length ≤ 65535) :
    AddsWithinRange 0 (link.segmentPseudoHeader flags payload) ∧
      AddsWithinRange (addWords 0 (link.segmentPseudoHeader flags payload))
        (link.summedSegment flags payload) ∧
      (link.segmentChecksum flags payload).toNat =
        65535 - onesFold (wordSum (link.segmentPseudoHeader flags payload) +
          wordSum (link.summedSegment flags payload)) := by
  have hrange := segmentSum_lt link flags payload h
  have hzero : (0 : UInt32).toNat = 0 := rfl
  obtain ⟨hfirst, hsum⟩ :=
    addWords_spec (link.segmentPseudoHeader flags payload) 0 (by omega)
  obtain ⟨hsecond, htotal⟩ := addWords_spec (link.summedSegment flags payload)
    (addWords 0 (link.segmentPseudoHeader flags payload)) (by omega)
  rw [hsum, hzero, Nat.zero_add] at htotal
  constructor
  · exact hfirst
  constructor
  · exact hsecond
  · rw [← htotal]
    exact toNat_finishChecksum _

/-- Whatever the addresses, ports, numbers and flags are, and for every payload that
fits the MTU, the receiver's sum over what the link sends folds to `0xffff`; and the
sender's running sum over the pseudo header and the segment does not overflow its 32
bits. -/
theorem segmentPacket_verifies (h : payload.length + 60 ≤ link.mtu.toNat) :
    ChecksumVerifies (link.segmentPacket flags payload) ∧
      AddsWithinRange 0 (link.segmentPseudoHeader flags payload) ∧
      AddsWithinRange (addWords 0 (link.segmentPseudoHeader flags payload))
        (link.summedSegment flags payload) := by
  have hmtu := link.mtu.toNat_lt
  obtain ⟨hfirst, hsecond, hchecksum⟩ :=
    segmentChecksum_spec link flags payload (by omega)
  have hpseudo : receivedPseudoHeader (link.segmentPacket flags payload) =
      link.segmentPseudoHeader flags payload :=
    receivedPseudoHeader_segmentPacket link flags payload (by omega)
  have hsent : wordSum (link.finishedSegment flags payload) =
      wordSum (link.summedSegment flags payload) +
        (link.segmentChecksum flags payload).toNat :=
    wordSum_encode _ payload
  constructor
  · rw [ChecksumVerifies, hpseudo, drop_segmentPacket,
      wordSum_append _ _ (by rw [length_segmentPseudoHeader]), hsent,
      ← Nat.add_assoc, hchecksum]
    exact onesFold_add_complement _
  · exact ⟨hfirst, hsecond⟩

/-- The last segment of a transfer over a tunnel of 1280 bytes: one odd byte. -/
theorem segmentPacket_verifies_odd :
    ChecksumVerifies
        ((create (ascii "fd00::1") 1280 49152).segmentPacket TcpAck [0xff]) ∧
      AddsWithinRange 0
        ((create (ascii "fd00::1") 1280 49152).segmentPseudoHeader TcpAck [0xff]) ∧
      AddsWithinRange
        (addWords 0 ((create (ascii "fd00::1") 1280 49152).segmentPseudoHeader
          TcpAck [0xff]))
        ((create (ascii "fd00::1") 1280 49152).summedSegment TcpAck [0xff]) :=
  segmentPacket_verifies (create (ascii "fd00::1") 1280 49152) TcpAck [0xff]
    (by decide)

end TcpLink

end Ioscpp
