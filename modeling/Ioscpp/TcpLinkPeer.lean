import Ioscpp.TcpLink

/-!
# The packets of a TCP peer

What a peer sends over the tunnel after the handshake: segments whose payloads
are contiguous pieces of its byte stream, and whatever else the tunnel carries
between them.  A packet is described here by its fields; the lemmas say what the
link's parser makes of it.

## Main results

- `acceptSegment_total`: every packet is a segment of the link or is skipped.
- `InOrder.skip`: packets that the link skips are no part of the peer's stream.
-/

namespace Ioscpp.TcpLink

open Ioscpp.Support
open Ioscpp.Protocol

/-! ## Packets -/

/-- A packet that carries a TCP header, and some bytes after its 20. -/
def Carries (packet : Bytes) (tcp : TcpHeader) (rest : Bytes) : Prop :=
  ∃ ipv6 : Ipv6Header, packet = ipv6.encode ++ (tcp.encode ++ rest) ∧
    ipv6.nextHeader = kNextTcp ∧ tcp.dataOffset < 16

/-- A packet that is not part of the connection: it is too short for a TCP
header, it is not TCP, or it is for other ports. -/
inductive Stray (ports : Ports) (packet : Bytes) : Prop where
  | short (h : packet.length < kIpv6HeaderSize + kTcpHeaderSize)
  | notTcp (byte : UInt8) (h : packet[6]? = some byte) (hbyte : byte ≠ kNextTcp)
  | otherPorts (tcp : TcpHeader) (rest : Bytes) (h : Carries packet tcp rest)
      (hports : tcp.destinationPort ≠ ports.source ∨
        tcp.sourcePort ≠ ports.peer)

/-- A segment of the connection, with a header of 20 bytes. -/
structure IsSegment (ports : Ports) (packet : Bytes) (tcp : TcpHeader)
    (payload : Bytes) : Prop where
  carries : Carries packet tcp payload
  dataOffset : tcp.dataOffset = 5
  destination : tcp.destinationPort = ports.source
  source : tcp.sourcePort = ports.peer

/-! ## What the link makes of them -/

variable {ports : Ports} {packet rest payload : Bytes} {tcp : TcpHeader}

theorem acceptSegment_of_lt
    (h : packet.length < kIpv6HeaderSize + kTcpHeaderSize) :
    acceptSegment ports packet = .ok none := by
  rw [acceptSegment, if_pos h]
  rfl

/-- A packet with both headers, by what is parsed from them. -/
theorem acceptSegment_of_le
    (h : kIpv6HeaderSize + kTcpHeaderSize ≤ packet.length) :
    ∃ (ipv6 : Ipv6Header) (tcp : TcpHeader), packet[6]? = some ipv6.nextHeader ∧
      TcpHeader.decode ((packet.drop 40).take 20) = .ok tcp ∧
      acceptSegment ports packet = .ok (
        if ipv6.nextHeader ≠ kNextTcp then none
        else if tcp.destinationPort ≠ ports.source ∨
          tcp.sourcePort ≠ ports.peer then none
        else some ⟨tcp.flags, tcp.sequence, packet.drop 60⟩) := by
  have hlong := Nat.not_lt.mpr h
  rw [kIpv6HeaderSize, kTcpHeaderSize] at h
  have hipv6 : ((packet.drop 0).take 40).length = 40 := by
    rw [List.length_take, List.length_drop]
    omega
  have htcp : ((packet.drop 40).take 20).length = 20 := by
    rw [List.length_take, List.length_drop]
    omega
  obtain ⟨ipv6, hdecode, -, -, hnext⟩ :=
    Ipv6Header.decode_of_le (Nat.le_of_eq hipv6.symm)
  obtain ⟨tcp, hdecode'⟩ := TcpHeader.decode_of_le (Nat.le_of_eq htcp.symm)
  refine ⟨ipv6, tcp, ?_, hdecode', ?_⟩
  · rw [← hnext, List.getElem?_take_of_lt (by decide), List.getElem?_drop]
  · rw [acceptSegment, if_neg hlong, kIpv6HeaderSize, kTcpHeaderSize,
      slice_of_le (by omega), ok_bind, hdecode, ok_bind]
    split
    · rfl
    · rw [slice_of_le (by omega), ok_bind, hdecode', ok_bind]
      split <;> rfl

/-- The parser always has an answer. -/
theorem acceptSegment_total (ports : Ports) (packet : Bytes) :
    ∃ segment, acceptSegment ports packet = .ok segment := by
  by_cases h : packet.length < kIpv6HeaderSize + kTcpHeaderSize
  · exact ⟨_, acceptSegment_of_lt h⟩
  · obtain ⟨_, _, -, -, haccept⟩ := @acceptSegment_of_le ports packet (by omega)
    exact ⟨_, haccept⟩

/-- The headers of a packet are parsed as they were written. -/
theorem Carries.acceptSegment_eq (h : Carries packet tcp rest) :
    acceptSegment ports packet = .ok (
      if tcp.destinationPort ≠ ports.source ∨ tcp.sourcePort ≠ ports.peer then none
      else some ⟨tcp.flags, tcp.sequence, rest⟩) := by
  obtain ⟨ipv6, rfl, hnext, hoffset⟩ := h
  have hlength : (ipv6.encode ++ (tcp.encode ++ rest)).length =
      60 + rest.length := by
    rw [List.length_append, List.length_append, ipv6.length_encode,
      tcp.length_encode]
    omega
  obtain ⟨header, tcp', hheader, htcp, haccept⟩ :=
    @acceptSegment_of_le ports (ipv6.encode ++ (tcp.encode ++ rest)) (by
      rw [hlength, kIpv6HeaderSize, kTcpHeaderSize]
      omega)
  have hnext' : header.nextHeader = kNextTcp := by
    rw [← hnext]
    exact (Option.some.inj hheader).symm
  rw [List.drop_left' ipv6.length_encode, List.take_left' tcp.length_encode,
    TcpHeader.decode_encode hoffset] at htcp
  have hrest : (ipv6.encode ++ (tcp.encode ++ rest)).drop 60 = rest := by
    rw [← List.append_assoc, List.drop_left' (by
      rw [List.length_append, ipv6.length_encode, tcp.length_encode])]
  rw [haccept, if_neg (not_not_intro hnext'), ← Except.ok.inj htcp, hrest]

theorem Stray.acceptSegment_eq (h : Stray ports packet) :
    acceptSegment ports packet = .ok none := by
  cases h with
  | short h => exact acceptSegment_of_lt h
  | notTcp byte hbyte hne =>
      by_cases h : packet.length < kIpv6HeaderSize + kTcpHeaderSize
      · exact acceptSegment_of_lt h
      · obtain ⟨ipv6, _, hheader, -, haccept⟩ :=
          @acceptSegment_of_le ports packet (by omega)
        have hnext := Option.some.inj (hbyte.symm.trans hheader)
        rw [haccept, if_pos (hnext ▸ hne)]
  | otherPorts tcp rest h hports => rw [h.acceptSegment_eq, if_pos hports]

theorem IsSegment.acceptSegment_eq (h : IsSegment ports packet tcp payload) :
    acceptSegment ports packet =
      .ok (some ⟨tcp.flags, tcp.sequence, payload⟩) := by
  rw [h.carries.acceptSegment_eq, if_neg]
  rw [h.destination, h.source]
  simp

/-- A packet of a peer, with a segment of the connection. -/
def peerPacket (ports : Ports) (flags : UInt8) (sequence : UInt32)
    (payload : Bytes) : Bytes :=
  { payloadLength := UInt16.ofNat (20 + payload.length), nextHeader := kNextTcp :
      Ipv6Header }.encode ++
    ({ sourcePort := ports.peer, destinationPort := ports.source, sequence, flags :
      TcpHeader }.encode ++ payload)

theorem isSegment_peerPacket (ports : Ports) (flags : UInt8) (sequence : UInt32)
    (payload : Bytes) :
    IsSegment ports (peerPacket ports flags sequence payload)
      { sourcePort := ports.peer, destinationPort := ports.source, sequence, flags }
      payload :=
  ⟨⟨_, rfl, rfl, (by decide : (5 : UInt8) < 16)⟩, rfl, rfl, rfl⟩

/-! ## The peer's byte stream -/

/-- The packets of a peer that sends each byte of `payloads` once and in order,
from the sequence number `next`; `finished` says whether the stream ends with a
FIN.  After a FIN or a RST the tunnel may carry anything. -/
inductive InOrder (ports : Ports) (finished : Bool) :
    UInt32 → List Bytes → List Bytes → Prop where
  | stray {next : UInt32} {packet : Bytes} {packets payloads : List Bytes}
      (hstray : Stray ports packet)
      (hrest : InOrder ports finished next packets payloads) :
      InOrder ports finished next (packet :: packets) payloads
  | empty {next : UInt32} {packet : Bytes} {packets payloads : List Bytes}
      {tcp : TcpHeader} (hsegment : IsSegment ports packet tcp [])
      (hrst : tcp.flags &&& TcpRst = 0) (hfin : tcp.flags &&& TcpFin = 0)
      (hrest : InOrder ports finished next packets payloads) :
      InOrder ports finished next (packet :: packets) payloads
  | data {next : UInt32} {packet payload : Bytes} {packets payloads : List Bytes}
      {tcp : TcpHeader} (hsegment : IsSegment ports packet tcp payload)
      (hpayload : payload ≠ []) (hrst : tcp.flags &&& TcpRst = 0)
      (hfin : tcp.flags &&& TcpFin = 0) (hnext : tcp.sequence = next)
      (hrest : InOrder ports finished (next + UInt32.ofNat payload.length) packets
        payloads) :
      InOrder ports finished next (packet :: packets) (payload :: payloads)
  | fin {next : UInt32} {packet payload : Bytes} {packets : List Bytes}
      {tcp : TcpHeader} (hsegment : IsSegment ports packet tcp payload)
      (hfinished : finished = true) (hrst : tcp.flags &&& TcpRst = 0)
      (hfin : tcp.flags &&& TcpFin ≠ 0) (hnext : tcp.sequence = next) :
      InOrder ports finished next (packet :: packets) [payload]
  | reset {next : UInt32} {packet payload : Bytes} {packets : List Bytes}
      {tcp : TcpHeader} (hsegment : IsSegment ports packet tcp payload)
      (hfinished : finished = false) (hrst : tcp.flags &&& TcpRst ≠ 0) :
      InOrder ports finished next (packet :: packets) []
  | stop {next : UInt32} (hfinished : finished = false) :
      InOrder ports finished next [] []

section InOrder

variable {finished : Bool} {next : UInt32} {packets payloads : List Bytes}

/-- What the next packet of a stream does to it, by the segment that the link
makes of it. -/
inductive Next (ports : Ports) (finished : Bool) (next : UInt32)
    (packets payloads : List Bytes) : Option Segment → Prop where
  | quiet {segment : Option Segment}
      (hsegment : segment = none ∨ ∃ flags sequence,
        segment = some ⟨flags, sequence, []⟩ ∧ flags &&& TcpRst = 0 ∧
          flags &&& TcpFin = 0)
      (hrest : InOrder ports finished next packets payloads) :
      Next ports finished next packets payloads segment
  | data {flags : UInt8} {payload : Bytes} {others : List Bytes}
      (hpayload : payload ≠ []) (hrst : flags &&& TcpRst = 0)
      (hfin : flags &&& TcpFin = 0) (hpayloads : payloads = payload :: others)
      (hrest : InOrder ports finished (next + UInt32.ofNat payload.length) packets
        others) :
      Next ports finished next packets payloads (some ⟨flags, next, payload⟩)
  | fin {flags : UInt8} {payload : Bytes} (hfinished : finished = true)
      (hrst : flags &&& TcpRst = 0) (hfin : flags &&& TcpFin ≠ 0)
      (hpayloads : payloads = [payload]) :
      Next ports finished next packets payloads (some ⟨flags, next, payload⟩)
  | reset {segment : Segment} (hfinished : finished = false)
      (hrst : segment.flags &&& TcpRst ≠ 0) (hpayloads : payloads = []) :
      Next ports finished next packets payloads (some segment)

theorem InOrder.next_of {segment : Option Segment}
    (h : InOrder ports finished next (packet :: packets) payloads)
    (haccept : acceptSegment ports packet = .ok segment) :
    Next ports finished next packets payloads segment := by
  cases h with
  | stray hstray hrest =>
      rw [hstray.acceptSegment_eq] at haccept
      cases haccept
      exact .quiet (.inl rfl) hrest
  | empty hsegment hrst hfin hrest =>
      rw [hsegment.acceptSegment_eq] at haccept
      cases haccept
      exact .quiet (.inr ⟨_, _, rfl, hrst, hfin⟩) hrest
  | data hsegment hpayload hrst hfin hnext hrest =>
      rw [hsegment.acceptSegment_eq, hnext] at haccept
      cases haccept
      exact .data hpayload hrst hfin rfl hrest
  | fin hsegment hfinished hrst hfin hnext =>
      rw [hsegment.acceptSegment_eq, hnext] at haccept
      cases haccept
      exact .fin hfinished hrst hfin rfl
  | reset hsegment hfinished hrst =>
      rw [hsegment.acceptSegment_eq] at haccept
      cases haccept
      exact .reset hfinished hrst rfl

/-- Packets that the link skips are no part of the stream: without them the peer's
packets are in order still. -/
theorem InOrder.skip {skipped : List Bytes}
    (h : InOrder ports finished next (skipped ++ packets) payloads)
    (hskipped : ∀ packet ∈ skipped, acceptSegment ports packet = .ok none) :
    InOrder ports finished next packets payloads := by
  induction skipped with
  | nil => exact h
  | cons packet skipped ih =>
      cases h.next_of (hskipped packet (by simp)) with
      | quiet _ hrest =>
          exact ih hrest fun packet hmem =>
            hskipped packet (List.mem_cons_of_mem _ hmem)

end InOrder

end Ioscpp.TcpLink
