import Ioscpp.Support.Pieces
import Ioscpp.TcpLinkKeeps
import Ioscpp.TransportCalls

/-!
# Writing in segments

A write cuts its data into segments of at most the payload that the MTU leaves.
The packets are whole, their numbers go on from the last one, and the link's
number counts what was written also when a packet could not be sent.

## Main results

- `carriesSegment_segmentPacket`: a segment that fits the MTU carries its piece.
- `write_sent`: what a write sends over any tunnel.
-/

namespace Ioscpp.TcpLink

open Ioscpp.Support
open Ioscpp.Protocol

/-! ## Links that were opened -/

/-- A link that was opened, after any use over tunnels: calls in any order, each over a
tunnel of its own, whether or not they succeeded. -/
inductive Used (τ : Type) [Transport τ] : TcpLink → Prop
  | opened {clientAddress : Bytes} {mtu counter counter' : UInt16} {link : TcpLink}
      (hrun : (openLink clientAddress mtu).run counter = (.ok link, counter')) :
      Used τ link
  | connect {link : TcpLink} (h : Used τ link) (transport : τ) (fuel : Nat)
      (address : Bytes) (port : UInt16) :
      Used τ ((connect fuel address port).run (transport, link)).2.2
  | read {link : TcpLink} (h : Used τ link) (transport : τ) (count fuel : Nat) :
      Used τ ((read count fuel).run (transport, link)).2.2
  | readExact {link : TcpLink} (h : Used τ link) (transport : τ)
      (count turns : Nat) :
      Used τ ((readExact count turns).run (transport, link)).2.2
  | write {link : TcpLink} (h : Used τ link) (transport : τ) (data : Bytes) :
      Used τ ((write data).run (transport, link)).2.2
  | close {link : TcpLink} (h : Used τ link) (transport : τ) :
      Used τ (close.run (transport, link)).2.2

/-- The MTU leaves room for a byte, and the segments fill it. -/
def Sized (link : TcpLink) : Prop :=
  60 < link.mtu.toNat ∧ link.mss = link.mtu.toNat - 60

section Sized

variable {τ : Type} [Transport τ]

theorem steady_sized : Steady fun state : τ × TcpLink => state.2.Sized := by
  constructor
  · intro transport link link' h _ hmtu hmss
    show 60 < link'.mtu.toNat ∧ link'.mss = link'.mtu.toNat - 60
    rw [hmtu, hmss]
    exact h
  · apply Action.keeps_zoom
    intro state part h
    exact h
  · intro packet
    apply Action.keeps_zoom
    intro state part h
    exact h

/-- `open` refuses the MTUs that are too small, and nothing changes the sizes
afterwards. -/
theorem Used.sized {link : TcpLink} (h : Used τ link) : link.Sized := by
  induction h with
  | opened hrun =>
      rename_i clientAddress mtu counter counter' link
      obtain ⟨hmtu, -, rfl⟩ := openLink_eq_ok hrun
      have hroom : 40 + 20 < mtu.toNat := hmtu
      show 60 < mtu.toNat ∧ mtu.toNat - 40 - 20 = mtu.toNat - 60
      omega
  | connect h transport fuel address port ih =>
      exact (steady_sized.keeps_connect fuel address port).state ih
  | read h transport count fuel ih =>
      exact (steady_sized.keeps_read count fuel).state ih
  | readExact h transport count turns ih =>
      exact (steady_sized.keeps_readExactLoop count turns count []).state ih
  | write h transport data ih =>
      exact (steady_sized.keeps_writeLoop data.length data).state ih
  | close h transport ih => exact steady_sized.keeps_close.state ih

end Sized

/-! ## Packets of a write -/

/-- A packet that carries a piece of data: it is whole, no longer than the MTU,
and goes from one port to the other with this number. -/
structure CarriesSegment (mtu : UInt16) (ports : Ports) (number : UInt32)
    (piece packet : Bytes) : Prop where
  size : packet.length ≤ mtu.toNat
  payload : packet.drop (kIpv6HeaderSize + kTcpHeaderSize) = piece
  length : ∃ ipv6, Ipv6Header.decode (packet.take kIpv6HeaderSize) = .ok ipv6 ∧
    ipv6.nextHeader = kNextTcp ∧
    ipv6.payloadLength.toNat = (packet.drop kIpv6HeaderSize).length
  header : ∃ tcp, TcpHeader.decode
      ((packet.drop kIpv6HeaderSize).take kTcpHeaderSize) = .ok tcp ∧
    tcp.sourcePort = ports.source ∧ tcp.destinationPort = ports.peer ∧
    tcp.sequence = number ∧ tcp.flags = TcpAck

/-- A segment that fits the MTU is a whole packet with the piece of data, between the
link's ports and with its number. -/
theorem carriesSegment_segmentPacket {link : TcpLink} {piece : Bytes}
    (h : piece.length + 60 ≤ link.mtu.toNat) :
    CarriesSegment link.mtu link.ports link.sendSeq piece
      (link.segmentPacket TcpAck piece) := by
  obtain ⟨ipv6, tcp, hpacket, hoffset, hflags, hnext, hipv6, hnumber, hports⟩ :
      ∃ (ipv6 : Ipv6Header) (tcp : TcpHeader),
        link.segmentPacket TcpAck piece =
          ipv6.encode ++ (tcp.encode ++ piece) ∧ tcp.dataOffset = 5 ∧
        tcp.flags = TcpAck ∧ ipv6.nextHeader = kNextTcp ∧
        ipv6.payloadLength = UInt16.ofNat (tcp.encode ++ piece).length ∧
        tcp.sequence = link.sendSeq ∧
        link.ports = ⟨tcp.sourcePort, tcp.destinationPort⟩ :=
    ⟨_, _, rfl, rfl, rfl, rfl, rfl, rfl, rfl⟩
  have hmtu := link.mtu.toNat_lt
  have hlength : (tcp.encode ++ piece).length = 20 + piece.length := by
    rw [List.length_append, tcp.length_encode]
  have hfront : (ipv6.encode ++ (tcp.encode ++ piece)).take kIpv6HeaderSize =
      ipv6.encode := List.take_left' ipv6.length_encode
  have hback : (ipv6.encode ++ (tcp.encode ++ piece)).drop kIpv6HeaderSize =
      tcp.encode ++ piece := List.drop_left' ipv6.length_encode
  rw [hpacket]
  constructor
  · rw [List.length_append, hlength, ipv6.length_encode]
    omega
  · rw [← List.drop_drop, hback]
    exact List.drop_left' tcp.length_encode
  · obtain ⟨decoded, hdecode, -, hvalue, hbyte⟩ :=
      @Ipv6Header.decode_of_le ipv6.encode (by rw [ipv6.length_encode])
    rw [hfront, hback]
    have hnextByte : ipv6.encode[6]? = some ipv6.nextHeader := rfl
    have hlengthBytes : (ipv6.encode.drop 4).take 2 =
        beBytes 2 ipv6.payloadLength.toNat := rfl
    refine ⟨decoded, hdecode, ?_, ?_⟩
    · rw [hnextByte, hnext] at hbyte
      exact (Option.some_inj.mp hbyte).symm
    · rw [hvalue, hlengthBytes,
        beValue_beBytes_of_lt ipv6.payloadLength.toNat_lt, hipv6,
        UInt16.toNat_ofNat', Nat.mod_eq_of_lt (by omega)]
  · have htcp : (tcp.encode ++ piece).take kTcpHeaderSize = tcp.encode :=
      List.take_left' tcp.length_encode
    rw [hback, htcp, TcpHeader.decode_encode (by rw [hoffset]; decide)]
    refine ⟨tcp, rfl, ?_, ?_, hnumber, hflags⟩
    · rw [hports]
    · rw [hports]

/-! ## The write -/

section Write

variable {τ : Type} [Transport τ]

/-- A segment is one call of the tunnel; the link's number moves on when it
succeeds. -/
theorem run_sendSegment_recorded (flags : UInt8) (payload : Bytes)
    (transport : Recorded τ) (link : TcpLink) :
    (((sendSegment flags payload).run (transport, link)).2.1.calls =
      transport.calls ++ [.write (link.segmentPacket flags payload)
        ((sendSegment flags payload).run (transport, link)).1]) ∧
      (((sendSegment flags payload).run (transport, link)).2.2 =
        match ((sendSegment flags payload).run (transport, link)).1 with
        | .ok _ =>
            { link with sendSeq := link.sendSeq + sequenceLength flags payload }
        | .error _ => link) := by
  have hwrite : (onFramer (Ipv6Framer.writePacket
      (link.segmentPacket flags payload))).run (transport, link) =
        (((Transport.write (link.segmentPacket flags payload)).run transport).1,
          ((Transport.write (link.segmentPacket flags payload)).run transport).2,
          link) := rfl
  rw [sendSegment, Action.run_bind_ok (Action.run_get _), Action.run_bind, hwrite,
    Recorded.run_write]
  cases ((Transport.write (link.segmentPacket flags payload)).run
    transport.transport).1 with
  | ok => exact ⟨rfl, rfl⟩
  | error fault => exact ⟨rfl, rfl⟩

/-- A turn of the writing loop. -/
theorem sendsPieces_sendSegment (mtu : UInt16) (ports : Ports) :
    SendsPieces
      (fun state : Recorded τ × TcpLink =>
        state.2.Sized ∧ state.2.mtu = mtu ∧ state.2.ports = ports)
      (fun state => state.2.mss) (sendSegment TcpAck)
      (fun state => state.1.calls) (fun state => state.2.sendSeq)
      (CarriesSegment mtu ports) .write := by
  constructor
  · intro state hstate
    obtain ⟨⟨hmtu, hmss⟩, -⟩ := hstate
    omega
  · intro state piece hstate hne hlength
    obtain ⟨⟨hmtu, hmss⟩, rfl, rfl⟩ := hstate
    refine ⟨state.2.segmentPacket TcpAck piece, ?_, ?_⟩
    · exact carriesSegment_segmentPacket (by omega)
    · exact (run_sendSegment_recorded TcpAck piece state.1 state.2).1
  · intro state piece next hstate _ hrun
    have hlink := (run_sendSegment_recorded TcpAck piece state.1 state.2).2
    rw [hrun] at hlink
    obtain ⟨⟨hmtu, hmss⟩, hlinkMtu, hports⟩ := hstate
    have hlink : next.2 = { state.2 with
        sendSeq := state.2.sendSeq + sequenceLength TcpAck piece } := hlink
    have hspan : sequenceLength TcpAck piece = UInt32.ofNat piece.length :=
      UInt32.add_zero _
    rw [hlink]
    constructor
    · exact ⟨⟨hmtu, hmss⟩, hlinkMtu, hports⟩
    · rw [hspan]
  · intro state piece next fault hstate _ hrun
    have hlink := (run_sendSegment_recorded TcpAck piece state.1 state.2).2
    rw [hrun] at hlink
    rw [hlink]

theorem writeLoop_eq_sendPieces (fuel : Nat) (data : Bytes) :
    (writeLoop fuel data : Action Error (τ × TcpLink) Unit) =
      sendPieces (fun state => state.2.mss) (sendSegment TcpAck) fuel data := by
  induction fuel generalizing data with
  | zero => rfl
  | succ fuel ih =>
      rw [writeLoop, sendPieces]
      simp only [ih]

/-- What a write sends over any tunnel: packets of at most the MTU that carry the data,
in numbered order. When the tunnel takes them all the data is sent whole, and otherwise
the packets before the one that failed; the number at the end counts what was sent. -/
theorem write_sent {σ : Type} [Transport σ] {link : TcpLink} (h : Used σ link)
    (transport : Recorded τ) (data : Bytes) :
    Sent (CarriesSegment link.mtu link.ports) TransportCall.write data
      transport.calls link.sendSeq
      ((write data).run (transport, link)).1
      ((write data).run (transport, link)).2.1.calls
      ((write data).run (transport, link)).2.2.sendSeq := by
  have hsent := (@sendsPieces_sendSegment τ _ link.mtu link.ports).sent
    data.length data (transport, link) ⟨h.sized, rfl, rfl⟩ (Nat.le_refl _)
  rw [write, writeLoop_eq_sendPieces]
  exact hsent

end Write

/-- A tunnel that was not called yet. -/
private def freshTunnel : Recorded ScriptedTransport := ⟨{}, []⟩

/-- The first link over a tunnel of 1280 bytes. -/
private def firstLink : TcpLink := create (ascii "fd00::1") 1280 49152

private theorem used_firstLink : Used ScriptedTransport firstLink := by
  have haddress : (!(parseIpv6 (ascii "fd00::1")).isOk) = false := by
    decide +kernel
  have hrun : (openLink (ascii "fd00::1") 1280).run 49152 =
      (.ok firstLink, 49153) := by
    rw [openLink, if_neg (by decide), haddress]
    rfl
  exact Used.opened hrun

/-- Three thousand bytes, which take three segments. -/
private def threeSegments : Bytes := List.replicate 3000 7

theorem write_sent_firstLink :
    Sent (CarriesSegment firstLink.mtu firstLink.ports) TransportCall.write
        threeSegments freshTunnel.calls firstLink.sendSeq
        ((write threeSegments).run (freshTunnel, firstLink)).1
        ((write threeSegments).run (freshTunnel, firstLink)).2.1.calls
        ((write threeSegments).run (freshTunnel, firstLink)).2.2.sendSeq ∧
      ((write threeSegments).run (freshTunnel, firstLink)).2.1.calls.length = 3 :=
  ⟨write_sent used_firstLink freshTunnel threeSegments, by decide +kernel⟩

end Ioscpp.TcpLink
