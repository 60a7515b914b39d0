import Ioscpp.Protocol.Ipv6

/-!
# Framing does not depend on chunking

What the framer has not used yet is the bytes it has read ahead and those that
the transport still delivers.  While these are packets, a call returns the first
of them, or it fails in a read and loses nothing, however the transport cuts the
packets' bytes.

## Main results

- `Refilled.slice_eq`: the bytes in front of a filled buffer are those of the first
  packet.
- `triple_readPacket`: a call returns the first packet, or fails and loses nothing.
- `framed_readPackets`: so do any calls, however the transport cuts the bytes.
-/

namespace Ioscpp.Protocol

open Ioscpp.Support
open ScriptedTransport

/-- A whole IPv6 packet: its version, and a payload of the length that its header
says. -/
structure IsIpv6Packet (packet : Bytes) : Prop where
  header : 40 ≤ packet.length
  version : packet[0] >>> 4 = 6
  length : packet.length = 40 + beValue ((packet.drop 4).take 2)

/-- The header of a packet says its version and its length. -/
theorem IsIpv6Packet.decode {packet : Bytes} (h : IsIpv6Packet packet) :
    ∃ header, Ipv6Header.decode (packet.take 40) = .ok header ∧
      header.version = 6 ∧ 40 + header.payloadLength.toNat = packet.length := by
  have hheader := h.header
  have hlength : (packet.take 40).length = 40 := by
    rw [List.length_take]
    omega
  obtain ⟨header, hdecode, ⟨first, hfirst, hversion⟩, hpayload, -⟩ :=
    Ipv6Header.decode_of_le (Nat.le_of_eq hlength.symm)
  refine ⟨header, hdecode, ?_, ?_⟩
  · rw [List.getElem?_take_of_lt (by decide),
      List.getElem?_eq_getElem (by omega)] at hfirst
    rw [hversion, ← Option.some.inj hfirst]
    exact h.version
  · rw [hpayload, List.drop_take, List.take_take]
    exact h.length.symm

namespace Ipv6Framer

/-- The bytes that were read and not used. -/
def ahead (framer : Ipv6Framer) : Bytes := framer.buffer.drop framer.offset

/-- The bytes that were not used: those read ahead, and those that the transport
still delivers. -/
def pending (state : ScriptedTransport × Ipv6Framer) : Bytes :=
  state.2.ahead ++ state.1.remaining

/-! ## Filling -/

/-- The framer with more bytes after those it had, and nothing before them. -/
structure Refilled (before after : ScriptedTransport × Ipv6Framer)
    (bytes : Bytes) : Prop where
  delivers : Delivers before.1 after.1 bytes
  eq : after.2 =
    { before.2 with buffer := before.2.ahead ++ bytes, offset := 0 }

section Refilled

variable {first second third : ScriptedTransport × Ipv6Framer}
  {front back : Bytes}

theorem Refilled.ahead_eq (h : Refilled first second front) :
    second.2.ahead = first.2.ahead ++ front := by
  rw [ahead, h.eq]
  rfl

theorem Refilled.pending_eq (h : Refilled first second front) :
    pending second = pending first := by
  rw [pending, pending, h.ahead_eq, h.delivers.remaining, List.append_assoc]

theorem Refilled.trans (h : Refilled first second front)
    (h' : Refilled second third back) : Refilled first third (front ++ back) := by
  refine ⟨h.delivers.trans h'.delivers, ?_⟩
  rw [h'.eq, h.ahead_eq, h.eq, List.append_assoc]

/-- The buffer after filling: it is what was ahead, or it holds less than what
was asked for and one chunk. -/
def Grown (count : Nat) (before after : ScriptedTransport × Ipv6Framer) : Prop :=
  after.2.buffer.length ≤ before.2.ahead.length ∨
    after.2.buffer.length < count + kReadSize

/-- A fill that failed: no byte is lost, and if the transport would have had the
bytes, one of its failures is spent. -/
structure FillFailed (count : Nat)
    (before after : ScriptedTransport × Ipv6Framer) (e : Fault Error) : Prop where
  refilled : ∃ bytes, Refilled before after bytes
  grown : Grown count before after
  spent : before.1.Steady → count ≤ (pending before).length →
    after.1.failures < before.1.failures
  error : ∃ error, e = .error error
  still : count ≤ before.2.ahead.length ∨ before.1.Idle →
    after.1.remaining = before.1.remaining

theorem triple_fill (count : Nat) (state : ScriptedTransport × Ipv6Framer) :
    Action.Triple (fun other => other = state) (fill count)
      (fun _ next => (∃ bytes, Refilled state next bytes) ∧
        Grown count state next ∧ count ≤ next.2.buffer.length ∧
        (count ≤ state.2.ahead.length ∨ state.1.Idle → next.1 = state.1))
      (fun e next => FillFailed count state next e) := by
  rintro other rfl
  obtain ⟨transport, framer⟩ := other
  obtain ⟨bytes, hfill⟩ := Buffered.run_fill closedMidPacket kReadSize count
    (transport, framer.buffer.drop framer.offset)
  have hsteady := hfill.steady (by decide)
  rw [fill, Action.run_bind_ok (Action.run_modify _ _), Action.run_zoom]
  dsimp only [compact]
  rcases hrun : Action.run (Buffered.fill closedMidPacket kReadSize count)
      (transport, framer.buffer.drop framer.offset) with ⟨result, after, buffer⟩
  rw [hrun] at hfill hsteady
  obtain rfl : buffer = framer.ahead ++ bytes := hfill.buffer
  have hrefilled : Refilled (transport, framer) (after, { framer.compact with
      buffer := framer.ahead ++ bytes }) bytes := ⟨hfill.delivers, rfl⟩
  rcases hfill.result with ⟨hok, hle⟩ | ⟨⟨e, he⟩, hlt⟩
  · obtain rfl : result = .ok () := hok
    exact ⟨⟨bytes, hrefilled⟩, hfill.size, hle, fun hstill =>
      (hfill.still hstill).2 rfl⟩
  · obtain rfl : result = .error (.error e) := he
    refine ⟨⟨bytes, hrefilled⟩, hfill.size, fun hscript henough => ?_, ⟨e, rfl⟩,
      fun hstill => ?_⟩
    · rw [pending, List.length_append] at henough
      rcases hsteady hscript henough with hok | hspent
      · cases hok
      · exact hspent
    · rw [hfill.delivers.remaining, (hfill.still hstill).1]
      rfl

end Refilled

/-! ## Reading a packet -/

/-- The buffer holds less than one of the packets and one chunk, so what the framer
reads ahead does not grow with the number of packets. -/
def Bounded (packets : List Bytes) (framer : Ipv6Framer) : Prop :=
  ∃ packet ∈ packets, framer.buffer.length < packet.length + kReadSize

/-- What every call does: it reads from the transport, and the buffer grows
within its bound. -/
structure Moved (packets : List Bytes)
    (before after : ScriptedTransport × Ipv6Framer) : Prop where
  delivers : ∃ bytes, Delivers before.1 after.1 bytes
  size : after.2.maxPacketSize = before.2.maxPacketSize
  bounded : after.2.buffer.length ≤ before.2.buffer.length ∨
    Bounded packets after.2

/-- A call that returns a packet. -/
structure Returned (packets : List Bytes) (packet : Bytes)
    (before after : ScriptedTransport × Ipv6Framer) : Prop where
  first : ∃ rest, packets = packet :: rest
  pending : pending before = packet ++ pending after
  moved : Moved packets before after

/-- A call that fails: it loses no byte, and while the transport delivers all the
packets, one of its failures is spent. -/
structure Failed (packets : List Bytes)
    (before after : ScriptedTransport × Ipv6Framer) : Prop where
  pending : Ipv6Framer.pending after = Ipv6Framer.pending before
  moved : Moved packets before after
  spent : before.1.Steady → packets ≠ [] →
    Ipv6Framer.pending before = packets.flatten →
      after.1.failures < before.1.failures

section ReadPacket

variable {packets : List Bytes} {state first next : ScriptedTransport × Ipv6Framer}
  {bytes : Bytes}

/-- What is asked for is part of one of the packets, if there are any. -/
def Within (packets : List Bytes) (state : ScriptedTransport × Ipv6Framer)
    (count : Nat) : Prop :=
  packets = [] ∧ pending state = [] ∨ ∃ packet ∈ packets, count ≤ packet.length

/-- Filling for a packet, or for the header of one, keeps the bounds. -/
theorem Refilled.moved {count : Nat} (h : Refilled state next bytes)
    (hgrown : Grown count state next) (hcount : Within packets state count) :
    Moved packets state next := by
  refine ⟨⟨bytes, h.delivers⟩, by rw [h.eq], ?_⟩
  have hahead : state.2.ahead.length ≤ state.2.buffer.length := by
    rw [ahead, List.length_drop]
    omega
  rcases hcount with ⟨-, hnil⟩ | ⟨packet, hmem, hle⟩
  · left
    rw [pending, List.append_eq_nil_iff] at hnil
    have hbytes := h.delivers.remaining
    rw [hnil.2] at hbytes
    rw [h.eq, hnil.1, (List.append_eq_nil_iff.mp hbytes.symm).1]
    exact Nat.zero_le _
  · rcases hgrown with hle' | hlt
    · exact .inl (hle'.trans hahead)
    · exact .inr ⟨packet, hmem, by omega⟩

theorem Moved.refl (state : ScriptedTransport × Ipv6Framer) :
    Moved packets state state :=
  ⟨⟨[], .refl _⟩, rfl, .inl (Nat.le_refl _)⟩

theorem Moved.trans (h : Moved packets state first)
    (h' : Moved packets first next) : Moved packets state next := by
  obtain ⟨front, hfront⟩ := h.delivers
  obtain ⟨back, hback⟩ := h'.delivers
  refine ⟨⟨_, hfront.trans hback⟩, h'.size.trans h.size, ?_⟩
  rcases h'.bounded with hle' | hbounded
  · rcases h.bounded with hle | ⟨packet, hmem, hlt⟩
    · exact .inl (hle'.trans hle)
    · exact .inr ⟨packet, hmem, hle'.trans_lt hlt⟩
  · exact .inr hbounded

theorem Moved.mono {others : List Bytes} (h : Moved packets first next)
    (hsubset : packets ⊆ others) : Moved others first next := by
  refine ⟨h.delivers, h.size, h.bounded.imp_right ?_⟩
  rintro ⟨packet, hmem, hlt⟩
  exact ⟨packet, hsubset hmem, hlt⟩

theorem FillFailed.failed {count : Nat} {e : Fault Error}
    (h : FillFailed count first next e) (hmoved : Moved packets state first)
    (hpending : Ipv6Framer.pending first = Ipv6Framer.pending state)
    (hcount : Within packets first count) : Failed packets state next := by
  obtain ⟨more, hmore⟩ := h.refilled
  refine ⟨hmore.pending_eq.trans hpending,
    hmoved.trans (hmore.moved h.grown hcount), ?_⟩
  intro hsteady hsome hwhole
  obtain ⟨bytes, hdelivers⟩ := hmoved.delivers
  refine (h.spent (hdelivers.steady hsteady) ?_).trans_le hdelivers.failures
  rw [hpending, hwhole]
  rcases hcount with ⟨hnil, -⟩ | ⟨packet, hmem, hle⟩
  · exact absurd hnil hsome
  · exact hle.trans (List.sublist_flatten_of_mem hmem).length_le

theorem Refilled.buffer_eq (h : Refilled state next bytes) :
    next.2.buffer ++ next.1.remaining = pending state := by
  rw [← h.pending_eq, pending, ahead, h.eq, List.drop_zero]

/-- The bytes at the front of a filled buffer are those of the first packet, when the
bytes read ahead begin as the packets do. -/
theorem Refilled.slice_eq (h : Refilled state next bytes) {packet : Bytes}
    {others : List Bytes} (hpending : pending state <+: (packet :: others).flatten)
    {count : Nat} (hbuffer : count ≤ next.2.buffer.length)
    (hpacket : count ≤ packet.length) :
    (slice next.2.buffer next.2.offset count : Result Bytes) =
      .ok (packet.take count) := by
  have hoffset : next.2.offset = 0 := by rw [h.eq]
  have hfront : next.2.buffer <+: packet ++ others.flatten := by
    rw [← h.buffer_eq] at hpending
    exact (List.prefix_append _ _).trans hpending
  obtain ⟨back, hback⟩ := hfront
  have htake := congrArg (List.take count) hback
  rw [List.take_append_of_le_length hbuffer,
    List.take_append_of_le_length hpacket] at htake
  rw [hoffset, slice_of_le (by rwa [Nat.zero_add]), List.drop_zero, htake]

/-- While packets are what is pending, a call returns the first, or fails and
loses nothing. -/
theorem triple_readPacket
    (hpackets : ∀ packet ∈ packets, IsIpv6Packet packet ∧
      packet.length ≤ state.2.maxPacketSize)
    (hpending : pending state <+: packets.flatten) :
    Action.Triple (fun other => other = state) readPacket
      (fun packet next => Returned packets packet state next)
      (fun _ next => Failed packets state next) := by
  have hforty : Within packets state kIpv6HeaderSize := by
    cases packets with
    | nil => exact .inl ⟨rfl, List.prefix_nil.mp hpending⟩
    | cons packet rest =>
        exact .inr ⟨packet, by simp, (hpackets packet (by simp)).1.header⟩
  refine Action.Triple.bind ((triple_fill kIpv6HeaderSize state).imp_post
    (fun _ _ h => h) fun _ _ h => h.failed (.refl _) rfl hforty) fun _ => ?_
  refine Action.Triple.get_bind fun first hfirst => ?_
  obtain ⟨⟨bytes, hrefilled⟩, hgrown, hle, -⟩ := hfirst
  have hmoved := hrefilled.moved hgrown hforty
  have hfirst := hrefilled.pending_eq
  -- the buffer starts with the header of the first packet
  cases packets with
  | nil =>
      have hnil := hrefilled.buffer_eq
      rw [List.prefix_nil.mp hpending, List.append_eq_nil_iff] at hnil
      rw [hnil.1] at hle
      cases hle
  | cons packet rest =>
      obtain ⟨hpacket, hsize⟩ := hpackets packet (by simp)
      obtain ⟨header, hdecode, hversion, htotal⟩ := hpacket.decode
      have hslice := hrefilled.slice_eq hpending hle hpacket.header
      have hmax : ¬ first.2.maxPacketSize < packet.length := by
        rw [hmoved.size]
        exact Nat.not_lt.mpr hsize
      rw [hslice]
      refine Action.Triple.lift_ok_bind ?_
      rw [kIpv6HeaderSize, hdecode]
      refine Action.Triple.lift_ok_bind ?_
      rw [if_neg (not_not_intro hversion)]
      dsimp only
      rw [htotal, if_neg hmax]
      refine Action.Triple.bind ((triple_fill packet.length first).imp_post
        (fun _ _ h => h) fun _ _ h => h.failed hmoved hfirst
          (.inr ⟨packet, by simp, Nat.le_refl _⟩)) fun _ => ?_
      refine Action.Triple.get_bind fun second hsecond => ?_
      obtain ⟨⟨more, hmore⟩, hgrown', hle', -⟩ := hsecond
      have hslice' := hmore.slice_eq (hfirst ▸ hpending) hle' (Nat.le_refl _)
      rw [List.take_length] at hslice'
      rw [hslice']
      refine Action.Triple.lift_ok_bind (Action.Triple.bind
        (Q := fun _ next => Returned (packet :: rest) packet state next)
        (Action.Triple.modify fun last hlast => ?_)
        fun _ => Action.Triple.pure fun _ h => h)
      subst hlast
      refine ⟨⟨rest, rfl⟩, ?_, ?_⟩
      · have hoffset : last.2.offset = 0 := by rw [hmore.eq]
        have htake := hslice'
        rw [slice_of_le (by rwa [hoffset, Nat.zero_add])] at htake
        rw [← hfirst, ← hmore.pending_eq, pending, pending, ahead, ahead,
          ← List.append_assoc, ← List.drop_drop]
        nth_rewrite 1 [← Except.ok.inj htake]
        rw [List.take_append_drop]
      · refine hmoved.trans ((hmore.moved hgrown'
          (.inr ⟨packet, by simp, Nat.le_refl _⟩)).trans
          ⟨⟨[], .refl _⟩, rfl, .inl (Nat.le_refl _)⟩)

end ReadPacket

/-! ## Successive calls -/

/-- Calls `readPacket` `count` times: the packets of the calls that succeed. -/
def readPackets {τ : Type} [Transport τ] :
    Nat → τ × Ipv6Framer → List Bytes × (τ × Ipv6Framer)
  | 0, state => ([], state)
  | count + 1, state =>
      match readPacket.run state with
      | (.ok packet, next) =>
          let (packets, last) := readPackets count next
          (packet :: packets, last)
      | (.error _, next) => readPackets count next

/-- What calls do while `packets` are pending: they return the first of them, and
leave `later`. -/
structure Framed (packets : List Bytes) (count : Nat)
    (before : ScriptedTransport × Ipv6Framer)
    (outcome : List Bytes × (ScriptedTransport × Ipv6Framer))
    (later : List Bytes) : Prop where
  order : packets = outcome.1 ++ later
  pending : pending before = outcome.1.flatten ++ pending outcome.2
  moved : Moved packets before outcome.2
  complete : before.1.Steady → Ipv6Framer.pending before = packets.flatten →
    packets.length + before.1.failures ≤ count → later = []

theorem run_readPackets {packets : List Bytes} {count : Nat}
    {state : ScriptedTransport × Ipv6Framer}
    (hpackets : ∀ packet ∈ packets, IsIpv6Packet packet ∧
      packet.length ≤ state.2.maxPacketSize)
    (hpending : pending state <+: packets.flatten) :
    ∃ later, Framed packets count state (readPackets count state) later := by
  induction count generalizing packets state with
  | zero =>
      refine ⟨packets, rfl, rfl, .refl _, fun _ _ hcount => ?_⟩
      exact List.eq_nil_of_length_eq_zero (by omega)
  | succ count ih =>
      have hcall := triple_readPacket hpackets hpending
      rw [readPackets]
      rcases hrun : readPacket.run state with ⟨e | packet, next⟩
      · have hfailed := hcall.of_error rfl hrun
        obtain ⟨bytes, hdelivers⟩ := hfailed.moved.delivers
        rw [← hfailed.moved.size] at hpackets
        rw [← hfailed.pending] at hpending
        obtain ⟨later, hlater⟩ := ih hpackets hpending
        refine ⟨later, hlater.order, hfailed.pending ▸ hlater.pending,
          hfailed.moved.trans hlater.moved, fun hsteady hwhole hcount => ?_⟩
        by_cases hnil : packets = []
        · rw [hnil] at hlater
          exact (List.append_eq_nil_iff.mp hlater.order.symm).2
        · have hspent := hfailed.spent hsteady hnil hwhole
          exact hlater.complete (hdelivers.steady hsteady)
            (hfailed.pending.trans hwhole) (by omega)
      · have hreturned := hcall.of_ok rfl hrun
        obtain ⟨rest, rfl⟩ := hreturned.first
        obtain ⟨bytes, hdelivers⟩ := hreturned.moved.delivers
        rw [← hreturned.moved.size] at hpackets
        rw [hreturned.pending, List.flatten_cons,
          List.prefix_append_right_inj] at hpending
        obtain ⟨later, hlater⟩ := ih
          (fun packet hmem => hpackets packet (List.mem_cons_of_mem _ hmem))
          hpending
        refine ⟨later, ?_, ?_, hreturned.moved.trans
          (hlater.moved.mono (List.subset_cons_self _ _)),
          fun hsteady hwhole hcount => ?_⟩
        · exact congrArg (packet :: ·) hlater.order
        · rw [hreturned.pending, hlater.pending, List.flatten_cons,
            List.append_assoc]
        · rw [hreturned.pending, List.flatten_cons] at hwhole
          rw [List.length_cons] at hcount
          exact hlater.complete (hdelivers.steady hsteady)
            (List.append_cancel_left hwhole)
            (by have := hdelivers.failures; omega)

/-- However a transport cuts the bytes of packets, and wherever its reads fail
between the chunks, the calls that succeed return the packets in their order.
What they have not returned is in the buffer and still to come, whole; a call
that fails leaves it as it is; and the buffer holds less than one packet and one
chunk.  Calls enough for the packets and the failures return them all. -/
theorem framed_readPackets {packets : List Bytes} {size : Nat}
    {transport : ScriptedTransport}
    (hpackets : ∀ packet ∈ packets, IsIpv6Packet packet ∧ packet.length ≤ size)
    (hsteady : transport.Steady)
    (hremaining : transport.remaining = packets.flatten) (count : Nat) :
    ∃ later,
      packets = (readPackets count
        (transport, { maxPacketSize := size })).1 ++ later ∧
      pending (readPackets count
        (transport, { maxPacketSize := size })).2 = later.flatten ∧
      (∀ e next, readPacket.run (readPackets count
          (transport, { maxPacketSize := size })).2 = (.error e, next) →
        pending next = later.flatten) ∧
      ((readPackets count
          (transport, { maxPacketSize := size })).2.2.buffer = [] ∨
        Bounded packets (readPackets count
          (transport, { maxPacketSize := size })).2.2) ∧
      (packets.length + transport.failures ≤ count → later = []) := by
  have hpending : pending (transport, { maxPacketSize := size }) =
      packets.flatten := hremaining
  obtain ⟨later, hlater⟩ := @run_readPackets packets count
    (transport, { maxPacketSize := size }) hpackets (by rw [hpending])
  rcases houtcome : readPackets count (transport, { maxPacketSize := size })
    with ⟨returned, state⟩
  rw [houtcome] at hlater
  have hlast : pending state = later.flatten := by
    have hwhole := hpending.symm.trans hlater.pending
    rw [hlater.order, List.flatten_append] at hwhole
    exact (List.append_cancel_left hwhole).symm
  refine ⟨later, hlater.order, hlast, fun e next hrun => ?_, ?_,
    hlater.complete hsteady hpending⟩
  · have hcall := @triple_readPacket later state
      (fun packet hmem => by
        rw [hlater.moved.size]
        refine hpackets packet ?_
        rw [hlater.order]
        exact List.mem_append_right _ hmem) (by rw [hlast])
    rw [(hcall.of_error rfl hrun).pending, hlast]
  · refine hlater.moved.bounded.imp_left fun hle => ?_
    exact List.eq_nil_of_length_eq_zero (Nat.le_zero.mp hle)

/-- A packet without a payload, and one with three bytes. -/
private def twoPackets : List Bytes :=
  [({} : Ipv6Header).encode,
    ({ payloadLength := 3 } : Ipv6Header).encode ++ [1, 2, 3]]

/-- Their bytes in three chunks, with a failure in each header. -/
private def cutTransport : ScriptedTransport where
  reads :=
    [.ok (twoPackets.flatten.take 10),
      .error ⟨.transport, ascii "the read timed out"⟩,
      .ok ((twoPackets.flatten.drop 10).take 50),
      .error ⟨.transport, ascii "the read timed out"⟩,
      .ok (twoPackets.flatten.drop 60)]

theorem framed_readPackets_cutTransport :
    (readPackets 4 (cutTransport, { maxPacketSize := 100 })).1 = twoPackets := by
  have hpackets : ∀ packet ∈ twoPackets,
      IsIpv6Packet packet ∧ packet.length ≤ 100 := by
    intro packet hmem
    rcases List.mem_cons.mp hmem with rfl | hmem
    · exact ⟨⟨by decide +kernel, by decide +kernel, by decide +kernel⟩,
        by decide +kernel⟩
    · obtain rfl := List.mem_singleton.mp hmem
      exact ⟨⟨by decide +kernel, by decide +kernel, by decide +kernel⟩,
        by decide +kernel⟩
  have hsteady : cutTransport.Steady := by
    intro chunk hmem
    simp only [cutTransport, List.mem_cons, List.not_mem_nil, reduceCtorEq,
      Except.ok.injEq, or_false, false_or] at hmem
    rcases hmem with rfl | rfl | rfl <;> decide +kernel
  obtain ⟨later, horder, -, -, -, hcomplete⟩ := framed_readPackets hpackets
    hsteady (by decide +kernel) 4
  rw [hcomplete (by decide +kernel), List.append_nil] at horder
  exact horder.symm

end Ipv6Framer

end Ioscpp.Protocol
