import Ioscpp.Protocol.Ipv6Framing
import Ioscpp.TcpLinkPeer

/-!
# What a read does

A call of `read` returns bytes that the link holds, or it takes packets off the
tunnel until one brings some.  `Turn` lists what can come of a call, in terms of
the peer's stream; the invariants of whole connections are read off from it.

## Main results

- `triple_receiveSegment`: the packets before the first that has a segment are
  skipped.
- `triple_read`: a read takes a turn, and returns the front of what the link then has.
-/

namespace Ioscpp

open Ioscpp.Support
open Ioscpp.Protocol
open ScriptedTransport

/-- No packet is longer than the framer's bound. -/
theorem Protocol.IsIpv6Packet.length_le {packet : Bytes}
    (h : IsIpv6Packet packet) : packet.length ≤ kIpv6MaxPacketSize := by
  have hheader := h.header
  have hvalue := beValue_lt ((packet.drop 4).take 2)
  have hlength : ((packet.drop 4).take 2).length = 2 := by
    rw [List.length_take, List.length_drop]
    omega
  rw [hlength] at hvalue
  have hmax : kIpv6MaxPacketSize = 65575 := rfl
  have htotal := h.length
  omega

namespace TcpLink

/-! ## Packets from the tunnel -/

/-- The bytes of the tunnel that are in no packet yet: those read ahead, and
those still to come. -/
def pending (state : ScriptedTransport × TcpLink) : Bytes :=
  Ipv6Framer.pending (state.1, state.2.framer)

/-- The tunnel has these packets for the link. -/
structure Facing (packets : List Bytes) (state : ScriptedTransport × TcpLink) :
    Prop where
  whole : ∀ packet ∈ packets, IsIpv6Packet packet
  size : state.2.framer.maxPacketSize = kIpv6MaxPacketSize
  pending : pending state = packets.flatten

/-- The tunnel was read, and the link is as before but for its framer. -/
structure Received (before after : ScriptedTransport × TcpLink) : Prop where
  delivers : ∃ bytes, Delivers before.1 after.1 bytes
  eq : after.2 = { before.2 with framer := after.2.framer }

section Packets

variable {packets : List Bytes}
  {state first second : ScriptedTransport × TcpLink}

theorem Received.refl (state : ScriptedTransport × TcpLink) :
    Received state state :=
  ⟨⟨[], .refl _⟩, rfl⟩

theorem Received.trans (h : Received state first) (h' : Received first second) :
    Received state second := by
  obtain ⟨front, hfront⟩ := h.delivers
  obtain ⟨back, hback⟩ := h'.delivers
  refine ⟨⟨_, hfront.trans hback⟩, ?_⟩
  rw [h'.eq, h.eq]

theorem Received.ports (h : Received state first) :
    first.2.ports = state.2.ports := by
  rw [h.eq]
  rfl

theorem Received.clean (h : Received state first) (hclean : state.1.Clean) :
    first.1.Clean := by
  obtain ⟨bytes, hdelivers⟩ := h.delivers
  exact hdelivers.clean hclean

/-- A packet is taken off the tunnel, or the read fails and takes none. -/
theorem triple_readPacket (h : Facing packets state) :
    Action.Triple (fun other => other = state) (onFramer Ipv6Framer.readPacket)
      (fun packet next => ∃ rest, packets = packet :: rest ∧
        Facing rest next ∧ Received state next)
      (fun _ next => Facing packets next ∧ Received state next ∧
        (state.1.Clean → packets = [])) := by
  refine Action.Triple.zoom fun other hother => ?_
  obtain rfl : other = state := hother
  refine (Ipv6Framer.triple_readPacket
    (fun packet hmem => ⟨h.whole packet hmem, ?_⟩)
    (by rw [← h.pending]; rfl)).imp_post ?_ ?_
  · change packet.length ≤ other.2.framer.maxPacketSize
    rw [h.size]
    exact (h.whole packet hmem).length_le
  · intro packet next hreturned
    obtain ⟨rest, rfl⟩ := hreturned.first
    have hpending := h.pending.symm.trans hreturned.pending
    rw [List.flatten_cons] at hpending
    exact ⟨rest, rfl, ⟨fun packet hmem => h.whole packet
        (List.mem_cons_of_mem _ hmem), hreturned.moved.size.trans h.size,
      (List.append_cancel_left hpending).symm⟩, hreturned.moved.delivers, rfl⟩
  · intro e next hfailed
    refine ⟨⟨h.whole, hfailed.moved.size.trans h.size,
      hfailed.pending.trans h.pending⟩, ⟨hfailed.moved.delivers, rfl⟩, ?_⟩
    intro hclean
    by_contra hsome
    have hspent := hfailed.spent hclean.steady hsome h.pending
    rw [hclean.failures] at hspent
    cases hspent

/-- The packets before the first that has a segment are skipped, and nothing of the link
changes but its framer. A failure has skipped what it has read. -/
theorem triple_receiveSegment {fuel : Nat} (h : Facing packets state) :
    Action.Triple (fun other => other = state) (receiveSegment fuel)
      (fun segment next => ∃ skipped packet rest,
        packets = skipped ++ packet :: rest ∧
        (∀ packet ∈ skipped, acceptSegment state.2.ports packet = .ok none) ∧
        acceptSegment state.2.ports packet = .ok (some segment) ∧
        Facing rest next ∧ Received state next)
      (fun _ next => ∃ skipped rest, packets = skipped ++ rest ∧
        (∀ packet ∈ skipped, acceptSegment state.2.ports packet = .ok none) ∧
        Facing rest next ∧ Received state next ∧
        (state.1.Clean → packets.length < fuel → rest = [])) := by
  induction fuel generalizing packets state with
  | zero =>
      refine Action.Triple.lift (fun _ h' => by cases h') ?_
      rintro _ - _ rfl
      exact ⟨[], packets, rfl, by simp, h, .refl _, fun _ hfuel => by cases hfuel⟩
  | succ fuel ih =>
      refine Action.Triple.bind ((triple_readPacket h).imp_post
        (fun _ _ h' => h') fun _ next h' => ?_) fun packet => ?_
      · exact ⟨[], packets, rfl, by simp, h'.1, h'.2.1, fun hclean _ =>
          h'.2.2 hclean⟩
      · refine Action.Triple.get_bind fun first hfirst => ?_
        obtain ⟨rest, rfl, hfacing, hreceived⟩ := hfirst
        obtain ⟨segment, haccept⟩ := acceptSegment_total first.2.ports packet
        rw [haccept]
        refine Action.Triple.lift_ok_bind ?_
        rw [hreceived.ports] at haccept
        cases segment with
        | some segment =>
            refine Action.Triple.pure fun next hnext => ?_
            subst hnext
            exact ⟨[], packet, rest, rfl, by simp, haccept, hfacing, hreceived⟩
        | none =>
            refine (ih hfacing).imp_post ?_ ?_
            · rintro segment next ⟨skipped, other, rest, rfl, hskipped,
                haccept', hfacing', hreceived'⟩
              rw [hreceived.ports] at hskipped haccept'
              exact ⟨packet :: skipped, other, rest, rfl,
                List.forall_mem_cons.mpr ⟨haccept, hskipped⟩, haccept', hfacing',
                hreceived.trans hreceived'⟩
            · rintro e next ⟨skipped, rest, rfl, hskipped, hfacing', hreceived',
                hrest⟩
              rw [hreceived.ports] at hskipped
              exact ⟨packet :: skipped, rest, rfl,
                List.forall_mem_cons.mpr ⟨haccept, hskipped⟩, hfacing',
                hreceived.trans hreceived', fun hclean hfuel =>
                  hrest (hreceived.clean hclean) (Nat.lt_of_succ_lt_succ hfuel)⟩

end Packets

/-! ## Sending -/

/-- The flags, the acknowledgement number and the payload of a packet. -/
def sentSegment (packet : Bytes) : Result (UInt8 × UInt32 × Bytes) := do
  let tcp ← TcpHeader.decode (← slice packet kIpv6HeaderSize kTcpHeaderSize)
  return (tcp.flags, tcp.acknowledgement,
    packet.drop (kIpv6HeaderSize + kTcpHeaderSize))

/-- What is sent acknowledges the next number that is expected. -/
theorem sentSegment_segmentPacket (link : TcpLink) (flags : UInt8)
    (payload : Bytes) :
    sentSegment (link.segmentPacket flags payload) =
      .ok (flags, link.recvSeq, payload) := by
  obtain ⟨ipv6, tcp, hpacket, hoffset, hflags, hnumber⟩ :
      ∃ (ipv6 : Ipv6Header) (tcp : TcpHeader),
        link.segmentPacket flags payload =
          ipv6.encode ++ (tcp.encode ++ payload) ∧ tcp.dataOffset = 5 ∧
        tcp.flags = flags ∧ tcp.acknowledgement = link.recvSeq :=
    ⟨_, _, rfl, rfl, rfl, rfl⟩
  have hlength : (ipv6.encode ++ (tcp.encode ++ payload)).length =
      60 + payload.length := by
    rw [List.length_append, List.length_append, ipv6.length_encode,
      tcp.length_encode]
    omega
  have hrest : (ipv6.encode ++ (tcp.encode ++ payload)).drop 60 = payload := by
    rw [← List.append_assoc, List.drop_left' (by
      rw [List.length_append, ipv6.length_encode, tcp.length_encode])]
  rw [hpacket, sentSegment, kIpv6HeaderSize, kTcpHeaderSize,
    slice_of_le (by omega), ok_bind, List.drop_left' ipv6.length_encode,
    List.take_left' tcp.length_encode, TcpHeader.decode_encode (by rw [hoffset]; decide),
    ok_bind, hrest, hflags, hnumber]
  rfl

/-- The state after a segment was sent. -/
def afterSend (flags : UInt8) (payload : Bytes)
    (state : ScriptedTransport × TcpLink) : ScriptedTransport × TcpLink :=
  ({ state.1 with
      written := state.1.written ++ [state.2.segmentPacket flags payload] },
    { state.2 with
      sendSeq := state.2.sendSeq + sequenceLength flags payload })

/-- A tunnel whose writes succeed takes the segment. -/
theorem run_sendSegment (flags : UInt8) (payload : Bytes)
    {state : ScriptedTransport × TcpLink} (h : state.1.writes = []) :
    (sendSegment flags payload).run state =
      (.ok (), afterSend flags payload state) := by
  have hwrite := run_write_ok (state.2.segmentPacket flags payload) h
  rw [sendSegment, Action.run_bind_ok (Action.run_get state),
    Action.run_bind_ok (a := ()) (by
      rw [onFramer, Action.run_zoom, Ipv6Framer.writePacket, Action.run_zoom,
        hwrite])]
  rfl

/-! ## Turns -/

/-- The bytes that were received and not returned. -/
def unread (link : TcpLink) : Bytes := link.incoming.drop link.incomingOffset

/-- What a packet takes of the peer's sequence numbers. -/
def segmentSpan (ports : Ports) (packet : Bytes) : Nat :=
  match acceptSegment ports packet with
  | .ok (some segment) =>
      segment.payload.length + if segment.flags &&& TcpFin ≠ 0 then 1 else 0
  | _ => 0

/-- What packets take of the peer's sequence numbers. -/
def spanOf (ports : Ports) (packets : List Bytes) : Nat :=
  (packets.map (segmentSpan ports)).sum

/-- What every state of a connection has. -/
structure Stands (ports : Ports) (packets : List Bytes)
    (state : ScriptedTransport × TcpLink) : Prop where
  facing : Facing packets state
  ports : state.2.ports = ports
  writes : state.1.writes = []
  offset : state.2.incomingOffset ≤ state.2.incoming.length

/-- The connection after a step, and what the step sent: the flags and the
acknowledgement number of each segment. -/
structure Becomes (before after : ScriptedTransport × TcpLink) (closed : Bool)
    (recvSeq : UInt32) (unread : Bytes) (sent : List (UInt8 × UInt32)) :
    Prop where
  closed : after.2.closed = closed
  recvSeq : after.2.recvSeq = recvSeq
  unread : after.2.unread = unread
  written : ∃ packets, after.1.written = before.1.written ++ packets ∧
    packets.map sentSegment =
      sent.map fun (flags, number) => .ok (flags, number, [])
  clean : before.1.Clean → after.1.Clean

/-- What can come of waiting for bytes: a fault, or bytes to return. -/
inductive Turn (ports : Ports) (finished : Bool) (fuel : Nat)
    (state : ScriptedTransport × TcpLink) (packets payloads : List Bytes) :
    Option (Fault Error) → ScriptedTransport × TcpLink → Prop where
  /-- There are bytes already, or the connection has ended. -/
  | held {next : ScriptedTransport × TcpLink}
      (hheld : state.2.unread ≠ [] ∨ state.2.closed = true)
      (hstands : Stands ports packets next)
      (hbecomes : Becomes state next state.2.closed state.2.recvSeq
        state.2.unread []) :
      Turn ports finished fuel state packets payloads none next
  /-- The tunnel failed, and the link is as before. -/
  | failed {e : Fault Error} {next : ScriptedTransport × TcpLink}
      {taken later : List Bytes} (hpackets : packets = taken ++ later)
      (hstands : Stands ports later next)
      (hbecomes : Becomes state next state.2.closed state.2.recvSeq
        state.2.unread [])
      (hrest : state.2.closed = false →
        InOrder ports finished state.2.recvSeq later payloads)
      (hstuck : state.1.Clean → finished = true → packets.length < fuel →
        False) :
      Turn ports finished fuel state packets payloads (some e) next
  /-- The peer reset the connection. -/
  | reset {e : Fault Error} {next : ScriptedTransport × TcpLink}
      {taken later : List Bytes} (hfinished : finished = false)
      (hpackets : packets = taken ++ later) (hpayloads : payloads = [])
      (hunread : state.2.unread = []) (hopen : state.2.closed = false)
      (hstands : Stands ports later next)
      (hbecomes : Becomes state next true state.2.recvSeq [] []) :
      Turn ports finished fuel state packets payloads (some e) next
  /-- The last payload and the FIN arrived. -/
  | fin {payload : Bytes} {next : ScriptedTransport × TcpLink}
      {taken later : List Bytes} (hpackets : packets = taken ++ later)
      (hpayloads : payloads = [payload])
      (hspan : spanOf ports taken = payload.length + 1)
      (hunread : state.2.unread = []) (hopen : state.2.closed = false)
      (hstands : Stands ports later next)
      (hbecomes : Becomes state next true
        (state.2.recvSeq + UInt32.ofNat payload.length + 1) payload
        [(TcpAck ||| TcpFin,
          state.2.recvSeq + UInt32.ofNat payload.length + 1)]) :
      Turn ports finished fuel state packets payloads none next
  /-- The next payload arrived. -/
  | data {payload : Bytes} {next : ScriptedTransport × TcpLink}
      {taken later others : List Bytes} (hpackets : packets = taken ++ later)
      (hpayload : payload ≠ []) (hpayloads : payloads = payload :: others)
      (hspan : spanOf ports taken = payload.length)
      (hunread : state.2.unread = []) (hopen : state.2.closed = false)
      (hstands : Stands ports later next)
      (hrest : InOrder ports finished
        (state.2.recvSeq + UInt32.ofNat payload.length) later others)
      (hbecomes : Becomes state next false
        (state.2.recvSeq + UInt32.ofNat payload.length) payload
        [(TcpAck, state.2.recvSeq + UInt32.ofNat payload.length)]) :
      Turn ports finished fuel state packets payloads none next

section Turn

variable {ports : Ports} {finished : Bool} {fuel : Nat}
  {packets payloads : List Bytes}
  {state next first : ScriptedTransport × TcpLink}

theorem Facing.of_eq (h : Facing packets state)
    (hreads : next.1.reads = state.1.reads)
    (hframer : next.2.framer = state.2.framer) : Facing packets next := by
  refine ⟨h.whole, hframer ▸ h.size, ?_⟩
  rw [← h.pending, TcpLink.pending, TcpLink.pending, hframer,
    Ipv6Framer.pending, Ipv6Framer.pending, ScriptedTransport.remaining,
    ScriptedTransport.remaining, hreads]

theorem spanOf_append (ports : Ports) (front back : List Bytes) :
    spanOf ports (front ++ back) = spanOf ports front + spanOf ports back := by
  rw [spanOf, List.map_append, List.sum_append]
  rfl

theorem spanOf_skipped {skipped : List Bytes}
    (h : ∀ packet ∈ skipped, acceptSegment ports packet = .ok none) :
    spanOf ports skipped = 0 := by
  induction skipped with
  | nil => rfl
  | cons packet skipped ih =>
      rw [List.forall_mem_cons] at h
      rw [spanOf, List.map_cons, List.sum_cons, segmentSpan, h.1]
      exact (Nat.zero_add _).trans (ih h.2)

/-- The packets up to one with a segment take what the segment takes. -/
theorem spanOf_segment {skipped : List Bytes} {packet : Bytes}
    {segment : Segment}
    (h : ∀ packet ∈ skipped, acceptSegment ports packet = .ok none)
    (haccept : acceptSegment ports packet = .ok (some segment)) :
    spanOf ports (skipped ++ [packet]) = segment.payload.length +
      if segment.flags &&& TcpFin ≠ 0 then 1 else 0 := by
  rw [spanOf_append, spanOf_skipped h, Nat.zero_add, spanOf, List.map_singleton,
    List.sum_singleton, segmentSpan, haccept]

/-- A wait that has bytes to return ends at once. -/
theorem run_awaitIncoming_of_unread (fuel : Nat)
    (h : state.2.incomingOffset ≠ state.2.incoming.length) :
    (awaitIncoming fuel).run state = (.ok true, state) := by
  cases fuel with
  | zero =>
      rw [awaitIncoming, Action.run_bind_ok (Action.run_get state), if_pos h]
      rfl
  | succ fuel =>
      rw [awaitIncoming, Action.run_bind_ok (Action.run_get state), if_pos h]
      rfl

/-- The link has bytes to return when its offset is not at the end. -/
theorem Stands.unread_ne_nil (h : Stands ports packets state)
    (hne : state.2.incomingOffset ≠ state.2.incoming.length) :
    state.2.unread ≠ [] := by
  intro hnil
  have hoffset := h.offset
  rw [unread, List.drop_eq_nil_iff] at hnil
  omega

theorem Stands.received {rest : List Bytes} (h : Stands ports packets state)
    (hreceived : Received state next) (hfacing : Facing rest next) :
    Stands ports rest next := by
  obtain ⟨bytes, hdelivers⟩ := hreceived.delivers
  refine ⟨hfacing, hreceived.ports.trans h.ports,
    hdelivers.writes.trans h.writes, ?_⟩
  rw [hreceived.eq]
  exact h.offset

theorem Becomes.refl (state : ScriptedTransport × TcpLink) :
    Becomes state state state.2.closed state.2.recvSeq state.2.unread [] :=
  ⟨rfl, rfl, rfl, ⟨[], (List.append_nil _).symm, rfl⟩, id⟩

theorem Received.becomes (h : Received state next) :
    Becomes state next state.2.closed state.2.recvSeq state.2.unread [] := by
  obtain ⟨bytes, hdelivers⟩ := h.delivers
  refine ⟨by rw [h.eq], by rw [h.eq], by rw [h.eq]; rfl,
    ⟨[], ?_, rfl⟩, h.clean⟩
  rw [hdelivers.written, List.append_nil]

theorem Becomes.trans {closed : Bool} {recvSeq : UInt32} {unread : Bytes}
    {sent : List (UInt8 × UInt32)}
    (h : Becomes state first state.2.closed state.2.recvSeq state.2.unread [])
    (h' : Becomes first next closed recvSeq unread sent) :
    Becomes state next closed recvSeq unread sent := by
  obtain ⟨front, hfront, hnil⟩ := h.written
  obtain ⟨back, hback, hsent⟩ := h'.written
  obtain rfl : front = [] := List.map_eq_nil_iff.mp hnil
  refine ⟨h'.closed, h'.recvSeq, h'.unread, ⟨back, ?_, hsent⟩,
    fun hclean => h'.clean (h.clean hclean)⟩
  rw [hback, hfront, List.append_nil]

/-- A turn after packets that brought nothing. -/
theorem Turn.after {front rest : List Bytes} {fault : Option (Fault Error)}
    {turns : Nat} (h : Turn ports finished fuel first rest payloads fault next)
    (hpackets : packets = front ++ rest)
    (hfuel : packets.length < turns → rest.length < fuel)
    (hspan : spanOf ports front = 0)
    (hunread : state.2.unread = []) (hopen : state.2.closed = false)
    (hbecomes : Becomes state first state.2.closed state.2.recvSeq
      state.2.unread []) :
    Turn ports finished turns state packets payloads fault next := by
  have hrecv := hbecomes.recvSeq
  have hall {taken later : List Bytes} (h : rest = taken ++ later) :
      packets = (front ++ taken) ++ later := by
    rw [hpackets, h, List.append_assoc]
  have hspanned {taken : List Bytes} {count : Nat}
      (h : spanOf ports taken = count) :
      spanOf ports (front ++ taken) = count := by
    rw [spanOf_append, hspan, Nat.zero_add, h]
  cases h with
  | held hheld hstands hbecomes' =>
      rw [hbecomes.unread, hbecomes.closed, hopen] at hheld
      exact absurd hunread (hheld.resolve_right Bool.false_ne_true)
  | failed hrest' hstands hbecomes' hrest hstuck =>
      rw [hbecomes.closed, hbecomes.recvSeq, hbecomes.unread] at hbecomes'
      rw [hbecomes.closed, hbecomes.recvSeq] at hrest
      refine .failed (hall hrest') hstands (hbecomes.trans hbecomes') hrest ?_
      exact fun hclean hfinished hlt =>
        hstuck (hbecomes.clean hclean) hfinished (hfuel hlt)
  | reset hfinished hrest' hpayloads _ _ hstands hbecomes' =>
      rw [hrecv] at hbecomes'
      exact .reset hfinished (hall hrest') hpayloads hunread hopen hstands
        (hbecomes.trans hbecomes')
  | fin hrest' hpayloads hspan' _ _ hstands hbecomes' =>
      rw [hrecv] at hbecomes'
      exact .fin (hall hrest') hpayloads (hspanned hspan') hunread hopen hstands
        (hbecomes.trans hbecomes')
  | data hrest' hpayload hpayloads hspan' _ _ hstands hrest hbecomes' =>
      rw [hrecv] at hbecomes' hrest
      exact .data (hall hrest') hpayload hpayloads (hspanned hspan') hunread hopen
        hstands hrest (hbecomes.trans hbecomes')

/-- What a wait promises. -/
abbrev Waits (ports : Ports) (finished : Bool) (fuel : Nat)
    (state : ScriptedTransport × TcpLink) (packets payloads : List Bytes)
    (wait : Action Error (ScriptedTransport × TcpLink) Bool) : Prop :=
  Action.Triple (fun other => other = state) wait
    (fun more next => (more = false → next.2.unread = []) ∧
      Turn ports finished fuel state packets payloads none next)
    (fun e next =>
      Turn ports finished fuel state packets payloads (some e) next)

/-- The state after the consumed payload was dropped. -/
def cleared (state : ScriptedTransport × TcpLink) :
    ScriptedTransport × TcpLink :=
  (state.1, { state.2 with incoming := [], incomingOffset := 0 })

/-- The state after a segment was acknowledged, with its payload to return. -/
def acknowledged (flags : UInt8) (recvSeq : UInt32) (closed : Bool)
    (payload : Bytes) (state : ScriptedTransport × TcpLink) :
    ScriptedTransport × TcpLink :=
  let sent := afterSend flags [] (state.1, { state.2 with recvSeq })
  (sent.1, { sent.2 with closed, incoming := payload })

section Acknowledged

variable {flags : UInt8} {recvSeq : UInt32} {closed : Bool} {payload : Bytes}

theorem Stands.acknowledged (h : Stands ports packets state)
    (hoffset : state.2.incomingOffset = 0) :
    Stands ports packets (acknowledged flags recvSeq closed payload state) where
  facing := h.facing.of_eq rfl rfl
  ports := h.ports
  writes := h.writes
  offset := hoffset.trans_le (Nat.zero_le _)

theorem becomes_acknowledged (hoffset : state.2.incomingOffset = 0) :
    Becomes state (acknowledged flags recvSeq closed payload state) closed recvSeq
      payload [(flags, recvSeq)] where
  closed := rfl
  recvSeq := rfl
  unread := by
    change payload.drop state.2.incomingOffset = payload
    rw [hoffset, List.drop_zero]
  written := ⟨[_], rfl, by
    rw [List.map_singleton, sentSegment_segmentPacket]
    rfl⟩
  clean := id

end Acknowledged

theorem triple_handleSegment {packet : Bytes} {rest : List Bytes}
    {segment : Segment} {again : Action Error (ScriptedTransport × TcpLink) Bool}
    (hstands : Stands ports rest first) (hopen : first.2.closed = false)
    (hempty : first.2.incoming = [] ∧ first.2.incomingOffset = 0)
    (haccept : acceptSegment ports packet = .ok (some segment))
    (hnext : Next ports finished first.2.recvSeq rest payloads (some segment))
    (hagain : ∀ state, state.2.incomingOffset ≠ state.2.incoming.length →
      again.run state = (.ok true, state))
    (hwaits : InOrder ports finished first.2.recvSeq rest payloads →
      Waits ports finished fuel first rest payloads again) :
    Waits ports finished (fuel + 1) first (packet :: rest) payloads
      (handleSegment segment again) := by
  have hunread : first.2.unread = [] := by
    rw [unread, hempty.1]
    exact List.drop_nil
  have hpackets : packet :: rest = [packet] ++ rest := rfl
  have hspan := @spanOf_segment ports [] packet segment (by simp) haccept
  rw [List.nil_append] at hspan
  cases hnext with
  | quiet hsegment hrest =>
      obtain hnone | ⟨flags, sequence, hsegment, hrst, hfin⟩ := hsegment
      · cases hnone
      · cases hsegment
        rw [handleSegment, if_neg (not_not_intro hrst),
          if_neg (not_not_intro hfin), if_neg (not_not_intro rfl)]
        have hquiet : spanOf ports [packet] = 0 := by
          rw [hspan, if_neg (not_not_intro hfin)]
          rfl
        have hbecomes : Becomes first first first.2.closed first.2.recvSeq
          first.2.unread [] := .refl _
        have hfuel : (packet :: rest).length < fuel + 1 → rest.length < fuel :=
          Nat.lt_of_succ_lt_succ
        exact (hwaits hrest).imp_post
          (fun more next h => ⟨h.1, h.2.after hpackets hfuel hquiet hunread hopen
            hbecomes⟩)
          fun e next h => h.after hpackets hfuel hquiet hunread hopen hbecomes
  | @data flags payload others hpayload hrst hfin hpayloads hrest =>
      rw [handleSegment, if_neg (not_not_intro hrst),
        if_neg (not_not_intro hfin), if_pos hpayload]
      rw [if_neg (not_not_intro hfin)] at hspan
      refine Action.Triple.bind_of_run rfl (Action.Triple.bind_of_run
        (run_sendSegment TcpAck [] hstands.writes) (Action.Triple.bind_of_run rfl
          (Action.Triple.of_run (hagain _ ?_) ⟨nofun, ?_⟩)))
      · change first.2.incomingOffset ≠ payload.length
        rw [hempty.2]
        exact fun h => hpayload (List.eq_nil_of_length_eq_zero h.symm)
      · have hbecomes := @becomes_acknowledged first TcpAck
          (first.2.recvSeq + UInt32.ofNat payload.length) first.2.closed payload
          hempty.2
        exact .data hpackets hpayload hpayloads hspan hunread hopen
          (hstands.acknowledged hempty.2) hrest { hbecomes with closed := hopen }
  | @fin flags payload hfinished hrst hfin hpayloads =>
      rw [handleSegment, if_neg (not_not_intro hrst), if_pos hfin]
      rw [if_pos hfin] at hspan
      have hturn (bytes : Bytes) (hbytes : bytes = payload) :
          Turn ports finished (fuel + 1) first (packet :: rest) payloads none
            (acknowledged (TcpAck ||| TcpFin)
              (first.2.recvSeq + UInt32.ofNat payload.length + 1) true bytes
              first) := by
        subst hbytes
        exact .fin hpackets hpayloads hspan hunread hopen
          (hstands.acknowledged hempty.2) (becomes_acknowledged hempty.2)
      refine Action.Triple.bind_of_run rfl (Action.Triple.bind_of_run (by
        rw [Action.run_attempt, run_sendSegment _ _ (by exact hstands.writes)])
          (Action.Triple.bind_of_run rfl (Action.Triple.ite (fun hnil => ?_)
            fun hpayload => ?_)))
      · exact Action.Triple.of_run rfl ⟨fun _ => hunread,
          hturn first.2.incoming (hempty.1.trans hnil.symm)⟩
      · refine Action.Triple.bind_of_run rfl
          (Action.Triple.of_run (hagain _ ?_) ⟨nofun, hturn payload rfl⟩)
        change first.2.incomingOffset ≠ payload.length
        rw [hempty.2]
        exact fun h => hpayload (List.eq_nil_of_length_eq_zero h.symm)
  | reset hfinished hrst hpayloads =>
      rw [handleSegment, if_pos hrst]
      refine Action.Triple.bind_of_run rfl ?_
      rintro _ rfl
      refine .reset hfinished hpackets hpayloads hunread hopen
        ⟨hstands.facing.of_eq rfl rfl, hstands.ports, hstands.writes,
          hstands.offset⟩ ⟨rfl, rfl, hunread, ⟨[], ?_, rfl⟩, id⟩
      exact (List.append_nil _).symm

theorem triple_awaitIncoming (hstands : Stands ports packets state)
    (hstream : state.2.closed = false →
      InOrder ports finished state.2.recvSeq packets payloads) :
    Waits ports finished fuel state packets payloads (awaitIncoming fuel) := by
  induction fuel generalizing packets state with
  | zero =>
      refine Action.Triple.bind_of_run (Action.run_get state) ?_
      refine Action.Triple.ite (fun hne => ?_) fun heq => ?_
      · exact Action.Triple.of_run rfl
          ⟨nofun, .held (.inl (hstands.unread_ne_nil hne)) hstands (.refl _)⟩
      · rintro _ rfl
        exact .failed (List.nil_append _).symm hstands (.refl _) hstream
          fun _ _ hfuel => by cases hfuel
  | succ fuel ih =>
      refine Action.Triple.bind_of_run (Action.run_get state) ?_
      refine Action.Triple.ite (fun hne => ?_) fun heq => ?_
      · exact Action.Triple.of_run rfl
          ⟨nofun, .held (.inl (hstands.unread_ne_nil hne)) hstands (.refl _)⟩
      · have hnil : state.2.unread = [] := by
          rw [unread, List.drop_eq_nil_iff]
          omega
        have hclear : (update fun link =>
            { link with incoming := [], incomingOffset := 0 }).run state =
            (.ok PUnit.unit, cleared state) := rfl
        have hcleared : Stands ports packets (cleared state) :=
          ⟨hstands.facing.of_eq rfl rfl, hstands.ports, hstands.writes,
            Nat.le_refl _⟩
        have hbecomes : Becomes state (cleared state) state.2.closed
            state.2.recvSeq state.2.unread [] :=
          ⟨rfl, rfl, hnil.symm, ⟨[], (List.append_nil _).symm, rfl⟩, id⟩
        refine Action.Triple.bind_of_run hclear ?_
        refine Action.Triple.ite (fun hclosed => ?_) fun hopen => ?_
        · exact Action.Triple.of_run rfl
            ⟨fun _ => rfl, .held (.inr hclosed) hcleared hbecomes⟩
        · have hopen := Bool.eq_false_of_not_eq_true hopen
          refine Action.Triple.bind ((triple_receiveSegment
            hcleared.facing).imp_post (fun _ _ h => h) fun e next h => ?_)
            fun segment => Action.Triple.of_state fun first hfirst => ?_
          · obtain ⟨skipped, rest, hpackets, hskipped, hfacing, hreceived,
              hrest⟩ := h
            rw [hcleared.ports] at hskipped
            have hstream' := hstream hopen
            rw [hpackets] at hstream'
            refine .failed hpackets (hcleared.received hreceived hfacing)
              (hbecomes.trans (by rw [hnil]; exact hreceived.becomes))
              (fun _ => hstream'.skip hskipped)
              fun hclean hfinished hfuel => ?_
            have hlast := hstream'.skip hskipped
            rw [hrest hclean hfuel] at hlast
            cases hlast with
            | stop hfinished' =>
                rw [hfinished] at hfinished'
                cases hfinished'
          · obtain ⟨skipped, packet, rest, hpackets, hskipped, haccept, hfacing,
              hreceived⟩ := hfirst
            rw [hcleared.ports] at hskipped haccept
            have hstream' := hstream hopen
            rw [hpackets] at hstream'
            have hfirst : Becomes state first state.2.closed state.2.recvSeq
                state.2.unread [] :=
              hbecomes.trans (by rw [hnil]; exact hreceived.becomes)
            have hstands' := hcleared.received hreceived hfacing
            have hopen' : first.2.closed = false := hfirst.closed.trans hopen
            have hnext := (hstream'.skip hskipped).next_of haccept
            have hrecv : state.2.recvSeq = first.2.recvSeq := hfirst.recvSeq.symm
            rw [hrecv] at hnext
            have hfuel : packets.length < fuel + 1 →
                (packet :: rest).length < fuel + 1 := by
              rw [hpackets, List.length_append]
              omega
            have hempty : first.2.incoming = [] ∧ first.2.incomingOffset = 0 := by
              rw [hreceived.eq]
              exact ⟨rfl, rfl⟩
            have hwaits : Waits ports finished (fuel + 1) first (packet :: rest)
                payloads (handleSegment segment (awaitIncoming fuel)) :=
              triple_handleSegment hstands' hopen' hempty haccept hnext
                (fun _ => run_awaitIncoming_of_unread fuel)
                fun hrest => ih hstands' fun _ => hrest
            refine hwaits.imp_post ?_ ?_
            · rintro more next ⟨hmore, hturn⟩
              exact ⟨hmore, hturn.after hpackets hfuel (spanOf_skipped hskipped)
                hnil hopen hfirst⟩
            · intro e next hturn
              exact hturn.after hpackets hfuel (spanOf_skipped hskipped) hnil hopen
                hfirst

/-! ## Reading -/

/-- Up to `count` of the bytes to return were returned. -/
structure Took (count : Nat) (before after : ScriptedTransport × TcpLink) :
    Prop where
  unread : after.2.unread = before.2.unread.drop count
  stands {ports : Ports} {packets : List Bytes} (h : Stands ports packets before) :
    Stands ports packets after
  becomes {start : ScriptedTransport × TcpLink} {closed : Bool}
    {recvSeq : UInt32} {unread : Bytes} {sent : List (UInt8 × UInt32)}
    (h : Becomes start before closed recvSeq unread sent) :
    Becomes start after closed recvSeq (unread.drop count) sent

theorem took_takeIncoming (count : Nat) (state : ScriptedTransport × TcpLink) :
    Took count state (state.1, { state.2 with
      incomingOffset := state.2.incomingOffset +
        (state.2.unread.take count).length }) := by
  have hunread : unread { state.2 with
      incomingOffset := state.2.incomingOffset +
        (state.2.unread.take count).length } = state.2.unread.drop count := by
    rw [unread, ← List.drop_drop]
    change state.2.unread.drop _ = _
    rw [List.length_take, List.drop_eq_drop_iff]
    omega
  refine ⟨hunread, fun h => ⟨h.facing.of_eq rfl rfl, h.ports, h.writes, ?_⟩,
    fun h => ⟨h.closed, h.recvSeq, ?_, h.written, h.clean⟩⟩
  · have hoffset := h.offset
    change state.2.incomingOffset + (state.2.unread.take count).length ≤
      state.2.incoming.length
    rw [unread, List.length_take, List.length_drop]
    omega
  · rw [hunread, h.unread]

/-- A read takes a turn, and what it returns off the front of what the link then
has. -/
theorem triple_read {count : Nat} (hstands : Stands ports packets state)
    (hstream : state.2.closed = false →
      InOrder ports finished state.2.recvSeq packets payloads) :
    Action.Triple (fun other => other = state) (read count fuel)
      (fun chunk next => ∃ turned,
        Turn ports finished fuel state packets payloads none turned ∧
        chunk = turned.2.unread.take count ∧ Took count turned next)
      (fun e next =>
        Turn ports finished fuel state packets payloads (some e) next) := by
  refine Action.Triple.bind (triple_awaitIncoming hstands hstream) fun more => ?_
  refine Action.Triple.ite (fun _ => ?_) fun hmore => ?_
  · rintro turned ⟨-, hturn⟩
    exact ⟨turned, hturn, rfl, took_takeIncoming count turned⟩
  · rintro turned ⟨hnil, hturn⟩
    have hnil := hnil (Bool.eq_false_of_not_eq_true hmore)
    refine ⟨turned, hturn, by rw [hnil, List.take_nil], ?_, id, fun h => ?_⟩
    · rw [hnil, List.drop_nil]
    · have hunread := h.unread.symm.trans hnil
      rw [hunread] at h ⊢
      rwa [List.drop_nil]

end Turn

end TcpLink

end Ioscpp
