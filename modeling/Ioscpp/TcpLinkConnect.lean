import Ioscpp.TcpLinkRead

/-!
# Connecting

A link connects when the peer answers its SYN, whatever the tunnel carries before
the answer: it may still have stale segments of an earlier connection.  The
packets after the answer are left for the reads.

## Main results

- `triple_connect`: a connect ends with the peer's answer, unless a read fails or the
  fuel is too little.
-/

namespace Ioscpp.TcpLink

open Ioscpp.Support
open Ioscpp.Protocol
open ScriptedTransport

/-- A packet that the connecting link ignores: it is not part of the connection,
or it is a stale segment of it. -/
def Ignored (ports : Ports) (packet : Bytes) : Prop :=
  Stray ports packet ∨ ∃ tcp payload, IsSegment ports packet tcp payload ∧
    tcp.flags &&& TcpRst = 0 ∧
    tcp.flags &&& (TcpSyn ||| TcpAck) ≠ TcpSyn ||| TcpAck

/-- The answer to the SYN: a segment of the connection with both flags and without RST,
which brings no bytes. -/
structure IsSynAck (ports : Ports) (packet : Bytes) (tcp : TcpHeader) : Prop where
  segment : IsSegment ports packet tcp []
  rst : tcp.flags &&& TcpRst = 0
  flags : tcp.flags &&& (TcpSyn ||| TcpAck) = TcpSyn ||| TcpAck

/-- A link that has connected and received nothing yet. -/
structure Connected (ports : Ports) (packets : List Bytes) (next : UInt32)
    (state : ScriptedTransport × TcpLink) : Prop where
  stands : Stands ports packets state
  opened : state.2.closed = false
  recvSeq : state.2.recvSeq = next
  unread : state.2.unread = []

section Connect

variable {ports : Ports} {ignored packets : List Bytes} {synAck : Bytes}
  {tcp : TcpHeader} {fuel : Nat} {state : ScriptedTransport × TcpLink}

/-- The first segment of what arrives is an ignored one, or the answer. -/
theorem first_segment {skipped rest : List Bytes} {packet : Bytes}
    (hsynAck : IsSynAck ports synAck tcp)
    (hpackets : ignored ++ synAck :: packets = skipped ++ packet :: rest)
    (hskipped : ∀ packet ∈ skipped, acceptSegment ports packet = .ok none) :
    (packet ∈ ignored ∧ ∃ later, ignored = skipped ++ packet :: later ∧
      rest = later ++ synAck :: packets) ∨
    packet = synAck ∧ rest = packets := by
  rcases List.append_eq_append_iff.mp hpackets with
    ⟨more, hmore, hrest⟩ | ⟨more, hmore, hrest⟩
  · cases more with
    | nil =>
        obtain ⟨rfl, rfl⟩ := List.cons.inj hrest
        exact .inr ⟨rfl, rfl⟩
    | cons first more =>
        obtain ⟨rfl, -⟩ := List.cons.inj hrest
        have hnone := hskipped synAck (by rw [hmore]; simp)
        rw [hsynAck.segment.acceptSegment_eq] at hnone
        cases hnone
  · cases more with
    | nil =>
        obtain ⟨rfl, rfl⟩ := List.cons.inj hrest
        exact .inr ⟨rfl, rfl⟩
    | cons first more =>
        obtain ⟨rfl, rfl⟩ := List.cons.inj hrest
        exact .inl ⟨by rw [hmore]; simp, more, hmore, rfl⟩

theorem triple_awaitSynAck (hsynAck : IsSynAck ports synAck tcp)
    (hignored : ∀ packet ∈ ignored, Ignored ports packet)
    (hstands : Stands ports (ignored ++ synAck :: packets) state)
    (hopened : state.2.closed = false) (hunread : state.2.unread = []) :
    Action.Triple (fun other => other = state) (awaitSynAck fuel)
      (fun _ next => Connected ports packets (tcp.sequence + 1) next ∧
        (state.1.Clean → next.1.Clean))
      (fun _ _ => state.1.Clean →
        (ignored ++ synAck :: packets).length < fuel → False) := by
  induction fuel generalizing ignored state with
  | zero => exact Action.Triple.lift nofun fun _ _ _ _ _ hfuel => by cases hfuel
  | succ fuel ih =>
      refine Action.Triple.bind ((triple_receiveSegment
        hstands.facing).imp_post (fun _ _ h => h) fun e next h => ?_)
        fun segment => Action.Triple.of_state fun first hfirst => ?_
      · obtain ⟨skipped, rest, hpackets, hskipped, -, -, hrest⟩ := h
        rw [hstands.ports] at hskipped
        intro hclean hfuel
        rw [hrest hclean hfuel, List.append_nil] at hpackets
        have hnone := hskipped synAck (by rw [← hpackets]; simp)
        rw [hsynAck.segment.acceptSegment_eq] at hnone
        cases hnone
      · obtain ⟨skipped, packet, rest, hpackets, hskipped, haccept, hfacing,
          hreceived⟩ := hfirst
        rw [hstands.ports] at hskipped haccept
        have hstands' := hstands.received hreceived hfacing
        have hbecomes := hreceived.becomes
        rcases first_segment hsynAck hpackets hskipped with
          ⟨hmem, later, hlater, rfl⟩ | ⟨rfl, rfl⟩
        · rcases hignored packet hmem with
            hstray | ⟨tcp, payload, hsegment, hrst, hflags⟩
          · rw [hstray.acceptSegment_eq] at haccept
            cases haccept
          · rw [hsegment.acceptSegment_eq] at haccept
            cases haccept
            rw [if_neg (not_not_intro hrst), if_neg hflags]
            refine (ih (fun packet hmem => hignored packet ?_) hstands'
              (hbecomes.closed.trans hopened)
              (hbecomes.unread.trans hunread)).imp_post ?_ ?_
            · rw [hlater]
              simp [hmem]
            · exact fun _ next h =>
                ⟨h.1, fun hclean => h.2 (hreceived.clean hclean)⟩
            · intro _ next h hclean hfuel
              refine h (hreceived.clean hclean) ?_
              rw [hpackets, List.length_append, List.length_cons] at hfuel
              omega
        · rw [hsynAck.segment.acceptSegment_eq] at haccept
          cases haccept
          rw [if_neg (not_not_intro hsynAck.rst), if_pos hsynAck.flags]
          refine Action.Triple.bind_of_run rfl (Action.Triple.bind_of_run
            (run_sendSegment TcpAck [] hstands'.writes)
            (Action.Triple.of_run rfl ?_))
          exact ⟨⟨⟨hstands'.facing.of_eq rfl rfl, hstands'.ports, hstands'.writes,
            hstands'.offset⟩, hbecomes.closed.trans hopened, rfl,
            hbecomes.unread.trans hunread⟩, hreceived.clean⟩

/-- What a link has that was just opened. -/
structure Fresh (link : TcpLink) : Prop where
  sourceValid : link.sourceValid = true
  framer : link.framer = {}
  closed : link.closed = false
  incoming : link.incoming = []
  offset : link.incomingOffset = 0

theorem fresh_openLink {link : TcpLink} {clientAddress : Bytes}
    {mtu nextSourcePort next : UInt16}
    (h : (openLink clientAddress mtu).run nextSourcePort = (.ok link, next)) :
    Fresh link := by
  obtain ⟨-, hvalid, rfl⟩ := openLink_eq_ok h
  exact ⟨hvalid, rfl, rfl, rfl, rfl⟩

theorem mss_pos_openLink {link : TcpLink} {clientAddress : Bytes}
    {mtu nextSourcePort next : UInt16}
    (h : (openLink clientAddress mtu).run nextSourcePort = (.ok link, next)) :
    0 < link.mss := by
  obtain ⟨hmtu, -, rfl⟩ := openLink_eq_ok h
  change 0 < mtu.toNat - kIpv6HeaderSize - kTcpHeaderSize
  omega

/-- A link of a link-local address is opened. -/
theorem openLink_linkLocal : (openLink (ascii "fe80::1") 1280).run 49152 =
    (.ok (create (ascii "fe80::1") 1280 49152), 49153) := by
  rw [openLink, if_neg (by decide), if_neg (by decide +kernel)]
  rfl

theorem parseIpv6_linkLocal : parseIpv6 (ascii "fe80::2") =
    .ok (groupsAddress [0xfe80] [2] (by decide)) := by
  decide +kernel

/-- A connect ends with the peer's answer, unless a read fails or the fuel is too
little. -/
theorem triple_connect {transport : ScriptedTransport} {link : TcpLink}
    {address : Bytes} {destination : Ipv6Address} {port : UInt16}
    (hlink : Fresh link) (haddress : parseIpv6 address = .ok destination)
    (hwrites : transport.writes = [])
    (hwhole : ∀ packet ∈ ignored ++ synAck :: packets, IsIpv6Packet packet)
    (hremaining : transport.remaining = (ignored ++ synAck :: packets).flatten)
    (hignored : ∀ packet ∈ ignored, Ignored ⟨link.sourcePort, port⟩ packet)
    (hsynAck : IsSynAck ⟨link.sourcePort, port⟩ synAck tcp) :
    Action.Triple (fun other => other = (transport, link))
      (connect fuel address port)
      (fun _ next => Connected ⟨link.sourcePort, port⟩ packets (tcp.sequence + 1)
        next ∧ (transport.Clean → next.1.Clean))
      (fun _ _ => transport.Clean →
        (ignored ++ synAck :: packets).length < fuel → False) := by
  refine Action.Triple.bind_of_run (Action.run_get _) ?_
  rw [if_neg (by rw [hlink.sourceValid]; decide), haddress]
  refine Action.Triple.lift_ok_bind (Action.Triple.bind_of_run rfl
    (Action.Triple.bind_of_run (run_sendSegment TcpSyn [] hwrites) ?_))
  refine triple_awaitSynAck hsynAck hignored ⟨⟨hwhole, ?_, ?_⟩, rfl, hwrites,
    ?_⟩ hlink.closed ?_
  · change link.framer.maxPacketSize = _
    rw [hlink.framer]
  · change Ipv6Framer.pending (transport, link.framer) = _
    rw [hlink.framer, ← hremaining]
    rfl
  · exact hlink.offset.trans_le (Nat.zero_le _)
  · change link.incoming.drop link.incomingOffset = []
    rw [hlink.incoming, List.drop_nil]

end Connect

end Ioscpp.TcpLink
