import Ioscpp.TcpLinkConnect

/-!
# In-order delivery

A peer that answers the SYN and then sends its payloads in order and a FIN: the
link connects, its reads return the payloads' bytes and then nothing, and it
acknowledges each payload once.

## Main results

- `triple_read_due`: what a read returns and acknowledges, of what is due.
- `delivered_readAll`: the reads of a link that has connected return the bytes of its
  peer.
-/

namespace Ioscpp.TcpLink

open Ioscpp.Support
open Ioscpp.Protocol
open ScriptedTransport

/-! ## Reading to the end -/

/-- What the payloads are acknowledged with: the flags and the number of each
segment, with the next number expected when the first of them arrives.  The last
payload comes with the FIN. -/
def acknowledgements : UInt32 → List Bytes → List (UInt8 × UInt32)
  | _, [] => []
  | next, [last] =>
      [(TcpAck ||| TcpFin, next + UInt32.ofNat last.length + 1)]
  | next, payload :: others =>
      (TcpAck, next + UInt32.ofNat payload.length) ::
        acknowledgements (next + UInt32.ofNat payload.length) others

/-- Reads with these sizes, one after the other. -/
def readAll {τ : Type} [Transport τ] (turns : Nat) :
    List Nat → τ × TcpLink → List (Result Bytes) × (τ × TcpLink)
  | [], state => ([], state)
  | size :: sizes, state =>
      let first := (read size turns).run state
      let others := readAll turns sizes first.2
      (first.1 :: others.1, others.2)

/-- The bytes that reads still return, and what they still acknowledge. -/
inductive Due (ports : Ports) (turns : Nat) (state : ScriptedTransport × TcpLink) :
    Bytes → List (UInt8 × UInt32) → Prop where
  | opened {packets payloads : List Bytes} (hstands : Stands ports packets state)
      (hclean : state.1.Clean) (hopen : state.2.closed = false)
      (hstream : InOrder ports true state.2.recvSeq packets payloads)
      (hturns : packets.length < turns) :
      Due ports turns state (state.2.unread ++ payloads.flatten)
        (acknowledgements state.2.recvSeq payloads)
  | finished {packets : List Bytes} (hstands : Stands ports packets state)
      (hclean : state.1.Clean) (hclosed : state.2.closed = true)
      (hturns : packets.length < turns) :
      Due ports turns state state.2.unread []

section Due

variable {ports : Ports} {turns size : Nat} {bytes : Bytes}
  {acks : List (UInt8 × UInt32)}
  {state next : ScriptedTransport × TcpLink}

/-- What a read returns and sends of what is due. -/
structure Paid (ports : Ports) (turns : Nat)
    (state next : ScriptedTransport × TcpLink) (bytes : Bytes)
    (acks : List (UInt8 × UInt32)) (chunk : Bytes) : Prop where
  rest : ∃ later laterAcks sent packets,
    bytes = chunk ++ later ∧ acks = sent ++ laterAcks ∧
    next.1.written = state.1.written ++ packets ∧
    packets.map sentSegment =
      (sent.map fun (flags, number) => .ok (flags, number, [])) ∧
    Due ports turns next later laterAcks ∧
    (chunk = [] → later = [] ∧ laterAcks = [])

/-- A stream that ends with a FIN has a payload still to come with it. -/
theorem InOrder.ne_nil {number : UInt32} {packets payloads : List Bytes}
    (h : InOrder ports true number packets payloads) : payloads ≠ [] := by
  induction h with
  | stray _ _ ih => exact ih
  | empty _ _ _ _ ih => exact ih
  | data => exact List.cons_ne_nil _ _
  | fin => exact List.cons_ne_nil _ _
  | reset _ hfinished => cases hfinished
  | stop hfinished => cases hfinished

/-- What a payload with others after it is acknowledged with. -/
theorem acknowledgements_cons {number : UInt32} {payload : Bytes}
    {others : List Bytes} (h : others ≠ []) :
    acknowledgements number (payload :: others) =
      (TcpAck, number + UInt32.ofNat payload.length) ::
        acknowledgements (number + UInt32.ofNat payload.length) others := by
  cases others with
  | nil => exact absurd rfl h
  | cons next others => rfl

private theorem eq_nil_of_take_eq_nil (hsize : 1 ≤ size)
    (h : bytes.take size = []) : bytes = [] := by
  rcases List.take_eq_nil_iff.mp h with hzero | hnil
  · omega
  · exact hnil

private theorem length_lt_of_append {packets taken later : List Bytes}
    (h : packets = taken ++ later) (hturns : packets.length < turns) :
    later.length < turns := by
  rw [h, List.length_append] at hturns
  omega

/-- What a read pays, when what is due is known before it and after it. -/
private theorem Paid.of_became {turned : ScriptedTransport × TcpLink}
    {closed : Bool} {recvSeq : UInt32} {front others : Bytes}
    {sent laterAcks : List (UInt8 × UInt32)} (hsize : 1 ≤ size)
    (hbecomes : Becomes state turned closed recvSeq front sent)
    (htook : Took size turned next) (hbytes : bytes = front ++ others)
    (hacks : acks = sent ++ laterAcks)
    (hdue : next.2.unread = front.drop size →
      Due ports turns next (front.drop size ++ others) laterAcks)
    (hend : front = [] → others = [] ∧ laterAcks = []) :
    Paid ports turns state next bytes acks (turned.2.unread.take size) := by
  have hbecomes' := htook.becomes hbecomes
  obtain ⟨packets, hwritten, hsent⟩ := hbecomes'.written
  refine ⟨front.drop size ++ others, laterAcks, sent, packets, ?_, hacks, hwritten,
    hsent, hdue hbecomes'.unread, fun hnil => ?_⟩
  · rw [hbecomes.unread, ← List.append_assoc, List.take_append_drop, hbytes]
  · rw [hbecomes.unread] at hnil
    obtain rfl := eq_nil_of_take_eq_nil hsize hnil
    rw [(hend rfl).1]
    exact ⟨by simp, (hend rfl).2⟩

/-- A read returns some of the bytes that are due, and sends some of the
acknowledgements that are; it cannot fail while the script does not. -/
theorem triple_read_due (hdue : Due ports turns state bytes acks)
    (hsize : 1 ≤ size) :
    Action.Triple (fun other => other = state) (read size turns)
      (fun chunk next => Paid ports turns state next bytes acks chunk)
      (fun _ _ => False) := by
  cases hdue with
  | @opened packets payloads hstands hclean hopen hstream hturns =>
      refine (triple_read hstands fun _ => hstream).imp_post ?_ ?_
      · rintro chunk next ⟨turned, hturn, rfl, htook⟩
        cases hturn with
        | held hheld hstands' hbecomes =>
            refine .of_became hsize hbecomes htook rfl rfl (fun hunread => ?_)
              fun hnil => ?_
            · have hbecomes' := htook.becomes hbecomes
              have hrest := Due.opened (htook.stands hstands')
                (hbecomes'.clean hclean) (hbecomes'.closed.trans hopen)
                (by rw [hbecomes'.recvSeq]; exact hstream) hturns
              rwa [hbecomes'.recvSeq, hunread] at hrest
            · rw [hopen] at hheld
              exact absurd hnil (hheld.resolve_right Bool.false_ne_true)
        | fin hpackets hpayloads _ hunread _ hstands' hbecomes =>
            subst hpayloads
            refine .of_became hsize hbecomes htook (by rw [hunread]; rfl)
              (List.append_nil _).symm (fun hunread' => ?_) fun _ => ⟨rfl, rfl⟩
            have hbecomes' := htook.becomes hbecomes
            have hrest := Due.finished (htook.stands hstands')
              (hbecomes'.clean hclean) hbecomes'.closed
              (length_lt_of_append hpackets hturns)
            rwa [hunread', ← List.append_nil (List.drop _ _)] at hrest
        | data hpackets hpayload hpayloads _ hunread _ hstands' hrest hbecomes =>
            subst hpayloads
            refine .of_became hsize hbecomes htook (by rw [hunread]; rfl)
              (acknowledgements_cons hrest.ne_nil) (fun hunread' => ?_)
              fun hnil => absurd hnil hpayload
            have hbecomes' := htook.becomes hbecomes
            have hdue := Due.opened (htook.stands hstands')
              (hbecomes'.clean hclean) hbecomes'.closed
              (by rw [hbecomes'.recvSeq]; exact hrest)
              (length_lt_of_append hpackets hturns)
            rwa [hbecomes'.recvSeq, hunread'] at hdue
      · intro e next hturn
        cases hturn with
        | failed _ _ _ _ hstuck => exact hstuck hclean rfl hturns
        | reset hfinished => cases hfinished
  | @finished packets hstands hclean hclosed hturns =>
      have hnever (hopen : state.2.closed = false) : False := by
        rw [hclosed] at hopen
        cases hopen
      refine (@triple_read ports true turns packets [] state size hstands
        fun hopen => (hnever hopen).elim).imp_post ?_ ?_
      · rintro chunk next ⟨turned, hturn, rfl, htook⟩
        cases hturn with
        | held hheld hstands' hbecomes =>
            refine .of_became hsize hbecomes htook (List.append_nil _).symm rfl
              (fun hunread => ?_) fun _ => ⟨rfl, rfl⟩
            have hbecomes' := htook.becomes hbecomes
            have hrest := Due.finished (htook.stands hstands')
              (hbecomes'.clean hclean) (hbecomes'.closed.trans hclosed) hturns
            rwa [hunread, ← List.append_nil (List.drop _ _)] at hrest
        | fin _ _ _ _ hopen => exact (hnever hopen).elim
        | data _ _ _ _ _ hopen => exact (hnever hopen).elim
      · intro e next hturn
        cases hturn with
        | failed _ _ _ _ hstuck => exact hstuck hclean rfl hturns
        | reset hfinished => cases hfinished

/-- What reads return and send of what is due: chunks with bytes, then none. The bytes
are those of the chunks and those still due, and the acknowledgements likewise. -/
structure PaidAll (sizes : List Nat)
    (before : ScriptedTransport × TcpLink)
    (outcome : List (Result Bytes) × (ScriptedTransport × TcpLink))
    (bytes : Bytes) (acks : List (UInt8 × UInt32)) (chunks : List Bytes)
    (idle : Nat) (later : Bytes) (sent laterAcks : List (UInt8 × UInt32)) :
    Prop where
  results : outcome.1 = (chunks ++ List.replicate idle []).map .ok
  count : chunks.length + idle = sizes.length
  nonempty : ∀ chunk ∈ chunks, chunk ≠ []
  bytes : bytes = chunks.flatten ++ later
  acks : acks = sent ++ laterAcks
  written : ∃ packets, outcome.2.1.written = before.1.written ++ packets ∧
    packets.map sentSegment =
      (sent.map fun (flags, number) => .ok (flags, number, []))
  done : 0 < idle → later = [] ∧ laterAcks = []

theorem run_readAll {sizes : List Nat} (hdue : Due ports turns state bytes acks)
    (hsizes : ∀ size ∈ sizes, 1 ≤ size) :
    ∃ chunks idle later sent laterAcks, PaidAll sizes state
      (readAll turns sizes state) bytes acks chunks idle later sent laterAcks := by
  induction sizes generalizing state bytes acks with
  | nil =>
      refine ⟨[], 0, bytes, [], acks, rfl, rfl, by simp, rfl, rfl,
        ⟨[], (List.append_nil _).symm, rfl⟩, fun h => by cases h⟩
  | cons size sizes ih =>
      rw [List.forall_mem_cons] at hsizes
      obtain ⟨chunk, next, hrun, hpaid⟩ :=
        (triple_read_due hdue hsizes.1).exists_ok rfl
      obtain ⟨later, laterAcks, sent, packets, hbytes, hacks, hwritten, hsent,
        hrest, hend⟩ := hpaid.rest
      obtain ⟨chunks, idle, last, more, lastAcks, hall⟩ := ih hrest hsizes.2
      obtain ⟨packets', hwritten', hsent'⟩ := hall.written
      have hwritten'' : (readAll turns sizes next).2.1.written =
          state.1.written ++ (packets ++ packets') := by
        rw [hwritten', hwritten, List.append_assoc]
      have hsent'' : (packets ++ packets').map sentSegment =
          ((sent ++ more).map fun (flags, number) =>
            .ok (flags, number, [])) := by
        rw [List.map_append, List.map_append, hsent, hsent']
      rw [readAll, hrun]
      by_cases hnil : chunk = []
      · obtain ⟨rfl, rfl⟩ := hend hnil
        obtain ⟨hflatten, rfl⟩ := List.append_eq_nil_iff.mp hall.bytes.symm
        obtain rfl : chunks = [] := by
          rw [List.eq_nil_iff_forall_not_mem]
          intro other hmem
          exact hall.nonempty other hmem
            (List.flatten_eq_nil_iff.mp hflatten other hmem)
        have hcount := hall.count
        refine ⟨[], idle + 1, [], sent ++ more, lastAcks, ?_, ?_, by simp, ?_, ?_,
          ⟨_, hwritten'', hsent''⟩, fun _ => ⟨rfl, ?_⟩⟩
        · rw [hall.results, hnil]
          rfl
        · rw [List.length_cons, ← hcount]
          simp
        · rw [hbytes, hnil]
          rfl
        · rw [hacks, hall.acks, List.append_assoc]
        · exact (List.append_eq_nil_iff.mp hall.acks.symm).2
      · refine ⟨chunk :: chunks, idle, last, sent ++ more, lastAcks, ?_, ?_, ?_, ?_,
          ?_, ⟨_, hwritten'', hsent''⟩, hall.done⟩
        · rw [hall.results]
          rfl
        · rw [List.length_cons, List.length_cons, ← hall.count]
          omega
        · exact List.forall_mem_cons.mpr ⟨hnil, hall.nonempty⟩
        · rw [hbytes, hall.bytes, List.flatten_cons, List.append_assoc]
        · rw [hacks, hall.acks, List.append_assoc]

/-- The link connects to a peer that answers its SYN, whatever else the tunnel
carries before the answer.  While the peer then sends its payloads in order,
between other packets, and the last of them with a FIN, the reads return the
payloads' bytes: chunks that are not empty, and nothing when all was returned.
What the reads send is one acknowledgement for each payload, in order. -/
theorem delivered_readAll {clientAddress address : Bytes}
    {mtu nextSourcePort next port : UInt16} {link : TcpLink}
    {destination : Ipv6Address} {transport : ScriptedTransport}
    {ignored packets payloads : List Bytes} {synAck : Bytes} {tcp : TcpHeader}
    {fuel : Nat}
    (hlink : (openLink clientAddress mtu).run nextSourcePort = (.ok link, next))
    (haddress : parseIpv6 address = .ok destination)
    (hclean : transport.Clean) (hwrites : transport.writes = [])
    (hwhole : ∀ packet ∈ ignored ++ synAck :: packets, IsIpv6Packet packet)
    (hremaining : transport.remaining = (ignored ++ synAck :: packets).flatten)
    (hignored : ∀ packet ∈ ignored, Ignored ⟨link.sourcePort, port⟩ packet)
    (hsynAck : IsSynAck ⟨link.sourcePort, port⟩ synAck tcp)
    (hfuel : (ignored ++ synAck :: packets).length < fuel)
    (hstream : InOrder ⟨link.sourcePort, port⟩ true (tcp.sequence + 1) packets
      payloads) :
    ∃ state, (connect fuel address port).run (transport, link) = (.ok (), state) ∧
      ∀ turns sizes, packets.length < turns → (∀ size ∈ sizes, 1 ≤ size) →
        ∃ chunks idle later sent laterAcks,
          PaidAll sizes state (readAll turns sizes state) payloads.flatten
            (acknowledgements (tcp.sequence + 1) payloads) chunks idle later sent
            laterAcks ∧
          (payloads.flatten.length < sizes.length → 0 < idle) := by
  obtain ⟨_, state, hrun, hconnected, hkept⟩ :=
    ((triple_connect (fresh_openLink hlink) haddress hwrites hwhole hremaining
      hignored hsynAck).imp_post (fun _ _ h => h)
      fun e next h => h hclean hfuel).exists_ok rfl
  refine ⟨state, hrun, fun turns sizes hturns hsizes => ?_⟩
  have hdue := Due.opened hconnected.stands (hkept hclean) hconnected.opened
    (by rw [hconnected.recvSeq]; exact hstream) hturns
  rw [hconnected.recvSeq, hconnected.unread, List.nil_append] at hdue
  obtain ⟨chunks, idle, later, sent, laterAcks, hall⟩ := run_readAll hdue hsizes
  refine ⟨chunks, idle, later, sent, laterAcks, hall, fun hsizes => ?_⟩
  have hcount := hall.count
  have hchunks : 1 * chunks.length ≤ (chunks.flatMap id).length :=
    length_mul_le_flatMap fun chunk hmem =>
      List.length_pos_iff.mpr (hall.nonempty chunk hmem)
  rw [List.flatMap_id, Nat.one_mul] at hchunks
  have hbytes := congrArg List.length hall.bytes
  rw [List.length_append] at hbytes
  omega

end Due

/-! ### A run -/

/-- A header without a payload, and the peer's answer, a payload, an empty
segment and the FIN.  The peer's numbers wrap after the answer. -/
private def tunnelPackets : List Bytes :=
  let ports := ⟨49152, 54323⟩
  [({} : Ipv6Header).encode, peerPacket ports (TcpSyn ||| TcpAck) 0xffffffff [],
    peerPacket ports TcpAck 0 [1, 2, 3], peerPacket ports TcpAck 7 [],
    peerPacket ports (TcpFin ||| TcpAck) 3 [4]]

private def cutTunnel : ScriptedTransport where
  reads := [.ok (tunnelPackets.flatten.take 70),
    .ok (tunnelPackets.flatten.drop 70)]

theorem delivered_readAll_cutTunnel :
    ∃ state, (connect 9 (ascii "fe80::2") 54323).run
        (cutTunnel, create (ascii "fe80::1") 1280 49152) = (.ok (), state) ∧
      ∃ chunks idle, (readAll 9 [2, 2, 5, 1, 1] state).1 =
          (chunks ++ List.replicate idle []).map .ok ∧
        chunks.flatten = [1, 2, 3, 4] ∧ 0 < idle := by
  have hclean : cutTunnel.Clean := by
    intro answer hmem
    simp only [cutTunnel, List.mem_cons, List.not_mem_nil, or_false] at hmem
    rcases hmem with rfl | rfl
    · exact ⟨_, by decide +kernel, rfl⟩
    · exact ⟨_, by decide +kernel, rfl⟩
  have hwhole : ∀ packet ∈ tunnelPackets, IsIpv6Packet packet := by
    intro packet hmem
    simp only [tunnelPackets, List.mem_cons, List.not_mem_nil, or_false] at hmem
    rcases hmem with rfl | rfl | rfl | rfl | rfl <;>
      exact ⟨by decide +kernel, by decide +kernel, by decide +kernel⟩
  have hstream : InOrder ⟨49152, 54323⟩ true (0xffffffff + 1)
      (tunnelPackets.drop 2) [[1, 2, 3], [4]] :=
    .data (isSegment_peerPacket _ TcpAck 0 [1, 2, 3]) (by decide) (by decide)
      (by decide) (by decide)
      (.empty (isSegment_peerPacket _ TcpAck 7 []) (by decide) (by decide)
        (.fin (isSegment_peerPacket _ (TcpFin ||| TcpAck) 3 [4]) rfl (by decide)
          (by decide) (by decide)))
  have hignored : ∀ packet ∈ [({} : Ipv6Header).encode],
      Ignored ⟨49152, 54323⟩ packet := by
    intro packet hmem
    rw [List.mem_singleton.mp hmem]
    exact .inl (.short (by decide))
  have hsynAck := isSegment_peerPacket ⟨49152, 54323⟩ (TcpSyn ||| TcpAck)
    0xffffffff []
  have hfuel : tunnelPackets.length < 9 := by decide
  obtain ⟨state, hrun, hreads⟩ := delivered_readAll openLink_linkLocal parseIpv6_linkLocal hclean rfl
    hwhole (by decide +kernel) hignored ⟨hsynAck, by decide, by decide⟩ hfuel
    hstream
  obtain ⟨chunks, idle, later, sent, laterAcks, hall, hidle⟩ :=
    hreads 9 [2, 2, 5, 1, 1] (by decide) (by decide)
  have hidle := hidle (by decide)
  have hbytes := hall.bytes
  rw [(hall.done hidle).1, List.append_nil] at hbytes
  exact ⟨state, hrun, chunks, idle, hall.results, hbytes.symm, hidle⟩

end Ioscpp.TcpLink
