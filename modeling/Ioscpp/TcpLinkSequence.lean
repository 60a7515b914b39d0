import Ioscpp.TcpLinkConnect

/-!
# Acknowledgements do not run ahead and do not go back

The link takes a segment as the next piece of the peer's stream without a look at
its sequence number, and acknowledges its end.  While the peer sends each byte
once, that is exact: over any calls, what the reads return is a prefix of the
stream, and the numbers the link sends never exceed what the peer has sent and
never decrease.  A segment that is sent again is returned again, and its number
acknowledged again.

## Main results

- `Tracks.step`, `Tracks.became`: what a turn does to what was returned and
  acknowledged.
- `sequenced_performAll`: over any calls, while the peer sends each byte once.
-/

namespace Ioscpp.TcpLink

open Ioscpp.Support
open Ioscpp.Protocol
open ScriptedTransport

/-! ## Calls -/

/-- A call of the link's user. -/
inductive Call where
  | read (count turns : Nat)
  | write (data : Bytes)
  | close

section Calls

variable {τ : Type} [Transport τ]

/-- Performs a call; a read returns bytes. -/
def perform : Call → Action Error (τ × TcpLink) Bytes
  | .read count turns => read count turns
  | .write data => do
      write data
      return []
  | .close => do
      close
      return []

/-- The bytes of a call that succeeded. -/
def bytesOf : Result Bytes → Bytes
  | .ok bytes => bytes
  | .error _ => []

/-- Performs calls one after the other, whether or not they succeed: the bytes
they return, and the state they leave. -/
def performAll : List Call → τ × TcpLink → Bytes × (τ × TcpLink)
  | [], state => ([], state)
  | call :: calls, state =>
      let first := (perform call).run state
      let others := performAll calls first.2
      (bytesOf first.1 ++ others.1, others.2)

end Calls

/-! ## The invariant -/

/-- The packet acknowledges the peer's stream, which starts at `start`, up to an
offset. -/
def Acknowledges (start : UInt32) (packet : Bytes) (offset : Nat) : Prop :=
  ∃ flags payload,
    sentSegment packet = .ok (flags, start + UInt32.ofNat offset, payload)

/-- What holds between the calls of a connection: the packets taken and those
still to come, the payloads still to come, and the offsets acknowledged so
far. -/
structure Tracks (ports : Ports) (finished : Bool) (start : UInt32)
    (packets payloads base : List Bytes) (returned : Bytes)
    (state : ScriptedTransport × TcpLink) (taken later : List Bytes) (offset : Nat)
    (sent : List Bytes) (offsets : List Nat) : Prop where
  split : packets = taken ++ later
  stands : Stands ports later state
  recvSeq : state.2.recvSeq = start + UInt32.ofNat offset
  behind : offset ≤ spanOf ports taken
  stream : state.2.closed = false →
    ∃ rest, InOrder ports finished state.2.recvSeq later rest ∧
      payloads.flatten = (returned ++ state.2.unread) ++ rest.flatten
  returned : returned ++ state.2.unread <+: payloads.flatten
  written : state.1.written = base ++ sent
  acknowledged : List.Forall₂ (Acknowledges start) sent offsets
  sorted : offsets.Pairwise (· ≤ ·)
  latest : ∀ other ∈ offsets, other ≤ offset

/-- The invariant, whatever was taken so far. -/
def Tracked (ports : Ports) (finished : Bool) (start : UInt32)
    (packets payloads base : List Bytes) (returned : Bytes)
    (state : ScriptedTransport × TcpLink) : Prop :=
  ∃ taken later offset sent offsets, Tracks ports finished start packets
    payloads base returned state taken later offset sent offsets

section Tracks

variable {ports : Ports} {finished : Bool} {start : UInt32}
  {packets payloads base taken later sent : List Bytes}
  {returned : Bytes} {offset fuel : Nat} {offsets : List Nat}
  {state next : ScriptedTransport × TcpLink}

/-- The invariant after a step that took packets and sent acknowledgements. -/
theorem Tracks.step {took later' more : List Bytes} {offset' : Nat}
    (h : Tracks ports finished start packets payloads base returned state taken
      later offset sent offsets)
    (hlater : later = took ++ later') (hstands : Stands ports later' next)
    (hrecv : next.2.recvSeq = start + UInt32.ofNat offset')
    (hoffset : offset ≤ offset')
    (hspan : offset' ≤ spanOf ports taken + spanOf ports took)
    (hstream : next.2.closed = false →
      ∃ rest, InOrder ports finished next.2.recvSeq later' rest ∧
        payloads.flatten = (returned ++ next.2.unread) ++ rest.flatten)
    (hreturned : returned ++ next.2.unread <+: payloads.flatten)
    (hwritten : next.1.written = state.1.written ++ more)
    (hmore : ∀ packet ∈ more, Acknowledges start packet offset') :
    Tracked ports finished start packets payloads base returned next := by
  refine ⟨taken ++ took, later', offset', sent ++ more,
    offsets ++ List.replicate more.length offset', ?_, hstands, hrecv, ?_, hstream,
    hreturned, ?_, ?_, ?_, ?_⟩
  · rw [h.split, hlater, List.append_assoc]
  · rwa [spanOf_append]
  · rw [hwritten, h.written, List.append_assoc]
  · refine List.rel_append h.acknowledged ?_
    clear hwritten
    induction more with
    | nil => exact .nil
    | cons packet more ih =>
        rw [List.forall_mem_cons] at hmore
        exact .cons hmore.1 (ih hmore.2)
  · rw [List.pairwise_append]
    refine ⟨h.sorted, List.pairwise_replicate.mpr (.inr (Nat.le_refl _)), ?_⟩
    intro other hother last hlast
    rw [List.eq_of_mem_replicate hlast]
    exact (h.latest other hother).trans hoffset
  · intro other hother
    rcases List.mem_append.mp hother with hold | hnew
    · exact (h.latest other hold).trans hoffset
    · exact Nat.le_of_eq (List.eq_of_mem_replicate hnew)

/-- The invariant after a turn, by what became of the connection. -/
theorem Tracks.became {took later' : List Bytes} {offset' : Nat}
    {closed : Bool} {recvSeq : UInt32} {unread : Bytes}
    {acks : List (UInt8 × UInt32)}
    (h : Tracks ports finished start packets payloads base returned state taken
      later offset sent offsets)
    (hbecomes : Becomes state next closed recvSeq unread acks)
    (hlater : later = took ++ later') (hstands : Stands ports later' next)
    (hrecv : recvSeq = start + UInt32.ofNat offset')
    (hacks : ∀ ack ∈ acks, ack.2 = recvSeq)
    (hoffset : offset ≤ offset')
    (hspan : offset' ≤ spanOf ports taken + spanOf ports took)
    (hstream : closed = false →
      ∃ rest, InOrder ports finished recvSeq later' rest ∧
        payloads.flatten = (returned ++ unread) ++ rest.flatten)
    (hreturned : returned ++ unread <+: payloads.flatten) :
    Tracked ports finished start packets payloads base returned next := by
  obtain ⟨more, hwritten, hsent⟩ := hbecomes.written
  refine h.step hlater hstands (hbecomes.recvSeq.trans hrecv) hoffset hspan ?_ ?_
    hwritten fun packet hmem => ?_
  · rw [hbecomes.closed, hbecomes.recvSeq, hbecomes.unread]
    exact hstream
  · rwa [hbecomes.unread]
  · -- what the turn sent acknowledges the number that it left
    have hmem' := List.mem_map_of_mem (f := sentSegment) hmem
    rw [hsent, List.mem_map] at hmem'
    obtain ⟨ack, hack, hpacket⟩ := hmem'
    exact ⟨ack.1, [], by rw [← hpacket, ← hrecv, ← hacks ack hack]⟩

/-- A number and what follows it by a payload's length. -/
private theorem number_add {number : UInt32} (h : number = start +
    UInt32.ofNat offset) (count : Nat) :
    number + UInt32.ofNat count = start + UInt32.ofNat (offset + count) := by
  rw [h, UInt32.ofNat_add, UInt32.add_assoc]

theorem Tracks.turn {fault : Option (Fault Error)} {rest : List Bytes}
    (h : Tracks ports finished start packets payloads base returned state taken
      later offset sent offsets)
    (hstream : state.2.closed = false →
      InOrder ports finished state.2.recvSeq later rest ∧
        payloads.flatten = (returned ++ state.2.unread) ++ rest.flatten)
    (hturn : Turn ports finished fuel state later rest fault next) :
    Tracked ports finished start packets payloads base returned next := by
  have hnil (hunread : state.2.unread = []) :
      returned ++ state.2.unread = returned := by
    rw [hunread, List.append_nil]
  cases hturn with
  | held hheld hstands hbecomes =>
      exact h.became hbecomes (List.nil_append _).symm hstands h.recvSeq (by simp)
        (Nat.le_refl _) (h.behind.trans (Nat.le_add_right _ _)) h.stream h.returned
  | failed hpackets hstands hbecomes hrest _ =>
      exact h.became hbecomes hpackets hstands h.recvSeq (by simp)
        (Nat.le_refl _) (h.behind.trans (Nat.le_add_right _ _))
        (fun hopen => ⟨rest, hrest hopen, (hstream hopen).2⟩) h.returned
  | reset hfinished hpackets hpayloads hunread hopen hstands hbecomes =>
      refine h.became hbecomes hpackets hstands h.recvSeq (by simp)
        (Nat.le_refl _) (h.behind.trans (Nat.le_add_right _ _)) nofun ?_
      rw [List.append_nil, ← hnil hunread]
      exact h.returned
  | @fin payload _ taken' _ hpackets hpayloads hspan hunread hopen hstands
      hbecomes =>
      refine h.became hbecomes hpackets hstands (by
        rw [UInt32.add_assoc, ← UInt32.ofNat_one, ← UInt32.ofNat_add]
        exact number_add h.recvSeq _) (by simp) (Nat.le_add_right _ _) ?_ nofun ?_
      · rw [hspan]
        exact Nat.add_le_add_right h.behind _
      · have hflatten := (hstream hopen).2
        rw [hnil hunread, hpayloads, List.flatten_singleton] at hflatten
        rw [hflatten]
  | data hpackets hpayload hpayloads hspan hunread hopen hstands hrest hbecomes =>
      have hflatten := (hstream hopen).2
      rw [hnil hunread, hpayloads, List.flatten_cons,
        ← List.append_assoc] at hflatten
      refine h.became hbecomes hpackets hstands (number_add h.recvSeq _) (by simp)
        (Nat.le_add_right _ _) ?_ (fun _ => ⟨_, hrest, hflatten⟩) ?_
      · rw [hspan]
        exact Nat.add_le_add_right h.behind _
      · rw [hflatten]
        exact List.prefix_append _ _

/-! ## The calls keep it -/

theorem Tracked.read {count turns : Nat}
    (h : Tracked ports finished start packets payloads base returned state) :
    Tracked ports finished start packets payloads base
      (returned ++ bytesOf ((TcpLink.read count turns).run state).1)
      ((TcpLink.read count turns).run state).2 := by
  obtain ⟨taken, later, offset, sent, offsets, h⟩ := h
  obtain ⟨rest, hstream⟩ : ∃ rest, state.2.closed = false →
      InOrder ports finished state.2.recvSeq later rest ∧
        payloads.flatten = (returned ++ state.2.unread) ++ rest.flatten := by
    cases hclosed : state.2.closed with
    | true => exact ⟨[], nofun⟩
    | false =>
        obtain ⟨rest, hrest⟩ := h.stream hclosed
        exact ⟨rest, fun _ => hrest⟩
  have hread := @triple_read ports finished turns later rest state count h.stands
    fun hopen => (hstream hopen).1
  rcases hrun : (TcpLink.read count turns).run state with ⟨e | chunk, next⟩
  · have hturn := hread.of_error rfl hrun
    rw [bytesOf, List.append_nil]
    exact h.turn hstream hturn
  · obtain ⟨turned, hturn, rfl, htook⟩ := hread.of_ok rfl hrun
    obtain ⟨taken, later, offset, sent, offsets, h⟩ := h.turn hstream hturn
    have hbytes : (returned ++ turned.2.unread.take count) ++ next.2.unread =
        returned ++ turned.2.unread := by
      rw [htook.unread, List.append_assoc, List.take_append_drop]
    have hbecomes := htook.becomes (.refl turned)
    obtain ⟨more, hwritten, hnone⟩ := hbecomes.written
    obtain rfl : more = [] := List.map_eq_nil_iff.mp hnone
    refine ⟨taken, later, offset, sent, offsets, h.split, htook.stands h.stands,
      hbecomes.recvSeq.trans h.recvSeq, h.behind, ?_, ?_, ?_, h.acknowledged,
      h.sorted, h.latest⟩
    · rw [bytesOf, hbytes, hbecomes.closed, hbecomes.recvSeq]
      exact h.stream
    · rw [bytesOf, hbytes]
      exact h.returned
    · rw [hwritten, List.append_nil, h.written]

/-- What writing and closing do: they send segments that acknowledge what was
received, and take nothing off the tunnel. -/
structure Announced (before after : ScriptedTransport × TcpLink) : Prop where
  reads : after.1.reads = before.1.reads
  writes : after.1.writes = []
  link : after.2 = { before.2 with
    sendSeq := after.2.sendSeq, closed := after.2.closed }
  closed : before.2.closed = true → after.2.closed = true
  written : ∃ more, after.1.written = before.1.written ++ more ∧
    ∀ packet ∈ more, ∃ flags payload,
      sentSegment packet = .ok (flags, before.2.recvSeq, payload)

section Announced

variable {before : ScriptedTransport × TcpLink}

theorem keeps_sendSegment (flags : UInt8) (payload : Bytes) :
    Action.Keeps (Announced before) (sendSegment flags payload) := by
  intro state h
  rw [run_sendSegment flags payload h.writes]
  obtain ⟨more, hwritten, hmore⟩ := h.written
  refine ⟨h.reads, h.writes, ?_, h.closed,
    more ++ [state.2.segmentPacket flags payload], ?_, ?_⟩
  · exact congrArg (fun link : TcpLink => { link with
      sendSeq := state.2.sendSeq + sequenceLength flags payload }) h.link
  · change state.1.written ++ [_] = _
    rw [hwritten, List.append_assoc]
  · rw [List.forall_mem_append]
    refine ⟨hmore, fun packet hmem => ⟨flags, payload, ?_⟩⟩
    rw [List.mem_singleton.mp hmem, sentSegment_segmentPacket, h.link]

theorem keeps_writeLoop (fuel : Nat) (data : Bytes) :
    Action.Keeps (Announced before) (writeLoop fuel data) := by
  induction fuel generalizing data with
  | zero => exact Action.keeps_ite (Action.keeps_pure _) (Action.keeps_lift _)
  | succ fuel ih =>
      refine Action.keeps_ite (Action.keeps_pure _)
        (Action.Keeps.get_bind fun state => ?_)
      exact (keeps_sendSegment _ _).bind fun _ => ih _

theorem keeps_close : Action.Keeps (Announced before) close := by
  refine Action.Keeps.get_bind fun state =>
    Action.keeps_ite (Action.keeps_pure _) (Action.Keeps.bind
      (Action.keeps_modify fun state h => ?_) fun _ => ?_)
  · refine ⟨h.reads, h.writes, ?_, fun _ => rfl, h.written⟩
    rw [h.link]
  · exact Action.keeps_ite ((keeps_sendSegment _ _).attempt.bind fun _ =>
      Action.keeps_pure _) (Action.keeps_pure _)

end Announced

theorem Tracked.announced (h : Tracked ports finished start packets payloads base
      returned state) (hannounced : Announced state next) :
    Tracked ports finished start packets payloads base returned next := by
  obtain ⟨taken, later, offset, sent, offsets, h⟩ := h
  obtain ⟨more, hwritten, hmore⟩ := hannounced.written
  have hlink := hannounced.link
  have hunread : next.2.unread = state.2.unread := by
    rw [hlink]
    rfl
  have hrecv : next.2.recvSeq = state.2.recvSeq := by rw [hlink]
  refine h.step (List.nil_append _).symm ⟨h.stands.facing.of_eq hannounced.reads
    (by rw [hlink]), ?_, hannounced.writes, ?_⟩ (hrecv.trans h.recvSeq)
    (Nat.le_refl _) (h.behind.trans (Nat.le_add_right _ _)) (fun hopen => ?_) ?_
    hwritten fun packet hmem => ?_
  · rw [hlink]
    exact h.stands.ports
  · rw [hlink]
    exact h.stands.offset
  · rw [hunread, hrecv]
    refine h.stream (Bool.eq_false_of_not_eq_true fun hclosed => ?_)
    rw [hannounced.closed hclosed] at hopen
    cases hopen
  · rw [hunread]
    exact h.returned
  · obtain ⟨flags, payload, hsent⟩ := hmore packet hmem
    exact ⟨flags, payload, by rw [hsent, h.recvSeq]⟩

theorem Announced.refl (h : state.1.writes = []) : Announced state state :=
  ⟨rfl, h, rfl, id, [], (List.append_nil _).symm, by simp⟩

/-- A call that reads nothing. -/
theorem Tracked.silent {x : Action Error (ScriptedTransport × TcpLink) Unit}
    (h : Tracked ports finished start packets payloads base returned state)
    (hx : Action.Keeps (Announced state) x) :
    Tracked ports finished start packets payloads base
      (returned ++ bytesOf ((x >>= fun _ => pure ([] : Bytes)).run state).1)
      ((x >>= fun _ => pure ([] : Bytes)).run state).2 := by
  obtain ⟨taken, later, offset, sent, offsets, hnow⟩ := id h
  have hannounced := (hx.bind fun _ => Action.keeps_pure ([] : Bytes)).state
    (Announced.refl hnow.stands.writes)
  have hnil : bytesOf ((x >>= fun _ => pure ([] : Bytes)).run state).1 = [] := by
    rw [Action.run_bind]
    rcases x.run state with ⟨_ | _, _⟩ <;> rfl
  rw [hnil, List.append_nil]
  exact h.announced hannounced

theorem Tracked.perform (call : Call)
    (h : Tracked ports finished start packets payloads base returned state) :
    Tracked ports finished start packets payloads base
      (returned ++ bytesOf ((TcpLink.perform call).run state).1)
      ((TcpLink.perform call).run state).2 := by
  cases call with
  | read count turns => exact h.read
  | write data => exact h.silent (keeps_writeLoop _ _)
  | close => exact h.silent keeps_close

theorem Tracked.performAll (calls : List Call)
    (h : Tracked ports finished start packets payloads base returned state) :
    Tracked ports finished start packets payloads base
      (returned ++ (TcpLink.performAll calls state).1)
      (TcpLink.performAll calls state).2 := by
  induction calls generalizing returned state with
  | nil =>
      rw [TcpLink.performAll, List.append_nil]
      exact h
  | cons call calls ih =>
      rw [TcpLink.performAll, ← List.append_assoc]
      exact ih (h.perform call)

end Tracks

/-- While the peer sends each byte once: after any calls on a link that has
connected, failed ones included, the bytes returned are a prefix of the peer's
stream, and the segments sent acknowledge it up to offsets that never decrease
and never exceed what was sent in the packets that the tunnel has delivered. -/
theorem sequenced_performAll {clientAddress address : Bytes}
    {mtu nextSourcePort next port : UInt16} {link : TcpLink}
    {destination : Ipv6Address} {transport : ScriptedTransport}
    {ignored packets payloads : List Bytes} {synAck : Bytes} {tcp : TcpHeader}
    {fuel : Nat} {state : ScriptedTransport × TcpLink} {finished : Bool}
    (hlink : (openLink clientAddress mtu).run nextSourcePort = (.ok link, next))
    (haddress : parseIpv6 address = .ok destination)
    (hwrites : transport.writes = [])
    (hwhole : ∀ packet ∈ ignored ++ synAck :: packets, IsIpv6Packet packet)
    (hremaining : transport.remaining = (ignored ++ synAck :: packets).flatten)
    (hignored : ∀ packet ∈ ignored, Ignored ⟨link.sourcePort, port⟩ packet)
    (hsynAck : IsSynAck ⟨link.sourcePort, port⟩ synAck tcp)
    (hconnect : (connect fuel address port).run (transport, link) =
      (.ok (), state))
    (hstream : InOrder ⟨link.sourcePort, port⟩ finished (tcp.sequence + 1) packets
      payloads) (calls : List Call) :
    ∃ taken later sent offsets, packets = taken ++ later ∧
      pending (performAll calls state).2 = later.flatten ∧
      (performAll calls state).1 <+: payloads.flatten ∧
      (performAll calls state).2.1.written = state.1.written ++ sent ∧
      List.Forall₂ (Acknowledges (tcp.sequence + 1)) sent offsets ∧
      offsets.Pairwise (· ≤ ·) ∧
      ∀ offset ∈ offsets, offset ≤ spanOf ⟨link.sourcePort, port⟩ taken := by
  obtain ⟨hconnected, -⟩ := (triple_connect (fresh_openLink hlink) haddress hwrites
    hwhole hremaining hignored hsynAck).of_ok rfl hconnect
  have hstart : Tracked ⟨link.sourcePort, port⟩ finished (tcp.sequence + 1) packets
      payloads state.1.written [] state := by
    refine ⟨[], packets, 0, [], [], rfl, hconnected.stands, ?_, Nat.zero_le _,
      fun _ => ⟨payloads, ?_, ?_⟩, ?_, (List.append_nil _).symm, .nil, .nil,
      by simp⟩
    · rw [hconnected.recvSeq]
      exact (UInt32.add_zero _).symm
    · rw [hconnected.recvSeq]
      exact hstream
    · rw [hconnected.unread]
      rfl
    · rw [hconnected.unread]
      exact List.nil_prefix
  obtain ⟨taken, later, offset, sent, offsets, hlast⟩ := hstart.performAll calls
  refine ⟨taken, later, sent, offsets, hlast.split, hlast.stands.facing.pending,
    (List.prefix_append _ _).trans hlast.returned, hlast.written,
    hlast.acknowledged, hlast.sorted, fun other hmem => ?_⟩
  exact (hlast.latest other hmem).trans hlast.behind

/-! ### Segments that are sent once and twice -/

/-- The peer's answer and two segments. -/
private def sentOnce : List Bytes :=
  let ports := ⟨49152, 54323⟩
  [peerPacket ports (TcpSyn ||| TcpAck) 999 [],
    peerPacket ports TcpAck 1000 [1, 2, 3], peerPacket ports TcpAck 1003 [4, 5, 6]]

/-- A tunnel with these packets. -/
private def tunnelOf (packets : List Bytes) : ScriptedTransport where
  reads := packets.map .ok

/-- A link connects over a tunnel. -/
private def connectOver (tunnel : ScriptedTransport) :
    Result Unit × (ScriptedTransport × TcpLink) :=
  (connect 9 (ascii "fe80::2") 54323).run
    (tunnel, create (ascii "fe80::1") 1280 49152)

/-- It reads three times. -/
private def readThrice (tunnel : ScriptedTransport) :
    Bytes × (ScriptedTransport × TcpLink) :=
  performAll [.read 8 9, .read 8 9, .read 8 9] (connectOver tunnel).2

theorem sequenced_performAll_sentOnce :
    (readThrice (tunnelOf sentOnce)).1 <+: [1, 2, 3, 4, 5, 6] := by
  have hwhole : ∀ packet ∈ sentOnce, IsIpv6Packet packet := by
    intro packet hmem
    simp only [sentOnce, List.mem_cons, List.not_mem_nil, or_false] at hmem
    rcases hmem with rfl | rfl | rfl <;>
      exact ⟨by decide +kernel, by decide +kernel, by decide +kernel⟩
  have hsynAck := isSegment_peerPacket ⟨49152, 54323⟩ (TcpSyn ||| TcpAck) 999 []
  have hignored : ∀ packet ∈ ([] : List Bytes),
      Ignored ⟨49152, 54323⟩ packet := by
    simp
  have hwrites : (tunnelOf sentOnce).writes = [] := rfl
  have hremaining : (tunnelOf sentOnce).remaining =
      ([] ++ peerPacket ⟨49152, 54323⟩ (TcpSyn ||| TcpAck) 999 [] ::
        sentOnce.drop 1).flatten := by
    decide +kernel
  have hok : (connectOver (tunnelOf sentOnce)).1 = .ok () := by decide +kernel
  have hconnect : (connect 9 (ascii "fe80::2") 54323).run
      (tunnelOf sentOnce, create (ascii "fe80::1") 1280 49152) =
      (.ok (), (connectOver (tunnelOf sentOnce)).2) := by
    rw [← hok]
    exact Prod.mk.eta.symm
  have hstream : InOrder ⟨49152, 54323⟩ false (999 + 1) (sentOnce.drop 1)
      [[1, 2, 3], [4, 5, 6]] :=
    .data (isSegment_peerPacket _ TcpAck 1000 [1, 2, 3]) (by decide) (by decide)
      (by decide) (by decide)
      (.data (isSegment_peerPacket _ TcpAck 1003 [4, 5, 6]) (by decide) (by decide)
        (by decide) (by decide) (.stop rfl))
  obtain ⟨_, _, _, _, -, -, hprefix, -⟩ := sequenced_performAll openLink_linkLocal parseIpv6_linkLocal
    hwrites hwhole hremaining hignored ⟨hsynAck, by decide, by decide⟩ hconnect
    hstream [.read 8 9, .read 8 9, .read 8 9]
  have hflatten : [[1, 2, 3], [4, 5, 6]].flatten = ([1, 2, 3, 4, 5, 6] : Bytes) :=
    rfl
  rw [hflatten] at hprefix
  rw [readThrice]
  exact hprefix

/-- The peer sends its two segments again. -/
private def resentTunnel : ScriptedTransport :=
  tunnelOf (sentOnce ++ sentOnce.drop 1)

/-- The tunnel fails to take the first acknowledgement of a read. -/
private def deafTunnel : ScriptedTransport :=
  { tunnelOf sentOnce with
    writes := [none, none, some ⟨.transport, ascii "the write failed"⟩] }

/-- A segment that is sent again is returned again, and the acknowledgement goes
back; one that could not be acknowledged is lost. -/
theorem performAll_not_prefix :
    (readThrice resentTunnel).1 = [1, 2, 3, 4, 5, 6, 1, 2, 3] ∧
    ¬ (readThrice resentTunnel).1 <+: [1, 2, 3, 4, 5, 6] ∧
    ((readThrice resentTunnel).2.1.written.drop 2).map sentSegment =
      [.ok (TcpAck, 1003, []), .ok (TcpAck, 1006, []), .ok (TcpAck, 1003, [])] ∧
    (readThrice deafTunnel).1 = [4, 5, 6] := by
  decide +kernel

end Ioscpp.TcpLink
