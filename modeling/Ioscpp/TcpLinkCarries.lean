import Ioscpp.ByteStreamSimulation
import Ioscpp.TcpLinkDelivery
import Ioscpp.TcpLinkWrite

/-!
# A link carries bytes

A link over the tunnel is a byte stream like a stream of the direct link.  Whatever
segments the peer cuts its bytes into, the link reads as the stream in memory that
holds them, up to the segment with the FIN; and a peer that reads packets as the
link does takes what was written from the segments that the link sends.

## Main results

- `triple_read_ahead`: while there is something to read, a read returns some of it.
- `carries`: a link carries the bytes of its peer, and takes those of its caller to
  it.
-/

namespace Ioscpp

open Ioscpp.Support
open Ioscpp.Protocol
open ScriptedTransport

/-- A link beside its tunnel.  A read takes fewer than `turns` packets before it
has bytes. -/
structure TunnelLink (τ : Type) where
  state : τ × TcpLink
  turns : Nat

namespace TunnelLink

section Operations

variable {τ : Type} [Transport τ]

def onState {α : Type} (x : Action Error (τ × TcpLink) α) :
    Action Error (TunnelLink τ) α :=
  Action.zoom (·.state) (fun link state => { link with state }) x

instance : ByteStream (TunnelLink τ) where
  readExact count := do
    let link ← get
    onState (TcpLink.readExact count link.turns)
  write data := onState (TcpLink.write data)

end Operations

/-! ## The peer -/

/-- The number and the bytes of a packet's segment, when it has bytes for the peer
of these ports. -/
def packetPiece (ports : Ports) (packet : Bytes) : Option (UInt32 × Bytes) :=
  match TcpLink.acceptSegment ⟨ports.peer, ports.source⟩ packet with
  | .ok (some segment) =>
      if segment.payload = [] then none
      else some (segment.sequence, segment.payload)
  | _ => none

/-- The next number and the bytes that the peer has of packets. -/
abbrev received (ports : Ports) (first : UInt32) (packets : List Bytes) :
    Option (UInt32 × Bytes) :=
  assembled (packetPiece ports) first packets

section Peer

variable {ports : Ports} {packet : Bytes}

theorem payload_of_acceptSegment {segment : Segment}
    (h : TcpLink.acceptSegment ports packet = .ok (some segment)) :
    segment.payload = packet.drop (kIpv6HeaderSize + kTcpHeaderSize) := by
  by_cases hshort : packet.length < kIpv6HeaderSize + kTcpHeaderSize
  · rw [TcpLink.acceptSegment_of_lt hshort] at h
    cases h
  · obtain ⟨ipv6, tcp, -, -, haccept⟩ :=
      @TcpLink.acceptSegment_of_le ports packet (Nat.le_of_not_lt hshort)
    rw [haccept] at h
    split at h
    · cases h
    · split at h
      · cases h
      · cases h
        rfl

/-- A segment without bytes brings none. -/
theorem packetPiece_sentSegment {flags : UInt8} {number : UInt32}
    (h : TcpLink.sentSegment packet = .ok (flags, number, [])) :
    packetPiece ports packet = none := by
  have hpayload : packet.drop (kIpv6HeaderSize + kTcpHeaderSize) = [] := by
    rw [TcpLink.sentSegment] at h
    obtain ⟨bytes, -, h⟩ := bind_eq_ok.mp h
    obtain ⟨tcp, -, h⟩ := bind_eq_ok.mp h
    simp only [pure_eq_ok, Except.ok.injEq, Prod.mk.injEq] at h
    exact h.2.2
  rw [packetPiece]
  split
  · rename_i segment haccept
    rw [if_pos ((payload_of_acceptSegment haccept).trans hpayload)]
  · rfl

/-- A segment of a write brings its piece. -/
theorem packetPiece_carriesSegment {mtu : UInt16} {number : UInt32} {piece : Bytes}
    (h : TcpLink.CarriesSegment mtu ports number piece packet) (hpiece : piece ≠ []) :
    packetPiece ports packet = some (number, piece) := by
  have hlong : kIpv6HeaderSize + kTcpHeaderSize ≤ packet.length := by
    by_contra hshort
    refine hpiece (h.payload.symm.trans ?_)
    rw [List.drop_eq_nil_iff]
    omega
  obtain ⟨ipv6, hipv6, hnext, -⟩ := h.length
  obtain ⟨tcp, htcp, hsource, hpeer, hnumber, -⟩ := h.header
  obtain ⟨ipv6', tcp', hbyte, htcp', haccept⟩ :=
    @TcpLink.acceptSegment_of_le ⟨ports.peer, ports.source⟩ packet hlong
  have hnext' : ipv6'.nextHeader = kNextTcp := by
    obtain ⟨decoded, hdecoded, -, -, hbyte'⟩ :=
      @Ipv6Header.decode_of_le (packet.take kIpv6HeaderSize) (by
        rw [kIpv6HeaderSize] at hlong ⊢
        rw [List.length_take]
        omega)
    rw [hipv6] at hdecoded
    obtain rfl := Except.ok.inj hdecoded
    rw [kIpv6HeaderSize, List.getElem?_take_of_lt (by decide), hbyte] at hbyte'
    rw [Option.some.inj hbyte', hnext]
  rw [kIpv6HeaderSize, kTcpHeaderSize, htcp'] at htcp
  obtain rfl := Except.ok.inj htcp
  have hpayload := h.payload
  rw [kIpv6HeaderSize, kTcpHeaderSize] at hpayload
  rw [if_neg (not_not_intro hnext'), if_neg (by rw [hsource, hpeer]; simp),
    hpayload, hnumber] at haccept
  rw [packetPiece, haccept]
  exact if_neg hpiece

end Peer

/-! ## Reading -/

/-- The link reads `rest` before the payload that comes with the FIN. -/
structure Ahead (ports : Ports) (turns : Nat)
    (state : ScriptedTransport × TcpLink) (rest : Bytes) : Prop where
  clean : state.1.Clean
  opened : state.2.closed = false
  stream : ∃ packets payloads last, TcpLink.Stands ports packets state ∧
    TcpLink.InOrder ports true state.2.recvSeq packets (payloads ++ [last]) ∧
    packets.length < turns ∧ rest = state.2.unread ++ payloads.flatten

/-- The link sent packets without bytes. -/
def SentQuiet (ports : Ports) (before after : ScriptedTransport × TcpLink) : Prop :=
  ∃ packets, after.1.written = before.1.written ++ packets ∧
    ∀ packet ∈ packets, packetPiece ports packet = none

section Reading

variable {ports : Ports} {turns : Nat} {rest : Bytes}
  {state first next : ScriptedTransport × TcpLink}

theorem SentQuiet.trans (h : SentQuiet ports state first)
    (h' : SentQuiet ports first next) : SentQuiet ports state next := by
  obtain ⟨packets, hwritten, hquiet⟩ := h
  obtain ⟨packets', hwritten', hquiet'⟩ := h'
  refine ⟨packets ++ packets', ?_, ?_⟩
  · rw [hwritten', hwritten, List.append_assoc]
  · intro packet hmem
    exact (List.mem_append.mp hmem).elim (hquiet packet) (hquiet' packet)

theorem sentQuiet_of_becomes {closed : Bool} {recvSeq : UInt32} {unread : Bytes}
    {sent : List (UInt8 × UInt32)}
    (h : TcpLink.Becomes state next closed recvSeq unread sent) :
    SentQuiet ports state next := by
  obtain ⟨packets, hwritten, hsent⟩ := h.written
  refine ⟨packets, hwritten, fun packet hmem => ?_⟩
  have hmem' : TcpLink.sentSegment packet ∈ packets.map TcpLink.sentSegment :=
    List.mem_map_of_mem hmem
  rw [hsent] at hmem'
  obtain ⟨⟨flags, number⟩, -, hpacket⟩ := List.mem_map.mp hmem'
  exact packetPiece_sentSegment hpacket.symm

/-- While there is something to read, a read returns some of it, no more than was asked
for; it cannot fail, and sends acknowledgements only. -/
theorem triple_read_ahead {count : Nat} (h : Ahead ports turns state rest)
    (hrest : rest ≠ []) (hcount : 1 ≤ count) :
    Action.Triple (fun other => other = state) (TcpLink.read count turns)
      (fun chunk next => chunk ≠ [] ∧ chunk.length ≤ count ∧
        ∃ later, rest = chunk ++ later ∧ Ahead ports turns next later ∧
          SentQuiet ports state next)
      (fun _ _ => False) := by
  obtain ⟨hclean, hopen, packets, payloads, last, hstands, hstream, hturns,
    rfl⟩ := h
  have hchunk {bytes : Bytes} (hbytes : bytes ≠ []) :
      bytes.take count ≠ [] ∧ (bytes.take count).length ≤ count := by
    rw [List.length_take]
    exact ⟨by simpa using ⟨by omega, hbytes⟩, Nat.min_le_left _ _⟩
  refine (TcpLink.triple_read hstands fun _ => hstream).imp_post ?_ ?_
  · rintro chunk next ⟨turned, hturn, rfl, htook⟩
    have hunread := htook.unread
    cases hturn with
    | held hheld hstands' hbecomes =>
        have hheld : state.2.unread ≠ [] :=
          hheld.resolve_right (by rw [hopen]; exact Bool.false_ne_true)
        have hbecomes' := htook.becomes hbecomes
        rw [hbecomes.unread] at hunread ⊢
        obtain ⟨hne, hle⟩ := hchunk hheld
        refine ⟨hne, hle, next.2.unread ++ payloads.flatten, ?_,
          ⟨hbecomes'.clean hclean, hbecomes'.closed.trans hopen, packets, payloads,
            last, htook.stands hstands', by rw [hbecomes'.recvSeq]; exact hstream,
            hturns, rfl⟩, sentQuiet_of_becomes hbecomes'⟩
        rw [hunread, ← List.append_assoc, List.take_append_drop]
    | fin _ hpayloads _ hunread' =>
        obtain ⟨rfl, -⟩ := List.append_eq_singleton_iff.mp hpayloads |>.resolve_right
          (by simp)
        exact absurd hunread' (by simpa using hrest)
    | data hpackets hpayload hpayloads hspan hunread' hopen' hstands' hrest'
        hbecomes =>
        rename_i payload taken later others
        have hbecomes' := htook.becomes hbecomes
        rw [hbecomes.unread] at hunread ⊢
        obtain ⟨hne, hle⟩ := hchunk hpayload
        obtain ⟨payloads', rfl, rfl⟩ : ∃ payloads', payloads = payload :: payloads' ∧
            others = payloads' ++ [last] := by
          cases payloads with
          | nil =>
              cases hpayloads
              exact absurd rfl hrest'.ne_nil
          | cons front payloads' =>
              obtain ⟨rfl, rfl⟩ := List.cons.inj hpayloads
              exact ⟨payloads', rfl, rfl⟩
        refine ⟨hne, hle, next.2.unread ++ payloads'.flatten, ?_,
          ⟨hbecomes'.clean hclean, hbecomes'.closed, later, payloads', last,
            htook.stands hstands', by rw [hbecomes'.recvSeq]; exact hrest',
            by rw [hpackets, List.length_append] at hturns; omega, rfl⟩,
          sentQuiet_of_becomes hbecomes'⟩
        rw [hunread, hunread', List.nil_append, List.flatten_cons,
          ← List.append_assoc, List.take_append_drop]
  · intro fault next hturn
    cases hturn with
    | failed _ _ _ _ hstuck => exact hstuck hclean rfl hturns
    | reset hfinished => cases hfinished

/-- What reading the rest of `count` bytes after `data` returns. -/
structure ReadRest (ports : Ports) (turns count : Nat) (data rest : Bytes)
    (state next : ScriptedTransport × TcpLink) (bytes : Bytes) : Prop where
  bytes : bytes = data ++ rest.take (count - data.length)
  ahead : Ahead ports turns next (rest.drop (count - data.length))
  quiet : SentQuiet ports state next

theorem triple_readExactLoop_ahead {count fuel : Nat} {data : Bytes}
    (h : Ahead ports turns state rest) (hrest : count ≤ data.length + rest.length)
    (hfuel : count ≤ data.length + fuel) (hdata : data.length ≤ count) :
    Action.Triple (fun other => other = state)
      (TcpLink.readExactLoop count turns fuel data)
      (fun bytes next => ReadRest ports turns count data rest state next bytes)
      (fun _ _ => False) := by
  induction fuel generalizing data rest state with
  | zero =>
      refine Action.Triple.ite (fun hle => ?_) fun hlt => absurd hfuel (by omega)
      have hzero : count - data.length = 0 := by omega
      refine Action.Triple.pure ?_
      rintro _ rfl
      refine ⟨?_, ?_, [], (List.append_nil _).symm, by simp⟩
      · rw [hzero, List.take_zero, List.append_nil]
      · rwa [hzero, List.drop_zero]
  | succ fuel ih =>
      refine Action.Triple.ite (fun hle => ?_) fun hlt => ?_
      · have hzero : count - data.length = 0 := by omega
        refine Action.Triple.pure ?_
        rintro _ rfl
        refine ⟨?_, ?_, [], (List.append_nil _).symm, by simp⟩
        · rw [hzero, List.take_zero, List.append_nil]
        · rwa [hzero, List.drop_zero]
      · have hne : rest ≠ [] := by
          rintro rfl
          rw [List.length_nil] at hrest
          omega
        refine (triple_read_ahead h hne (by omega)).bind fun chunk =>
          Action.Triple.of_state fun first hfirst => ?_
        obtain ⟨hchunk, hle, later, rfl, hlater, hquiet⟩ := hfirst
        have hpos := List.length_pos_iff.mpr hchunk
        have hlength : (data ++ chunk).length = data.length + chunk.length :=
          List.length_append
        rw [List.length_append] at hrest
        refine Action.Triple.ite (fun hnil => absurd hnil hchunk) fun _ => ?_
        refine (ih hlater (by omega) (by omega) (by omega)).imp_post ?_
          fun _ _ hfalse => hfalse
        rintro bytes next ⟨rfl, hahead, hquiet'⟩
        have hsize : count - data.length =
            chunk.length + (count - (data ++ chunk).length) := by omega
        refine ⟨?_, ?_, hquiet.trans hquiet'⟩
        · rw [hsize, List.take_length_add_append, List.append_assoc]
        · rw [hsize, List.drop_length_add_append]
          exact hahead

end Reading

/-! ## The number of the next segment -/

/-- A link that is open still sends from this number. -/
def SendsFrom {τ : Type} (number : UInt32) (state : τ × TcpLink) : Prop :=
  state.2.closed = true ∨ state.2.sendSeq = number

section SendsFrom

variable {τ : Type} [Transport τ] {number : UInt32}

omit [Transport τ] in
theorem keeps_onFramer {α : Type} (x : Action Error (τ × Ipv6Framer) α) :
    Action.Keeps (SendsFrom number) (TcpLink.onFramer x) :=
  Action.keeps_zoom fun _ _ h => h

/-- An acknowledgement takes no number. -/
theorem keeps_sendAck :
    Action.Keeps (SendsFrom number : τ × TcpLink → Prop)
      (TcpLink.sendSegment TcpAck []) := by
  refine Action.Keeps.get_bind fun state => (keeps_onFramer _).bind fun _ =>
    Action.keeps_modify fun state h => ?_
  refine h.imp_right fun hnumber => ?_
  change state.2.sendSeq + TcpLink.sequenceLength TcpAck [] = number
  rw [hnumber]
  exact UInt32.add_zero _

theorem keeps_handleSegment (segment : Segment)
    {again : Action Error (τ × TcpLink) Bool}
    (h : Action.Keeps (SendsFrom number) again) :
    Action.Keeps (SendsFrom number) (TcpLink.handleSegment segment again) := by
  have hclose : ∀ {α : Type} {x : PUnit → Action Error (τ × TcpLink) α},
      (∀ done, Action.Keeps (SendsFrom number) (x done)) →
      Action.Triple (fun _ => True)
        (TcpLink.update (fun link => { link with closed := true }) >>= x)
        (fun _ => SendsFrom number) fun _ => SendsFrom number := fun hx =>
    Action.Triple.bind (Action.Triple.modify fun _ _ => Or.inl rfl) hx
  refine Action.keeps_ite ?_ (Action.keeps_ite ?_ (Action.keeps_ite ?_ h))
  · exact (hclose fun _ => Action.keeps_fail _).imp_pre fun _ _ => trivial
  · refine Action.Keeps.bind (Action.keeps_modify fun _ h => h) fun _ => ?_
    -- the FIN takes a number, and closes the link
    refine Action.Triple.bind (Q := fun _ _ => True) (fun _ _ => trivial) fun _ => ?_
    refine hclose fun _ => Action.keeps_ite (Action.keeps_pure _) ?_
    exact Action.Keeps.bind (Action.keeps_modify fun _ h => h) fun _ => h
  · refine Action.Keeps.bind (Action.keeps_modify fun _ h => h) fun _ => ?_
    refine keeps_sendAck.bind fun _ => ?_
    exact Action.Keeps.bind (Action.keeps_modify fun _ h => h) fun _ => h

theorem keeps_awaitIncoming (fuel : Nat) :
    Action.Keeps (SendsFrom number : τ × TcpLink → Prop)
      (TcpLink.awaitIncoming fuel) := by
  induction fuel with
  | zero =>
      exact Action.Keeps.get_bind fun state =>
        Action.keeps_ite (Action.keeps_pure _) (Action.keeps_lift _)
  | succ fuel ih =>
      refine Action.Keeps.get_bind fun state =>
        Action.keeps_ite (Action.keeps_pure _) ?_
      refine Action.Keeps.bind (Action.keeps_modify fun _ h => h) fun _ =>
        Action.keeps_ite (Action.keeps_pure _) ?_
      exact (TcpLink.keeps_receiveSegment (keeps_onFramer _) _).bind fun segment =>
        keeps_handleSegment segment ih

theorem keeps_readExactLoop (count turns fuel : Nat) (data : Bytes) :
    Action.Keeps (SendsFrom number : τ × TcpLink → Prop)
      (TcpLink.readExactLoop count turns fuel data) := by
  induction fuel generalizing data with
  | zero => exact Action.keeps_ite (Action.keeps_pure _) (Action.keeps_lift _)
  | succ fuel ih =>
      refine Action.keeps_ite (Action.keeps_pure _) ?_
      refine Action.Keeps.bind ?_ fun more => Action.keeps_ite (Action.keeps_fail _)
        (ih _)
      refine (keeps_awaitIncoming turns).bind fun more =>
        Action.keeps_ite ?_ (Action.keeps_pure _)
      refine Action.Keeps.get_bind fun state => ?_
      exact Action.Keeps.bind (Action.keeps_modify fun _ h => h) fun _ =>
        Action.keeps_pure _

end SendsFrom

/-! ## The stream in memory -/

/-- The link has `memory.incoming` to read, and the peer has `memory.written` of
what was sent since `base`. -/
structure Carried (ports : Ports) (base : List Bytes) (first : UInt32)
    (link : TunnelLink ScriptedTransport) (memory : MemoryByteStream) : Prop where
  reads : Ahead ports link.turns link.state memory.incoming
  sized : link.state.2.Sized
  writes : ∃ sent, link.state.1.written = base ++ sent ∧
    received ports first sent = some (link.state.2.sendSeq, memory.written)

section Carried

variable {ports : Ports} {base : List Bytes} {first : UInt32}

theorem simulates_readExact (count : Nat) :
    Action.Simulates (Carried ports base first) (ByteStream.readExact count)
      (ByteStream.readExact count) := by
  rintro ⟨state, turns⟩ memory taken next' ⟨hreads, hsized, sent, hwritten,
    hreceived⟩ hmemory
  obtain ⟨henough, rfl, rfl⟩ := MemoryByteStream.of_run_readExact hmemory
  obtain ⟨bytes, next, hrun, hread⟩ := (@triple_readExactLoop_ahead ports turns _
    state count count [] hreads (by simpa using henough) (by simp)
    (Nat.zero_le _)).exists_ok rfl
  have hkept := @Action.Keeps.state _ _ _ _ _
    (@keeps_readExactLoop ScriptedTransport _ state.2.sendSeq count turns count [])
    state (.inr rfl)
  have hsteady :=
    (TcpLink.steady_sized.keeps_readExactLoop count turns count []).state hsized
  rw [hrun] at hkept hsteady
  obtain ⟨rfl, hahead, acks, hacks, hquiet⟩ := hread
  rw [List.length_nil, Nat.sub_zero] at hahead hrun
  have hnumber : next.2.sendSeq = state.2.sendSeq := by
    refine hkept.resolve_left fun hclosed => ?_
    exact Bool.false_ne_true (hahead.opened.symm.trans hclosed)
  have hzoom : (ByteStream.readExact count).run
      (⟨state, turns⟩ : TunnelLink ScriptedTransport) =
      (((TcpLink.readExact count turns).run state).1,
        ⟨((TcpLink.readExact count turns).run state).2, turns⟩) := rfl
  refine ⟨⟨next, turns⟩, ?_, hahead, hsteady, sent ++ acks, ?_, ?_⟩
  · rw [hzoom, TcpLink.readExact, hrun, List.nil_append]
  · change next.1.written = _
    rw [hacks, ← List.append_assoc]
    exact congrArg (· ++ acks) hwritten
  · change received ports first (sent ++ acks) = some (next.2.sendSeq, _)
    rw [received, assembled_quiet hquiet, hnumber]
    exact hreceived

/-- A segment of a write is received. -/
theorem sendSegment_carried {turns : Nat} {piece : Bytes}
    {state : ScriptedTransport × TcpLink} {memory : MemoryByteStream}
    (hpiece : piece ≠ []) (hlength : piece.length ≤ state.2.mss)
    (h : Carried ports base first ⟨state, turns⟩ memory) :
    ∃ next, (TcpLink.sendSegment TcpAck piece).run state = (.ok (), next) ∧
      Carried ports base first ⟨next, turns⟩
        { memory with written := memory.written ++ piece } := by
  obtain ⟨⟨hclean, hopen, packets, payloads, last, hstands, hstream, hturns, hrest⟩,
    hsized, sent, hwritten, hreceived⟩ := h
  have hspan : TcpLink.sequenceLength TcpAck piece = UInt32.ofNat piece.length :=
    UInt32.add_zero _
  have hsegment := packetPiece_carriesSegment
    (@TcpLink.carriesSegment_segmentPacket state.2 piece (by
      obtain ⟨hmtu, hmss⟩ := hsized
      dsimp only at hmtu hmss
      omega)) hpiece
  rw [hstands.ports] at hsegment
  refine ⟨_, TcpLink.run_sendSegment TcpAck piece hstands.writes, ⟨hclean, hopen,
    packets, payloads, last, ⟨hstands.facing.of_eq rfl rfl, hstands.ports,
      hstands.writes, hstands.offset⟩, hstream, hturns, hrest⟩, hsized, _, ?_,
    (assembled_next hreceived hsegment).trans ?_⟩
  · change state.1.written ++ [_] = _
    rw [show state.1.written = base ++ sent from hwritten, List.append_assoc]
  · rw [← hspan]
    rfl

theorem simulates_write (data : Bytes) :
    Action.Simulates (Carried ports base first) (ByteStream.write data)
      (ByteStream.write data) := by
  rintro ⟨state, turns⟩ memory ⟨⟩ next' h hmemory
  rw [MemoryByteStream.run_write] at hmemory
  obtain rfl := (Prod.mk.inj hmemory).2
  obtain ⟨next, hrun, hnext⟩ := @run_sendPieces_ok _ _
    (fun sofar state => Carried ports base first ⟨state, turns⟩
      { memory with written := memory.written ++ sofar })
    (fun state => state.2.mss) (TcpLink.sendSegment TcpAck)
    (fun _ _ hstate => by
      obtain ⟨hmtu, hmss⟩ := hstate.sized
      dsimp only at hmtu hmss
      omega)
    (fun sofar piece state hstate hpiece hlength => by
      have hsent := sendSegment_carried hpiece hlength hstate
      rwa [List.append_assoc] at hsent)
    data.length [] data state (Nat.le_refl _) (by rwa [List.append_nil])
  have hwrite : (ByteStream.write data).run
      (⟨state, turns⟩ : TunnelLink ScriptedTransport) =
      (.ok (), ⟨next, turns⟩) := by
    change (((TcpLink.write data).run state).1,
      (⟨((TcpLink.write data).run state).2, turns⟩ : TunnelLink _)) = _
    rw [TcpLink.write, TcpLink.writeLoop_eq_sendPieces, hrun]
  exact ⟨_, hwrite, hnext⟩

/-- A link carries the bytes of its peer, and takes those of its caller to it, as the
stream in memory does. -/
theorem carries : CarriesBytes (Carried ports base first) where
  readExact := simulates_readExact
  write := simulates_write

/-- The same, with the turns of a read, which no operation changes. -/
theorem carries_turns (turns : Nat) :
    CarriesBytes fun link memory =>
      link.turns = turns ∧ Carried ports base first link memory where
  readExact count := by
    rintro link memory a next' ⟨rfl, hcarried⟩ hrun
    obtain ⟨next, hread, hnext⟩ := simulates_readExact count hcarried hrun
    have hkept : ((ByteStream.readExact count).run link).2.turns = link.turns := rfl
    rw [hread] at hkept
    exact ⟨next, hread, hkept, hnext⟩
  write data := by
    rintro link memory a next' ⟨rfl, hcarried⟩ hrun
    obtain ⟨next, hwrite, hnext⟩ := simulates_write data hcarried hrun
    have hkept : ((ByteStream.write data).run link).2.turns = link.turns := rfl
    rw [hwrite] at hkept
    exact ⟨next, hwrite, hkept, hnext⟩

/-! ## A link that was connected -/

/-- A tunnel that answers the SYN of a link, whatever it carries before the answer,
and then has these packets. -/
structure Answers (link : TcpLink) (port : UInt16) (next : UInt32)
    (packets : List Bytes) (fuel : Nat) (transport : ScriptedTransport) : Prop where
  clean : transport.Clean
  writes : transport.writes = []
  stream : ∃ ignored synAck tcp,
    (∀ packet ∈ ignored ++ synAck :: packets, IsIpv6Packet packet) ∧
    transport.remaining = (ignored ++ synAck :: packets).flatten ∧
    (∀ packet ∈ ignored, TcpLink.Ignored ⟨link.sourcePort, port⟩ packet) ∧
    TcpLink.IsSynAck ⟨link.sourcePort, port⟩ synAck tcp ∧
    tcp.sequence + 1 = next ∧ (ignored ++ synAck :: packets).length < fuel

theorem carried_connect {clientAddress address : Bytes}
    {mtu nextSourcePort nextPort port : UInt16} {link : TcpLink}
    {destination : Ipv6Address} {transport : ScriptedTransport} {next : UInt32}
    {packets payloads : List Bytes} {last : Bytes} {fuel turns : Nat}
    (hlink : (TcpLink.openLink clientAddress mtu).run nextSourcePort =
      (.ok link, nextPort))
    (haddress : parseIpv6 address = .ok destination)
    (hanswers : Answers link port next packets fuel transport)
    (hstream : TcpLink.InOrder ⟨link.sourcePort, port⟩ true next packets
      (payloads ++ [last]))
    (hturns : packets.length < turns) :
    ∃ state, (TcpLink.connect fuel address port).run (transport, link) =
        (.ok (), state) ∧
      Carried ⟨link.sourcePort, port⟩ state.1.written state.2.sendSeq
        ⟨state, turns⟩ ⟨payloads.flatten, []⟩ := by
  obtain ⟨hclean, hwrites, ignored, synAck, tcp, hwhole, hremaining, hignored,
    hsynAck, rfl, hfuel⟩ := hanswers
  obtain ⟨_, state, hrun, hconnected, hkept⟩ :=
    ((TcpLink.triple_connect (TcpLink.fresh_openLink hlink) haddress hwrites hwhole
      hremaining hignored hsynAck).imp_post (fun _ _ h => h)
      fun e next h => h hclean hfuel).exists_ok rfl
  have hsized := ((TcpLink.Used.opened hlink).connect transport fuel address
    port).sized
  rw [hrun] at hsized
  refine ⟨state, hrun, ⟨hkept hclean, hconnected.opened, packets, payloads, last,
    hconnected.stands, by rw [hconnected.recvSeq]; exact hstream, hturns, ?_⟩,
    hsized, [], (List.append_nil _).symm, rfl⟩
  rw [hconnected.unread, List.nil_append]

end Carried

end TunnelLink

end Ioscpp
