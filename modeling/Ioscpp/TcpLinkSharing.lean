import Ioscpp.TcpLinkKeeps
import Ioscpp.TcpLinkRead

/-!
# Links that share a tunnel

Every link has a framer of its own, and all the links of a tunnel read from the
one byte stream.  What one framer read ahead no other sees, so the packets stay
whole if a framer only reads from the tunnel while no other one holds a part of a
packet.

## Main results

- `Aligned.readPacket_ahead`, `Aligned.readPacket_alone`: a use of one framer keeps
  the packets whole.
- `aligned_of_careful`: so does every run of careful uses.
- `reached_of_throughFramer`: an operation of a link is such a run.
-/

namespace Ioscpp

open Ioscpp.Support
open Ioscpp.Protocol

/-! ## Packets and parts of packets -/

/-- Bytes that are whole packets. -/
def ArePackets (bytes : Bytes) : Prop :=
  ∃ packets : List Bytes, (∀ packet ∈ packets, IsIpv6Packet packet) ∧
    bytes = packets.flatten

/-- The length of a packet stands in its header, so no packet is the front of
another. -/
theorem Protocol.IsIpv6Packet.eq_of_append {first second front back : Bytes}
    (h : IsIpv6Packet first) (h' : IsIpv6Packet second)
    (heq : first ++ front = second ++ back) : first = second := by
  have hheader : (first.drop 4).take 2 = (second.drop 4).take 2 := by
    have hfirst := h.header
    have hsecond := h'.header
    have hcut : ((first ++ front).drop 4).take 2 =
        ((second ++ back).drop 4).take 2 := by
      rw [heq]
    rwa [List.drop_append_of_le_length (by omega),
      List.take_append_of_le_length (by rw [List.length_drop]; omega),
      List.drop_append_of_le_length (by omega),
      List.take_append_of_le_length (by rw [List.length_drop]; omega)] at hcut
  have hlength : first.length = second.length := by
    rw [h.length, h'.length, hheader]
  exact List.append_inj_left heq hlength

/-- `part` is the front of the first of the packets that are to come, and not
the whole of it. -/
def IsPart (part : Bytes) (later : List Bytes) : Prop :=
  part = [] ∨ ∃ packet rest, later = packet :: rest ∧
    ∃ missing, missing ≠ [] ∧ packet = part ++ missing

theorem IsPart.eq_nil {part : Bytes} (h : IsPart part []) : part = [] := by
  rcases h with hnil | ⟨packet, rest, hlater, -⟩
  · exact hnil
  · cases hlater

/-- The front of packets is some of them whole, and a part of the next. -/
theorem split_flatten {packets : List Bytes} {front back : Bytes}
    (h : front ++ back = packets.flatten) :
    ∃ whole later part, packets = whole ++ later ∧ front = whole.flatten ++ part ∧
      part ++ back = later.flatten ∧ IsPart part later := by
  induction packets generalizing front with
  | nil =>
      have hfront := (List.append_eq_nil_iff.mp h).1
      exact ⟨[], [], [], rfl, hfront, by rw [← hfront]; exact h, .inl rfl⟩
  | cons packet rest ih =>
      rw [List.flatten_cons, List.append_eq_append_iff] at h
      rcases h with ⟨missing, hpacket, hback⟩ | ⟨more, hfront, hrest⟩
      · by_cases hnil : missing = []
        · -- the cut is behind the packet
          subst hnil
          rw [List.append_nil] at hpacket
          obtain ⟨whole, later, part, hsplit, hempty, hlater, hpart⟩ :=
            ih (show [] ++ back = rest.flatten from hback)
          refine ⟨packet :: whole, later, part, ?_, ?_, hlater, hpart⟩
          · rw [hsplit]
            rfl
          · rw [List.flatten_cons, List.append_assoc, ← hempty, List.append_nil,
              hpacket]
        · refine ⟨[], packet :: rest, front, rfl, rfl, ?_,
            .inr ⟨packet, rest, rfl, missing, hnil, hpacket⟩⟩
          rw [List.flatten_cons, hpacket, hback, List.append_assoc]
      · obtain ⟨whole, later, part, hsplit, hmore, hlater, hpart⟩ := ih hrest.symm
        refine ⟨packet :: whole, later, part, ?_, ?_, hlater, hpart⟩
        · rw [hsplit]
          rfl
        · rw [hfront, hmore, List.flatten_cons, List.append_assoc]

/-- Whole packets and a part of one are only whole packets if there is no part. -/
theorem eq_nil_of_arePackets {held later : List Bytes} {part : Bytes}
    (hheld : ∀ packet ∈ held, IsIpv6Packet packet)
    (hlater : ∀ packet ∈ later, IsIpv6Packet packet) (hpart : IsPart part later)
    (h : ArePackets (held.flatten ++ part)) : part = [] := by
  obtain ⟨packets, hpackets, heq⟩ := h
  induction held generalizing packets with
  | nil =>
      rcases hpart with hnil | ⟨packet, rest, rfl, missing, hmissing, hpacket⟩
      · exact hnil
      · by_contra hne
        rw [List.flatten_nil, List.nil_append] at heq
        cases packets with
        | nil => exact hne heq
        | cons first others =>
            have hfirst := hpackets first List.mem_cons_self
            have hsecond := hlater packet List.mem_cons_self
            have hfront : first ++ (others.flatten ++ missing) = packet ++ [] := by
              rw [hpacket, heq, List.flatten_cons, List.append_nil,
                List.append_assoc]
            have hsame := hfirst.eq_of_append hsecond hfront
            rw [hsame] at hfront
            have hempty := List.append_cancel_left hfront
            exact hmissing (List.append_eq_nil_iff.mp hempty).2
  | cons packet held ih =>
      have hpacket := hheld packet List.mem_cons_self
      cases packets with
      | nil =>
          rw [List.flatten_cons, List.append_assoc] at heq
          have hnil := (List.append_eq_nil_iff.mp heq).1
          have hforty := hpacket.header
          rw [hnil] at hforty
          cases hforty
      | cons first others =>
          rw [List.flatten_cons, List.flatten_cons, List.append_assoc] at heq
          have hsame := hpacket.eq_of_append
            (hpackets first List.mem_cons_self) heq
          rw [hsame] at heq
          exact ih (fun other hmem => hheld other (List.mem_cons_of_mem _ hmem))
            others (fun other hmem => hpackets other (List.mem_cons_of_mem _ hmem))
            (List.append_cancel_left heq)

/-! ## A packet that was read ahead -/

namespace Protocol.Ipv6Framer

variable {τ : Type} [Transport τ] {transport : τ} {framer : Ipv6Framer}

theorem ahead_compact (framer : Ipv6Framer) : framer.compact.ahead = framer.ahead :=
  List.drop_zero

/-- Bytes that were read ahead are not read again. -/
theorem run_fill_of_le {count : Nat} (h : count ≤ framer.ahead.length) :
    (fill count).run (transport, framer) = (.ok (), (transport, framer.compact)) := by
  have hbuffered : (Buffered.fill closedMidPacket kReadSize count).run
      (transport, framer.compact.buffer) =
        (.ok (), (transport, framer.compact.buffer)) := by
    have hle : count ≤ framer.compact.buffer.length := h
    unfold Buffered.fill
    rw [Action.run_bind_ok (Action.run_get _), Nat.sub_eq_zero_of_le hle]
    unfold Buffered.fillLoop
    rw [Action.run_bind_ok (Action.run_get _), if_pos hle]
    rfl
  unfold fill
  rw [Action.run_bind_ok (Action.run_modify _ _), Action.run_zoom]
  dsimp only
  rw [hbuffered]

/-- The slice at the front of what was read ahead. -/
theorem slice_compact {count : Nat} (h : count ≤ framer.ahead.length) :
    (slice framer.compact.buffer framer.compact.offset count : Result Bytes) =
      .ok (framer.ahead.take count) := by
  have hle : framer.compact.offset + count ≤ framer.compact.buffer.length := by
    show 0 + count ≤ framer.ahead.length
    omega
  rw [slice_of_le hle]
  rfl

/-- A packet that was read ahead is returned without a read. -/
theorem run_readPacket_of_ahead {packet rest : Bytes} (h : IsIpv6Packet packet)
    (hsize : packet.length ≤ framer.maxPacketSize)
    (hahead : framer.ahead = packet ++ rest) :
    ∃ next, readPacket.run (transport, framer) = (.ok packet, (transport, next)) ∧
      next.ahead = rest ∧ next.maxPacketSize = framer.maxPacketSize := by
  have hheader : kIpv6HeaderSize ≤ packet.length := h.header
  have hlength : packet.length ≤ framer.ahead.length := by
    rw [hahead, List.length_append]
    omega
  have hforty : kIpv6HeaderSize ≤ framer.ahead.length := hheader.trans hlength
  have hslice := slice_compact hforty
  rw [hahead, List.take_append_of_le_length hheader] at hslice
  obtain ⟨header, hdecode, hversion, htotal⟩ :
      ∃ header, Ipv6Header.decode (packet.take kIpv6HeaderSize) = .ok header ∧
        header.version = 6 ∧
        kIpv6HeaderSize + header.payloadLength.toNat = packet.length := h.decode
  have hcompact : framer.compact.compact = framer.compact := by
    unfold compact
    rw [List.drop_zero]
  have hfill := @run_fill_of_le τ _ transport framer.compact packet.length
    (by rwa [ahead_compact])
  rw [hcompact] at hfill
  have hfits : ¬ framer.compact.maxPacketSize < packet.length :=
    Nat.not_lt.mpr hsize
  have hpacket := slice_compact hlength
  rw [hahead, List.take_left' rfl] at hpacket
  refine ⟨{ framer.compact with
    offset := framer.compact.offset + packet.length }, ?_, ?_, rfl⟩
  · unfold readPacket
    rw [Action.run_bind_ok (run_fill_of_le hforty),
      Action.run_bind_ok (Action.run_get _)]
    dsimp only
    rw [hslice, Action.run_bind_ok (Action.run_lift _ _), hdecode,
      Action.run_bind_ok (Action.run_lift _ _), if_neg (not_not_intro hversion),
      htotal, if_neg hfits, Action.run_bind_ok hfill,
      Action.run_bind_ok (Action.run_get _)]
    dsimp only
    rw [hpacket, Action.run_bind_ok (Action.run_lift _ _),
      Action.run_bind_ok (Action.run_modify _ _)]
    rfl
  · show framer.ahead.drop (0 + packet.length) = rest
    rw [hahead, Nat.zero_add, List.drop_left]

end Protocol.Ipv6Framer

/-! ## The tunnel and its links -/

/-- A tunnel, and the framers of its links in the order in which they were
opened. -/
structure SharedTunnel where
  transport : ScriptedTransport
  framers : List Ipv6Framer

/-- What is done with a tunnel: a link is opened over it, or one of its links
reads or writes a packet. -/
inductive TunnelUse where
  | openLink
  | readPacket (link : Nat)
  | writePacket (link : Nat) (packet : Bytes)
  deriving DecidableEq, Repr

namespace SharedTunnel

/-- A call of a link's framer. -/
def onFramer {α : Type} (link : Nat)
    (x : Action Error (ScriptedTransport × Ipv6Framer) α) (tunnel : SharedTunnel) :
    Option α × SharedTunnel :=
  match tunnel.framers[link]? with
  | none => (none, tunnel)
  | some framer =>
      let (result, next) := x.run (tunnel.transport, framer)
      (result.toOption, ⟨next.1, tunnel.framers.set link next.2⟩)

/-- The packet that a use returns, with its link. -/
def perform (tunnel : SharedTunnel) : TunnelUse → List (Nat × Bytes) × SharedTunnel
  | .openLink => ([], { tunnel with framers := tunnel.framers ++ [{}] })
  | .readPacket link =>
      let (packet, next) := onFramer link Ipv6Framer.readPacket tunnel
      (packet.toList.map (link, ·), next)
  | .writePacket link packet =>
      ([], (onFramer link (Ipv6Framer.writePacket packet) tunnel).2)

/-- The packets that uses return, in their order. -/
def performAll : List TunnelUse → SharedTunnel → List (Nat × Bytes) × SharedTunnel
  | [], tunnel => ([], tunnel)
  | use :: rest, tunnel =>
      let (front, next) := tunnel.perform use
      let (back, last) := performAll rest next
      (front ++ back, last)

theorem performAll_append (front back : List TunnelUse) (tunnel : SharedTunnel) :
    performAll (front ++ back) tunnel =
      ((performAll front tunnel).1 ++
          (performAll back (performAll front tunnel).2).1,
        (performAll back (performAll front tunnel).2).2) := by
  induction front generalizing tunnel with
  | nil => rfl
  | cons use rest ih =>
      simp only [List.cons_append, performAll, ih, List.append_assoc]

/-- The packets of one link. -/
def ofLink (link : Nat) (owned : List (Nat × Bytes)) : List Bytes :=
  (owned.filter (·.1 = link)).map (·.2)

theorem ofLink_append (link : Nat) (front back : List (Nat × Bytes)) :
    ofLink link (front ++ back) = ofLink link front ++ ofLink link back := by
  simp only [ofLink, List.filter_append, List.map_append]

theorem ofLink_self (link : Nat) (packets : List Bytes) :
    ofLink link (packets.map (link, ·)) = packets := by
  simp [ofLink, List.filter_map, Function.comp_def]

theorem ofLink_of_ne {link other : Nat} (h : other ≠ link)
    (packets : List Bytes) : ofLink other (packets.map (link, ·)) = [] := by
  simp [ofLink, List.filter_map, Function.comp_def, h.symm]

/-- What the framer of a link has read and not returned. -/
def readAhead (tunnel : SharedTunnel) (link : Nat) : Bytes :=
  (tunnel.framers[link]?.map Ipv6Framer.ahead).getD []

/-- Each packet that arrived was seen whole by one framer.  `owned` are these
packets, each with its link, and `later` the others; the link `holder` has read
the front `part` of the first of them.  A link has returned the first of its
packets, and its framer holds the others whole. -/
structure Shared (packets : List Bytes) (returned : List (Nat × Bytes))
    (tunnel : SharedTunnel) (owned : List (Nat × Bytes)) (later : List Bytes)
    (holder : Nat) (part : Bytes) (held : Nat → List Bytes) : Prop where
  packets_eq : packets = owned.map (·.2) ++ later
  rest : part ++ tunnel.transport.remaining = later.flatten
  isPart : IsPart part later
  owned_eq : ∀ link, ofLink link owned = ofLink link returned ++ held link
  ahead : ∀ link, tunnel.readAhead link =
    (held link).flatten ++ if holder = link then part else []

/-- Every packet that arrived is seen whole by exactly one framer: it was returned by
that framer's link, or stands whole in what the framer has read ahead. -/
def Aligned (packets : List Bytes) (returned : List (Nat × Bytes))
    (tunnel : SharedTunnel) : Prop :=
  ∃ owned later holder part held,
    Shared packets returned tunnel owned later holder part held

/-- A use that keeps packets whole: a link that has no whole packet reads from the
tunnel, and no other link has read a part of a packet. -/
def Careful (tunnel : SharedTunnel) : TunnelUse → Prop
  | .readPacket link =>
      (∃ packet rest, IsIpv6Packet packet ∧
        tunnel.readAhead link = packet ++ rest) ∨
      ∀ other, other ≠ link → ArePackets (tunnel.readAhead other)
  | _ => True

/-! ## One call -/

/-- What a call makes of the packets: those of `later` that it read whole are the
framer's, and the first of all the framer's is what it returns. -/
structure Called (held later : List Bytes) (returned : Option Bytes)
    (framer : Ipv6Framer) (next : ScriptedTransport × Ipv6Framer)
    (arrived later' : List Bytes) (part : Bytes) (held' : List Bytes) : Prop where
  later_eq : later = arrived ++ later'
  rest : part ++ next.1.remaining = later'.flatten
  isPart : IsPart part later'
  held_eq : held ++ arrived = returned.toList ++ held'
  ahead : next.2.ahead = held'.flatten ++ part
  size : next.2.maxPacketSize = framer.maxPacketSize

variable {transport : ScriptedTransport} {framer : Ipv6Framer}
  {held later : List Bytes} {part : Bytes}

theorem called_readPacket
    (hheld : ∀ packet ∈ held, IsIpv6Packet packet)
    (hlater : ∀ packet ∈ later, IsIpv6Packet packet)
    (hsize : framer.maxPacketSize = kIpv6MaxPacketSize)
    (hahead : framer.ahead = held.flatten ++ part)
    (hrest : part ++ transport.remaining = later.flatten)
    {result : Result Bytes} {next : ScriptedTransport × Ipv6Framer}
    (hrun : Ipv6Framer.readPacket.run (transport, framer) = (result, next)) :
    ∃ arrived later' part' held', Called held later result.toOption framer next
      arrived later' part' held' := by
  have hpackets : ∀ packet ∈ held ++ later, IsIpv6Packet packet ∧
      packet.length ≤ (transport, framer).2.maxPacketSize := by
    intro packet hmem
    have hpacket : IsIpv6Packet packet :=
      (List.mem_append.mp hmem).elim (hheld packet) (hlater packet)
    exact ⟨hpacket, hsize ▸ hpacket.length_le⟩
  have hpending : Ipv6Framer.pending (transport, framer) =
      (held ++ later).flatten := by
    show framer.ahead ++ transport.remaining = _
    rw [hahead, List.append_assoc, hrest, List.flatten_append]
  have hcall := Ipv6Framer.triple_readPacket hpackets (by rw [hpending])
  -- the bytes that the call read are cut into the packets that they complete
  have hcut : ∀ {bytes : Bytes}, ScriptedTransport.Delivers transport next.1 bytes →
      ∃ arrived later' part', later = arrived ++ later' ∧
        part' ++ next.1.remaining = later'.flatten ∧ IsPart part' later' ∧
        framer.ahead ++ transport.remaining =
          ((held ++ arrived).flatten ++ part') ++ next.1.remaining := by
    intro bytes hdelivers
    have hbytes : (part ++ bytes) ++ next.1.remaining = later.flatten := by
      rw [List.append_assoc, ← hdelivers.remaining, hrest]
    obtain ⟨arrived, later', part', hsplit, hfront, hrest', hpart'⟩ :=
      split_flatten hbytes
    refine ⟨arrived, later', part', hsplit, hrest', hpart', ?_⟩
    calc framer.ahead ++ transport.remaining
        = held.flatten ++ ((part ++ bytes) ++ next.1.remaining) := by
          rw [hahead, hdelivers.remaining]
          simp only [List.append_assoc]
      _ = ((held ++ arrived).flatten ++ part') ++ next.1.remaining := by
          rw [hfront, List.flatten_append]
          simp only [List.append_assoc]
  cases result with
  | error e =>
      have hfailed := hcall.of_error rfl hrun
      obtain ⟨bytes, hdelivers⟩ := hfailed.moved.delivers
      obtain ⟨arrived, later', part', hsplit, hrest', hpart', hbefore⟩ :=
        hcut hdelivers
      have hpend : next.2.ahead ++ next.1.remaining =
          framer.ahead ++ transport.remaining := hfailed.pending
      rw [hbefore] at hpend
      exact ⟨arrived, later', part', held ++ arrived, hsplit, hrest', hpart',
        rfl, List.append_cancel_right hpend, hfailed.moved.size⟩
  | ok packet =>
      have hreturned := hcall.of_ok rfl hrun
      obtain ⟨bytes, hdelivers⟩ := hreturned.moved.delivers
      obtain ⟨arrived, later', part', hsplit, hrest', hpart', hbefore⟩ :=
        hcut hdelivers
      obtain ⟨others, hfirst⟩ := hreturned.first
      have hpend : framer.ahead ++ transport.remaining =
          packet ++ (next.2.ahead ++ next.1.remaining) := hreturned.pending
      rw [hbefore, ← List.append_assoc packet] at hpend
      have hsame := List.append_cancel_right hpend
      have hforty := (hpackets packet (by
        rw [hfirst]
        exact List.mem_cons_self)).1.header
      rw [hsplit, ← List.append_assoc] at hfirst
      rcases hall : held ++ arrived with _ | ⟨first, held'⟩
      · -- no packet is whole: the one that was returned would be a part
        exfalso
        rw [hall] at hfirst hsame
        rw [List.nil_append] at hfirst
        have hlength := congrArg List.length hsame
        rw [List.flatten_nil, List.nil_append, List.length_append] at hlength
        rcases hpart' with hnil | ⟨first, rest, hlater', missing, hne, hpacket⟩
        · rw [hnil, List.length_nil] at hlength
          omega
        · rw [hfirst] at hlater'
          obtain ⟨rfl, -⟩ := List.cons.inj hlater'
          have hmissing := List.length_pos_iff.mpr hne
          rw [hpacket, List.length_append] at hlength
          omega
      · rw [hall] at hfirst hsame
        obtain ⟨rfl, -⟩ := List.cons.inj hfirst
        rw [List.flatten_cons, List.append_assoc] at hsame
        exact ⟨arrived, later', part', held', hsplit, hrest', hpart', hall,
          (List.append_cancel_left hsame).symm, hreturned.moved.size⟩

/-! ## One use -/

/-- The invariant of careful runs: the packets are aligned, and the framers take
every packet. -/
structure Invariant (packets : List Bytes) (returned : List (Nat × Bytes))
    (tunnel : SharedTunnel) : Prop where
  aligned : Aligned packets returned tunnel
  sizes : ∀ framer ∈ tunnel.framers, framer.maxPacketSize = kIpv6MaxPacketSize

variable {packets : List Bytes} {returned : List (Nat × Bytes)}
  {tunnel : SharedTunnel}

theorem readAhead_of_some {link : Nat} (h : tunnel.framers[link]? = some framer) :
    tunnel.readAhead link = framer.ahead := by
  unfold readAhead
  rw [h]
  rfl

/-- A call changes what its own link has read, and nothing of the others. -/
theorem readAhead_set {link : Nat} (h : tunnel.framers[link]? = some framer)
    (next : ScriptedTransport × Ipv6Framer) (other : Nat) :
    (SharedTunnel.mk next.1 (tunnel.framers.set link next.2)).readAhead other =
      if other = link then next.2.ahead else tunnel.readAhead other := by
  have hlt := (List.getElem?_eq_some_iff.mp h).1
  unfold readAhead
  by_cases heq : other = link
  · subst heq
    rw [if_pos rfl]
    dsimp only
    rw [List.getElem?_set_self hlt]
    rfl
  · rw [if_neg heq]
    dsimp only
    rw [List.getElem?_set_ne (Ne.symm heq)]

theorem onFramer_of_some {α : Type} {link : Nat}
    {x : Action Error (ScriptedTransport × Ipv6Framer) α}
    (h : tunnel.framers[link]? = some framer) :
    onFramer link x tunnel =
      ((x.run (tunnel.transport, framer)).1.toOption,
        ⟨(x.run (tunnel.transport, framer)).2.1,
          tunnel.framers.set link (x.run (tunnel.transport, framer)).2.2⟩) := by
  unfold onFramer
  rw [h]

/-- The sizes are kept when a call keeps its own framer's. -/
theorem sizes_set {link : Nat} {next : Ipv6Framer}
    (hsizes : ∀ framer ∈ tunnel.framers,
      framer.maxPacketSize = kIpv6MaxPacketSize)
    (h : tunnel.framers[link]? = some framer)
    (hnext : next.maxPacketSize = framer.maxPacketSize) :
    ∀ other ∈ tunnel.framers.set link next,
      other.maxPacketSize = kIpv6MaxPacketSize := by
  intro other hmem
  rcases List.mem_or_eq_of_mem_set hmem with hold | rfl
  · exact hsizes other hold
  · rw [hnext]
    exact hsizes framer (List.mem_of_getElem? h)

/-- The packets that a link holds are among all. -/
theorem Shared.isIpv6Packet_held {owned : List (Nat × Bytes)} {later : List Bytes}
    {holder : Nat} {part : Bytes} {held : Nat → List Bytes}
    (h : Shared packets returned tunnel owned later holder part held)
    (hpackets : ∀ packet ∈ packets, IsIpv6Packet packet) (link : Nat) :
    ∀ packet ∈ held link, IsIpv6Packet packet := by
  intro packet hmem
  apply hpackets
  have howned : packet ∈ ofLink link owned := by
    rw [h.owned_eq link]
    exact List.mem_append_right _ hmem
  unfold ofLink at howned
  obtain ⟨entry, hentry, rfl⟩ := List.mem_map.mp howned
  rw [h.packets_eq]
  exact List.mem_append_left _
    (List.mem_map_of_mem (List.mem_of_mem_filter hentry))

theorem Shared.isIpv6Packet_later {owned : List (Nat × Bytes)} {later : List Bytes}
    {holder : Nat} {part : Bytes} {held : Nat → List Bytes}
    (h : Shared packets returned tunnel owned later holder part held)
    (hpackets : ∀ packet ∈ packets, IsIpv6Packet packet) :
    ∀ packet ∈ later, IsIpv6Packet packet := by
  intro packet hmem
  apply hpackets
  rw [h.packets_eq]
  exact List.mem_append_right _ hmem

theorem readAhead_openLink (tunnel : SharedTunnel) (link : Nat) :
    (SharedTunnel.mk tunnel.transport
        (tunnel.framers ++ [({} : Ipv6Framer)])).readAhead link =
      tunnel.readAhead link := by
  unfold readAhead
  dsimp only
  rcases Nat.lt_trichotomy link tunnel.framers.length with hlt | rfl | hlt
  · rw [List.getElem?_append_left hlt]
  · rw [List.getElem?_concat_length, List.getElem?_eq_none (Nat.le_refl _)]
    rfl
  · rw [List.getElem?_eq_none (by rw [List.length_append]; exact hlt),
      List.getElem?_eq_none (by omega)]

/-- A tunnel that delivers the same, whose framers have read the same, is as
aligned. -/
theorem Aligned.of_eq {next : SharedTunnel} (h : Aligned packets returned tunnel)
    (hremaining : next.transport.remaining = tunnel.transport.remaining)
    (hahead : ∀ link, next.readAhead link = tunnel.readAhead link) :
    Aligned packets returned next := by
  obtain ⟨owned, later, holder, part, held, h⟩ := h
  refine ⟨owned, later, holder, part, held, h.packets_eq, ?_, h.isPart, h.owned_eq,
    ?_⟩
  · rw [hremaining, h.rest]
  · intro link
    rw [hahead, h.ahead]

/-- A call that returns a packet that was read before: the packet is then one that its
link has returned, and nothing is read from the tunnel. -/
theorem Aligned.readPacket_ahead (h : Aligned packets returned tunnel)
    (hpackets : ∀ packet ∈ packets, IsIpv6Packet packet) {link : Nat}
    (hframer : tunnel.framers[link]? = some framer) {packet rest : Bytes}
    (hpacket : IsIpv6Packet packet) (hahead : framer.ahead = packet ++ rest)
    {next : Ipv6Framer} (hnext : next.ahead = rest) :
    Aligned packets (returned ++ [(link, packet)])
      ⟨tunnel.transport, tunnel.framers.set link next⟩ := by
  obtain ⟨owned, later, holder, part, held, h⟩ := h
  have hlink := h.ahead link
  rw [readAhead_of_some hframer, hahead] at hlink
  cases hheld : held link with
  | nil =>
      -- the packet would be the front of the part of another
      exfalso
      rw [hheld, List.flatten_nil, List.nil_append] at hlink
      have hforty := hpacket.header
      have hlength := congrArg List.length hlink
      rw [List.length_append] at hlength
      by_cases hholder : holder = link
      · rw [if_pos hholder] at hlink hlength
        rcases h.isPart with hnil | ⟨first, others, hlater, missing, hne, hfirst⟩
        · rw [hnil, List.length_nil] at hlength
          omega
        · have hmem : first ∈ later := by
            rw [hlater]
            exact List.mem_cons_self
          have hfront : packet ++ (rest ++ missing) = first ++ [] := by
            rw [hfirst, ← hlink, List.append_nil, List.append_assoc]
          have hsame := hpacket.eq_of_append
            (h.isIpv6Packet_later hpackets first hmem) hfront
          rw [hsame] at hfront
          have hnil := List.append_cancel_left hfront
          exact hne (List.append_eq_nil_iff.mp hnil).2
      · rw [if_neg hholder, List.length_nil] at hlength
        omega
  | cons first others =>
      have hfirst : IsIpv6Packet first := by
        apply h.isIpv6Packet_held hpackets link
        rw [hheld]
        exact List.mem_cons_self
      rw [hheld, List.flatten_cons, List.append_assoc] at hlink
      have hsame := hpacket.eq_of_append hfirst hlink
      subst hsame
      have hrest := List.append_cancel_left hlink
      refine ⟨owned, later, holder, part, Function.update held link others,
        h.packets_eq, h.rest, h.isPart, ?_, ?_⟩
      · intro other
        rw [h.owned_eq other, ofLink_append]
        by_cases heq : other = link
        · subst heq
          rw [hheld, Function.update_self, List.append_assoc]
          exact congrArg (_ ++ ·) (congrArg (· ++ others)
            (ofLink_self other [packet]).symm)
        · rw [Function.update_of_ne heq,
            show ofLink other [(link, packet)] = [] from ofLink_of_ne heq [packet],
            List.append_nil]
      · intro other
        rw [readAhead_set hframer (tunnel.transport, next)]
        by_cases heq : other = link
        · subst heq
          rw [if_pos rfl, Function.update_self]
          dsimp only
          rw [hnext, hrest]
        · rw [if_neg heq, Function.update_of_ne heq, h.ahead other]

/-- A call that reads from the tunnel, while no other link has a part of a
packet. -/
theorem Aligned.readPacket_alone (h : Aligned packets returned tunnel)
    (hpackets : ∀ packet ∈ packets, IsIpv6Packet packet) {link : Nat}
    (hframer : tunnel.framers[link]? = some framer)
    (hsize : framer.maxPacketSize = kIpv6MaxPacketSize)
    (hothers : ∀ other, other ≠ link → ArePackets (tunnel.readAhead other))
    {result : Result Bytes} {next : ScriptedTransport × Ipv6Framer}
    (hrun : Ipv6Framer.readPacket.run (tunnel.transport, framer) =
      (result, next)) :
    Aligned packets (returned ++ result.toOption.toList.map (link, ·))
        ⟨next.1, tunnel.framers.set link next.2⟩ ∧
      next.2.maxPacketSize = framer.maxPacketSize := by
  obtain ⟨owned, later, holder, part, held, h⟩ := h
  have hlater := h.isIpv6Packet_later hpackets
  have hpart : holder ≠ link → part = [] := by
    intro hne
    have hholder := hothers holder hne
    rw [h.ahead holder, if_pos rfl] at hholder
    exact eq_nil_of_arePackets (h.isIpv6Packet_held hpackets holder) hlater
      h.isPart hholder
  have hown : (if holder = link then part else []) = part := by
    by_cases heq : holder = link
    · rw [if_pos heq]
    · rw [if_neg heq, hpart heq]
  have hlink := h.ahead link
  rw [readAhead_of_some hframer, hown] at hlink
  obtain ⟨arrived, later', part', held', hcalled⟩ := called_readPacket
    (h.isIpv6Packet_held hpackets link) hlater hsize hlink h.rest hrun
  refine ⟨⟨owned ++ arrived.map (link, ·), later', link, part',
    Function.update held link held', ?_, hcalled.rest, hcalled.isPart, ?_, ?_⟩,
    hcalled.size⟩
  · rw [h.packets_eq, hcalled.later_eq, List.map_append, List.map_map,
      List.append_assoc]
    exact congrArg (_ ++ ·) (congrArg (· ++ later') (List.map_id arrived).symm)
  · intro other
    rw [ofLink_append, ofLink_append, h.owned_eq other]
    by_cases heq : other = link
    · subst heq
      rw [ofLink_self, ofLink_self, Function.update_self, List.append_assoc,
        hcalled.held_eq, List.append_assoc]
    · rw [ofLink_of_ne heq, ofLink_of_ne heq, Function.update_of_ne heq,
        List.append_nil, List.append_nil]
  · intro other
    rw [readAhead_set hframer next]
    by_cases heq : other = link
    · subst heq
      rw [if_pos rfl, if_pos rfl, Function.update_self, hcalled.ahead]
    · rw [if_neg heq, if_neg (Ne.symm heq), Function.update_of_ne heq,
        h.ahead other]
      by_cases hholder : holder = other
      · have hnil := hpart (by rw [hholder]; exact heq)
        rw [if_pos hholder, hnil]
      · rw [if_neg hholder]

theorem Invariant.openLink (h : Invariant packets returned tunnel) :
    Invariant packets returned
      ⟨tunnel.transport, tunnel.framers ++ [({} : Ipv6Framer)]⟩ := by
  refine ⟨h.aligned.of_eq rfl (readAhead_openLink tunnel), ?_⟩
  intro framer hmem
  rcases List.mem_append.mp hmem with hold | hnew
  · exact h.sizes framer hold
  · rw [List.mem_singleton.mp hnew]

theorem Invariant.readPacket (h : Invariant packets returned tunnel)
    (hpackets : ∀ packet ∈ packets, IsIpv6Packet packet) {link : Nat}
    (hcareful : tunnel.Careful (.readPacket link)) :
    Invariant packets (returned ++ (tunnel.perform (.readPacket link)).1)
      (tunnel.perform (.readPacket link)).2 := by
  unfold perform
  dsimp only
  rcases hframer : tunnel.framers[link]? with _ | framer
  · have hnone : onFramer link Ipv6Framer.readPacket tunnel = (none, tunnel) := by
      unfold onFramer
      rw [hframer]
    rw [hnone]
    show Invariant packets (returned ++ []) tunnel
    rwa [List.append_nil]
  · have hsize := h.sizes framer (List.mem_of_getElem? hframer)
    rw [onFramer_of_some hframer]
    dsimp only
    rcases hrun : Ipv6Framer.readPacket.run (tunnel.transport, framer) with
      ⟨result, next⟩
    rcases hcareful with ⟨packet, rest, hpacket, hahead⟩ | hothers
    · rw [readAhead_of_some hframer] at hahead
      have hfits : packet.length ≤ framer.maxPacketSize :=
        hsize ▸ hpacket.length_le
      obtain ⟨last, hheld, hrest, hkept⟩ :=
        @Ipv6Framer.run_readPacket_of_ahead _ _ tunnel.transport _ _ _ hpacket
          hfits hahead
      rw [hrun] at hheld
      obtain ⟨rfl, rfl⟩ := Prod.mk.inj hheld
      exact ⟨h.aligned.readPacket_ahead hpackets hframer hpacket hahead hrest,
        sizes_set h.sizes hframer hkept⟩
    · obtain ⟨haligned, hkept⟩ := h.aligned.readPacket_alone hpackets hframer hsize
        hothers hrun
      exact ⟨haligned, sizes_set h.sizes hframer hkept⟩

theorem Invariant.writePacket (h : Invariant packets returned tunnel)
    (link : Nat) (packet : Bytes) :
    Invariant packets returned (tunnel.perform (.writePacket link packet)).2 := by
  unfold SharedTunnel.perform
  dsimp only
  rcases hframer : tunnel.framers[link]? with _ | framer
  · have hnone : (onFramer link (Ipv6Framer.writePacket packet) tunnel).2 =
        tunnel := by
      unfold onFramer
      rw [hframer]
    rw [hnone]
    exact h
  · rw [onFramer_of_some hframer]
    unfold Ipv6Framer.writePacket
    rw [Action.run_zoom]
    dsimp only
    have hremaining : ((Transport.write packet).run
        tunnel.transport).2.remaining = tunnel.transport.remaining := by
      obtain ⟨writes, hok | ⟨e, herror⟩⟩ :=
        ScriptedTransport.run_write packet tunnel.transport
      · rw [hok]
        rfl
      · rw [herror]
        rfl
    refine ⟨h.aligned.of_eq hremaining ?_, sizes_set h.sizes hframer rfl⟩
    intro other
    rw [readAhead_set hframer (((Transport.write packet).run
      tunnel.transport).2, framer)]
    by_cases heq : other = link
    · rw [if_pos heq, heq, readAhead_of_some hframer]
    · rw [if_neg heq]

theorem Invariant.perform (h : Invariant packets returned tunnel)
    (hpackets : ∀ packet ∈ packets, IsIpv6Packet packet) {use : TunnelUse}
    (hcareful : tunnel.Careful use) :
    Invariant packets (returned ++ (tunnel.perform use).1)
      (tunnel.perform use).2 := by
  cases use with
  | openLink =>
      show Invariant packets (returned ++ []) _
      rw [List.append_nil]
      exact h.openLink
  | readPacket link => exact h.readPacket hpackets hcareful
  | writePacket link packet =>
      show Invariant packets (returned ++ []) _
      rw [List.append_nil]
      exact h.writePacket link packet

/-! ## Runs -/

/-- Each use of a run is careful in the state that it finds. -/
def CarefulRun : List TunnelUse → SharedTunnel → Prop
  | [], _ => True
  | use :: rest, tunnel =>
      tunnel.Careful use ∧ CarefulRun rest (tunnel.perform use).2

theorem CarefulRun.of_append {front back : List TunnelUse}
    (h : CarefulRun (front ++ back) tunnel) : CarefulRun front tunnel := by
  induction front generalizing tunnel with
  | nil => trivial
  | cons use rest ih => exact ⟨h.1, ih h.2⟩

theorem Invariant.performAll (h : Invariant packets returned tunnel)
    (hpackets : ∀ packet ∈ packets, IsIpv6Packet packet) {uses : List TunnelUse}
    (hcareful : CarefulRun uses tunnel) :
    Invariant packets (returned ++ (performAll uses tunnel).1)
      (performAll uses tunnel).2 := by
  induction uses generalizing returned tunnel with
  | nil =>
      show Invariant packets (returned ++ []) tunnel
      rwa [List.append_nil]
  | cons use rest ih =>
      have hnext := ih (h.perform hpackets hcareful.1) hcareful.2
      rw [List.append_assoc] at hnext
      exact hnext

theorem invariant_start (packets : List Bytes) {transport : ScriptedTransport}
    (h : transport.remaining = packets.flatten) :
    Invariant packets [] ⟨transport, []⟩ := by
  refine ⟨⟨[], packets, 0, [], fun _ => [], rfl, h, .inl rfl, fun _ => rfl, ?_⟩, ?_⟩
  · intro link
    show [] = [] ++ if 0 = link then [] else []
    rw [ite_self, List.append_nil]
  · intro framer hmem
    cases hmem

/-- Whatever links are opened over a tunnel, and however it cuts the bytes of its
packets: in a run of careful uses every packet that has arrived is seen whole by exactly
one framer, in every state that is reached. A use is careful when no other framer holds
a part of a packet while it reads from the tunnel. -/
theorem aligned_of_careful {packets : List Bytes} {transport : ScriptedTransport}
    (hpackets : ∀ packet ∈ packets, IsIpv6Packet packet)
    (hremaining : transport.remaining = packets.flatten)
    {front back : List TunnelUse}
    (hcareful : CarefulRun (front ++ back) ⟨transport, []⟩) :
    Aligned packets (performAll front ⟨transport, []⟩).1
      (performAll front ⟨transport, []⟩).2 :=
  ((invariant_start packets hremaining).performAll hpackets
    hcareful.of_append).aligned

/-! ## The operations of a link -/

/-- What holds of a link's framer. -/
def OfFramer (I : ScriptedTransport × Ipv6Framer → Prop)
    (state : ScriptedTransport × TcpLink) : Prop := I (state.1, state.2.framer)

theorem steady_ofFramer {I : ScriptedTransport × Ipv6Framer → Prop}
    (hread : Action.Keeps I Ipv6Framer.readPacket)
    (hwrite : ∀ packet, Action.Keeps I (Ipv6Framer.writePacket packet)) :
    TcpLink.Steady (OfFramer I) := by
  constructor
  · intro transport link link' h hframer _ _
    show I (transport, link'.framer)
    rw [hframer]
    exact h
  · exact hread.zoom fun _ _ => rfl
  · intro packet
    exact (hwrite packet).zoom fun _ _ => rfl

/-- An action of a link that touches the tunnel by calls of its framer only. -/
def ThroughFramer {α : Type}
    (x : Action Error (ScriptedTransport × TcpLink) α) : Prop :=
  ∀ I, Action.Keeps I Ipv6Framer.readPacket →
    (∀ packet, Action.Keeps I (Ipv6Framer.writePacket packet)) →
    Action.Keeps (OfFramer I) x

theorem throughFramer_connect (fuel : Nat) (address : Bytes) (port : UInt16) :
    ThroughFramer (TcpLink.connect fuel address port) :=
  fun _ hread hwrite =>
    (steady_ofFramer hread hwrite).keeps_connect fuel address port

theorem throughFramer_read (count fuel : Nat) :
    ThroughFramer (TcpLink.read count fuel) :=
  fun _ hread hwrite => (steady_ofFramer hread hwrite).keeps_read count fuel

theorem throughFramer_readExact (count turns : Nat) :
    ThroughFramer (TcpLink.readExact count turns) :=
  fun _ hread hwrite =>
    (steady_ofFramer hread hwrite).keeps_readExactLoop count turns count []

theorem throughFramer_write (data : Bytes) : ThroughFramer (TcpLink.write data) :=
  fun _ hread hwrite =>
    (steady_ofFramer hread hwrite).keeps_writeLoop data.length data

theorem throughFramer_close : ThroughFramer TcpLink.close :=
  fun _ hread hwrite => (steady_ofFramer hread hwrite).keeps_close

/-- What uses of one link lead to. -/
def Reached (tunnel : SharedTunnel) (link : Nat)
    (state : ScriptedTransport × Ipv6Framer) : Prop :=
  ∃ uses : List TunnelUse,
    (∀ use ∈ uses, use = .readPacket link ∨
      ∃ packet, use = .writePacket link packet) ∧
    (performAll uses tunnel).2 = ⟨state.1, tunnel.framers.set link state.2⟩

/-- A call of the link's framer is one more use. -/
theorem keeps_reached {α : Type} {link : Nat} (hlt : link < tunnel.framers.length)
    {x : Action Error (ScriptedTransport × Ipv6Framer) α} {use : TunnelUse}
    (huse : use = .readPacket link ∨ ∃ packet, use = .writePacket link packet)
    (hperform : ∀ other, (perform other use).2 = (onFramer link x other).2) :
    Action.Keeps (Reached tunnel link) x := by
  apply Action.Keeps.of_state
  intro state hreached
  obtain ⟨uses, huses, hrun⟩ := hreached
  refine ⟨uses ++ [use], ?_, ?_⟩
  · intro other hmem
    rcases List.mem_append.mp hmem with hold | hnew
    · exact huses other hold
    · rw [List.mem_singleton.mp hnew]
      exact huse
  · rw [performAll_append]
    show (perform (performAll uses tunnel).2 use).2 = _
    rw [hperform, hrun, onFramer_of_some (List.getElem?_set_self hlt)]
    dsimp only
    rw [List.set_set]

/-- An operation of a link is a run of its uses: it reads and writes packets through the
link's framer, and touches no other. -/
theorem reached_of_throughFramer {α : Type}
    {x : Action Error (ScriptedTransport × TcpLink) α} (h : ThroughFramer x)
    {link : Nat} {state : TcpLink}
    (hframer : tunnel.framers[link]? = some state.framer) :
    Reached tunnel link ((x.run (tunnel.transport, state)).2.1,
      (x.run (tunnel.transport, state)).2.2.framer) := by
  obtain ⟨hlt, hget⟩ := List.getElem?_eq_some_iff.mp hframer
  have hstart : OfFramer (Reached tunnel link) (tunnel.transport, state) := by
    refine ⟨[], fun _ hmem => absurd hmem List.not_mem_nil, ?_⟩
    show tunnel = SharedTunnel.mk tunnel.transport
      (tunnel.framers.set link state.framer)
    rw [← hget, List.set_getElem_self]
  exact (h _ (keeps_reached hlt (.inl rfl) fun _ => rfl)
    fun packet => keeps_reached hlt (.inr ⟨packet, rfl⟩) fun _ => rfl).state hstart

/-! ## Examples -/

/-- Two packets without a payload. -/
private def twoHeaders : List Bytes :=
  [({} : Ipv6Header).encode, ({ hopLimit := 64 } : Ipv6Header).encode]

private theorem isIpv6Packet_twoHeaders :
    ∀ packet ∈ twoHeaders, IsIpv6Packet packet := by
  intro packet hmem
  rcases List.mem_pair.mp hmem with rfl | rfl
  · exact ⟨by decide +kernel, by decide +kernel, by decide +kernel⟩
  · exact ⟨by decide +kernel, by decide +kernel, by decide +kernel⟩

/-- A tunnel that delivers them with the cut behind so many bytes. -/
private def cutAt (count : Nat) : ScriptedTransport where
  reads := [.ok (twoHeaders.flatten.take count),
    .ok (twoHeaders.flatten.drop count)]

private theorem remaining_cutAt (count : Nat) :
    (cutAt count).remaining = twoHeaders.flatten := by
  show twoHeaders.flatten.take count ++ (twoHeaders.flatten.drop count ++ []) = _
  rw [List.append_nil, List.take_append_drop]

/-- A second link is opened after the first has read, and reads. -/
private def secondLink : List TunnelUse :=
  [.openLink, .readPacket 0, .openLink, .readPacket 1]

theorem arePackets_nil : ArePackets [] :=
  ⟨[], fun _ hmem => absurd hmem List.not_mem_nil, rfl⟩

theorem readAhead_of_le {link : Nat} (h : tunnel.framers.length ≤ link) :
    tunnel.readAhead link = [] := by
  unfold readAhead
  rw [List.getElem?_eq_none h]
  rfl

/-- The first packet arrives alone, so the second link starts at the other. -/
theorem aligned_of_careful_secondLink :
    Aligned twoHeaders (performAll secondLink ⟨cutAt 40, []⟩).1
      (performAll secondLink ⟨cutAt 40, []⟩).2 := by
  suffices hcareful : CarefulRun (secondLink ++ []) ⟨cutAt 40, []⟩ by
    exact aligned_of_careful isIpv6Packet_twoHeaders (remaining_cutAt 40) hcareful
  refine ⟨trivial, .inr ?_, trivial, .inr ?_, trivial⟩
  · intro other hne
    rw [readAhead_of_le (show 1 ≤ other by omega)]
    exact arePackets_nil
  · intro other hne
    by_cases hfirst : other = 0
    · have hempty : ((performAll (secondLink.take 3) ⟨cutAt 40, []⟩).2).readAhead 0 =
          [] := by decide +kernel
      rw [hfirst]
      exact hempty ▸ arePackets_nil
    · rw [readAhead_of_le (show 2 ≤ other by omega)]
      exact arePackets_nil

/-- Of two links, one holds whole packets. -/
theorem Aligned.arePackets_of_ne (h : Aligned packets returned tunnel)
    (hpackets : ∀ packet ∈ packets, IsIpv6Packet packet) {link other : Nat}
    (hne : link ≠ other) :
    ArePackets (tunnel.readAhead link) ∨ ArePackets (tunnel.readAhead other) := by
  obtain ⟨owned, later, holder, part, held, h⟩ := h
  have hwhole : ∀ {link}, holder ≠ link → ArePackets (tunnel.readAhead link) := by
    intro link hholder
    refine ⟨held link, h.isIpv6Packet_held hpackets link, ?_⟩
    rw [h.ahead link, if_neg hholder, List.append_nil]
  by_cases hholder : holder = link
  · right
    apply hwhole
    rw [hholder]
    exact hne
  · exact .inl (hwhole hholder)

theorem not_arePackets_of_lt {bytes : Bytes} (hne : bytes ≠ [])
    (hlt : bytes.length < 40) : ¬ ArePackets bytes := by
  intro h
  obtain ⟨packets, hpackets, rfl⟩ := h
  cases packets with
  | nil => exact hne rfl
  | cons packet rest =>
      have hheader := (hpackets packet List.mem_cons_self).header
      rw [List.flatten_cons, List.length_append] at hlt
      omega

/-- The first link reads ten bytes of the second packet, and the second link gets
the rest. -/
theorem not_aligned_secondLink :
    ¬ Aligned twoHeaders (performAll secondLink ⟨cutAt 50, []⟩).1
      (performAll secondLink ⟨cutAt 50, []⟩).2 := by
  intro h
  rcases h.arePackets_of_ne isIpv6Packet_twoHeaders Nat.zero_ne_one with
    hfirst | hsecond
  · exact not_arePackets_of_lt (by decide +kernel) (by decide +kernel) hfirst
  · exact not_arePackets_of_lt (by decide +kernel) (by decide +kernel) hsecond

end SharedTunnel

end Ioscpp
