import Ioscpp.SessionFrames
import Ioscpp.StreamPeer

/-!
# A stream is read in order

One open stream of a direct link.  Whatever the sizes of the device's frames and
of the reads, the reads return the payloads in order, and every acknowledgement
answers one frame.  Behind its frames the device stops, perhaps within a frame, or
it resets the stream.

## Main results

- `triple_receiveTcp`, `triple_receiveMore`, `triple_readExactLoop`: what each loop
  takes of a device's frames, and what a failure says.
- `inOrder_readEach`: reads of any sizes return the payloads in order.
-/

namespace Ioscpp.Stream

open Ioscpp.Support
open Ioscpp.Protocol
open ScriptedTransport

/-! ## The link -/

/-- What the device sends behind its frames: it stops, perhaps within a frame, or
it resets the stream. -/
inductive Ends (version : UInt32) (localPort remotePort : UInt16) :
    Bytes → Prop where
  | stopped {bytes : Bytes} (h : ¬ Session.HoldsFrame version bytes) :
      Ends version localPort remotePort bytes
  | reset {bytes payload : Bytes} {frame : Frame} {tcp : TcpHeader}
      (hframe : Session.IsFrame version frame bytes)
      (hsegment : IsSegment localPort remotePort frame tcp payload)
      (hrst : tcp.flags &&& TcpRst ≠ 0) (behind : Bytes) :
      Ends version localPort remotePort (bytes ++ behind)

/-- The link has these frames and this ending for the connection, and takes what it
sends. -/
structure Linked (version : UInt32) (ending : Bytes) (frames : List Bytes)
    (link : ScriptedTransport × Connection) : Prop where
  clean : link.1.Clean
  writes : link.1.writes = []
  version : link.2.session.version = version
  remaining : link.1.remaining = frames.flatten ++ ending

section Link

variable {version : UInt32} {ending : Bytes} {frames : List Bytes}
  {link : ScriptedTransport × Connection}

/-- A frame is received, and nothing is sent. -/
theorem Linked.run_receive {bytes : Bytes} {frame : Frame}
    (h : Linked version ending (bytes :: frames) link)
    (hframe : Session.IsFrame version frame bytes) :
    ∃ next, Connection.receive.run link = (.ok frame, next) ∧
      Linked version ending frames next ∧ next.1.written = link.1.written := by
  obtain ⟨transport, connection⟩ := link
  have hremaining : transport.remaining = bytes ++ (frames.flatten ++ ending) := by
    rw [h.remaining, List.flatten_cons, List.append_assoc]
  obtain ⟨next, hrun, hdelivers⟩ := Session.run_receive h.clean
    (h.version ▸ hframe) hremaining
  refine ⟨(next, { connection with
    session := { connection.session with rxSeq := frame.header.rxSeq } }), ?_,
    ⟨hdelivers.clean h.clean, hdelivers.writes.trans h.writes, h.version, ?_⟩,
    hdelivers.written⟩
  · rw [Connection.receive, Connection.onSession, Action.run_zoom, hrun]
  · have hdelivered := hdelivers.remaining
    rw [hremaining] at hdelivered
    exact (List.append_cancel_left hdelivered).symm

/-- At the end of the link a receive fails. -/
theorem Linked.run_receive_nil (h : Linked version [] [] link) :
    ∃ next, Connection.receive.run link =
        (.error (.error Session.closedMidFrame), next) ∧
      Linked version [] [] next ∧ next.1.written = link.1.written := by
  obtain ⟨⟨reads, writes, written⟩, connection⟩ := link
  have hnil : reads = [] := by
    rcases reads with _ | ⟨answer, rest⟩
    · rfl
    · obtain ⟨chunk, hne, rfl⟩ := h.clean answer (by simp)
      have hremaining : chunk ++ _ = [] := h.remaining
      exact absurd (List.append_eq_nil_iff.mp hremaining).1 hne
  subst hnil
  refine ⟨_, ?_, h, rfl⟩
  obtain ⟨size, hsize⟩ := Nat.exists_eq_add_one_of_ne_zero
    (Nat.ne_of_gt (MuxHeader.wireSize_pos connection.session.version))
  have hread : (Transport.readExact Session.closedMidFrame
      (MuxHeader.wireSize connection.session.version)).run
        (⟨[], writes, written⟩ : ScriptedTransport) =
      (.error (.error Session.closedMidFrame), ⟨[], writes, written⟩) := by
    rw [Transport.readExact, hsize, Transport.readExactLoop, if_neg (by simp)]
    rfl
  rw [Connection.receive, Connection.onSession, Action.run_zoom, Session.receive,
    Action.run_bind_ok (Action.run_get _)]
  dsimp only
  rw [Action.run_bind_error (by rw [Session.onTransport, Action.run_zoom, hread])]

/-- Where the device stops a receive fails. -/
theorem Linked.run_receive_stopped (h : Linked version ending [] link)
    (hstopped : ¬ Session.HoldsFrame version ending) :
    ∃ fault next, Connection.receive.run link = (.error fault, next) := by
  rcases hrun : Connection.receive.run link with ⟨fault | frame, next⟩
  · exact ⟨fault, next, rfl⟩
  · refine absurd ?_ hstopped
    rw [Connection.receive, Connection.onSession, Action.run_zoom] at hrun
    have hframe : (Session.receive.run (link.1, link.2.session)).1 = .ok frame :=
      (Prod.ext_iff.mp hrun).1
    obtain ⟨frame, bytes, middle, last, hframe, hheader, hrest⟩ :=
      (Session.exists_run_receive_iff ScriptedTransport.bounded link.2.session).mp
        ⟨frame, (Session.receive.run (link.1, link.2.session)).2,
          Prod.ext hframe rfl⟩
    obtain ⟨hfirst, hclean⟩ := hheader.remaining h.clean
    obtain ⟨hsecond, -⟩ := hrest.remaining hclean
    have hremaining := h.remaining
    rw [hfirst, hsecond, ← List.append_assoc, List.take_append_drop] at hremaining
    exact ⟨bytes, frame, ⟨_, hremaining⟩, h.version ▸ hframe⟩

/-- A frame with a TCP header and no payload is taken. -/
theorem Linked.run_sendTcp (h : Linked version ending frames link) (tcp : TcpHeader)
    (hoffset : tcp.dataOffset < 16) :
    ∃ next bytes, (Connection.sendTcp tcp []).run link = (.ok (), next) ∧
      Linked version ending frames next ∧
      next.1.written = link.1.written ++ [bytes] ∧
      sentTcp version bytes = .ok tcp := by
  obtain ⟨transport, connection⟩ := link
  have hfits : Session.Fits connection.session.version (tcp.encode ++ []) := by
    have hle := MuxHeader.wireSize_le connection.session.version
    rw [Session.Fits, List.append_nil, tcp.length_encode, kMaxFrameSize]
    omega
  have hwrite := run_write_ok
    (connection.session.frameBytes .tcp (tcp.encode ++ [])) h.writes
  refine ⟨({ transport with written := transport.written ++
      [connection.session.frameBytes .tcp (tcp.encode ++ [])] },
    { connection with session := { connection.session with
      txSeq := connection.session.txSeq + 1 } }), _, ?_,
    ⟨h.clean, h.writes, h.version, h.remaining⟩, rfl,
    h.version ▸ sentTcp_frameBytes connection.session [] hoffset⟩
  rw [Connection.sendTcp, Connection.onSession, Action.run_zoom,
    Session.run_send hfits, hwrite]

end Link

/-! ## Receiving -/

/-- The frames that are not for the stream are skipped; the first that is one is
returned, and its bytes are the next of the stream. -/
theorem triple_receiveTcp {version : UInt32} {localPort remotePort : UInt16}
    {ending : Bytes} {frames payloads : List Bytes} {numbers : List UInt32}
    {fuel : Nat} {link : ScriptedTransport × Connection}
    (h : Linked version ending frames link)
    (hdevice : FromDevice version localPort remotePort frames payloads numbers)
    (hends : Ends version localPort remotePort ending)
    (hfuel : frames.length < fuel) :
    Action.Triple (fun other => other = link)
      (receiveTcp localPort remotePort fuel)
      (fun answer next => (∃ later payloads' numbers',
        answer.1.flags &&& TcpRst = 0 ∧ Linked version ending later next ∧
        FromDevice version localPort remotePort later payloads' numbers' ∧
        later.length < frames.length ∧
        payloads.flatten = answer.2 ++ payloads'.flatten ∧
        numbers = (answer.1.sequence + UInt32.ofNat answer.2.length) :: numbers' ∧
        next.1.written = link.1.written) ∨
        answer.1.flags &&& TcpRst ≠ 0 ∧ payloads = [] ∧ ending ≠ [])
      (fun e next => payloads = [] ∧ (ending = [] →
        e = .error Session.closedMidFrame ∧ numbers = [] ∧
        Linked version [] [] next ∧ next.1.written = link.1.written)) := by
  induction hdevice generalizing link fuel with
  | stop =>
      obtain ⟨fuel, rfl⟩ := Nat.exists_eq_add_one_of_ne_zero (Nat.ne_of_gt hfuel)
      cases hends with
      | stopped hstopped =>
          by_cases hending : ending = []
          · subst hending
            obtain ⟨next, hrun, hnext, hwritten⟩ := h.run_receive_nil
            rintro _ rfl
            rw [receiveTcp, Action.run_bind_error hrun]
            exact ⟨rfl, fun _ => ⟨rfl, rfl, hnext, hwritten⟩⟩
          · obtain ⟨fault, next, hrun⟩ := h.run_receive_stopped hstopped
            rintro _ rfl
            rw [receiveTcp, Action.run_bind_error hrun]
            exact ⟨rfl, fun hnil => absurd hnil hending⟩
      | @reset bytes payload frame tcp hframe hsegment hrst behind =>
          have hlinked : Linked version behind [bytes] link :=
            ⟨h.clean, h.writes, h.version, by
              rw [h.remaining, List.flatten_nil, List.nil_append,
                List.flatten_singleton]⟩
          obtain ⟨next, hrun, -, -⟩ := hlinked.run_receive hframe
          refine Action.Triple.bind_of_run hrun ?_
          rw [hsegment.acceptFrame_eq]
          refine Action.Triple.lift_ok_bind (Action.Triple.pure ?_)
          rintro _ -
          have hpos := MuxHeader.wireSize_pos version
          have hlower := hframe.lower
          refine .inr ⟨hrst, rfl, fun hnil => ?_⟩
          have hlength := congrArg List.length (List.append_eq_nil_iff.mp hnil).1
          rw [List.length_nil] at hlength
          omega
  | stray hframe hstray hrest ih =>
      obtain ⟨fuel, rfl⟩ := Nat.exists_eq_add_one_of_ne_zero
        (Nat.ne_of_gt (Nat.zero_lt_of_lt hfuel))
      obtain ⟨next, hrun, hnext, hwritten⟩ := h.run_receive hframe
      refine Action.Triple.bind_of_run hrun ?_
      rw [hstray.acceptFrame_eq]
      refine Action.Triple.lift_ok_bind
        ((ih hnext (Nat.lt_of_succ_lt_succ hfuel)).imp_post ?_ ?_)
      · rintro answer last (⟨later, payloads', numbers', hrst, hlast, hlater,
          hlength, hpayloads, hnumbers, hsame⟩ | hreset)
        · exact .inl ⟨later, payloads', numbers', hrst, hlast, hlater,
            hlength.trans (Nat.lt_succ_self _), hpayloads, hnumbers,
            hsame.trans hwritten⟩
        · exact .inr hreset
      · rintro e last ⟨hpayloads, hend⟩
        refine ⟨hpayloads, fun hnil => ?_⟩
        obtain ⟨he, hnumbers, hlast, hsame⟩ := hend hnil
        exact ⟨he, hnumbers, hlast, hsame.trans hwritten⟩
  | empty hframe hsegment hrst hrest ih =>
      obtain ⟨fuel, rfl⟩ := Nat.exists_eq_add_one_of_ne_zero
        (Nat.ne_of_gt (Nat.zero_lt_of_lt hfuel))
      obtain ⟨next, hrun, hnext, hwritten⟩ := h.run_receive hframe
      refine Action.Triple.bind_of_run hrun ?_
      rw [hsegment.acceptFrame_eq]
      refine Action.Triple.lift_ok_bind (Action.Triple.pure ?_)
      rintro _ rfl
      exact .inl ⟨_, _, _, hrst, hnext, hrest, Nat.lt_succ_self _, rfl,
        congrArg (· :: _) (UInt32.add_zero _).symm, hwritten⟩
  | data hframe hsegment hpayload hrst hrest ih =>
      obtain ⟨fuel, rfl⟩ := Nat.exists_eq_add_one_of_ne_zero
        (Nat.ne_of_gt (Nat.zero_lt_of_lt hfuel))
      obtain ⟨next, hrun, hnext, hwritten⟩ := h.run_receive hframe
      refine Action.Triple.bind_of_run hrun ?_
      rw [hsegment.acceptFrame_eq]
      refine Action.Triple.lift_ok_bind (Action.Triple.pure ?_)
      rintro _ rfl
      exact .inl ⟨_, _, _, hrst, hnext, hrest, Nat.lt_succ_self _,
        List.flatten_cons, rfl, hwritten⟩

/-! ## Reading -/

/-- The bytes that were received and not returned. -/
def unread (stream : Stream) : Bytes :=
  stream.incoming.drop stream.incomingOffset

/-- The state of a run that reads a stream: `rest` is what the device has still
to send or the stream to return, and `numbers` are the acknowledgements that are
still to be sent.  `base` is what was written before the run, and `stream` the
stream at its start; `ending` is what comes behind the frames. -/
structure Reading (version : UInt32) (base : List Bytes) (stream : Stream)
    (ending : Bytes) (sofar : List UInt32) (frames : List Bytes) (rest : Bytes)
    (numbers : List UInt32) (state : (ScriptedTransport × Connection) × Stream) :
    Prop where
  linked : Linked version ending frames state.1
  ends : Ends version stream.localPort stream.remotePort ending
  device : ∃ payloads, FromDevice version stream.localPort stream.remotePort
    frames payloads numbers ∧ rest = state.2.unread ++ payloads.flatten
  written : ∃ sent, state.1.1.written = base ++ sent ∧
    sent.map (sentTcp version) = sofar.map fun number =>
      .ok { stream.header TcpAck with acknowledgement := number }
  same : ∃ txAck incoming incomingOffset, state.2 =
    { stream with txAck, incoming, incomingOffset }
  attached : stream.attached = true
  offset : state.2.incomingOffset ≤ state.2.incoming.length

section Reading

variable {version : UInt32} {base : List Bytes} {stream : Stream}
  {ending : Bytes} {sofar numbers : List UInt32} {frames : List Bytes}
  {rest : Bytes} {state : (ScriptedTransport × Connection) × Stream}

/-- An operation of the connection of an object that was not moved from. -/
theorem triple_onConnection {τ α : Type} [Transport τ]
    {x : Action Error (τ × Connection) α} {state : (τ × Connection) × Stream}
    {Q : α → τ × Connection → Prop} {E : Fault Error → τ × Connection → Prop}
    (hattached : state.2.attached = true)
    (h : Action.Triple (fun link => link = state.1) x Q E) :
    Action.Triple (fun other => other = state) (onConnection x)
      (fun a next => next.2 = state.2 ∧ Q a next.1)
      (fun e next => next.2 = state.2 ∧ E e next.1) := by
  refine Action.Triple.get_bind fun other hother => ?_
  subst hother
  rw [if_pos hattached]
  refine Action.Triple.zoom fun other hother => ?_
  subst hother
  exact h.imp_post (fun _ _ hQ => ⟨rfl, hQ⟩) fun _ _ hE => ⟨rfl, hE⟩

/-- The frame of a segment was taken: it is acknowledged, and its payload is the
front of what is to be read. -/
theorem Reading.acknowledge {later payloads payloads' : List Bytes}
    {numbers' : List UInt32} {tcp : TcpHeader} {payload : Bytes}
    {link next : ScriptedTransport × Connection} {bytes : Bytes}
    (h : Reading version base stream ending sofar frames payloads.flatten numbers state)
    (hincoming : state.2.incoming = [])
    (hwritten : link.1.written = state.1.1.written)
    (hdevice : FromDevice version stream.localPort stream.remotePort later
      payloads' numbers')
    (hpayloads : payloads.flatten = payload ++ payloads'.flatten)
    (hnext : Linked version ending later next)
    (hsent : next.1.written = link.1.written ++ [bytes])
    (hbytes : sentTcp version bytes = .ok { state.2.header TcpAck with
      acknowledgement := tcp.sequence + UInt32.ofNat payload.length }) :
    Reading version base stream ending
      (sofar ++ [tcp.sequence + UInt32.ofNat payload.length]) later
      payloads.flatten numbers' (next, { state.2 with
        txAck := tcp.sequence + UInt32.ofNat payload.length
        incoming := payload }) := by
  obtain ⟨sent, hsofar, hmap⟩ := h.written
  obtain ⟨txAck, incoming, incomingOffset, hsame⟩ := h.same
  have hoffset := h.offset
  rw [hincoming, List.length_nil, Nat.le_zero] at hoffset
  refine ⟨hnext, h.ends, ⟨payloads', hdevice, ?_⟩, ⟨sent ++ [bytes], ?_, ?_⟩,
    ⟨tcp.sequence + UInt32.ofNat payload.length, payload, incomingOffset, ?_⟩,
    h.attached, ?_⟩
  · rw [hpayloads, unread]
    dsimp only
    rw [hoffset, List.drop_zero]
  · rw [hsent, hwritten, hsofar, List.append_assoc]
  · rw [List.map_append, List.map_append, hmap, List.map_singleton,
      List.map_singleton, hbytes, hsame]
    rfl
  · rw [hsame]
  · rw [hoffset]
    exact Nat.zero_le _

/-- Waiting for data: the payload that comes is the next of the stream. -/
theorem triple_receiveMore {payloads : List Bytes} {fuel : Nat}
    (h : Reading version base stream ending sofar frames payloads.flatten numbers state)
    (hdevice : FromDevice version stream.localPort stream.remotePort frames
      payloads numbers)
    (hincoming : state.2.incoming = []) (hfuel : frames.length < fuel) :
    Action.Triple (fun other => other = state) (receiveMore fuel)
      (fun more next => (more = true ∧ ∃ answered later numbers',
        numbers = answered ++ numbers' ∧ later.length < frames.length ∧
        next.2.unread ≠ [] ∧
        Reading version base stream ending (sofar ++ answered) later
          payloads.flatten numbers' next) ∨
        more = false ∧ payloads.flatten = [] ∧ ending ≠ [])
      (fun e next => payloads.flatten = [] ∧ (ending = [] →
        e = .error Session.closedMidFrame ∧
        Reading version base stream ending (sofar ++ numbers) [] [] [] next)) := by
  induction fuel generalizing state sofar frames numbers payloads with
  | zero => cases hfuel
  | succ fuel ih =>
      have hoffset := h.offset
      rw [hincoming, List.length_nil, Nat.le_zero] at hoffset
      obtain ⟨txAck, incoming, incomingOffset, hsame⟩ := h.same
      have hattached : state.2.attached = true := by
        rw [hsame]
        exact h.attached
      have hreceive := @triple_receiveTcp version state.2.localPort
        state.2.remotePort ending frames payloads numbers (fuel + 1) state.1 h.linked
        (by rw [hsame]; exact hdevice) (by rw [hsame]; exact h.ends) hfuel
      refine Action.Triple.get_bind fun other hother => ?_
      subst hother
      refine Action.Triple.bind ((triple_onConnection hattached hreceive).imp_post
        (fun _ _ h' => h') ?_) fun answer => Action.Triple.of_state ?_
      · rintro e ⟨link, _⟩ ⟨rfl, rfl, hend⟩
        refine ⟨rfl, fun hnil => ?_⟩
        subst hnil
        obtain ⟨rfl, rfl, hlink, hwritten⟩ := hend rfl
        refine ⟨rfl, hlink, h.ends, ⟨[], .stop, ?_⟩, ?_, ⟨_, _, _, hsame⟩,
          h.attached, h.offset⟩
        · rw [unread, hincoming, List.drop_nil]
          rfl
        · rw [hwritten, List.append_nil]
          exact h.written
      · rintro ⟨link, _⟩ ⟨rfl, ⟨later, payloads', numbers', hrst, hlink, hlater,
          hlength, hpayloads, hnumbers, hwritten⟩ | ⟨hrst, hnil, hending⟩⟩
        rotate_left
        · -- the device resets the stream
          rw [if_pos hrst]
          refine Action.Triple.bind_of_run (Action.run_modify _ _)
            (Action.Triple.pure fun _ _ => .inr ⟨rfl, ?_, hending⟩)
          rw [hnil]
          rfl
        have hlater' : FromDevice version stream.localPort stream.remotePort later
            payloads' numbers' := by
          rw [hsame] at hlater
          exact hlater
        obtain ⟨next, bytes, hsend, hnext, hsent, hbytes⟩ :=
          hlink.run_sendTcp ({ other.2 with
            txAck := answer.1.sequence + UInt32.ofNat answer.2.length }.header
              TcpAck) (by decide : (5 : UInt8) < 16)
        have hread := @Reading.acknowledge version base stream ending sofar numbers
          frames other later payloads payloads' numbers' answer.1 answer.2 link next
          bytes h hincoming hwritten hlater' hpayloads hnext hsent hbytes
        obtain ⟨tcp, payload⟩ := answer
        rw [if_neg (not_not_intro hrst)]
        refine Action.Triple.bind_of_run (Action.run_modify _ _)
          (Action.Triple.get_bind ?_)
        rintro _ rfl
        refine @Action.Triple.bind_of_run _ _ _ _ _ _ _ _ _ (next, { other.2 with
          txAck := tcp.sequence + UInt32.ofNat payload.length }) () ?_ ?_
        · rw [onConnection, Action.run_bind_ok (Action.run_get _),
            if_pos hattached, Action.run_zoom, hsend]
        · refine Action.Triple.ite (fun hsome => ?_) fun hnone => ?_
          · refine Action.Triple.bind_of_run (Action.run_modify _ _)
              (Action.Triple.pure ?_)
            rintro _ rfl
            refine .inl ⟨rfl, [_], later, numbers', hnumbers, hlength, ?_, ?_⟩
            · rw [unread]
              dsimp only
              rw [hincoming, hoffset]
              exact hsome
            · dsimp only
              rw [hincoming]
              exact hread
          · obtain rfl : payload = [] := not_not.mp hnone
            rw [List.nil_append] at hpayloads
            have hstate : ({ other.2 with
                txAck := tcp.sequence + UInt32.ofNat ([] : Bytes).length
                incoming := [] } : Stream) = { other.2 with
                txAck := tcp.sequence + UInt32.ofNat ([] : Bytes).length } := by
              rw [← hincoming]
            rw [hstate, hpayloads] at hread
            refine (ih hread hlater' hincoming (by omega)).imp_post ?_ ?_
            · rintro more last (⟨hmore, answered, later', numbers'', rfl, hlength',
                hunread, hlast⟩ | ⟨hmore, hnil', hending⟩)
              · refine .inl ⟨hmore, _ :: answered, later', numbers'', hnumbers,
                  hlength'.trans hlength, hunread, ?_⟩
                rw [hpayloads, ← List.singleton_append, ← List.append_assoc]
                exact hlast
              · exact .inr ⟨hmore, hpayloads.trans hnil', hending⟩
            · rintro e last ⟨hnil', hend⟩
              refine ⟨hpayloads.trans hnil', fun hending => ?_⟩
              obtain ⟨he, hlast⟩ := hend hending
              refine ⟨he, ?_⟩
              rw [hnumbers, ← List.singleton_append, ← List.append_assoc]
              exact hlast

/-- After this, there are bytes to return, or the link has ended and everything
was returned. -/
theorem triple_replenish {turns : Nat}
    (h : Reading version base stream ending sofar frames rest numbers state)
    (hturns : frames.length < turns) :
    Action.Triple (fun other => other = state) (replenish turns)
      (fun _ next => ∃ answered later numbers', numbers = answered ++ numbers' ∧
        later.length ≤ frames.length ∧ next.2.unread ≠ [] ∧
        Reading version base stream ending (sofar ++ answered) later rest numbers' next)
      (fun e next => rest = [] ∧ (ending = [] →
        e = .error Session.closedMidFrame ∧
        Reading version base stream ending (sofar ++ numbers) [] [] [] next)) := by
  obtain ⟨payloads, hdevice, hrest⟩ := h.device
  refine Action.Triple.get_bind fun other hother => ?_
  subst hother
  refine Action.Triple.ite (fun hspent => ?_) fun hleft => ?_
  · have hnil : other.2.unread = [] := by
      rw [unread, hspent, List.drop_length]
    rw [hnil, List.nil_append] at hrest
    subst hrest
    refine Action.Triple.bind_of_run (Action.run_modify _ _) ?_
    obtain ⟨txAck, incoming, incomingOffset, hsame⟩ := h.same
    have hcleared : Reading version base stream ending sofar frames payloads.flatten
        numbers (other.1, { other.2 with incoming := [], incomingOffset := 0 }) :=
      ⟨h.linked, h.ends, ⟨payloads, hdevice, rfl⟩, h.written,
        ⟨txAck, [], 0, by rw [hsame]⟩, h.attached, Nat.le_refl _⟩
    refine Action.Triple.bind
      (triple_receiveMore hcleared hdevice rfl hturns) fun more => ?_
    refine Action.Triple.of_state fun last hlast => ?_
    rcases hlast with ⟨rfl, answered, later, numbers', hnumbers, hlength, hunread,
      hreading⟩ | ⟨rfl, hnil, hending⟩
    · exact Action.Triple.pure fun _ hother => hother ▸
        ⟨answered, later, numbers', hnumbers, hlength.le, hunread, hreading⟩
    · refine Action.Triple.get_bind fun _ _ => Action.Triple.fail fun _ _ =>
        ⟨hnil, fun hnone => absurd hnone hending⟩
  · refine Action.Triple.pure ?_
    rintro _ rfl
    refine ⟨[], frames, numbers, rfl, Nat.le_refl _, ?_, by rwa [List.append_nil]⟩
    have hoffset := h.offset
    intro hnil
    have hlength := congrArg List.length hnil
    rw [unread, List.length_drop, List.length_nil] at hlength
    omega

/-- Bytes that were received are returned. -/
theorem Reading.take (count : Nat)
    (h : Reading version base stream ending sofar frames rest numbers state) :
    ∃ next, (takeIncoming count).run state =
        (.ok (state.2.unread.take count), next) ∧
      state.2.unread.take count <+: rest ∧
      Reading version base stream ending sofar frames
        (rest.drop (state.2.unread.take count).length) numbers next := by
  obtain ⟨payloads, hdevice, hrest⟩ := h.device
  obtain ⟨txAck, incoming, incomingOffset, hsame⟩ := h.same
  have hoffset := h.offset
  refine ⟨_, rfl, ?_, h.linked, h.ends, ⟨payloads, hdevice, ?_⟩, h.written,
    ⟨txAck, incoming, incomingOffset + (state.2.unread.take count).length, ?_⟩,
    h.attached, ?_⟩
  · rw [hrest]
    exact (List.take_prefix _ _).trans (List.prefix_append _ _)
  · have hle : (state.2.unread.take count).length ≤ state.2.unread.length :=
      List.length_take_le' _ _
    rw [hrest, List.drop_append_of_le_length hle]
    congr 1
    rw [unread, unread, List.drop_drop]
  · dsimp only
    rw [hsame]
    rfl
  · have hle : (state.2.unread.take count).length ≤ state.2.unread.length :=
      List.length_take_le' _ _
    rw [unread, List.length_drop] at hle
    dsimp only [unread]
    omega

theorem triple_readExactLoop {count turns fuel : Nat} {data : Bytes}
    (h : Reading version base stream ending sofar frames rest numbers state)
    (hturns : frames.length < turns) (hdata : data.length ≤ count)
    (hfuel : count ≤ data.length + fuel) :
    Action.Triple (fun other => other = state)
      (readExactLoop count turns fuel data)
      (fun bytes next => count - data.length ≤ rest.length ∧
        bytes = data ++ rest.take (count - data.length) ∧
        ∃ answered later numbers', numbers = answered ++ numbers' ∧
          later.length ≤ frames.length ∧
          Reading version base stream ending (sofar ++ answered) later
            (rest.drop (count - data.length)) numbers' next)
      (fun e next => rest.length < count - data.length ∧ (ending = [] →
        e = .error Session.closedMidFrame ∧
        Reading version base stream ending (sofar ++ numbers) [] [] [] next)) := by
  induction fuel generalizing state sofar frames rest numbers data with
  | zero =>
      refine Action.Triple.ite (fun hle => ?_) fun hlt => absurd hfuel hlt
      refine Action.Triple.pure ?_
      rintro _ rfl
      rw [Nat.sub_eq_zero_of_le hle, List.take_zero, List.append_nil,
        List.drop_zero]
      exact ⟨Nat.zero_le _, rfl, [], frames, numbers, rfl, Nat.le_refl _,
        by rwa [List.append_nil]⟩
  | succ fuel ih =>
      refine Action.Triple.ite (fun hle => ?_) fun hlt => ?_
      · refine Action.Triple.pure ?_
        rintro _ rfl
        rw [Nat.sub_eq_zero_of_le hle, List.take_zero, List.append_nil,
          List.drop_zero]
        exact ⟨Nat.zero_le _, rfl, [], frames, numbers, rfl, Nat.le_refl _,
          by rwa [List.append_nil]⟩
      · refine Action.Triple.bind ((triple_replenish h hturns).imp_post
          (fun _ _ h' => h') ?_) fun _ => Action.Triple.of_state ?_
        · rintro e next ⟨rfl, hend⟩
          exact ⟨by rw [List.length_nil]; omega, hend⟩
        · rintro middle ⟨answered, later, numbers', rfl, hlength, hunread,
            hmiddle⟩
          obtain ⟨next, hrun, hprefix, hnext⟩ :=
            hmiddle.take (count - data.length)
          refine Action.Triple.bind_of_run hrun ?_
          have hpos := List.length_pos_iff.mpr hunread
          have hmore : 0 < (middle.2.unread.take (count - data.length)).length := by
            rw [List.length_take]
            omega
          have hsize : (middle.2.unread.take (count - data.length)).length ≤
              count - data.length := List.length_take_le _ _
          generalize middle.2.unread.take (count - data.length) = more at *
          obtain ⟨rest, rfl⟩ := hprefix
          rw [List.drop_left] at hnext
          have hmissing : count - (data ++ more).length =
              count - data.length - more.length := by
            rw [List.length_append, Nat.sub_sub]
          refine (ih hnext (hlength.trans_lt hturns)
            (by rw [List.length_append]; omega)
            (by rw [List.length_append]; omega)).imp_post ?_ ?_
          · rintro bytes last ⟨henough, rfl, answered', later', numbers'', rfl,
              hlength', hlast⟩
            rw [hmissing] at henough hlast
            refine ⟨by rw [List.length_append]; omega, ?_, answered ++ answered',
              later', numbers'', (List.append_assoc _ _ _).symm,
              hlength'.trans hlength, ?_⟩
            · rw [hmissing, List.take_append, List.take_of_length_le hsize,
                List.append_assoc]
            · rw [List.drop_append, List.drop_of_length_le hsize, List.nil_append,
                ← List.append_assoc]
              exact hlast
          · rintro e last ⟨hshort, hend⟩
            rw [hmissing] at hshort
            refine ⟨by rw [List.length_append]; omega, fun hnil => ?_⟩
            obtain ⟨he, hlast⟩ := hend hnil
            refine ⟨he, ?_⟩
            rw [← List.append_assoc]
            exact hlast

end Reading

/-! ## Runs of reads -/

/-- Reads of these sizes, one after the other, whatever becomes of each. -/
def readEach {τ : Type} [Transport τ] (turns : Nat) :
    List Nat → (τ × Connection) × Stream →
      List (Result Bytes) × ((τ × Connection) × Stream)
  | [], state => ([], state)
  | count :: sizes, state =>
      (((readExact count turns).run state).1 ::
          (readEach turns sizes ((readExact count turns).run state).2).1,
        (readEach turns sizes ((readExact count turns).run state).2).2)

/-- What reads of these sizes take from a byte sequence that then ends. -/
def pieces (ended : Error) : Bytes → List Nat → List (Result Bytes)
  | _, [] => []
  | rest, count :: sizes =>
      if count ≤ rest.length then
        .ok (rest.take count) :: pieces ended (rest.drop count) sizes
      else .error (.error ended) :: pieces ended [] sizes

/-- Reads that ask for no more than there is get it all. -/
theorem pieces_of_sum_le (ended : Error) {rest : Bytes} {sizes : List Nat}
    (h : sizes.sum ≤ rest.length) :
    ∃ chunks : List Bytes, pieces ended rest sizes = chunks.map .ok ∧
      chunks.map List.length = sizes ∧ chunks.flatten = rest.take sizes.sum := by
  induction sizes generalizing rest with
  | nil => exact ⟨[], rfl, rfl, by simp⟩
  | cons count sizes ih =>
      rw [List.sum_cons] at h
      obtain ⟨chunks, hpieces, hlengths, hflatten⟩ := @ih (rest.drop count) (by
        rw [List.length_drop]
        omega)
      refine ⟨rest.take count :: chunks, ?_, ?_, ?_⟩
      · rw [pieces, if_pos (by omega), hpieces, List.map_cons]
      · rw [List.map_cons, hlengths, List.length_take, Nat.min_eq_left (by omega)]
      · rw [List.flatten_cons, hflatten, List.sum_cons, List.take_add]

theorem Reading.readEach {version : UInt32} {base : List Bytes} {stream : Stream}
    {sofar numbers : List UInt32} {frames : List Bytes} {rest : Bytes}
    {state : (ScriptedTransport × Connection) × Stream} {turns : Nat}
    (h : Reading version base stream [] sofar frames rest numbers state)
    (hturns : frames.length < turns) (sizes : List Nat) :
    (Stream.readEach turns sizes state).1 =
        pieces Session.closedMidFrame rest sizes ∧
      ∃ answered later rest' numbers', numbers = answered ++ numbers' ∧
        Reading version base stream [] (sofar ++ answered) later rest' numbers'
          (Stream.readEach turns sizes state).2 := by
  induction sizes generalizing sofar frames rest numbers state with
  | nil => exact ⟨rfl, [], frames, rest, numbers, rfl, by rwa [List.append_nil]⟩
  | cons count sizes ih =>
      have hread := @triple_readExactLoop version base stream [] sofar numbers frames
        rest state count turns count [] h hturns (Nat.zero_le _) (by simp)
      rcases hrun : (readExact count turns).run state with ⟨e | bytes, next⟩
      · obtain ⟨hshort, hend⟩ := hread.of_error rfl hrun
        obtain ⟨rfl, hnext⟩ := hend rfl
        rw [List.length_nil, Nat.sub_zero] at hshort
        obtain ⟨hresults, answered, later, rest', numbers', hnil, hlast⟩ :=
          ih hnext (Nat.zero_lt_of_lt hturns)
        obtain ⟨rfl, rfl⟩ := List.append_eq_nil_iff.mp hnil.symm
        rw [List.append_nil] at hlast
        rw [Stream.readEach, hrun, hresults, pieces, if_neg (by omega)]
        exact ⟨rfl, numbers, later, rest', [], (List.append_nil _).symm, hlast⟩
      · obtain ⟨henough, rfl, answered, later, numbers', rfl, hlength, hnext⟩ :=
          hread.of_ok rfl hrun
        rw [List.length_nil, Nat.sub_zero] at henough hnext
        obtain ⟨hresults, answered', later', rest', numbers'', rfl, hlast⟩ :=
          ih hnext (hlength.trans_lt hturns)
        rw [Stream.readEach, hrun, hresults, pieces, if_pos henough]
        refine ⟨by simp, answered ++ answered', later', rest', numbers'',
          (List.append_assoc _ _ _).symm, ?_⟩
        rw [← List.append_assoc]
        exact hlast

/-- However the device cuts what it sends into frames, whatever the link carries
between them and whatever the sizes of the reads, the reads return the payloads
in order: all of it while there is as much as is asked for, and no byte twice.
The stream sends one acknowledgement for each frame of its ports, with that
frame's number plus the length of its payload. -/
theorem inOrder_readEach {fuel turns : Nat} {port : UInt16} {stream : Stream}
    {start opened : ScriptedTransport × Connection}
    {frames payloads : List Bytes} {numbers : List UInt32}
    (hopen : (openDirect fuel port).run start = (.ok stream, opened))
    (hclean : opened.1.Clean) (hwrites : opened.1.writes = [])
    (hremaining : opened.1.remaining = frames.flatten)
    (hdevice : FromDevice opened.2.session.version stream.localPort port frames
      payloads numbers)
    (hturns : frames.length < turns) (sizes : List Nat) :
    (readEach turns sizes (opened, stream)).1 =
        pieces Session.closedMidFrame payloads.flatten sizes ∧
      (sizes.sum ≤ payloads.flatten.length → ∃ chunks : List Bytes,
        (readEach turns sizes (opened, stream)).1 = chunks.map .ok ∧
        chunks.map List.length = sizes ∧
        chunks.flatten = payloads.flatten.take sizes.sum) ∧
      ∃ sent answered, answered <+: numbers ∧
        (readEach turns sizes (opened, stream)).2.1.1.written =
          opened.1.written ++ sent ∧
        sent.map (sentTcp opened.2.session.version) = answered.map fun number =>
          .ok { stream.header TcpAck with acknowledgement := number } := by
  obtain ⟨hstream, -⟩ :=
    (triple_openDirect fuel port start.2.nextPort).of_ok rfl hopen
  have hstart : Reading opened.2.session.version opened.1.written stream [] []
      frames payloads.flatten numbers (opened, stream) := by
    refine ⟨⟨hclean, hwrites, rfl, hremaining.trans (List.append_nil _).symm⟩,
      .stopped Session.not_holdsFrame_nil, ⟨payloads, ?_, ?_⟩,
      ⟨[], (List.append_nil _).symm, rfl⟩, ⟨_, _, _, rfl⟩, ?_, ?_⟩
    · rw [hstream] at hdevice ⊢
      exact hdevice
    · rw [unread, hstream]
      rfl
    · rw [hstream]
    · rw [hstream]
      exact Nat.le_refl _
  obtain ⟨hresults, answered, later, rest', numbers', rfl, hlast⟩ :=
    hstart.readEach hturns sizes
  obtain ⟨sent, hwritten, hsent⟩ := hlast.written
  refine ⟨hresults, fun hsum => ?_, sent, answered, List.prefix_append _ _,
    hwritten, hsent⟩
  rw [hresults]
  exact pieces_of_sum_le Session.closedMidFrame hsum

/-! ### A device with two frames -/

/-- A control message, a frame of another port, and two frames with an empty one
between them. -/
private def twoFrames : List Bytes := [
  Session.frameBytes { version := 1 } .control [3, 0x6f, 0x6f, 0x70, 0x73],
  deviceFrame 62079 TcpAck 9 [9, 9],
  deviceFrame 62078 TcpAck 501 [1, 2, 3],
  deviceFrame 62078 TcpAck 504 [],
  deviceFrame 62078 (TcpAck ||| TcpPsh) 504 [4, 5]]

/-- A frame of a device that is not too long is one of version 1. -/
theorem isFrame_deviceFrame (port : UInt16) (flags : UInt8)
    (sequence : UInt32) {payload : Bytes} (h : payload.length ≤ 49124) :
    ∃ frame, Session.IsFrame 1 frame (deviceFrame port flags sequence payload) ∧
      frame.payload = (deviceHeader port flags sequence).encode ++ payload ∧
      frame.header.protocol = MuxProtocol.tcp.id := by
  have hlimit : kMaxFrameSize - MuxHeader.wireSize 1 = 49144 := by
    decide +kernel
  have hfits : Session.Fits 1
      ((deviceHeader port flags sequence).encode ++ payload) := by
    rw [Session.Fits, hlimit, List.length_append, TcpHeader.length_encode]
    omega
  exact ⟨_, @Session.isFrame_frameBytes { version := 1 } .tcp _ hfits, rfl, rfl⟩

private theorem fromDevice_twoFrames :
    FromDevice 1 1 62078 twoFrames [[1, 2, 3], [4, 5]] [504, 504, 506] := by
  have hcontrol : Session.Fits 1 [3, 0x6f, 0x6f, 0x70, 0x73] := by
    have hlimit : 5 ≤ kMaxFrameSize - MuxHeader.wireSize 1 := by decide +kernel
    exact hlimit
  obtain ⟨other, hother, hotherBytes, -⟩ :=
    @isFrame_deviceFrame 62079 TcpAck 9 [9, 9] (by decide)
  obtain ⟨first, hfirst, hfirstBytes, hfirstTcp⟩ :=
    @isFrame_deviceFrame 62078 TcpAck 501 [1, 2, 3] (by decide)
  obtain ⟨empty, hempty, hemptyBytes, hemptyTcp⟩ :=
    @isFrame_deviceFrame 62078 TcpAck 504 [] (by decide)
  obtain ⟨second, hsecond, hsecondBytes, hsecondTcp⟩ :=
    @isFrame_deviceFrame 62078 (TcpAck ||| TcpPsh) 504 [4, 5] (by decide)
  refine .stray (@Session.isFrame_frameBytes { version := 1 } .control _ hcontrol)
    (.otherProtocol (by decide)) ?_
  refine .stray hother (.otherPorts _ _ hotherBytes (by decide)
    (.inr (by decide))) ?_
  refine .data hfirst ⟨hfirstTcp, hfirstBytes, rfl, rfl, rfl⟩ (by decide)
    (by decide) ?_
  refine .empty hempty ⟨hemptyTcp, hemptyBytes, rfl, rfl, rfl⟩ (by decide) ?_
  exact .data hsecond ⟨hsecondTcp, hsecondBytes, rfl, rfl, rfl⟩ (by decide)
    (by decide) .stop

/-- A stream is opened over a link that accepts it, and then carries these frames
in one read. -/
private def openTwoFrames : Result Stream × (ScriptedTransport × Connection) :=
  (openDirect 9 62078).run ({
      reads := [.ok (deviceFrame 62078 (TcpSyn ||| TcpAck) 500 []),
        .ok twoFrames.flatten] },
    { session := { version := 1 } })

theorem inOrder_readEach_twoFrames :
    (readEach 9 [2, 3] (openTwoFrames.2,
      { localPort := 1, remotePort := 62078, txAck := 501 })).1 =
      [.ok [1, 2], .ok [3, 4, 5]] := by
  have hok : openTwoFrames.1 =
      .ok { localPort := 1, remotePort := 62078, txAck := 501 } := by
    decide +kernel
  have hopen : (openDirect 9 62078).run ({
      reads := [.ok (deviceFrame 62078 (TcpSyn ||| TcpAck) 500 []),
        .ok twoFrames.flatten] },
      { session := { version := 1 } }) =
      (.ok { localPort := 1, remotePort := 62078, txAck := 501 },
        openTwoFrames.2) := by
    rw [← hok]
    exact Prod.mk.eta.symm
  have hreads : openTwoFrames.2.1.reads = [.ok twoFrames.flatten] := by
    decide +kernel
  have hclean : openTwoFrames.2.1.Clean := by
    intro answer hmem
    rw [hreads] at hmem
    rw [List.mem_singleton.mp hmem]
    exact ⟨_, by decide +kernel, rfl⟩
  have hremaining : openTwoFrames.2.1.remaining = twoFrames.flatten := by
    rw [ScriptedTransport.remaining, hreads]
    exact List.append_nil _
  have hversion : openTwoFrames.2.2.session.version = 1 := by decide +kernel
  have hdevice : FromDevice openTwoFrames.2.2.session.version 1 62078 twoFrames
      [[1, 2, 3], [4, 5]] [504, 504, 506] := by
    rw [hversion]
    exact fromDevice_twoFrames
  obtain ⟨hresults, -⟩ := inOrder_readEach hopen hclean (by decide +kernel)
    hremaining hdevice (by decide : 5 < 9) [2, 3]
  exact hresults.trans (by decide +kernel)

end Ioscpp.Stream
