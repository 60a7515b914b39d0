import Ioscpp.ByteStreamSimulation
import Ioscpp.StreamDelivery
import Ioscpp.StreamWrite

/-!
# A stream carries bytes

A stream of a direct link is a byte stream.  Whatever frames the device cuts its
bytes into, and whatever else the link carries, it reads as the stream in memory
that holds these bytes; and a device that takes only the frames whose number is
the next assembles from what the stream sends the bytes that were written.

## Main results

- `carries`: a stream of a direct link carries the bytes of its device, and takes
  those of its caller to it.
- `carried_openDirect`: so does a stream from its opening on.
- `requestAll_opened`: requests to `lockdownd` over such a stream.
-/

namespace Ioscpp

open Ioscpp.Support
open Ioscpp.Protocol
open ScriptedTransport

/-- A stream beside its connection.  A read receives fewer than `turns` frames
before it has bytes. -/
structure StreamLink (τ : Type) where
  state : (τ × Connection) × Stream
  turns : Nat

namespace StreamLink

section Operations

variable {τ : Type} [Transport τ]

def onState {α : Type} (x : Action Error ((τ × Connection) × Stream) α) :
    Action Error (StreamLink τ) α :=
  Action.zoom (·.state) (fun link state => { link with state }) x

instance : ByteStream (StreamLink τ) where
  readExact count := do
    let link ← get
    onState (Stream.readExact count link.turns)
  write data := onState (Stream.write data)

end Operations

/-! ## The device -/

/-- The bytes of a TCP frame behind its headers. -/
def framePayload (version : UInt32) (frame : Bytes) : Bytes :=
  frame.drop (MuxHeader.wireSize version + kTcpHeaderSize)

/-- The number and the bytes of a frame that carries some from the one port to the
other. -/
def framePiece (version : UInt32) (localPort remotePort : UInt16) (frame : Bytes) :
    Option (UInt32 × Bytes) :=
  match Stream.sentTcp version frame with
  | .ok tcp =>
      if tcp.sourcePort = localPort ∧ tcp.destinationPort = remotePort ∧
          framePayload version frame ≠ [] then
        some (tcp.sequence, framePayload version frame)
      else none
  | .error _ => none

/-- The next number and the bytes that a device has of the frames of a stream. -/
abbrev received (version : UInt32) (localPort remotePort : UInt16)
    (first : UInt32) (frames : List Bytes) : Option (UInt32 × Bytes) :=
  assembled (framePiece version localPort remotePort) first frames

theorem framePayload_frameBytes (session : Session) (tcp : TcpHeader)
    (piece : Bytes) :
    framePayload session.version
      (session.frameBytes .tcp (tcp.encode ++ piece)) = piece := by
  have hwire := (session.nextHeader .tcp (tcp.encode ++ piece)).length_wire
    session.version
  have hsplit : session.frameBytes .tcp (tcp.encode ++ piece) =
      (((session.nextHeader .tcp (tcp.encode ++ piece)).encode
        session.version).take (MuxHeader.wireSize session.version) ++
          tcp.encode) ++ piece := by
    rw [Session.frameBytes, List.append_assoc]
  rw [framePayload, hsplit, List.drop_left']
  rw [List.length_append, hwire, tcp.length_encode, kTcpHeaderSize]

theorem framePiece_nil {version : UInt32} {localPort remotePort : UInt16}
    {frame : Bytes} (h : framePayload version frame = []) :
    framePiece version localPort remotePort frame = none := by
  rw [framePiece]
  split
  · exact if_neg fun hall => hall.2.2 h
  · rfl

/-- The frame of a stream's next piece. -/
theorem framePiece_frameBytes (session : Session) (stream : Stream) {piece : Bytes}
    (hpiece : piece ≠ []) :
    framePiece session.version stream.localPort stream.remotePort
        (session.frameBytes .tcp ((stream.header TcpAck).encode ++ piece)) =
      some (stream.txSeq, piece) := by
  have hoffset : (stream.header TcpAck).dataOffset < 16 :=
    (by decide : (5 : UInt8) < 16)
  rw [framePiece, Stream.sentTcp_frameBytes session piece hoffset]
  dsimp only
  rw [framePayload_frameBytes]
  exact if_pos ⟨rfl, rfl, hpiece⟩

/-! ## What reading sends -/

/-- The link wrote frames without bytes since `base`. -/
structure Quiet (version : UInt32) (base : List Bytes)
    (link : ScriptedTransport × Connection) : Prop where
  negotiated : link.2.session.version = version
  written : ∃ sent, link.1.written = base ++ sent ∧
    ∀ frame ∈ sent, framePayload version frame = []

section Quiet

variable {version : UInt32} {base : List Bytes}

theorem keeps_sendTcp (tcp : TcpHeader) :
    Action.Keeps (Quiet version base) (Connection.sendTcp tcp []) := by
  rintro ⟨transport, connection⟩ ⟨hversion, sent, hwritten, hsent⟩
  have hfits := @Stream.fits_piece connection.session.version tcp []
    (Nat.zero_le _)
  have hframe := framePayload_frameBytes connection.session tcp []
  obtain ⟨writes, hrun | ⟨e, hrun⟩⟩ := ScriptedTransport.run_write
    (connection.session.frameBytes .tcp (tcp.encode ++ [])) transport
  · rw [Connection.sendTcp, Connection.onSession, Action.run_zoom,
      Session.run_send hfits, hrun]
    refine ⟨hversion, sent ++ [connection.session.frameBytes .tcp
      (tcp.encode ++ [])], ?_, ?_⟩
    · change transport.written ++ [_] = _
      rw [show transport.written = base ++ sent from hwritten, List.append_assoc]
    · intro frame hmem
      rcases List.mem_append.mp hmem with hmem | hmem
      · exact hsent frame hmem
      · rw [List.mem_singleton.mp hmem, ← hversion]
        exact hframe
  · rw [Connection.sendTcp, Connection.onSession, Action.run_zoom,
      Session.run_send hfits, hrun]
    exact ⟨hversion, sent, hwritten, hsent⟩

theorem keeps_receive :
    Action.Keeps (Quiet version base) Connection.receive := by
  have hread : ∀ count, Action.Keeps
      (fun transport : ScriptedTransport => ∃ sent,
        transport.written = base ++ sent ∧
          ∀ frame ∈ sent, framePayload version frame = [])
      (Transport.read count) := by
    refine fun count => Action.Keeps.of_state fun transport htransport => ?_
    obtain ⟨chunk, houtcome⟩ := ScriptedTransport.run_read count transport
    rw [houtcome.delivers.written]
    exact htransport
  have hreceive : Action.Keeps (fun state : ScriptedTransport × Session =>
      state.2.version = version ∧ ∃ sent, state.1.written = base ++ sent ∧
        ∀ frame ∈ sent, framePayload version frame = []) Session.receive := by
    have honTransport (count : Nat) : Action.Keeps
        (fun state : ScriptedTransport × Session => state.2.version = version ∧
          ∃ sent, state.1.written = base ++ sent ∧
            ∀ frame ∈ sent, framePayload version frame = [])
        (Session.onTransport
          (Transport.readExact Session.closedMidFrame count)) := by
      refine Action.Triple.zoom fun state hstate => ?_
      refine ((Transport.keeps_readExact hread _ count).imp_pre
        fun part hpart => ?_).imp_post ?_ ?_
      · rw [hpart]
        exact hstate.2
      · exact fun _ part hpart => ⟨hstate.1, hpart⟩
      · exact fun _ part hpart => ⟨hstate.1, hpart⟩
    refine Action.Keeps.get_bind fun state => (honTransport _).bind fun bytes =>
      (Action.keeps_lift _).bind fun header =>
        Action.keeps_ite (Action.keeps_lift _) ?_
    exact (honTransport _).bind fun payload =>
      Action.Keeps.bind (Action.keeps_modify fun _ h => h) fun _ =>
        Action.keeps_pure _
  rw [Action.Keeps, Connection.receive, Connection.onSession]
  refine Action.Triple.zoom fun link h => ?_
  refine (hreceive.imp_pre fun part hpart => ?_).imp_post ?_ ?_
  · rw [hpart]
    exact ⟨h.negotiated, h.written⟩
  · exact fun _ part hpart => ⟨hpart.1, hpart.2⟩
  · exact fun _ part hpart => ⟨hpart.1, hpart.2⟩

/-- The link of a stream, wherever the stream is. -/
def QuietLink (version : UInt32) (base : List Bytes)
    (state : (ScriptedTransport × Connection) × Stream) : Prop :=
  Quiet version base state.1

theorem keeps_update (f : Stream → Stream) :
    Action.Keeps (QuietLink version base) (Stream.update f) :=
  Action.keeps_modify fun _ h => h

theorem keeps_receiveMore (fuel : Nat) :
    Action.Keeps (QuietLink version base) (Stream.receiveMore fuel) := by
  induction fuel with
  | zero => exact Action.keeps_lift _
  | succ fuel ih =>
      refine Action.Keeps.get_bind fun state => ?_
      refine (Stream.keeps_onConnection
        (Stream.keeps_receiveTcp keeps_receive _ _ _)).bind
        fun answer => Action.keeps_ite ?_ ?_
      · exact (keeps_update _).bind fun _ => Action.keeps_pure _
      · refine (keeps_update _).bind fun _ => Action.Keeps.get_bind fun state => ?_
        refine (Stream.keeps_onConnection (keeps_sendTcp _)).bind fun _ =>
          Action.keeps_ite ?_ ih
        exact (keeps_update _).bind fun _ => Action.keeps_pure _

theorem keeps_readExact (count turns : Nat) :
    Action.Keeps (QuietLink version base) (Stream.readExact count turns) := by
  rw [Stream.readExact]
  have hloop : ∀ (fuel : Nat) (data : Bytes), Action.Keeps (QuietLink version base)
      (Stream.readExactLoop count turns fuel data) := by
    intro fuel
    induction fuel with
    | zero =>
        exact fun data => Action.keeps_ite (Action.keeps_pure _)
          (Action.keeps_lift _)
    | succ fuel ih =>
        intro data
        refine Action.keeps_ite (Action.keeps_pure _) ?_
        refine Action.Keeps.bind (Action.Keeps.get_bind fun state =>
          Action.keeps_ite ?_ (Action.keeps_pure _)) fun _ => ?_
        · refine (keeps_update _).bind fun _ =>
            (keeps_receiveMore turns).bind fun more => ?_
          cases more with
          | true => exact Action.keeps_pure _
          | false => exact Action.Keeps.get_bind fun state => Action.keeps_lift _
        · refine Action.Keeps.bind (Action.Keeps.get_bind fun state => ?_)
            fun more => ih _
          exact (keeps_update _).bind fun _ => Action.keeps_pure _
  exact hloop count []

end Quiet

/-! ## The stream in memory -/

/-- The link has `memory.incoming` for the stream still to read, and the device
has assembled `memory.written` from what was sent since `base`. -/
structure Carried (version : UInt32) (localPort remotePort : UInt16)
    (base : List Bytes) (first : UInt32) (link : StreamLink ScriptedTransport)
    (memory : MemoryByteStream) : Prop where
  reads : ∃ frames numbers, frames.length < link.turns ∧
    Stream.Reading version link.state.1.1.written link.state.2 [] [] frames
      memory.incoming numbers link.state
  source : link.state.2.localPort = localPort
  destination : link.state.2.remotePort = remotePort
  writes : ∃ sent, link.state.1.1.written = base ++ sent ∧
    received version localPort remotePort first sent =
      some (link.state.2.txSeq, memory.written)

/-- A run of reads may start anywhere. -/
theorem rebase {version : UInt32} {base : List Bytes} {stream : Stream}
    {sofar numbers : List UInt32} {frames : List Bytes} {rest : Bytes}
    {state : (ScriptedTransport × Connection) × Stream}
    (h : Stream.Reading version base stream [] sofar frames rest numbers state) :
    Stream.Reading version state.1.1.written state.2 [] [] frames rest numbers
      state := by
  obtain ⟨txAck, incoming, incomingOffset, hsame⟩ := h.same
  refine ⟨h.linked, .stopped Session.not_holdsFrame_nil, ?_,
    ⟨[], (List.append_nil _).symm, rfl⟩, ⟨_, _, _, rfl⟩, ?_, h.offset⟩
  · have hlocal : state.2.localPort = stream.localPort := by rw [hsame]
    have hremote : state.2.remotePort = stream.remotePort := by rw [hsame]
    rw [hlocal, hremote]
    exact h.device
  · rw [hsame]
    exact h.attached

section Carried

variable {version first : UInt32} {localPort remotePort : UInt16}
  {base : List Bytes}

theorem simulates_readExact (count : Nat) :
    Action.Simulates (Carried version localPort remotePort base first)
      (ByteStream.readExact count) (ByteStream.readExact count) := by
  rintro ⟨state, turns⟩ memory taken next' ⟨⟨frames, numbers, hturns, hreading⟩,
    hlocal, hremote, sent, hwritten, hassembled⟩ hmemory
  obtain ⟨henough, rfl, rfl⟩ := MemoryByteStream.of_run_readExact hmemory
  have hquiet := (keeps_readExact count turns).state
    (⟨hreading.linked.version, [], (List.append_nil _).symm, by simp⟩ :
      QuietLink version state.1.1.written state)
  have hread := @Stream.triple_readExactLoop version _ _ _ _ _ _ _ _ count turns
    count [] hreading hturns (Nat.zero_le _) (by simp)
  have hzoom : (ByteStream.readExact count).run
      (⟨state, turns⟩ : StreamLink ScriptedTransport) =
      (((Stream.readExact count turns).run state).1,
        ⟨((Stream.readExact count turns).run state).2, turns⟩) := rfl
  rw [hzoom]
  change Action.Triple _ (Stream.readExact count turns) _ _ at hread
  rcases hrun : (Stream.readExact count turns).run state with ⟨fault | bytes, next⟩
  · obtain ⟨hshort, -⟩ := hread.of_error rfl hrun
    rw [List.length_nil, Nat.sub_zero] at hshort
    omega
  · obtain ⟨-, rfl, answered, later, numbers', rfl, hlength, hnext⟩ :=
      hread.of_ok rfl hrun
    rw [List.length_nil, Nat.sub_zero] at hnext
    rw [hrun] at hquiet
    obtain ⟨-, acks, hacks, hempty⟩ := hquiet
    obtain ⟨txAck, incoming, incomingOffset, hsame⟩ := hnext.same
    refine ⟨⟨next, turns⟩, by simp, ⟨later, numbers', hlength.trans_lt hturns,
      rebase hnext⟩,
      ?_, ?_, sent ++ acks, ?_, ?_⟩
    · change next.2.localPort = localPort
      rw [hsame]
      exact hlocal
    · change next.2.remotePort = remotePort
      rw [hsame]
      exact hremote
    · change next.1.1.written = _
      rw [hacks, ← List.append_assoc]
      exact congrArg (· ++ acks) hwritten
    · change received version localPort remotePort first (sent ++ acks) =
        some (next.2.txSeq, memory.written)
      rw [received, assembled_quiet fun frame hmem =>
        framePiece_nil (hempty frame hmem), hsame]
      exact hassembled

/-- A frame of the stream is sent, and reading goes on as before. -/
theorem run_sendPiece {state : (ScriptedTransport × Connection) × Stream}
    {frames : List Bytes} {rest piece : Bytes} {numbers : List UInt32}
    (h : Stream.Reading version state.1.1.written state.2 [] [] frames rest numbers
      state)
    (hpiece : piece.length ≤ Stream.kMaxPayload) :
    ∃ next, (Stream.sendPiece piece).run state = (.ok PUnit.unit, next) ∧
      next.1.1.written = state.1.1.written ++ [state.1.2.session.frameBytes .tcp
        ((state.2.header TcpAck).encode ++ piece)] ∧
      next.2 = { state.2 with txSeq := state.2.txSeq + UInt32.ofNat piece.length } ∧
      Stream.Reading version next.1.1.written next.2 [] [] frames rest numbers
        next := by
  obtain ⟨⟨transport, connection⟩, stream⟩ := state
  have hsend := @Session.run_send ScriptedTransport _ .tcp _ transport
    connection.session (Stream.fits_piece connection.session.version
      (stream.header TcpAck) hpiece)
  rw [ScriptedTransport.run_write_ok _ h.linked.writes] at hsend
  have hrun : (Stream.onConnection (Connection.sendTcp (stream.header TcpAck)
      piece)).run ((transport, connection), stream) = (.ok (),
        (({ transport with written := transport.written ++
            [connection.session.frameBytes .tcp
              ((stream.header TcpAck).encode ++ piece)] },
          { connection with session :=
            { connection.session with txSeq := connection.session.txSeq + 1 } }),
          stream)) := by
    rw [Stream.onConnection, Action.run_bind_ok (Action.run_get _),
      if_pos h.attached, Action.run_zoom, Connection.sendTcp, Connection.onSession,
      Action.run_zoom, hsend]
  refine ⟨(({ transport with written := transport.written ++
        [connection.session.frameBytes .tcp
          ((stream.header TcpAck).encode ++ piece)] },
      { connection with session :=
        { connection.session with txSeq := connection.session.txSeq + 1 } }),
      { stream with txSeq := stream.txSeq + UInt32.ofNat piece.length }),
    ?_, rfl, rfl, ?_⟩
  · rw [Stream.sendPiece, Action.run_bind_ok (Action.run_get _),
      Action.run_bind_ok hrun]
    rfl
  · exact ⟨⟨h.linked.clean, h.linked.writes, h.linked.version, h.linked.remaining⟩,
      h.ends, h.device, ⟨[], (List.append_nil _).symm, rfl⟩, ⟨_, _, _, rfl⟩,
      h.attached, h.offset⟩

/-- A frame of a write is assembled. -/
theorem sendPiece_carried {turns : Nat} {piece : Bytes}
    {state : (ScriptedTransport × Connection) × Stream}
    {memory : MemoryByteStream} (hpiece : piece ≠ [])
    (hlength : piece.length ≤ Stream.kMaxPayload)
    (h : Carried version localPort remotePort base first ⟨state, turns⟩ memory) :
    ∃ next, (Stream.sendPiece piece).run state = (.ok (), next) ∧
      Carried version localPort remotePort base first ⟨next, turns⟩
        { memory with written := memory.written ++ piece } := by
  obtain ⟨⟨frames, numbers, hturns, hreading⟩, hlocal, hremote, sent, hwritten,
    hassembled⟩ := h
  obtain ⟨next, hrun, hsent, hnext, hreading'⟩ := run_sendPiece hreading hlength
  have hframe := framePiece_frameBytes state.1.2.session state.2 hpiece
  rw [hreading.linked.version, hlocal, hremote] at hframe
  have hframe := assembled_next hassembled hframe
  refine ⟨next, hrun, ⟨frames, numbers, hturns, hreading'⟩, ?_, ?_, _, ?_,
    hframe.trans ?_⟩
  · change next.2.localPort = _
    rw [hnext]
    exact hlocal
  · change next.2.remotePort = _
    rw [hnext]
    exact hremote
  · rw [← List.append_assoc, ← hwritten]
    exact hsent
  · change _ = some (next.2.txSeq, _)
    rw [hnext]

theorem simulates_write (data : Bytes) :
    Action.Simulates (Carried version localPort remotePort base first)
      (ByteStream.write data) (ByteStream.write data) := by
  rintro ⟨state, turns⟩ memory ⟨⟩ next' h hmemory
  rw [MemoryByteStream.run_write] at hmemory
  obtain rfl := (Prod.mk.inj hmemory).2
  obtain ⟨next, hrun, hnext⟩ := @run_sendPieces_ok _ _
    (fun sofar state => Carried version localPort remotePort base first
      ⟨state, turns⟩ { memory with written := memory.written ++ sofar })
    (fun _ => Stream.kMaxPayload) Stream.sendPiece
    (fun _ _ _ => (by decide : 0 < Stream.kMaxPayload))
    (fun sofar piece state hstate hpiece hlength => by
      have hsent := sendPiece_carried hpiece hlength hstate
      rwa [List.append_assoc] at hsent)
    data.length [] data state (Nat.le_refl _) (by rwa [List.append_nil])
  have hwrite : (ByteStream.write data).run
      (⟨state, turns⟩ : StreamLink ScriptedTransport) =
      (.ok (), ⟨next, turns⟩) := by
    change (((Stream.write data).run state).1,
      (⟨((Stream.write data).run state).2, turns⟩ : StreamLink _)) = _
    rw [Stream.write, Stream.run_writeLoop, hrun]
  exact ⟨_, hwrite, hnext⟩

/-- A stream of a direct link carries the bytes of its device, and takes those of
its caller to it. -/
theorem carries : CarriesBytes (Carried version localPort remotePort base first) where
  readExact := simulates_readExact
  write := simulates_write

end Carried

/-! ## A stream that was opened -/

section Opened

variable {fuel turns : Nat} {port : UInt16} {stream : Stream}
  {start opened : ScriptedTransport × Connection}
  {frames payloads : List Bytes} {numbers : List UInt32}

/-- A stream that was opened carries the payloads that the device sends for it. -/
theorem carried_openDirect
    (hopen : (Stream.openDirect fuel port).run start = (.ok stream, opened))
    (hclean : opened.1.Clean) (hwrites : opened.1.writes = [])
    (hremaining : opened.1.remaining = frames.flatten)
    (hdevice : Stream.FromDevice opened.2.session.version stream.localPort port
      frames payloads numbers)
    (hturns : frames.length < turns) :
    Carried opened.2.session.version stream.localPort port opened.1.written
      stream.txSeq ⟨(opened, stream), turns⟩ ⟨payloads.flatten, []⟩ := by
  obtain ⟨hstream, -⟩ :=
    (Stream.triple_openDirect fuel port start.2.nextPort).of_ok rfl hopen
  have hremote : stream.remotePort = port := by rw [hstream]
  have hunread : stream.unread = [] := by rw [hstream]; rfl
  have hattached : stream.attached = true := by rw [hstream]
  have hoffset : stream.incomingOffset ≤ stream.incoming.length := by
    rw [hstream]
    exact Nat.le_refl _
  have hpayloads : payloads.flatten = stream.unread ++ payloads.flatten := by
    rw [hunread, List.nil_append]
  have hreading : Stream.Reading opened.2.session.version opened.1.written stream
      [] []
      frames payloads.flatten numbers (opened, stream) :=
    ⟨⟨hclean, hwrites, rfl, hremaining.trans (List.append_nil _).symm⟩,
      .stopped Session.not_holdsFrame_nil, ⟨payloads, hremote ▸ hdevice, hpayloads⟩,
      ⟨[], (List.append_nil _).symm, rfl⟩, ⟨_, _, _, rfl⟩, hattached, hoffset⟩
  exact ⟨⟨frames, numbers, hturns, hreading⟩, rfl, hremote, [],
    (List.append_nil _).symm, rfl⟩

/-- `lockdownd` over a stream of a direct link.  However the device cuts its
answers into frames, and whatever else the link carries, each request has the
verdict of its own answer; the device assembles the requests from what was sent,
and what follows the answers is read next. -/
theorem requestAll_opened
    (hopen : (Stream.openDirect fuel port).run start = (.ok stream, opened))
    (hclean : opened.1.Clean) (hwrites : opened.1.writes = [])
    (hremaining : opened.1.remaining = frames.flatten)
    (hdevice : Stream.FromDevice opened.2.session.version stream.localPort port
      frames payloads numbers)
    (hturns : frames.length < turns) {exchanges : List Lockdown.Exchange}
    {rest : Bytes} (hanswers : ∀ exchange ∈ exchanges, exchange.Answered)
    (hpayloads : payloads.flatten = Lockdown.answersOf exchanges ++ rest) :
    ∃ last : StreamLink ScriptedTransport,
      Lockdown.requestAll (exchanges.map Lockdown.Exchange.request)
          (⟨(opened, stream), turns⟩ : StreamLink ScriptedTransport) =
        (exchanges.map fun exchange => Lockdown.checkAnswer exchange.answer, last) ∧
      (∀ count ≤ rest.length,
        ((ByteStream.readExact count).run last).1 = .ok (rest.take count)) ∧
      ∃ sent next, last.state.1.1.written = opened.1.written ++ sent ∧
        received opened.2.session.version stream.localPort port stream.txSeq sent =
          some (next, Lockdown.requestsOf exchanges) := by
  have hcarried := carried_openDirect hopen hclean hwrites hremaining hdevice hturns
  rw [hpayloads] at hcarried
  obtain ⟨last, hrequests, hlast⟩ :=
    Lockdown.requestAll_carried carries hanswers hcarried
  obtain ⟨sent, hwritten, hreceived⟩ := hlast.writes
  exact ⟨last, hrequests, fun count hcount => carries.run_readExact hlast hcount,
    sent, _, hwritten, hreceived⟩

end Opened

/-! ### A run -/

private def textAnswer (key text : String) : Plist :=
  .dictionary [(ascii key, .string (ascii text))]

private theorem sendable_textAnswer {key text : String}
    (h : (textAnswer key text).toXml.length < 2 ^ 32) :
    PlistService.Sendable (textAnswer key text) :=
  PlistService.sendable_dictionary (List.pairwise_singleton _ _)
    (by rw [List.forall_mem_singleton]; exact PlistService.isText_string _) h

/-- A type that is told, and a value that is not. -/
private def lockdownExchanges : List Lockdown.Exchange := [
  ⟨.null, textAnswer "Type" "com.apple.mobile.lockdown",
    PlistService.frame (textAnswer "Type" "com.apple.mobile.lockdown")⟩,
  ⟨.dictionary [], textAnswer "Error" "MissingValue",
    PlistService.frame (textAnswer "Error" "MissingValue")⟩]

private theorem answered_lockdownExchanges :
    ∀ exchange ∈ lockdownExchanges, exchange.Answered := by
  simp only [lockdownExchanges, List.forall_mem_cons]
  exact ⟨Lockdown.answers_frame (sendable_textAnswer (by decide +kernel)),
    Lockdown.answers_frame (sendable_textAnswer (by decide +kernel)), by simp⟩

/-- The answers, and three bytes behind them. -/
private def lockdownBytes : Bytes := Lockdown.answersOf lockdownExchanges ++ [1, 2, 3]

/-- A frame of another port, and the answers in two frames that are cut inside the
first answer. -/
private def lockdownFrames : List Bytes := [
  Stream.deviceFrame 62079 TcpAck 9 [9, 9],
  Stream.deviceFrame 62078 TcpAck 501 (lockdownBytes.take 100),
  Stream.deviceFrame 62078 TcpAck 601 (lockdownBytes.drop 100)]

private theorem fromDevice_lockdownFrames :
    ∃ numbers, Stream.FromDevice 1 1 62078 lockdownFrames
      [lockdownBytes.take 100, lockdownBytes.drop 100] numbers := by
  obtain ⟨other, hother, hotherBytes, -⟩ :=
    @Stream.isFrame_deviceFrame 62079 TcpAck 9 [9, 9] (by decide)
  obtain ⟨first, hfirst, hfirstBytes, hfirstTcp⟩ :=
    @Stream.isFrame_deviceFrame 62078 TcpAck 501 (lockdownBytes.take 100)
      (by decide +kernel)
  obtain ⟨second, hsecond, hsecondBytes, hsecondTcp⟩ :=
    @Stream.isFrame_deviceFrame 62078 TcpAck 601 (lockdownBytes.drop 100)
      (by decide +kernel)
  exact ⟨_, .stray hother (.otherPorts _ _ hotherBytes (by decide)
      (.inr (by decide)))
    (.data hfirst ⟨hfirstTcp, hfirstBytes, rfl, rfl, rfl⟩ (by decide +kernel)
      (by decide)
      (.data hsecond ⟨hsecondTcp, hsecondBytes, rfl, rfl, rfl⟩ (by decide +kernel)
        (by decide) .stop))⟩

/-- A link that accepts a stream and then has these frames. -/
private def lockdownLink : ScriptedTransport × Connection :=
  ({ reads := [.ok (Stream.deviceFrame 62078 (TcpSyn ||| TcpAck) 500 []),
      .ok lockdownFrames.flatten] }, { session := { version := 1 } })

private def lockdownStream : Stream :=
  { localPort := 1, remotePort := 62078, txAck := 501 }

theorem requestAll_opened_lockdownLink :
    (Lockdown.requestAll [.null, .dictionary []]
        (⟨(((Stream.openDirect 9 62078).run lockdownLink).2, lockdownStream), 9⟩ :
          StreamLink ScriptedTransport)).1 =
      [.ok (textAnswer "Type" "com.apple.mobile.lockdown"),
        .error (.error ⟨.device, ascii "MissingValue"⟩)] := by
  set opened := ((Stream.openDirect 9 62078).run lockdownLink).2 with hopened
  have hok : ((Stream.openDirect 9 62078).run lockdownLink).1 =
      .ok lockdownStream := by decide +kernel
  have hopen : (Stream.openDirect 9 62078).run lockdownLink =
      (.ok lockdownStream, opened) := by
    rw [← hok]
  have hreads : opened.1.reads = [.ok lockdownFrames.flatten] := by
    rw [hopened]
    decide +kernel
  have hclean : opened.1.Clean := by
    intro answer hmem
    rw [hreads] at hmem
    rw [List.mem_singleton.mp hmem]
    exact ⟨_, by decide +kernel, rfl⟩
  have hremaining : opened.1.remaining = lockdownFrames.flatten := by
    rw [ScriptedTransport.remaining, hreads]
    exact List.append_nil _
  have hwrites : opened.1.writes = [] := by
    rw [hopened]
    decide +kernel
  have hversion : opened.2.session.version = 1 := by
    rw [hopened]
    decide +kernel
  obtain ⟨numbers, hdevice⟩ := fromDevice_lockdownFrames
  rw [← hversion] at hdevice
  obtain ⟨last, hrun, -⟩ := @requestAll_opened 9 9 62078 lockdownStream lockdownLink
    opened lockdownFrames _ numbers hopen hclean hwrites hremaining hdevice (by decide)
    lockdownExchanges [1, 2, 3] answered_lockdownExchanges (by simp [lockdownBytes])
  change (Lockdown.requestAll (lockdownExchanges.map Lockdown.Exchange.request) _).1 = _
  rw [hrun]
  rfl

end StreamLink

end Ioscpp
