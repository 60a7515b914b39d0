import Ioscpp.Protocol.Http2

/-!
# Reading HTTP/2 frames

What `readFrame` does over a scripted transport, however the script cuts the
peer's bytes: it fails in a read and keeps every byte, or it has a whole frame
and handles it.  A frame is taken off the buffer only when it has been handled.

## Main results

- `triple_handleFrame`: handling a frame queues its messages and writes
  acknowledgements only.
- `triple_readFrame`: a read takes the next frame, or fails and loses nothing.
- `triple_readFrame_acked`: a read from any peer writes acknowledgements only.
-/

namespace Ioscpp.Protocol

open Ioscpp.Support

namespace Http2Frame

def encode (frame : Http2Frame) : Bytes :=
  appendFrame [] frame.type frame.flags frame.stream frame.payload

/-- A frame as a peer sends it: its length and its stream fit their fields, and a
WINDOW_UPDATE holds one increment. -/
structure WellFormed (frame : Http2Frame) : Prop where
  length : frame.payload.length < 2 ^ 24
  stream : frame.stream.toNat < 2 ^ 31
  windowUpdate : frame.type = kWindowUpdate → frame.payload.length = 4

/-- The messages a frame carries: one, when it is a DATA frame that is not
empty. -/
def messages (frame : Http2Frame) : List Http2Message :=
  if frame.type = kData ∧ frame.payload ≠ [] then
    [⟨frame.stream, frame.payload⟩]
  else []

/-- The nine bytes before the payload. -/
def header (frame : Http2Frame) : Bytes :=
  beBytes 3 frame.payload.length ++ ([frame.type] ++ ([frame.flags] ++
    beBytes 4 (frame.stream.toNat % 2 ^ 31)))

theorem encode_eq (frame : Http2Frame) :
    frame.encode = frame.header ++ frame.payload := by
  simp [encode, appendFrame, header]

@[simp] theorem length_header (frame : Http2Frame) : frame.header.length = 9 := by
  simp [header]

theorem length_encode (frame : Http2Frame) :
    frame.encode.length = 9 + frame.payload.length := by
  rw [encode_eq, List.length_append, length_header]

end Http2Frame

namespace Http2

/-- The header of a well-formed frame is read as its fields. -/
theorem frameHeader_header {frame : Http2Frame} (h : frame.WellFormed)
    (rest : Bytes) :
    frameHeader (frame.header ++ rest) =
      .ok (frame.payload.length, frame.type, frame.flags, frame.stream) := by
  have hlength := h.length
  have hstream := h.stream
  have hmod : frame.stream.toNat % 2 ^ 31 = frame.stream.toNat :=
    Nat.mod_eq_of_lt hstream
  have hfirst : (readBe (frame.header ++ rest) 0 3 : Result Nat) =
      .ok frame.payload.length :=
    readBe_word [] ([frame.type] ++ ([frame.flags] ++
      (beBytes 4 (frame.stream.toNat % 2 ^ 31) ++ rest)))
      (by simp [Http2Frame.header]) rfl (by omega) (by omega)
  have hlast : (readBe (frame.header ++ rest) 5 4 : Result Nat) =
      .ok (frame.stream.toNat % 2 ^ 31) :=
    readBe_word (beBytes 3 frame.payload.length ++ ([frame.type] ++
      [frame.flags])) rest (by simp [Http2Frame.header]) (by simp)
      (by omega) (by omega)
  have htype : (byteAt (frame.header ++ rest) 3 : Result UInt8) =
      .ok frame.type := rfl
  have hflags : (byteAt (frame.header ++ rest) 4 : Result UInt8) =
      .ok frame.flags := rfl
  rw [frameHeader, hfirst, htype, hflags, hlast, hmod]
  simp

/-! ## Filling the buffer -/

open ScriptedTransport

/-- The connection with more bytes in its buffer, and nothing else changed. -/
structure Filled (before after : Http2 ScriptedTransport) (bytes : Bytes) :
    Prop where
  delivers : Delivers before.transport after.transport bytes
  eq : after = { before with
    transport := after.transport, buffer := before.buffer ++ bytes }

theorem Filled.refl (http2 : Http2 ScriptedTransport) : Filled http2 http2 [] :=
  ⟨.refl _, by rw [List.append_nil]⟩

theorem Filled.buffer_eq {before after : Http2 ScriptedTransport} {bytes : Bytes}
    (h : Filled before after bytes) : after.buffer = before.buffer ++ bytes := by
  rw [h.eq]

theorem Filled.trans {first second third : Http2 ScriptedTransport}
    {front back : Bytes} (h : Filled first second front)
    (h' : Filled second third back) : Filled first third (front ++ back) := by
  refine ⟨h.delivers.trans h'.delivers, ?_⟩
  have hthird := h'.eq
  rw [h.eq] at hthird
  rw [hthird, List.append_assoc]

/-- The bytes that are not handled yet: those in the buffer, and those the script
still delivers. -/
def pending (http2 : Http2 ScriptedTransport) : Bytes :=
  http2.buffer ++ http2.transport.remaining

theorem Filled.pending_eq {before after : Http2 ScriptedTransport}
    {bytes : Bytes} (h : Filled before after bytes) :
    after.pending = before.pending := by
  rw [pending, pending, h.buffer_eq, h.delivers.remaining, List.append_assoc]

/-- The error of a peer that has no more bytes. -/
def connectionEnded : Error := protocolError "the HTTP/2 connection ended"

/-- How filling fails: the bytes that came are kept, and from a script without
failures it is the end of the stream. -/
structure FillFailed (count : Nat) (before after : Http2 ScriptedTransport)
    (e : Fault Error) : Prop where
  filled : ∃ bytes, Filled before after bytes
  clean : before.transport.Clean →
    before.pending.length < count ∧ e = .error connectionEnded

theorem triple_fill (count : Nat) (http2 : Http2 ScriptedTransport) :
    Action.Triple (fun state => state = http2) (fill count)
      (fun _ state => (∃ bytes, Filled http2 state bytes) ∧
        count ≤ state.buffer.length)
      (fun e state => FillFailed count http2 state e) := by
  rintro state rfl
  obtain ⟨bytes, hfill⟩ := Buffered.run_fill connectionEnded kMaxFrameSize count
    (state.transport, state.buffer)
  have hclean := hfill.clean (by decide)
  have hended := hfill.ended
  rw [fill, Action.run_zoom, ← connectionEnded]
  rcases hrun : Action.run (Buffered.fill connectionEnded kMaxFrameSize count)
      (state.transport, state.buffer) with ⟨result, transport, buffer⟩
  rw [hrun] at hfill hclean hended
  obtain rfl : buffer = state.buffer ++ bytes := hfill.buffer
  have hfilled : Filled state { state with
      transport := transport, buffer := state.buffer ++ bytes } bytes :=
    ⟨hfill.delivers, rfl⟩
  rcases hfill.result with ⟨hok, hle⟩ | ⟨⟨e, he⟩, hlt⟩
  · obtain rfl : result = .ok () := hok
    exact ⟨⟨bytes, hfilled⟩, hle⟩
  · obtain rfl : result = .error (.error e) := he
    refine ⟨⟨bytes, hfilled⟩, fun hscript => ⟨?_, ?_⟩⟩
    · by_contra henough
      rw [pending, List.length_append, Nat.not_lt] at henough
      cases hclean hscript henough
    · rcases hended hscript with hok | herror
      · cases hok
      · exact Except.error.inj herror

/-! ## Handling a frame -/

/-- The frames that are written while frames are handled. -/
def IsAck (frame : Bytes) : Prop :=
  frame = settingsFrame true ∨ frame = pingAckFrame

/-- The DATA frame that an event records: its stream and its size. -/
def sentFrame : Http2Event → Option (Nat × Nat)
  | .sent stream size => some (stream, size)
  | _ => none

/-- The connection after acknowledgements: nothing else was written, and no DATA
frame is recorded. -/
structure Acked (before after : Http2 ScriptedTransport) : Prop where
  written : ∃ acks, (∀ frame ∈ acks, IsAck frame) ∧
    after.transport.written = before.transport.written ++ acks
  sent : after.trace.filterMap sentFrame = before.trace.filterMap sentFrame

theorem Acked.refl (http2 : Http2 ScriptedTransport) : Acked http2 http2 :=
  ⟨⟨[], by simp, (List.append_nil _).symm⟩, rfl⟩

theorem Acked.trans {first second third : Http2 ScriptedTransport}
    (h : Acked first second) (h' : Acked second third) : Acked first third := by
  obtain ⟨acks, hacks, hwritten⟩ := h.written
  obtain ⟨more, hmore, hthird⟩ := h'.written
  refine ⟨⟨acks ++ more, ?_, ?_⟩, h'.sent.trans h.sent⟩
  · intro frame hmem
    rcases List.mem_append.mp hmem with hmem | hmem
    · exact hacks frame hmem
    · exact hmore frame hmem
  · rw [hthird, hwritten, List.append_assoc]

theorem Filled.acked {before after : Http2 ScriptedTransport} {bytes : Bytes}
    (h : Filled before after bytes) : Acked before after := by
  refine ⟨⟨[], by simp, ?_⟩, ?_⟩
  · rw [h.delivers.written, List.append_nil]
  · rw [h.eq]

/-- The connection after some of its own frames, and messages received. -/
structure Handled (before after : Http2 ScriptedTransport)
    (messages : List Http2Message) : Prop where
  buffer : after.buffer = before.buffer
  reads : after.transport.reads = before.transport.reads
  received : after.received = before.received ++ messages
  acked : Acked before after

section Handled

variable {http2 state : Http2 ScriptedTransport} {frame : Http2Frame}
  {messages : List Http2Message}

theorem Handled.refl (http2 : Http2 ScriptedTransport) : Handled http2 http2 [] :=
  ⟨rfl, rfl, (List.append_nil _).symm, .refl _⟩

/-- A change of the windows, the flags or the trace. -/
theorem Handled.of_eq {next : Http2 ScriptedTransport}
    (h : Handled http2 state messages) (hbuffer : next.buffer = state.buffer)
    (htransport : next.transport = state.transport)
    (hreceived : next.received = state.received)
    (hsent : next.trace.filterMap sentFrame = state.trace.filterMap sentFrame) :
    Handled http2 next messages := by
  refine ⟨hbuffer.trans h.buffer, ?_, hreceived.trans h.received,
    h.acked.trans ⟨⟨[], by simp, ?_⟩, hsent⟩⟩
  · rw [htransport, h.reads]
  · rw [htransport, List.append_nil]

/-- Writing an acknowledgement. -/
theorem triple_ack {ack : Bytes} (hack : IsAck ack) :
    Action.Triple (fun state => Handled http2 state [])
      (onTransport (Transport.write ack)) (fun _ state => Handled http2 state [])
      (fun _ state => Handled http2 state []) := by
  intro state hstate
  rw [onTransport, Action.run_zoom]
  obtain ⟨writes, hok | ⟨e, herror⟩⟩ := run_write ack state.transport
  · rw [hok]
    refine ⟨hstate.buffer, hstate.reads, hstate.received,
      hstate.acked.trans ⟨⟨[ack], fun frame hmem => ?_, rfl⟩, rfl⟩⟩
    rw [List.mem_singleton.mp hmem]
    exact hack
  · rw [herror]
    exact ⟨hstate.buffer, hstate.reads, hstate.received,
      hstate.acked.trans ⟨⟨[], by simp, (List.append_nil _).symm⟩, rfl⟩⟩

theorem applySettings_eq (entries : List (Nat × Nat))
    (http2 : Http2 ScriptedTransport) :
    (entries.foldl applySetting http2).buffer = http2.buffer ∧
      (entries.foldl applySetting http2).transport = http2.transport ∧
      (entries.foldl applySetting http2).received = http2.received ∧
      (entries.foldl applySetting http2).trace.filterMap sentFrame =
        http2.trace.filterMap sentFrame := by
  induction entries generalizing http2 with
  | nil => exact ⟨rfl, rfl, rfl, rfl⟩
  | cons entry rest ih =>
      obtain ⟨hbuffer, htransport, hreceived, hsent⟩ :=
        ih (applySetting http2 entry)
      rw [List.foldl_cons, hbuffer, htransport, hreceived, hsent, applySetting]
      split
      · exact ⟨rfl, rfl, rfl, by simp [sentFrame]⟩
      · exact ⟨rfl, rfl, rfl, rfl⟩

theorem triple_handleSettings :
    Action.Triple (fun state => state = http2) (handleSettings frame)
      (fun _ state => Handled http2 state [])
      (fun _ state => Handled http2 state []) := by
  refine Action.Triple.ite (fun _ => ?_) fun _ => ?_
  · refine Action.Triple.bind (Q := fun _ state => Handled http2 state []) ?_
      fun _ => Action.Triple.bind (Q := fun _ state => Handled http2 state [])
        ?_ fun _ => triple_ack (.inl rfl)
    · refine Action.Triple.modify fun state heq => ?_
      obtain ⟨hbuffer, htransport, hreceived, hsent⟩ :=
        applySettings_eq (settingsEntries frame.payload) state
      subst heq
      exact (Handled.refl state).of_eq hbuffer htransport hreceived hsent
    · exact Action.Triple.modify fun state h => h.of_eq rfl rfl rfl rfl
  · exact Action.Triple.pure fun state heq => heq ▸ Handled.refl _

theorem triple_handleWindowUpdate :
    Action.Triple (fun state => state = http2) (handleWindowUpdate frame)
      (fun _ state => Handled http2 state [])
      (fun _ state => Handled http2 state []) := by
  refine Action.Triple.bind (Q := fun _ state => state = http2) ?_ fun _ => ?_
  · exact Action.Triple.lift (fun _ _ _ heq => heq)
      fun _ _ _ heq => heq ▸ Handled.refl _
  · refine Action.Triple.modify fun state heq => ?_
    subst heq
    split
    · exact (Handled.refl state).of_eq rfl rfl rfl (by simp [sentFrame])
    · exact (Handled.refl state).of_eq rfl rfl rfl (by simp [sentFrame])

theorem triple_handleFailure (error : Result Error) :
    Action.Triple (fun state => state = http2) (handleFailure error)
      (fun _ state => Handled http2 state [])
      (fun _ state => Handled http2 state []) := by
  refine Action.Triple.bind (Q := fun _ state => state = http2) ?_ fun _ => ?_
  · exact Action.Triple.lift (fun _ _ _ heq => heq)
      fun _ _ _ heq => heq ▸ Handled.refl _
  · refine Action.Triple.modify fun state heq => ?_
    subst heq
    exact (Handled.refl state).of_eq rfl rfl rfl rfl

/-- Handling a frame queues its messages and writes acknowledgements only; only
a frame without messages can fail. -/
theorem triple_handleFrame :
    Action.Triple (fun state => state = http2) (handleFrame frame)
      (fun _ state => Handled http2 state frame.messages)
      (fun _ state => Handled http2 state [] ∧ frame.messages = []) := by
  by_cases hdata : frame.type = kData
  · rw [handleFrame, if_pos hdata]
    refine Action.Triple.ite (fun hnil => ?_) fun hne => ?_
    · refine Action.Triple.pure fun state heq => ?_
      rw [Http2Frame.messages, if_neg (fun h => h.2 hnil)]
      exact heq ▸ Handled.refl _
    · refine Action.Triple.modify fun state heq => ?_
      subst heq
      rw [Http2Frame.messages, if_pos ⟨hdata, hne⟩]
      exact ⟨rfl, rfl, rfl, ⟨[], by simp, (List.append_nil _).symm⟩, rfl⟩
  · have hnone : frame.messages = [] := by
      rw [Http2Frame.messages, if_neg (fun h => hdata h.1)]
    have hcontrol : Action.Triple (fun state => state = http2)
        (handleFrame frame) (fun _ state => Handled http2 state [])
        (fun _ state => Handled http2 state []) := by
      rw [handleFrame, if_neg hdata]
      refine Action.Triple.ite (fun _ => triple_handleSettings) fun _ => ?_
      refine Action.Triple.ite (fun _ => triple_handleWindowUpdate) fun _ => ?_
      refine Action.Triple.ite (fun _ => ?_) fun _ => ?_
      · refine Action.Triple.ite (fun _ => ?_) fun _ => ?_
        · exact (triple_ack (.inr rfl)).imp_pre fun _ heq => heq ▸ Handled.refl _
        · exact Action.Triple.pure fun state heq => heq ▸ Handled.refl _
      refine Action.Triple.ite (fun _ => triple_handleFailure _) fun _ => ?_
      refine Action.Triple.ite (fun _ => triple_handleFailure _) fun _ => ?_
      exact Action.Triple.pure fun state heq => heq ▸ Handled.refl _
    rw [hnone]
    exact hcontrol.imp_post (fun _ _ h => h) fun _ _ h => ⟨h, rfl⟩

end Handled

/-! ## Reading a frame -/

section ReadFrame

variable {http2 : Http2 ScriptedTransport} {frames : List Http2Frame}

/-- A buffer with enough bytes of the peer's frames starts with the first of
them. -/
theorem first_frame {count : Nat} (hpos : 0 < count)
    (hpending : http2.pending <+: frames.flatMap Http2Frame.encode)
    (hcount : count ≤ http2.buffer.length) :
    ∃ frame rest, frames = frame :: rest ∧ ∀ front,
      front <+: frame.encode → front.length ≤ count →
        front <+: http2.buffer := by
  cases frames with
  | nil =>
      have hlength := hpending.length_le
      simp only [pending, List.flatMap_nil, List.length_append,
        List.length_nil] at hlength
      omega
  | cons frame rest =>
      refine ⟨frame, rest, rfl, fun front hfront hlength => ?_⟩
      rw [List.flatMap_cons] at hpending
      exact List.prefix_of_prefix_length_le
        (hfront.trans (List.prefix_append _ _))
        ((List.prefix_append _ _).trans hpending) (hlength.trans hcount)

/-- A read that takes no frame: no byte is lost, nothing is queued. -/
structure Kept (before after : Http2 ScriptedTransport) : Prop where
  pending : after.pending = before.pending
  received : after.received = before.received

/-- A read that takes a frame: its bytes are gone and its messages are queued. -/
structure Took (frame : Http2Frame) (before after : Http2 ScriptedTransport) :
    Prop where
  pending : before.pending = frame.encode ++ after.pending
  received : after.received = before.received ++ frame.messages

theorem Filled.kept {after : Http2 ScriptedTransport} {bytes : Bytes}
    (h : Filled http2 after bytes) : Kept http2 after :=
  ⟨h.pending_eq, by rw [h.eq]⟩

/-- Reading from a peer that sends well-formed frames, given what is known when
the stream fails and what handling the next frame does. -/
theorem triple_readFrame_of {Q : Http2 ScriptedTransport → Prop}
    {E : Fault Error → Http2 ScriptedTransport → Prop}
    (hframes : ∀ frame ∈ frames, frame.WellFormed)
    (hpending : http2.pending <+: frames.flatMap Http2Frame.encode)
    (hfill : ∀ count e state,
      frames = [] ∨ count ≤ (frames.flatMap Http2Frame.encode).length →
        FillFailed count http2 state e → E e state)
    (hframe : ∀ frame rest state bytes behind, frames = frame :: rest →
      Filled http2 state bytes → state.buffer = frame.encode ++ behind →
        Action.Triple (fun other => other = state) (handleFrame frame)
          (fun _ other => Q { other with
            buffer := other.buffer.drop (9 + frame.payload.length) }) E) :
    Action.Triple (fun state => state = http2) readFrame (fun _ => Q) E := by
  have hsize : frames = [] ∨ 9 ≤ (frames.flatMap Http2Frame.encode).length := by
    cases frames with
    | nil => exact .inl rfl
    | cons frame rest =>
        right
        rw [List.flatMap_cons, List.length_append, frame.length_encode]
        omega
  refine Action.Triple.bind ((triple_fill 9 http2).imp_post (fun _ _ h => h)
    fun e state h => hfill 9 e state hsize h) fun _ => ?_
  refine Action.Triple.get_bind fun first hfirst => ?_
  obtain ⟨⟨bytes, hfilled⟩, hnine⟩ := hfirst
  have hfirst := hfilled.pending_eq
  rw [← hfirst] at hpending
  obtain ⟨frame, rest, rfl, hstarts⟩ := first_frame (by decide) hpending hnine
  have hheader : frame.header <+: first.buffer := by
    refine hstarts _ ?_ (by simp)
    rw [frame.encode_eq]
    exact List.prefix_append _ _
  obtain ⟨tail, htail⟩ := hheader
  rw [← htail, frameHeader_header (hframes frame (by simp))]
  refine Action.Triple.lift_ok_bind ?_
  refine Action.Triple.bind ((triple_fill (9 + frame.payload.length)
    first).imp_post (fun _ _ h => h) fun e state h => ?_) fun _ => ?_
  · refine hfill (9 + frame.payload.length) e state (.inr ?_) ⟨?_, ?_⟩
    · rw [List.flatMap_cons, List.length_append, frame.length_encode]
      omega
    · obtain ⟨more, hmore⟩ := h.filled
      exact ⟨_, hfilled.trans hmore⟩
    · intro hclean
      rw [← hfirst]
      exact h.clean (hfilled.delivers.clean hclean)
  refine Action.Triple.get_bind fun second hsecond => ?_
  obtain ⟨⟨more, hmore⟩, hwhole⟩ := hsecond
  have hboth := hfilled.trans hmore
  rw [← hmore.pending_eq] at hpending
  obtain ⟨frame', rest', heq, hstarts⟩ := first_frame (by omega) hpending hwhole
  obtain ⟨rfl, rfl⟩ := List.cons.inj heq
  obtain ⟨behind, hbehind⟩ := hstarts frame.encode (List.prefix_refl _)
    (Nat.le_of_eq frame.length_encode)
  have hslice : (slice second.buffer 9 frame.payload.length : Result Bytes) =
      .ok frame.payload := by
    rw [slice_of_le hwhole, ← hbehind, frame.encode_eq, List.append_assoc,
      List.drop_left' (by simp), List.take_left]
  rw [hslice]
  refine Action.Triple.lift_ok_bind ?_
  exact Action.Triple.bind (hframe frame rest second _ behind rfl hboth
    hbehind.symm) fun _ => Action.Triple.modify fun _ h => h

/-- A handled frame is taken off the buffer. -/
theorem Handled.took {second state : Http2 ScriptedTransport} {frame : Http2Frame}
    {bytes behind : Bytes} (hfilled : Filled http2 second bytes)
    (hbuffer : second.buffer = frame.encode ++ behind)
    (hhandled : Handled second state frame.messages) :
    Took frame http2 { state with
      buffer := state.buffer.drop (9 + frame.payload.length) } := by
  refine ⟨?_, ?_⟩
  · have hdrop : state.buffer.drop (9 + frame.payload.length) = behind := by
      rw [hhandled.buffer, hbuffer]
      exact List.drop_left' frame.length_encode
    rw [← hfilled.pending_eq, pending, pending, hbuffer, hdrop, remaining,
      remaining, hhandled.reads, List.append_assoc]
  · show state.received = _
    rw [hhandled.received, hfilled.kept.received]

/-- Reading from a peer that sends well-formed frames takes the next frame, or
fails and loses nothing. -/
theorem triple_readFrame (hframes : ∀ frame ∈ frames, frame.WellFormed)
    (hpending : http2.pending <+: frames.flatMap Http2Frame.encode) :
    Action.Triple (fun state => state = http2) readFrame
      (fun _ state => ∃ frame rest, frames = frame :: rest ∧
        Took frame http2 state)
      (fun _ state => Kept http2 state) := by
  refine triple_readFrame_of hframes hpending ?_ ?_
  · intro count e state _ hfailed
    obtain ⟨bytes, hfilled⟩ := hfailed.filled
    exact hfilled.kept
  · intro frame rest second bytes behind hsplit hfilled hbuffer
    refine triple_handleFrame.imp_post (fun _ state hhandled =>
      ⟨frame, rest, hsplit, hhandled.took hfilled hbuffer⟩)
      fun _ state ⟨hhandled, _⟩ => ⟨?_, ?_⟩
    · -- the frame is still in the buffer
      have hpend : state.pending = second.pending := by
        rw [pending, hhandled.buffer, remaining, hhandled.reads]
        rfl
      exact hpend.trans hfilled.pending_eq
    · rw [hhandled.received, List.append_nil, hfilled.kept.received]

/-- Reading a frame from any peer writes acknowledgements only. -/
theorem triple_readFrame_acked (http2 : Http2 ScriptedTransport) :
    Action.Triple (fun state => state = http2) readFrame
      (fun _ => Acked http2) (fun _ => Acked http2) := by
  have hfill : ∀ count, Action.Keeps (Acked http2) (fill count) :=
    fun count state hstate => ((triple_fill count state).imp_post
      (fun _ _ ⟨⟨_, h⟩, _⟩ => hstate.trans h.acked)
      fun _ _ h => h.filled.elim fun _ h => hstate.trans h.acked) state rfl
  have hframe : ∀ frame, Action.Keeps (Acked http2) (handleFrame frame) :=
    fun frame state hstate => (triple_handleFrame.imp_post
      (fun _ _ h => hstate.trans h.acked)
      fun _ _ h => hstate.trans h.1.acked) state rfl
  have hread : Action.Keeps (Acked http2) readFrame :=
    (hfill 9).bind fun _ => .get_bind fun _ => (Action.keeps_lift _).bind fun _ =>
      (hfill _).bind fun _ => .get_bind fun _ => (Action.keeps_lift _).bind fun _ =>
        (hframe _).bind fun _ => Action.keeps_modify fun _ h => h.trans ⟨⟨[], by
          simp, (List.append_nil _).symm⟩, rfl⟩
  exact hread.imp_pre fun _ heq => heq ▸ .refl _

end ReadFrame

end Http2

end Ioscpp.Protocol
