import Ioscpp.Protocol.Http2Frames
import Ioscpp.Protocol.Http2Invariant
import Ioscpp.Protocol.Http2Flow

/-!
# What an HTTP/2 connection writes

A successful `write` has sent its payload in DATA frames of its stream, each
within the frame limit, and between them whole acknowledgements, whatever the
peer sent meanwhile.  And the trace that the flow-control bounds speak of is what
was written: it records the DATA frames that the transport took, in order.

## Main results

- `run_write_exhausted`, `run_write_credit`: the two turns of the loop.
- `written_write`: what a `write` that succeeds has written.
- `sentFrame_session`: the DATA frames that the trace records are those that the
  transport took.
-/

namespace Ioscpp.Protocol

open Ioscpp.Support
open Ioscpp.Support.Action

/-- The answer to a SETTINGS frame. -/
def settingsAck : Http2Frame := ⟨kSettings, kAck, 0, []⟩

/-- The answer to a PING frame. -/
def pingAck : Http2Frame := ⟨kPing, kAck, 0, List.replicate 8 0⟩

namespace Http2Frame

/-- DATA of a stream, of at least one byte and within the frame limit. -/
structure IsData (stream : UInt32) (frame : Http2Frame) : Prop where
  type : frame.type = kData
  flags : frame.flags = 0
  stream : frame.stream = stream
  nonempty : 1 ≤ frame.payload.length
  limit : frame.payload.length ≤ kMaxFrameSize

/-- A frame that `write` sends: DATA of its stream, or the acknowledgement of a SETTINGS
or a PING that the peer sent meanwhile. -/
def IsWritten (stream : UInt32) (frame : Http2Frame) : Prop :=
  frame.IsData stream ∨ frame = settingsAck ∨ frame = pingAck

/-- The length field of a frame. -/
def lengthField (frame : Http2Frame) : Nat := beValue (frame.encode.take 3)

theorem lengthField_eq {frame : Http2Frame} (h : frame.payload.length < 2 ^ 24) :
    frame.lengthField = frame.payload.length := by
  rw [lengthField, encode_eq, header, List.append_assoc,
    List.take_left' (length_beBytes 3 _), beValue_beBytes_of_lt h]

theorem IsWritten.length_lt {stream : UInt32} {frame : Http2Frame}
    (h : frame.IsWritten stream) : frame.payload.length < 2 ^ 24 := by
  rcases h with hdata | rfl | rfl
  · have hlimit := hdata.limit
    unfold kMaxFrameSize at hlimit
    omega
  · decide
  · decide

end Http2Frame

/-- The payloads of the DATA frames, one after the other. -/
def dataPayload (frames : List Http2Frame) : Bytes :=
  (frames.filter (·.type = kData)).flatMap (·.payload)

theorem dataPayload_append (front back : List Http2Frame) :
    dataPayload (front ++ back) = dataPayload front ++ dataPayload back := by
  simp [dataPayload]

namespace Http2

/-! ## The turns of the loop -/

section Turns

variable {τ : Type} [Transport τ] {http2 : Http2 τ} {stream : UInt32}
  {payload : Bytes} {fuel : Nat}

/-- A turn of `write` while a window is exhausted reads a frame, and goes on with the
same payload. -/
theorem run_write_exhausted (hne : payload ≠ []) (h : http2.budget ≤ 0) :
    (write stream (fuel + 1) payload).run http2 =
      (readFrame >>= fun _ => write stream fuel payload).run http2 := by
  rw [write, if_neg hne, run_bind_ok (run_get http2), if_pos h]

/-- A turn of `write` within the windows sends a part of the payload that is not
empty. -/
theorem run_write_credit (hne : payload ≠ []) (h : 0 < http2.budget) :
    ∃ count, 0 < count ∧ count ≤ payload.length ∧ (count : Int) ≤ http2.budget ∧
      (write stream (fuel + 1) payload).run http2 =
        (onTransport (Transport.write (dataFrame stream (payload.take count)))
          >>= fun _ => modify (spend stream count) >>= fun _ =>
            write stream fuel (payload.drop count)).run http2 := by
  have hlength := List.length_pos_iff.mpr hne
  refine ⟨min http2.budget.toNat payload.length, by omega, by omega, by omega, ?_⟩
  rw [write, if_neg hne, run_bind_ok (run_get http2), if_neg (by omega)]

end Turns

/-! ## What a write sends -/

section Write

variable {stream : UInt32} {before : List Bytes} {done : Bytes}
  {http2 next : Http2 ScriptedTransport}

/-- The frames written since `before`: they carry `done`. -/
def Wrote (stream : UInt32) (before : List Bytes) (done : Bytes)
    (http2 : Http2 ScriptedTransport) : Prop :=
  ∃ frames : List Http2Frame,
    http2.transport.written = before ++ frames.map Http2Frame.encode ∧
      (∀ frame ∈ frames, frame.IsWritten stream) ∧ dataPayload frames = done

/-- Acknowledgements are frames without DATA. -/
theorem exists_acks {acks : List Bytes} (h : ∀ frame ∈ acks, IsAck frame) :
    ∃ frames : List Http2Frame, acks = frames.map Http2Frame.encode ∧
      (∀ frame ∈ frames, frame = settingsAck ∨ frame = pingAck) ∧
      dataPayload frames = [] := by
  induction acks with
  | nil => exact ⟨[], rfl, by simp, rfl⟩
  | cons ack rest ih =>
      obtain ⟨frames, rfl, hframes, hnone⟩ :=
        ih fun frame hmem => h frame (List.mem_cons_of_mem _ hmem)
      obtain ⟨frame, hencode, hframe, hfirst⟩ : ∃ frame : Http2Frame,
          ack = frame.encode ∧ (frame = settingsAck ∨ frame = pingAck) ∧
            dataPayload [frame] = [] := by
        rcases h ack (by simp) with rfl | rfl
        · exact ⟨settingsAck, rfl, .inl rfl, rfl⟩
        · exact ⟨pingAck, rfl, .inr rfl, rfl⟩
      refine ⟨frame :: frames, by rw [hencode, List.map_cons], ?_, ?_⟩
      · intro other hmem
        rcases List.mem_cons.mp hmem with rfl | hmem
        · exact hframe
        · exact hframes other hmem
      · rw [← List.singleton_append, dataPayload_append, hfirst, hnone,
          List.append_nil]

theorem Wrote.acked (h : Wrote stream before done http2)
    (hacked : Acked http2 next) : Wrote stream before done next := by
  obtain ⟨frames, hwritten, hframes, hdone⟩ := h
  obtain ⟨acks, hacks, hnext⟩ := hacked.written
  obtain ⟨answers, rfl, hanswers, hnone⟩ := exists_acks hacks
  refine ⟨frames ++ answers, ?_, ?_, ?_⟩
  · rw [hnext, hwritten, List.map_append, List.append_assoc]
  · intro frame hmem
    rcases List.mem_append.mp hmem with hmem | hmem
    · exact hframes frame hmem
    · exact .inr (hanswers frame hmem)
  · rw [dataPayload_append, hdone, hnone, List.append_nil]

theorem Wrote.data (h : Wrote stream before done http2) {payload : Bytes}
    (hnonempty : 1 ≤ payload.length) (hlimit : payload.length ≤ kMaxFrameSize)
    (hnext : next.transport.written =
      http2.transport.written ++ [dataFrame stream payload]) :
    Wrote stream before (done ++ payload) next := by
  obtain ⟨frames, hwritten, hframes, rfl⟩ := h
  refine ⟨frames ++ [⟨kData, 0, stream, payload⟩], ?_, ?_, ?_⟩
  · rw [hnext, hwritten, List.map_append, List.append_assoc]
    rfl
  · intro frame hmem
    rcases List.mem_append.mp hmem with hmem | hmem
    · exact hframes frame hmem
    · rw [List.mem_singleton.mp hmem]
      exact .inl ⟨rfl, rfl, rfl, hnonempty, hlimit⟩
  · rw [dataPayload_append]
    simp [dataPayload]

/-- A DATA frame that the transport takes. -/
theorem triple_data (http2 : Http2 ScriptedTransport) (bytes : Bytes) :
    Triple (fun state => state = http2) (onTransport (Transport.write bytes))
      (fun _ state => state.trace = http2.trace ∧
        state.transport.written = http2.transport.written ++ [bytes])
      (fun _ state => state.trace = http2.trace ∧
        state.transport.written = http2.transport.written) := by
  rintro state rfl
  rw [onTransport, run_zoom]
  obtain ⟨writes, hok | ⟨e, herror⟩⟩ :=
    ScriptedTransport.run_write bytes state.transport
  · rw [hok]
    exact ⟨rfl, rfl⟩
  · rw [herror]
    exact ⟨rfl, rfl⟩

/-- The loop of `write` sends what is left of its payload. -/
theorem triple_write (fuel : Nat) (payload : Bytes) :
    Triple (Wrote stream before done) (write stream fuel payload)
      (fun _ => Wrote stream before (done ++ payload)) (fun _ _ => True) := by
  induction fuel generalizing done payload with
  | zero =>
      refine Triple.ite (fun hnil => Triple.pure fun _ h => ?_) fun _ =>
        Triple.lift (fun _ h => nomatch h) fun _ _ _ _ => trivial
      rw [hnil, List.append_nil]
      exact h
  | succ fuel ih =>
      refine Triple.ite (fun hnil => Triple.pure fun _ h => ?_) fun hne => ?_
      · rw [hnil, List.append_nil]
        exact h
      refine Triple.get_bind fun http2 h => Triple.ite (fun _ => ?_)
        fun hbudget => ?_
      · refine Triple.bind ((triple_readFrame_acked http2).imp_post
          (fun _ _ hacked => h.acked hacked) fun _ _ _ => trivial) fun _ => ?_
        exact ih payload
      · have hpos := List.length_pos_iff.mpr hne
        have hmax : http2.budget ≤ kMaxFrameSize := min_le_right _ _
        have hdone := @ih (done ++ payload.take
          (min http2.budget.toNat payload.length)) (payload.drop
            (min http2.budget.toNat payload.length))
        rw [List.append_assoc, List.take_append_drop] at hdone
        refine Triple.bind ((triple_data http2 _).imp_post (fun _ _ hsent => ?_)
          fun _ _ _ => trivial) fun _ => Triple.bind
            (Q := fun _ => Wrote stream before (done ++ payload.take
              (min http2.budget.toNat payload.length)))
            (Triple.modify fun state hstate => hstate) fun _ => hdone
        refine Wrote.data h ?_ ?_ hsent.2
        · rw [List.length_take]
          omega
        · rw [List.length_take]
          omega

/-- A `write` that succeeds has written whole frames, whatever the peer sent meanwhile:
DATA of its stream, of 1 to 16384 bytes each, which carry the payload, and between them
acknowledgements. Every length field is right. -/
theorem written_write {fuel : Nat} {payload : Bytes}
    {last : Http2 ScriptedTransport}
    (h : (write stream fuel payload).run http2 = (.ok (), last)) :
    ∃ frames : List Http2Frame,
      last.transport.written =
          http2.transport.written ++ frames.map Http2Frame.encode ∧
        (∀ frame ∈ frames, frame.IsWritten stream ∧
          frame.lengthField = frame.payload.length) ∧
        dataPayload frames = payload := by
  have hstart : Wrote stream http2.transport.written [] http2 :=
    ⟨[], by simp, by simp, rfl⟩
  obtain ⟨frames, hwritten, hframes, hpayload⟩ :=
    (triple_write fuel payload).of_ok hstart h
  exact ⟨frames, hwritten, fun frame hmem => ⟨hframes frame hmem,
    Http2Frame.lengthField_eq (hframes frame hmem).length_lt⟩, hpayload⟩

/-- A connection with four bytes of credit left, whose peer sends a PING and then
grants ten more. -/
def pausedHttp2 : Http2 ScriptedTransport where
  transport := { reads := [.ok (appendFrame [] kPing 0 0 (List.replicate 8 1)),
    .ok (windowUpdateFrame kHttp2ControlStream 10)] }
  streamWindow := 4

theorem written_write_pausedHttp2 :
    ∃ frames : List Http2Frame,
      ((write kHttp2ControlStream 4 [1, 2, 3, 4, 5, 6, 7, 8]).run
          pausedHttp2).2.transport.written =
        pausedHttp2.transport.written ++ frames.map Http2Frame.encode ∧
        (∀ frame ∈ frames, frame.IsWritten kHttp2ControlStream ∧
          frame.lengthField = frame.payload.length) ∧
        dataPayload frames = [1, 2, 3, 4, 5, 6, 7, 8] :=
  written_write (Prod.ext (by decide +kernel) rfl)

end Write

/-! ## The trace is what was written -/

/-- The DATA frame that was written: its stream and its size. -/
def writtenFrame (bytes : Bytes) : Option (Nat × Nat) :=
  if bytes[3]? = some kData then
    some (beValue ((bytes.drop 5).take 4), bytes.length - 9)
  else none

theorem writtenFrame_dataFrame (stream : UInt32) (payload : Bytes) :
    writtenFrame (dataFrame stream payload) =
      some (stream.toNat % 2 ^ 31, payload.length) := by
  have htype : (dataFrame stream payload)[3]? = some kData := rfl
  have hstream : beValue (((dataFrame stream payload).drop 5).take 4) =
      stream.toNat % 2 ^ 31 := by
    have hlt : stream.toNat % 2 ^ 31 < 256 ^ 4 :=
      (Nat.mod_lt _ (by decide)).trans (by decide)
    rw [← beValue_beBytes_of_lt hlt]
    rfl
  have hlength : (dataFrame stream payload).length = 9 + payload.length :=
    Http2Frame.length_encode ⟨kData, 0, stream, payload⟩
  rw [writtenFrame, if_pos htype, hstream, hlength, Nat.add_sub_cancel_left]

theorem writtenFrame_opening {bytes : Bytes} (h : IsOpening bytes) :
    writtenFrame bytes = none := by
  rcases h with rfl | ⟨payload, rfl⟩ | ⟨increment, rfl⟩ | ⟨stream, rfl⟩ <;> rfl

theorem writtenFrame_ack {bytes : Bytes} (h : IsAck bytes) :
    writtenFrame bytes = none := by
  rcases h with rfl | rfl <;> rfl

/-- The trace and the transport agree on the DATA frames sent. -/
def Agrees (http2 : Http2 ScriptedTransport) : Prop :=
  http2.trace.filterMap sentFrame = http2.transport.written.filterMap writtenFrame

theorem Agrees.acked {http2 next : Http2 ScriptedTransport} (h : Agrees http2)
    (hacked : Acked http2 next) : Agrees next := by
  obtain ⟨acks, hacks, hwritten⟩ := hacked.written
  have hnone : acks.filterMap writtenFrame = [] :=
    List.filterMap_eq_nil_iff.mpr fun frame hmem =>
      writtenFrame_ack (hacks frame hmem)
  rw [Agrees, hacked.sent, h, hwritten, List.filterMap_append, hnone,
    List.append_nil]

theorem invariant_agrees : Invariant fun _ => Agrees where
  opening _ bytes hbytes := fun http2 h =>
    (triple_data http2 bytes).imp_post
      (fun _ state ⟨htrace, hwritten⟩ => by
        show state.trace.filterMap _ = state.transport.written.filterMap _
        rw [htrace, h, hwritten, List.filterMap_append, List.filterMap_cons,
          writtenFrame_opening hbytes]
        exact (List.append_nil _).symm)
      (fun _ state ⟨htrace, hwritten⟩ => by
        show state.trace.filterMap _ = state.transport.written.filterMap _
        rw [htrace, h, hwritten]) http2 rfl
  data _ http2 stream payload h _ _ := (triple_data http2 _).imp_post
    (fun _ state ⟨htrace, hwritten⟩ => by
      show (state.trace ++ _).filterMap _ = state.transport.written.filterMap _
      rw [htrace, List.filterMap_append, h, hwritten, List.filterMap_append,
        List.filterMap_cons, List.filterMap_cons, writtenFrame_dataFrame]
      rfl)
    (fun _ state ⟨htrace, hwritten⟩ => by
      show state.trace.filterMap _ = state.transport.written.filterMap _
      rw [htrace, h, hwritten])
  readFrame _ := fun http2 h => (triple_readFrame_acked http2).imp_post
    (fun _ _ => h.acked) (fun _ _ => h.acked) http2 rfl
  handOut _ _ _ _ h _ := h

/-- The DATA frames that the trace of a session records are those that its
transport took. -/
theorem sentFrame_session (transport : ScriptedTransport)
    (hfresh : transport.written = []) (fuel : Nat) (calls : List (Nat × Call)) :
    (session transport fuel calls).2.trace.filterMap sentFrame =
      (session transport fuel calls).2.transport.written.filterMap
        writtenFrame := by
  have hstart : Agrees ({ transport } : Http2 ScriptedTransport) := by
    show _ = transport.written.filterMap _
    rw [hfresh]
    rfl
  exact invariant_agrees.session hstart fuel calls

theorem sentTotal_eq (trace : List Http2Event) :
    sentTotal trace = ((trace.filterMap sentFrame).map Prod.snd).sum := by
  induction trace with
  | nil => rfl
  | cons event rest ih =>
      rw [sentTotal] at ih ⊢
      rw [List.map_cons, List.sum_cons, ih, List.filterMap_cons]
      cases event with
      | sent stream size => rfl
      | granted stream increment => exact Nat.zero_add _
      | initialWindow value => exact Nat.zero_add _

/-- The bytes that the connection's bound counts are the payload bytes of the
DATA frames written. -/
theorem sentTotal_session (transport : ScriptedTransport)
    (hfresh : transport.written = []) (fuel : Nat) (calls : List (Nat × Call)) :
    sentTotal (session transport fuel calls).2.trace =
      (((session transport fuel calls).2.transport.written.filterMap
        writtenFrame).map Prod.snd).sum := by
  rw [← sentFrame_session transport hfresh, sentTotal_eq]

end Http2

end Ioscpp.Protocol
