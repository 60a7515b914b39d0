import Ioscpp.Protocol.Http2Delivery
import Ioscpp.Protocol.Http2Steps

/-!
# What an HTTP/2 connection reads of a frame

A peer may send any bytes at all, cut in any way.  `peerFrames` are the frames
they hold, and a read receives the next of them.  Every field that a frame's
handling reads lies in the frame's payload, but for the increment of a
WINDOW_UPDATE, whose length nothing checks.

## Main results

* `peerFrames_encode`: the frames of the bytes of well-formed frames are those
  frames.
* `triple_receiveFrame`, `triple_receiveFrame_ahead`: receiving returns the first
  frame of the bytes that are left, and fails only where those that come before a
  read fails hold none.
* `getElem?_settingsEntries`, `exists_goAwayError`, `exists_resetError`: SETTINGS,
  GOAWAY and RST_STREAM read inside their payloads, whatever their lengths.
* `run_handleFrame_short`: a WINDOW_UPDATE of fewer than four bytes is read
  outside its payload.
-/

namespace Ioscpp.Protocol

open Ioscpp.Support
open Ioscpp.Support.Action

/-- A frame that holds what its handling reads unchecked: the increment of a
WINDOW_UPDATE. -/
def Http2Frame.HasIncrement (frame : Http2Frame) : Prop :=
  frame.type = kWindowUpdate → 4 ≤ frame.payload.length

namespace Http2

/-! ## The frames of any bytes -/

/-- A prefix reads the same words as the whole. -/
private theorem readBe_append {front value : Nat} {bytes rest : Bytes}
    {size : Nat} (hsize : 0 < size)
    (h : (readBe bytes front size : Result Nat) = .ok value) :
    (readBe (bytes ++ rest) front size : Result Nat) = .ok value := by
  have hle := le_of_readBe hsize h
  rw [← h, readBe_eq hle, readBe_eq (by rw [List.length_append]; omega),
    List.drop_append_of_le_length (by omega),
    List.take_append_of_le_length (by rw [List.length_drop]; omega)]

private theorem byteAt_append {i : Nat} {byte : UInt8} {bytes rest : Bytes}
    (h : (byteAt bytes i : Result UInt8) = .ok byte) :
    (byteAt (bytes ++ rest) i : Result UInt8) = .ok byte := by
  unfold byteAt at h ⊢
  rcases hbyte : bytes[i]? with _ | other
  · rw [hbyte] at h
    cases h
  · rw [hbyte] at h
    have hlt := (List.getElem?_eq_some_iff.mp hbyte).1
    rw [List.getElem?_append_left hlt, hbyte]
    exact h

/-- A header is nine bytes, whatever follows them. -/
theorem frameHeader_append {bytes : Bytes} {fields : Nat × UInt8 × UInt8 × UInt32}
    (h : frameHeader bytes = .ok fields) (rest : Bytes) :
    frameHeader (bytes ++ rest) = .ok fields := by
  unfold frameHeader at h ⊢
  obtain ⟨length, hlength, h⟩ := bind_eq_ok.mp h
  obtain ⟨type, htype, h⟩ := bind_eq_ok.mp h
  obtain ⟨flags, hflags, h⟩ := bind_eq_ok.mp h
  obtain ⟨stream, hstream, h⟩ := bind_eq_ok.mp h
  rw [readBe_append (by decide) hlength, byteAt_append htype,
    byteAt_append hflags, readBe_append (by decide) hstream]
  exact h

theorem exists_frameHeader {bytes : Bytes} (h : 9 ≤ bytes.length) :
    ∃ fields, frameHeader bytes = .ok fields := by
  rw [frameHeader, readBe_eq (by omega), byteAt_of_lt (by omega : 3 < _),
    byteAt_of_lt (by omega : 4 < _), readBe_eq (by omega)]
  exact ⟨_, rfl⟩

/-- The first frame of some bytes, when they hold all of it. -/
def firstFrame (bytes : Bytes) : Option Http2Frame :=
  match frameHeader bytes with
  | .ok (length, type, flags, stream) =>
      if 9 + length ≤ bytes.length then
        some ⟨type, flags, stream, (bytes.drop 9).take length⟩
      else none
  | .error _ => none

theorem length_of_firstFrame {bytes : Bytes} {frame : Http2Frame}
    (h : firstFrame bytes = some frame) :
    9 + frame.payload.length ≤ bytes.length := by
  unfold firstFrame at h
  split at h
  · rename_i length type flags stream hheader
    split at h
    · rename_i hle
      obtain rfl := Option.some.inj h
      simp only [List.length_take, List.length_drop]
      omega
    · cases h
  · cases h

theorem firstFrame_append {bytes : Bytes} {frame : Http2Frame}
    (h : firstFrame bytes = some frame) (rest : Bytes) :
    firstFrame (bytes ++ rest) = some frame := by
  unfold firstFrame at h ⊢
  split at h
  · rename_i length type flags stream hheader
    rw [frameHeader_append hheader]
    split at h
    · rename_i hle
      dsimp only
      rw [if_pos (by rw [List.length_append]; omega), ← h,
        List.drop_append_of_le_length (by omega),
        List.take_append_of_le_length (by rw [List.length_drop]; omega)]
    · cases h
  · cases h

/-- The frames of some bytes, up to the first that is cut off. -/
def peerFrames (bytes : Bytes) : List Http2Frame :=
  match h : firstFrame bytes with
  | some frame => frame :: peerFrames (bytes.drop (9 + frame.payload.length))
  | none => []
termination_by bytes.length
decreasing_by
  have hle := length_of_firstFrame h
  rw [List.length_drop]
  omega

theorem peerFrames_some {bytes : Bytes} {frame : Http2Frame}
    (h : firstFrame bytes = some frame) :
    peerFrames bytes =
      frame :: peerFrames (bytes.drop (9 + frame.payload.length)) := by
  rw [peerFrames]
  split
  · rename_i other hother
    obtain rfl := Option.some.inj (h.symm.trans hother)
    rfl
  · rename_i hnone
    rw [h] at hnone
    cases hnone

theorem peerFrames_none {bytes : Bytes} (h : firstFrame bytes = none) :
    peerFrames bytes = [] := by
  rw [peerFrames]
  split
  · rename_i other hother
    rw [h] at hother
    cases hother
  · rfl

/-- A well-formed frame is the first of the bytes it starts. -/
theorem firstFrame_encode {frame : Http2Frame} (h : frame.WellFormed)
    (rest : Bytes) : firstFrame (frame.encode ++ rest) = some frame := by
  rw [firstFrame, frame.encode_eq, List.append_assoc, frameHeader_header h]
  dsimp only
  rw [if_pos (by simp only [List.length_append, frame.length_header]; omega),
    List.drop_left' frame.length_header, List.take_left]

/-- The frames of the bytes of well-formed frames are those frames. -/
theorem peerFrames_encode {frames : List Http2Frame}
    (h : ∀ frame ∈ frames, frame.WellFormed) :
    peerFrames (frames.flatMap Http2Frame.encode) = frames := by
  induction frames with
  | nil => exact peerFrames_none rfl
  | cons frame rest ih =>
      rw [List.flatMap_cons, peerFrames_some
        (firstFrame_encode (h frame List.mem_cons_self) _), ← frame.length_encode,
        List.drop_left, ih fun other hmem => h other (List.mem_cons_of_mem _ hmem)]

/-! ## Receiving from a script -/

/-- Filling fails with an error of the transport or at the end of the stream. -/
private theorem triple_fill_error (count : Nat)
    (http2 : Http2 ScriptedTransport) :
    Triple (fun state => state = http2) (fill count)
      (fun _ state => (∃ bytes, Filled http2 state bytes) ∧
        count ≤ state.buffer.length)
      (fun e state => FillFailed count http2 state e ∧
        ∃ error, e = .error error) := by
  rintro state rfl
  have hfill := triple_fill count state state rfl
  obtain ⟨bytes, houtcome⟩ := Buffered.run_fill connectionEnded kMaxFrameSize
    count (state.transport, state.buffer)
  rcases hrun : (fill count).run state with ⟨e | _, next⟩
  · rw [hrun] at hfill
    refine ⟨hfill, ?_⟩
    rw [fill, run_zoom, ← connectionEnded] at hrun
    have hresult := houtcome.result
    rw [(Prod.mk.inj hrun).1] at hresult
    rcases hresult with ⟨hok, -⟩ | ⟨⟨error, herror⟩, -⟩
    · cases hok
    · exact ⟨error, Except.error.inj herror⟩
  · rw [hrun] at hfill
    exact hfill

/-- How receiving ends without a frame: the bytes that came are kept, and a
script without failures holds no frame. -/
structure NoFrame (before after : Http2 ScriptedTransport) (e : Fault Error) :
    Prop where
  filled : ∃ bytes, Filled before after bytes
  error : ∃ error, e = .error error
  clean : before.transport.Clean → firstFrame before.pending = none

/-- What is received is the first frame of the bytes that are not handled. -/
structure Received (frame : Http2Frame)
    (before after : Http2 ScriptedTransport) : Prop where
  filled : ∃ bytes, Filled before after bytes
  frame : firstFrame after.buffer = some frame

theorem Received.firstFrame {frame : Http2Frame}
    {before after : Http2 ScriptedTransport} (h : Received frame before after) :
    firstFrame before.pending = some frame := by
  obtain ⟨bytes, hfilled⟩ := h.filled
  rw [← hfilled.pending_eq]
  exact firstFrame_append h.frame _

/-- Receiving fills the buffer until it holds a whole frame, which is then the first one
of the bytes that are not handled; or it fails and has none. -/
theorem triple_receiveFrame (http2 : Http2 ScriptedTransport) :
    Triple (fun state => state = http2) receiveFrame
      (fun frame => Received frame http2)
      (fun e state => NoFrame http2 state e) := by
  refine Triple.bind ((triple_fill_error 9 http2).imp_post (fun _ _ h => h)
    fun e state h => ?_) fun _ => ?_
  · refine ⟨h.1.filled, h.2, fun hclean => ?_⟩
    have hlt := (h.1.clean hclean).1
    rcases hfirst : firstFrame http2.pending with _ | frame
    · rfl
    · have hle := length_of_firstFrame hfirst
      omega
  refine Triple.get_bind fun first hfirst => ?_
  obtain ⟨⟨bytes, hfilled⟩, hnine⟩ := hfirst
  obtain ⟨⟨length, type, flags, stream⟩, hheader⟩ := exists_frameHeader hnine
  rw [hheader]
  refine Triple.lift_ok_bind ?_
  refine Triple.bind ((triple_fill_error (9 + length) first).imp_post
    (fun _ _ h => h) fun e state h => ?_) fun _ => ?_
  · obtain ⟨more, hmore⟩ := h.1.filled
    refine ⟨⟨_, hfilled.trans hmore⟩, h.2, fun hclean => ?_⟩
    have hlt := (h.1.clean (hfilled.delivers.clean hclean)).1
    have hpending := frameHeader_append hheader first.transport.remaining
    rw [← pending] at hpending
    rw [← hfilled.pending_eq, firstFrame, hpending]
    dsimp only
    rw [if_neg (by omega)]
  refine Triple.get_bind fun second hsecond => ?_
  obtain ⟨⟨more, hmore⟩, hwhole⟩ := hsecond
  rw [slice_of_le hwhole]
  refine Triple.lift_ok_bind (Triple.pure ?_)
  rintro state rfl
  refine ⟨⟨_, hfilled.trans hmore⟩, ?_⟩
  rw [firstFrame, hmore.buffer_eq, frameHeader_append hheader, ← hmore.buffer_eq]
  dsimp only
  rw [if_pos hwhole]

/-- The bytes that come before a read fails: those in the buffer and those the
script delivers until then. -/
def ahead (http2 : Http2 ScriptedTransport) : Bytes :=
  http2.buffer ++ http2.transport.ahead

theorem ahead_prefix (http2 : Http2 ScriptedTransport) :
    http2.ahead <+: http2.pending :=
  (List.prefix_append_right_inj _).mpr http2.transport.ahead_prefix

theorem triple_fill_ahead (count : Nat) (bytes : Bytes) :
    Triple (fun http2 : Http2 ScriptedTransport => http2.ahead = bytes) (fill count)
      (fun _ http2 => http2.ahead = bytes ∧ count ≤ http2.buffer.length)
      (fun _ _ => bytes.length < count) := by
  rintro http2 rfl
  have hahead := Buffered.triple_fillLoop_ahead connectionEnded
    (by decide : 0 < kMaxFrameSize) count (count - http2.buffer.length)
    http2.ahead (http2.transport, http2.buffer) rfl
  obtain ⟨bytes, hfill⟩ := Buffered.run_fill connectionEnded kMaxFrameSize
    count (http2.transport, http2.buffer)
  have hrun : (Buffered.fill connectionEnded kMaxFrameSize count).run
      (http2.transport, http2.buffer) = (Buffered.fillLoop connectionEnded
        kMaxFrameSize count (count - http2.buffer.length)).run
      (http2.transport, http2.buffer) := rfl
  rw [fill, run_zoom, ← connectionEnded, hrun]
  rw [hrun] at hfill
  rcases hloop : (Buffered.fillLoop connectionEnded kMaxFrameSize count
    (count - http2.buffer.length)).run (http2.transport, http2.buffer) with
    ⟨e | _, transport, buffer⟩
  · rw [hloop] at hfill hahead
    rcases hfill.result with ⟨hok, -⟩ | ⟨⟨error, herror⟩, -⟩
    · cases hok
    · exact hahead ⟨error, Except.error.inj herror⟩
  · rw [hloop] at hfill hahead
    rcases hfill.result with ⟨-, hle⟩ | ⟨⟨error, herror⟩, -⟩
    · exact ⟨hahead, hle⟩
    · cases herror

/-- Receiving leaves the bytes ahead as they are; it returns their first frame, and
fails where they hold none. -/
theorem triple_receiveFrame_ahead (bytes : Bytes) :
    Triple (fun http2 : Http2 ScriptedTransport => http2.ahead = bytes) receiveFrame
      (fun frame http2 => http2.ahead = bytes ∧ firstFrame bytes = some frame)
      (fun _ _ => firstFrame bytes = none) := by
  refine Triple.bind ((triple_fill_ahead 9 bytes).imp_post (fun _ _ h => h)
    fun _ _ hlt => ?_) fun _ => Triple.get_bind fun first hfirst => ?_
  · rcases hframe : firstFrame bytes with _ | frame
    · rfl
    · have hle := length_of_firstFrame hframe
      omega
  obtain ⟨⟨length, type, flags, stream⟩, hheader⟩ := exists_frameHeader hfirst.2
  have hfields := frameHeader_append hheader first.transport.ahead
  have hbytes : first.buffer ++ first.transport.ahead = bytes := hfirst.1
  rw [hbytes] at hfields
  rw [hheader]
  refine Triple.lift_ok_bind (Triple.bind ((triple_fill_ahead (9 + length)
    bytes).imp (fun _ heq => heq ▸ hfirst.1) (fun _ _ h => h)
    fun _ _ hlt => ?_) fun _ => Triple.get_bind fun second hsecond => ?_)
  · rw [firstFrame, hfields]
    dsimp only
    rw [if_neg (by omega)]
  rw [slice_of_le hsecond.2]
  refine Triple.lift_ok_bind (Triple.pure ?_)
  rintro http2 rfl
  refine ⟨hsecond.1, ?_⟩
  have hsplit : http2.buffer ++ http2.transport.ahead = bytes := hsecond.1
  have hlength := congrArg List.length hsplit
  rw [List.length_append] at hlength
  rw [firstFrame, hfields]
  dsimp only
  rw [if_pos (by omega), ← hsplit, List.drop_append_of_le_length (by omega),
    List.take_append_of_le_length (by rw [List.length_drop]; omega)]

/-! ## The bytes that are left -/

section Pending

variable {http2 state last : Http2 ScriptedTransport} {frame : Http2Frame}

theorem Handled.pending_eq {messages : List Http2Message}
    (h : Handled state last messages) : last.pending = state.pending := by
  rw [pending, pending, ScriptedTransport.remaining,
    ScriptedTransport.remaining, h.buffer, h.reads]

theorem Received.pending_eq (h : Received frame http2 state) :
    state.pending = http2.pending := by
  obtain ⟨bytes, hfilled⟩ := h.filled
  exact hfilled.pending_eq

/-- A frame that fails stays among the bytes that are left. -/
theorem Received.pending_error (h : Received frame http2 state) {e : Fault Error}
    (hrun : (handleFrame frame).run state = (.error e, last)) :
    last.pending = http2.pending :=
  (triple_handleFrame.of_error rfl hrun).1.pending_eq.trans h.pending_eq

/-- A frame that is read is gone from them. -/
theorem Received.pending_ok (h : Received frame http2 state)
    (hrun : (handleFrame frame).run state = (.ok (), last)) :
    (dropFrame frame last).pending =
      http2.pending.drop (9 + frame.payload.length) := by
  have hhandled := triple_handleFrame.of_ok rfl hrun
  have hle := length_of_firstFrame h.frame
  rw [← h.pending_eq, ← hhandled.pending_eq, pending, pending, dropFrame,
    List.drop_append_of_le_length (by rw [hhandled.buffer]; exact hle)]

end Pending

/-! ## Handling any frame -/

/-- The entries of a SETTINGS payload lie in it, six bytes each. -/
theorem getElem?_settingsEntries (payload : Bytes) (k : Nat) :
    (settingsEntries payload)[k]? =
      if 6 * k + 6 ≤ payload.length then
        some (beValue ((payload.drop (6 * k)).take 2),
          beValue ((payload.drop (6 * k + 2)).take 4))
      else none := by
  induction payload using settingsEntries.induct generalizing k with
  | case1 a b c d e f rest ih =>
      rw [settingsEntries]
      cases k with
      | zero => simp
      | succ k =>
          rw [List.getElem?_cons_succ, ih]
          have hfirst : 6 * (k + 1) = 6 * k + 6 := by ring
          have hsecond : 6 * (k + 1) + 2 = 6 * k + 2 + 6 := by ring
          rw [hsecond, hfirst]
          simp only [List.length_cons, List.drop_succ_cons]
          simp only [Nat.add_le_add_iff_right]
  | case2 payload hne =>
      have hshort : payload.length < 6 := by
        by_contra hge
        rcases payload with
          _ | ⟨a, _ | ⟨b, _ | ⟨c, _ | ⟨d, _ | ⟨e, _ | ⟨f, rest⟩⟩⟩⟩⟩⟩
        all_goals first
          | exact hne _ _ _ _ _ _ _ rfl
          | (simp at hge)
      rw [settingsEntries, if_neg (by omega)]
      · rfl
      · exact hne

/-- A word that does not lie in the bytes is read outside them. -/
private theorem readBe_short {bytes : Bytes} {offset size : Nat}
    (h : bytes.length < offset + size) (hsize : 0 < size) :
    (readBe bytes offset size : Result Nat) = .error .outOfBounds := by
  have hcases : ∀ size, (∃ value,
      (readBe bytes offset size : Result Nat) = .ok value) ∨
        (readBe bytes offset size : Result Nat) = .error .outOfBounds := by
    intro size
    induction size with
    | zero => exact .inl ⟨0, rfl⟩
    | succ size ih =>
        rw [readBe]
        rcases ih with ⟨value, hvalue⟩ | hfault
        · rw [hvalue, ok_bind, byteAt]
          rcases bytes[offset + size]? with _ | byte
          · exact .inr rfl
          · exact .inl ⟨_, rfl⟩
        · rw [hfault]
          exact .inr rfl
  rcases hcases size with ⟨value, hvalue⟩ | hfault
  · have hle := le_of_readBe hsize hvalue
    omega
  · exact hfault

/-- The errors of GOAWAY and RST_STREAM read only what they have checked. -/
theorem exists_goAwayError (payload : Bytes) :
    ∃ error, goAwayError payload = .ok error := by
  rw [goAwayError]
  split
  · rw [readBe_eq (by omega), readBe_eq (by omega)]
    exact ⟨_, rfl⟩
  · exact ⟨_, rfl⟩

theorem exists_resetError (stream : UInt32) (payload : Bytes) :
    ∃ error, resetError stream payload = .ok error := by
  rw [resetError]
  split
  · rw [readBe_eq (by omega)]
    exact ⟨_, rfl⟩
  · exact ⟨_, rfl⟩

section Handling

variable {τ : Type} [Transport τ] {frame : Http2Frame}

/-- A WINDOW_UPDATE of fewer than four bytes is read outside its payload, from every
state of the connection. -/
theorem run_handleFrame_short (htype : frame.type = kWindowUpdate)
    (hshort : frame.payload.length < 4) (state : Http2 τ) :
    ((handleFrame frame).run state).1 = .error .outOfBounds := by
  have hread : (readBe frame.payload 0 4 : Result Nat) = .error .outOfBounds :=
    readBe_short (by omega) (by decide)
  rw [handleFrame, htype, if_neg (by decide), if_neg (by decide), if_pos rfl,
    handleWindowUpdate, hread, run_bind_error (run_lift _ state)]

end Handling

/-- A write that fails was refused by the script. -/
theorem refused_of_run_write {bytes : Bytes} {http2 next : Http2 ScriptedTransport}
    {fault : Fault Error}
    (h : (onTransport (Transport.write bytes)).run http2 = (.error fault, next)) :
    ∃ e rest, http2.transport.writes = some e :: rest := by
  obtain ⟨⟨reads, writes, written⟩, buffer, received, connectionWindow,
    streamWindow, settingsSeen, failed, trace⟩ := http2
  rcases writes with _ | ⟨_ | e, rest⟩
  · cases (Prod.mk.inj h).1
  · cases (Prod.mk.inj h).1
  · exact ⟨e, rest, rfl⟩

end Http2

end Ioscpp.Protocol
