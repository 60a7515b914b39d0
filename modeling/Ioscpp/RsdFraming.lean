import Ioscpp.Protocol.RemoteXpcWrapper
import Ioscpp.RsdHandshake

/-!
# Wrappers cut into DATA frames

A peer sends wrappers on its streams, and cuts each stream's bytes into DATA
frames.  A frame that begins where a wrapper begins is that wrapper, or it is
refused; so the handshake's outcome is the one of whole wrappers exactly while
the frames are.

## Main results

- `Cut.whole_or_refused`: the frames are whole up to the answer, or the loop meets one
  that is refused.
- `Cut.replies_eq_iff`: the outcome of the loop is that of the wrappers exactly while
  the frames are whole.
- `outcome_cut_iff`: so it is for the handshake.
-/

namespace Ioscpp

open Ioscpp.Support
open Ioscpp.Support.Reading
open Ioscpp.Protocol

open XpcWrapper

/-! ## Wrappers in frames -/

/-- A wrapper that the device sends on a stream, and its bytes: any that
`XpcWrapper::parse` accepts as that wrapper. -/
structure XpcMessage where
  stream : UInt32
  bytes : Bytes
  wrapper : XpcWrapper
  parsed : XpcWrapper.parse bytes = .ok wrapper

/-- The wrapper in one DATA frame. -/
def XpcMessage.frame (message : XpcMessage) : Http2Message :=
  ⟨message.stream, message.bytes⟩

theorem XpcMessage.length_bytes (message : XpcMessage) :
    24 ≤ message.bytes.length := by
  obtain ⟨_, length, _, -, hlength⟩ := header_of_parse message.parsed
  omega

theorem XpcMessage.frame_injective : Function.Injective XpcMessage.frame := by
  rintro ⟨stream, bytes, wrapper, hparsed⟩ ⟨stream', bytes', wrapper', hparsed'⟩ h
  obtain ⟨rfl, rfl⟩ := Http2Message.mk.inj h
  obtain rfl := Except.ok.inj (hparsed.symm.trans hparsed')
  rfl

/-- The bytes of the DATA frames of a stream. -/
def bytesOn (stream : UInt32) (frames : List Http2Message) : Bytes :=
  (frames.filter (·.stream = stream)).flatMap (·.payload)

theorem bytesOn_append (stream : UInt32) (front back : List Http2Message) :
    bytesOn stream (front ++ back) = bytesOn stream front ++ bytesOn stream back := by
  simp [bytesOn]

theorem bytesOn_cons (frame : Http2Message) (rest : List Http2Message) :
    bytesOn frame.stream (frame :: rest) =
      frame.payload ++ bytesOn frame.stream rest := by
  simp [bytesOn]

theorem bytesOn_cons_of_ne {stream : UInt32} {frame : Http2Message}
    (h : frame.stream ≠ stream) (rest : List Http2Message) :
    bytesOn stream (frame :: rest) = bytesOn stream rest := by
  simp [bytesOn, h]

/-- A way of cutting the bytes of every stream into DATA frames.  Wrappers that
come whole, in a frame each, come in the order in which they are sent. -/
structure Cut (messages : List XpcMessage) (frames : List Http2Message) :
    Prop where
  nonempty : ∀ frame ∈ frames, frame.payload ≠ []
  bytes : ∀ stream,
    bytesOn stream frames = bytesOn stream (messages.map XpcMessage.frame)
  order : ∀ whole : List XpcMessage,
    whole.map XpcMessage.frame <+: frames → whole <+: messages

/-- Every frame is one whole wrapper, up to the frame of the answer or, when there is no
answer, to the last frame there is. -/
def WholeToAnswer (frames : List Http2Message) : Prop :=
  ∃ (whole : List XpcMessage) (rest : List Http2Message),
    frames = whole.map XpcMessage.frame ++ rest ∧
      (rest = [] ∨ ∃ message ∈ whole, (handshakeAnswer message.wrapper).isSome)

/-- What follows the answer does not matter. -/
theorem replies_of_answer {whole : List XpcMessage}
    (h : ∃ message ∈ whole, (handshakeAnswer message.wrapper).isSome)
    (rest : List Http2Message) :
    replies (whole.map XpcMessage.frame ++ rest) =
      replies (whole.map XpcMessage.frame) := by
  induction whole with
  | nil =>
      obtain ⟨message, hmem, -⟩ := h
      cases hmem
  | cons first others ih =>
      have hparse : XpcWrapper.parse first.frame.payload = .ok first.wrapper :=
        first.parsed
      rw [List.map_cons, List.cons_append, replies, replies, hparse, ok_bind,
        ok_bind]
      rcases hfirst : handshakeAnswer first.wrapper with _ | object
      · dsimp only
        obtain ⟨message, hmem, hanswer⟩ := h
        rcases List.mem_cons.mp hmem with rfl | hmem
        · rw [hfirst] at hanswer
          cases hanswer
        · exact ih ⟨message, hmem, hanswer⟩
      · rfl

private theorem eq_exception {α : Type} {c : Prop} [Decidable c] {a : α}
    {e : Fault Error}
    (h : (if c then .error .exception else .ok a : Result α) = .error e) :
    e = .exception := by
  split at h
  · cases h
    rfl
  · cases h

theorem stoi_error {text : Bytes} {e : Fault Error} (h : stoi text = .error e) :
    e = .exception := by
  simp only [stoi] at h
  exact eq_exception h

theorem parseService_error {entry : Xpc} {e : Fault Error}
    (h : parseService entry = .error e) : e = .exception := by
  rw [parseService] at h
  split at h
  · rename_i text _
    rcases hport : (stoi text : Result Int) with e' | value
    · rw [hport] at h
      cases h
      exact stoi_error hport
    · rw [hport] at h
      cases h
  · cases h

/-- Reading the services reports no error of its own. -/
theorem parseServices_error {reply : Xpc} {e : Fault Error}
    (h : parseServices reply = .error e) : e = .exception := by
  rw [parseServices] at h
  split at h
  · cases h
  · rename_i entries hentries
    clear hentries
    generalize ([] : RsdServices) = services at h
    induction entries generalizing services with
    | nil => cases h
    | cons entry rest ih =>
        rw [List.foldlM_cons] at h
        rcases hentry : parseService entry.2 with e' | service
        · rw [hentry] at h
          cases h
          exact parseService_error hentry
        · rw [hentry] at h
          exact ih _ h

/-- Whole wrappers are not refused. -/
theorem replies_whole (whole : List XpcMessage) {e : Error}
    (h : replies (whole.map XpcMessage.frame) = .error (.error e)) :
    e = Http2.connectionEnded := by
  induction whole with
  | nil =>
      cases h
      rfl
  | cons first others ih =>
      have hparse : XpcWrapper.parse first.frame.payload = .ok first.wrapper :=
        first.parsed
      rw [List.map_cons, replies, hparse, ok_bind] at h
      rcases hfirst : handshakeAnswer first.wrapper with _ | object
      · rw [hfirst] at h
        exact ih h
      · rw [hfirst] at h
        cases parseServices_error h

section Cut

variable {messages : List XpcMessage} {frames : List Http2Message}

/-- The next wrapper of a stream that has bytes left. -/
theorem exists_next {stream : UInt32} {byte : UInt8} {bytes : Bytes}
    (h : byte :: bytes = bytesOn stream (messages.map XpcMessage.frame)) :
    ∃ message ∈ messages, message.stream = stream ∧
      ∃ tail, byte :: bytes = message.bytes ++ tail := by
  induction messages with
  | nil => cases h
  | cons first others ih =>
      rw [List.map_cons] at h
      by_cases hstream : first.stream = stream
      · subst hstream
        rw [← show first.frame.stream = first.stream from rfl, bytesOn_cons] at h
        exact ⟨first, by simp, rfl, _, h⟩
      · rw [bytesOn_cons_of_ne (show first.frame.stream ≠ stream from hstream)]
          at h
        obtain ⟨message, hmem, hmessage⟩ := ih h
        exact ⟨message, List.mem_cons_of_mem _ hmem, hmessage⟩

/-- After whole wrappers, what is left of every stream is that of the others. -/
theorem Cut.bytes_rest (h : Cut messages frames) {whole : List XpcMessage}
    {rest : List Http2Message}
    (hframes : frames = whole.map XpcMessage.frame ++ rest) :
    ∃ others, messages = whole ++ others ∧ ∀ stream,
      bytesOn stream rest = bytesOn stream (others.map XpcMessage.frame) := by
  obtain ⟨others, rfl⟩ := h.order whole (hframes ▸ List.prefix_append _ _)
  refine ⟨others, rfl, fun stream => ?_⟩
  have hbytes := h.bytes stream
  rw [hframes, List.map_append, bytesOn_append, bytesOn_append] at hbytes
  exact List.append_cancel_left hbytes

/-- The frames are whole up to the answer, or the loop meets one that is
refused. -/
theorem Cut.whole_or_refused (h : Cut messages frames) {whole : List XpcMessage}
    {rest : List Http2Message}
    (hframes : frames = whole.map XpcMessage.frame ++ rest)
    (hwhole : ∀ message ∈ whole, handshakeAnswer message.wrapper = none) :
    WholeToAnswer frames ∨
      ∃ e, IsRefusal e ∧ replies frames = .error (.error e) := by
  have hskip : ∀ back, replies (whole.map XpcMessage.frame ++ back) =
      replies back := by
    intro back
    clear hframes
    induction whole with
    | nil => rfl
    | cons first others ih =>
        have hparse : XpcWrapper.parse first.frame.payload = .ok first.wrapper :=
          first.parsed
        rw [List.map_cons, List.cons_append, replies, hparse, ok_bind,
          hwhole first (by simp)]
        exact ih fun message hmem => hwhole message (List.mem_cons_of_mem _ hmem)
  induction rest generalizing whole with
  | nil => exact .inl ⟨whole, [], hframes, .inl rfl⟩
  | cons frame rest ih =>
      obtain ⟨others, -, hbytes⟩ := h.bytes_rest hframes
      have hstream := hbytes frame.stream
      rw [bytesOn_cons] at hstream
      rcases hpayload : frame.payload with _ | ⟨byte, bytes⟩
      · have hne := h.nonempty frame (by rw [hframes]; simp)
        exact absurd hpayload hne
      · rw [hpayload, List.cons_append] at hstream
        obtain ⟨message, -, hmessage, tail, htail⟩ := exists_next hstream
        rw [← List.cons_append, ← hpayload] at htail
        rcases parse_piece message.parsed htail with hpiece | hrefused
        · have hframe : frame = message.frame := by
            rw [XpcMessage.frame, ← hpiece, hmessage]
          have hmore : frames =
              (whole ++ [message]).map XpcMessage.frame ++ rest := by
            rw [hframes, hframe, List.map_append, List.append_assoc]
            rfl
          rcases hanswer : handshakeAnswer message.wrapper with _ | object
          · have hnone : ∀ other ∈ whole ++ [message],
                handshakeAnswer other.wrapper = none := by
              intro other hmem
              rcases List.mem_append.mp hmem with hmem | hmem
              · exact hwhole other hmem
              · rw [List.mem_singleton.mp hmem]
                exact hanswer
            refine ih hmore hnone fun back => ?_
            have hparse : XpcWrapper.parse message.frame.payload =
                .ok message.wrapper := message.parsed
            rw [List.map_append, List.append_assoc, hskip, List.map_singleton,
              List.singleton_append, replies, hparse, ok_bind, hanswer]
          · exact .inl ⟨whole ++ [message], rest, hmore,
              .inr ⟨message, by simp, by rw [hanswer]; rfl⟩⟩
        · obtain ⟨e, hrefusal, hfail⟩ := hrefused
          refine .inr ⟨e, hrefusal, ?_⟩
          rw [hframes, hskip, replies, hfail, error_bind]

/-- No bytes are left only when no wrapper is. -/
theorem eq_nil_of_bytesOn {others : List XpcMessage}
    (h : ∀ stream, [] = bytesOn stream (others.map XpcMessage.frame)) :
    others = [] := by
  cases others with
  | nil => rfl
  | cons first rest =>
      have hlength := congrArg List.length (h first.frame.stream)
      have hle := first.length_bytes
      rw [List.map_cons, bytesOn_cons, List.length_append, List.length_nil]
        at hlength
      change 0 = first.bytes.length + _ at hlength
      omega

/-- While the frames are whole, the outcome is that of the wrappers. -/
theorem Cut.replies_of_whole (h : Cut messages frames)
    (hwhole : WholeToAnswer frames) :
    replies frames = replies (messages.map XpcMessage.frame) := by
  obtain ⟨whole, rest, rfl, hend⟩ := hwhole
  obtain ⟨others, rfl, hbytes⟩ := h.bytes_rest rfl
  rcases hend with rfl | hanswer
  · obtain rfl := eq_nil_of_bytesOn hbytes
    rw [List.append_nil, List.append_nil]
  · rw [replies_of_answer hanswer, List.map_append, replies_of_answer hanswer]

/-- The outcome of the loop is that of the wrappers exactly while the frames are whole:
a frame that is not makes it fail, on which the wrappers do not. -/
theorem Cut.replies_eq_iff (h : Cut messages frames) :
    replies frames = replies (messages.map XpcMessage.frame) ↔
      WholeToAnswer frames := by
  refine ⟨fun heq => ?_, h.replies_of_whole⟩
  rcases @Cut.whole_or_refused _ _ h [] frames rfl (by simp) with
    hwhole | ⟨e, hrefusal, hfail⟩
  · exact hwhole
  · have hended := replies_whole messages (heq.symm.trans hfail)
    rcases hrefusal with rfl | rfl
    · exact absurd hended (by decide +kernel)
    · exact absurd hended (by decide +kernel)

/-- One frame for each wrapper is a way of cutting. -/
theorem cut_frames (messages : List XpcMessage) :
    Cut messages (messages.map XpcMessage.frame) where
  nonempty := by
    intro frame hmem hnil
    obtain ⟨message, -, rfl⟩ := List.mem_map.mp hmem
    have hle := message.length_bytes
    rw [show message.bytes = [] from hnil] at hle
    cases hle
  bytes _ := rfl
  order whole hwhole :=
    (List.prefix_map_iff_of_injective XpcMessage.frame_injective).mp hwhole

end Cut

/-! ## The handshake -/

namespace Rsd

/-- A connection whose setup can be sent, the frames that its peer sends, and
enough turns for all of them. -/
structure Ready (fuel : Nat) (uuid : RsdUuid) (frames : List Http2Frame)
    (rsd : Rsd ScriptedTransport) : Prop where
  incoming : Http2.Incoming frames rsd.http2
  frames_lt : frames.length < fuel
  messages_lt : (Http2.toCome frames rsd.http2).length < fuel
  sent : ((sendHandshake fuel uuid).run rsd).1 = .ok ()

/-- The outcome of a handshake, by that of the messages. -/
theorem Ready.outcome_eq {fuel : Nat} {uuid : RsdUuid} {frames : List Http2Frame}
    {rsd : Rsd ScriptedTransport} (h : Ready fuel uuid frames rsd) :
    outcome ((handshake fuel uuid).run rsd) =
      finish rsd.services (replies (Http2.toCome frames rsd.http2)) :=
  outcome_handshake h.incoming h.frames_lt h.messages_lt h.sent

/-- A connection whose peer sends `frames` after its SETTINGS. -/
def connected (frames : List Http2Frame) : Rsd ScriptedTransport where
  http2 := {
    transport := { reads := [.ok (frames.flatMap Http2Frame.encode)] }
    settingsSeen := true }

theorem ready_connected {frames : List Http2Frame}
    (hquiet : ∀ frame ∈ frames, frame.Quiet)
    (hsome : frames.flatMap Http2Frame.encode ≠ []) {fuel : Nat} {uuid : RsdUuid}
    (hframes : frames.length < fuel)
    (hmessages : (frames.flatMap Http2Frame.messages).length < fuel)
    (hsent : ((sendHandshake fuel uuid).run (connected frames)).1 = .ok ()) :
    Ready fuel uuid frames (connected frames) where
  incoming := {
    quiet := hquiet
    pending := by simp [connected, Http2.pending, ScriptedTransport.remaining]
    smooth := {
      clean := by
        intro answer hmem
        exact ⟨_, hsome, List.mem_singleton.mp hmem⟩
      writes := rfl
      failed := rfl } }
  frames_lt := hframes
  messages_lt := hmessages
  sent := hsent

/-- An answer without services. -/
def emptyAnswer : XpcWrapper :=
  .request 0 (.dictionary [(ascii "MessageType", .string (ascii "Handshake"))])
    false

theorem parse_emptyAnswer : parse emptyAnswer.encode = .ok emptyAnswer := by
  refine XpcWrapper.parse_encode ?_
  rintro payload ⟨⟩
  refine .dictionary (by decide +kernel) (by decide +kernel) ?_ (by decide +kernel)
  intro entry hmem
  rw [List.mem_singleton.mp hmem]
  exact .string (by decide +kernel) (by decide +kernel)

def answerMessages : List XpcMessage :=
  [⟨kHttp2ControlStream, emptyAnswer.encode, emptyAnswer, parse_emptyAnswer⟩]

/-- The answer in one frame. -/
def oneFrame : List Http2Frame :=
  [⟨kData, 0, kHttp2ControlStream, emptyAnswer.encode⟩]

/-- The answer in two frames. -/
def twoFrames : List Http2Frame :=
  [⟨kData, 0, kHttp2ControlStream, emptyAnswer.encode.take 20⟩,
    ⟨kData, 0, kHttp2ControlStream, emptyAnswer.encode.drop 20⟩]

theorem length_zeroUuid : (List.replicate 16 (0 : UInt8)).length = 16 := rfl

def zeroUuid : RsdUuid := ⟨List.replicate 16 0, length_zeroUuid⟩

theorem ready_oneFrame : Ready 3 zeroUuid oneFrame (connected oneFrame) := by
  refine ready_connected ?_ (by decide +kernel) (by decide) (by decide +kernel)
    (by decide +kernel)
  intro frame hmem
  rw [List.mem_singleton.mp hmem]
  exact ⟨⟨by decide +kernel, by decide, nofun⟩, by decide, by decide⟩

theorem ready_twoFrames : Ready 3 zeroUuid twoFrames (connected twoFrames) := by
  refine ready_connected ?_ (by decide +kernel) (by decide) (by decide +kernel)
    (by decide +kernel)
  intro frame hmem
  rcases List.mem_pair.mp hmem with rfl | rfl
  · exact ⟨⟨by decide +kernel, by decide, nofun⟩, by decide, by decide⟩
  · exact ⟨⟨by decide +kernel, by decide, nofun⟩, by decide, by decide⟩

theorem toCome_oneFrame : Http2.toCome oneFrame (connected oneFrame).http2 =
    answerMessages.map XpcMessage.frame := by
  decide +kernel

theorem cut_twoFrames :
    Cut answerMessages (Http2.toCome twoFrames (connected twoFrames).http2) := by
  have hcome : Http2.toCome twoFrames (connected twoFrames).http2 =
      [⟨kHttp2ControlStream, emptyAnswer.encode.take 20⟩,
        ⟨kHttp2ControlStream, emptyAnswer.encode.drop 20⟩] := by
    decide +kernel
  rw [hcome]
  refine ⟨by decide +kernel, fun stream => ?_, fun whole hwhole => ?_⟩
  · by_cases hstream : kHttp2ControlStream = stream
    · simp [bytesOn, answerMessages, XpcMessage.frame, hstream]
    · simp [bytesOn, answerMessages, XpcMessage.frame, hstream]
  · -- no wrapper is as short as the first frame
    cases whole with
    | nil => exact List.nil_prefix
    | cons message rest =>
        have hle := message.length_bytes
        rw [List.map_cons] at hwhole
        have hframe := (List.cons_prefix_cons.mp hwhole).1
        obtain ⟨-, hbytes⟩ := Http2Message.mk.inj hframe
        rw [hbytes, List.length_take] at hle
        omega

end Rsd

end Ioscpp
