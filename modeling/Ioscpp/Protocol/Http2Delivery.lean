import Ioscpp.Protocol.Http2Frames
import Ioscpp.Protocol.Http2Invariant

/-!
# HTTP/2 delivers every message once and in order

The peer sends a list of frames.  At every point of a session some of them, from
the front of the list, are parsed: their messages are those that `read` has
returned followed by those still queued, and the bytes of the others are in the
buffer or not yet delivered.  A call that fails in the transport, in the middle
of a frame or of the answer to one, changes nothing of that.

## Main results

- `Parsed.pending_parsed`: what is pending starts with the first of the frames that
  are not parsed.
- `delivered_session`: the messages returned and queued are those of the frames
  parsed.
-/

namespace Ioscpp.Protocol.Http2

open Ioscpp.Support
open Ioscpp.Support.Action
open ScriptedTransport

/-- The frames of the peer that are parsed, where `sent` is what the transport
delivers in all. -/
structure Parsed (frames : List Http2Frame) (sent : Bytes)
    (returned : List Http2Message) (http2 : Http2 ScriptedTransport)
    (parsed : List Http2Frame) : Prop where
  front : parsed <+: frames
  messages : returned ++ http2.received = parsed.flatMap Http2Frame.messages
  bytes : sent = parsed.flatMap Http2Frame.encode ++ http2.pending

/-- Some of the peer's frames are parsed, and their messages are delivered. -/
def Delivered (frames : List Http2Frame) (sent : Bytes)
    (returned : List Http2Message) (http2 : Http2 ScriptedTransport) : Prop :=
  ∃ parsed, Parsed frames sent returned http2 parsed

section Delivered

variable {frames parsed : List Http2Frame} {sent : Bytes}
  {returned : List Http2Message} {http2 next : Http2 ScriptedTransport}

theorem Parsed.kept (h : Parsed frames sent returned http2 parsed)
    (hkept : Kept http2 next) : Parsed frames sent returned next parsed where
  front := h.front
  messages := by rw [hkept.received, h.messages]
  bytes := by rw [hkept.pending, h.bytes]

theorem Parsed.took (h : Parsed frames sent returned http2 parsed)
    {frame : Http2Frame} (hfront : parsed ++ [frame] <+: frames)
    (htook : Took frame http2 next) :
    Parsed frames sent returned next (parsed ++ [frame]) where
  front := hfront
  messages := by
    rw [htook.received, ← List.append_assoc, h.messages]
    simp
  bytes := by
    rw [h.bytes, htook.pending]
    simp

/-- A message that is queued is handed out. -/
theorem Parsed.handOut (h : Parsed frames sent returned http2 parsed)
    {message : Http2Message} {rest : List Http2Message}
    (hreceived : http2.received = message :: rest) :
    Parsed frames sent (returned ++ [message]) { http2 with received := rest }
      parsed where
  front := h.front
  messages := by
    have hmessages := h.messages
    rw [hreceived] at hmessages
    rw [← hmessages, List.append_assoc, List.singleton_append]
  bytes := h.bytes

theorem Delivered.kept (h : Delivered frames sent returned http2)
    (hkept : Kept http2 next) : Delivered frames sent returned next := by
  obtain ⟨parsed, hparsed⟩ := h
  exact ⟨parsed, hparsed.kept hkept⟩

/-- A write of the transport, failed or not, takes no byte and no message. -/
theorem triple_send (http2 : Http2 ScriptedTransport) (bytes : Bytes) :
    Triple (fun state => state = http2) (onTransport (Transport.write bytes))
      (fun _ => Kept http2) (fun _ => Kept http2) := by
  rintro state rfl
  rw [onTransport, run_zoom]
  obtain ⟨writes, hok | ⟨e, herror⟩⟩ := run_write bytes state.transport
  · rw [hok]
    exact ⟨rfl, rfl⟩
  · rw [herror]
    exact ⟨rfl, rfl⟩

/-- What is pending in the buffer starts with the first of the frames that are not
parsed; the last of it may be a part of a frame. -/
theorem Parsed.pending_parsed (h : Parsed frames sent returned http2 parsed)
    (hsent : sent <+: frames.flatMap Http2Frame.encode)
    {rest : List Http2Frame} (hrest : frames = parsed ++ rest) :
    http2.pending <+: rest.flatMap Http2Frame.encode := by
  rw [h.bytes, hrest, List.flatMap_append] at hsent
  exact (List.prefix_append_right_inj _).mp hsent

theorem keeps_readFrame (hframes : ∀ frame ∈ frames, frame.WellFormed)
    (hsent : sent <+: frames.flatMap Http2Frame.encode) :
    Keeps (Delivered frames sent returned) readFrame := by
  rintro http2 ⟨parsed, hparsed⟩
  obtain ⟨rest, hrest⟩ := hparsed.front
  have hread := triple_readFrame
    (fun frame hmem => hframes frame (by
      rw [← hrest]
      exact List.mem_append_right parsed hmem))
    (hparsed.pending_parsed hsent hrest.symm) http2 rfl
  rcases hrun : Http2.readFrame.run http2 with ⟨_ | _, next⟩
  · rw [hrun] at hread
    exact ⟨parsed, hparsed.kept hread⟩
  · rw [hrun] at hread
    obtain ⟨frame, others, rfl, htook⟩ := hread
    refine ⟨parsed ++ [frame], hparsed.took ⟨others, ?_⟩ htook⟩
    rw [← hrest, List.append_assoc, List.singleton_append]

theorem invariant_delivered (hframes : ∀ frame ∈ frames, frame.WellFormed)
    (hsent : sent <+: frames.flatMap Http2Frame.encode) :
    Invariant (Delivered frames sent) where
  opening _ bytes _ := fun http2 h =>
    (triple_send http2 bytes).imp_post (fun _ _ => h.kept) (fun _ _ => h.kept)
      http2 rfl
  data _ http2 _ _ h _ _ := (triple_send http2 _).imp_post
    (fun _ _ hkept => (h.kept hkept).kept ⟨rfl, rfl⟩) fun _ _ => h.kept
  readFrame _ := keeps_readFrame hframes hsent
  handOut _ _ _ _ h hreceived := by
    obtain ⟨parsed, hparsed⟩ := h
    exact ⟨parsed, hparsed.handOut hreceived⟩

end Delivered

/-- At the end of every session, whatever the script's chunks and failures are, some of
the peer's frames, from the front, are parsed. The messages that the reads returned and
those still queued are theirs, once each and in order, and the bytes of the other frames
are in the buffer or still to come. -/
theorem delivered_session {frames : List Http2Frame}
    (hframes : ∀ frame ∈ frames, frame.WellFormed)
    {transport : ScriptedTransport}
    (hsent : transport.remaining <+: frames.flatMap Http2Frame.encode)
    (fuel : Nat) (calls : List (Nat × Call)) :
    ∃ parsed, Parsed frames transport.remaining
      (session transport fuel calls).1 (session transport fuel calls).2 parsed :=
  (invariant_delivered hframes hsent).session
    ⟨[], List.nil_prefix, rfl, rfl⟩ fuel calls

/-- A SETTINGS frame and a message. -/
def cutFrames : List Http2Frame :=
  [⟨kSettings, 0, 0, []⟩, ⟨kData, 0, kHttp2ReplyStream, [7, 8]⟩]

/-- A peer that sends them cut inside the second header, with a failed read
between, and whose first answer fails. -/
def cutPeer : ScriptedTransport where
  reads := [.ok ((cutFrames.flatMap Http2Frame.encode).take 13),
    .error ⟨.transport, ascii "timed out"⟩,
    .ok ((cutFrames.flatMap Http2Frame.encode).drop 13)]
  writes := [none, none, none, some ⟨.transport, ascii "timed out"⟩]

theorem delivered_session_cutPeer :
    (∃ parsed, Parsed cutFrames cutPeer.remaining
      (session cutPeer 2 [(2, .read), (2, .read)]).1
      (session cutPeer 2 [(2, .read), (2, .read)]).2 parsed) ∧
      (session cutPeer 2 [(2, .read), (2, .read)]).1 =
        [⟨kHttp2ReplyStream, [7, 8]⟩] := by
  refine ⟨@delivered_session cutFrames ?_ cutPeer (by decide +kernel) 2 _,
    by decide +kernel⟩
  intro frame hmem
  rcases List.mem_cons.mp hmem with rfl | hmem
  · exact ⟨by decide, by decide, by decide⟩
  · rw [List.mem_singleton.mp hmem]
    exact ⟨by decide, by decide, by decide⟩

end Ioscpp.Protocol.Http2
