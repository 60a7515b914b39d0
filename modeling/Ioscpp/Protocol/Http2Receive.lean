import Ioscpp.Protocol.Http2Delivery

/-!
# Reading from a peer that does not fail

Over a script without failures, from a peer that neither resets a stream nor goes
away, `read` returns the peer's messages one after the other, whatever control
frames stand between them and however the script cuts their bytes.

## Main results

- `triple_readFrame_smooth`: a read takes the next frame, and fails only at the end of
  the stream.
- `run_read`: `read` returns the next message.
- `invariant_expecting`: no call drops a message.
-/

namespace Ioscpp.Protocol

open Ioscpp.Support
open Ioscpp.Support.Action

/-- A frame that does not fail the connection. -/
structure Http2Frame.Quiet (frame : Http2Frame) : Prop where
  wellFormed : frame.WellFormed
  goAway : frame.type ≠ kGoAway
  rstStream : frame.type ≠ kRstStream

namespace Http2

/-- A connection that has not failed, over a script without failures. -/
structure Smooth (http2 : Http2 ScriptedTransport) : Prop where
  clean : http2.transport.Clean
  writes : http2.transport.writes = []
  failed : http2.failed = none

/-- The frames still to be handled. -/
structure Incoming (frames : List Http2Frame)
    (http2 : Http2 ScriptedTransport) : Prop where
  quiet : ∀ frame ∈ frames, frame.Quiet
  pending : http2.pending = frames.flatMap Http2Frame.encode
  smooth : http2.Smooth

/-- The messages still to be read: those queued and those of the frames still to
be handled. -/
def toCome (frames : List Http2Frame) (http2 : Http2 ScriptedTransport) :
    List Http2Message :=
  http2.received ++ frames.flatMap Http2Frame.messages

/-! ## Frames -/

section Frames

variable {http2 state : Http2 ScriptedTransport} {frame : Http2Frame}

/-- A change that leaves the transport and the failure alone. -/
theorem Smooth.of_eq (h : Smooth http2)
    (htransport : state.transport = http2.transport)
    (hfailed : state.failed = http2.failed) : Smooth state where
  clean := htransport ▸ h.clean
  writes := htransport ▸ h.writes
  failed := hfailed.trans h.failed

theorem Filled.smooth {bytes : Bytes} (hfilled : Filled http2 state bytes)
    (h : Smooth http2) : Smooth state where
  clean := hfilled.delivers.clean h.clean
  writes := hfilled.delivers.writes.trans h.writes
  failed := by
    rw [hfilled.eq]
    exact h.failed

/-- Writes of a script without failures succeed. -/
theorem triple_write_smooth (bytes : Bytes) :
    Triple Smooth (onTransport (Transport.write bytes))
      (fun _ => Smooth) (fun _ _ => False) := by
  intro state h
  rw [onTransport, run_zoom, ScriptedTransport.run_write_ok bytes h.writes]
  exact ⟨h.clean, h.writes, h.failed⟩

theorem smooth_applySettings (entries : List (Nat × Nat)) (h : Smooth http2) :
    Smooth (entries.foldl applySetting http2) := by
  induction entries generalizing http2 with
  | nil => exact h
  | cons entry rest ih =>
      refine ih ?_
      rw [applySetting]
      split
      · exact h.of_eq rfl rfl
      · exact h

/-- A frame that does not fail the connection is handled. -/
theorem triple_handleFrame_smooth (hquiet : frame.Quiet) :
    Triple Smooth (handleFrame frame) (fun _ => Smooth) (fun _ _ => False) := by
  refine Triple.ite (fun _ => ?_) fun _ => Triple.ite (fun _ => ?_) fun _ =>
    Triple.ite (fun hupdate => ?_) fun _ => Triple.ite (fun _ => ?_) fun _ => ?_
  · exact Triple.ite (fun _ => Triple.pure fun _ h => h) fun _ =>
      Triple.modify fun _ h => h.of_eq rfl rfl
  · refine Triple.ite (fun _ => ?_) fun _ => Triple.pure fun _ h => h
    refine Triple.bind (Q := fun _ => Smooth)
      (Triple.modify fun _ h => smooth_applySettings _ h) fun _ => ?_
    exact Triple.bind (Q := fun _ => Smooth)
      (Triple.modify fun _ h => h.of_eq rfl rfl) fun _ => triple_write_smooth _
  · have hlength := hquiet.wellFormed.windowUpdate hupdate
    have hread : (readBe frame.payload 0 4 : Result Nat) =
        .ok (beValue ((frame.payload.drop 0).take 4) % 2 ^ 64) :=
      readBe_eq (by omega)
    rw [handleWindowUpdate, hread]
    refine Triple.lift_ok_bind (Triple.modify fun state h => ?_)
    split
    · exact h.of_eq rfl rfl
    · exact h.of_eq rfl rfl
  · exact Triple.ite (fun _ => triple_write_smooth _) fun _ =>
      Triple.pure fun _ h => h
  · rw [if_neg hquiet.goAway, if_neg hquiet.rstStream]
    exact Triple.pure fun _ h => h

variable {frames : List Http2Frame}

/-- Reading from a peer whose frames are still to come takes the next frame, and fails
only when there is none, at the end of the stream. -/
theorem triple_readFrame_smooth (h : Incoming frames http2) :
    Triple (fun other => other = http2) readFrame
      (fun _ next => ∃ frame rest, frames = frame :: rest ∧
        Took frame http2 next ∧ Smooth next)
      (fun e next => frames = [] ∧ e = .error connectionEnded ∧
        Kept http2 next ∧ Smooth next) := by
  have hpending := h.pending
  refine triple_readFrame_of (fun frame hmem => (h.quiet frame hmem).wellFormed)
    (by rw [hpending]) ?_ ?_
  · intro count e next hsize hfailed
    obtain ⟨bytes, hfilled⟩ := hfailed.filled
    obtain ⟨hlt, rfl⟩ := hfailed.clean h.smooth.clean
    rw [hpending] at hlt
    refine ⟨?_, rfl, hfilled.kept, hfilled.smooth h.smooth⟩
    rcases hsize with hnil | hle
    · exact hnil
    · omega
  · intro frame rest second bytes behind hsplit hfilled hbuffer
    have hquiet := h.quiet frame (by rw [hsplit]; simp)
    rintro other rfl
    have hhandled := (@triple_handleFrame other frame) other rfl
    have hsmooth := triple_handleFrame_smooth hquiet other
      (hfilled.smooth h.smooth)
    rcases hrun : (handleFrame frame).run other with ⟨e | _, next⟩
    · rw [hrun] at hsmooth
      exact hsmooth.elim
    · rw [hrun] at hhandled hsmooth
      exact ⟨frame, rest, hsplit, hhandled.took hfilled hbuffer,
        hsmooth.of_eq rfl rfl⟩

/-- After a frame is taken, the others are still to be handled. -/
theorem Incoming.took {rest : List Http2Frame} (h : Incoming (frame :: rest) http2)
    (htook : Took frame http2 state) (hsmooth : Smooth state) :
    Incoming rest state ∧ toCome rest state = toCome (frame :: rest) http2 := by
  refine ⟨⟨fun other hmem => h.quiet other (List.mem_cons_of_mem _ hmem), ?_,
    hsmooth⟩, ?_⟩
  · have hpending := h.pending
    rw [htook.pending, List.flatMap_cons] at hpending
    exact List.append_cancel_left hpending
  · rw [toCome, toCome, htook.received, List.flatMap_cons, List.append_assoc]

end Frames

/-! ## Reading -/

/-- The next message is handed out, and the others are still to come. -/
structure ReadNext (frames : List Http2Frame) (others : List Http2Message)
    (next : Http2 ScriptedTransport) : Prop where
  incoming : ∃ rest, Incoming rest next ∧ toCome rest next = others ∧
    rest.length ≤ frames.length

/-- `read` returns the next message and leaves the others to come, or it fails at the
end of the stream when there is none. -/
theorem run_read {frames : List Http2Frame} {http2 : Http2 ScriptedTransport}
    (h : Incoming frames http2) {fuel : Nat} (hfuel : frames.length < fuel) :
    match toCome frames http2 with
    | message :: others => ∃ next, (read fuel).run http2 = (.ok message, next) ∧
        ReadNext frames others next
    | [] => ∃ next, (read fuel).run http2 =
        (.error (.error connectionEnded), next) := by
  induction fuel generalizing frames http2 with
  | zero => omega
  | succ fuel ih =>
      rw [read, run_bind_ok (run_get http2)]
      rcases hreceived : http2.received with _ | ⟨message, queued⟩
      · have hfailed := h.smooth.failed
        dsimp only
        rw [hfailed]
        dsimp only
        have hread := triple_readFrame_smooth h http2 rfl
        rcases hrun : Http2.readFrame.run http2 with ⟨e | _, next⟩
        · rw [hrun] at hread
          obtain ⟨rfl, rfl, -, -⟩ := hread
          rw [toCome, hreceived]
          exact ⟨next, run_bind_error hrun⟩
        · rw [hrun] at hread
          obtain ⟨frame, rest, rfl, htook, hsmooth⟩ := hread
          obtain ⟨hincoming, hcome⟩ := h.took htook hsmooth
          rw [run_bind_ok hrun, ← hcome]
          rw [List.length_cons] at hfuel
          have hnext := ih hincoming (by omega)
          rcases hmessages : toCome rest next with _ | ⟨message, others⟩
          · rw [hmessages] at hnext
            exact hnext
          · rw [hmessages] at hnext
            obtain ⟨last, hlast, others', hothers, hcome', hle⟩ := hnext
            exact ⟨last, hlast, others', hothers, hcome', by
              rw [List.length_cons]
              omega⟩
      · rw [toCome, hreceived]
        exact ⟨{ http2 with received := queued }, rfl, frames,
          ⟨h.quiet, h.pending, h.smooth.of_eq rfl rfl⟩, rfl, le_refl _⟩

/-- What is to be read is what was to come, less what is read. -/
def Expecting (messages : List Http2Message) (size : Nat)
    (returned : List Http2Message) (http2 : Http2 ScriptedTransport) : Prop :=
  ∃ frames, Incoming frames http2 ∧ returned ++ toCome frames http2 = messages ∧
    frames.length ≤ size

/-- No call drops a message: those that are queued and those still to come are the ones
of before, but for what was handed out. -/
theorem invariant_expecting (messages : List Http2Message) (size : Nat) :
    Invariant (Expecting messages size) where
  opening returned bytes _ := by
    rintro http2 ⟨frames, hincoming, hcome, hle⟩
    have hkept := triple_send http2 bytes http2 rfl
    have hsmooth := triple_write_smooth bytes http2 hincoming.smooth
    rcases hrun : (onTransport (Transport.write bytes)).run http2 with
      ⟨e | _, next⟩
    · rw [hrun] at hsmooth
      exact hsmooth.elim
    · rw [hrun] at hkept hsmooth
      exact ⟨frames, ⟨hincoming.quiet, hkept.pending.trans hincoming.pending,
        hsmooth⟩, by rw [toCome, hkept.received]; exact hcome, hle⟩
  data returned http2 stream payload := by
    rintro ⟨frames, hincoming, hcome, hle⟩ _ _ other rfl
    have hkept := triple_send other (dataFrame stream payload) other rfl
    have hsmooth := triple_write_smooth (dataFrame stream payload) other
      hincoming.smooth
    rcases hrun : (onTransport (Transport.write
      (dataFrame stream payload))).run other with ⟨e | _, next⟩
    · rw [hrun] at hsmooth
      exact hsmooth.elim
    · rw [hrun] at hkept hsmooth
      exact ⟨frames, ⟨hincoming.quiet, hkept.pending.trans hincoming.pending,
        hsmooth.of_eq rfl rfl⟩, by
          show returned ++ (next.received ++ _) = _
          rw [hkept.received]
          exact hcome, hle⟩
  readFrame returned := by
    rintro http2 ⟨frames, hincoming, hcome, hle⟩
    have hread := triple_readFrame_smooth hincoming http2 rfl
    rcases hrun : Http2.readFrame.run http2 with ⟨e | _, next⟩
    · rw [hrun] at hread
      obtain ⟨rfl, -, hkept, hsmooth⟩ := hread
      exact ⟨[], ⟨by simp, hkept.pending.trans hincoming.pending, hsmooth⟩, by
        rw [toCome, hkept.received]; exact hcome, hle⟩
    · rw [hrun] at hread
      obtain ⟨frame, rest, rfl, htook, hsmooth⟩ := hread
      obtain ⟨hrest, hcome'⟩ := hincoming.took htook hsmooth
      rw [List.length_cons] at hle
      exact ⟨rest, hrest, by rw [hcome']; exact hcome, by omega⟩
  handOut returned http2 message rest := by
    rintro ⟨frames, hincoming, hcome, hle⟩ hreceived
    refine ⟨frames, ⟨hincoming.quiet, hincoming.pending,
      hincoming.smooth.of_eq rfl rfl⟩, ?_, hle⟩
    rw [toCome, hreceived] at hcome
    rw [toCome, ← hcome, List.append_assoc]
    rfl

end Http2

end Ioscpp.Protocol
