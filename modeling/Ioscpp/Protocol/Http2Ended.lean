import Ioscpp.Protocol.Http2Effects
import Ioscpp.Protocol.Http2Write

/-!
# Writing on a connection that its peer has ended

A GOAWAY or a RST_STREAM fails the connection for good, and `connect` and `read`
look for that.  `write` does not: it stops only because the windows are
exhausted or the transport refuses it.

## Main results

* `invariant_failed`: a connection that has failed stays so in every run.
* `failsSilently_iff`: a write fails without sending DATA if and only if the
  peer's frames, the windows and the transport's answers never let it through.
* `write_ended_iff`: so it is at every point behind the frame that ends the
  connection.
-/

namespace Ioscpp.Protocol.Http2

open Ioscpp.Support
open Ioscpp.Support.Action

/-- The DATA frames that the transport took: their streams and their sizes. -/
def dataWritten (http2 : Http2 ScriptedTransport) : List (Nat × Nat) :=
  http2.transport.written.filterMap writtenFrame

section DataWritten

variable {http2 next : Http2 ScriptedTransport}

theorem dataWritten_of_written (h : next.transport.written =
    http2.transport.written) : next.dataWritten = http2.dataWritten := by
  rw [dataWritten, h, dataWritten]

/-- Acknowledgements are not DATA. -/
theorem Acked.dataWritten (h : Acked http2 next) :
    next.dataWritten = http2.dataWritten := by
  obtain ⟨acks, hacks, hwritten⟩ := h.written
  have hnone : acks.filterMap writtenFrame = [] :=
    List.filterMap_eq_nil_iff.mpr fun frame hmem =>
      writtenFrame_ack (hacks frame hmem)
  rw [Http2.dataWritten, hwritten, List.filterMap_append, hnone, List.append_nil,
    Http2.dataWritten]

theorem dataWritten_data {stream : UInt32} {payload : Bytes}
    (h : next.transport.written =
      http2.transport.written ++ [dataFrame stream payload]) :
    next.dataWritten =
      http2.dataWritten ++ [(stream.toNat % 2 ^ 31, payload.length)] := by
  rw [dataWritten, h, List.filterMap_append, List.filterMap_cons,
    writtenFrame_dataFrame, dataWritten]
  rfl

/-- What was written stays written. -/
theorem invariant_dataWritten (front : List (Nat × Nat)) :
    Invariant fun _ http2 => front <+: dataWritten http2 where
  opening _ bytes hbytes := by
    intro state h
    refine (triple_data state bytes).imp_post (fun _ next hnext => ?_)
      (fun _ next hnext => ?_) state rfl
    · rw [dataWritten, hnext.2, List.filterMap_append]
      exact h.trans (List.prefix_append _ _)
    · rw [dataWritten_of_written hnext.2]
      exact h
  data _ state stream payload h _ _ := by
    refine (triple_data state _).imp_post (fun _ next hnext => ?_)
      fun _ next hnext => ?_
    · show front <+: next.dataWritten
      rw [dataWritten_data hnext.2]
      exact h.trans (List.prefix_append _ _)
    · rw [dataWritten_of_written hnext.2]
      exact h
  readFrame _ := by
    intro state h
    refine (triple_readFrame_acked state).imp_post (fun _ next hnext => ?_)
      (fun _ next hnext => ?_) state rfl
    · rw [hnext.dataWritten]
      exact h
    · rw [hnext.dataWritten]
      exact h
  handOut _ _ _ _ h _ := h

end DataWritten

/-! ## The end of a connection -/

/-- A read has processed a GOAWAY or a RST_STREAM: the frame was the next of what the
peer sent, and the read ended without an error of its own. -/
structure EndedBy (frame : Http2Frame) (before after : Http2 ScriptedTransport) :
    Prop where
  type : frame.Fails
  frame : firstFrame before.pending = some frame
  read : readFrame.run before = (.ok (), after)

theorem EndedBy.failed {frame : Http2Frame}
    {before after : Http2 ScriptedTransport} (h : EndedBy frame before after) :
    after.failed ≠ none := by
  have hread := readsFrame before
  rw [h.read] at hread
  cases hread with
  | @taken other _ hfirst _ htakes =>
      obtain rfl := Option.some.inj
        (h.frame.symm.trans (firstFrame_pending hfirst))
      exact fun hnone => (htakes.failed.mp hnone).2 h.type

section Failed

variable {τ : Type}

/-- The connection has failed. -/
def Failed (http2 : Http2 τ) : Prop := http2.failed ≠ none

/-- A change that leaves the failure alone. -/
theorem Failed.of_eq {http2 next : Http2 τ} (h : Failed http2)
    (heq : next.failed = http2.failed) : Failed next := by
  rw [Failed, heq]
  exact h

theorem failed_applySettings {http2 : Http2 τ} (h : Failed http2)
    (entries : List (Nat × Nat)) : Failed (entries.foldl applySetting http2) := by
  induction entries generalizing http2 with
  | nil => exact h
  | cons entry rest ih =>
      refine ih ?_
      rw [applySetting]
      split
      · exact h.of_eq rfl
      · exact h

theorem keeps_failed_onTransport {α : Type} (x : Action Error τ α) :
    Keeps Failed (onTransport x) :=
  keeps_zoom fun _ _ h => h.of_eq rfl

theorem keeps_failed_failure (error : Result Error) :
    Keeps Failed (handleFailure error : Action Error (Http2 τ) Unit) :=
  (keeps_lift error).bind fun _ =>
    keeps_modify fun _ _ => Option.some_ne_none _

theorem keeps_failed_windowUpdate (frame : Http2Frame) :
    Keeps Failed (handleWindowUpdate frame : Action Error (Http2 τ) Unit) := by
  refine (keeps_lift _).bind fun increment => keeps_modify fun state h => ?_
  split
  · exact h.of_eq rfl
  · exact h.of_eq rfl

variable [Transport τ]

theorem keeps_failed_fill (count : Nat) :
    Keeps Failed (fill count : Action Error (Http2 τ) Unit) :=
  keeps_zoom fun _ _ h => h.of_eq rfl

theorem keeps_failed_settings (frame : Http2Frame) :
    Keeps Failed (handleSettings frame : Action Error (Http2 τ) Unit) := by
  refine keeps_ite (Keeps.bind ?_ fun _ => Keeps.bind ?_ fun _ => ?_)
    (keeps_pure _)
  · exact keeps_modify fun _ h => failed_applySettings h _
  · exact keeps_modify fun _ h => h.of_eq rfl
  · exact keeps_failed_onTransport _

theorem keeps_failed_handleFrame (frame : Http2Frame) :
    Keeps Failed (handleFrame frame : Action Error (Http2 τ) Unit) :=
  keeps_ite (keeps_ite (keeps_pure _) (keeps_modify fun _ h => h.of_eq rfl)) <|
    keeps_ite (keeps_failed_settings frame) <|
    keeps_ite (keeps_failed_windowUpdate frame) <|
    keeps_ite (keeps_ite (keeps_failed_onTransport _) (keeps_pure _)) <|
    keeps_ite (keeps_failed_failure _) <|
    keeps_ite (keeps_failed_failure _) (keeps_pure _)

theorem keeps_failed_readFrame :
    Keeps Failed (readFrame : Action Error (Http2 τ) Unit) :=
  (keeps_failed_fill 9).bind fun _ => .get_bind fun _ =>
    (keeps_lift _).bind fun _ => (keeps_failed_fill _).bind fun _ =>
      .get_bind fun _ => (keeps_lift _).bind fun _ =>
        (keeps_failed_handleFrame _).bind fun _ =>
          keeps_modify fun _ h => h.of_eq rfl

/-- A connection that has failed stays so in every run: no part of a call takes the
failure back, and a later frame only replaces its error. -/
theorem invariant_failed : Invariant fun _ => @Failed τ where
  opening _ _ _ := keeps_failed_onTransport _
  data _ http2 stream _ h _ _ := by
    refine (triple_onTransport _ http2).imp_post ?_ ?_
    · rintro _ _ ⟨transport, rfl⟩
      exact h.of_eq rfl
    · rintro _ _ ⟨transport, rfl⟩
      exact h.of_eq rfl
  readFrame _ := keeps_failed_readFrame
  handOut _ _ _ _ h _ := h.of_eq rfl

end Failed

/-! ## Writing -/

/-- A writer is never let through: from these windows, over a transport that gives
these answers to what is written, none of the peer's frames brings it to send.
While a window is exhausted it reads the next frame, which moves the windows and
may ask for an answer; once there is credit, the transport refuses what it
sends. -/
def Shut : List (Option Error) → Credit → List Http2Frame → Prop
  | answers, credit, [] => 0 < credit.budget → Refuses answers
  | answers, credit, frame :: rest =>
      if 0 < credit.budget then Refuses answers
      else if frame.Asks then
        -- a frame whose answer is refused ends the write with that error
        Refuses answers ∨ Shut answers.tail (credit.after frame) rest
      else frame.HasIncrement ∧ Shut answers (credit.after frame) rest

/-- A `write` that fails with an error, and after which the transport has taken no DATA
frame more than before. -/
def FailsSilently (stream : UInt32) (fuel : Nat) (payload : Bytes)
    (http2 : Http2 ScriptedTransport) : Prop :=
  ∃ e next, (write stream fuel payload).run http2 = (.error (.error e), next) ∧
    next.dataWritten = http2.dataWritten

section Write

variable {http2 next : Http2 ScriptedTransport} {stream : UInt32}
  {payload : Bytes} {fuel : Nat}

theorem dataWritten_readFrame (http2 : Http2 ScriptedTransport) :
    (readFrame.run http2).2.dataWritten = http2.dataWritten := by
  have hread := triple_readFrame_acked http2 http2 rfl
  rcases hrun : readFrame.run http2 with ⟨_ | _, next⟩ <;>
    (rw [hrun] at hread; exact hread.dataWritten)

/-- Within the windows a write fails without sending DATA exactly when its first
frame is refused. -/
theorem failsSilently_credit_iff (hne : payload ≠ [])
    (hcredit : 0 < http2.budget) :
    FailsSilently stream (fuel + 1) payload http2 ↔
      Refuses http2.transport.writes := by
  obtain ⟨count, -, -, -, hturn⟩ := @run_write_credit _ _ http2 stream payload
    fuel hne hcredit
  rw [FailsSilently, hturn]
  rcases run_write_cases (dataFrame stream (payload.take count)) http2 with
    ⟨hrefuses, e, hwrite⟩ | ⟨haccepts, hwrite⟩
  · rw [run_bind_error hwrite]
    exact ⟨fun _ => hrefuses, fun _ => ⟨e, _, rfl, rfl⟩⟩
  · -- the frame is sent, and what was written stays written
    obtain ⟨state, hsent⟩ : ∃ state, (onTransport (Transport.write
        (dataFrame stream (payload.take count)))).run http2 = (.ok (), state) :=
      ⟨_, hwrite⟩
    rw [run_bind_ok hsent, run_bind_ok (run_modify _ _)]
    refine ⟨?_, fun hrefuses => absurd hrefuses haccepts⟩
    rintro ⟨e, next, hrun, hsilent⟩
    have hdata := triple_data http2 (dataFrame stream (payload.take count)) http2 rfl
    rw [hsent] at hdata
    have hkept := ((invariant_dataWritten
      (spend stream count state).dataWritten).write [] stream fuel
        (payload.drop count)).state (List.prefix_refl _)
    rw [hrun, hsilent] at hkept
    have hlength := hkept.length_le
    have hspent : (spend stream count state).dataWritten = state.dataWritten := rfl
    rw [hspent, dataWritten_data hdata.2, List.length_append,
      List.length_singleton] at hlength
    omega

/-- While a window is exhausted a write does what it does after the next frame. -/
theorem failsSilently_exhausted_iff (hne : payload ≠ [])
    (hexhausted : http2.budget ≤ 0) (hread : readFrame.run http2 = (.ok (), next)) :
    FailsSilently stream (fuel + 1) payload http2 ↔
      FailsSilently stream fuel payload next := by
  have hdata := dataWritten_readFrame http2
  rw [hread] at hdata
  rw [FailsSilently, run_write_exhausted hne hexhausted, run_bind_ok hread,
    FailsSilently, hdata]

/-- A write fails without sending DATA if and only if the peer's frames, the
windows and the transport's answers never let it through. -/
theorem failsSilently_iff (hne : payload ≠ [])
    (hfuel : (peerFrames http2.ahead).length < fuel) :
    FailsSilently stream fuel payload http2 ↔
      Shut http2.transport.writes http2.credit (peerFrames http2.ahead) := by
  induction fuel generalizing http2 with
  | zero => omega
  | succ fuel ih =>
      rcases lt_or_ge 0 http2.budget with hcredit | hexhausted
      · rw [failsSilently_credit_iff hne hcredit]
        rcases peerFrames http2.ahead with _ | ⟨frame, rest⟩
        · exact ⟨fun h _ => h, fun h => h hcredit⟩
        · rw [Shut, if_pos (show 0 < http2.credit.budget from hcredit)]
      · have hread := readsFrame http2
        have hdata := dataWritten_readFrame http2
        have hcredit : ¬ 0 < http2.credit.budget := by
          rw [budget_credit]
          omega
        rcases hrun : readFrame.run http2 with ⟨result, next⟩
        rw [hrun] at hread hdata
        cases hread with
        | @nothing e _ hfirst _ =>
            rw [peerFrames_none hfirst]
            refine ⟨fun _ h => absurd h hcredit, fun _ => ⟨e, next, ?_, hdata⟩⟩
            rw [run_write_exhausted hne hexhausted, run_bind_error hrun]
        | @outside frame _ hfirst hshort =>
            rw [peerFrames_some hfirst, Shut, if_neg hcredit, if_neg ?_]
            · refine ⟨?_, fun h => absurd h.1 hshort⟩
              rintro ⟨e, last, hwrite, -⟩
              rw [run_write_exhausted hne hexhausted, run_bind_error hrun] at hwrite
              cases (Prod.mk.inj hwrite).1
            · rintro ⟨htype | htype, -⟩
              · exact hshort fun h => absurd (htype.symm.trans h) (by decide)
              · exact hshort fun h => absurd (htype.symm.trans h) (by decide)
        | @refused frame e _ hfirst _ hasks hrefuses _ =>
            rw [peerFrames_some hfirst, Shut, if_neg hcredit, if_pos hasks]
            refine ⟨fun _ => .inl hrefuses, fun _ => ⟨e, next, ?_, hdata⟩⟩
            rw [run_write_exhausted hne hexhausted, run_bind_error hrun]
        | @taken frame _ hfirst hincrement htakes =>
            have hframes := peerFrames_some hfirst
            rw [← htakes.ahead] at hframes
            rw [hframes, List.length_cons] at hfuel
            have hless : (peerFrames next.ahead).length < fuel :=
              Nat.lt_of_succ_lt_succ hfuel
            rw [failsSilently_exhausted_iff hne hexhausted hrun, ih hless,
              hframes, Shut, if_neg hcredit, htakes.writes, htakes.credit]
            split
            · rename_i hasks
              exact ⟨.inr, fun h => h.resolve_left (htakes.answer hasks)⟩
            · exact ⟨fun h => ⟨hincrement, h⟩, fun h => h.2⟩

end Write

/-- After a read has processed a GOAWAY or a RST_STREAM the connection stays
failed, in every run that goes on from there.  At every point of it a `write`, of a
payload or of what is left of one, fails and sends no DATA if and only if the
frames that the peer has sent behind the end, the windows and the transport's
answers never let it through. -/
theorem write_ended_iff {frame : Http2Frame}
    {before ended http2 : Http2 ScriptedTransport} {steps : List Step}
    {returned : List Http2Message} (hended : EndedBy frame before ended)
    (hrun : Run ended steps returned http2) {payload : Bytes}
    (hne : payload ≠ []) (stream : UInt32) {fuel : Nat}
    (hfuel : (peerFrames http2.ahead).length < fuel) :
    http2.Failed ∧ (FailsSilently stream fuel payload http2 ↔
      Shut http2.transport.writes http2.credit (peerFrames http2.ahead)) :=
  ⟨invariant_failed.run hrun hended.failed, failsSilently_iff hne hfuel⟩

/-- A GOAWAY without details. -/
def goingAway : Http2Frame := ⟨kGoAway, 0, 0, []⟩

/-- What a peer may send behind it: a PING, credit for the connection, a
message. -/
def behindGoAway : List Http2Frame :=
  [⟨kPing, 0, 0, List.replicate 8 7⟩, ⟨kWindowUpdate, 0, 0, [0, 0, 0, 9]⟩,
    ⟨kData, 0, kHttp2ReplyStream, [5, 6]⟩]

/-- A peer that goes away while the stream's window is exhausted. -/
def leavingHttp2 : Http2 ScriptedTransport where
  transport := { reads := [.ok goingAway.encode,
    .ok (behindGoAway.flatMap Http2Frame.encode)] }
  streamWindow := 0

/-- The credit is the connection's, and the stream has none: the write reads all
that comes and fails. -/
theorem write_ended_iff_leavingHttp2 :
    ((readFrame.run leavingHttp2).2).Failed ∧
      (FailsSilently kHttp2ControlStream 4 [1] (readFrame.run leavingHttp2).2 ↔
        Shut (readFrame.run leavingHttp2).2.transport.writes
          (readFrame.run leavingHttp2).2.credit
          (peerFrames (readFrame.run leavingHttp2).2.ahead)) ∧
      peerFrames (readFrame.run leavingHttp2).2.ahead = behindGoAway := by
  have hended : EndedBy goingAway leavingHttp2 (readFrame.run leavingHttp2).2 :=
    ⟨.inl rfl, by decide +kernel, Prod.ext (by decide +kernel) rfl⟩
  have hahead : (readFrame.run leavingHttp2).2.ahead =
      behindGoAway.flatMap Http2Frame.encode := by
    decide +kernel
  have hframes : peerFrames (behindGoAway.flatMap Http2Frame.encode) =
      behindGoAway := by
    refine peerFrames_encode ?_
    intro frame hmem
    fin_cases hmem
    · exact ⟨by decide, by decide, by decide⟩
    · exact ⟨by decide, by decide, by decide⟩
    · exact ⟨by decide, by decide, by decide⟩
  rw [hahead]
  have hall := @write_ended_iff _ _ _ _ _ _ hended .nil [1] (by decide)
    kHttp2ControlStream 4 (by rw [hahead, hframes]; decide)
  rw [hahead] at hall
  exact ⟨hall.1, hall.2, hframes⟩

/-- A peer that sends its SETTINGS and goes away. -/
def goingPeer : ScriptedTransport where
  reads := [.ok (settingsFrame false), .ok goingAway.encode]

/-- After the GOAWAY the windows are still open. -/
theorem not_write_ended_goingPeer :
    ¬ ∀ (frame : Http2Frame) (before ended http2 : Http2 ScriptedTransport)
      (steps : List Step) (returned : List Http2Message) (payload : Bytes)
      (stream : UInt32), EndedBy frame before ended →
        Run ended steps returned http2 → payload ≠ [] →
        ∀ fuel, (peerFrames http2.ahead).length < fuel →
          FailsSilently stream fuel payload http2 := by
  intro h
  have hended : EndedBy goingAway ((connect 1).run { transport := goingPeer }).2
      (readFrame.run ((connect 1).run { transport := goingPeer }).2).2 :=
    ⟨.inl rfl, by decide +kernel, Prod.ext (by decide +kernel) rfl⟩
  have hnone : peerFrames (readFrame.run ((connect 1).run
      { transport := goingPeer }).2).2.ahead = [] :=
    peerFrames_none (by decide +kernel)
  obtain ⟨e, next, hrun, -⟩ := h _ _ _ _ [] [] [1] kHttp2ControlStream hended .nil
    (by decide) 1 (by rw [hnone]; decide)
  have hsent : ((write kHttp2ControlStream 1 [1]).run (readFrame.run
      ((connect 1).run { transport := goingPeer }).2).2).1 = .ok () := by
    decide +kernel
  rw [hrun] at hsent
  cases hsent

end Ioscpp.Protocol.Http2
