import Ioscpp.Protocol.Http2Bounds
import Ioscpp.Protocol.Http2Write

/-!
# What an HTTP/2 connection answers

A SETTINGS frame that is not an acknowledgement asks for one, and so does a PING,
whose acknowledgement carries the PING's payload.  At every point of a run the
answers that the transport took are those of the frames handled so far, one each
and in order; only the payload of a PING is not carried back.

A frame is taken off the buffer after its answer is written.  So when the
transport refuses the answer to a SETTINGS frame, the frame has taken effect and
takes effect again if anything is read after that.

## Main results

- `triple_handleFrame_answers`: what handling a frame leaves: its effects, and its
  answer when it succeeds.
- `Answered.readFrame`: what a read keeps in a run in which nothing is read after an
  answer is refused.
- `answers_exact_iff`: in every such run each frame takes effect once; when the
  answers are the right ones.
-/

namespace Ioscpp.Protocol

open Ioscpp.Support
open Ioscpp.Support.Action

/-- The event of a SETTINGS entry, when it sets the initial window. -/
def settingEvent (entry : Nat × Nat) : Option Http2Event :=
  if entry.1 = kSettingsInitialWindowSize then some (.initialWindow entry.2)
  else none

namespace Http2Frame

/-- The answer a frame asks for. -/
def answer (frame : Http2Frame) : List Bytes :=
  if frame.flags &&& kAck ≠ 0 then []
  else if frame.type = kSettings then [settingsFrame true]
  else if frame.type = kPing then [appendFrame [] kPing kAck 0 frame.payload]
  else []

/-- The answer a frame gets. -/
def answered (frame : Http2Frame) : List Bytes :=
  if frame.flags &&& kAck ≠ 0 then []
  else if frame.type = kSettings then [settingsFrame true]
  else if frame.type = kPing then [pingAckFrame]
  else []

/-- A PING that carries nothing but zeros, if it asks for an answer: `ping_ack_frame`
sends eight zeros back whatever the payload was. -/
def IsBlankPing (frame : Http2Frame) : Prop :=
  frame.type = kPing → frame.flags &&& kAck = 0 →
    frame.payload = List.replicate 8 0

/-- The events of the windows that a frame stands for. -/
def effects (frame : Http2Frame) : List Http2Event :=
  if frame.type = kSettings then
    if frame.flags &&& kAck = 0 then
      (Http2.settingsEntries frame.payload).filterMap settingEvent
    else []
  else if frame.type = kWindowUpdate then
    [.granted frame.stream.toNat (beValue (frame.payload.take 4))]
  else []

/-- A PING's answer carries its payload if and only if that is eight zeros. -/
theorem answered_eq_iff (frame : Http2Frame) :
    frame.answered = frame.answer ↔ frame.IsBlankPing := by
  unfold answered answer IsBlankPing
  split
  · rename_i hack
    exact ⟨fun _ _ hzero => absurd hzero hack, fun _ => rfl⟩
  · rename_i hack
    split
    · rename_i htype
      rw [htype]
      exact ⟨fun _ hping => absurd hping (by decide), fun _ => rfl⟩
    · split
      · rename_i htype
        constructor
        · intro heq _ _
          have hbytes := congrArg (List.drop 9) (List.cons.inj heq).1
          exact hbytes.symm
        · intro hblank
          rw [hblank htype (not_not.mp hack)]
          rfl
      · rename_i htype
        exact ⟨fun _ hping => absurd hping htype, fun _ => rfl⟩

theorem answered_of_ack {frame : Http2Frame} (h : ¬ frame.flags &&& kAck = 0) :
    frame.answered = [] := by
  rw [answered, if_pos h]

theorem answered_of_type (frame : Http2Frame) (hsettings : frame.type ≠ kSettings)
    (hping : frame.type ≠ kPing) : frame.answered = [] := by
  rw [answered, if_neg hsettings, if_neg hping, ite_self]

theorem effects_of_type (frame : Http2Frame) (hsettings : frame.type ≠ kSettings)
    (hupdate : frame.type ≠ kWindowUpdate) : frame.effects = [] := by
  rw [effects, if_neg hsettings, if_neg hupdate]

theorem length_answered (frame : Http2Frame) :
    frame.answered.length = frame.answer.length := by
  unfold answered answer
  split
  · rfl
  · split
    · rfl
    · split
      · rfl
      · rfl

theorem flatMap_answered_eq_iff (frames : List Http2Frame) :
    frames.flatMap answered = frames.flatMap answer ↔
      ∀ frame ∈ frames, frame.IsBlankPing := by
  induction frames with
  | nil => simp
  | cons frame rest ih =>
      rw [List.flatMap_cons, List.flatMap_cons, List.forall_mem_cons,
        ← answered_eq_iff, ← ih]
      constructor
      · exact fun h => List.append_inj h frame.length_answered
      · rintro ⟨hfirst, hrest⟩
        rw [hfirst, hrest]

end Http2Frame

/-- An event that a peer's frame stands for. -/
def Http2Event.isEffect : Http2Event → Bool
  | .sent _ _ => false
  | .granted _ _ => true
  | .initialWindow _ => true

/-- The bytes of an acknowledgement of SETTINGS or of a PING. -/
def IsAnswer (bytes : Bytes) : Prop :=
  (bytes[3]? = some kSettings ∨ bytes[3]? = some kPing) ∧ bytes[4]? = some kAck

instance : DecidablePred IsAnswer := fun _ => inferInstanceAs (Decidable (_ ∧ _))

namespace Http2

/-- The answers that the transport took. -/
def answers (http2 : Http2 ScriptedTransport) : List Bytes :=
  http2.transport.written.filter IsAnswer

/-- The events of the windows that the peer's frames caused. -/
def effects (http2 : Http2 ScriptedTransport) : List Http2Event :=
  http2.trace.filter Http2Event.isEffect

/-! ## Handling -/

section Handle

variable {http2 state : Http2 ScriptedTransport} {frame : Http2Frame}

theorem applySettings_effects (entries : List (Nat × Nat))
    (http2 : Http2 ScriptedTransport) :
    (entries.foldl applySetting http2).transport = http2.transport ∧
      (entries.foldl applySetting http2).effects =
        http2.effects ++ entries.filterMap settingEvent := by
  induction entries generalizing http2 with
  | nil => exact ⟨rfl, (List.append_nil _).symm⟩
  | cons entry rest ih =>
      obtain ⟨htransport, heffects⟩ := ih (applySetting http2 entry)
      rw [List.foldl_cons, htransport, heffects, List.filterMap_cons,
        applySetting, settingEvent]
      split
      · refine ⟨rfl, ?_⟩
        rw [effects, List.filter_append, effects, List.append_assoc]
        rfl
      · exact ⟨rfl, rfl⟩

/-- An answer is written, or refused. -/
theorem triple_answer {bytes : Bytes} (hbytes : IsAnswer bytes) :
    Triple (fun other => other = state) (onTransport (Transport.write bytes))
      (fun _ next => next.effects = state.effects ∧
        next.answers = state.answers ++ [bytes])
      (fun _ next => next.effects = state.effects ∧
        next.answers = state.answers ∧
          ∃ e rest, state.transport.writes = some e :: rest) := by
  have hwrite := triple_data state bytes
  rintro other rfl
  have hpost := hwrite other rfl
  rcases hrun : (onTransport (Transport.write bytes)).run other with
    ⟨fault | _, next⟩
  · rw [hrun] at hpost
    refine ⟨?_, ?_, refused_of_run_write hrun⟩
    · rw [effects, hpost.1, effects]
    · rw [answers, hpost.2, answers]
  · rw [hrun] at hpost
    refine ⟨?_, ?_⟩
    · rw [effects, hpost.1, effects]
    · rw [answers, hpost.2, List.filter_append, answers,
        List.filter_cons_of_pos (by simpa using hbytes)]
      rfl

/-- A frame that is handled has taken effect and has its answer. -/
structure Accepted (frame : Http2Frame) (state next : Http2 ScriptedTransport) :
    Prop where
  effects : next.effects = state.effects ++ frame.effects
  answers : next.answers = state.answers ++ frame.answered

/-- A frame whose answer the transport refuses has taken effect as well. -/
structure Refused (frame : Http2Frame) (state next : Http2 ScriptedTransport) :
    Prop where
  effects : next.effects = state.effects ++ frame.effects
  answers : next.answers = state.answers
  asked : frame.answered ≠ []
  refused : ∃ e rest, state.transport.writes = some e :: rest

/-- Handling that does nothing to the windows and writes nothing. -/
private theorem triple_still {x : Action Error (Http2 ScriptedTransport) Unit}
    (heffects : frame.effects = []) (hanswered : frame.answered = [])
    (h : Triple (fun other => other = state) x
      (fun _ next => next.trace = state.trace ∧ next.transport = state.transport)
      (fun _ _ => False)) :
    Triple (fun other => other = state) x
      (fun _ => Accepted frame state) (fun _ => Refused frame state) := by
  refine h.imp_post (fun _ next hnext => ⟨?_, ?_⟩) fun _ _ h => h.elim
  · rw [heffects, List.append_nil, effects, hnext.1, effects]
  · rw [hanswered, List.append_nil, answers, hnext.2, answers]

/-- An error that is kept. -/
private theorem triple_failure {error : Result Error}
    (h : ∃ value, error = .ok value) :
    Triple (fun other => other = state) (handleFailure error)
      (fun _ next => next.trace = state.trace ∧ next.transport = state.transport)
      (fun _ _ => False) := by
  obtain ⟨value, rfl⟩ := h
  refine Triple.lift_ok_bind (Triple.modify fun other heq => ?_)
  subst heq
  exact ⟨rfl, rfl⟩

/-- A SETTINGS frame is applied and then answered. -/
private theorem triple_handleSettings_answers (htype : frame.type = kSettings) :
    Triple (fun other => other = state) (handleSettings frame)
      (fun _ => Accepted frame state) (fun _ => Refused frame state) := by
  refine Triple.ite (fun hack => ?_) fun hack => ?_
  · have hanswered : frame.answered = [settingsFrame true] := by
      rw [Http2Frame.answered, if_neg (not_not.mpr hack), if_pos htype]
    have heffects : frame.effects =
        (settingsEntries frame.payload).filterMap settingEvent := by
      rw [Http2Frame.effects, if_pos htype, if_pos hack]
    obtain ⟨htransport, happlied⟩ :=
      applySettings_effects (settingsEntries frame.payload) state
    refine Triple.bind_of_run (run_modify _ state)
      (Triple.bind_of_run (run_modify _ _) ?_)
    refine (triple_answer (by decide)).imp_post
      (fun _ next hnext => ⟨?_, hnext.2.trans ?_⟩)
      fun _ next hnext => ⟨?_, hnext.2.1.trans ?_, ?_, ?_⟩
    · rw [heffects]
      exact hnext.1.trans happlied
    · rw [hanswered, answers, answers, ← htransport]
    · rw [heffects]
      exact hnext.1.trans happlied
    · rw [answers, answers, ← htransport]
    · rw [hanswered]
      exact List.cons_ne_nil _ _
    · rw [← htransport]
      exact hnext.2.2
  · refine triple_still ?_ (Http2Frame.answered_of_ack hack) (Triple.pure ?_)
    · rw [Http2Frame.effects, if_pos htype, if_neg hack]
    · rintro other rfl
      exact ⟨rfl, rfl⟩

/-- What handling a frame leaves: its effects, and its answer when it succeeds;
it fails only where the answer is refused. -/
theorem triple_handleFrame_answers (hframe : frame.WellFormed) :
    Triple (fun other => other = state) (handleFrame frame)
      (fun _ => Accepted frame state) (fun _ => Refused frame state) := by
  refine Triple.ite (fun hdata => ?_) fun _ => Triple.ite (fun hsettings => ?_)
    fun hsettings => Triple.ite (fun hupdate => ?_) fun hupdate =>
      Triple.ite (fun hping => ?_) fun hping => ?_
  · refine triple_still (frame.effects_of_type ?_ ?_)
      (frame.answered_of_type ?_ ?_) ?_
    · rw [hdata]
      decide
    · rw [hdata]
      decide
    · rw [hdata]
      decide
    · rw [hdata]
      decide
    · refine Triple.ite (fun _ => Triple.pure ?_) fun _ => Triple.modify ?_
      · rintro other rfl
        exact ⟨rfl, rfl⟩
      · rintro other rfl
        exact ⟨rfl, rfl⟩
  · exact triple_handleSettings_answers hsettings
  · have hlength := hframe.windowUpdate hupdate
    have hread : (readBe frame.payload 0 4 : Result Nat) =
        .ok (beValue (frame.payload.take 4)) := by
      have hlt := beValue_lt (frame.payload.take 4)
      rw [List.length_take, min_eq_left (by omega)] at hlt
      rw [readBe_eq (by omega), List.drop_zero, Nat.mod_eq_of_lt (by omega)]
    have heffects : frame.effects =
        [.granted frame.stream.toNat (beValue (frame.payload.take 4))] := by
      rw [Http2Frame.effects, if_neg hsettings, if_pos hupdate]
    have hanswered : frame.answered = [] :=
      frame.answered_of_type hsettings (by rw [hupdate]; decide)
    rw [handleWindowUpdate, hread]
    refine Triple.lift_ok_bind (Triple.modify ?_)
    rintro other rfl
    split
    · refine ⟨?_, ?_⟩
      · rw [heffects, effects, List.filter_append]
        rfl
      · rw [hanswered, List.append_nil]
        rfl
    · refine ⟨?_, ?_⟩
      · rw [heffects, effects, List.filter_append]
        rfl
      · rw [hanswered, List.append_nil]
        rfl
  · have heffects : frame.effects = [] :=
      frame.effects_of_type hsettings hupdate
    refine Triple.ite (fun hack => ?_) fun hack => ?_
    · have hanswered : frame.answered = [pingAckFrame] := by
        rw [Http2Frame.answered, if_neg (not_not.mpr hack), if_neg hsettings,
          if_pos hping]
      refine (triple_answer (by decide)).imp_post
        (fun _ next hnext => ⟨?_, ?_⟩) fun _ next hnext => ⟨?_, hnext.2.1, ?_, hnext.2.2⟩
      · rw [heffects, List.append_nil, hnext.1]
      · rw [hanswered, hnext.2]
      · rw [heffects, List.append_nil, hnext.1]
      · rw [hanswered]
        exact List.cons_ne_nil _ _
    · refine triple_still heffects (Http2Frame.answered_of_ack hack) (Triple.pure ?_)
      rintro other rfl
      exact ⟨rfl, rfl⟩
  · refine triple_still (frame.effects_of_type hsettings hupdate)
      (frame.answered_of_type hsettings hping) ?_
    refine Triple.ite (fun _ => triple_failure (exists_goAwayError _)) fun _ =>
      Triple.ite (fun _ => triple_failure (exists_resetError _ _)) fun _ =>
        Triple.pure ?_
    rintro other rfl
    exact ⟨rfl, rfl⟩

end Handle

/-! ## The next frame -/

section Next

variable {frames parsed : List Http2Frame} {sent : Bytes}
  {returned : List Http2Message} {http2 state last : Http2 ScriptedTransport}
  {frame : Http2Frame}

/-- The first frame of the bytes that are left is the peer's next. -/
theorem Parsed.next (h : Parsed frames sent returned http2 parsed)
    (hframes : ∀ frame ∈ frames, frame.WellFormed)
    (hsent : sent <+: frames.flatMap Http2Frame.encode)
    (hfirst : firstFrame http2.pending = some frame) :
    parsed ++ [frame] <+: frames ∧ http2.pending =
      frame.encode ++ http2.pending.drop (9 + frame.payload.length) := by
  obtain ⟨rest, hrest⟩ := h.front
  have hpending := h.pending_parsed hsent hrest.symm
  have hle := length_of_firstFrame hfirst
  cases rest with
  | nil =>
      have hlength := hpending.length_le
      rw [List.flatMap_nil, List.length_nil] at hlength
      omega
  | cons other others =>
      have hother : other.WellFormed := hframes other (by
        rw [← hrest]
        simp)
      rw [List.flatMap_cons] at hpending
      obtain ⟨tail, htail⟩ := hpending
      have hsame := firstFrame_append hfirst tail
      rw [htail, firstFrame_encode hother] at hsame
      obtain rfl := Option.some.inj hsame
      refine ⟨⟨others, by rw [← hrest, List.append_assoc, List.singleton_append]⟩,
        ?_⟩
      obtain ⟨behind, hbehind⟩ : other.encode <+: http2.pending :=
        List.prefix_of_prefix_length_le (List.prefix_append _ _)
          ⟨tail, htail⟩ (by rw [other.length_encode]; exact hle)
      rw [← hbehind, List.drop_left' other.length_encode]

/-- A frame that is read is parsed: it was the next of the peer's frames, and its
message is queued if it is DATA. -/
theorem Parsed.readFrame (h : Parsed frames sent returned http2 parsed)
    (hframes : ∀ frame ∈ frames, frame.WellFormed)
    (hsent : sent <+: frames.flatMap Http2Frame.encode)
    (hreceived : Received frame http2 state)
    (hhandle : (handleFrame frame).run state = (.ok (), last)) :
    Parsed frames sent returned (dropFrame frame last) (parsed ++ [frame]) := by
  obtain ⟨hfront, hpending⟩ := h.next hframes hsent hreceived.firstFrame
  have hhandled := triple_handleFrame.of_ok rfl hhandle
  obtain ⟨bytes, hfilled⟩ := hreceived.filled
  refine h.took hfront ⟨?_, ?_⟩
  · rw [hreceived.pending_ok hhandle]
    exact hpending
  · show last.received = _
    rw [hhandled.received, hfilled.kept.received]

end Next

/-! ## Steps -/

section Steps

variable {http2 : Http2 ScriptedTransport} {step : Step}

theorem not_isAnswer_opening {bytes : Bytes} (h : IsOpening bytes) :
    ¬ IsAnswer bytes := by
  rcases h with rfl | ⟨payload, rfl⟩ | ⟨increment, rfl⟩ | ⟨stream, rfl⟩
  · decide +kernel
  · rintro ⟨-, hflags⟩
    cases hflags
  · rintro ⟨-, hflags⟩
    cases hflags
  · rintro ⟨-, hflags⟩
    cases hflags

theorem not_isAnswer_data (stream : UInt32) (payload : Bytes) :
    ¬ IsAnswer (dataFrame stream payload) := by
  rintro ⟨-, hflags⟩
  cases hflags

/-- A write that is not an answer. -/
theorem triple_write_other {bytes : Bytes} (hbytes : ¬ IsAnswer bytes)
    (http2 : Http2 ScriptedTransport) :
    Triple (fun state => state = http2) (onTransport (Transport.write bytes))
      (fun _ next => next.effects = http2.effects ∧ next.answers = http2.answers)
      (fun _ next => next.effects = http2.effects ∧
        next.answers = http2.answers) := by
  refine (triple_data http2 bytes).imp_post (fun _ next hnext => ?_)
    fun _ next hnext => ?_
  · rw [effects, hnext.1, answers, hnext.2, List.filter_append,
      List.filter_cons_of_neg (by simpa using hbytes), List.filter_nil,
      List.append_nil]
    exact ⟨rfl, rfl⟩
  · rw [effects, hnext.1, answers, hnext.2]
    exact ⟨rfl, rfl⟩

/-- Only reads have effects and answers. -/
theorem Step.answers_take (hstep : step ≠ .readFrame)
    (hallowed : step.Allowed http2) :
    (step.take http2).2.effects = http2.effects ∧
      (step.take http2).2.answers = http2.answers := by
  cases step with
  | opening bytes =>
      have hwrite := triple_write_other (not_isAnswer_opening hallowed) http2
        http2 rfl
      rw [Step.take]
      rcases hrun : (onTransport (Transport.write bytes)).run http2 with
        ⟨_ | _, next⟩ <;> (rw [hrun] at hwrite; exact hwrite)
  | data stream payload =>
      have hwrite := triple_write_other (not_isAnswer_data stream payload) http2
        http2 rfl
      rw [Step.take]
      rcases hrun : (onTransport (Transport.write
        (dataFrame stream payload))).run http2 with ⟨_ | _, next⟩
      · rw [hrun] at hwrite
        exact hwrite
      · rw [hrun] at hwrite
        refine ⟨?_, hwrite.2⟩
        rw [← hwrite.1]
        simp [effects, spend, List.filter_append, Http2Event.isEffect]
  | readFrame => exact absurd rfl hstep
  | handOut =>
      rw [Step.take]
      split
      · exact ⟨rfl, rfl⟩
      · exact ⟨rfl, rfl⟩

/-- Only reads parse frames. -/
theorem Parsed.of_ne_readFrame {frames parsed : List Http2Frame} {sent : Bytes}
    {returned : List Http2Message}
    (h : Parsed frames sent returned http2 parsed) (hstep : step ≠ .readFrame) :
    Parsed frames sent (returned ++ (step.take http2).1) (step.take http2).2
      parsed := by
  cases step with
  | opening bytes =>
      have hsend := triple_send http2 bytes http2 rfl
      rw [Step.take, List.append_nil]
      rcases hrun : (onTransport (Transport.write bytes)).run http2 with
        ⟨_ | _, next⟩ <;> (rw [hrun] at hsend; exact h.kept hsend)
  | data stream payload =>
      have hsend := triple_send http2 (dataFrame stream payload) http2 rfl
      rw [Step.take]
      rcases hrun : (onTransport (Transport.write
        (dataFrame stream payload))).run http2 with ⟨_ | _, next⟩
      · rw [hrun] at hsend
        rw [List.append_nil]
        exact h.kept hsend
      · rw [hrun] at hsend
        rw [List.append_nil]
        exact (h.kept hsend).kept ⟨rfl, rfl⟩
  | readFrame => exact absurd rfl hstep
  | handOut =>
      rw [Step.take]
      split
      · rename_i message rest hreceived
        exact h.handOut hreceived
      · rw [List.append_nil]
        exact h

/-- Filling the buffer has no effect and writes nothing. -/
theorem Filled.answered {next : Http2 ScriptedTransport} {bytes : Bytes}
    (h : Filled http2 next bytes) :
    next.effects = http2.effects ∧ next.answers = http2.answers := by
  constructor
  · rw [h.eq]
    rfl
  · rw [answers, h.delivers.written, answers]

end Steps

/-! ## Runs -/

/-- A read from here receives a frame that moves the windows and asks for an
answer, and the transport refuses the answer. -/
def Unanswered (http2 : Http2 ScriptedTransport) : Prop :=
  ∃ frame state e rest, receiveFrame.run http2 = (.ok frame, state) ∧
    frame.effects ≠ [] ∧ frame.answer ≠ [] ∧
    state.transport.writes = some e :: rest

/-- Nothing is read after a read that left a frame which moves the windows unanswered:
the frame is still at the front of the buffer, and would be handled again. -/
def Once (start : Http2 ScriptedTransport) (steps : List Step) : Prop :=
  ∀ front back returned http2, steps = front ++ .readFrame :: back →
    Run start front returned http2 → Unanswered http2 → .readFrame ∉ back

/-- The last read of a run is such a read. -/
def EndsUnanswered (start : Http2 ScriptedTransport) (steps : List Step) : Prop :=
  ∃ front back returned http2, steps = front ++ .readFrame :: back ∧
    Run start front returned http2 ∧ Unanswered http2

section Runs

variable {start : Http2 ScriptedTransport} {steps : List Step} {step : Step}

theorem Once.front (h : Once start (steps ++ [step])) : Once start steps := by
  intro front back returned http2 hsteps hrun hunanswered hmem
  refine h front (back ++ [step]) returned http2 ?_ hrun hunanswered
    (List.mem_append_left _ hmem)
  rw [hsteps, List.append_assoc, List.cons_append]

theorem Once.not_endsUnanswered (h : Once start (steps ++ [.readFrame])) :
    ¬ EndsUnanswered start steps := by
  rintro ⟨front, back, returned, http2, hsteps, hrun, hunanswered⟩
  refine h front (back ++ [.readFrame]) returned http2 ?_ hrun hunanswered
    (by simp)
  rw [hsteps, List.append_assoc, List.cons_append]

theorem EndsUnanswered.concat (h : EndsUnanswered start steps) :
    EndsUnanswered start (steps ++ [step]) := by
  obtain ⟨front, back, returned, http2, rfl, hrun, hunanswered⟩ := h
  exact ⟨front, back ++ [step], returned, http2, by
    rw [List.append_assoc, List.cons_append], hrun, hunanswered⟩

/-- The frames that are parsed have taken effect, once each, and of the others at
most the next. -/
def TakenOnce (frames parsed : List Http2Frame)
    (http2 : Http2 ScriptedTransport) : Prop :=
  http2.effects = parsed.flatMap Http2Frame.effects ∨
    ∃ frame, parsed ++ [frame] <+: frames ∧
      http2.effects = (parsed ++ [frame]).flatMap Http2Frame.effects

/-- The effects of a run in which nothing is read after an answer is refused. -/
def Taken (start : Http2 ScriptedTransport) (steps : List Step)
    (frames parsed : List Http2Frame) (http2 : Http2 ScriptedTransport) : Prop :=
  http2.effects = parsed.flatMap Http2Frame.effects ∨
    EndsUnanswered start steps ∧ ∃ frame, parsed ++ [frame] <+: frames ∧
      http2.effects = (parsed ++ [frame]).flatMap Http2Frame.effects

/-- What a run has answered and what has taken effect. -/
structure Answered (start : Http2 ScriptedTransport) (steps : List Step)
    (frames : List Http2Frame) (sent : Bytes) (returned : List Http2Message)
    (http2 : Http2 ScriptedTransport) (parsed : List Http2Frame) : Prop where
  parse : Parsed frames sent returned http2 parsed
  answers : http2.answers = parsed.flatMap Http2Frame.answered
  taken : Taken start steps frames parsed http2

variable {frames : List Http2Frame} {sent : Bytes}
  {returned : List Http2Message} {http2 : Http2 ScriptedTransport}
  {parsed : List Http2Frame}

/-- A read that fails before a frame is whole. -/
theorem Answered.noFrame (h : Answered start steps frames sent returned http2 parsed)
    {e : Fault Error} {next : Http2 ScriptedTransport}
    (hnone : NoFrame http2 next e) :
    Answered start (steps ++ [.readFrame]) frames sent returned next parsed := by
  obtain ⟨bytes, hfilled⟩ := hnone.filled
  obtain ⟨heffects, hanswers⟩ := hfilled.answered
  refine ⟨h.parse.kept hfilled.kept, hanswers.trans h.answers, ?_⟩
  rcases h.taken with htaken | ⟨hends, frame, hfront, htaken⟩
  · exact .inl (heffects.trans htaken)
  · exact .inr ⟨hends.concat, frame, hfront, heffects.trans htaken⟩

/-- A step of a run in which nothing is read after an answer is refused. -/
theorem Answered.readFrame (hframes : ∀ frame ∈ frames, frame.WellFormed)
    (hsent : sent <+: frames.flatMap Http2Frame.encode)
    (hrun : Run start steps returned http2)
    (honce : ¬ EndsUnanswered start steps)
    (h : Answered start steps frames sent returned http2 parsed) :
    ∃ parsed, Answered start (steps ++ [.readFrame]) frames sent returned
      (Http2.readFrame.run http2).2 parsed := by
  have htaken := h.taken.resolve_right fun hends => honce hends.1
  rw [run_readFrame]
  have hreceive := triple_receiveFrame http2 http2 rfl
  rcases hreceived : receiveFrame.run http2 with ⟨e | frame, state⟩
  · rw [hreceived] at hreceive
    exact ⟨parsed, h.noFrame hreceive⟩
  rw [hreceived] at hreceive
  dsimp only
  obtain ⟨hfront, -⟩ := h.parse.next hframes hsent hreceive.firstFrame
  have hframe : frame.WellFormed := hframes frame (hfront.subset (by simp))
  obtain ⟨bytes, hfilled⟩ := hreceive.filled
  obtain ⟨heffects, hanswers⟩ := hfilled.answered
  have hpost := triple_handleFrame_answers hframe state rfl
  have hconcat : (parsed ++ [frame]).flatMap Http2Frame.effects =
      parsed.flatMap Http2Frame.effects ++ frame.effects := by
    simp
  rcases hhandle : (handleFrame frame).run state with ⟨e | _, last⟩
  · rw [hhandle] at hpost
    obtain ⟨e', rest, hrefused⟩ := hpost.refused
    refine ⟨parsed, h.parse.kept ⟨hreceive.pending_error hhandle, ?_⟩,
      (hpost.answers.trans hanswers).trans h.answers, ?_⟩
    · have hhandled := (triple_handleFrame.of_error rfl hhandle).1
      rw [hhandled.received, List.append_nil, hfilled.kept.received]
    · by_cases hnone : frame.effects = []
      · left
        rw [hpost.effects, hnone, List.append_nil, heffects, htaken]
      · right
        refine ⟨⟨steps, [], returned, http2, rfl, hrun, frame, state, e', rest,
          hreceived, hnone, ?_, hrefused⟩, frame, hfront, ?_⟩
        · intro hanswer
          have hlength := frame.length_answered
          rw [hanswer] at hlength
          exact hpost.asked (List.length_eq_zero_iff.mp hlength)
        · rw [hpost.effects, heffects, htaken, hconcat]
  · rw [hhandle] at hpost
    refine ⟨parsed ++ [frame],
      h.parse.readFrame hframes hsent hreceive hhandle, ?_, .inl ?_⟩
    · show last.answers = _
      rw [hpost.answers, hanswers, h.answers]
      simp
    · show last.effects = _
      rw [hpost.effects, heffects, htaken, hconcat]

theorem Answered.of_ne_readFrame
    (h : Answered start steps frames sent returned http2 parsed)
    (hstep : step ≠ .readFrame) (hallowed : step.Allowed http2) :
    Answered start (steps ++ [step]) frames sent
      (returned ++ (step.take http2).1) (step.take http2).2 parsed := by
  obtain ⟨heffects, hanswers⟩ := Step.answers_take hstep hallowed
  refine ⟨h.parse.of_ne_readFrame hstep, hanswers.trans h.answers, ?_⟩
  rcases h.taken with htaken | ⟨hends, frame, hfront, htaken⟩
  · exact .inl (heffects.trans htaken)
  · exact .inr ⟨hends.concat, frame, hfront, heffects.trans htaken⟩

theorem Run.answered {transport : ScriptedTransport}
    (hfresh : transport.written = [])
    (hframes : ∀ frame ∈ frames, frame.WellFormed)
    (hsent : transport.remaining <+: frames.flatMap Http2Frame.encode)
    (hrun : Run { transport } steps returned http2)
    (honce : Once { transport } steps) :
    ∃ parsed, Answered { transport } steps frames transport.remaining returned
      http2 parsed := by
  induction hrun with
  | nil =>
      refine ⟨[], ⟨List.nil_prefix, rfl, rfl⟩, ?_, .inl rfl⟩
      rw [answers, hfresh]
      rfl
  | @concat steps returned http2 before step hallowed ih =>
      obtain ⟨parsed, hanswered⟩ := ih honce.front
      by_cases hstep : step = .readFrame
      · subst hstep
        rw [Step.take, List.append_nil]
        exact hanswered.readFrame hframes hsent before honce.not_endsUnanswered
      · exact ⟨parsed, hanswered.of_ne_readFrame hstep hallowed⟩

end Runs

/-- In every run from a fresh connection, over any script of a peer's well-formed
frames and of the transport's failures, in which nothing is read after a frame
that moves the windows is left unanswered: some of the peer's frames, from the
front, are parsed, each has taken effect once, and of the others at most the next
has.  The answers that the transport took are those the parsed frames ask for, in
order, if and only if every PING among them carries eight zeros. -/
theorem answers_exact_iff {frames : List Http2Frame}
    (hframes : ∀ frame ∈ frames, frame.WellFormed)
    {transport : ScriptedTransport} (hfresh : transport.written = [])
    (hsent : transport.remaining <+: frames.flatMap Http2Frame.encode)
    {steps : List Step} {returned : List Http2Message}
    {http2 : Http2 ScriptedTransport}
    (hrun : Run { transport } steps returned http2)
    (honce : Once { transport } steps) :
    ∃ parsed, Parsed frames transport.remaining returned http2 parsed ∧
      TakenOnce frames parsed http2 ∧
      (http2.answers = parsed.flatMap Http2Frame.answer ↔
        ∀ frame ∈ parsed, frame.IsBlankPing) := by
  obtain ⟨parsed, hanswered⟩ := hrun.answered hfresh hframes hsent honce
  refine ⟨parsed, hanswered.parse, ?_, ?_⟩
  · rcases hanswered.taken with htaken | ⟨-, htaken⟩
    · exact .inl htaken
    · exact .inr htaken
  · rw [hanswered.answers, Http2Frame.flatMap_answered_eq_iff]

/-- Two SETTINGS frames, and between them a PING of zeros. -/
private def blankFrames : List Http2Frame :=
  [⟨kSettings, 0, 0, appendSetting [] kSettingsInitialWindowSize 10⟩,
    ⟨kPing, 0, 0, List.replicate 8 0⟩,
    ⟨kSettings, 0, 0, appendSetting [] kSettingsInitialWindowSize 20⟩]

private theorem wellFormed_blankFrames : ∀ frame ∈ blankFrames, frame.WellFormed := by
  simp only [blankFrames, List.forall_mem_cons]
  exact ⟨⟨by decide, by decide, by decide⟩, ⟨by decide, by decide, by decide⟩,
    ⟨by decide, by decide, by decide⟩, by simp⟩

/-- A peer that sends them, cut inside the PING. -/
private def blankPeer : ScriptedTransport where
  reads := [.ok ((blankFrames.flatMap Http2Frame.encode).take 20),
    .ok ((blankFrames.flatMap Http2Frame.encode).drop 20)]

private def blankSteps : List Step := [.readFrame, .readFrame, .readFrame]

/-- The connection after the steps. -/
private def afterBlank (steps : List Step) : Http2 ScriptedTransport :=
  steps.foldl (fun http2 step => (step.take http2).2) { transport := blankPeer }

private theorem Run.eq_afterBlank {steps : List Step} {returned : List Http2Message}
    {http2 : Http2 ScriptedTransport}
    (h : Run { transport := blankPeer } steps returned http2) : http2 = afterBlank steps := by
  induction h with
  | nil => rfl
  | concat before step allowed ih =>
      rw [afterBlank, List.foldl_append, ih]
      rfl

/-- The peer's transport refuses nothing. -/
private theorem once_blankSteps : Once { transport := blankPeer } blankSteps := by
  rintro front back returned http2 hsteps hrun ⟨frame, state, e, rest, hreceive, -, -,
    hwrites⟩ hmem
  have hwhole : ∀ count ≤ 1,
      (receiveFrame.run (afterBlank (blankSteps.take count))).2.transport.writes = [] := by
    decide +kernel
  have hlength := congrArg List.length hsteps
  have hpos := List.length_pos_of_mem hmem
  rw [blankSteps, List.length_append, List.length_cons] at hlength
  have hfront : front = blankSteps.take front.length := by
    rw [hsteps, List.take_left]
  have hnone := hwhole front.length (by simp at hlength; omega)
  rw [← hfront, ← hrun.eq_afterBlank, hreceive, hwrites] at hnone
  cases hnone

theorem answers_exact_iff_blankPing :
    ∃ parsed, Parsed blankFrames blankPeer.remaining [] (afterBlank blankSteps) parsed ∧
      TakenOnce blankFrames parsed (afterBlank blankSteps) ∧
      ((afterBlank blankSteps).answers = parsed.flatMap Http2Frame.answer ↔
        ∀ frame ∈ parsed, frame.IsBlankPing) := by
  have hrun : Run { transport := blankPeer } blankSteps [] (afterBlank blankSteps) :=
    ((Run.nil.concat .readFrame trivial).concat .readFrame trivial).concat .readFrame
      trivial
  exact answers_exact_iff wellFormed_blankFrames rfl ⟨[], by decide +kernel⟩ hrun
    once_blankSteps

/-- A SETTINGS frame that sets the initial window to ten, and a PING. -/
def pingingFrames : List Http2Frame :=
  [⟨kSettings, 0, 0, appendSetting [] kSettingsInitialWindowSize 10⟩,
    ⟨kPing, 0, 0, [1, 2, 3, 4, 5, 6, 7, 8]⟩]

theorem wellFormed_pingingFrames :
    ∀ frame ∈ pingingFrames, frame.WellFormed := by
  intro frame hmem
  rcases List.mem_cons.mp hmem with rfl | hmem
  · exact ⟨by decide, by decide, by decide⟩
  · rw [List.mem_singleton.mp hmem]
    exact ⟨by decide, by decide, by decide⟩

/-- A peer that sends them. -/
def pingingPeer : ScriptedTransport where
  reads := [.ok (pingingFrames.flatMap Http2Frame.encode)]

/-- The connection after one read, and after another. -/
def pinged : Http2 ScriptedTransport :=
  (Step.take { transport := pingingPeer } .readFrame).2

def pingedTwice : Http2 ScriptedTransport := (Step.take pinged .readFrame).2

/-- The PING is answered with zeros. -/
theorem not_answers_exact_pingingPeer :
    ¬ ∀ (frames : List Http2Frame) (transport : ScriptedTransport)
      (steps : List Step) (returned : List Http2Message)
      (http2 : Http2 ScriptedTransport),
      (∀ frame ∈ frames, frame.WellFormed) → transport.written = [] →
        transport.remaining <+: frames.flatMap Http2Frame.encode →
        Run { transport } steps returned http2 →
        ∃ parsed, Parsed frames transport.remaining returned http2 parsed ∧
          http2.answers = parsed.flatMap Http2Frame.answer := by
  intro h
  have hrun : Run { transport := pingingPeer } [.readFrame, .readFrame] []
      pingedTwice :=
    (Run.nil.concat .readFrame trivial).concat .readFrame trivial
  obtain ⟨parsed, hparsed, hanswers⟩ := h pingingFrames pingingPeer _ _ _
    wellFormed_pingingFrames rfl ⟨[], by decide +kernel⟩ hrun
  have hnone : ∀ count ≤ 2, pingedTwice.answers ≠
      (pingingFrames.take count).flatMap Http2Frame.answer := by
    decide +kernel
  refine hnone parsed.length hparsed.front.length_le ?_
  rw [← List.prefix_iff_eq_take.mp hparsed.front]
  exact hanswers

/-- A transport that refuses the first answer. -/
def refusingPeer : ScriptedTransport :=
  { pingingPeer with writes := [some ⟨.transport, ascii "timed out"⟩] }

example : (Step.take (Step.take { transport := refusingPeer } .readFrame).2
    .readFrame).2.effects = [.initialWindow 10, .initialWindow 10] := by
  decide +kernel

end Http2

end Ioscpp.Protocol
