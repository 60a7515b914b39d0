import Ioscpp.Protocol.Http2Bounds

/-!
# What a peer's frame does to an HTTP/2 connection

A frame moves the windows, announces the peer's SETTINGS or fails the connection,
and some frames ask for an answer, which is written before the frame is taken off
the buffer.  So reading a frame ends in one of four ways: there is no whole frame
before a read fails, the frame lacks the increment that is read from it, its
answer is refused, or it is taken.

## Main results

* `handles_handleFrame`: a frame that holds its increment takes effect, and then
  its answer is written if it asks for one.
* `readsFrame`: what a read of a frame leaves, in each of the four ways, said of
  the bytes ahead, the windows and the transport's answers.
-/

namespace Ioscpp.Protocol

open Ioscpp.Support
open Ioscpp.Support.Action

/-! ## Kinds of frames -/

namespace Http2Frame

/-- A SETTINGS frame that is not an acknowledgement. -/
def IsSettings (frame : Http2Frame) : Prop :=
  frame.type = kSettings ∧ frame.flags &&& kAck = 0

/-- A frame that asks for an answer: SETTINGS or a PING, when it is not an
acknowledgement itself. -/
def Asks (frame : Http2Frame) : Prop :=
  (frame.type = kSettings ∨ frame.type = kPing) ∧ frame.flags &&& kAck = 0

/-- A frame that fails the connection: the peer goes away, or resets a stream. -/
def Fails (frame : Http2Frame) : Prop :=
  frame.type = kGoAway ∨ frame.type = kRstStream

instance (frame : Http2Frame) : Decidable frame.HasIncrement :=
  inferInstanceAs (Decidable (_ → _))

instance (frame : Http2Frame) : Decidable frame.IsSettings :=
  inferInstanceAs (Decidable (_ ∧ _))

instance (frame : Http2Frame) : Decidable frame.Asks :=
  inferInstanceAs (Decidable (_ ∧ _))

instance (frame : Http2Frame) : Decidable frame.Fails :=
  inferInstanceAs (Decidable (_ ∨ _))

end Http2Frame

/-! ## The windows -/

/-- The two windows that a write looks at: the connection's, and the one for the
stream that is written. -/
structure Credit where
  connection : Int
  stream : Int
  deriving DecidableEq

namespace Credit

/-- What may be sent in one frame within the windows. -/
def budget (credit : Credit) : Int :=
  min (min credit.connection credit.stream) kMaxFrameSize

/-- A SETTINGS entry for the initial window replaces the stream's window, and any
other leaves the windows alone. -/
def set (credit : Credit) (entry : Nat × Nat) : Credit :=
  if entry.1 = kSettingsInitialWindowSize then
    { credit with stream := toInt32 entry.2 }
  else credit

/-- The windows after a frame of the peer's, in the 32 bits of the counters:
SETTINGS set the stream's window, and a WINDOW_UPDATE adds its increment to the
connection's or to the stream's. -/
def after (credit : Credit) (frame : Http2Frame) : Credit :=
  if frame.IsSettings then
    (Http2.settingsEntries frame.payload).foldl set credit
  else if frame.type = kWindowUpdate then
    if frame.stream = 0 then
      { credit with connection := toInt32 (credit.connection +
          toInt32 (beValue (frame.payload.take 4))) }
    else
      { credit with stream := toInt32 (credit.stream +
          toInt32 (beValue (frame.payload.take 4))) }
  else credit

end Credit

/-- The next write is refused. -/
def Refuses (answers : List (Option Error)) : Prop :=
  ∃ e, answers.head? = some (some e)

namespace Http2

/-! ## What a frame does -/

section Effects

variable {τ : Type} {frame : Http2Frame}

/-- The windows of a connection. -/
def credit (http2 : Http2 τ) : Credit :=
  ⟨http2.connectionWindow, http2.streamWindow⟩

theorem budget_credit (http2 : Http2 τ) : http2.credit.budget = http2.budget :=
  rfl

/-- What a frame does to a connection before it is answered.  It moves the
windows; SETTINGS are seen, and a GOAWAY or a RST_STREAM fails the connection,
for good. -/
structure TakesEffect (frame : Http2Frame) (before after : Http2 τ) : Prop where
  transport : after.transport = before.transport
  buffer : after.buffer = before.buffer
  settingsSeen : after.settingsSeen = true ↔
    before.settingsSeen = true ∨ frame.IsSettings
  failed : after.failed = none ↔ before.failed = none ∧ ¬ frame.Fails
  credit : after.credit = before.credit.after frame

/-- The entries of a SETTINGS frame set the stream's window and nothing else. -/
private theorem applySettings_credit (entries : List (Nat × Nat))
    (http2 : Http2 τ) :
    (entries.foldl applySetting http2).transport = http2.transport ∧
      (entries.foldl applySetting http2).buffer = http2.buffer ∧
      (entries.foldl applySetting http2).failed = http2.failed ∧
      (entries.foldl applySetting http2).credit =
        entries.foldl Credit.set http2.credit := by
  induction entries generalizing http2 with
  | nil => exact ⟨rfl, rfl, rfl, rfl⟩
  | cons entry rest ih =>
      obtain ⟨htransport, hbuffer, hfailed, hcredit⟩ := ih (applySetting http2 entry)
      rw [List.foldl_cons, List.foldl_cons, htransport, hbuffer, hfailed, hcredit,
        applySetting, Credit.set]
      split
      · exact ⟨rfl, rfl, rfl, rfl⟩
      · exact ⟨rfl, rfl, rfl, rfl⟩

/-- A frame of another type than those below leaves the windows alone. -/
private theorem credit_after_other (credit : Credit)
    (hsettings : frame.type ≠ kSettings) (hupdate : frame.type ≠ kWindowUpdate) :
    credit.after frame = credit := by
  rw [Credit.after, if_neg fun h => hsettings h.1, if_neg hupdate]

/-- What a frame does that does nothing to the windows and does not fail. -/
private theorem TakesEffect.still {http2 next : Http2 τ}
    (htransport : next.transport = http2.transport)
    (hbuffer : next.buffer = http2.buffer)
    (hseen : next.settingsSeen = http2.settingsSeen)
    (hfailed : next.failed = http2.failed) (hcredit : next.credit = http2.credit)
    (hsettings : ¬ frame.IsSettings) (hnot : ¬ frame.Fails)
    (hafter : http2.credit.after frame = http2.credit) :
    TakesEffect frame http2 next where
  transport := htransport
  buffer := hbuffer
  settingsSeen := by simp [hseen, hsettings]
  failed := by simp [hfailed, hnot]
  credit := hcredit.trans hafter.symm

/-- A frame of another type is no SETTINGS frame, does not fail the connection and
asks for nothing. -/
private theorem not_of_type {type : UInt8} (h : frame.type = type) :
    (type ≠ kSettings → ¬ frame.IsSettings) ∧
      (type ≠ kGoAway → type ≠ kRstStream → ¬ frame.Fails) ∧
      (type ≠ kSettings → type ≠ kPing → ¬ frame.Asks) := by
  subst h
  exact ⟨fun hne hsettings => hne hsettings.1,
    fun haway hreset hfails => hfails.elim haway hreset,
    fun hsettings hping hasks => hasks.1.elim hsettings hping⟩

variable [Transport τ]

/-- A frame takes effect; then, if it asks for an answer, the answer is
written. -/
def Handles (frame : Http2Frame) (x : Action Error (Http2 τ) Unit)
    (http2 : Http2 τ) : Prop :=
  ∃ next, TakesEffect frame http2 next ∧
    (¬ frame.Asks ∧ x.run http2 = (.ok (), next) ∨
      frame.Asks ∧ ∃ answer,
        x.run http2 = (onTransport (Transport.write answer)).run next)

private theorem handles_data (hdata : frame.type = kData) (http2 : Http2 τ) :
    Handles frame (handleFrame frame) http2 := by
  obtain ⟨hsettings, hfails, hasks⟩ := not_of_type hdata
  have hafter : http2.credit.after frame = http2.credit :=
    credit_after_other http2.credit (by rw [hdata]; decide) (by rw [hdata]; decide)
  rw [handleFrame, if_pos hdata]
  split
  · exact ⟨http2, .still rfl rfl rfl rfl rfl (hsettings (by decide))
      (hfails (by decide) (by decide)) hafter,
      .inl ⟨hasks (by decide) (by decide), rfl⟩⟩
  · exact ⟨{ http2 with received := http2.received ++ [⟨frame.stream, frame.payload⟩] },
      .still rfl rfl rfl rfl rfl (hsettings (by decide))
        (hfails (by decide) (by decide)) hafter,
      .inl ⟨hasks (by decide) (by decide), rfl⟩⟩

private theorem handles_settings (hsettings : frame.type = kSettings)
    (http2 : Http2 τ) : Handles frame (handleSettings frame) http2 := by
  have hfails := (not_of_type hsettings).2.1 (by decide) (by decide)
  rw [handleSettings]
  by_cases hack : frame.flags &&& kAck = 0
  · obtain ⟨htransport, hbuffer, hfailed, hcredit⟩ :=
      applySettings_credit (settingsEntries frame.payload) http2
    rw [if_pos hack]
    refine ⟨{ (settingsEntries frame.payload).foldl applySetting http2 with
      settingsSeen := true }, ⟨htransport, hbuffer, ?_, ?_, ?_⟩,
      .inr ⟨⟨.inl hsettings, hack⟩, settingsFrame true, ?_⟩⟩
    · exact ⟨fun _ => .inr ⟨hsettings, hack⟩, fun _ => rfl⟩
    · show ((settingsEntries frame.payload).foldl applySetting http2).failed =
        none ↔ _
      rw [hfailed]
      simp [hfails]
    · rw [Credit.after, if_pos ⟨hsettings, hack⟩]
      exact hcredit
    · rw [run_bind_ok (run_modify _ http2), run_bind_ok (run_modify _ _)]
  · rw [if_neg hack]
    refine ⟨http2, .still rfl rfl rfl rfl rfl (fun hs => hack hs.2) hfails ?_,
      .inl ⟨fun hasks => hack hasks.2, rfl⟩⟩
    rw [Credit.after, if_neg fun hs => hack hs.2,
      if_neg (by rw [hsettings]; decide)]

private theorem handles_windowUpdate (hupdate : frame.type = kWindowUpdate)
    (h : frame.HasIncrement) (http2 : Http2 τ) :
    Handles frame (handleWindowUpdate frame) http2 := by
  obtain ⟨hsettings, hfails, hasks⟩ := not_of_type hupdate
  replace hsettings := hsettings (by decide)
  replace hfails := hfails (by decide) (by decide)
  have hlength := h hupdate
  have hread : (readBe frame.payload 0 4 : Result Nat) =
      .ok (beValue (frame.payload.take 4)) := by
    have hlt := beValue_lt (frame.payload.take 4)
    rw [List.length_take, min_eq_left (by omega)] at hlt
    rw [readBe_eq (by omega), List.drop_zero, Nat.mod_eq_of_lt (by omega)]
  rw [handleWindowUpdate, hread]
  refine ⟨_, ?_, .inl ⟨hasks (by decide) (by decide), by
    rw [run_bind_ok (run_lift _ _), run_modify]⟩⟩
  split
  · rename_i hstream
    refine ⟨rfl, rfl, by simp [hsettings], by simp [hfails], ?_⟩
    rw [Credit.after, if_neg hsettings, if_pos hupdate, if_pos hstream]
    rfl
  · rename_i hstream
    refine ⟨rfl, rfl, by simp [hsettings], by simp [hfails], ?_⟩
    rw [Credit.after, if_neg hsettings, if_pos hupdate, if_neg hstream]
    rfl

private theorem handles_ping (hping : frame.type = kPing) (http2 : Http2 τ) :
    Handles frame (handlePing frame) http2 := by
  obtain ⟨hsettings, hfails, -⟩ := not_of_type hping
  have hstill : TakesEffect frame http2 http2 :=
    .still rfl rfl rfl rfl rfl (hsettings (by decide))
      (hfails (by decide) (by decide))
      (credit_after_other _ (by rw [hping]; decide) (by rw [hping]; decide))
  rw [handlePing]
  by_cases hack : frame.flags &&& kAck = 0
  · rw [if_pos hack]
    exact ⟨http2, hstill, .inr ⟨⟨.inr hping, hack⟩, pingAckFrame, rfl⟩⟩
  · rw [if_neg hack]
    exact ⟨http2, hstill, .inl ⟨fun hasks => hack hasks.2, rfl⟩⟩

/-- A failure is kept. -/
private theorem handles_failure {error : Result Error}
    (h : ∃ value, error = .ok value) (hfails : frame.Fails) (http2 : Http2 τ) :
    Handles frame (handleFailure error) http2 := by
  obtain ⟨value, rfl⟩ := h
  have hne : frame.type ≠ kSettings ∧ frame.type ≠ kWindowUpdate ∧
      frame.type ≠ kPing := by
    rcases hfails with h | h <;> (rw [h]; decide)
  refine ⟨{ http2 with failed := some value }, ⟨rfl, rfl, ?_, ?_, ?_⟩,
    .inl ⟨fun hasks => hasks.1.elim hne.1 hne.2.2, rfl⟩⟩
  · simp [(not_of_type (rfl : frame.type = frame.type)).1 hne.1]
  · simp [hfails]
  · exact (credit_after_other _ hne.1 hne.2.1).symm

/-- Every frame that holds its increment is handled: it takes effect, and is
answered if it asks for an answer. -/
theorem handles_handleFrame (h : frame.HasIncrement) (http2 : Http2 τ) :
    Handles frame (handleFrame frame) http2 := by
  by_cases hdata : frame.type = kData
  · exact handles_data hdata http2
  rw [handleFrame, if_neg hdata]
  by_cases hsettings : frame.type = kSettings
  · rw [if_pos hsettings]
    exact handles_settings hsettings http2
  rw [if_neg hsettings]
  by_cases hupdate : frame.type = kWindowUpdate
  · rw [if_pos hupdate]
    exact handles_windowUpdate hupdate h http2
  rw [if_neg hupdate]
  by_cases hping : frame.type = kPing
  · rw [if_pos hping]
    exact handles_ping hping http2
  rw [if_neg hping]
  by_cases haway : frame.type = kGoAway
  · rw [if_pos haway]
    exact handles_failure (exists_goAwayError _) (.inl haway) http2
  rw [if_neg haway]
  by_cases hreset : frame.type = kRstStream
  · rw [if_pos hreset]
    exact handles_failure (exists_resetError _ _) (.inr hreset) http2
  · rw [if_neg hreset]
    obtain ⟨hset, hfail, hask⟩ := not_of_type (rfl : frame.type = frame.type)
    exact ⟨http2, .still rfl rfl rfl rfl rfl (hset hsettings)
      (hfail haway hreset) (credit_after_other _ hsettings hupdate),
      .inl ⟨hask hsettings hping, rfl⟩⟩

end Effects

/-! ## Reading a frame -/

/-- A frame is taken off the connection: it takes effect, and an answer that it
asks for is accepted. -/
structure Takes (frame : Http2Frame) (before after : Http2 ScriptedTransport) :
    Prop where
  pending : after.pending = before.pending.drop (9 + frame.payload.length)
  ahead : after.ahead = before.ahead.drop (9 + frame.payload.length)
  clean : before.transport.Clean → after.transport.Clean
  answer : frame.Asks → ¬ Refuses before.transport.writes
  writes : after.transport.writes =
    if frame.Asks then before.transport.writes.tail else before.transport.writes
  settingsSeen : after.settingsSeen = true ↔
    before.settingsSeen = true ∨ frame.IsSettings
  failed : after.failed = none ↔ before.failed = none ∧ ¬ frame.Fails
  credit : after.credit = before.credit.after frame

/-- What reading a frame does to a connection. -/
inductive ReadsFrame (http2 : Http2 ScriptedTransport) :
    Checked Error Unit → Http2 ScriptedTransport → Prop
  /-- A read of the transport fails, or the stream ends, before there is a frame. -/
  | nothing {e : Error} {next : Http2 ScriptedTransport}
      (first : firstFrame http2.ahead = none)
      (pending : next.pending = http2.pending) :
      ReadsFrame http2 (.error (.error e)) next
  /-- The frame lacks its increment, and bytes behind it are read. -/
  | outside {frame : Http2Frame} {next : Http2 ScriptedTransport}
      (first : firstFrame http2.ahead = some frame)
      (short : ¬ frame.HasIncrement) :
      ReadsFrame http2 (.error .outOfBounds) next
  /-- The answer to the frame is refused, and the frame stays in the buffer. -/
  | refused {frame : Http2Frame} {e : Error} {next : Http2 ScriptedTransport}
      (first : firstFrame http2.ahead = some frame)
      (increment : frame.HasIncrement) (asks : frame.Asks)
      (refused : Refuses http2.transport.writes)
      (pending : next.pending = http2.pending) :
      ReadsFrame http2 (.error (.error e)) next
  | taken {frame : Http2Frame} {next : Http2 ScriptedTransport}
      (first : firstFrame http2.ahead = some frame)
      (increment : frame.HasIncrement) (takes : Takes frame http2 next) :
      ReadsFrame http2 (.ok ()) next

/-- A write of the transport is refused, or it takes the bytes. -/
theorem run_write_cases (bytes : Bytes) (http2 : Http2 ScriptedTransport) :
    (Refuses http2.transport.writes ∧ ∃ e,
      (onTransport (Transport.write bytes)).run http2 = (.error (.error e),
        { http2 with transport :=
          { http2.transport with writes := http2.transport.writes.tail } })) ∨
    (¬ Refuses http2.transport.writes ∧
      (onTransport (Transport.write bytes)).run http2 = (.ok (),
        { http2 with transport := { http2.transport with
          writes := http2.transport.writes.tail
          written := http2.transport.written ++ [bytes] } })) := by
  obtain ⟨⟨reads, writes, written⟩, buffer, received, connectionWindow,
    streamWindow, settingsSeen, failed, trace⟩ := http2
  rcases writes with _ | ⟨_ | e, rest⟩
  · exact .inr ⟨nofun, rfl⟩
  · exact .inr ⟨nofun, rfl⟩
  · exact .inl ⟨⟨e, rfl⟩, e, rfl⟩

section Take

variable {http2 state next : Http2 ScriptedTransport} {frame : Http2Frame}
  {bytes : Bytes}

/-- A frame that has come whole and takes effect is taken off. -/
theorem TakesEffect.takes (h : TakesEffect frame state next)
    (hfilled : Filled http2 state bytes) (hahead : state.ahead = http2.ahead)
    (hframe : firstFrame state.buffer = some frame)
    {last : Http2 ScriptedTransport}
    (hlast : last = { next with transport := { next.transport with
      writes := last.transport.writes, written := last.transport.written } })
    (hanswer : frame.Asks → ¬ Refuses http2.transport.writes)
    (hwrites : last.transport.writes = if frame.Asks then
      http2.transport.writes.tail else http2.transport.writes) :
    Takes frame http2 (dropFrame frame last) := by
  have hle := length_of_firstFrame hframe
  have hbuffer : last.buffer = state.buffer := by rw [hlast, h.buffer]
  have hreads : last.transport.reads = state.transport.reads := by
    rw [hlast, h.transport]
  have hstate := hfilled.eq
  refine ⟨?_, ?_, ?_, hanswer, hwrites, ?_, ?_, ?_⟩
  · rw [← hfilled.pending_eq, pending, pending, ScriptedTransport.remaining,
      ScriptedTransport.remaining, dropFrame, hbuffer, hreads,
      List.drop_append_of_le_length hle]
  · rw [← hahead, ahead, ahead, ScriptedTransport.ahead, ScriptedTransport.ahead,
      dropFrame, hbuffer, hreads, List.drop_append_of_le_length hle]
  · intro hclean
    have hstate := hfilled.delivers.clean hclean
    intro answer hmem
    exact hstate answer (hreads ▸ hmem)
  · have hseen : (dropFrame frame last).settingsSeen = next.settingsSeen := by
      rw [dropFrame, hlast]
    rw [hseen, h.settingsSeen, hstate]
  · have hfailed : (dropFrame frame last).failed = next.failed := by
      rw [dropFrame, hlast]
    rw [hfailed, h.failed, hstate]
  · have hcredit : (dropFrame frame last).credit = next.credit := by
      rw [Http2.credit, dropFrame, hlast, Http2.credit]
    have hbefore : state.credit = http2.credit := by
      rw [Http2.credit, hstate, Http2.credit]
    rw [hcredit, h.credit, hbefore]

end Take

/-- The first frame before a read fails is the first that is left. -/
theorem firstFrame_pending {http2 : Http2 ScriptedTransport}
    {frame : Http2Frame} (h : firstFrame http2.ahead = some frame) :
    firstFrame http2.pending = some frame := by
  obtain ⟨rest, hrest⟩ := ahead_prefix http2
  rw [← hrest]
  exact firstFrame_append h rest

/-- Every read of a frame is one of the four: it takes the frame, or there is none, or
bytes behind its payload are read, or its answer is refused. -/
theorem readsFrame (http2 : Http2 ScriptedTransport) :
    ReadsFrame http2 (readFrame.run http2).1 (readFrame.run http2).2 := by
  have hreceive := triple_receiveFrame http2 http2 rfl
  have hahead := triple_receiveFrame_ahead http2.ahead http2 rfl
  rw [run_readFrame]
  rcases hrun : receiveFrame.run http2 with ⟨e | frame, state⟩
  · rw [hrun] at hreceive hahead
    obtain ⟨bytes, hfilled⟩ := hreceive.filled
    obtain ⟨error, rfl⟩ := hreceive.error
    exact .nothing hahead hfilled.pending_eq
  rw [hrun] at hreceive hahead
  obtain ⟨hsame, hfirst⟩ := hahead
  obtain ⟨bytes, hfilled⟩ := hreceive.filled
  have hwrites : state.transport.writes = http2.transport.writes :=
    hfilled.delivers.writes
  dsimp only
  by_cases hincrement : frame.HasIncrement
  swap
  · have htype : frame.type = kWindowUpdate := by
      by_contra hne
      exact hincrement fun h => absurd h hne
    have hshort : frame.payload.length < 4 := by
      by_contra hge
      exact hincrement fun _ => by omega
    have hfault := run_handleFrame_short htype hshort state
    rcases hhandle : (handleFrame frame).run state with ⟨e | _, last⟩
    · rw [hhandle] at hfault
      obtain rfl := Except.error.inj hfault
      exact .outside hfirst hincrement
    · rw [hhandle] at hfault
      cases hfault
  obtain ⟨next, heffect, ⟨hasks, hhandle⟩ | ⟨hasks, answer, hhandle⟩⟩ :=
    handles_handleFrame hincrement state
  · rw [hhandle]
    refine .taken hfirst hincrement (heffect.takes hfilled hsame hreceive.frame rfl
      (fun h => absurd h hasks) ?_)
    rw [if_neg hasks, heffect.transport, hwrites]
  · rw [hhandle]
    have hnext : next.transport.writes = http2.transport.writes := by
      rw [heffect.transport, hwrites]
    rcases run_write_cases answer next with ⟨hrefused, e, hwrite⟩ | ⟨haccepted, hwrite⟩
    · rw [hwrite]
      refine .refused hfirst hincrement hasks (hnext ▸ hrefused) ?_
      have hpending : state.pending = http2.pending := hfilled.pending_eq
      rw [← hpending, pending, pending, ScriptedTransport.remaining,
        ScriptedTransport.remaining]
      dsimp only
      rw [heffect.buffer, heffect.transport]
    · rw [hwrite]
      refine .taken hfirst hincrement (heffect.takes hfilled hsame hreceive.frame rfl
        (fun _ => hnext ▸ haccepted) ?_)
      rw [if_pos hasks]
      exact congrArg List.tail hnext

end Http2

end Ioscpp.Protocol
