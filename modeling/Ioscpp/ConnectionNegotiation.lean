import Ioscpp.Connection

/-!
# Stale frames before the version

A device can still send frames of the run before when a link is opened.  The
session does not know their version yet, but the length of a frame counts its
header in both forms, so a frame of version 2 is read as one of version 1 whose
payload starts with the rest of its header.

## Main results

- `WholeFrame.isFrame`: a session without a version takes a frame of either version
  whole.
- `run_awaitVersion`: the loop skips the stale frames in front of the answer.
- `openDirect_after_stale`: a link is opened behind at most nine stale frames.
-/

namespace Ioscpp

open Ioscpp.Support
open Ioscpp.Protocol

/-- A whole frame with a header of a version, at most as long as a frame may
be. -/
def WholeFrame (version : UInt32) (header : MuxHeader) (payload bytes : Bytes) :
    Prop :=
  bytes = (header.encode version).take (MuxHeader.wireSize version) ++ payload ∧
    header.length.toNat = bytes.length ∧ bytes.length ≤ kMaxFrameSize

/-- A frame that an earlier run left: a header of either size, whose length counts the
whole frame, and any protocol but that of the version handshake. -/
def StaleFrame (bytes : Bytes) : Prop :=
  ∃ version header payload, (version = 1 ∨ version = 2) ∧
    WholeFrame version header payload bytes ∧
    header.protocol ≠ MuxProtocol.version.id

/-- The answer to the version request: a frame of version 1 whose payload begins with a
version, and whatever follows it there. -/
def VersionAnswer (version : VersionHeader) (bytes : Bytes) : Prop :=
  ∃ header extra, WholeFrame 1 header (version.encode ++ extra) bytes ∧
    header.protocol = MuxProtocol.version.id

/-! ## Reading without a version -/

/-- Every version has the same two words in front. -/
theorem take_encode (header : MuxHeader) (version : UInt32) :
    (header.encode version).take 8 =
      beBytes 4 header.protocol.toNat ++ beBytes 4 header.length.toNat := by
  rw [MuxHeader.encode, ← List.append_assoc]
  exact List.take_left' (by simp)

/-- A session without a version takes a frame of either version whole. It looks at the
header of version 1, so what is left of a longer header is in front of the payload. -/
theorem WholeFrame.isFrame {version : UInt32} {header : MuxHeader}
    {payload bytes : Bytes} (h : WholeFrame version header payload bytes) :
    ∃ frame, Session.IsFrame 0 frame bytes ∧
      frame.header.protocol = header.protocol ∧ frame.payload = bytes.drop 8 := by
  obtain ⟨hbytes, hlength, hmax⟩ := h
  have hsize := MuxHeader.le_wireSize version
  have hwire := header.length_wire version
  have hfront : bytes.take 8 =
      (header.encode 0).take (MuxHeader.wireSize 0) := by
    have hzero : MuxHeader.wireSize 0 = 8 := rfl
    rw [hbytes, List.take_append_of_le_length (by omega), List.take_take, hzero,
      Nat.min_eq_left hsize, take_encode, take_encode]
  have hlong : 8 ≤ bytes.length := by
    rw [hbytes, List.length_append, hwire]
    omega
  refine ⟨⟨header.visible 0, bytes.drop 8⟩, ?_, rfl, rfl⟩
  constructor
  · show MuxHeader.decode (bytes.take 8) 0 = _
    rw [hfront]
    exact header.decode_wire 0
  · rfl
  · exact hlength
  · exact hlong
  · exact hmax

namespace Connection

/-- A frame at the front of what the device sends is read. -/
theorem run_receive_whole {transport : ScriptedTransport} {connection : Connection}
    {version : UInt32} {header : MuxHeader} {payload bytes rest : Bytes}
    (hclean : transport.Clean) (hversion : connection.session.version = 0)
    (hwhole : WholeFrame version header payload bytes)
    (hremaining : transport.remaining = bytes ++ rest) :
    ∃ frame next session, (onSession Session.receive).run (transport, connection) =
        (.ok frame, next, { connection with session }) ∧
      session.version = 0 ∧ frame.header.protocol = header.protocol ∧
      frame.payload = bytes.drop 8 ∧
      ScriptedTransport.Delivers transport next bytes := by
  obtain ⟨frame, hframe, hprotocol, hpayload⟩ := hwhole.isFrame
  rw [← hversion] at hframe
  obtain ⟨next, hrun, hdelivers⟩ := Session.run_receive hclean hframe hremaining
  refine ⟨frame, next, { connection.session with rxSeq := frame.header.rxSeq },
    ?_, hversion, hprotocol, hpayload, hdelivers⟩
  rw [onSession, Action.run_zoom, hrun]

/-- The loop skips stale frames, up to the answer: the frame it returns has the answer's
payload, and the bytes it has read are those of the stale frames and of the answer. -/
theorem run_awaitVersion {answer rest : Bytes} {version : VersionHeader}
    (hanswer : VersionAnswer version answer) (stale : List Bytes) :
    ∀ (attempts : Nat) (transport : ScriptedTransport) (connection : Connection),
      stale.length < attempts → (∀ bytes ∈ stale, StaleFrame bytes) →
      transport.Clean → connection.session.version = 0 →
      transport.remaining = stale.flatten ++ (answer ++ rest) →
      ∃ frame next session, (awaitVersion attempts).run (transport, connection) =
          (.ok frame, next, { connection with session }) ∧
        session.version = 0 ∧ frame.payload = answer.drop 8 ∧
        ScriptedTransport.Delivers transport next (stale.flatten ++ answer) := by
  induction stale with
  | nil =>
      intro attempts transport connection hattempts _ hclean hversion hremaining
      cases attempts with
      | zero => cases hattempts
      | succ attempts =>
          obtain ⟨header, extra, hwhole, hprotocol⟩ := hanswer
          obtain ⟨frame, next, session, hrun, hsession, hframe, hpayload, hdelivers⟩ :=
            run_receive_whole hclean hversion hwhole hremaining
          refine ⟨frame, next, session, ?_, hsession, hpayload, hdelivers⟩
          rw [awaitVersion, Action.run_bind_ok hrun, if_pos (hframe.trans hprotocol),
            Action.run_pure]
  | cons bytes stale ih =>
      intro attempts transport connection hattempts hstale hclean hversion hremaining
      cases attempts with
      | zero => cases hattempts
      | succ attempts =>
          obtain ⟨size, header, payload, -, hwhole, hprotocol⟩ :=
            hstale bytes (by simp)
          rw [List.flatten_cons, List.append_assoc] at hremaining
          obtain ⟨frame, next, session, hrun, hsession, hframe, -, hdelivers⟩ :=
            run_receive_whole hclean hversion hwhole hremaining
          have hrest : next.remaining = stale.flatten ++ (answer ++ rest) := by
            have hafter := hdelivers.remaining
            rw [hremaining] at hafter
            exact (List.append_cancel_left hafter).symm
          obtain ⟨answered, last, session', hrun', hsession', hpayload,
            hdelivers'⟩ := ih attempts next { connection with session }
              (Nat.lt_of_succ_lt_succ hattempts)
              (fun other hmem => hstale other (List.mem_cons_of_mem _ hmem))
              (hdelivers.clean hclean) hsession hrest
          refine ⟨answered, last, session', ?_, hsession', hpayload, ?_⟩
          · have hskip : frame.header.protocol ≠ MuxProtocol.version.id := by
              rw [hframe]
              exact hprotocol
            rw [awaitVersion, Action.run_bind_ok hrun, if_neg hskip]
            exact hrun'
          · rw [List.flatten_cons, List.append_assoc]
            exact hdelivers.trans hdelivers'

/-! ## The handshake -/

theorem decode_versionHeader (version : VersionHeader) :
    VersionHeader.decode version.encode = .ok version := by
  have hmajor := version.major.toNat_lt
  have hminor := version.minor.toNat_lt
  have hpadding := version.padding.toNat_lt
  have hfirst : (readBe version.encode 0 4 : Result Nat) =
      .ok version.major.toNat :=
    readBe_word [] _ rfl rfl (by omega) (by omega)
  have hsecond : (readBe version.encode 4 4 : Result Nat) =
      .ok version.minor.toNat :=
    readBe_word (beBytes 4 version.major.toNat) _ rfl (by simp) (by omega) (by omega)
  have hthird : (readBe version.encode 8 4 : Result Nat) =
      .ok version.padding.toNat :=
    readBe_word (beBytes 4 version.major.toNat ++ beBytes 4 version.minor.toNat) []
      (by simp [VersionHeader.encode]) (by simp) (by omega) (by omega)
  rw [VersionHeader.decode, hfirst, ok_bind, hsecond, ok_bind, hthird, ok_bind]
  simp

/-- What the payload of the answer says. -/
theorem slice_answer {version : VersionHeader} {answer : Bytes}
    (h : VersionAnswer version answer) :
    VersionHeader.kSize ≤ (answer.drop 8).length ∧
      (slice (answer.drop 8) 0 VersionHeader.kSize : Result Bytes) =
        .ok version.encode := by
  obtain ⟨header, extra, ⟨hbytes, -, -⟩, -⟩ := h
  have hwire := header.length_wire 1
  have hone : MuxHeader.wireSize 1 = 8 := rfl
  have hsize : version.encode.length = 12 := by simp [VersionHeader.encode]
  have hdrop : answer.drop 8 = version.encode ++ extra := by
    rw [hbytes]
    exact List.drop_left' hwire
  have hlong : VersionHeader.kSize ≤ (answer.drop 8).length := by
    rw [hdrop, List.length_append, hsize, VersionHeader.kSize]
    omega
  constructor
  · exact hlong
  · rw [slice_of_le (by omega), hdrop]
    exact congrArg Except.ok (List.take_left' hsize)

/-- A short payload is sent over a link whose writes succeed, and nothing is
read. -/
theorem run_send_short {protocol : MuxProtocol} {payload : Bytes}
    {transport : ScriptedTransport} (connection : Connection)
    (hwrites : transport.writes = []) (hshort : payload.length ≤ 1024) :
    ∃ next session,
      (onSession (Session.send protocol payload)).run (transport, connection) =
        (.ok (), next, { connection with session }) ∧
      session.version = connection.session.version ∧ next.writes = [] ∧
      next.reads = transport.reads := by
  have hfits : Session.Fits connection.session.version payload := by
    have hle := MuxHeader.wireSize_le connection.session.version
    rw [Session.Fits, kMaxFrameSize]
    omega
  have hwrite := ScriptedTransport.run_write_ok
    (connection.session.frameBytes protocol payload) hwrites
  refine ⟨{ transport with written := transport.written ++
      [connection.session.frameBytes protocol payload] },
    { connection.session with txSeq := connection.session.txSeq + 1 },
    ?_, rfl, hwrites, rfl⟩
  rw [onSession, Action.run_zoom, Session.run_send hfits, hwrite]

/-- However the bytes are cut: at most nine stale frames of either version in
front of the answer do not keep a link from being opened at the version that the
device answers, and what follows the answer is left to be read. -/
theorem openDirect_after_stale {transport : ScriptedTransport}
    {stale : List Bytes} {version : VersionHeader} {answer rest : Bytes}
    (hclean : transport.Clean) (hwrites : transport.writes = [])
    (hcount : stale.length ≤ 9) (hstale : ∀ bytes ∈ stale, StaleFrame bytes)
    (hanswer : VersionAnswer version answer)
    (hmajor : version.major = 1 ∨ version.major = 2)
    (hremaining : transport.remaining = stale.flatten ++ (answer ++ rest)) :
    ∃ next connection, openDirect.run (transport, {}) = (.ok (), next, connection) ∧
      connection.session.version = version.major ∧ next.remaining = rest := by
  obtain ⟨asked, session, hask, hversion, haskedWrites, haskedReads⟩ :=
    @run_send_short .version ({} : VersionHeader).encode transport {} hwrites
      (by decide)
  have hasked : asked.remaining = stale.flatten ++ (answer ++ rest) := by
    rw [← hremaining, ScriptedTransport.remaining, haskedReads]
    rfl
  have haskedClean : asked.Clean := by
    rw [ScriptedTransport.Clean, haskedReads]
    exact hclean
  obtain ⟨frame, answered, session', hawait, hversion', hpayload, hdelivers⟩ :=
    run_awaitVersion hanswer stale kVersionRetryAttempts asked { session }
      (Nat.lt_succ_of_le hcount) hstale haskedClean hversion hasked
  have hanswered : answered.remaining = rest := by
    have hafter := hdelivers.remaining
    rw [hasked, ← List.append_assoc] at hafter
    exact (List.append_cancel_left hafter).symm
  obtain ⟨hlong, hslice⟩ := slice_answer hanswer
  have hknown : ¬ (version.major ≠ 1 ∧ version.major ≠ 2) := by
    intro hother
    exact hmajor.elim hother.1 hother.2
  rw [openDirect]
  dsimp only
  rw [Action.run_bind_ok hask, Action.run_bind_ok hawait, hpayload,
    if_neg (Nat.not_lt.mpr hlong), hslice, Action.run_bind_ok (Action.run_lift _ _),
    decode_versionHeader, Action.run_bind_ok (Action.run_lift _ _), if_neg hknown,
    Action.run_bind_ok (Action.run_modify _ _)]
  cases hmajor with
  | inl hone =>
      rw [if_neg (by rw [hone]; decide), Action.run_pure]
      exact ⟨_, _, rfl, rfl, hanswered⟩
  | inr htwo =>
      rw [if_pos (by rw [htwo]; decide), Action.run_bind_ok (Action.run_modify _ _)]
      have hansweredWrites : answered.writes = [] :=
        hdelivers.writes.trans haskedWrites
      obtain ⟨next, session'', hsetup, hversion'', -, hreads⟩ :=
        @run_send_short .setup [0x07] answered
          { session := { session' with version := version.major }.resetSequences }
          hansweredWrites (by decide)
      refine ⟨next, { session := session'' }, hsetup, hversion'', ?_⟩
      rw [← hanswered, ScriptedTransport.remaining, hreads]
      rfl

/-- A frame of a version 2 link with two bytes. -/
private def leftOver : Bytes :=
  (({ protocol := 6, length := 18 } : MuxHeader).encode 2).take 16 ++ [1, 2]

/-- An answer with version 2. -/
private def versionTwo : Bytes :=
  (({ length := 20 } : MuxHeader).encode 1).take 8 ++ ({} : VersionHeader).encode

/-- Both of them, cut inside the header of the first, and a byte after them. -/
private def reconnected : ScriptedTransport where
  reads := [.ok ((leftOver ++ versionTwo).take 5),
    .ok ((leftOver ++ versionTwo).drop 5 ++ [9])]

/-- The link is opened at version 2, and the last byte is still to be read. -/
theorem openDirect_after_stale_reconnected :
    ∃ next connection, openDirect.run (reconnected, {}) =
        (.ok (), next, connection) ∧
      connection.session.version = ({} : VersionHeader).major ∧
      next.remaining = [9] := by
  have hclean : reconnected.Clean := by
    intro answer hmem
    simp only [reconnected, List.mem_cons, List.not_mem_nil, or_false] at hmem
    cases hmem with
    | inl hfirst => exact ⟨_, by decide, hfirst⟩
    | inr hsecond => exact ⟨_, by decide, hsecond⟩
  have hstale : ∀ bytes ∈ [leftOver], StaleFrame bytes := by
    intro bytes hmem
    rw [List.mem_singleton.mp hmem]
    exact ⟨2, { protocol := 6, length := 18 }, [1, 2], Or.inr rfl,
      ⟨rfl, by decide, by decide⟩, by decide⟩
  have hanswer : VersionAnswer {} versionTwo :=
    ⟨{ length := 20 }, [], ⟨rfl, by decide, by decide⟩, rfl⟩
  exact openDirect_after_stale hclean rfl (by decide) hstale hanswer
    (Or.inr rfl) (by decide)

end Connection

end Ioscpp
