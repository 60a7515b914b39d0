import Ioscpp.StreamPeer
import Ioscpp.TransportCalls

/-!
# What a stream asks of its link

The calls that each operation of a stream makes to the transport, whatever the
transport answers.  Reading and writing send no reset; closing sends one, when
the stream is open and the link is up.

## Main results

- `receiveMore_eq`: receiving more is receiving a frame, and then something that sends
  no reset.
- `run_closeNow_done`, `run_closeNow_down`, `run_closeNow_up`: what closing a stream
  does.
-/

namespace Ioscpp.Stream

open Ioscpp.Support
open Ioscpp.Protocol

variable {τ : Type} [Transport τ]

/-! ## Calls that send no other flags than these -/

/-- The call is a read, or it sends a frame whose flags are admitted. -/
def Sends (admitted : UInt8 → Prop) (version : UInt32) : TransportCall → Prop
  | .read _ => True
  | .write data _ => ∀ flags, sentFlags version data = some flags → admitted flags
  | .close => False

theorem Sends.mono {admitted admitted' : UInt8 → Prop} {version : UInt32}
    {call : TransportCall} (h : Sends admitted version call)
    (himp : ∀ flags, admitted flags → admitted' flags) :
    Sends admitted' version call := by
  cases call with
  | read => trivial
  | write => exact fun flags hflags => himp flags (h flags hflags)
  | close => exact h

/-- No reset. -/
def NoReset (flags : UInt8) : Prop := flags &&& TcpRst = 0

/-- A SYN alone is no reset. -/
theorem noReset_of_syn (flags : UInt8) (h : flags = TcpSyn) : NoReset flags := by
  rw [h]
  rfl

/-- The link after calls that sent admitted frames only. -/
structure Calm (admitted : UInt8 → Prop) (base : Recorded τ × Connection)
    (nextPort : UInt16) (link : Recorded τ × Connection) : Prop where
  calls : Recorded.Since base.1.calls (Sends admitted base.2.session.version)
    link.1
  version : link.2.session.version = base.2.session.version
  nextPort : link.2.nextPort = nextPort
  closed : link.2.closed = base.2.closed

section Calm

variable {admitted : UInt8 → Prop} {base link : Recorded τ × Connection}
  {nextPort : UInt16}

omit [Transport τ] in
theorem Calm.refl (link : Recorded τ × Connection) :
    Calm admitted link link.2.nextPort link :=
  ⟨⟨[], (List.append_nil _).symm, by simp⟩, rfl, rfl, rfl⟩

theorem run_sendTcp {tcp : TcpHeader} {payload : Bytes}
    (hfits : Session.Fits link.2.session.version (tcp.encode ++ payload)) :
    ∃ transport result, (Connection.sendTcp tcp payload).run link = (result,
      { transport, calls := link.1.calls ++
        [.write (link.2.session.frameBytes .tcp (tcp.encode ++ payload)) result] },
      { link.2 with session := { link.2.session with
        txSeq := link.2.session.txSeq + 1 } }) := by
  refine ⟨((Transport.write (link.2.session.frameBytes .tcp
    (tcp.encode ++ payload))).run link.1.transport).2,
    ((Transport.write (link.2.session.frameBytes .tcp
      (tcp.encode ++ payload))).run link.1.transport).1, ?_⟩
  rw [Connection.sendTcp, Connection.onSession, Action.run_zoom,
    Session.run_send hfits, Recorded.run_write]

/-- A header alone fits in a frame. -/
theorem fits_header (version : UInt32) (tcp : TcpHeader) :
    Session.Fits version (tcp.encode ++ []) := by
  have hle := MuxHeader.wireSize_le version
  rw [Session.Fits, List.append_nil, tcp.length_encode, kMaxFrameSize]
  omega

theorem keeps_sendTcp {tcp : TcpHeader} (payload : Bytes)
    (hflags : admitted tcp.flags) (hoffset : tcp.dataOffset < 16) :
    Action.Keeps (Calm admitted base nextPort)
      (Connection.sendTcp tcp payload) := by
  intro link h
  by_cases hfits : Session.Fits link.2.session.version (tcp.encode ++ payload)
  · obtain ⟨transport, result, hrun⟩ := run_sendTcp hfits
    rw [hrun]
    have hcall : Sends admitted base.2.session.version (.write
        (link.2.session.frameBytes .tcp (tcp.encode ++ payload)) result) := by
      intro flags hsent
      rw [← h.version, sentFlags_frameBytes link.2.session payload hoffset]
        at hsent
      rwa [← Option.some.inj hsent]
    have hcalm : Recorded.Since base.1.calls
        (Sends admitted base.2.session.version) ⟨transport, _⟩ :=
      h.calls.append hcall
    cases result <;> exact ⟨hcalm, h.version, h.nextPort, h.closed⟩
  · rw [Connection.sendTcp, Connection.onSession, Action.run_zoom,
      Session.run_send_tooLong hfits]
    exact h

theorem keeps_receive :
    Action.Keeps (Calm admitted base nextPort) Connection.receive := by
  rw [Action.Keeps, Connection.receive, Connection.onSession]
  refine Action.Triple.zoom fun link h => ?_
  have hread (count : Nat) : Action.Keeps
      (Recorded.Since base.1.calls (Sends admitted base.2.session.version))
      (Transport.readExact Session.closedMidFrame count :
        Action Error (Recorded τ) Bytes) :=
    Transport.keeps_readExact
      (fun count => Recorded.keeps_read (fun _ => trivial) count) _ count
  have hreceive : Action.Keeps (fun state : Recorded τ × Session =>
      Recorded.Since base.1.calls (Sends admitted base.2.session.version)
        state.1 ∧ state.2.version = base.2.session.version)
      Session.receive := by
    have honTransport (count : Nat) : Action.Keeps (fun state : Recorded τ × Session =>
        Recorded.Since base.1.calls (Sends admitted base.2.session.version)
          state.1 ∧ state.2.version = base.2.session.version)
        (Session.onTransport
          (Transport.readExact Session.closedMidFrame count)) := by
      refine Action.Triple.zoom fun state hstate => ?_
      refine ((hread count).imp_pre fun part hpart => ?_).imp_post ?_ ?_
      · rw [hpart]
        exact hstate.1
      · exact fun _ part hpart => ⟨hpart, hstate.2⟩
      · exact fun _ part hpart => ⟨hpart, hstate.2⟩
    refine Action.Keeps.get_bind fun state => (honTransport _).bind fun bytes =>
      (Action.keeps_lift _).bind fun header =>
        Action.keeps_ite (Action.keeps_lift _) ?_
    exact (honTransport _).bind fun payload =>
      Action.Keeps.bind (Action.keeps_modify fun _ h => h) fun _ =>
        Action.keeps_pure _
  refine (hreceive.imp_pre fun part hpart => ?_).imp_post ?_ ?_
  · rw [hpart]
    exact ⟨h.calls, h.version⟩
  · exact fun _ part hpart => ⟨hpart.1, hpart.2, h.nextPort, h.closed⟩
  · exact fun _ part hpart => ⟨hpart.1, hpart.2, h.nextPort, h.closed⟩

end Calm

/-! ## Reading and writing -/

/-- What an operation keeps of an object: its connection and ports, and that it
is closed. -/
structure Kin (before after : Stream) : Prop where
  attached : after.attached = before.attached
  localPort : after.localPort = before.localPort
  remotePort : after.remotePort = before.remotePort
  closed : before.closed = true → after.closed = true
  /-- No more is returned than was received. -/
  buffered : before.incomingOffset ≤ before.incoming.length →
    after.incomingOffset ≤ after.incoming.length

theorem Kin.refl (stream : Stream) : Kin stream stream :=
  ⟨rfl, rfl, rfl, id, id⟩

theorem Kin.trans {first second third : Stream} (h : Kin first second)
    (h' : Kin second third) : Kin first third where
  attached := h'.attached.trans h.attached
  localPort := h'.localPort.trans h.localPort
  remotePort := h'.remotePort.trans h.remotePort
  closed hclosed := h'.closed (h.closed hclosed)
  buffered hle := h'.buffered (h.buffered hle)

section Tame

variable {base : Recorded τ × Connection} {nextPort : UInt16} {stream : Stream}

/-- An object and its link after operations that send no reset. -/
def Tame (base : Recorded τ × Connection) (nextPort : UInt16) (stream : Stream)
    (state : (Recorded τ × Connection) × Stream) : Prop :=
  Calm NoReset base nextPort state.1 ∧ Kin stream state.2

omit [Transport τ] in
theorem tame_update {α : Type} {f : Stream → Stream}
    {g : PUnit → Action Error ((Recorded τ × Connection) × Stream) α}
    (hf : ∀ other, Kin other (f other))
    (hg : ∀ done, Action.Keeps (Tame base nextPort stream) (g done)) :
    Action.Keeps (Tame base nextPort stream) (update f >>= g) := by
  exact Action.Keeps.bind
    (Action.keeps_modify fun state h => ⟨h.1, h.2.trans (hf state.2)⟩) hg

omit [Transport τ] in
theorem tame_onConnection {α : Type}
    {x : Action Error (Recorded τ × Connection) α}
    (h : Action.Keeps (Calm NoReset base nextPort) x) :
    Action.Keeps (Tame base nextPort stream) (onConnection x) := by
  refine Action.Keeps.get_bind fun state => Action.keeps_ite ?_ (Action.keeps_lift _)
  refine Action.Triple.zoom fun state hstate => ?_
  refine (h.imp_pre fun link hlink => ?_).imp_post ?_ ?_
  · rw [hlink]
    exact hstate.1
  · exact fun _ link hlink => ⟨hlink, hstate.2⟩
  · exact fun _ link hlink => ⟨hlink, hstate.2⟩

private theorem tame_acknowledge (other : Stream) (payload : Bytes) :
    Action.Keeps (Tame base nextPort stream)
      (onConnection (Connection.sendTcp (other.header TcpAck) payload)) :=
  tame_onConnection (keeps_sendTcp payload (by decide : TcpAck &&& TcpRst = 0)
    (by decide : (5 : UInt8) < 16))

theorem tame_writeLoop (fuel : Nat) (data : Bytes) :
    Action.Keeps (Tame base nextPort stream) (writeLoop fuel data) := by
  induction fuel generalizing data with
  | zero => exact Action.keeps_ite (Action.keeps_pure _) (Action.keeps_lift _)
  | succ fuel ih =>
      refine Action.keeps_ite (Action.keeps_pure _)
        (Action.Keeps.get_bind fun state => ?_)
      refine (tame_acknowledge _ _).bind fun _ => ?_
      exact tame_update (fun _ => ⟨rfl, rfl, rfl, id, id⟩) fun _ => ih _

theorem tame_write (data : Bytes) :
    Action.Keeps (Tame base nextPort stream) (write data) :=
  tame_writeLoop data.length data

/-- Receiving more is receiving a frame, and then something tame. -/
private theorem receiveMore_eq_of_tame {fuel : Nat}
    (hmore : ∀ (base : Recorded τ × Connection) nextPort stream,
      Action.Keeps (Tame base nextPort stream) (receiveMore fuel)) :
    ∃ f : TcpHeader × Bytes → Action Error ((Recorded τ × Connection) × Stream) Bool,
      receiveMore (fuel + 1) = (do
        let state ← get
        let answer ← onConnection
          (receiveTcp state.2.localPort state.2.remotePort (fuel + 1))
        f answer) ∧
      ∀ base nextPort stream answer,
        Action.Keeps (Tame base nextPort stream) (f answer) := by
  refine ⟨_, rfl, fun base nextPort stream answer => Action.keeps_ite ?_ ?_⟩
  · exact tame_update (fun _ => ⟨rfl, rfl, rfl, fun _ => rfl, id⟩) fun _ =>
      Action.keeps_pure _
  · refine tame_update (fun _ => ⟨rfl, rfl, rfl, id, id⟩) fun _ => ?_
    refine Action.Keeps.get_bind fun state => ?_
    refine (tame_acknowledge _ _).bind fun _ =>
      Action.keeps_ite ?_ (hmore base nextPort stream)
    refine tame_update (fun other => ⟨rfl, rfl, rfl, id, fun h => ?_⟩) fun _ =>
      Action.keeps_pure _
    exact Nat.le_trans h (by simp)

theorem tame_receiveMore (fuel : Nat) :
    Action.Keeps (Tame base nextPort stream) (receiveMore fuel) := by
  induction fuel generalizing base nextPort stream with
  | zero => exact Action.keeps_lift _
  | succ fuel ih =>
      obtain ⟨f, heq, hf⟩ := receiveMore_eq_of_tame fun _ _ _ => ih
      rw [heq]
      exact Action.Keeps.get_bind fun state =>
        (tame_onConnection (keeps_receiveTcp keeps_receive _ _ _)).bind
          (hf base nextPort stream)

theorem receiveMore_eq (fuel : Nat) :
    ∃ f : TcpHeader × Bytes → Action Error ((Recorded τ × Connection) × Stream) Bool,
      receiveMore (fuel + 1) = (do
        let state ← get
        let answer ← onConnection
          (receiveTcp state.2.localPort state.2.remotePort (fuel + 1))
        f answer) ∧
      ∀ base nextPort stream answer,
        Action.Keeps (Tame base nextPort stream) (f answer) :=
  receiveMore_eq_of_tame fun _ _ _ => tame_receiveMore fuel

theorem tame_replenish (turns : Nat) :
    Action.Keeps (Tame base nextPort stream) (replenish turns) := by
  refine Action.Keeps.get_bind fun state =>
    Action.keeps_ite ?_ (Action.keeps_pure _)
  refine tame_update (fun _ => ⟨rfl, rfl, rfl, id, fun _ => Nat.le_refl _⟩)
    fun _ => ?_
  refine (tame_receiveMore turns).bind fun more => ?_
  cases more with
  | true => exact Action.keeps_pure _
  | false => exact Action.Keeps.get_bind fun state => Action.keeps_lift _

omit [Transport τ] in
theorem tame_takeIncoming (count : Nat) :
    Action.Keeps (Tame base nextPort stream) (takeIncoming count) := by
  refine Action.Triple.get_bind fun state hstate => ?_
  refine Action.Triple.bind (Q := fun _ => Tame base nextPort stream) ?_
    fun _ => Action.keeps_pure _
  refine Action.Triple.modify ?_
  rintro _ rfl
  refine ⟨hstate.1, hstate.2.trans ⟨rfl, rfl, rfl, id, fun h => ?_⟩⟩
  dsimp only at h ⊢
  rw [List.length_take, List.length_drop]
  omega

theorem tame_readExactLoop (count turns fuel : Nat) (data : Bytes) :
    Action.Keeps (Tame base nextPort stream)
      (readExactLoop count turns fuel data) := by
  induction fuel generalizing data with
  | zero => exact Action.keeps_ite (Action.keeps_pure _) (Action.keeps_lift _)
  | succ fuel ih =>
      refine Action.keeps_ite (Action.keeps_pure _) ?_
      exact (tame_replenish turns).bind fun _ =>
        (tame_takeIncoming _).bind fun more => ih _

theorem tame_readExact (count turns : Nat) :
    Action.Keeps (Tame base nextPort stream) (readExact count turns) :=
  tame_readExactLoop count turns count []

theorem tame_readAll (turns fuel : Nat) :
    Action.Keeps (Tame base nextPort stream) (readAll turns fuel) := by
  rw [readAll]
  generalize ([] : Bytes) = output
  induction fuel generalizing output with
  | zero => exact Action.keeps_lift _
  | succ fuel ih =>
      refine Action.Keeps.get_bind fun state => Action.keeps_ite ?_ ?_
      · exact tame_update
          (fun _ => ⟨rfl, rfl, rfl, id, fun _ => Nat.le_refl _⟩) fun _ => ih _
      · refine tame_update
          (fun _ => ⟨rfl, rfl, rfl, id, fun _ => Nat.le_refl _⟩) fun _ => ?_
        refine (tame_receiveMore turns).bind fun more => ?_
        cases more with
        | true => exact ih _
        | false => exact Action.keeps_pure _

end Tame

/-! ## Closing -/

section Close

variable {link : Recorded τ × Connection} {stream : Stream}

/-- An object that is closed, or that was moved from, does nothing. -/
theorem run_closeNow_done (h : stream.closed = true ∨ stream.attached = false) :
    closeNow.run (link, stream) = (.ok (), link, stream) := by
  rw [closeNow, Action.run_bind_ok (Action.run_get _), if_pos (by simpa using h),
    Action.run_pure]

/-- After the link was closed no reset is sent. -/
theorem run_closeNow_down (hopen : stream.closed = false)
    (hattached : stream.attached = true) (hlink : link.2.closed = true) :
    closeNow.run (link, stream) =
      (.ok (), link, { stream with closed := true }) := by
  rw [closeNow, Action.run_bind_ok (Action.run_get _),
    if_neg (by simp [hopen, hattached]), update,
    Action.run_bind_ok (Action.run_modify _ _), if_pos hlink, Action.run_pure]

/-- An open stream hands one reset to the transport. -/
theorem run_closeNow_up (hopen : stream.closed = false)
    (hattached : stream.attached = true) (hlink : link.2.closed = false) :
    ∃ transport result, closeNow.run (link, stream) = (.ok (),
      ({ transport, calls := link.1.calls ++ [.write
          (link.2.session.frameBytes .tcp ((stream.header TcpRst).encode ++ []))
          result] },
        { link.2 with session := { link.2.session with
          txSeq := link.2.session.txSeq + 1 } }),
      { stream with closed := true }) := by
  obtain ⟨transport, result, hrun⟩ := @run_sendTcp τ _ link (stream.header TcpRst)
    [] (fits_header _ _)
  refine ⟨transport, result, ?_⟩
  rw [closeNow, Action.run_bind_ok (Action.run_get _),
    if_neg (by simp [hopen, hattached]), update,
    Action.run_bind_ok (Action.run_modify _ _), if_neg (by simp [hlink])]
  have hattempt : (Action.attempt (onConnection
      (Connection.sendTcp (stream.header TcpRst) []))).run
        (link, { stream with closed := true }) = (.ok result,
      ({ transport, calls := link.1.calls ++ [.write
          (link.2.session.frameBytes .tcp ((stream.header TcpRst).encode ++ []))
          result] },
        { link.2 with session := { link.2.session with
          txSeq := link.2.session.txSeq + 1 } }),
      { stream with closed := true }) := by
    rw [Action.run_attempt, onConnection, Action.run_bind_ok (Action.run_get _),
      if_pos hattached, Action.run_zoom, hrun]
  rw [Action.run_bind_ok hattempt, Action.run_pure]

end Close

end Ioscpp.Stream
