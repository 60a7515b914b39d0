import Ioscpp.SessionFrames
import Ioscpp.StreamCalls

/-!
# The resets that a read takes

A stream is reset by a frame of the device: a TCP frame from its port to the
local one whose flags have `RST`.  Whether a read took one is read off from the
bytes that it took of the link; a read closes the stream exactly then.

## Main results

- `unseen_readExact`, `unseen_readAll`: after a read the stream is closed exactly
  when it was before, or when a reset of its ports is among the frames that the
  read took.
-/

namespace Ioscpp.Stream

open Ioscpp.Support
open Ioscpp.Protocol

/-! ## Resets -/

/-- The frame is a reset for these ports. -/
def isReset (localPort remotePort : UInt16) (frame : Frame) : Bool :=
  match TcpHeader.decode (frame.payload.take kTcpHeaderSize) with
  | .ok tcp =>
      frame.header.protocol = MuxProtocol.tcp.id ∧
        kTcpHeaderSize ≤ frame.payload.length ∧
        tcp.destinationPort = localPort ∧ tcp.sourcePort = remotePort ∧
        tcp.flags &&& TcpRst ≠ 0
  | .error _ => false

/-- A reset for these ports is among the frames in these bytes. -/
def tookReset (version : UInt32) (localPort remotePort : UInt16) (bytes : Bytes) :
    Bool :=
  (Session.wholeFrames version bytes).any (isReset localPort remotePort)

section Resets

variable {localPort remotePort : UInt16} {frame : Frame} {tcp : TcpHeader}
  {payload : Bytes}

/-- A frame that is skipped is no reset. -/
theorem isReset_of_none (h : acceptFrame localPort remotePort frame = .ok none) :
    isReset localPort remotePort frame = false := by
  rw [acceptFrame] at h
  rw [isReset]
  split at h
  · rename_i hshort
    split
    · refine decide_eq_false ?_
      rintro ⟨hprotocol, hlong, -⟩
      rcases hshort with hshort | hshort
      · exact hshort hprotocol
      · omega
    · rfl
  · rename_i hlong
    rw [not_or, not_not, Nat.not_lt] at hlong
    rw [slice_of_le (by omega), ok_bind, List.drop_zero] at h
    cases hdecode : TcpHeader.decode (frame.payload.take kTcpHeaderSize) with
    | error fault => rfl
    | ok tcp =>
        rw [hdecode, ok_bind] at h
        split at h
        · rename_i hports
          refine decide_eq_false ?_
          rintro ⟨-, -, hlocal, hremote, -⟩
          exact hports.elim (fun hne => hne hlocal) fun hne => hne hremote
        · cases h

/-- A frame that is taken is a reset when its flags say so. -/
theorem isReset_of_some
    (h : acceptFrame localPort remotePort frame = .ok (some (tcp, payload))) :
    isReset localPort remotePort frame = decide (tcp.flags &&& TcpRst ≠ 0) := by
  rw [acceptFrame] at h
  split at h
  · cases h
  · rename_i hlong
    rw [not_or, not_not, Nat.not_lt] at hlong
    rw [slice_of_le (by omega), ok_bind, List.drop_zero] at h
    rw [isReset]
    cases hdecode : TcpHeader.decode (frame.payload.take kTcpHeaderSize) with
    | error fault =>
        rw [hdecode] at h
        cases h
    | ok tcp' =>
        rw [hdecode, ok_bind] at h
        split at h
        · cases h
        · rename_i hports
          cases h
          rw [not_or, not_not, not_not] at hports
          simp [hlong, hports]

end Resets

/-! ## A link on which a read has begun -/

section Reads

variable {τ : Type} {calls : List TransportCall} {version : UInt32}
  {localPort remotePort : UInt16} {seen : Bool}
  {link : Recorded τ × Connection}

/-- The calls since have taken whole frames, and whether one is a reset. -/
structure AtFrame (calls : List TransportCall) (version : UInt32)
    (localPort remotePort : UInt16) (seen : Bool)
    (link : Recorded τ × Connection) : Prop where
  session : link.2.session.version = version
  frames : ∃ more frames, link.1.calls = calls ++ more ∧
    Session.Wire version frames (Recorded.bytesRead more) ∧
    frames.any (isReset localPort remotePort) = seen

/-- The calls since have taken a reset, or not. -/
def Saw (calls : List TransportCall) (version : UInt32)
    (localPort remotePort : UInt16) (seen : Bool)
    (link : Recorded τ × Connection) : Prop :=
  ∃ more, link.1.calls = calls ++ more ∧
    tookReset version localPort remotePort (Recorded.bytesRead more) = seen

theorem AtFrame.saw (h : AtFrame calls version localPort remotePort seen link) :
    Saw calls version localPort remotePort seen link := by
  obtain ⟨more, frames, hcalls, hwire, hseen⟩ := h.frames
  have hframes := Session.wholeFrames_wire hwire Session.not_holdsFrame_nil
  rw [List.append_nil] at hframes
  exact ⟨more, hcalls, by rw [tookReset, hframes, hseen]⟩

variable [Transport τ]

/-- A frame that is received is one of those that were taken. -/
theorem atFrame_receive (hbounded : Recorded.Bounded τ) :
    Action.Triple (AtFrame calls version localPort remotePort false)
      (Connection.receive : Action Error (Recorded τ × Connection) Frame)
      (fun frame => AtFrame calls version localPort remotePort
        (isReset localPort remotePort frame))
      (fun _ => Saw calls version localPort remotePort false) := by
  rw [Connection.receive, Connection.onSession]
  refine Action.Triple.zoom fun link hlink => ?_
  obtain ⟨more, frames, hcalls, hwire, hnone⟩ := hlink.frames
  refine (Session.took_receive hbounded link.1 link.2.session).imp_post ?_ ?_
  · rintro frame part ⟨hversion, bytes, ⟨later, hlater, -, rfl⟩, hframe⟩
    rw [hlink.session] at hversion hframe
    refine ⟨hversion, more ++ later, frames ++ [frame], ?_, ?_, ?_⟩
    · rw [hlater, hcalls, List.append_assoc]
    · rw [Recorded.bytesRead_append]
      exact hwire.append hframe
    · rw [List.any_append, hnone, Bool.false_or, List.any_cons, List.any_nil,
        Bool.or_false]
  · rintro fault part ⟨bytes, ⟨later, hlater, -, rfl⟩, htail⟩
    rw [hlink.session] at htail
    refine ⟨more ++ later, ?_, ?_⟩
    · rw [hlater, hcalls, List.append_assoc]
    · rw [tookReset, Recorded.bytesRead_append, Session.wholeFrames_wire hwire htail,
        hnone]

/-- The frame that is returned is the first for these ports. -/
theorem atFrame_receiveTcp (hbounded : Recorded.Bounded τ) (fuel : Nat) :
    Action.Triple (AtFrame calls version localPort remotePort false)
      (receiveTcp localPort remotePort fuel :
        Action Error (Recorded τ × Connection) (TcpHeader × Bytes))
      (fun answer => AtFrame calls version localPort remotePort
        (decide (answer.1.flags &&& TcpRst ≠ 0)))
      (fun _ => Saw calls version localPort remotePort false) := by
  induction fuel with
  | zero =>
      exact Action.Triple.lift (fun _ h => by cases h) fun _ _ _ h => h.saw
  | succ fuel ih =>
      refine (atFrame_receive hbounded).bind fun frame => ?_
      obtain ⟨answer, hanswer⟩ := acceptFrame_total localPort remotePort frame
      rw [hanswer]
      refine Action.Triple.lift_ok_bind ?_
      cases answer with
      | none =>
          rw [isReset_of_none hanswer]
          exact ih
      | some answer =>
          obtain ⟨tcp, payload⟩ := answer
          rw [isReset_of_some hanswer]
          exact Action.Triple.pure fun _ h => h

/-- Sending takes nothing of the link. -/
theorem atFrame_sendTcp (tcp : TcpHeader) (payload : Bytes) :
    Action.Keeps (AtFrame calls version localPort remotePort seen)
      (Connection.sendTcp tcp payload :
        Action Error (Recorded τ × Connection) Unit) := by
  refine Action.Keeps.of_state fun link hlink => ?_
  by_cases hfits : Session.Fits link.2.session.version (tcp.encode ++ payload)
  · obtain ⟨transport, result, hrun⟩ := run_sendTcp hfits
    obtain ⟨more, frames, hcalls, hwire, hseen⟩ := hlink.frames
    rw [hrun]
    refine ⟨hlink.session, more ++ [.write (link.2.session.frameBytes .tcp
      (tcp.encode ++ payload)) result], frames, ?_, ?_, hseen⟩
    · rw [hcalls, List.append_assoc]
    · rw [Recorded.bytesRead_append]
      simpa [Recorded.bytesRead] using hwire
  · rw [Connection.sendTcp, Connection.onSession, Action.run_zoom,
      Session.run_send_tooLong hfits]
    exact hlink

/-! ## Reads of an object -/

/-- The object while its read has taken no reset. -/
structure Unseen (calls : List TransportCall) (version : UInt32) (before : Stream)
    (state : (Recorded τ × Connection) × Stream) : Prop where
  link : AtFrame calls version before.localPort before.remotePort false state.1
  localPort : state.2.localPort = before.localPort
  remotePort : state.2.remotePort = before.remotePort
  closed : state.2.closed = before.closed

/-- The object is closed when it was before, or when a reset was taken. -/
def Noticed (calls : List TransportCall) (version : UInt32) (before : Stream)
    (state : (Recorded τ × Connection) × Stream) : Prop :=
  ∃ seen, Saw calls version before.localPort before.remotePort seen state.1 ∧
    state.2.closed = (before.closed || seen)

variable {before : Stream}

omit [Transport τ] in
theorem Unseen.noticed {state : (Recorded τ × Connection) × Stream}
    (h : Unseen calls version before state) : Noticed calls version before state :=
  ⟨false, h.link.saw, by rw [h.closed, Bool.or_false]⟩

omit [Transport τ] in
/-- An update that touches neither the ports nor the flag. -/
theorem unseen_update {f : Stream → Stream}
    (hf : ∀ other, (f other).localPort = other.localPort ∧
      (f other).remotePort = other.remotePort ∧
      (f other).closed = other.closed) :
    Action.Triple (Unseen (τ := τ) calls version before) (update f)
      (fun _ => Unseen calls version before)
      (fun _ => Noticed calls version before) := by
  refine Action.Triple.modify fun state h => ?_
  obtain ⟨hlocal, hremote, hclosed⟩ := hf state.2
  exact ⟨h.link, hlocal.trans h.localPort, hremote.trans h.remotePort,
    hclosed.trans h.closed⟩

omit [Transport τ] in
/-- What an operation of the connection says of the link, it says of the object's. -/
theorem unseen_onConnection {α : Type}
    {x : Action Error (Recorded τ × Connection) α}
    {Q : α → Recorded τ × Connection → Prop}
    (hx : Action.Triple
      (AtFrame calls version before.localPort before.remotePort false) x Q
      (fun _ => Saw calls version before.localPort before.remotePort false)) :
    Action.Triple (Unseen calls version before) (onConnection x)
      (fun a state => Q a state.1 ∧ state.2.localPort = before.localPort ∧
        state.2.remotePort = before.remotePort ∧
        state.2.closed = before.closed)
      (fun _ => Noticed calls version before) := by
  refine Action.Triple.get_bind fun state hstate =>
    Action.Triple.ite (fun _ => ?_) fun _ => ?_
  · refine Action.Triple.zoom ?_
    rintro _ rfl
    refine (hx.at_state hstate.link).imp_post ?_ ?_
    · exact fun a link hlink =>
        ⟨hlink, hstate.localPort, hstate.remotePort, hstate.closed⟩
    · exact fun _ link hlink => ⟨false, hlink, by rw [hstate.closed, Bool.or_false]⟩
  · refine Action.Triple.lift (fun _ h => by cases h) ?_
    rintro _ _ _ rfl
    exact hstate.noticed

/-- A reset that is taken closes the stream, and nothing else does. -/
theorem unseen_receiveMore (hbounded : Recorded.Bounded τ) (fuel : Nat) :
    Action.Triple (Unseen (τ := τ) calls version before) (receiveMore fuel)
      (fun more state => if more then Unseen calls version before state
        else Noticed calls version before state)
      (fun _ => Noticed calls version before) := by
  induction fuel with
  | zero =>
      exact Action.Triple.lift (fun _ h => by cases h) fun _ _ _ h => h.noticed
  | succ fuel ih =>
      refine Action.Triple.get_bind fun state hstate => ?_
      rw [hstate.localPort, hstate.remotePort]
      refine ((unseen_onConnection (atFrame_receiveTcp hbounded _)).at_state
        hstate).bind fun answer => ?_
      refine Action.Triple.ite (fun hreset => ?_) fun hreset => ?_
      · refine Action.Triple.bind (Q := fun _ => Noticed calls version before)
          (Action.Triple.modify ?_) fun _ => Action.Triple.pure fun _ h => h
        rintro after ⟨hlink, -, -, -⟩
        rw [decide_eq_true hreset] at hlink
        exact ⟨true, hlink.saw, (Bool.or_true _).symm⟩
      · have hunseen (after : (Recorded τ × Connection) × Stream)
            (h : AtFrame calls version before.localPort before.remotePort
                (decide (answer.1.flags &&& TcpRst ≠ 0)) after.1 ∧
              after.2.localPort = before.localPort ∧
              after.2.remotePort = before.remotePort ∧
              after.2.closed = before.closed) :
            Unseen calls version before after := by
          rw [decide_eq_false hreset] at h
          exact ⟨h.1, h.2.1, h.2.2.1, h.2.2.2⟩
        refine Action.Triple.bind ((unseen_update ?_).imp_pre hunseen) fun _ => ?_
        · exact fun _ => ⟨rfl, rfl, rfl⟩
        refine Action.Triple.get_bind fun state hstate => ?_
        have hsend : Action.Keeps (AtFrame calls version before.localPort
            before.remotePort false)
            (Connection.sendTcp (state.2.header TcpAck) [] :
              Action Error (Recorded τ × Connection) Unit) :=
          atFrame_sendTcp _ _
        refine ((unseen_onConnection (hsend.imp_post (fun _ _ h => h)
          fun _ _ h => h.saw)).at_state hstate).bind fun _ => ?_
        have hsent (after : (Recorded τ × Connection) × Stream)
            (h : AtFrame calls version before.localPort before.remotePort false
                after.1 ∧
              after.2.localPort = before.localPort ∧
              after.2.remotePort = before.remotePort ∧
              after.2.closed = before.closed) :
            Unseen calls version before after :=
          ⟨h.1, h.2.1, h.2.2.1, h.2.2.2⟩
        refine Action.Triple.ite (fun _ => ?_) fun _ => ih.imp_pre hsent
        refine Action.Triple.bind ((unseen_update ?_).imp_pre hsent) fun _ =>
          Action.Triple.pure fun _ h => h
        exact fun _ => ⟨rfl, rfl, rfl⟩

theorem unseen_replenish (hbounded : Recorded.Bounded τ) (turns : Nat) :
    Action.Triple (Unseen (τ := τ) calls version before) (replenish turns)
      (fun _ => Unseen calls version before)
      (fun _ => Noticed calls version before) := by
  refine Action.Triple.get_bind fun state hstate => Action.Triple.ite ?_ ?_
  · intro hempty
    refine Action.Triple.bind ((unseen_update ?_).at_state hstate) fun _ => ?_
    · exact fun _ => ⟨rfl, rfl, rfl⟩
    refine (unseen_receiveMore hbounded turns).bind fun more => ?_
    cases more with
    | true => exact Action.Triple.pure fun _ h => h
    | false =>
        refine Action.Triple.get_bind fun state h => Action.Triple.fail ?_
        rintro _ rfl
        exact h
  · rintro -
    exact Action.Triple.pure fun _ h => h ▸ hstate

omit [Transport τ] in
theorem unseen_takeIncoming (count : Nat) :
    Action.Triple (Unseen (τ := τ) calls version before) (takeIncoming count)
      (fun _ => Unseen calls version before)
      (fun _ => Noticed calls version before) := by
  refine Action.Triple.get_bind fun state hstate => ?_
  refine Action.Triple.bind ((unseen_update ?_).at_state hstate) fun _ =>
    Action.Triple.pure fun _ h => h
  exact fun _ => ⟨rfl, rfl, rfl⟩

theorem unseen_readExactLoop (hbounded : Recorded.Bounded τ)
    (count turns fuel : Nat) (data : Bytes) :
    Action.Triple (Unseen (τ := τ) calls version before)
      (readExactLoop count turns fuel data)
      (fun _ => Noticed calls version before)
      (fun _ => Noticed calls version before) := by
  induction fuel generalizing data with
  | zero =>
      exact Action.Triple.ite (fun _ => Action.Triple.pure fun _ h => Unseen.noticed h)
        fun _ => Action.Triple.lift (fun _ h => by cases h)
          fun _ _ _ h => Unseen.noticed h
  | succ fuel ih =>
      refine Action.Triple.ite
        (fun _ => Action.Triple.pure fun _ h => Unseen.noticed h) fun _ => ?_
      refine (unseen_replenish hbounded turns).bind fun _ => ?_
      exact (unseen_takeIncoming _).bind fun more => ih _

theorem unseen_readExact (hbounded : Recorded.Bounded τ) (count turns : Nat) :
    Action.Triple (Unseen (τ := τ) calls version before) (readExact count turns)
      (fun _ => Noticed calls version before)
      (fun _ => Noticed calls version before) :=
  unseen_readExactLoop hbounded count turns count []

theorem unseen_readAll (hbounded : Recorded.Bounded τ) (turns fuel : Nat) :
    Action.Triple (Unseen (τ := τ) calls version before) (readAll turns fuel)
      (fun _ => Noticed calls version before)
      (fun _ => Noticed calls version before) := by
  rw [readAll]
  generalize ([] : Bytes) = output
  induction fuel generalizing output with
  | zero =>
      exact Action.Triple.lift (fun _ h => by cases h) fun _ _ _ h => h.noticed
  | succ fuel ih =>
      refine Action.Triple.get_bind fun state hstate => Action.Triple.ite ?_ ?_
      · rintro -
        refine Action.Triple.bind ((unseen_update ?_).at_state hstate) fun _ => ih _
        exact fun _ => ⟨rfl, rfl, rfl⟩
      · rintro -
        refine Action.Triple.bind ((unseen_update ?_).at_state hstate) fun _ => ?_
        · exact fun _ => ⟨rfl, rfl, rfl⟩
        refine (unseen_receiveMore hbounded turns).bind fun more => ?_
        cases more with
        | true => exact ih _
        | false => exact Action.Triple.pure fun _ h => h

/-! ## Whole reads -/

omit [Transport τ] in
/-- Before a read nothing was taken. -/
theorem unseen_refl (link : Recorded τ × Connection) (stream : Stream) :
    Unseen link.1.calls link.2.session.version stream (link, stream) :=
  ⟨⟨rfl, [], [], (List.append_nil _).symm, .nil, rfl⟩, rfl, rfl, rfl⟩

end Reads

end Ioscpp.Stream
