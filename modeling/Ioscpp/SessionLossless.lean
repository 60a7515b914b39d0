import Ioscpp.Session

/-!
# The session layer is lossless

Two sessions of one version: what one sends the other receives, in order and
whole, however the link cuts the bytes.  At version 2 the frames that a session
sends are numbered one after another, and each carries the number that the last
received frame acknowledged.

## Main results

- `run_receiveAll`: frames in front of a script are received one by one.
- `numbered_performAll`: the runs of a session number its frames.
- `lossless_receiveAll`: what a session sends another of its version receives.
-/

namespace Ioscpp.Session

open Ioscpp.Support
open Ioscpp.Protocol

variable {τ : Type} [Transport τ]

/-- Sends messages one after the other. -/
def sendAll : List (MuxProtocol × Bytes) → Action Error (τ × Session) Unit
  | [] => return ()
  | message :: rest => do
      send message.1 message.2
      sendAll rest

/-- Receives frames one after the other. -/
def receiveAll : Nat → Action Error (τ × Session) (List Frame)
  | 0 => return []
  | count + 1 => do
      let frame ← receive
      let rest ← receiveAll count
      return frame :: rest

/-! ## What is sent -/

/-- The frames of messages, one number apart. -/
def framesOf (session : Session) : List (MuxProtocol × Bytes) → List Bytes
  | [] => []
  | message :: rest =>
      session.frameBytes message.1 message.2 ::
        framesOf { session with txSeq := session.txSeq + 1 } rest

/-- A send that succeeds wrote its frame, which fits. -/
theorem send_eq_ok {protocol : MuxProtocol} {payload : Bytes}
    {transport : ScriptedTransport} {session : Session}
    {next : ScriptedTransport × Session}
    (h : (send protocol payload).run (transport, session) = (.ok (), next)) :
    Fits session.version payload ∧
      next.1.written =
        transport.written ++ [session.frameBytes protocol payload] ∧
      next.2 = { session with txSeq := session.txSeq + 1 } := by
  by_cases hfits : Fits session.version payload
  · rw [run_send hfits] at h
    obtain ⟨writes, hrun | ⟨e, hrun⟩⟩ := ScriptedTransport.run_write
      (session.frameBytes protocol payload) transport
    · rw [hrun] at h
      cases h
      exact ⟨hfits, rfl, rfl⟩
    · rw [hrun] at h
      cases h
  · rw [run_send_tooLong hfits] at h
    cases h

theorem sendAll_eq_ok {messages : List (MuxProtocol × Bytes)}
    {transport : ScriptedTransport} {session : Session}
    {after : ScriptedTransport × Session}
    (h : (sendAll messages).run (transport, session) = (.ok (), after)) :
    (∀ message ∈ messages, Fits session.version message.2) ∧
      after.1.written = transport.written ++ session.framesOf messages := by
  induction messages generalizing transport session with
  | nil =>
      cases h
      exact ⟨by simp, (List.append_nil _).symm⟩
  | cons message rest ih =>
      rcases hrun : (send message.1 message.2).run (transport, session) with
        ⟨e | ⟨⟩, next⟩
      · rw [sendAll, Action.run_bind_error hrun] at h
        cases h
      · rw [sendAll, Action.run_bind_ok hrun] at h
        obtain ⟨hfits, hwritten, hsession⟩ := send_eq_ok hrun
        obtain ⟨hrest, hafter⟩ := ih h
        rw [hsession] at hrest hafter
        refine ⟨List.forall_mem_cons.mpr ⟨hfits, hrest⟩, ?_⟩
        rw [hafter, hwritten, framesOf, List.append_assoc]
        rfl

/-! ## What is received -/

/-- Frames in front of a script are received one by one, with their payloads and their
protocols, and at version 2 with their numbers. -/
theorem run_receiveAll {messages : List (MuxProtocol × Bytes)}
    {transport : ScriptedTransport} {sender receiver : Session}
    (hfits : ∀ message ∈ messages, Fits sender.version message.2)
    (hversion : receiver.version = sender.version) (hclean : transport.Clean)
    (hremaining : transport.remaining = (sender.framesOf messages).flatten) :
    ∃ frames last,
      (receiveAll messages.length).run (transport, receiver) =
        (.ok frames, last) ∧
      frames.map (fun frame => (frame.header.protocol, frame.payload)) =
        messages.map (fun message => (message.1.id, message.2)) ∧
      last.1.remaining = [] ∧
      (2 ≤ sender.version → frames.map (·.header.txSeq) =
        (List.range messages.length).map fun i =>
          sender.txSeq + UInt16.ofNat i) := by
  induction messages generalizing transport sender receiver with
  | nil => exact ⟨[], (transport, receiver), rfl, rfl, hremaining, fun _ => rfl⟩
  | cons message rest ih =>
      obtain ⟨hfirst, hrest⟩ := List.forall_mem_cons.mp hfits
      have hframe := @isFrame_frameBytes sender message.1 message.2 hfirst
      rw [framesOf, List.flatten_cons] at hremaining
      rw [← hversion] at hframe
      obtain ⟨next, hreceive, hdelivers⟩ := run_receive hclean hframe hremaining
      have hlater := hdelivers.remaining
      rw [hremaining] at hlater
      obtain ⟨frames, last, hrun, hframes, hlast, hnumbers⟩ := @ih next
        { sender with txSeq := sender.txSeq + 1 }
        { receiver with rxSeq := ((sender.nextHeader message.1 message.2).visible
          receiver.version).rxSeq } hrest hversion (hdelivers.clean hclean)
        (List.append_cancel_left hlater).symm
      have hall : (receiveAll (message :: rest).length).run
          (transport, receiver) =
          (.ok (⟨(sender.nextHeader message.1 message.2).visible
            receiver.version, message.2⟩ :: frames), last) := by
        rw [List.length_cons, receiveAll, Action.run_bind_ok hreceive,
          Action.run_bind_ok hrun]
        exact Action.run_pure _ _
      refine ⟨_, last, hall, ?_, hlast, fun htwo => ?_⟩
      · rw [List.map_cons, List.map_cons, hframes]
        congr 2
        rw [MuxHeader.visible]
        split <;> rfl
      · rw [List.map_cons, hnumbers htwo, hversion, MuxHeader.visible,
          if_pos htwo, List.length_cons, List.range_succ_eq_map, List.map_cons,
          List.map_map]
        congr 1
        · exact (UInt16.add_zero _).symm
        · refine List.map_congr_left fun i _ => ?_
          rw [Function.comp_apply, UInt16.add_assoc, ← UInt16.ofNat_one,
            ← UInt16.ofNat_add, Nat.add_comm]

/-! ## Runs of sends and receives -/

/-- A call of a session. -/
inductive Call where
  | send (protocol : MuxProtocol) (payload : Bytes)
  | receive

/-- What came of a call: the bytes that were written, the frame that was
received, or the reason that there is none. -/
inductive Event where
  | sent (bytes : Bytes)
  | unsent (fault : Fault Error)
  | received (frame : Frame)
  | unreceived (fault : Fault Error)

/-- Performs a call. -/
def perform (call : Call) (state : ScriptedTransport × Session) :
    Event × (ScriptedTransport × Session) :=
  match call with
  | .send protocol payload =>
      match (send protocol payload).run state with
      | (.ok (), next) => (.sent (next.1.written.getLastD []), next)
      | (.error fault, next) => (.unsent fault, next)
  | .receive =>
      match receive.run state with
      | (.ok frame, next) => (.received frame, next)
      | (.error fault, next) => (.unreceived fault, next)

/-- Performs calls one after the other, whatever becomes of each. -/
def performAll : List Call → ScriptedTransport × Session →
    List Event × (ScriptedTransport × Session)
  | [], state => ([], state)
  | call :: calls, state =>
      ((perform call state).1 :: (performAll calls (perform call state).2).1,
        (performAll calls (perform call state).2).2)

/-- The frames sent are numbered from `tx` on, and each sends back the number
that the last frame received before it carries, which is `rx` at first. -/
inductive Numbered (version : UInt32) : UInt16 → UInt16 → List Event → Prop where
  | nil {tx rx : UInt16} : Numbered version tx rx []
  | sent {tx rx : UInt16} {bytes : Bytes} {header : MuxHeader}
      {events : List Event}
      (hheader : MuxHeader.decode (bytes.take (MuxHeader.wireSize version))
        version = .ok header)
      (htx : header.txSeq = tx) (hrx : header.rxSeq = rx)
      (hrest : Numbered version (tx + 1) rx events) :
      Numbered version tx rx (.sent bytes :: events)
  | received {tx rx : UInt16} {frame : Frame} {events : List Event}
      (hrest : Numbered version tx frame.header.rxSeq events) :
      Numbered version tx rx (.received frame :: events)
  | unreceived {tx rx : UInt16} {fault : Fault Error} {events : List Event}
      (hrest : Numbered version tx rx events) :
      Numbered version tx rx (.unreceived fault :: events)

/-- A receive changes one number of the session, and only when it succeeds. -/
theorem triple_receive (session : Session) :
    Action.Triple (fun state : τ × Session => state.2 = session) receive
      (fun frame state =>
        state.2 = { session with rxSeq := frame.header.rxSeq })
      (fun _ state => state.2 = session) := by
  have hread (count : Nat) :
      Action.Keeps (fun state : τ × Session => state.2 = session)
        (onTransport (Transport.readExact closedMidFrame count)) :=
    Action.keeps_zoom fun state part h => h
  refine Action.Triple.get_bind fun state hstate => ?_
  refine Action.Triple.bind (hread _ |>.imp_pre fun other h => h ▸ hstate)
    fun headerBytes => ?_
  refine Action.Triple.bind (Action.keeps_lift _) fun header => ?_
  refine Action.Triple.ite (fun _ => Action.Triple.fail fun _ h => h) fun _ => ?_
  refine Action.Triple.bind (hread _) fun payload => ?_
  refine Action.Triple.bind (Action.Triple.modify fun other h => ?_)
    fun _ => Action.Triple.pure fun _ h => h
  rw [h]

/-- The runs of a session number its frames. -/
theorem numbered_performAll {transport : ScriptedTransport} {session : Session}
    (hversion : 2 ≤ session.version) (calls : List Call)
    (haccepted : ∀ fault,
      Event.unsent fault ∉ (performAll calls (transport, session)).1) :
    Numbered session.version session.txSeq session.rxSeq
      (performAll calls (transport, session)).1 := by
  induction calls generalizing transport session with
  | nil => exact .nil
  | cons call calls ih =>
      rw [performAll] at haccepted ⊢
      have hrest : ∀ fault, Event.unsent fault ∉
          (performAll calls (perform call (transport, session)).2).1 :=
        fun fault hmem => haccepted fault (List.mem_cons_of_mem _ hmem)
      cases call with
      | send protocol payload =>
          rcases hrun : (send protocol payload).run (transport, session) with
            ⟨fault | ⟨⟩, next⟩
          · refine absurd ?_ (haccepted fault)
            rw [perform, hrun]
            exact List.mem_cons_self
          · obtain ⟨hfits, hwritten, hsession⟩ := send_eq_ok hrun
            have hlast : next.1.written.getLastD [] =
                session.frameBytes protocol payload := by
              rw [hwritten, List.getLastD_concat]
            have hheader :=
              (@isFrame_frameBytes session protocol payload hfits).header
            rw [perform, hrun] at hrest ⊢
            dsimp only at hrest ⊢
            rw [hlast]
            rw [MuxHeader.visible, if_pos hversion] at hheader
            obtain ⟨nextTransport, nextSession⟩ := next
            obtain rfl : nextSession =
              { session with txSeq := session.txSeq + 1 } := hsession
            exact .sent hheader rfl rfl (@ih nextTransport
              { session with txSeq := session.txSeq + 1 } hversion hrest)
      | receive =>
          rcases hrun : receive.run (transport, session) with ⟨fault | frame, next⟩
          · have hsession := (triple_receive session).of_error rfl hrun
            rw [perform, hrun] at hrest ⊢
            obtain ⟨nextTransport, nextSession⟩ := next
            obtain rfl : nextSession = session := hsession
            exact .unreceived (ih hversion hrest)
          · have hsession := (triple_receive session).of_ok rfl hrun
            rw [perform, hrun] at hrest ⊢
            obtain ⟨nextTransport, nextSession⟩ := next
            obtain rfl : nextSession =
              { session with rxSeq := frame.header.rxSeq } := hsession
            exact .received (@ih nextTransport
              { session with rxSeq := frame.header.rxSeq } hversion hrest)

/-! ## The two ends together -/

/-- What a session sends, another of its version receives, in any chunking and
with nothing left over; the numbers in the frames are consecutive.  After the
sequences were reset, any run of sends that are accepted and of receives numbers
its frames from zero, and sends back the number of the last frame received. -/
theorem lossless_receiveAll {messages : List (MuxProtocol × Bytes)}
    {transport link : ScriptedTransport} {sender receiver : Session}
    {after : ScriptedTransport × Session} {sent : List Bytes}
    (hsend : (sendAll messages).run (transport, sender) = (.ok (), after))
    (hwritten : after.1.written = transport.written ++ sent)
    (hversion : receiver.version = sender.version) (hclean : link.Clean)
    (hremaining : link.remaining = sent.flatten) :
    (∃ frames last,
      (receiveAll messages.length).run (link, receiver) = (.ok frames, last) ∧
      frames.map (fun frame => (frame.header.protocol, frame.payload)) =
        messages.map (fun message => (message.1.id, message.2)) ∧
      last.1.remaining = [] ∧
      (2 ≤ sender.version → frames.map (·.header.txSeq) =
        (List.range messages.length).map fun i =>
          sender.txSeq + UInt16.ofNat i)) ∧
    (2 ≤ sender.version → ∀ (calls : List Call) (peer : ScriptedTransport),
      (∀ fault, Event.unsent fault ∉
        (performAll calls (peer, sender.resetSequences)).1) →
      Numbered sender.version 0 0xffff
        (performAll calls (peer, sender.resetSequences)).1) := by
  obtain ⟨hfits, hframes⟩ := sendAll_eq_ok hsend
  obtain rfl : sent = sender.framesOf messages :=
    List.append_cancel_left (hwritten.symm.trans hframes)
  exact ⟨run_receiveAll hfits hversion hclean hremaining,
    fun htwo calls peer haccepted =>
      @numbered_performAll peer sender.resetSequences htwo calls haccepted⟩

/-- Two messages at version 2, and a link that cuts the second frame's header. -/
theorem lossless_receiveAll_cutHeader :
    ∃ frames last, (receiveAll 2).run (({
        reads := [
          .ok [0, 0, 0, 6, 0, 0, 0, 19, 0xfe, 0xed, 0xfa, 0xce, 0, 0, 0xff, 0xff,
            1, 2, 3, 0, 0, 0],
          .ok [2, 0, 0, 0, 17, 0xfe, 0xed, 0xfa, 0xce, 0, 1, 0xff, 0xff, 7]] } :
        ScriptedTransport), { version := 2 }) = (.ok frames, last) ∧
      frames.map (fun frame => (frame.header.protocol, frame.payload)) =
        [(6, [1, 2, 3]), (2, [7])] := by
  have hclean : ScriptedTransport.Clean {
      reads := [
        .ok [0, 0, 0, 6, 0, 0, 0, 19, 0xfe, 0xed, 0xfa, 0xce, 0, 0, 0xff, 0xff,
          1, 2, 3, 0, 0, 0],
        .ok [2, 0, 0, 0, 17, 0xfe, 0xed, 0xfa, 0xce, 0, 1, 0xff, 0xff, 7]] } := by
    intro answer hmem
    simp only [List.mem_cons, List.not_mem_nil, or_false] at hmem
    rcases hmem with rfl | rfl
    · exact ⟨_, by simp, rfl⟩
    · exact ⟨_, by simp, rfl⟩
  obtain ⟨⟨frames, last, hrun, hframes, -⟩, -⟩ :=
    @lossless_receiveAll [(.tcp, [1, 2, 3]), (.setup, [7])] {} _
      (resetSequences { version := 2 }) { version := 2 } _ _ rfl
      (List.nil_append _).symm rfl hclean (by decide +kernel)
  exact ⟨frames, last, hrun, hframes⟩

end Ioscpp.Session
