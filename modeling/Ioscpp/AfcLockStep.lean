import Ioscpp.AfcLink

/-!
# Lock-step

A program is any sequence of calls on one client.  Against a device that answers
each request with one well-formed packet, of whatever operation and data, every
call leaves the stream where the next answer begins.  `Attributed` says more of
it: the reads were, request by request, the header and the data of the answer to
that request.

## Main results

- `keeps_perform`: every call leaves the client and the device in step, however it
  ends.
- `performAll_inStep`: so does every sequence of calls, and each reply is attributed
  to its own request.
-/

namespace Ioscpp.Afc

open Ioscpp.Support
open Ioscpp.Support.Action

/-! ## Programs -/

/-- A call of the client.  A transfer has a local file; a pull whose device never
ends the file is cut off after some turns. -/
inductive Call where
  | list (path : Bytes)
  | stat (path : Bytes)
  | pull (remote : Bytes) (file : TargetFile) (turns : Nat)
  | push (file : SourceFile) (remote : Bytes)
  | remove (path : Bytes)
  | makeDirectory (path : Bytes)
  | rename (source target : Bytes)

section Programs

variable {σ φ α : Type} [ByteStream σ]

/-- A transfer, with a local file that is gone when the call returns. -/
def withFile (file : φ) (x : Action Error ((σ × Afc) × φ) α) :
    Action Error (σ × Afc) α :=
  Action.zoom (fun state => (state, file)) (fun _ part => part.1) x

def Call.perform : Call → Action Error (σ × Afc) Unit
  | .list path => (fun _ => ()) <$> Afc.list path
  | .stat path => (fun _ => ()) <$> Afc.stat path
  | .pull remote file turns => withFile file (Afc.pull turns remote)
  | .push file remote => withFile file (Afc.push remote)
  | .remove path => Afc.remove path
  | .makeDirectory path => Afc.makeDirectory path
  | .rename source target => Afc.rename source target

/-- Runs the calls one after the other, whatever becomes of each. -/
def performAll (calls : List Call) (state : σ × Afc) : σ × Afc :=
  calls.foldl (fun state call => (call.perform.run state).2) state

end Programs

/-- A new client, on a stream to a device that answers. -/
def connected (answer : List Bytes → Reply) : AfcLink × Afc :=
  ({ respond := answering answer }, {})

/-! ## What an exchange keeps -/

/-- The reads are, request by request in the order they were sent, the header and the
data of the answer to that request. -/
inductive Attributed (answer : List Bytes → Reply) :
    List Bytes → List Bytes → Prop where
  | start : Attributed answer [] []
  | exchange {sent received : List Bytes} (packet : Bytes)
      (h : Attributed answer sent received) :
      Attributed answer (sent ++ [packet])
        (received ++ [(answer (sent ++ [packet])).header packet,
          (answer (sent ++ [packet])).data])

/-- The client and the device are in step. -/
structure InStep (answer : List Bytes → Reply) (state : AfcLink × Afc) :
    Prop where
  answering : state.1.respond = answering answer
  settled : state.1.Settled
  attributed : Attributed answer state.1.sent state.1.received

variable {answer : List Bytes → Reply}

theorem keeps_transact (operation : UInt64) (extra payload : Bytes) :
    Keeps (InStep answer) (transact operation extra payload) := by
  rintro ⟨link, ⟨number⟩⟩ h
  have hnext : InStep answer
      (link.exchange (requestPacket (number + 1) operation extra payload)
        ((answer (link.sent ++
          [requestPacket (number + 1) operation extra payload])).header
          (requestPacket (number + 1) operation extra payload))
        (answer (link.sent ++
          [requestPacket (number + 1) operation extra payload])).data,
        ⟨number + 1⟩) := by
    refine ⟨h.answering, h.settled.exchange _ _ _, ?_⟩
    have hstep := h.attributed.exchange
      (requestPacket (number + 1) operation extra payload)
    simpa [AfcLink.exchange, AfcLink.took, AfcLink.asked] using hstep
  rw [run_transact h.answering h.settled number operation extra payload rfl rfl]
  cases checkAnswer (answer (link.sent ++
      [requestPacket (number + 1) operation extra payload])).packet with
  | ok packet => exact hnext
  | error fault => exact hnext

/-! ## What the calls keep -/

theorem keeps_request (operation : UInt64) (extra : Bytes) :
    Keeps (InStep answer) (request operation extra) :=
  (keeps_transact _ _ _).bind fun _ => keeps_pure _

theorem keeps_list (path : Bytes) : Keeps (InStep answer) (list path) :=
  (keeps_transact _ _ _).bind fun _ => keeps_ite (keeps_fail _) (keeps_pure _)

theorem keeps_stat (path : Bytes) : Keeps (InStep answer) (stat path) := by
  refine (keeps_transact _ _ _).outcome.bind fun result => ?_
  split
  · exact keeps_pure _
  · exact keeps_pure _
  · exact keeps_lift _

theorem keeps_openFile (path : Bytes) (mode : UInt64) :
    Keeps (InStep answer) (openFile path mode) :=
  (keeps_transact _ _ _).bind fun _ => keeps_ite (keeps_fail _) (keeps_lift _)

section Transfers

variable {φ α : Type} {x : Action Error (AfcLink × Afc) α}

theorem keeps_onClient (h : Keeps (InStep answer) x) :
    Keeps (fun state : (AfcLink × Afc) × φ => InStep answer state.1)
      (onClient x) :=
  Keeps.zoom h fun _ _ => rfl

theorem keeps_onFile (y : Action Error φ α) :
    Keeps (fun state : (AfcLink × Afc) × φ => InStep answer state.1)
      (onFile y) :=
  keeps_zoom fun _ _ h => h

theorem keeps_withFile {file : φ} {y : Action Error ((AfcLink × Afc) × φ) α}
    (h : Keeps (fun state => InStep answer state.1) y) :
    Keeps (InStep answer) (withFile file y) :=
  Triple.zoom fun _ hstate => h.imp_pre fun _ heq => heq ▸ hstate

theorem keeps_pullLoop (handle : UInt64) (fuel : Nat) :
    Keeps (fun state : (AfcLink × Afc) × TargetFile => InStep answer state.1)
      (pullLoop handle fuel) := by
  induction fuel with
  | zero => exact keeps_lift _
  | succ fuel ih =>
      refine (keeps_onClient (keeps_transact _ _ _)).bind fun packet => ?_
      refine keeps_ite (keeps_pure _) ?_
      refine (keeps_onFile _).bind fun count => ?_
      exact keeps_ite (keeps_fail _) ih

theorem keeps_pull (fuel : Nat) (remote : Bytes) :
    Keeps (fun state : (AfcLink × Afc) × TargetFile => InStep answer state.1)
      (pull fuel remote) := by
  refine (keeps_onClient (keeps_openFile _ _)).bind fun handle => ?_
  refine (keeps_onFile _).bind fun opened => ?_
  refine keeps_ite ?_ (keeps_fail _)
  refine (keeps_pullLoop handle fuel).outcome.bind fun result => ?_
  refine (keeps_onFile _).bind fun _ => ?_
  exact (keeps_onClient (keeps_transact _ _ _)).outcome.bind fun _ =>
    keeps_lift _

theorem keeps_pushLoop (handle : UInt64) (fuel : Nat) :
    Keeps (fun state : (AfcLink × Afc) × SourceFile => InStep answer state.1)
      (pushLoop handle fuel) := by
  induction fuel with
  | zero => exact keeps_lift _
  | succ fuel ih =>
      refine (keeps_onFile _).bind fun chunk => ?_
      refine keeps_ite (keeps_pure _) ?_
      exact (keeps_onClient (keeps_transact _ _ _)).bind fun _ => ih

theorem keeps_push (remote : Bytes) :
    Keeps (fun state : (AfcLink × Afc) × SourceFile => InStep answer state.1)
      (push remote) := by
  refine Keeps.get_bind fun state => keeps_ite ?_ (keeps_fail _)
  refine (keeps_onClient (keeps_openFile _ _)).bind fun handle => ?_
  refine (keeps_pushLoop handle _).outcome.bind fun result => ?_
  exact (keeps_onClient (keeps_transact _ _ _)).outcome.bind fun _ =>
    keeps_lift _

end Transfers

/-- Every call leaves the client and the device in step, however it ends: a call that
fails has read the answers to what it sent. -/
theorem keeps_perform (call : Call) : Keeps (InStep answer) call.perform := by
  cases call with
  | list path => exact (keeps_list path).map _
  | stat path => exact (keeps_stat path).map _
  | pull remote file turns => exact keeps_withFile (keeps_pull turns remote)
  | push file remote => exact keeps_withFile (keeps_push remote)
  | remove path => exact keeps_request _ _
  | makeDirectory path => exact keeps_request _ _
  | rename source target => exact keeps_request _ _

theorem inStep_connected (answer : List Bytes → Reply) :
    InStep answer (connected answer) :=
  ⟨rfl, ⟨rfl, rfl⟩, .start⟩

theorem InStep.performAll {state : AfcLink × Afc} (h : InStep answer state)
    (calls : List Call) : InStep answer (Afc.performAll calls state) := by
  induction calls generalizing state with
  | nil => exact h
  | cons call calls ih => exact ih ((keeps_perform call).state h)

/-- After any calls, as many replies were read as requests were sent, nothing
more was sent by the device, each reply was read as the answer to its own
request, and the next request gets the verdict on its own answer. -/
theorem performAll_inStep (answer : List Bytes → Reply) (calls : List Call) :
    let state := performAll calls (connected answer)
    state.1.repliesConsumed = state.1.sent.length ∧
      state.1.incoming = [] ∧
      Attributed answer state.1.sent state.1.received ∧
      ∀ operation extra payload,
        ((transact operation extra payload).run state).1 =
          checkAnswer (answer (state.1.sent ++
            [requestPacket (state.2.packetNum + 1) operation extra
              payload])).packet := by
  intro state
  have h : InStep answer state := (inStep_connected answer).performAll calls
  refine ⟨h.settled.repliesConsumed, ?_, h.attributed, ?_⟩
  · rw [AfcLink.incoming, h.settled.1, List.drop_length]
  · intro operation extra payload
    have hrun := run_transact h.answering h.settled state.2.packetNum operation
      extra payload rfl rfl
    exact congrArg Prod.fst hrun

end Ioscpp.Afc
