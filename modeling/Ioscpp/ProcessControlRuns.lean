import Ioscpp.DtxConversations
import Ioscpp.ProcessControl

/-!
# Runs of process-control calls

A caller makes any calls in any order, and may go on when one of them fails.  The
calls are the requests of one DTX conversation, and each gives its own verdict on
the reply of its own turn.

## Main results

- `performAll_eq`: a run of calls is a conversation of their requests.
- `performAll_turns`: it is cut into one turn for each call, whatever messages arrive.
-/

namespace Ioscpp.ProcessControl

open Ioscpp.Support
open Ioscpp.Protocol
open Ioscpp.DtxConnection (Turn transcript questions numbered nextAfter askAll)

/-! ## Calls -/

/-- What a caller can ask for. -/
inductive Call where
  | launch (bundleId : Bytes) (arguments : List Bytes)
      (killExisting startSuspended : Bool)
  | processIdentifier (bundleId : Bytes)
  | isRunning (bundleId : Bytes)
  | kill (pid : UInt64)
  deriving DecidableEq, Repr

/-- What a call returns. -/
inductive Answer where
  | pid (value : UInt64)
  | running (value : Bool)
  | killed
  deriving DecidableEq, Repr

namespace Call

variable {σ : Type} [ByteStream σ]

def perform (fuel : Nat) : Call → Action Error (ProcessControl σ) Answer
  | launch bundleId arguments killExisting startSuspended =>
      Answer.pid <$> ProcessControl.launch fuel bundleId arguments killExisting
        startSuspended
  | processIdentifier bundleId =>
      Answer.pid <$> ProcessControl.processIdentifier fuel bundleId
  | isRunning bundleId => Answer.running <$> ProcessControl.isRunning fuel bundleId
  | kill pid => (fun _ => Answer.killed) <$> ProcessControl.kill fuel pid

def selector : Call → Bytes
  | launch .. => kLaunchSelector
  | processIdentifier _ | isRunning _ => kProcessIdentifierSelector
  | kill _ => kSignalSelector

def arguments : Call → List Plist
  | launch bundleId arguments killExisting startSuspended =>
      launchArguments bundleId arguments killExisting startSuspended
  | processIdentifier bundleId | isRunning bundleId => [.string bundleId]
  | kill pid => [.integer kSigkill, .integer pid.toInt64]

/-- What a call makes of its reply. -/
def verdict (reply : Dtx) : Call → Result Answer
  | launch .. => Answer.pid <$> replyPid reply (ascii "the launch")
  | processIdentifier _ =>
      Answer.pid <$> replyPid reply (ascii "the process lookup")
  | isRunning _ => Answer.running <$> (fun pid => decide (pid ≠ 0)) <$>
      replyPid reply (ascii "the process lookup")
  | kill _ => (fun _ => Answer.killed) <$> replyDone reply

/-- The request of a call on a channel. -/
def request (channelCode : Int32) (call : Call) : Dtx :=
  DtxConnection.invocation channelCode call.selector
    (call.arguments.map fun argument => .buffer (KeyedArchive.archive argument))

/-- The result of a call in its turn. -/
def result (call : Call) (turn : Turn) : Result Answer := do
  let reply ← turn.outcome
  call.verdict reply

end Call

variable {σ : Type} [ByteStream σ]

/-- The calls in their order, each with its result. -/
def performAll (fuel : Nat) :
    List Call → ProcessControl σ → List (Result Answer) × ProcessControl σ
  | [], control => ([], control)
  | call :: rest, control =>
      let (result, next) := (call.perform fuel).run control
      let (results, last) := performAll fuel rest next
      (result :: results, last)

/-! ## Calls as requests -/

section Requests

variable {control : ProcessControl σ}

/-- A method call on an open channel is its request on the connection. -/
theorem run_callMethod (h : control.channel.attached = true) (fuel : Nat)
    (call : Call) :
    (callMethod fuel call.selector call.arguments).run control =
      ((DtxConnection.sendAndAwaitReply fuel
          (call.request control.channel.code)).run control.connection).map id
        fun connection => { control with connection } := by
  rw [callMethod, Action.run_bind_ok (Action.run_get control), onConnection,
    Action.run_zoom, DtxChannel.methodCall, DtxChannel.methodCallWithAuxiliary,
    if_pos h]
  rfl

/-- A call is a method call, and its verdict on the reply. -/
theorem perform_eq (fuel : Nat) (call : Call) :
    (call.perform fuel : Action Error (ProcessControl σ) Answer) = (do
      let reply ← callMethod fuel call.selector call.arguments
      Action.lift (call.verdict reply)) := by
  have hlift : ∀ {α β : Type} (f : α → β) (result : Result α),
      f <$> (Action.lift result : Action Error (ProcessControl σ) α) =
        Action.lift (f <$> result) := by
    intro α β f result
    funext control
    cases result <;> rfl
  cases call with
  | launch bundleId arguments killExisting startSuspended =>
      simp only [Call.perform, launch, map_bind, hlift]
      rfl
  | processIdentifier bundleId =>
      simp only [Call.perform, processIdentifier, map_bind, hlift]
      rfl
  | isRunning bundleId =>
      simp only [Call.perform, isRunning, processIdentifier, map_bind,
        bind_pure_comp, hlift]
      rfl
  | kill pid =>
      simp only [Call.perform, kill, map_bind, hlift]
      rfl

theorem run_perform (h : control.channel.attached = true) (fuel : Nat)
    (call : Call) {reply : Result Dtx} {next : DtxConnection σ}
    (hrun : (DtxConnection.sendAndAwaitReply fuel
      (call.request control.channel.code)).run control.connection =
        (reply, next)) :
    (call.perform fuel).run control =
      (reply >>= fun reply => call.verdict reply,
        { control with connection := next }) := by
  have hmethod := run_callMethod h fuel call
  rw [hrun] at hmethod
  rw [perform_eq, Action.run_bind, hmethod]
  cases reply <;> rfl

/-- A run of calls is a conversation of their requests: each call has the verdict on its
own reply, and only the connection changes. -/
theorem performAll_eq (h : control.channel.attached = true) (fuel : Nat)
    (calls : List Call) :
    performAll fuel calls control =
      (List.zipWith (fun call reply => reply >>= fun reply => call.verdict reply)
          calls (askAll fuel (calls.map (·.request control.channel.code))
            control.connection).1,
        { control with connection := (askAll fuel
          (calls.map (·.request control.channel.code)) control.connection).2 }) := by
  induction calls generalizing control with
  | nil => rfl
  | cons call rest ih =>
      rcases hrun : (DtxConnection.sendAndAwaitReply fuel
        (call.request control.channel.code)).run control.connection with
        ⟨reply, next⟩
      have hrest := @ih { control with connection := next } h
      rw [performAll, run_perform h fuel call hrun]
      dsimp only
      rw [hrest, List.map_cons, askAll, hrun]
      rfl

end Requests

/-! ## The questions -/

/-- The question of the call at a place of a run, whose first identifier is
`next`. -/
def question (next : UInt32) (code : Int32) (call : Call) (index : Nat) : Dtx :=
  { call.request code with
    identifier := next + UInt32.ofNat index
    expectsReply := true }

theorem nextAfter_request (next : UInt32) (code : Int32) (call : Call) :
    nextAfter next (call.request code) = next + 1 := if_pos rfl

/-- The calls of a run are numbered in their order. -/
theorem questions_requests (next : UInt32) (code : Int32) (calls : List Call) :
    questions next (calls.map (·.request code)) =
      calls.zipIdx.map fun (call, index) => question next code call index := by
  suffices h : ∀ start : Nat,
      questions (next + UInt32.ofNat start) (calls.map (·.request code)) =
        (calls.zipIdx start).map fun (call, index) =>
          question next code call index by
    simpa using h 0
  intro start
  induction calls generalizing start with
  | nil => rfl
  | cons call rest ih =>
      have hnext : nextAfter (next + UInt32.ofNat start) (call.request code) =
          next + UInt32.ofNat (start + 1) := by
        rw [nextAfter_request, UInt32.ofNat_add, UInt32.add_assoc]
        rfl
      rw [List.map_cons, questions, hnext, ih, List.zipIdx_cons, List.map_cons]
      rfl

theorem nextAfter_requests (next : UInt32) (code : Int32) (calls : List Call) :
    (calls.map (·.request code)).foldl nextAfter next =
      next + UInt32.ofNat calls.length := by
  induction calls generalizing next with
  | nil => simp
  | cons call rest ih =>
      rw [List.map_cons, List.foldl_cons, ih, nextAfter_request, List.length_cons,
        Nat.add_comm, UInt32.ofNat_add, UInt32.add_assoc]
      rfl

/-! ## A run -/

/-- Whatever messages arrive, and however the device mixes its own with the
replies, a run of calls is cut into one turn for each call.  The turn asks the
call's question, gives the call the first message that answers it, and queues
those before it; a call lacks a reply only when all that arrived was read.  What
is written is the questions, with an acknowledgement of each message that was
read and expects one. -/
theorem performAll_turns {control : ProcessControl MemoryByteStream}
    (hattached : control.channel.attached = true) {messages : List Dtx}
    (hframed : ∀ message ∈ messages, message.Framed)
    (hincoming : control.connection.stream.incoming =
      messages.flatMap Dtx.encode)
    {fuel : Nat} (hfuel : messages.length < fuel) (calls : List Call) :
    ∃ (turns : List Turn) (left : List Dtx),
      turns.map Turn.question = calls.zipIdx.map (fun (call, index) =>
        question control.connection.nextIdentifier control.channel.code call
          index) ∧
      turns.flatMap Turn.taken ++ left = messages ∧
      (∀ turn ∈ turns, turn.Proper) ∧
      (∀ index turn, turns[index]? = some turn → turn.reply = none →
        (turns.take (index + 1)).flatMap Turn.taken = messages) ∧
      performAll fuel calls control = (List.zipWith Call.result calls turns,
        { control with
          connection := { control.connection with
            stream := ⟨left.flatMap Dtx.encode,
              control.connection.stream.written ++ turns.flatMap Turn.bytes⟩
            nextIdentifier := control.connection.nextIdentifier +
              UInt32.ofNat calls.length
            pending := control.connection.pending ++
              (turns.flatMap Turn.skipped).map Dtx.received } }) := by
  refine ⟨(transcript control.connection.nextIdentifier
      (calls.map (·.request control.channel.code)) messages).1,
    (transcript control.connection.nextIdentifier
      (calls.map (·.request control.channel.code)) messages).2, ?_, ?_, ?_, ?_, ?_⟩
  · rw [DtxConnection.question_transcript, questions_requests]
  · exact DtxConnection.taken_transcript _ _ _
  · exact fun turn hmem => DtxConnection.proper_transcript hmem
  · exact fun index turn hturn hnone =>
      DtxConnection.exhausted_transcript hturn hnone
  · rw [performAll_eq hattached,
      DtxConnection.run_askAll hframed hincoming hfuel, nextAfter_requests,
      List.zipWith_map_right]
    rfl

/-- A launch that is refused, after a notification, and a kill that is not
answered. -/
theorem performAll_turns_launched :
    let notification : Dtx := { identifier := 7, messageType := .object }
    let reply : Dtx :=
      { identifier := 1, conversationIndex := 1, messageType := .error }
    let control : ProcessControl MemoryByteStream :=
      { connection := { stream := ⟨[notification, reply].flatMap Dtx.encode, []⟩ }
        channel := { attached := true, code := 1 } }
    ∃ (turns : List Turn) (left : List Dtx),
      turns.flatMap Turn.taken ++ left = [notification, reply] ∧
      (performAll 3 [.launch (ascii "app") [] true false, .kill 4] control).1 =
        List.zipWith Call.result
          [.launch (ascii "app") [] true false, .kill 4] turns := by
  intro notification reply control
  obtain ⟨turns, left, -, htaken, -, -, hrun⟩ :=
    @performAll_turns control rfl [notification, reply] (by
      intro message hmem
      simp only [List.mem_cons, List.not_mem_nil, or_false] at hmem
      rcases hmem with rfl | rfl
      · exact ⟨by decide, by decide⟩
      · exact ⟨by decide, by decide⟩) rfl 3 (by decide)
      [.launch (ascii "app") [] true false, .kill 4]
  exact ⟨turns, left, htaken, congrArg Prod.fst hrun⟩

end Ioscpp.ProcessControl
