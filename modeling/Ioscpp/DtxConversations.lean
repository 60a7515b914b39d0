import Ioscpp.DtxChannel
import Ioscpp.DtxConnectionAwait

/-!
# Conversations on a DTX connection

A conversation is a list of requests on one connection, each sent after the one
before it was answered, while the device may send messages of its own at any
time.  It has a turn for each request: the question as it was sent, the messages
that were read before the reply, and the reply.  The turns are cut from the
messages that arrive, and the connection's bytes, its queue and its results are
what the turns say (`run_askAll`).

## Main results

- `run_sendAndAwaitReply_cut`: a request takes the turn of the messages that arrive.
- `run_askAll`: the results, the bytes and the queue of a conversation are those of
  its turns.
-/

namespace Ioscpp.DtxConnection

open Ioscpp.Support
open Ioscpp.Protocol

instance (identifier : UInt32) : DecidablePred (Answers identifier) :=
  fun message => inferInstanceAs (Decidable (message.identifier = identifier ∧
    0 < message.conversationIndex))

/-! ## Turns -/

/-- A request as it was sent, and what was read for it: the messages that do not answer
it, and the one that does, if it came. -/
structure Turn where
  question : Dtx
  skipped : List Dtx
  reply : Option Dtx
  deriving DecidableEq, Repr

def endedEarly : Error := ⟨.io, ascii "the stream ended early"⟩

namespace Turn

/-- The messages that were read. -/
def taken (turn : Turn) : List Dtx := turn.skipped ++ turn.reply.toList

/-- The bytes that were written: the question, and an acknowledgement of each
message that was read and expects one. -/
def bytes (turn : Turn) : Bytes :=
  turn.question.encode ++ turn.taken.flatMap Dtx.ackBytes

/-- What the caller is given. -/
def outcome (turn : Turn) : Result Dtx :=
  match turn.reply with
  | some reply => .ok reply.received
  | none => .error (.error endedEarly)

/-- The turn of a question when `messages` arrive. -/
def cut (question : Dtx) (messages : List Dtx) : Turn where
  question
  skipped := messages.takeWhile fun message =>
    ¬ Answers question.identifier message
  reply := messages.find? fun message => Answers question.identifier message

/-- A turn took its reply, and queued what does not answer its question. -/
structure Proper (turn : Turn) : Prop where
  skipped : ∀ message ∈ turn.skipped, ¬ Answers turn.question.identifier message
  reply : ∀ message ∈ turn.reply, Answers turn.question.identifier message

theorem proper_cut (question : Dtx) (messages : List Dtx) :
    (cut question messages).Proper where
  skipped := by
    intro message hmem
    simpa [cut] using List.mem_takeWhile_imp hmem
  reply := by
    intro message hmem
    simpa [cut] using List.find?_some hmem

/-- The messages are those of the turn and those after it, of which there are
none when no reply came. -/
theorem cut_cases (question : Dtx) (messages : List Dtx) :
    ((cut question messages).reply = none ∧
      messages = (cut question messages).skipped) ∨
    ∃ reply left, (cut question messages).reply = some reply ∧
      messages = (cut question messages).skipped ++ reply :: left := by
  induction messages with
  | nil => exact .inl ⟨rfl, rfl⟩
  | cons message rest ih =>
      by_cases h : Answers question.identifier message
      · refine .inr ⟨message, rest, ?_, ?_⟩
        · simp [cut, h]
        · simp [cut, h]
      · have hskipped : (cut question (message :: rest)).skipped =
            message :: (cut question rest).skipped := by
          simp [cut, h]
        have hreply : (cut question (message :: rest)).reply =
            (cut question rest).reply := by
          simp [cut, h]
        rw [hskipped, hreply]
        rcases ih with ⟨hnone, hall⟩ | ⟨reply, left, hsome, hall⟩
        · exact .inl ⟨hnone, congrArg _ hall⟩
        · exact .inr ⟨reply, left, hsome, congrArg _ hall⟩

end Turn

/-! ## One request -/

section Ask

variable {connection : DtxConnection MemoryByteStream} {messages : List Dtx}

/-- The connection after the turn of a request. -/
def afterTurn (connection : DtxConnection MemoryByteStream) (request : Dtx)
    (turn : Turn) (left : List Dtx) : DtxConnection MemoryByteStream :=
  { afterRequest connection request with
    stream := ⟨left.flatMap Dtx.encode, connection.stream.written ++ turn.bytes⟩
    pending := connection.pending ++ turn.skipped.map Dtx.received }

/-- The messages that a turn leaves. -/
def leftOver (turn : Turn) (messages : List Dtx) : List Dtx :=
  messages.drop turn.taken.length

theorem taken_append_leftOver (question : Dtx) (messages : List Dtx) :
    (Turn.cut question messages).taken ++
      leftOver (Turn.cut question messages) messages = messages := by
  rcases Turn.cut_cases question messages with
    ⟨hnone, hall⟩ | ⟨reply, left, hsome, hall⟩
  · rw [leftOver, Turn.taken, hnone, Option.toList_none, List.append_nil, ← hall]
    simp
  · have htaken : (Turn.cut question messages).taken =
        (Turn.cut question messages).skipped ++ [reply] := by
      rw [Turn.taken, hsome, Option.toList_some]
    have hsplit : messages = (Turn.cut question messages).taken ++ left := by
      rw [htaken, List.append_assoc]
      exact hall
    rw [leftOver]
    generalize Turn.cut question messages = turn at hsplit
    rw [hsplit, List.drop_left]

/-- A request has the turn of the messages that arrive: its result, the queue and the
bytes written are those of the turn, and the messages behind the turn are left. -/
theorem run_sendAndAwaitReply_cut (request : Dtx)
    (hframed : ∀ message ∈ messages, message.Framed)
    (hincoming : connection.stream.incoming = messages.flatMap Dtx.encode)
    {fuel : Nat} (hfuel : messages.length < fuel) :
    (sendAndAwaitReply fuel request).run connection =
      ((Turn.cut (sentRequest connection request) messages).outcome,
        afterTurn connection request
          (Turn.cut (sentRequest connection request) messages)
          (leftOver (Turn.cut (sentRequest connection request) messages)
            messages)) := by
  have hproper := Turn.proper_cut (sentRequest connection request) messages
  have hquestion : (Turn.cut (sentRequest connection request) messages).question =
    sentRequest connection request := rfl
  have hsplit := taken_append_leftOver (sentRequest connection request) messages
  have hcases := Turn.cut_cases (sentRequest connection request) messages
  generalize Turn.cut (sentRequest connection request) messages = turn at *
  generalize hleft : leftOver turn messages = left at *
  obtain ⟨question, skipped, reply⟩ := turn
  obtain rfl : question = sentRequest connection request := hquestion
  cases reply with
  | none =>
      have hall : messages = skipped := by simpa using hcases
      obtain rfl : left = [] := by
        simpa [Turn.taken, ← hall] using hsplit
      rw [sendAndAwaitReply_noReply connection request hframed
        (fun message hmem => hproper.skipped message (hall ▸ hmem)) hincoming hfuel]
      simp [Turn.outcome, afterTurn, queued, afterRequest, Turn.bytes, Turn.taken,
        endedEarly, hall]
  | some reply =>
      have hall : messages = skipped ++ reply :: left := by
        simpa [Turn.taken] using hsplit.symm
      have hstream : (afterRequest connection request).stream.incoming =
          skipped.flatMap Dtx.encode ++
            (reply.encode ++ left.flatMap Dtx.encode) := by
        rw [afterRequest, hincoming, hall]
        simp
      have hmem : ∀ message ∈ skipped, message ∈ messages := by
        intro message hmessage
        rw [hall]
        exact List.mem_append_left _ hmessage
      have hreply : reply ∈ messages := by
        rw [hall]
        simp
      have hlength : skipped.length < fuel := by
        rw [hall, List.length_append] at hfuel
        omega
      rw [run_sendAndAwaitReply, run_awaitReply
        (fun message hmessage => hframed message (hmem message hmessage))
        hproper.skipped (hframed reply hreply) (hproper.reply reply rfl) hstream
        hlength]
      simp [Turn.outcome, afterTurn, afterRequest, Turn.bytes, Turn.taken]

end Ask

/-! ## A conversation -/

/-- The request as it is sent, when `next` is the next identifier. -/
def numbered (next : UInt32) (request : Dtx) : Dtx :=
  { request with
    identifier := if request.identifier = 0 then next else request.identifier
    conversationIndex := 0
    expectsReply := true }

/-- The next identifier after a request. -/
def nextAfter (next : UInt32) (request : Dtx) : UInt32 :=
  if request.identifier = 0 then next + 1 else next

/-- The turns of the requests when `messages` arrive, and the messages that are
left. -/
def transcript : UInt32 → List Dtx → List Dtx → List Turn × List Dtx
  | _, [], messages => ([], messages)
  | next, request :: rest, messages =>
      let turn := Turn.cut (numbered next request) messages
      let (turns, left) := transcript (nextAfter next request) rest
        (leftOver turn messages)
      (turn :: turns, left)

/-- Sends each request in its turn; a caller goes on when one fails. -/
def askAll {σ : Type} [ByteStream σ] (fuel : Nat) :
    List Dtx → DtxConnection σ → List (Result Dtx) × DtxConnection σ
  | [], connection => ([], connection)
  | request :: rest, connection =>
      let (result, next) := (sendAndAwaitReply fuel request).run connection
      let (results, last) := askAll fuel rest next
      (result :: results, last)

section Transcript

variable {next : UInt32} {requests messages : List Dtx}

/-- The questions of a conversation. -/
def questions : UInt32 → List Dtx → List Dtx
  | _, [] => []
  | next, request :: rest =>
      numbered next request :: questions (nextAfter next request) rest

theorem question_transcript (next : UInt32) (requests messages : List Dtx) :
    (transcript next requests messages).1.map Turn.question =
      questions next requests := by
  induction requests generalizing next messages with
  | nil => rfl
  | cons request rest ih =>
      have hrest := ih (nextAfter next request)
        (leftOver (Turn.cut (numbered next request) messages) messages)
      exact congrArg (numbered next request :: ·) hrest

/-- Every message that arrives is in one turn, or is left. -/
theorem taken_transcript (next : UInt32) (requests messages : List Dtx) :
    (transcript next requests messages).1.flatMap Turn.taken ++
      (transcript next requests messages).2 = messages := by
  induction requests generalizing next messages with
  | nil => rfl
  | cons request rest ih =>
      have hrest := ih (nextAfter next request)
        (leftOver (Turn.cut (numbered next request) messages) messages)
      rw [transcript, List.flatMap_cons, List.append_assoc, hrest]
      exact taken_append_leftOver _ _

theorem proper_transcript {next : UInt32} {requests messages : List Dtx}
    {turn : Turn} (h : turn ∈ (transcript next requests messages).1) :
    turn.Proper := by
  induction requests generalizing next messages with
  | nil => cases h
  | cons request rest ih =>
      rcases List.mem_cons.mp h with rfl | h
      · exact Turn.proper_cut _ _
      · exact ih h

/-- A turn without a reply has read the last of the messages. -/
theorem exhausted_transcript {next : UInt32} {requests messages : List Dtx}
    {index : Nat} {turn : Turn}
    (h : (transcript next requests messages).1[index]? = some turn)
    (hnone : turn.reply = none) :
    ((transcript next requests messages).1.take (index + 1)).flatMap Turn.taken =
      messages := by
  induction requests generalizing next messages index with
  | nil => cases h
  | cons request rest ih =>
      have hsplit := taken_append_leftOver (numbered next request) messages
      cases index with
      | zero =>
          obtain rfl : Turn.cut (numbered next request) messages = turn := by
            simpa [transcript] using h
          rcases Turn.cut_cases (numbered next request) messages with
            ⟨-, hall⟩ | ⟨reply, left, hsome, -⟩
          · rw [transcript, List.take_succ_cons, List.take_zero, List.flatMap_cons,
              List.flatMap_nil, List.append_nil, Turn.taken, hnone,
              Option.toList_none, List.append_nil, ← hall]
          · rw [hnone] at hsome
            cases hsome
      | succ index =>
          have hrest := @ih (nextAfter next request)
            (leftOver (Turn.cut (numbered next request) messages) messages) index h
          rw [transcript, List.take_succ_cons, List.flatMap_cons, hrest, hsplit]

end Transcript

/-- The results, the bytes and the queue of a conversation are those of its
turns. -/
theorem run_askAll {connection : DtxConnection MemoryByteStream}
    {requests messages : List Dtx} {fuel : Nat}
    (hframed : ∀ message ∈ messages, message.Framed)
    (hincoming : connection.stream.incoming = messages.flatMap Dtx.encode)
    (hfuel : messages.length < fuel) :
    askAll fuel requests connection =
      ((transcript connection.nextIdentifier requests messages).1.map Turn.outcome,
        { connection with
          stream := ⟨(transcript connection.nextIdentifier requests
              messages).2.flatMap Dtx.encode,
            connection.stream.written ++ (transcript connection.nextIdentifier
              requests messages).1.flatMap Turn.bytes⟩
          nextIdentifier :=
            requests.foldl nextAfter connection.nextIdentifier
          pending := connection.pending ++ ((transcript connection.nextIdentifier
            requests messages).1.flatMap Turn.skipped).map Dtx.received }) := by
  induction requests generalizing connection messages with
  | nil =>
      obtain ⟨⟨incoming, written⟩, nextIdentifier, nextChannelCode, pending⟩ :=
        connection
      obtain rfl : incoming = messages.flatMap Dtx.encode := hincoming
      simp [askAll, transcript]
  | cons request rest ih =>
      have hrun := run_sendAndAwaitReply_cut request hframed hincoming hfuel
      have hsplit := taken_append_leftOver (sentRequest connection request) messages
      have hrest := @ih (afterTurn connection request
          (Turn.cut (sentRequest connection request) messages) _) _
        (fun message hmem =>
          hframed message (hsplit ▸ List.mem_append_right _ hmem)) rfl (by
          have hlength := congrArg List.length hsplit
          rw [List.length_append] at hlength
          omega)
      rw [askAll, hrun]
      dsimp only
      rw [hrest]
      have hnumbered : sentRequest connection request =
          numbered connection.nextIdentifier request := rfl
      have hnext : (afterRequest connection request).nextIdentifier =
          nextAfter connection.nextIdentifier request := rfl
      rw [hnumbered]
      simp only [afterTurn, hnext, transcript, List.map_cons, List.flatMap_cons,
        List.map_append, List.append_assoc, List.foldl_cons]
      rfl

end Ioscpp.DtxConnection
