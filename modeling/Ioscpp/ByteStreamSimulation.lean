import Ioscpp.DtxConversations
import Ioscpp.Lockdown
import Ioscpp.Support.Simulation

/-!
# Services over any stream

A service codec rides any byte stream, and what is proved of one over a stream in
memory is meant for the others.  `CarriesBytes R` says that a stream reads and writes
as the one in memory that `R` relates it to, while that one has the bytes.  Then a
service over the stream returns what it returns in memory, step by step.

## Main results

- `requestAll_carried`: requests over a stream that carries bytes give what their own
  answers say.
- `askAll_carried`: a conversation over such a stream is the one over a stream in
  memory.
-/

namespace Ioscpp

open Ioscpp.Support
open Ioscpp.Support.Action
open Ioscpp.Protocol

/-- A stream does what the one in memory does: where a read or a write of that one
succeeds, its own gives the same, and the two stay related. -/
structure CarriesBytes {σ : Type} [ByteStream σ] (R : σ → MemoryByteStream → Prop) :
    Prop where
  readExact : ∀ count, Simulates R (ByteStream.readExact count)
    (ByteStream.readExact count)
  write : ∀ data, Simulates R (ByteStream.write data)
    (ByteStream.write data)

section Services

variable {σ : Type} [ByteStream σ] {R : σ → MemoryByteStream → Prop}

/-- What is read next. -/
theorem CarriesBytes.run_readExact (h : CarriesBytes R) {stream : σ}
    {rest written : Bytes} (hR : R stream ⟨rest, written⟩) {count : Nat}
    (hcount : count ≤ rest.length) :
    ((ByteStream.readExact count).run stream).1 = .ok (rest.take count) := by
  obtain ⟨next, hrun, -⟩ := h.readExact count hR
    (MemoryByteStream.run_readExact_of_le ⟨rest, written⟩ hcount)
  rw [hrun]

/-! ## Property lists -/

namespace PlistService

theorem simulates_receive
    (h : ∀ count, Simulates R (ByteStream.readExact count)
      (ByteStream.readExact count)) :
    Simulates R receive receive := by
  refine (h 4).bind fun lengthBytes => ?_
  refine .ite (fun _ => .fail _ _) fun _ => ?_
  exact (h _).bind fun body => .lift _

end PlistService

/-! ## Lockdown -/

namespace Lockdown

/-- The requests in their order, each with its outcome; a caller goes on after an
answer that is an error. -/
def requestAll {τ : Type} [ByteStream τ] :
    List Plist → τ → List (Result Plist) × τ
  | [], stream => ([], stream)
  | message :: rest, stream =>
      let (result, next) := (request message).run stream
      let (results, last) := requestAll rest next
      (result :: results, last)

theorem simulates_exchange (h : CarriesBytes R) (message : Plist) :
    Simulates R (exchange message) (exchange message) := by
  refine (h.write _).bind fun _ => (h.readExact 4).bind fun lengthBytes => ?_
  refine .ite (fun _ => .fail _ _) fun _ => ?_
  exact (h.readExact _).bind fun answer => .lift _

/-- An exchange in memory whose answer can be parsed is one over the stream. -/
theorem run_request_carried (h : CarriesBytes R) {stream : σ}
    {memory next : MemoryByteStream} (hR : R stream memory) {message answer : Plist}
    (hrun : (exchange message).run memory = (.ok answer, next)) :
    ∃ after, (request message).run stream = (checkAnswer answer, after) ∧
      R after next := by
  obtain ⟨after, hafter, hnext⟩ := simulates_exchange h message hR hrun
  refine ⟨after, ?_, hnext⟩
  rw [request_eq, Action.run_bind_ok hafter, Action.run_lift]

/-- A run of requests over any such stream: each gives what its own answer says,
the requests are what was written, and what follows the answers is left. -/
theorem requestAll_carried (h : CarriesBytes R) {stream : σ}
    {exchanges : List Exchange} {written rest : Bytes}
    (hanswers : ∀ exchange ∈ exchanges, exchange.Answered)
    (hR : R stream ⟨answersOf exchanges ++ rest, written⟩) :
    ∃ last, requestAll (exchanges.map Exchange.request) stream =
        (exchanges.map fun exchange => checkAnswer exchange.answer, last) ∧
      R last ⟨rest, written ++ requestsOf exchanges⟩ := by
  rw [answersOf] at hR
  rw [requestsOf]
  induction exchanges generalizing stream written with
  | nil => exact ⟨stream, rfl, by simpa using hR⟩
  | cons exchange exchanges ih =>
      obtain ⟨hanswer, hothers⟩ := List.forall_mem_cons.mp hanswers
      rw [List.flatMap_cons, List.append_assoc] at hR
      obtain ⟨after, hrequest, hafter⟩ := run_request_carried h hR
        (run_exchange hanswer exchange.request written _)
      obtain ⟨last, hrest, hlast⟩ := ih hothers hafter
      refine ⟨last, ?_, ?_⟩
      · rw [List.map_cons, requestAll, hrequest]
        dsimp only
        rw [hrest]
        rfl
      · rw [List.flatMap_cons, ← List.append_assoc]
        exact hlast

end Lockdown

/-! ## DTX -/

namespace DtxConnection

/-- Connections that differ in their streams. -/
structure OnStreams (R : σ → MemoryByteStream → Prop) (connection : DtxConnection σ)
    (memory : DtxConnection MemoryByteStream) : Prop where
  stream : R connection.stream memory.stream
  nextIdentifier : connection.nextIdentifier = memory.nextIdentifier
  nextChannelCode : connection.nextChannelCode = memory.nextChannelCode
  pending : connection.pending = memory.pending

omit [ByteStream σ] in
theorem simulates_onStream {α : Type} {x : Action Error σ α}
    {y : Action Error MemoryByteStream α} (h : Simulates R x y) :
    Simulates (OnStreams R) (onStream x) (onStream y) :=
  h.zoom (fun _ _ hR => hR.stream)
    fun _ _ _ _ hR hpart => ⟨hpart, hR.nextIdentifier, hR.nextChannelCode,
      hR.pending⟩

theorem simulates_receive (h : CarriesBytes R) :
    Simulates (OnStreams R) receive receive := by
  have hmessage : ∀ message : Dtx, Simulates (OnStreams R)
      (if message.expectsReply then do
        send (Dtx.ack message)
        return message
      else return message)
      (if message.expectsReply then do
        send (Dtx.ack message)
        return message
      else return message) := fun message =>
    .ite (fun _ => (simulates_onStream (h.write _)).bind fun _ => .pure _)
      fun _ => .pure _
  refine (simulates_onStream (h.readExact _)).bind fun header => ?_
  refine Simulates.bind (.lift _) fun sizes => ?_
  refine .ite (fun _ => ?_) fun _ => ?_
  · refine (simulates_onStream (h.readExact _)).bind fun rest => ?_
    exact Simulates.bind (.lift _) hmessage
  · refine Simulates.bind (.pure []) fun rest => ?_
    exact Simulates.bind (.lift _) hmessage

theorem simulates_awaitReply (h : CarriesBytes R) (identifier : UInt32) (fuel : Nat) :
    Simulates (OnStreams R) (awaitReply identifier fuel)
      (awaitReply identifier fuel) := by
  induction fuel with
  | zero => exact .lift _
  | succ fuel ih =>
      refine (simulates_receive h).bind fun message =>
        .ite (fun _ => .pure _) fun _ => ?_
      refine Simulates.bind (.modify fun connection memory hR => ?_) fun _ => ih
      exact ⟨hR.stream, hR.nextIdentifier, hR.nextChannelCode,
        congrArg (· ++ [message]) hR.pending⟩

theorem simulates_sendAndAwaitReply (h : CarriesBytes R) (fuel : Nat) (request : Dtx) :
    Simulates (OnStreams R) (sendAndAwaitReply fuel request)
      (sendAndAwaitReply fuel request) := by
  refine Simulates.bind (.get_bind fun connection memory hR => ?_) fun request => ?_
  · refine .ite (fun _ => ?_) fun _ => .pure _
    rw [hR.nextIdentifier]
    refine Simulates.bind (.set ⟨hR.stream, rfl, hR.nextChannelCode, hR.pending⟩)
      fun _ => .pure _
  · exact (simulates_onStream (h.write _)).bind fun _ => simulates_awaitReply h _ _

/-- A conversation in memory in which every request has its reply is one over the
stream. -/
theorem askAll_carried (h : CarriesBytes R) (fuel : Nat) {requests : List Dtx}
    {connection : DtxConnection σ} {memory : DtxConnection MemoryByteStream}
    (hR : OnStreams R connection memory)
    (hreplies : ∀ result ∈ (askAll fuel requests memory).1,
      ∃ reply, result = .ok reply) :
    (askAll fuel requests connection).1 = (askAll fuel requests memory).1 ∧
      OnStreams R (askAll fuel requests connection).2
        (askAll fuel requests memory).2 := by
  induction requests generalizing connection memory with
  | nil => exact ⟨rfl, hR⟩
  | cons request rest ih =>
      rcases hmemory : (sendAndAwaitReply fuel request).run memory with
        ⟨result, next⟩
      rw [askAll, hmemory] at hreplies
      obtain ⟨⟨reply, rfl⟩, hothers⟩ := List.forall_mem_cons.mp hreplies
      obtain ⟨after, hrun, hafter⟩ :=
        simulates_sendAndAwaitReply h fuel request hR hmemory
      obtain ⟨hresults, hlast⟩ := ih hafter hothers
      rw [askAll, hrun, askAll, hmemory]
      exact ⟨congrArg _ hresults, hlast⟩

end DtxConnection

end Services

end Ioscpp
