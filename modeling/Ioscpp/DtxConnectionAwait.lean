import Ioscpp.DtxConnection
import Ioscpp.Protocol.DtxRoundTrip

/-!
# Awaiting a reply

While a request waits for its reply, the device may send notifications and
requests of its own.  `receive` acknowledges each of them that expects a reply,
and `awaitReply` queues it.  The queue, the acknowledgements and the reply are
followed together over the messages that arrive, one message at a time.

## Main results

- `run_receive`: a frame is taken off the stream and acknowledged.
- `run_awaitReply`: the loop ends with the first message that answers the request, and
  queues those before it.
- `sendAndAwaitReply_reply`: no message is lost while a reply is awaited.
-/

namespace Ioscpp.Protocol.Dtx

open Ioscpp.Support

/-! ## One frame -/

/-- A message that fits one frame with a 32-byte header: it has one fragment, and is
within the limit that `receive` checks. -/
structure Framed (message : Dtx) : Prop where
  unfragmented : message.fragmentCount ≤ 1
  small : message.messageLength ≤ kDtxMaxMessageSize

/-- What a frame's reader makes of the message, whose type has one byte. -/
def received (message : Dtx) : Dtx :=
  { message with messageType := wireMessageType message.messageType }

/-- The bytes that acknowledge a message, when it expects that. -/
def ackBytes (message : Dtx) : Bytes :=
  if message.expectsReply then (ack message).encode else []

theorem length_encodeHeader (message : Dtx) :
    message.encodeHeader.length = kDtxHeaderSize := by
  simp [encodeHeader, appendU16, appendU32, kDtxHeaderSize]

theorem length_encode (message : Dtx) :
    message.encode.length = kDtxHeaderSize + message.messageLength := by
  by_cases h : message.auxiliary.isEmpty
  · simp [encode, appendU32, length_encodeHeader, messageLength, totalSize,
      auxiliarySize, h, kDtxPayloadHeaderSize]
    omega
  · simp [encode, appendU32, appendU64, length_encodeHeader, messageLength,
      totalSize, auxiliarySize, h, kDtxPayloadHeaderSize,
      kDtxAuxiliaryHeaderSize]
    omega

/-- The header opens the frame, and the message length counts the rest. -/
theorem encode_split (message : Dtx) :
    ∃ rest, message.encode = message.encodeHeader ++ rest ∧
      rest.length = message.messageLength := by
  have hsplit : ∃ rest, message.encode = message.encodeHeader ++ rest := by
    by_cases h : message.auxiliary.isEmpty <;>
      simp [encode, appendU32, appendU64, h]
  obtain ⟨rest, hrest⟩ := hsplit
  refine ⟨rest, hrest, ?_⟩
  have hlength := length_encode message
  rw [hrest, List.length_append, length_encodeHeader] at hlength
  omega

/-- The words of the fixed header that size the frame. -/
theorem frameSizes_encodeHeader {message : Dtx} (h : message.Framed) :
    DtxConnection.frameSizes message.encodeHeader =
      .ok (kDtxHeaderSize, message.messageLength) := by
  have hmax : kDtxMaxMessageSize < 256 ^ 4 := by decide
  have hsmall := h.small
  -- what stands after each of the three words
  let channel := leBytes 4 message.identifier.toNat ++
    (leBytes 4 message.conversationIndex.toNat ++
      (leBytes 4 message.channelCode.toUInt32.toNat ++
        leBytes 4 (if message.expectsReply then kDtxFlagExpectsReply else 0)))
  let fragment := leBytes 2 message.fragmentIndex.toNat ++
    leBytes 2 message.fragmentCount.toNat
  have hmagic : (readLe message.encodeHeader 0 4 : Result Nat) =
      .ok kDtxMagic :=
    readLe_word_of_lt [] (leBytes 4 kDtxHeaderSize ++ (fragment ++
      (leBytes 4 message.messageLength ++ channel)))
      (by simp [encodeHeader, appendU16, appendU32, channel, fragment])
      rfl (by decide)
  have hsize : (readLe message.encodeHeader 4 4 : Result Nat) =
      .ok kDtxHeaderSize :=
    readLe_word_of_lt (leBytes 4 kDtxMagic)
      (fragment ++ (leBytes 4 message.messageLength ++ channel))
      (by simp [encodeHeader, appendU16, appendU32, channel, fragment])
      (length_leBytes 4 _) (by decide)
  have hlength : (readLe message.encodeHeader 12 4 : Result Nat) =
      .ok message.messageLength :=
    readLe_word_of_lt (leBytes 4 kDtxMagic ++ (leBytes 4 kDtxHeaderSize ++
      fragment)) channel
      (by simp [encodeHeader, appendU16, appendU32, channel, fragment])
      (by simp [fragment]) (by omega)
  rw [DtxConnection.frameSizes, hmagic, hsize, hlength]
  simp only [ok_bind, ne_eq, not_true_eq_false, if_false, Nat.lt_irrefl,
    if_neg (Nat.not_lt.mpr hsmall)]

end Ioscpp.Protocol.Dtx

namespace Ioscpp.DtxConnection

open Ioscpp.Support
open Ioscpp.Protocol

variable {connection : DtxConnection MemoryByteStream}

/-- Receiving a frame takes it off the stream, leaves what follows, and acknowledges the
message when it expects a reply. -/
theorem run_receive {message : Dtx} (h : message.Framed) (rest : Bytes)
    (hincoming : connection.stream.incoming = message.encode ++ rest) :
    receive.run connection = (.ok message.received, { connection with
      stream := ⟨rest, connection.stream.written ++ message.ackBytes⟩ }) := by
  obtain ⟨body, hencode, hbody⟩ := message.encode_split
  have hheader := message.length_encodeHeader
  have hsizes := Dtx.frameSizes_encodeHeader h
  have hparse := Dtx.parse_encode_eq message h.unfragmented h.small
  rw [hencode, List.append_assoc] at hincoming
  rw [hencode] at hparse
  have hlength : kDtxHeaderSize + message.messageLength - kDtxHeaderSize =
      body.length := by omega
  have hfirst : (onStream (ByteStream.readExact kDtxHeaderSize)).run connection =
      (.ok message.encodeHeader, { connection with
        stream := { connection.stream with incoming := body ++ rest } }) := by
    have hle : kDtxHeaderSize ≤ connection.stream.incoming.length := by
      rw [hincoming, List.length_append, hheader]
      omega
    rw [onStream, Action.run_zoom, MemoryByteStream.run_readExact_of_le _ hle,
      hincoming, List.take_left' hheader, List.drop_left' hheader]
  have hle : body.length ≤ (body ++ rest).length := by simp
  have hsecond := MemoryByteStream.run_readExact_of_le
    { connection.stream with incoming := body ++ rest } hle
  rw [List.take_left, List.drop_left] at hsecond
  have hpos : kDtxHeaderSize < kDtxHeaderSize + message.messageLength := by
    simp [Dtx.messageLength, kDtxPayloadHeaderSize]
  rw [receive, Action.run_bind_ok hfirst,
    Action.run_bind_ok (by rw [Action.run_lift, hsizes])]
  simp only [if_pos hpos, hlength]
  rw [Action.run_bind_ok (by rw [onStream, Action.run_zoom, hsecond]),
    Action.run_bind_ok (by rw [Action.run_lift, hparse])]
  -- the acknowledgement copies nothing of the type
  cases hreply : message.expectsReply with
  | false => simp [Dtx.received, Dtx.ackBytes, hreply]
  | true =>
      simp only [Dtx.received, Dtx.ackBytes, hreply, if_true]
      rfl

/-! ## The loop -/

/-- The message answers the request with `identifier`: it has that number, and a
conversation index above zero. -/
def Answers (identifier : UInt32) (message : Dtx) : Prop :=
  message.identifier = identifier ∧ 0 < message.conversationIndex

/-- The connection once it has queued the first messages of its stream. -/
def queued (connection : DtxConnection MemoryByteStream) (messages : List Dtx)
    (rest : Bytes) : DtxConnection MemoryByteStream :=
  { connection with
    stream := ⟨rest, connection.stream.written ++ messages.flatMap Dtx.ackBytes⟩
    pending := connection.pending ++ messages.map Dtx.received }

section Loop

variable {identifier : UInt32} {before : List Dtx} {reply : Dtx} {rest : Bytes}

/-- A message that is not the reply is queued, and the loop goes on. -/
theorem run_awaitReply_cons {message : Dtx} (h : message.Framed)
    (hmessage : ¬ Answers identifier message)
    (hincoming : connection.stream.incoming = message.encode ++ rest)
    (fuel : Nat) :
    (awaitReply identifier (fuel + 1)).run connection =
      (awaitReply identifier fuel).run (queued connection [message] rest) := by
  rw [awaitReply, Action.run_bind_ok (run_receive h rest hincoming)]
  have hreceived : ¬ (message.received.identifier = identifier ∧
      0 < message.received.conversationIndex) := hmessage
  rw [if_neg hreceived, Action.run_bind_ok (Action.run_modify _ _)]
  simp [queued]

/-- The messages before the reply are queued in their order. -/
theorem run_awaitReply_append (h : ∀ message ∈ before, message.Framed)
    (hbefore : ∀ message ∈ before, ¬ Answers identifier message)
    (hincoming : connection.stream.incoming =
      before.flatMap Dtx.encode ++ rest) (fuel : Nat) :
    (awaitReply identifier (before.length + fuel)).run connection =
      (awaitReply identifier fuel).run (queued connection before rest) := by
  induction before generalizing connection with
  | nil =>
      have hrest : rest = connection.stream.incoming := hincoming.symm
      have hqueued : queued connection [] rest = connection := by
        simp [queued, hrest]
      rw [hqueued, List.length_nil, Nat.zero_add]
  | cons message before ih =>
      rw [List.flatMap_cons, List.append_assoc] at hincoming
      have hstep := run_awaitReply_cons (h message (by simp))
        (hbefore message (by simp)) hincoming (before.length + fuel)
      have hrest := @ih (queued connection [message]
          (before.flatMap Dtx.encode ++ rest))
        (fun message hmem => h message (List.mem_cons_of_mem _ hmem))
        (fun message hmem => hbefore message (List.mem_cons_of_mem _ hmem)) rfl
      have hlength : (message :: before).length + fuel =
          before.length + fuel + 1 := by
        rw [List.length_cons]
        omega
      rw [hlength, hstep, hrest]
      simp [queued]

/-- The loop ends with the first message that answers the request. Those before it are
queued in their order, and every message read is acknowledged that expects a reply. -/
theorem run_awaitReply (h : ∀ message ∈ before, message.Framed)
    (hbefore : ∀ message ∈ before, ¬ Answers identifier message)
    (hframed : reply.Framed) (hreply : Answers identifier reply)
    (hincoming : connection.stream.incoming =
      before.flatMap Dtx.encode ++ (reply.encode ++ rest))
    {fuel : Nat} (hfuel : before.length < fuel) :
    (awaitReply identifier fuel).run connection =
      (.ok reply.received, { connection with
        stream := ⟨rest, connection.stream.written ++
          (before ++ [reply]).flatMap Dtx.ackBytes⟩
        pending := connection.pending ++ before.map Dtx.received }) := by
  obtain ⟨more, rfl⟩ : ∃ more, fuel = before.length + (more + 1) :=
    ⟨fuel - before.length - 1, by omega⟩
  have hreceived : reply.received.identifier = identifier ∧
      0 < reply.received.conversationIndex := hreply
  rw [run_awaitReply_append h hbefore hincoming, awaitReply,
    Action.run_bind_ok (run_receive hframed rest rfl),
    if_pos hreceived]
  simp [queued]

end Loop

/-! ## The request -/

/-- The request as it is sent. -/
def sentRequest (connection : DtxConnection MemoryByteStream) (request : Dtx) :
    Dtx :=
  { request with
    identifier := if request.identifier = 0 then connection.nextIdentifier
      else request.identifier
    conversationIndex := 0
    expectsReply := true }

/-- The connection once the request is sent. -/
def afterRequest (connection : DtxConnection MemoryByteStream) (request : Dtx) :
    DtxConnection MemoryByteStream :=
  { connection with
    stream := ⟨connection.stream.incoming, connection.stream.written ++
      (sentRequest connection request).encode⟩
    nextIdentifier := if request.identifier = 0 then
      connection.nextIdentifier + 1 else connection.nextIdentifier }

theorem run_sendAndAwaitReply (fuel : Nat) (request : Dtx) :
    (sendAndAwaitReply fuel request).run connection =
      (awaitReply (sentRequest connection request).identifier fuel).run
        (afterRequest connection request) := by
  by_cases h : request.identifier = 0
  · simp only [sendAndAwaitReply, assignIdentifier, Action.run_bind,
      Action.run_get, h, if_true, Action.run_set, Action.run_pure, send,
      onStream, Action.run_zoom, MemoryByteStream.run_write, sentRequest,
      afterRequest]
  · simp only [sendAndAwaitReply, assignIdentifier, Action.run_bind,
      Action.run_get, h, if_false, Action.run_pure, send, onStream,
      Action.run_zoom, MemoryByteStream.run_write, sentRequest, afterRequest]

/-! ## The queue -/

/-- `count` calls of `nextPending`. -/
def takePending : Nat → Action Error (DtxConnection MemoryByteStream) (List Dtx)
  | 0 => return []
  | count + 1 => do
      let message ← nextPending
      let rest ← takePending count
      return message :: rest

/-- The queue is handed out in its order. -/
theorem run_takePending (connection : DtxConnection MemoryByteStream) :
    (takePending connection.pending.length).run connection =
      (.ok connection.pending, { connection with pending := [] }) := by
  obtain ⟨stream, nextIdentifier, nextChannelCode, pending⟩ := connection
  induction pending with
  | nil => rfl
  | cons message rest ih =>
      rw [List.length_cons, takePending]
      have hnext : nextPending.run (DtxConnection.mk stream nextIdentifier
          nextChannelCode (message :: rest)) =
          (.ok message, ⟨stream, nextIdentifier, nextChannelCode, rest⟩) := rfl
      rw [Action.run_bind_ok hnext, Action.run_bind_ok ih]
      rfl

/-- No message is lost while a reply is awaited: the first message that answers
the request is returned, those before it are queued in their order and handed
out in it, and after the request only their acknowledgements are written. -/
theorem sendAndAwaitReply_reply (connection : DtxConnection MemoryByteStream)
    (request : Dtx) (before after : List Dtx) (reply : Dtx) (rest : Bytes)
    (fuel : Nat)
    (hframed : ∀ message ∈ before ++ reply :: after, message.Framed)
    (hbefore : ∀ message ∈ before,
      ¬ Answers (sentRequest connection request).identifier message)
    (hreply : Answers (sentRequest connection request).identifier reply)
    (hincoming : connection.stream.incoming =
      (before ++ reply :: after).flatMap Dtx.encode ++ rest)
    (hfuel : before.length < fuel) :
    ∃ last, (sendAndAwaitReply fuel request).run connection =
        (.ok reply.received, last) ∧
      last.pending = connection.pending ++ before.map Dtx.received ∧
      last.stream.written = connection.stream.written ++
        (sentRequest connection request).encode ++
        (before ++ [reply]).flatMap Dtx.ackBytes ∧
      last.stream.incoming = after.flatMap Dtx.encode ++ rest ∧
      (takePending last.pending.length).run last =
        (.ok (connection.pending ++ before.map Dtx.received),
          { last with pending := [] }) := by
  have hstream : (afterRequest connection request).stream.incoming =
      before.flatMap Dtx.encode ++
        (reply.encode ++ (after.flatMap Dtx.encode ++ rest)) := by
    rw [afterRequest, hincoming]
    simp
  have hrun := run_awaitReply
    (fun message hmem => hframed message (List.mem_append_left _ hmem)) hbefore
    (hframed reply (by simp)) hreply hstream hfuel
  rw [← run_sendAndAwaitReply] at hrun
  refine ⟨_, hrun, rfl, rfl, rfl, ?_⟩
  rw [run_takePending]
  rfl

/-- When no message answers the request, all of them are queued, and the stream
ends the wait. -/
theorem sendAndAwaitReply_noReply (connection : DtxConnection MemoryByteStream)
    (request : Dtx) {messages : List Dtx}
    (hframed : ∀ message ∈ messages, message.Framed)
    (hmessages : ∀ message ∈ messages,
      ¬ Answers (sentRequest connection request).identifier message)
    (hincoming : connection.stream.incoming = messages.flatMap Dtx.encode)
    {fuel : Nat} (hfuel : messages.length < fuel) :
    (sendAndAwaitReply fuel request).run connection =
      (.error (.error ⟨.io, ascii "the stream ended early"⟩),
        queued (afterRequest connection request) messages []) := by
  obtain ⟨more, rfl⟩ : ∃ more, fuel = messages.length + (more + 1) :=
    ⟨fuel - messages.length - 1, by omega⟩
  have hstream : (afterRequest connection request).stream.incoming =
      messages.flatMap Dtx.encode ++ [] := by
    rw [afterRequest, hincoming, List.append_nil]
  have hend : (onStream (ByteStream.readExact kDtxHeaderSize)).run
      (queued (afterRequest connection request) messages []) =
      (.error (.error ⟨.io, ascii "the stream ended early"⟩),
        queued (afterRequest connection request) messages []) := by
    rw [onStream, Action.run_zoom,
      MemoryByteStream.run_readExact_of_lt _ (by
        show (0 : Nat) < kDtxHeaderSize
        decide)]
  rw [run_sendAndAwaitReply, run_awaitReply_append hframed hmessages hstream,
    awaitReply, Action.run_bind_error (by
      rw [receive, Action.run_bind_error hend])]

/-- A notification and a request of the device come before the reply. -/
theorem sendAndAwaitReply_reply_interleaved :
    let notification : Dtx := { identifier := 7, messageType := .object }
    let question : Dtx := { identifier := 1, expectsReply := true }
    let reply : Dtx := { identifier := 1, conversationIndex := 1 }
    let connection : DtxConnection MemoryByteStream :=
      { stream := ⟨[notification, question, reply].flatMap Dtx.encode, []⟩ }
    ∃ last, (sendAndAwaitReply 3 {}).run connection = (.ok reply, last) ∧
      last.pending = [notification, question] := by
  intro notification question reply connection
  obtain ⟨last, hrun, hpending, -⟩ := sendAndAwaitReply_reply connection {}
    [notification, question] [] reply [] 3 (by
      intro message hmem
      simp only [List.cons_append, List.nil_append, List.mem_cons,
        List.not_mem_nil, or_false] at hmem
      rcases hmem with rfl | rfl | rfl
      · exact ⟨by decide, by decide⟩
      · exact ⟨by decide, by decide⟩
      · exact ⟨by decide, by decide⟩)
    (by
      intro message hmem
      simp only [List.mem_cons, List.not_mem_nil, or_false] at hmem
      rcases hmem with rfl | rfl
      · exact fun h => absurd h.2 (by decide)
      · exact fun h => absurd h.2 (by decide))
    ⟨by decide, by decide⟩ (by simp [connection]) (by decide)
  exact ⟨last, hrun, hpending⟩

end Ioscpp.DtxConnection
