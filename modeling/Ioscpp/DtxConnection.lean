import Ioscpp.ByteStream
import Ioscpp.Protocol.Dtx

/-!
# The DTX connection

The request and reply layer over a service stream: it reads and writes the
frames of `Protocol.Dtx`, and acknowledges a message that expects a reply.
`receive` reads the fixed 32 header bytes first, because the header size and
the message length in them size the rest of the frame.
-/

namespace Ioscpp

open Ioscpp.Support
open Ioscpp.Protocol

/-- A DTX connection over a stream `σ`: the next numbers of a message and of a channel,
and the messages that arrived while a reply was awaited. -/
structure DtxConnection (σ : Type) where
  stream : σ
  nextIdentifier : UInt32 := 1
  nextChannelCode : Int32 := 1
  pending : List Dtx := []

namespace DtxConnection

variable {σ : Type} [ByteStream σ]

/-- An operation of the connection's stream. -/
def onStream {α : Type} (x : Action Error σ α) :
    Action Error (DtxConnection σ) α :=
  Action.zoom (·.stream) (fun c stream => { c with stream }) x

/-- Writes `message` as one frame. -/
def send (message : Dtx) : Action Error (DtxConnection σ) Unit :=
  onStream (ByteStream.write message.encode)

/-- The checks of the fixed header: the magic, the header size and the message
length, each read at its own offset. -/
def frameSizes (header : Bytes) : Result (Nat × Nat) := do
  let magic ← readLe header 0 4
  let headerSize ← readLe header 4 4
  let messageLength ← readLe header 12 4
  if magic ≠ kDtxMagic then
    .error (.error (protocolError "the DTX message has a bad magic"))
  else if headerSize < kDtxHeaderSize then
    .error (.error (protocolError "the DTX message header is too short"))
  else if kDtxMaxMessageSize < messageLength then
    .error (.error (protocolError "the DTX message is too large"))
  else
    .ok (headerSize, messageLength)

/-- Reads one message, acknowledging it when it expects a reply. -/
def receive : Action Error (DtxConnection σ) Dtx := do
  let header ← onStream (ByteStream.readExact kDtxHeaderSize)
  let (headerSize, messageLength) ← Action.lift (frameSizes header)
  let frameSize := headerSize + messageLength
  let rest ←
    if kDtxHeaderSize < frameSize then
      onStream (ByteStream.readExact (frameSize - kDtxHeaderSize))
    else pure []
  let message ← Action.lift (Dtx.parse (header ++ rest))
  if message.expectsReply then do
    send (Dtx.ack message)
    return message
  else
    return message

/-- The loop that reads until the reply.  A reply shares the request's
identifier and has a non-zero conversation index; any other message is queued.
Each turn reads a message, so `fuel` bounds the messages. -/
def awaitReply (identifier : UInt32) :
    Nat → Action Error (DtxConnection σ) Dtx
  | 0 => Action.lift (.error .outOfFuel)
  | fuel + 1 => do
      let message ← receive
      if message.identifier = identifier ∧ 0 < message.conversationIndex then
        return message
      else do
        modify fun connection =>
          { connection with pending := connection.pending ++ [message] }
        awaitReply identifier fuel

/-- Gives a request the next identifier, when it has none of its own. -/
def assignIdentifier (request : Dtx) : Action Error (DtxConnection σ) Dtx := do
  let connection ← get
  if request.identifier = 0 then do
    set { connection with nextIdentifier := connection.nextIdentifier + 1 }
    return { request with identifier := connection.nextIdentifier }
  else return request

/-- Sends `request` and reads until its reply, queueing the messages in
between. -/
def sendAndAwaitReply (fuel : Nat) (request : Dtx) :
    Action Error (DtxConnection σ) Dtx := do
  let request ← assignIdentifier request
  let request := { request with conversationIndex := 0, expectsReply := true }
  send request
  awaitReply request.identifier fuel

/-- Whether a message received while awaiting a reply is queued. -/
def hasPending (connection : DtxConnection σ) : Bool :=
  !connection.pending.isEmpty

/-- The next message that arrived while awaiting a reply. -/
def nextPending : Action Error (DtxConnection σ) Dtx := do
  let connection ← get
  match connection.pending with
  | [] => Action.fail (protocolError "no DTX message is pending")
  | message :: rest => do
      set { connection with pending := rest }
      return message

end DtxConnection

end Ioscpp
