import Ioscpp.DtxConnection
import Ioscpp.Protocol.KeyedArchive

/-!
# DTX channels

A channel is one service conversation on a connection.  It is opened from the
global channel, with the next channel code of the connection; a method call on
it archives its selector into the payload and each argument into the auxiliary
dictionary, and waits for the reply.
-/

namespace Ioscpp

open Ioscpp.Support
open Ioscpp.Protocol

/-- The channel that opens other channels. -/
def kDtxGlobalChannel : Int32 := 0

/-- The selector that opens a channel. -/
def kDtxRequestChannelSelector : Bytes := ascii "_requestChannelWithCode:identifier:"

/-- A logical channel: its code and its identifier. One that was not opened has no
connection, and a call on it is an error. -/
structure DtxChannel where
  attached : Bool := false
  code : Int32 := 0
  identifier : Bytes := []
  deriving DecidableEq, Repr

namespace DtxConnection

/-- Archives a selector as the payload of a call. -/
def archived (selector : Bytes) : Bytes := KeyedArchive.archive (.string selector)

/-- The message of a call, which has no identifier of its own yet. -/
def invocation (channelCode : Int32) (selector : Bytes)
    (auxiliary : List DtxValue) : Dtx where
  channelCode := channelCode
  messageType := .dispatch
  payload := archived selector
  auxiliary := auxiliary

variable {σ : Type} [ByteStream σ]

def invoke (fuel : Nat) (channelCode : Int32) (selector : Bytes)
    (auxiliary : List DtxValue) : Action Error (DtxConnection σ) Dtx :=
  sendAndAwaitReply fuel (invocation channelCode selector auxiliary)

/-- Opens `identifier` on a fresh channel.  A code is used up also when the
request fails. -/
def requestChannel (fuel : Nat) (identifier : Bytes) :
    Action Error (DtxConnection σ) DtxChannel := do
  let connection ← get
  let code := connection.nextChannelCode
  set { connection with nextChannelCode := code + 1 }
  let _ ← invoke fuel kDtxGlobalChannel kDtxRequestChannelSelector
    [.int32 code, .buffer (KeyedArchive.archive (.string identifier))]
  return { attached := true, code, identifier }

end DtxConnection

namespace DtxChannel

variable {σ : Type} [ByteStream σ]

/-- Invokes a selector with an auxiliary dictionary that is already built. -/
def methodCallWithAuxiliary (fuel : Nat) (channel : DtxChannel)
    (selector : Bytes) (auxiliary : List DtxValue) :
    Action Error (DtxConnection σ) Dtx :=
  if channel.attached then
    DtxConnection.invoke fuel channel.code selector auxiliary
  else
    Action.fail
      (protocolError "the DTX channel is not attached to a connection")

/-- Invokes a selector, archiving each argument. -/
def methodCall (fuel : Nat) (channel : DtxChannel) (selector : Bytes)
    (arguments : List Plist) : Action Error (DtxConnection σ) Dtx :=
  methodCallWithAuxiliary fuel channel selector
    (arguments.map fun argument => .buffer (KeyedArchive.archive argument))

end DtxChannel

end Ioscpp
