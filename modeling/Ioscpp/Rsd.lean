import Ioscpp.Protocol.Http2
import Ioscpp.Protocol.RemoteXpc

/-!
# Remote service discovery

An `Rsd` is an HTTP/2 connection to the device's RSD port and the services that
the device answered with.  `handshake` sends the RemoteXPC connection setup and
the device handshake, and then reads wrappers, each from one DATA frame, until
one is the answer.
-/

namespace Ioscpp

open Ioscpp.Support
open Ioscpp.Protocol

/-- The host UUID of the handshake. -/
abbrev RsdUuid := XpcUuid

/-- A service that the RSD advertises. -/
structure RsdService where
  port : UInt16 := 0
  usesRemoteXpc : Bool := false
  deriving DecidableEq, Repr

/-- The services by name, an ordered map. -/
abbrev RsdServices := List (Bytes × RsdService)

def kRemoteXpcVersionFlags : UInt64 := 0x0100000000000006

def kMessagingProtocolVersion : UInt64 := 7

/-- The device handshake. -/
def deviceHandshake (uuid : RsdUuid) : Xpc :=
  let properties := SortedMap.ofEntries [
    (ascii "RemoteXPCVersionFlags", Xpc.uint64 kRemoteXpcVersionFlags),
    (ascii "SensitivePropertiesVisible", Xpc.boolean true)]
  .dictionary (SortedMap.ofEntries [
    (ascii "MessageType", .string (ascii "Handshake")),
    (ascii "MessagingProtocolVersion", .uint64 kMessagingProtocolVersion),
    (ascii "UUID", .uuid uuid),
    (ascii "Properties", .dictionary properties),
    (ascii "Services", .dictionary [])])

/-- A service of the reply.  The port is text, which `std::stoi` reads, and the
cast keeps its low 16 bits. -/
def parseService (entry : Xpc) : Result RsdService := do
  let port ←
    match (entry.find (ascii "Port")).bind Xpc.asString with
    | some text => do
        let value ← stoi text
        pure (UInt16.ofNat (value % 2 ^ 16).toNat)
    | none => pure 0
  let usesRemoteXpc :=
    match entry.find (ascii "Properties") with
    | some properties =>
        ((properties.find (ascii "UsesRemoteXPC")).bind Xpc.asBoolean).getD false
    | none => false
  return ⟨port, usesRemoteXpc⟩

/-- The reply's `Services`. -/
def parseServices (reply : Xpc) : Result RsdServices :=
  match (reply.find (ascii "Services")).bind Xpc.asDictionary with
  | none => return []
  | some entries =>
      entries.foldlM (fun services entry => do
        let service ← parseService entry.2
        return SortedMap.emplace entry.1 service services) []

/-- The object of the device handshake's answer, when the wrapper is that. -/
def handshakeAnswer (message : XpcWrapper) : Option Xpc :=
  match message.payload with
  | none => none
  | some payload =>
      match payload.object.asDictionary with
      | none => none
      | some [] => none
      | some _ =>
          if (payload.object.find (ascii "MessageType")).bind Xpc.asString =
              some (ascii "Handshake") then
            some payload.object
          else none

/-- The wrappers of the connection setup. -/
def initWrapper : XpcWrapper where
  flags := kXpcFlagAlwaysSet
  payload := some ⟨.dictionary []⟩

def termWrapper : XpcWrapper where
  flags := 0x0201

def initHandshakeWrapper : XpcWrapper where
  flags := kXpcFlagAlwaysSet ||| kXpcFlagInitHandshake

/-- The connection to the RSD port: the HTTP/2 connection over the link's
transport, and the services. -/
structure Rsd (τ : Type) where
  http2 : Http2 τ
  services : RsdServices := []

namespace Rsd

variable {τ : Type} [Transport τ]

/-- An operation of the HTTP/2 connection. -/
def onHttp2 {τ α : Type} (x : Action Error (Http2 τ) α) : Action Error (Rsd τ) α :=
  Action.zoom (·.http2) (fun rsd http2 => { rsd with http2 }) x

/-- The connection setup, in the frame order that the device validates, and the
device handshake. -/
def sendHandshake (fuel : Nat) (uuid : RsdUuid) : Action Error (Rsd τ) Unit := do
  onHttp2 (Http2.openStream kHttp2ControlStream)
  onHttp2 (Http2.write kHttp2ControlStream fuel initWrapper.encode)
  onHttp2 (Http2.openStream kHttp2ReplyStream)
  onHttp2 (Http2.write kHttp2ControlStream fuel termWrapper.encode)
  onHttp2 (Http2.write kHttp2ReplyStream fuel initHandshakeWrapper.encode)
  onHttp2 (Http2.write kHttp2ControlStream fuel
    (XpcWrapper.request 1 (deviceHandshake uuid) false).encode)

/-- The loop that reads wrappers until the answer arrives.  Each `read` may take
`frames` turns. -/
def awaitHandshake (frames : Nat) : Nat → Action Error (Rsd τ) Unit
  | 0 => Action.lift (.error .outOfFuel)
  | fuel + 1 => do
      let reply ← onHttp2 (Http2.read frames)
      let message ← Action.lift (XpcWrapper.parse reply.payload)
      match handshakeAnswer message with
      | none => awaitHandshake frames fuel
      | some object => do
          let services ← Action.lift (parseServices object)
          modify fun rsd => { rsd with services }

/-- Runs the connection setup and the device handshake. -/
def handshake (fuel : Nat) (uuid : RsdUuid) : Action Error (Rsd τ) Unit := do
  sendHandshake fuel uuid
  awaitHandshake fuel fuel

end Rsd

end Ioscpp
