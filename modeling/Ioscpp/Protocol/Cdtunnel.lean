import Ioscpp.Protocol.Json

/-!
# The tunnel handshake

The device answers the handshake of a CoreDevice tunnel with a JSON object that
says the two addresses of the link, its MTU and the port of the RSD.  The two
numbers are doubles, which a cast makes 16 bits wide; of a double whose integral
part needs more, the language leaves the cast undefined.
-/

namespace Ioscpp.Protocol

open Ioscpp.Support

/-- The device's `serverHandshakeResponse`. -/
structure CdtunnelResponse where
  clientAddress : Bytes
  clientMtu : UInt16
  serverAddress : Bytes
  serverRsdPort : UInt16
  deriving DecidableEq, Repr

/-- The integral part of a finite double. -/
def truncate (bits : UInt64) : Int :=
  let scaled := Binary64.scale (Binary64.significand bits) 1
    (-Binary64.exponent bits)
  let magnitude : Int := (scaled.1 / scaled.2 : Nat)
  if Binary64.isNegative bits then -magnitude else magnitude

/-- The cast of a double to 16 bits; `undefined` is what it makes of a double out
of range. -/
def castUInt16 (undefined : UInt64 → UInt16) (bits : UInt64) : UInt16 :=
  if 0 ≤ truncate bits ∧ truncate bits < 2 ^ 16 then
    UInt16.ofNat (truncate bits).toNat
  else undefined bits

/-! ## Frames -/

def kCdtunnelMagic : Bytes := ascii "CDTunnel"

/-- The magic and the length of the body. -/
def kCdtunnelHeaderSize : Nat := 10

/-- The length that a header says, whose span has 10 bytes. -/
def cdtunnelHeaderLength (header : Bytes) : Result UInt16 :=
  if header.take 8 ≠ kCdtunnelMagic then
    .error (.error (protocolError "the tunnel frame has a bad magic"))
  else do
    let length ← readBe header 8 2
    return UInt16.ofNat length

/-- The body of a frame. -/
def cdtunnelDecode (frame : Bytes) : Result Bytes :=
  if frame.length < kCdtunnelHeaderSize then
    .error (.error
      (protocolError "the tunnel frame is shorter than its header"))
  else do
    let length ← cdtunnelHeaderLength (← slice frame 0 kCdtunnelHeaderSize)
    if frame.length ≠ kCdtunnelHeaderSize + length.toNat then
      .error (.error
        (protocolError "the tunnel frame length does not match its body"))
    else slice frame kCdtunnelHeaderSize length.toNat

namespace CdtunnelResponse

/-- A field of the answer, or the error that says it is missing. -/
def required {α : Type} (field : Option α) (message : String) : Result α :=
  match field with
  | some value => .ok value
  | none => .error (.error (protocolError message))

/-- The fields of an answer that was parsed. -/
def ofJson (undefined : UInt64 → UInt16) (parsed : Json) :
    Result CdtunnelResponse := do
  let client ← required
    ((parsed.find (ascii "clientParameters")).filter (·.asObject.isSome))
    "the tunnel handshake has no clientParameters"
  let clientAddress ← required
    ((client.find (ascii "address")).bind Json.asString)
    "the tunnel handshake has no client address"
  let clientMtu ← required ((client.find (ascii "mtu")).bind Json.asNumber)
    "the tunnel handshake has no client MTU"
  let serverAddress ← required
    ((parsed.find (ascii "serverAddress")).bind Json.asString)
    "the tunnel handshake has no server address"
  let serverRsdPort ← required
    ((parsed.find (ascii "serverRSDPort")).bind Json.asNumber)
    "the tunnel handshake has no RSD port"
  return {
    clientAddress := clientAddress
    clientMtu := castUInt16 undefined clientMtu
    serverAddress := serverAddress
    serverRsdPort := castUInt16 undefined serverRsdPort }

def parse (undefined : UInt64 → UInt16) (json : Bytes) :
    Result CdtunnelResponse := do
  let parsed ← Json.parse json
  ofJson undefined parsed

end CdtunnelResponse

end Ioscpp.Protocol
