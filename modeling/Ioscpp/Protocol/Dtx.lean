import Ioscpp.Error

/-!
# The DTX codec

A `com.apple.dvt.*` service exchanges DTX messages: a 32-byte message header, a
16-byte payload header, an optional auxiliary dictionary and the payload bytes.
`encode` writes a whole frame, deriving the lengths and the header size, and
`parse` reads one whole message.

A `double` stands as its 64-bit pattern.  The stages of `parse` are named after
the comments that divide it in the source; each is a step of the bounds-checked
reader.
-/

namespace Ioscpp.Protocol

open Ioscpp.Support
open Ioscpp.Support.Reading

/-- The little-endian magic every DTX message starts with. -/
def kDtxMagic : Nat := 0x1F3D5B79

/-- The message header's fixed length. -/
def kDtxHeaderSize : Nat := 32

/-- The payload header's fixed length. -/
def kDtxPayloadHeaderSize : Nat := 16

/-- The auxiliary dictionary header's fixed length. -/
def kDtxAuxiliaryHeaderSize : Nat := 16

/-- The type code of an auxiliary dictionary, in the magic's low byte. -/
def kDtxAuxiliaryType : Nat := 0x000000F0

/-- The type word that opens every auxiliary dictionary. -/
def kDtxAuxiliaryMagic : Nat := 0x000001F0

/-- The largest assembled message. -/
def kDtxMaxMessageSize : Nat := 128 * 1024 * 1024

/-- The transport flag in the message header. -/
def kDtxFlagExpectsReply : Nat := 0x1

/-- The message type in the payload header: an enumeration over a 32-bit word,
which holds any 32-bit code and names nine of them. -/
structure DtxMessageType where
  code : UInt32
  deriving DecidableEq, Repr

namespace DtxMessageType

def ok : DtxMessageType := ⟨0⟩
def data : DtxMessageType := ⟨1⟩
def dispatch : DtxMessageType := ⟨2⟩
def object : DtxMessageType := ⟨3⟩
def error : DtxMessageType := ⟨4⟩
def barrier : DtxMessageType := ⟨5⟩
def primitive : DtxMessageType := ⟨6⟩
def compressed : DtxMessageType := ⟨7⟩
def proxiedMessage : DtxMessageType := ⟨8⟩

end DtxMessageType

/-- A DTX auxiliary value, the argument kind a method call carries. -/
inductive DtxValue where
  | null
  | int32 (value : Int32)
  | int64 (value : Int64)
  | double (bits : UInt64)
  | string (text : Bytes)
  | buffer (bytes : Bytes)
  deriving DecidableEq, Repr

/-- The type word that opens an auxiliary value. -/
def DtxValue.type : DtxValue → Nat
  | .null => 0x0A
  | .string _ => 0x01
  | .buffer _ => 0x02
  | .int32 _ => 0x03
  | .int64 _ => 0x06
  | .double _ => 0x09

/-- One DTX message. -/
structure Dtx where
  fragmentIndex : UInt16 := 0
  fragmentCount : UInt16 := 1
  identifier : UInt32 := 0
  conversationIndex : UInt32 := 0
  channelCode : Int32 := 0
  expectsReply : Bool := false
  messageType : DtxMessageType := .ok
  auxiliary : List DtxValue := []
  payload : Bytes := []
  deriving DecidableEq, Repr

namespace Dtx

/-- Builds the acknowledgement a message that expects a reply must receive. -/
def ack (message : Dtx) : Dtx where
  identifier := message.identifier
  conversationIndex := message.conversationIndex + 1
  channelCode := message.channelCode
  expectsReply := false
  messageType := .ok

/-! ## Encoding -/

/-- Appends `value` as a 16-bit little-endian word. -/
def appendU16 (out : Bytes) (value : Nat) : Bytes := out ++ leBytes 2 value

/-- Appends `value` as a 32-bit little-endian word. -/
def appendU32 (out : Bytes) (value : Nat) : Bytes := out ++ leBytes 4 value

/-- Appends `value` as a 64-bit little-endian word. -/
def appendU64 (out : Bytes) (value : Nat) : Bytes := out ++ leBytes 8 value

def encodeValue (value : DtxValue) (out : Bytes) : Bytes :=
  let out := appendU32 out value.type
  match value with
  | .null => out
  | .int32 value => appendU32 out value.toUInt32.toNat
  | .int64 value => appendU64 out value.toUInt64.toNat
  | .double bits => appendU64 out bits.toNat
  | .string text => appendU32 out text.length ++ text
  | .buffer bytes => appendU32 out bytes.length ++ bytes

/-- The auxiliary entries: each is a null key and a value. -/
def encodeAuxiliaryBody (auxiliary : List DtxValue) : Bytes :=
  auxiliary.foldl
    (fun body value => encodeValue value (appendU32 body DtxValue.null.type)) []

def auxiliarySize (message : Dtx) : Nat :=
  if message.auxiliary.isEmpty then 0
  else kDtxAuxiliaryHeaderSize + (encodeAuxiliaryBody message.auxiliary).length

def totalSize (message : Dtx) : Nat :=
  message.auxiliarySize + message.payload.length

def messageLength (message : Dtx) : Nat :=
  kDtxPayloadHeaderSize + message.totalSize

/-- The 32-byte message header. -/
def encodeHeader (message : Dtx) : Bytes :=
  let out := appendU32 [] kDtxMagic
  let out := appendU32 out kDtxHeaderSize
  let out := appendU16 out message.fragmentIndex.toNat
  let out := appendU16 out message.fragmentCount.toNat
  let out := appendU32 out message.messageLength
  let out := appendU32 out message.identifier.toNat
  let out := appendU32 out message.conversationIndex.toNat
  let out := appendU32 out message.channelCode.toUInt32.toNat
  appendU32 out (if message.expectsReply then kDtxFlagExpectsReply else 0)

/-- Encodes the whole frame, deriving the lengths and the header size. -/
def encode (message : Dtx) : Bytes :=
  let auxiliaryBody := encodeAuxiliaryBody message.auxiliary
  let out := encodeHeader message
  let out := out ++ [UInt8.ofNat message.messageType.code.toNat]
  let out := out ++ [0, 0, 0]
  let out := appendU32 out message.auxiliarySize
  let out := appendU32 out message.totalSize
  -- the payload's own flags word
  let out := appendU32 out 0
  let out :=
    if message.auxiliary.isEmpty then out
    else
      let out := appendU32 out kDtxAuxiliaryMagic
      let out := appendU32 out 0
      appendU64 out auxiliaryBody.length ++ auxiliaryBody
  out ++ message.payload

/-! ## Decoding -/

/-- What every read that runs past the buffer reports. -/
def truncated : Error := protocolError "a DTX message is truncated"

def u8 : Reading Error Nat := word truncated 1
def u16 : Reading Error Nat := word truncated 2
def u32 : Reading Error Nat := word truncated 4
def u64 : Reading Error Nat := word truncated 8

def decodeValue : Reading Error DtxValue := do
  let type ← u32
  match type with
  | 0x0A => return .null
  | 0x03 => do
      let value ← u32
      return .int32 (UInt32.ofNat value).toInt32
  | 0x06 => do
      let value ← u64
      return .int64 (UInt64.ofNat value).toInt64
  | 0x09 => do
      let value ← u64
      return .double (UInt64.ofNat value)
  | 0x01 => do
      let length ← u32
      let text ← take truncated length
      return .string text
  | 0x02 => do
      let length ← u32
      let bytes ← take truncated length
      return .buffer bytes
  | _ => fail (protocolError "a DTX auxiliary value has an unknown type")

/-- The loop over the auxiliary entries: a key, which is discarded, and a
value, until the body ends.  Each turn consumes at least eight bytes, so the
body's length bounds the turns. -/
def decodeEntries : Nat → Cursor → List DtxValue → Checked Error (List DtxValue)
  | fuel, entries, auxiliary =>
      if entries.offset < entries.bytes.length then
        match fuel with
        | 0 => .error .outOfFuel
        | fuel + 1 => do
            let (_, entries) ← decodeValue entries
            let (value, entries) ← decodeValue entries
            decodeEntries fuel entries (auxiliary ++ [value])
      else .ok auxiliary

/-- Decodes the auxiliary dictionary. -/
def decodeAuxiliary : Reading Error (List DtxValue) := do
  let magic ← u32
  if magic &&& 0xff ≠ kDtxAuxiliaryType then
    fail (protocolError "the DTX auxiliary dictionary has a bad magic")
  else do
    -- a reserved 32-bit field
    let _ ← take truncated 4
    let bodyLength ← u64
    let body ← take truncated bodyLength
    lift (decodeEntries body.length ⟨body, 0⟩ [])

/-- The magic and the header's own size; what the header holds beyond its
fixed length is skipped here. -/
def parseHeaderSize : Reading Error Unit := do
  let magic ← u32
  if magic ≠ kDtxMagic then
    fail (protocolError "the DTX message has a bad magic")
  else do
    let headerSize ← u32
    if headerSize < kDtxHeaderSize then
      fail (protocolError "the DTX message header is too short")
    else if kDtxHeaderSize < headerSize then do
      let _ ← take truncated (headerSize - kDtxHeaderSize)
      return ()
    else
      return ()

/-- The rest of the message header: the fragment pair, the length, the
identifier, the conversation index, the channel, and whether a reply is
expected. -/
def parseHeader : Reading Error (Dtx × Nat) := do
  let fragmentIndex ← u16
  let fragmentCount ← u16
  if 1 < fragmentCount then
    fail (protocolError "a fragmented DTX message is not supported yet")
  else do
    let messageLength ← u32
    if kDtxMaxMessageSize < messageLength then
      fail (protocolError "the DTX message is too large")
    else do
      let identifier ← u32
      let conversationIndex ← u32
      let channelCode ← u32
      let expectsReply ← u32
      return ({ fragmentIndex := UInt16.ofNat fragmentIndex
                fragmentCount := UInt16.ofNat fragmentCount
                identifier := UInt32.ofNat identifier
                conversationIndex := UInt32.ofNat conversationIndex
                channelCode := (UInt32.ofNat channelCode).toInt32
                expectsReply := expectsReply != 0 }, messageLength)

/-- The payload header: the type and flags, the auxiliary and total sizes, and
the payload's own flags. -/
def parsePayloadHeader : Reading Error (Nat × Nat × Nat) := do
  let messageType ← u8
  -- three flag and reserved bytes
  let _ ← take truncated 3
  let auxiliarySize ← u32
  let totalSize ← u32
  -- the payload's own flags word
  let _ ← take truncated 4
  return (messageType, auxiliarySize, totalSize)

/-- The payload header, the auxiliary dictionary and the payload. -/
def parsePayload (messageLength : Nat) :
    Reading Error (DtxMessageType × List DtxValue × Bytes) := do
  let (messageType, auxiliarySize, totalSize) ← parsePayloadHeader
  if totalSize < auxiliarySize then
    fail (protocolError "the DTX payload header has inconsistent sizes")
  else if messageLength ≠ kDtxPayloadHeaderSize + totalSize then
    fail (protocolError
      "the DTX message header and payload header disagree")
  else do
    -- the auxiliary comes first when its size is non-zero, then the payload
    let auxiliary ← if 0 < auxiliarySize then decodeAuxiliary else pure []
    let payload ← take truncated (totalSize - auxiliarySize)
    return (⟨UInt32.ofNat messageType⟩, auxiliary, payload)

/-- One message, from the reader's offset on. -/
def parseMessage : Reading Error Dtx := do
  parseHeaderSize
  let (message, messageLength) ← parseHeader
  let (messageType, auxiliary, payload) ← parsePayload messageLength
  return { message with messageType, auxiliary, payload }

/-- Decodes one message, which must consume `bytes` exactly. -/
def parse (bytes : Bytes) : Result Dtx := do
  let (message, reader) ← parseMessage ⟨bytes, 0⟩
  if reader.offset ≠ bytes.length then
    .error (.error (protocolError "the DTX message has trailing bytes"))
  else
    .ok message

end Dtx

end Ioscpp.Protocol
