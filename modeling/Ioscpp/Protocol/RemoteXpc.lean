import Ioscpp.Error
import Ioscpp.Support.SortedMap

/-!
# The RemoteXPC codec

A RemoteXPC message is a wrapper around a payload, which is one `Xpc` object.
An object is a type word and its value; strings, data and keys are padded to the
next multiple of four.  The encoder pads by the size of the buffer it is
writing, which for the body of a container is a buffer of its own; the decoder
skips by the offset in the whole message.

A double is its 64-bit pattern.
-/

namespace Ioscpp.Protocol

open Ioscpp.Support
open Ioscpp.Support.Reading

/-- Sixteen bytes. -/
structure XpcUuid where
  bytes : Bytes
  size : bytes.length = 16
  deriving DecidableEq, Repr

/-- An `xpc` object, a variant over eleven kinds.  A dictionary is an ordered
map, so it is the list of its entries with increasing keys. -/
inductive Xpc where
  | null
  | boolean (value : Bool)
  | int64 (value : Int64)
  | uint64 (value : UInt64)
  | double (bits : UInt64)
  | date (nanoseconds : UInt64)
  | data (bytes : Bytes)
  | string (text : Bytes)
  | uuid (value : XpcUuid)
  | array (items : List Xpc)
  | dictionary (entries : List (Bytes × Xpc))
  deriving Repr, Inhabited

namespace Xpc

/-- The type word of a value. -/
def type : Xpc → Nat
  | null => 0x00001000
  | boolean _ => 0x00002000
  | int64 _ => 0x00003000
  | uint64 _ => 0x00004000
  | double _ => 0x00005000
  | date _ => 0x00007000
  | data _ => 0x00008000
  | string _ => 0x00009000
  | uuid _ => 0x0000A000
  | array _ => 0x0000E000
  | dictionary _ => 0x0000F000

/-! ## Encoding -/

/-- Appends the low 32 bits of `value`. -/
def appendU32 (out : Bytes) (value : Nat) : Bytes := out ++ leBytes 4 value

/-- Appends the low 64 bits of `value`. -/
def appendU64 (out : Bytes) (value : Nat) : Bytes := out ++ leBytes 8 value

/-- Appends zeros up to the next multiple of four. -/
def pad (out : Bytes) : Bytes :=
  out ++ List.replicate ((4 - out.length % 4) % 4) 0

def encodeKey (key out : Bytes) : Bytes := pad (out ++ key ++ [0])

mutual

def encodeObject (value : Xpc) (out : Bytes) : Bytes :=
  let out := appendU32 out value.type
  match value with
  | null => out
  | boolean value => appendU32 out (if value then 1 else 0)
  | int64 value => appendU64 out value.toUInt64.toNat
  | uint64 value => appendU64 out value.toNat
  | double bits => appendU64 out bits.toNat
  | date nanoseconds => appendU64 out nanoseconds.toNat
  | data bytes => pad (appendU32 out bytes.length ++ bytes)
  | string text => pad (appendU32 out (text.length + 1) ++ text ++ [0])
  | uuid value => out ++ value.bytes
  | array items =>
      let body := encodeItems items (appendU32 [] items.length)
      appendU32 out body.length ++ body
  | dictionary entries =>
      let body := encodeEntries entries (appendU32 [] entries.length)
      appendU32 out body.length ++ body

/-- The elements of an array. -/
def encodeItems (items : List Xpc) (body : Bytes) : Bytes :=
  match items with
  | [] => body
  | item :: rest => encodeItems rest (encodeObject item body)

/-- The keys and values of a dictionary. -/
def encodeEntries (entries : List (Bytes × Xpc)) (body : Bytes) : Bytes :=
  match entries with
  | [] => body
  | (key, value) :: rest =>
      encodeEntries rest (encodeObject value (encodeKey key body))

end

def toBytes (value : Xpc) : Bytes := encodeObject value []

/-! ## Decoding -/

def truncated : Error := protocolError "an xpc object is truncated"

def readU32 : Reading Error Nat := word truncated 4

def readU64 : Reading Error Nat := word truncated 8

/-- The loop over the bytes of a key, up to its terminator. -/
def decodeKeyBytes : Nat → Bytes → Reading Error Bytes
  | 0, _ => lift (.error .outOfFuel)
  | fuel + 1, key => do
      let byte ← take truncated 1
      if byte = [0] then return key
      else decodeKeyBytes fuel (key ++ byte)

/-- Reads a key and its padding.  Each turn takes a byte, so the bytes that
remain bound the turns. -/
def decodeKey : Reading Error Bytes := do
  let reader ← get
  let key ← decodeKeyBytes (reader.bytes.length - reader.offset + 1) []
  skipPadding truncated 4
  return key

/-- Runs a step that must take `length` bytes. -/
def measured {α : Type} (length : Nat) (mismatch : Error)
    (step : Reading Error α) : Reading Error α := do
  let start ← get
  let value ← step
  let reader ← get
  if reader.offset - start.offset ≠ length then fail mismatch else return value

/-- The loop over the elements of an array. -/
def decodeItems (decode : Reading Error Xpc) :
    Nat → List Xpc → Reading Error (List Xpc)
  | 0, items => return items
  | count + 1, items => do
      let item ← decode
      decodeItems decode count (items ++ [item])

/-- The loop over the entries of a dictionary; of equal keys the first stays. -/
def decodeEntries (decode : Reading Error Xpc) :
    Nat → List (Bytes × Xpc) → Reading Error (List (Bytes × Xpc))
  | 0, entries => return entries
  | count + 1, entries => do
      let key ← decodeKey
      let value ← decode
      decodeEntries decode count (SortedMap.emplace key value entries)

/-- A text without the zeros at its end. -/
def dropTrailingNuls (text : Bytes) : Bytes :=
  (text.reverse.dropWhile (· == 0)).reverse

/-- The body of an array: its count, for which each element must have at least
its type word, and its elements. -/
def decodeArray (decode : Reading Error Xpc) : Reading Error (List Xpc) := do
  let count ← readU32
  let reader ← get
  if (reader.bytes.length - reader.offset) / 4 < count then
    fail (protocolError "an xpc array count exceeds its bytes")
  else decodeItems decode count []

/-- The body of a dictionary. -/
def decodeDictionary (decode : Reading Error Xpc) :
    Reading Error (List (Bytes × Xpc)) := do
  let count ← readU32
  decodeEntries decode count []

/-- The value after a type word, given how to decode an object inside it. -/
def decodeValue (decode : Reading Error Xpc) (type : Nat) : Reading Error Xpc :=
  match type with
  | 0x00001000 => return .null
  | 0x00002000 => do
      let value ← readU32
      return .boolean (value ≠ 0)
  | 0x00003000 => do
      let value ← readU64
      return .int64 (UInt64.ofNat value).toInt64
  | 0x00004000 => do
      let value ← readU64
      return .uint64 (UInt64.ofNat value)
  | 0x00005000 => do
      let value ← readU64
      return .double (UInt64.ofNat value)
  | 0x00007000 => do
      let value ← readU64
      return .date (UInt64.ofNat value)
  | 0x00008000 => do
      let length ← readU32
      let payload ← take truncated length
      skipPadding truncated 4
      return .data payload
  | 0x00009000 => do
      let length ← readU32
      let payload ← take truncated length
      skipPadding truncated 4
      return .string (dropTrailingNuls payload)
  | 0x0000A000 => do
      let payload ← take truncated 16
      if h : payload.length = 16 then return .uuid ⟨payload, h⟩
      else lift (.error .outOfBounds)
  | 0x0000E000 => do
      let length ← readU32
      let items ← measured length
        (protocolError "an xpc array length does not match its entries")
        (decodeArray decode)
      return .array items
  | 0x0000F000 => do
      let length ← readU32
      let entries ← measured length
        (protocolError "an xpc dictionary length does not match its entries")
        (decodeDictionary decode)
      return .dictionary entries
  | _ => fail (protocolError "an xpc object has an unknown type")

/-- Decodes an object.  An object inside another begins after its type word, so
the length of the buffer bounds the depth. -/
def decodeObject : Nat → Reading Error Xpc
  | 0 => lift (.error .outOfFuel)
  | fuel + 1 => do
      let type ← readU32
      decodeValue (decodeObject fuel) type

/-- Parses an object that must take all the bytes. -/
def parse (bytes : Bytes) : Result Xpc := do
  let (value, reader) ← decodeObject (bytes.length + 1) ⟨bytes, 0⟩
  if reader.offset ≠ bytes.length then
    .error (.error (protocolError "an xpc object has trailing bytes"))
  else .ok value

/-! ## Access -/

def asBoolean : Xpc → Option Bool
  | boolean value => some value
  | _ => none

def asString : Xpc → Option Bytes
  | string text => some text
  | _ => none

def asDictionary : Xpc → Option (List (Bytes × Xpc))
  | dictionary entries => some entries
  | _ => none

/-- The value under a key of a dictionary. -/
def find (key : Bytes) (value : Xpc) : Option Xpc :=
  value.asDictionary.bind (SortedMap.find key)

end Xpc

open Xpc

/-! ## The payload -/

def kXpcPayloadMagic : Nat := 0x42133742

def kXpcPayloadVersion : Nat := 5

/-- The payload: a magic, a version and the object. -/
structure XpcPayload where
  object : Xpc
  deriving Repr

namespace XpcPayload

def encode (payload : XpcPayload) : Bytes :=
  appendU32 (appendU32 [] kXpcPayloadMagic) kXpcPayloadVersion ++
    payload.object.toBytes

/-- What is read of a payload, with the fuel for its object. -/
def decode (fuel : Nat) : Reading Error Xpc := do
  let magic ← readU32
  if magic ≠ kXpcPayloadMagic then
    fail (protocolError "the xpc payload has a bad magic")
  else do
    let version ← readU32
    if version ≠ kXpcPayloadVersion then
      fail (protocolError "the xpc payload has an unknown version")
    else decodeObject fuel

def parse (bytes : Bytes) : Result XpcPayload := do
  let (object, reader) ← decode (bytes.length + 1) ⟨bytes, 0⟩
  if reader.offset ≠ bytes.length then
    .error (.error (protocolError "the xpc payload has trailing bytes"))
  else .ok ⟨object⟩

end XpcPayload

/-! ## The wrapper -/

def kXpcWrapperMagic : Nat := 0x29B00B92

def kXpcFlagAlwaysSet : UInt32 := 0x00000001

def kXpcFlagDataPresent : UInt32 := 0x00000100

def kXpcFlagWantingReply : UInt32 := 0x00010000

def kXpcFlagInitHandshake : UInt32 := 0x00400000

/-- The wrapper around one message. -/
structure XpcWrapper where
  flags : UInt32 := kXpcFlagAlwaysSet
  messageId : UInt64 := 0
  payload : Option XpcPayload := none
  deriving Repr

namespace XpcWrapper

/-- Builds a request. -/
def request (messageId : UInt64) (payload : Xpc) (wantingReply : Bool) :
    XpcWrapper where
  flags :=
    let flags := kXpcFlagAlwaysSet ||| kXpcFlagDataPresent
    if wantingReply then flags ||| kXpcFlagWantingReply else flags
  messageId := messageId
  payload := some ⟨payload⟩

def encode (wrapper : XpcWrapper) : Bytes :=
  let body :=
    match wrapper.payload with
    | some payload => payload.encode
    | none => []
  let out := appendU32 [] kXpcWrapperMagic
  let out := appendU32 out wrapper.flags.toNat
  let out := appendU64 out body.length
  let out := appendU64 out wrapper.messageId.toNat
  out ++ body

/-- Reads the header: the flags, the body length and the message id. -/
def decodeHeader : Reading Error (UInt32 × Nat × UInt64) := do
  let magic ← readU32
  if magic ≠ kXpcWrapperMagic then
    fail (protocolError "the xpc wrapper has a bad magic")
  else do
    let flags ← readU32
    let bodyLength ← readU64
    let messageId ← readU64
    return (UInt32.ofNat flags, bodyLength, UInt64.ofNat messageId)

def trailingBytes : Error := protocolError "the xpc wrapper has trailing bytes"

def parse (bytes : Bytes) : Result XpcWrapper := do
  let ((flags, bodyLength, messageId), reader) ← decodeHeader ⟨bytes, 0⟩
  if bodyLength = 0 then
    if reader.offset ≠ bytes.length then .error (.error trailingBytes)
    else .ok ⟨flags, messageId, none⟩
  else do
    let (body, reader) ← take truncated bodyLength reader
    if reader.offset ≠ bytes.length then .error (.error trailingBytes)
    else do
      let payload ← XpcPayload.parse body
      .ok ⟨flags, messageId, some payload⟩

end XpcWrapper

end Ioscpp.Protocol
