import Ioscpp.Protocol.BinaryPlist
import Ioscpp.Support.GraphDecode

/-!
# Binary property lists: reading

`parseBinary` reads the trailer and the offset table, and decodes the top
object.  `Decoder.decode` follows references through a cache, with a mark on the
objects it is inside of; `Decoder.decodeUncached` reads one object.

`unfoldBinary` is the reading without a cache: every reference is decoded anew,
and one that repeats on the path from the top object is an error.  The two agree
on every input (`decode_eq_visit`).
-/

namespace Ioscpp.Protocol.Plist

open Ioscpp.Support
open Ioscpp.Support.Reading

/-! ## One object -/

/-- What stands before an object's references: the value of an object that has
none, or the number of entries of a container. -/
inductive Head where
  | leaf (value : Plist)
  | array (length : Nat)
  | dictionary (length : Nat)

def truncated : Error := protocolError "a binary plist object is truncated"

def offsetOutOfRange : Error :=
  protocolError "a binary plist object offset is out of range"

/-- Reads a big-endian integer of `size` bytes. -/
def readUint (size : Nat) : Reading Error Nat := wordBe truncated size

/-- The number of bytes that the low nibble of a marker announces. -/
def byteCount (info : UInt8) : Nat := 1 <<< info.toNat

/-- The count of an object: its low nibble, or the integer object that
follows. -/
def readCount (info : UInt8) : Reading Error Nat :=
  if info ≠ kMarkerCountFollows then return info.toNat
  else do
    let intMarker ← readUint 1
    readUint (byteCount (UInt8.ofNat intMarker &&& 0x0f))

/-- A word of fewer than eight bytes whose high bit is set is negative. -/
def signExtend (size raw : Nat) : Int64 :=
  if size < 8 ∧ raw &&& (1 <<< (size * 8 - 1)) ≠ 0 then
    (UInt64.ofNat (raw ||| ((2 ^ 64 - 1) <<< (size * 8)))).toInt64
  else (UInt64.ofNat raw).toInt64

/-- The low byte of each pair. -/
def lowBytes : Bytes → Bytes
  | _ :: low :: rest => low :: lowBytes rest
  | _ => []

/-- A count of entries of `entrySize` bytes, which must be there. -/
def readLength (count : Reading Error Nat) (entrySize : Nat)
    (tooLong : Error) : Reading Error Nat := do
  let length ← count
  let reader ← get
  if (reader.bytes.length - reader.offset) / entrySize < length then
    fail tooLong
  else return length

/-- The real of `size` bytes. -/
def realOf (size raw : Nat) : UInt64 :=
  if size = 8 then UInt64.ofNat raw
  else if size = 4 then Binary64.ofNatViaFloat raw
  else 0

/-- The object after its marker, by its kind and low nibble. -/
def readKind (refSize : Nat) (kind info : UInt8) : Reading Error Head :=
  if kind = kMarkerNull then return .leaf .null
  else if kind = kMarkerInt then do
    let raw ← readUint (byteCount info)
    return .leaf (.integer (signExtend (byteCount info) raw))
  else if kind = kMarkerReal then do
    let raw ← readUint (byteCount info)
    return .leaf (.real (realOf (byteCount info) raw))
  else if kind = kMarkerDate then do
    let raw ← readUint 8
    return .leaf (.date (Binary64.toInt64 (UInt64.ofNat raw)))
  else if kind = kMarkerData then do
    let length ← readCount info
    let bytes ← take truncated length
    return .leaf (.data bytes)
  else if kind = kMarkerAscii then do
    let length ← readCount info
    let text ← take truncated length
    return .leaf (.string text)
  else if kind = kMarkerUtf16 then do
    -- each character is a pair of bytes, of which the low one is kept
    let length ← readLength (readCount info) 2 truncated
    let pairs ← take truncated (length * 2)
    return .leaf (.string (lowBytes pairs))
  else if kind = kMarkerUid then do
    let raw ← readUint (byteCount info)
    return .leaf (.uid (UInt64.ofNat raw))
  else if kind = kMarkerArray then do
    let length ← readLength (readCount info) refSize
      (protocolError "a binary plist array count exceeds its bytes")
    return .array length
  else if kind = kMarkerDictionary then do
    -- an entry is a reference to its key and one to its value
    let length ← readLength (readCount info) (2 * refSize)
      (protocolError "a binary plist dictionary count exceeds its bytes")
    return .dictionary length
  else fail (protocolError "a binary plist object marker is not known")

/-- An object up to its references, given how to read it by its kind and low
nibble.  Three markers are matched whole; of the others the high nibble is the
kind. -/
def readMarked (readKind : UInt8 → UInt8 → Reading Error Head) :
    Reading Error Head := do
  let byte ← wordBe offsetOutOfRange 1
  let marker := UInt8.ofNat byte
  if marker = kMarkerFalse then return .leaf (.boolean false)
  else if marker = kMarkerTrue then return .leaf (.boolean true)
  else if marker = kMarkerNull then return .leaf .null
  else readKind (marker &&& 0xf0) (marker &&& 0x0f)

/-- The object at the reader's offset, up to its references. -/
def readHead (refSize : Nat) : Reading Error Head :=
  readMarked (readKind refSize)

/-- Reads `count` references. -/
def readRefs (refSize : Nat) : Nat → Reading Error (List Nat)
  | 0 => return []
  | count + 1 => do
      let reference ← readUint refSize
      let rest ← readRefs refSize count
      return reference :: rest

/-! ## The decoder -/

def referenceOutOfRange : Error :=
  protocolError "a binary plist object reference is out of range"

def recursiveObject : Error :=
  protocolError "a binary plist object is recursive"

/-- What the trailer and the offset table say of a file. -/
structure Decoder where
  bytes : Bytes
  offsets : List Nat
  refSize : Nat

namespace Decoder

variable (decoder : Decoder)

/-- The offset of an object. -/
def offsetAt (index : Nat) : Result Nat :=
  match decoder.offsets[index]? with
  | some offset => .ok offset
  | none => .error .outOfBounds

/-- The loop over the items of an array. -/
def decodeItems (decode : Nat → Action Error (Memo Plist) Plist) :
    Nat → Cursor → List Plist → Action Error (Memo Plist) (List Plist)
  | 0, _, items => return items
  | count + 1, reader, items => do
      let (reference, reader) ← Action.lift (readUint decoder.refSize reader)
      let item ← decode reference
      decodeItems decode count reader (items ++ [item])

/-- The loop over the entries of a dictionary, whose key references were read
before; a key that is no string counts as an empty one. -/
def decodeEntries (decode : Nat → Action Error (Memo Plist) Plist) :
    List Nat → Cursor → List (Bytes × Plist) →
      Action Error (Memo Plist) (List (Bytes × Plist))
  | [], _, entries => return entries
  | keyReference :: rest, reader, entries => do
      let key ← decode keyReference
      let (reference, reader) ← Action.lift (readUint decoder.refSize reader)
      let item ← decode reference
      decodeEntries decode rest reader
        (SortedMap.emplace (key.stringOr []) item entries)

/-- Reads one object, given how to decode those it refers to. -/
def decodeUncached (decode : Nat → Action Error (Memo Plist) Plist)
    (index : Nat) : Action Error (Memo Plist) Plist := do
  let position ← Action.lift (decoder.offsetAt index)
  let (head, reader) ←
    Action.lift (readHead decoder.refSize ⟨decoder.bytes, position⟩)
  match head with
  | .leaf value => return value
  | .array length => do
      let items ← decoder.decodeItems decode length reader []
      return .array items
  | .dictionary length => do
      let (keys, reader) ←
        Action.lift (readRefs decoder.refSize length reader)
      let entries ← decoder.decodeEntries decode keys reader []
      return .dictionary entries

/-- Decodes an object, from the cache when it is there. -/
def decode : Nat → Nat → Action Error (Memo Plist) Plist
  | 0, _ => Action.lift (.error .outOfFuel)
  | fuel + 1, index => do
      let memo ← get
      if decoder.offsets.length ≤ index then Action.fail referenceOutOfRange
      else
        match memo.cache index with
        | some value => return value
        | none =>
            if memo.active index then Action.fail recursiveObject
            else do
              modify (·.enter index)
              let result ←
                Action.attempt (decoder.decodeUncached (decode fuel) index)
              modify (·.leave index)
              match result with
              | .ok value => do
                  modify (·.store index value)
                  return value
              | .error e => Action.lift (.error e)

end Decoder

/-! ## The file -/

/-- The offset table. -/
def readOffsets (bytes : Bytes) (tableOffset offsetSize objectCount : Nat) :
    Result (List Nat) :=
  (List.range objectCount).mapM fun i =>
    readBe bytes (tableOffset + i * offsetSize) offsetSize

/-- Reads the header, the trailer and the offset table: the decoder, and the
number of the top object. -/
def openBinary (bytes : Bytes) : Result (Decoder × Nat) :=
  if bytes.length < 8 + kTrailerSize ∨ bytes.take 8 ≠ kHeader then
    .error (.error (protocolError "the binary plist header is missing"))
  else do
    let trailer := bytes.drop (bytes.length - kTrailerSize)
    let offsetSize ← byteAt trailer kTrailerOffsetSizeIndex
    let refSize ← byteAt trailer kTrailerRefSizeIndex
    let objectCount ← readBe trailer 8 8
    let topObject ← readBe trailer 16 8
    let tableOffset ← readBe trailer 24 8
    if offsetSize = 0 ∨ refSize = 0 ∨ objectCount = 0 ∨
        bytes.length < tableOffset ∨
        (bytes.length - tableOffset) / offsetSize.toNat < objectCount then
      .error (.error (protocolError "the binary plist trailer is malformed"))
    else do
      let offsets ← readOffsets bytes tableOffset offsetSize.toNat objectCount
      .ok (⟨bytes, offsets, refSize.toNat⟩, topObject)

/-- Parses the binary form.  No path is longer than there are objects, which
bounds the depth of the recursion. -/
def parseBinary (bytes : Bytes) : Result Plist := do
  let (decoder, topObject) ← openBinary bytes
  ((decoder.decode (decoder.offsets.length + 1) topObject).run Memo.empty).1

/-! ## The file as a graph -/

/-- The children of a dictionary, in the order they are decoded. -/
def interleave (keys values : List Nat) : List Nat :=
  (keys.zip values).flatMap fun entry => [entry.1, entry.2]

/-- The entries whose keys and values alternate. -/
def pairUp : List Plist → List (Bytes × Plist)
  | key :: value :: rest => (key.stringOr [], value) :: pairUp rest
  | _ => []

/-- How an object is made, whose references start at the reader's offset. -/
def Head.shape (refSize : Nat) (reader : Cursor) : Head → Result (Shape Plist)
  | .leaf value => .ok (Shape.leaf value)
  | .array length => do
      let (references, _) ← readRefs refSize length reader
      .ok ⟨references, .array⟩
  | .dictionary length => do
      let (keys, reader) ← readRefs refSize length reader
      let (values, _) ← readRefs refSize length reader
      .ok ⟨interleave keys values,
        fun objects => .dictionary (SortedMap.ofEntries (pairUp objects))⟩

namespace Decoder

/-- How an object is made, with `head` to read it up to its references. -/
def shape (head : Nat → Reading Error Head) (decoder : Decoder) (index : Nat) :
    Result (Shape Plist) := do
  let position ← decoder.offsetAt index
  let (object, reader) ← head decoder.refSize ⟨decoder.bytes, position⟩
  object.shape decoder.refSize reader

/-- The file as a graph of objects. -/
def graph (head : Nat → Reading Error Head) (decoder : Decoder) :
    ObjectGraph Error Plist where
  count := decoder.offsets.length
  outOfRange := referenceOutOfRange
  recursive := recursiveObject
  shape := decoder.shape head

end Decoder

/-- Parses the binary form without a cache: it unfolds every reference from the
top object on, and fails when one repeats on the current path. -/
def unfoldBinary (head : Nat → Reading Error Head) (bytes : Bytes) :
    Result Plist := do
  let (decoder, topObject) ← openBinary bytes
  (decoder.graph head).unfold (decoder.offsets.length + 1) [] topObject

end Ioscpp.Protocol.Plist
