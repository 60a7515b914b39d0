import Ioscpp.Protocol.Plist
import Ioscpp.Support.Binary64

/-!
# Binary property lists: writing

`toBinary` writes the `bplist00` form: a header, one object after the other, the
table of their offsets, and a trailer of 32 bytes.  An object starts with a
marker whose high nibble is its kind; a container holds references, the numbers
of other objects.

`flatten` numbers the objects.  The source identifies an object by its address;
here an `Address` is the path of a value inside the tree, or the text of a key
object, which the source owns besides the tree.
-/

namespace Ioscpp.Protocol

open Ioscpp.Support

def kMarkerNull : UInt8 := 0x00
def kMarkerFalse : UInt8 := 0x08
def kMarkerTrue : UInt8 := 0x09
def kMarkerInt : UInt8 := 0x10
def kMarkerReal : UInt8 := 0x20
def kMarkerDate : UInt8 := 0x30
def kMarkerData : UInt8 := 0x40
def kMarkerAscii : UInt8 := 0x50
def kMarkerUtf16 : UInt8 := 0x60
def kMarkerUid : UInt8 := 0x80
def kMarkerArray : UInt8 := 0xa0
def kMarkerDictionary : UInt8 := 0xd0
/-- The low nibble that says the count did not fit and follows as an integer
object. -/
def kMarkerCountFollows : UInt8 := 0x0f

def kTrailerSize : Nat := 32
def kTrailerOffsetSizeIndex : Nat := 6
def kTrailerRefSizeIndex : Nat := 7

/-- The first eight bytes. -/
def kHeader : Bytes := ascii "bplist00"

namespace Plist

def putBe (out : Bytes) (value size : Nat) : Bytes :=
  out ++ beBytes size value

/-- Appends an integer object with the smallest size that holds `value`. -/
def appendInt (out : Bytes) (value : Int64) : Bytes :=
  let word := value.toUInt64.toNat
  if 0 ≤ value then
    if value ≤ 0xff then putBe (out ++ [kMarkerInt]) word 1
    else if value ≤ 0xffff then putBe (out ++ [kMarkerInt ||| 1]) word 2
    else if value ≤ 0xffffffff then putBe (out ++ [kMarkerInt ||| 2]) word 4
    else putBe (out ++ [kMarkerInt ||| 3]) word 8
  else if -128 ≤ value then putBe (out ++ [kMarkerInt]) (word % 2 ^ 8) 1
  else if -32768 ≤ value then
    putBe (out ++ [kMarkerInt ||| 1]) (word % 2 ^ 16) 2
  else if -2147483648 ≤ value then
    putBe (out ++ [kMarkerInt ||| 2]) (word % 2 ^ 32) 4
  else putBe (out ++ [kMarkerInt ||| 3]) word 8

/-- Appends a length or count: in the marker when it is small, as an integer
object after it otherwise. -/
def appendCount (out : Bytes) (marker : UInt8) (count : Nat) : Bytes :=
  if count < kMarkerCountFollows.toNat then
    out ++ [marker ||| UInt8.ofNat count]
  else
    appendInt (out ++ [marker ||| kMarkerCountFollows])
      (UInt64.ofNat count).toInt64

/-- Appends a uid object with the smallest size that holds the index. -/
def appendUid (out : Bytes) (index : Nat) : Bytes :=
  if index ≤ 0xff then putBe (out ++ [kMarkerUid]) index 1
  else if index ≤ 0xffff then putBe (out ++ [kMarkerUid ||| 1]) index 2
  else if index ≤ 0xffffffff then putBe (out ++ [kMarkerUid ||| 2]) index 4
  else putBe (out ++ [kMarkerUid ||| 3]) index 8

/-! ## Numbering the objects -/

/-- Where an object is: in the tree, at the positions that lead to it (the last
one first), or among the key objects. -/
inductive Address where
  | node (path : List Nat)
  | key (text : Bytes)
  deriving DecidableEq, Repr

/-- The address of the value at a position of a container. -/
def Address.child : Address → Nat → Address
  | node path, position => node (position :: path)
  | key text, _ => key text

/-- A pointer to an object. -/
structure Pointer where
  address : Address
  target : Plist

/-- The objects in their order, the slots of those in the tree, and the slots
of the keys. -/
structure Flattened where
  objects : List Pointer := []
  slots : Address → Option Nat := fun _ => none
  keySlots : Bytes → Option Nat := fun _ => none

namespace Flattened

/-- Gives an object the next slot. -/
def place (state : Flattened) (pointer : Pointer) : Flattened :=
  { state with
    objects := state.objects ++ [pointer]
    slots := Function.update state.slots pointer.address
      (some state.objects.length) }

/-- Gives a key the next slot, when it has none, and places its object there.
The key object is a string, so flattening it places only itself. -/
def placeKey (state : Flattened) (text : Bytes) : Flattened :=
  if (state.keySlots text).isSome then state
  else
    place { state with
      keySlots := Function.update state.keySlots text
        (some state.objects.length) } ⟨.key text, .string text⟩

end Flattened

mutual

/-- Assigns every object of `value` a slot, in the order they are written. -/
def flatten (address : Address) (value : Plist) (state : Flattened) :
    Flattened :=
  if (state.slots address).isSome then state
  else
    let state := state.place ⟨address, value⟩
    match value with
    | array items => flattenItems address 0 items state
    | dictionary entries =>
        let state := (entries.map Prod.fst).foldl Flattened.placeKey state
        flattenValues address 0 entries state
    | _ => state

/-- The items of an array, from a position on. -/
def flattenItems (address : Address) (position : Nat) (items : List Plist)
    (state : Flattened) : Flattened :=
  match items with
  | [] => state
  | item :: rest =>
      flattenItems address (position + 1) rest
        (flatten (address.child position) item state)

/-- The values of a dictionary, from a position on. -/
def flattenValues (address : Address) (position : Nat)
    (entries : List (Bytes × Plist)) (state : Flattened) : Flattened :=
  match entries with
  | [] => state
  | (_, value) :: rest =>
      flattenValues address (position + 1) rest
        (flatten (address.child position) value state)

end

/-! ## Writing the objects -/

/-- The slot of an object; `flatten` placed every one that is asked for. -/
def Flattened.slotAt (state : Flattened) (address : Address) : Nat :=
  (state.slots address).getD 0

/-- The slot of a key. -/
def Flattened.keySlotAt (state : Flattened) (text : Bytes) : Nat :=
  (state.keySlots text).getD 0

/-- Appends a reference to the value at each of `count` positions. -/
def appendRefs (out : Bytes) (state : Flattened) (address : Address)
    (refSize count : Nat) : Bytes :=
  (List.range count).foldl (fun out position =>
    putBe out (state.slotAt (address.child position)) refSize) out

/-- Appends one object. -/
def appendObject (state : Flattened) (refSize : Nat) (out : Bytes)
    (pointer : Pointer) : Bytes :=
  match pointer.target with
  | null => out ++ [kMarkerNull]
  | boolean value => out ++ [if value then kMarkerTrue else kMarkerFalse]
  | integer value => appendInt out value
  | real bits => putBe (out ++ [kMarkerReal ||| 3]) bits.toNat 8
  | date seconds =>
      putBe (out ++ [kMarkerDate ||| 3]) (Binary64.ofInt64 seconds).toNat 8
  | string text => appendCount out kMarkerAscii text.length ++ text
  | data bytes => appendCount out kMarkerData bytes.length ++ bytes
  | array items =>
      let out := appendCount out kMarkerArray items.length
      appendRefs out state pointer.address refSize items.length
  | dictionary entries =>
      let out := appendCount out kMarkerDictionary entries.length
      -- the keys and then the values, each in key order
      let out := entries.foldl (fun out entry =>
        putBe out (state.keySlotAt entry.1) refSize) out
      appendRefs out state pointer.address refSize entries.length
  | uid index => appendUid out index.toNat

/-- Appends the objects, noting the offset of each. -/
def appendObjects (state : Flattened) (refSize : Nat) :
    List Pointer → List Nat → Bytes → List Nat × Bytes
  | [], offsets, out => (offsets, out)
  | pointer :: rest, offsets, out =>
      appendObjects state refSize rest (offsets ++ [out.length])
        (appendObject state refSize out pointer)

/-- The number of bytes an index or offset takes: from `size` on, the first at
which no bit of `value` is left over, and eight at most. -/
def byteWidth (value : Nat) : (turns : Nat) → (size : Nat) → Nat
  | 0, size => size
  | turns + 1, size =>
      if size < 8 ∧ value >>> (8 * size) ≠ 0 then
        byteWidth value turns (size + 1)
      else size

/-- Writes the binary form. -/
def toBinary (value : Plist) : Bytes :=
  let state := flatten (.node []) value {}
  let refSize := byteWidth state.objects.length 7 1
  let (offsets, out) := appendObjects state refSize state.objects [] kHeader
  let tableOffset := out.length
  let offsetSize := byteWidth tableOffset 7 1
  let out := offsets.foldl (fun out offset => putBe out offset offsetSize) out
  let out := out ++ List.replicate kTrailerOffsetSizeIndex 0
  let out := out ++ [UInt8.ofNat offsetSize, UInt8.ofNat refSize]
  let out := putBe out state.objects.length 8
  let out := putBe out (state.slotAt (.node [])) 8
  putBe out tableOffset 8

example : toBinary (.array [.boolean true, .string (ascii "hi")]) =
    ascii "bplist00" ++ [0xa2, 1, 2, 0x09, 0x52, 104, 105, 8, 11, 12] ++
      [0, 0, 0, 0, 0, 0, 1, 1] ++ beBytes 8 3 ++ beBytes 8 0 ++ beBytes 8 15 := by
  decide

end Plist

end Ioscpp.Protocol
