import Ioscpp.Protocol.BinaryPlistDecode

/-!
# Keyed archives

An `NSKeyedArchive` is a binary property list that holds a tree as a table of
objects: a container's entries are `Uid` values, which are places in the table.
`archive` lays a tree out in such a table; `unarchive` follows the places again,
down to a nesting bound.
-/

namespace Ioscpp.Protocol.KeyedArchive

open Ioscpp.Support
open Plist

/-- The `$version` of every archive. -/
def kVersion : Int64 := 100000

/-- The `$archiver` that every archive names. -/
def kArchiver : Bytes := ascii "NSKeyedArchiver"

/-- The first object, a placeholder that stands for a null reference. -/
def kNull : Bytes := ascii "$null"

/-- The nesting bound. -/
def kMaxDepth : Nat := 64

/-- A reference to a place in the table. -/
def reference (slot : Nat) : Plist := .uid (UInt64.ofNat slot)

/-! ## Archiving -/

/-- The class definition an archived container points its `$class` at. -/
def classDictionary (name superclass : String) : Plist :=
  .dictionary (SortedMap.ofEntries
    [(ascii "$classes", .array [.string (ascii name), .string (ascii superclass)]),
      (ascii "$classname", .string (ascii name))])

/-- The object of an array. -/
def arrayObject (classSlot : Nat) (refs : List Nat) : Plist :=
  .dictionary (SortedMap.ofEntries
    [(ascii "$class", reference classSlot),
      (ascii "NS.objects", .array (refs.map reference))])

/-- The object of a dictionary. -/
def dictionaryObject (classSlot : Nat) (keys refs : List Nat) : Plist :=
  .dictionary (SortedMap.ofEntries
    [(ascii "$class", reference classSlot),
      (ascii "NS.keys", .array (keys.map reference)),
      (ascii "NS.objects", .array (refs.map reference))])

/-- Appends a value that holds no other. -/
def appendLeaf (value : Plist) (objects : List Plist) : Nat × List Plist :=
  (objects.length, objects ++ [value])

/-- Appends the keys of a dictionary. -/
def appendKeys : List (Bytes × Plist) → List Plist → List Nat × List Plist
  | [], objects => ([], objects)
  | (key, _) :: rest, objects =>
      let (slot, objects) := appendLeaf (.string key) objects
      let (slots, objects) := appendKeys rest objects
      (slot :: slots, objects)

mutual

/-- Appends `value` to the table and returns its slot.  A container reserves its
slot and its class's before what it holds is appended. -/
def appendObject (value : Plist) (objects : List Plist) : Nat × List Plist :=
  match value with
  | array items =>
      let slot := objects.length
      let classSlot := objects.length + 1
      let (refs, objects) := appendItems items
        (objects ++ [.null, classDictionary "NSArray" "NSObject"])
      (slot, objects.set slot (arrayObject classSlot refs))
  | dictionary entries =>
      let slot := objects.length
      let classSlot := objects.length + 1
      let (keys, objects) := appendKeys entries
        (objects ++ [.null, classDictionary "NSDictionary" "NSObject"])
      let (refs, objects) := appendValues entries objects
      (slot, objects.set slot (dictionaryObject classSlot keys refs))
  | value => appendLeaf value objects

/-- Appends the items of an array. -/
def appendItems (items : List Plist) (objects : List Plist) :
    List Nat × List Plist :=
  match items with
  | [] => ([], objects)
  | item :: rest =>
      let (slot, objects) := appendObject item objects
      let (slots, objects) := appendItems rest objects
      (slot :: slots, objects)

/-- Appends the values of a dictionary. -/
def appendValues (entries : List (Bytes × Plist)) (objects : List Plist) :
    List Nat × List Plist :=
  match entries with
  | [] => ([], objects)
  | (_, item) :: rest =>
      let (slot, objects) := appendObject item objects
      let (slots, objects) := appendValues rest objects
      (slot :: slots, objects)

end

/-- The property list around a table. -/
def skeleton (root : Nat) (objects : List Plist) : Plist :=
  .dictionary (SortedMap.ofEntries
    [(ascii "$version", .integer kVersion),
      (ascii "$archiver", .string kArchiver),
      (ascii "$top", .dictionary (SortedMap.ofEntries
        [(ascii "root", reference root)])),
      (ascii "$objects", .array objects)])

def archive (value : Plist) : Bytes :=
  let (root, objects) := appendObject value [.string kNull]
  toBinary (skeleton root objects)

/-! ## Resolving -/

def tooDeep : Error := protocolError "an NSKeyedArchive is nested too deeply"

/-- The loop over the keys and values of a dictionary; a key that is no string
counts as an empty one. -/
def resolveEntries (resolve : Plist → Result Plist) :
    List (Plist × Plist) → List (Bytes × Plist) → Result (List (Bytes × Plist))
  | [], entries => .ok entries
  | (key, ref) :: rest, entries => do
      let key ← resolve key
      let item ← resolve ref
      resolveEntries resolve rest
        (SortedMap.emplace (key.stringOr []) item entries)

/-- The items of an array, when a value is one. -/
def arrayOf : Plist → Option (List Plist)
  | array items => some items
  | _ => none

/-- Resolves the references of a value, given how to resolve what it refers to.
An object of a class that is no array or dictionary stays as it is. -/
def resolveObject (objects : List Plist) (resolve : Plist → Result Plist)
    (value : Plist) : Result Plist :=
  match value with
  | uid index =>
      match objects[index.toNat]? with
      | none =>
          .error (.error (protocolError "an NSKeyedArchive Uid is out of range"))
      | some object => resolve object
  | array refs => do
      let items ← refs.mapM resolve
      .ok (.array items)
  | dictionary _ =>
      match value.find (ascii "$class") with
      | none => .ok value
      | some (uid index) =>
          match objects[index.toNat]? with
          | none => .error (.error
              (protocolError "an NSKeyedArchive $class is not a Uid"))
          | some definition =>
              let name := ((definition.find (ascii "$classname")).map
                (·.stringOr [])).getD []
              if name = ascii "NSArray" ∨ name = ascii "NSMutableArray" then
                match (value.find (ascii "NS.objects")).bind arrayOf with
                | none => .error (.error (protocolError
                    "an NSKeyedArchive array has no NS.objects"))
                | some refs => do
                    let items ← refs.mapM resolve
                    .ok (.array items)
              else if name = ascii "NSDictionary" ∨
                  name = ascii "NSMutableDictionary" then
                match (value.find (ascii "NS.keys")).bind arrayOf,
                  (value.find (ascii "NS.objects")).bind arrayOf with
                | some keys, some refs =>
                    if keys.length ≠ refs.length then
                      .error (.error (protocolError
                        "an NSKeyedArchive dictionary has mismatched keys"))
                    else do
                      let entries ← resolveEntries resolve (keys.zip refs) []
                      .ok (.dictionary entries)
                | _, _ => .error (.error (protocolError
                    "an NSKeyedArchive dictionary has no keys"))
              else .ok value
      | some _ => .error (.error
          (protocolError "an NSKeyedArchive $class is not a Uid"))
  | value => .ok value

/-- Resolves a value, with the number of levels that are left: at depth `d` of
the source they are `kMaxDepth + 1 - d`. -/
def resolve (objects : List Plist) : Nat → Plist → Result Plist
  | 0, _ => .error (.error tooDeep)
  | levels + 1, value => resolveObject objects (resolve objects levels) value

/-- The references of a parsed archive: its root and its table. -/
def unarchiveParsed (parsed : Plist) : Result Plist :=
  if (parsed.find (ascii "$archiver")).map (·.stringOr []) ≠ some kArchiver then
    .error (.error (protocolError "the bytes are not an NSKeyedArchive"))
  else
    match parsed.find (ascii "$version") with
    | some (integer version) =>
        if version ≠ kVersion then
          .error (.error (protocolError
            "the NSKeyedArchive has an unknown version"))
        else
          match (parsed.find (ascii "$objects")).bind arrayOf with
          | none => .error (.error
              (protocolError "the NSKeyedArchive has no $objects"))
          | some objects =>
              match (parsed.find (ascii "$top")).bind (·.find (ascii "root")) with
              | some (uid index) =>
                  resolve objects (kMaxDepth + 1) (.uid index)
              | _ => .error (.error
                  (protocolError "the NSKeyedArchive has no $top root"))
    | _ => .error (.error
        (protocolError "the NSKeyedArchive has an unknown version"))

def unarchive (bytes : Bytes) : Result Plist := do
  let parsed ← parseBinary bytes
  unarchiveParsed parsed

end Ioscpp.Protocol.KeyedArchive
