import Ioscpp.Protocol.BinaryPlistGraph
import Ioscpp.Support.SortedMapFind

/-!
# The places of objects in a parsed file

A place is the way from the top value down to one inside it: the positions in arrays
and the keys of dictionaries.  The objects of a file refer to each other along the same
way, and what is found at a place of the value that was parsed is what the object there
stands for.

## Main results

- `Leads.exists_valueAt`: at a place of the value is what the object of that place
  stands for.
- `denotes_of_parseBinary`: the value that is parsed is what the top object stands
  for.
-/

namespace Ioscpp.Protocol.Plist

open Ioscpp.Support
open Ioscpp.Support.Reading

/-- A step from a container to a value in it. -/
inductive Step where
  | item (index : Nat)
  | entry (key : Bytes)
  deriving DecidableEq, Repr

/-- The value at a place. -/
def valueAt : List Step → Plist → Option Plist
  | [], value => some value
  | .item index :: rest, array items => items[index]?.bind (valueAt rest)
  | .entry key :: rest, dictionary entries =>
      (SortedMap.find key entries).bind (valueAt rest)
  | _ :: _, _ => none

namespace Decoder

variable (decoder : Decoder)

/-- The object is an array of these references. -/
def HoldsItems (object : Nat) (items : List Nat) : Prop :=
  ∃ position length reader last, decoder.offsets[object]? = some position ∧
    readHead decoder.refSize ⟨decoder.bytes, position⟩ = .ok (.array length, reader) ∧
    readRefs decoder.refSize length reader = .ok (items, last)

/-- The object is a dictionary of these references to keys and to values. -/
def HoldsEntries (object : Nat) (entries : List (Nat × Nat)) : Prop :=
  ∃ position length reader middle last keys values,
    decoder.offsets[object]? = some position ∧
    readHead decoder.refSize ⟨decoder.bytes, position⟩ =
      .ok (.dictionary length, reader) ∧
    readRefs decoder.refSize length reader = .ok (keys, middle) ∧
    readRefs decoder.refSize length middle = .ok (values, last) ∧
    entries = keys.zip values

/-- The object is read as a key; what is no string counts as an empty one. -/
def IsKey (object : Nat) (text : Bytes) : Prop :=
  ∃ value, (decoder.graph readHead).Denotes object value ∧ value.stringOr [] = text

/-- From one object on, the place is that of another.  Of the entries of a key the
first counts. -/
inductive Leads : Nat → List Step → Nat → Prop
  | here (object : Nat) : Leads object [] object
  | item {object child target index : Nat} {items : List Nat} {rest : List Step}
      (hobject : decoder.HoldsItems object items) (hchild : items[index]? = some child)
      (hrest : Leads child rest target) : Leads object (.item index :: rest) target
  | entry {object keyObject child target : Nat} {before after : List (Nat × Nat)}
      {key : Bytes} {rest : List Step}
      (hobject : decoder.HoldsEntries object (before ++ (keyObject, child) :: after))
      (hkey : decoder.IsKey keyObject key)
      (hfirst : ∀ entry ∈ before, ∀ text, decoder.IsKey entry.1 text → text ≠ key)
      (hrest : Leads child rest target) : Leads object (.entry key :: rest) target

variable {decoder} {object : Nat} {value : Plist}

theorem offsetAt_of_getElem? {position : Nat}
    (h : decoder.offsets[object]? = some position) :
    decoder.offsetAt object = .ok position ∧ object < decoder.offsets.length := by
  constructor
  · rw [offsetAt, h]
  · exact (List.getElem?_eq_some_iff.mp h).1

/-- What an array stands for. -/
theorem HoldsItems.denotes {items : List Nat} (h : decoder.HoldsItems object items)
    (hvalue : (decoder.graph readHead).Denotes object value) :
    ∃ values, List.Forall₂ (decoder.graph readHead).Denotes items values ∧
      value = .array values := by
  obtain ⟨position, length, reader, last, hoffset, hhead, hrefs⟩ := h
  obtain ⟨hposition, hcount⟩ := offsetAt_of_getElem? hoffset
  have hshape : (decoder.graph readHead).shape object = .ok ⟨items, .array⟩ := by
    change decoder.shape readHead object = _
    rw [shape, hposition, ok_bind, hhead, ok_bind]
    simp only [Head.shape, hrefs, ok_bind]
  exact (ObjectGraph.denotes_iff_of_shape hcount hshape).mp hvalue

/-- What a dictionary stands for. -/
theorem HoldsEntries.denotes {entries : List (Nat × Nat)}
    (h : decoder.HoldsEntries object entries)
    (hvalue : (decoder.graph readHead).Denotes object value) :
    ∃ pairs : List (Plist × Plist), List.Forall₂ (fun entry pair =>
        (decoder.graph readHead).Denotes entry.1 pair.1 ∧
          (decoder.graph readHead).Denotes entry.2 pair.2) entries pairs ∧
      value = .dictionary (SortedMap.ofEntries
        (pairs.map fun pair => (pair.1.stringOr [], pair.2))) := by
  obtain ⟨position, length, reader, middle, last, keys, values, hoffset, hhead, hkeys,
    hvalues, rfl⟩ := h
  obtain ⟨hposition, hcount⟩ := offsetAt_of_getElem? hoffset
  have hshape : (decoder.graph readHead).shape object = .ok ⟨interleave keys values,
      fun objects => .dictionary (SortedMap.ofEntries (pairUp objects))⟩ := by
    change decoder.shape readHead object = _
    rw [shape, hposition, ok_bind, hhead, ok_bind]
    simp only [Head.shape, hkeys, hvalues, ok_bind]
  obtain ⟨objects, hobjects, rfl⟩ :=
    (ObjectGraph.denotes_iff_of_shape hcount hshape).mp hvalue
  obtain ⟨pairs, hpairs, rfl⟩ := forall₂_interleave.mp hobjects
  refine ⟨pairs, hpairs, ?_⟩
  dsimp only
  rw [pairUp_flatMap]

/-- The first entry of a key is found in the dictionary that was made. -/
theorem find_of_first {before after : List (Nat × Nat)} {keyObject child : Nat}
    {key : Bytes} {pairs : List (Plist × Plist)}
    (hpairs : List.Forall₂ (fun entry pair =>
      (decoder.graph readHead).Denotes entry.1 pair.1 ∧
        (decoder.graph readHead).Denotes entry.2 pair.2)
      (before ++ (keyObject, child) :: after) pairs)
    (hkey : decoder.IsKey keyObject key)
    (hfirst : ∀ entry ∈ before, ∀ text, decoder.IsKey entry.1 text → text ≠ key) :
    ∃ item, (decoder.graph readHead).Denotes child item ∧
      SortedMap.find key (SortedMap.ofEntries
        (pairs.map fun pair => (pair.1.stringOr [], pair.2))) = some item := by
  rw [SortedMap.find_ofEntries]
  induction before generalizing pairs with
  | nil =>
      cases hpairs with
      | @cons _ pair _ tail hpair htail =>
          obtain ⟨value, hvalue, htext⟩ := hkey
          have hsame : pair.1.stringOr [] = key := by
            rw [hpair.1.unique hvalue, htext]
          refine ⟨pair.2, hpair.2, ?_⟩
          rw [List.map_cons, SortedMap.firstOf_cons_eq _ hsame]
          rfl
  | cons entry before ih =>
      cases hpairs with
      | @cons _ pair _ tail hpair htail =>
          obtain ⟨item, hitem, hfind⟩ := ih htail
            fun other hmem => hfirst other (List.mem_cons_of_mem _ hmem)
          have hne : pair.1.stringOr [] ≠ key :=
            hfirst entry List.mem_cons_self _ ⟨pair.1, hpair.1, rfl⟩
          refine ⟨item, hitem, ?_⟩
          rw [List.map_cons, SortedMap.firstOf_cons_ne _ hne]
          exact hfind

/-- At a place of the value is what the object of that place stands for, by the steps
from the object of the whole value. -/
theorem Leads.exists_valueAt {path : List Step} {target : Nat}
    (h : decoder.Leads object path target)
    (hvalue : (decoder.graph readHead).Denotes object value) :
    ∃ found, value.valueAt path = some found ∧
      (decoder.graph readHead).Denotes target found := by
  induction h generalizing value with
  | here object => exact ⟨value, rfl, hvalue⟩
  | @item object child target index items rest hobject hchild hrest ih =>
      obtain ⟨values, hvalues, rfl⟩ := hobject.denotes hvalue
      obtain ⟨hindex, rfl⟩ := List.getElem?_eq_some_iff.mp hchild
      obtain ⟨hlength, hget⟩ := List.forall₂_iff_get.mp hvalues
      have hindex' : index < values.length := hlength ▸ hindex
      obtain ⟨found, hfound, hdenotes⟩ := ih (hget index hindex hindex')
      refine ⟨found, ?_, hdenotes⟩
      rw [valueAt, List.getElem?_eq_getElem hindex']
      exact hfound
  | @entry object keyObject child target before after key rest hobject hkey hfirst hrest
      ih =>
      obtain ⟨pairs, hpairs, rfl⟩ := hobject.denotes hvalue
      obtain ⟨item, hitem, hfind⟩ := find_of_first hpairs hkey hfirst
      obtain ⟨found, hfound, hdenotes⟩ := ih hitem
      refine ⟨found, ?_, hdenotes⟩
      rw [valueAt, hfind]
      exact hfound

end Decoder

/-- The value that is parsed is what the top object stands for. -/
theorem denotes_of_parseBinary {bytes : Bytes} {decoder : Decoder} {top : Nat}
    {root : Plist} (hopen : openBinary bytes = .ok (decoder, top))
    (hparse : parseBinary bytes = .ok root) :
    (decoder.graph readHead).Denotes top root := by
  rw [parseBinary_eq_unfold, unfoldBinary, hopen, ok_bind] at hparse
  exact ObjectGraph.denotes_of_unfold hparse

end Ioscpp.Protocol.Plist
