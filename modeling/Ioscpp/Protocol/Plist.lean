import Ioscpp.Error
import Ioscpp.Support.SortedMap

/-!
# Property lists

A `Plist` is a property list value: a variant over the ten plist kinds, two of
which hold further values.  A dictionary is an ordered map, so here it is the
list of its entries with strictly increasing keys (`WellFormed`).  A real is its
64-bit pattern.
-/

namespace Ioscpp.Protocol

open Ioscpp.Support

/-- A property list value. -/
inductive Plist where
  | null
  | boolean (value : Bool)
  | integer (value : Int64)
  | real (bits : UInt64)
  | string (text : Bytes)
  | data (bytes : Bytes)
  | date (secondsSince2001 : Int64)
  | array (items : List Plist)
  | dictionary (entries : List (Bytes × Plist))
  | uid (index : UInt64)
  deriving Repr, Inhabited

namespace Plist

/-- The text of a string, or the fallback of any other value. -/
def stringOr (fallback : Bytes) : Plist → Bytes
  | string text => text
  | _ => fallback

/-- The value for `key`, when this is a dictionary that has one. -/
def find (key : Bytes) : Plist → Option Plist
  | dictionary entries => SortedMap.find key entries
  | _ => none

/-! ## Trees -/

/-- A value that holds no other. -/
def IsLeaf : Plist → Prop
  | array _ | dictionary _ => False
  | _ => True

instance : DecidablePred IsLeaf := fun value => by
  cases value <;> simp only [IsLeaf] <;> infer_instance

/-- Induction over a property list: its leaves, then its containers from what
they hold. -/
@[elab_as_elim]
theorem induct {motive : Plist → Prop}
    (leaf : ∀ value, value.IsLeaf → motive value)
    (array : ∀ items, (∀ item ∈ items, motive item) → motive (array items))
    (dictionary : ∀ entries, (∀ entry ∈ entries, motive entry.2) →
      motive (dictionary entries)) (value : Plist) : motive value := by
  refine Plist.rec (motive_1 := motive)
    (motive_2 := fun items => ∀ item ∈ items, motive item)
    (motive_3 := fun entries => ∀ entry ∈ entries, motive entry.2)
    (motive_4 := fun entry => motive entry.2)
    (leaf _ trivial) (fun _ => leaf _ trivial) (fun _ => leaf _ trivial)
    (fun _ => leaf _ trivial) (fun _ => leaf _ trivial)
    (fun _ => leaf _ trivial) (fun _ => leaf _ trivial) array dictionary
    (fun _ => leaf _ trivial) ?_ ?_ ?_ ?_ ?_ value
  · simp
  · intro head tail hhead htail item hmem
    rcases List.mem_cons.mp hmem with rfl | hmem
    · exact hhead
    · exact htail item hmem
  · simp
  · intro head tail hhead htail entry hmem
    rcases List.mem_cons.mp hmem with rfl | hmem
    · exact hhead
    · exact htail entry hmem
  · exact fun _ _ h => h

/-- Every dictionary of the tree has strictly increasing keys, as an ordered
map has. -/
inductive WellFormed : Plist → Prop
  | leaf {value : Plist} (h : value.IsLeaf) : WellFormed value
  | array {items : List Plist} (h : ∀ item ∈ items, WellFormed item) :
      WellFormed (array items)
  | dictionary {entries : List (Bytes × Plist)}
      (hsorted : SortedMap.Sorted entries)
      (h : ∀ entry ∈ entries, WellFormed entry.2) :
      WellFormed (dictionary entries)

/-- Every leaf of the tree satisfies `P`, and so does every dictionary key as a
string. -/
inductive AllLeaves (P : Plist → Prop) : Plist → Prop
  | leaf {value : Plist} (h : value.IsLeaf) (hP : P value) : AllLeaves P value
  | array {items : List Plist} (h : ∀ item ∈ items, AllLeaves P item) :
      AllLeaves P (array items)
  | dictionary {entries : List (Bytes × Plist)}
      (hkeys : ∀ entry ∈ entries, P (.string entry.1))
      (h : ∀ entry ∈ entries, AllLeaves P entry.2) :
      AllLeaves P (dictionary entries)

section

variable {P Q : Plist → Prop} {value : Plist} {items : List Plist}
  {entries : List (Bytes × Plist)}

theorem wellFormed_array :
    (array items).WellFormed ↔ ∀ item ∈ items, item.WellFormed := by
  constructor
  · rintro (⟨⟨⟩⟩ | h)
    exact h
  · exact .array

theorem wellFormed_dictionary :
    (dictionary entries).WellFormed ↔
      SortedMap.Sorted entries ∧ ∀ entry ∈ entries, entry.2.WellFormed := by
  constructor
  · rintro (⟨⟨⟩⟩ | _ | ⟨hsorted, h⟩)
    exact ⟨hsorted, h⟩
  · exact fun h => .dictionary h.1 h.2

theorem allLeaves_leaf (h : value.IsLeaf) : value.AllLeaves P ↔ P value := by
  constructor
  · intro hall
    cases hall with
    | leaf _ hP => exact hP
    | array => cases h
    | dictionary => cases h
  · exact .leaf h

theorem allLeaves_array :
    (array items).AllLeaves P ↔ ∀ item ∈ items, item.AllLeaves P := by
  constructor
  · rintro (⟨⟨⟩⟩ | h)
    exact h
  · exact .array

theorem allLeaves_dictionary :
    (dictionary entries).AllLeaves P ↔
      (∀ entry ∈ entries, P (.string entry.1)) ∧
        ∀ entry ∈ entries, entry.2.AllLeaves P := by
  constructor
  · rintro (⟨⟨⟩⟩ | _ | ⟨hkeys, h⟩)
    exact ⟨hkeys, h⟩
  · exact fun h => .dictionary h.1 h.2

theorem AllLeaves.imp (hPQ : ∀ value, P value → Q value)
    (h : value.AllLeaves P) : value.AllLeaves Q := by
  induction h with
  | leaf hleaf hP => exact .leaf hleaf (hPQ _ hP)
  | array _ ih => exact .array ih
  | dictionary hkeys _ ih =>
      exact .dictionary (fun entry hmem => hPQ _ (hkeys entry hmem)) ih

end

end Plist

end Ioscpp.Protocol
