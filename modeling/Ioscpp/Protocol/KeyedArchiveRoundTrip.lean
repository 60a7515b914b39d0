import Ioscpp.Protocol.BinaryPlistRoundTrip
import Ioscpp.Protocol.KeyedArchive

/-!
# The archive round trip and its depth limit

`Stored objects slot value` says that the table holds `value` at `slot`.
Appending a value stores it (`appendObject_spec`), in a part of the table that
later appends leave alone.  Resolving a stored value takes two levels for each
container around a node, one for the reference and one for the object, so that
the bound is met exactly by the values nested `kMaxNesting` deep.

What an archive adds to the leaves of its value are texts in ASCII, references and
the version (`Constants`), so whatever holds of those and of the value's own leaves
holds of all that is written.

## Main results

- `built_archived`: the leaves of the property list of an archive.
- `unarchiveParsed_archived`: resolving that list gives the value back, or finds it
  too deep.
- `unarchive_archive`: the round trip of this library.
-/

namespace Ioscpp.Protocol.KeyedArchive

open Ioscpp.Support
open Plist

/-! ## Nesting -/

mutual

/-- The most containers that enclose a node of a value. -/
def nesting : Plist → Nat
  | array items => nestingItems items
  | dictionary entries => nestingEntries entries
  | _ => 0

def nestingItems : List Plist → Nat
  | [] => 0
  | item :: rest => max (nesting item + 1) (nestingItems rest)

def nestingEntries : List (Bytes × Plist) → Nat
  | [] => 0
  | (_, item) :: rest => max (nesting item + 1) (nestingEntries rest)

end

theorem nesting_leaf {value : Plist} (h : value.IsLeaf) : nesting value = 0 := by
  cases value <;> first
    | exact h.elim
    | rw [nesting] <;> simp

theorem nesting_array_le {items : List Plist} {n : Nat} :
    nesting (.array items) ≤ n ↔ ∀ item ∈ items, nesting item + 1 ≤ n := by
  rw [nesting]
  induction items with
  | nil => simp [nestingItems]
  | cons item rest ih => simp [nestingItems, ih]

theorem nesting_dictionary_le {entries : List (Bytes × Plist)} {n : Nat} :
    nesting (.dictionary entries) ≤ n ↔
      ∀ entry ∈ entries, nesting entry.2 + 1 ≤ n := by
  rw [nesting]
  induction entries with
  | nil => simp [nestingEntries]
  | cons entry rest ih => simp [nestingEntries, ih]

/-- The deepest nesting that the levels of `resolve` reach. -/
def kMaxNesting : Nat := 31

/-! ## What a table holds -/

/-- The table holds `value` at `slot`. -/
inductive Stored (objects : List Plist) : Nat → Plist → Prop
  | leaf {slot : Nat} {value : Plist} (hleaf : value.IsLeaf)
      (hobject : objects[slot]? = some value) : Stored objects slot value
  | array {slot classSlot : Nat} {refs : List Nat} {items : List Plist}
      (hobject : objects[slot]? = some (arrayObject classSlot refs))
      (hclass : objects[classSlot]? =
        some (classDictionary "NSArray" "NSObject"))
      (hlength : refs.length = items.length)
      (hitems : ∀ entry ∈ refs.zip items, Stored objects entry.1 entry.2) :
      Stored objects slot (.array items)
  | dictionary {slot classSlot : Nat} {keys refs : List Nat}
      {entries : List (Bytes × Plist)}
      (hobject : objects[slot]? = some (dictionaryObject classSlot keys refs))
      (hclass : objects[classSlot]? =
        some (classDictionary "NSDictionary" "NSObject"))
      (hkeysLength : keys.length = entries.length)
      (hkeys : ∀ entry ∈ keys.zip entries,
        objects[entry.1]? = some (.string entry.2.1))
      (hlength : refs.length = entries.length)
      (hvalues : ∀ entry ∈ refs.zip entries, Stored objects entry.1 entry.2.2) :
      Stored objects slot (.dictionary entries)

/-! ## Appending stores -/

/-- The table went from `objects` to `after`, and any table that agrees with
`after` on the new part satisfies `P`. -/
structure Appends (objects after : List Plist) (P : List Plist → Prop) : Prop where
  extends_ : objects <+: after
  holds : ∀ final : List Plist, (∀ i, objects.length ≤ i → i < after.length →
    final[i]? = after[i]?) → P final

section Appends

variable {objects middle after : List Plist} {P Q : List Plist → Prop}

theorem Appends.refl (h : ∀ final, P final) : Appends objects objects P :=
  ⟨List.prefix_rfl, fun final _ => h final⟩

theorem Appends.imp (h : Appends objects after P) (himp : ∀ final, P final → Q final) :
    Appends objects after Q :=
  ⟨h.extends_, fun final hagree => himp final (h.holds final hagree)⟩

theorem Appends.trans (h : Appends objects middle P) (h' : Appends middle after Q) :
    Appends objects after fun final => P final ∧ Q final where
  extends_ := h.extends_.trans h'.extends_
  holds := by
    intro final hagree
    have hlow := h.extends_.length_le
    have hhigh := h'.extends_.length_le
    refine ⟨h.holds final fun i hi hlt => ?_, h'.holds final fun i hi hlt => ?_⟩
    · obtain ⟨rest, hrest⟩ := h'.extends_
      rw [hagree i hi (by omega), ← hrest, List.getElem?_append_left hlt]
    · exact hagree i (by omega) hlt

theorem appendLeaf_spec (value : Plist) (objects : List Plist) :
    Appends objects (appendLeaf value objects).2 fun final =>
      final[(appendLeaf value objects).1]? = some value where
  extends_ := List.prefix_append _ _
  holds := by
    intro final hagree
    rw [appendLeaf, hagree objects.length le_rfl (by simp [appendLeaf])]
    simp [appendLeaf]

/-- What a container does to the table: its slot and its class are reserved, its
members are appended, and its slot is filled. -/
theorem Appends.container {definition object : Plist}
    (h : Appends (objects ++ [.null, definition]) after P) :
    Appends objects (after.set objects.length object) fun final =>
      final[objects.length]? = some object ∧
        final[objects.length + 1]? = some definition ∧ P final := by
  obtain ⟨members, hmembers⟩ := h.extends_
  have hafter : after.set objects.length object =
      objects ++ object :: definition :: members := by
    rw [← hmembers, List.append_assoc, List.set_append_right _ _ le_rfl]
    simp
  have hlength : after.length = objects.length + (members.length + 2) := by
    rw [← hmembers]
    simp only [List.length_append, List.length_cons, List.length_nil]
    omega
  refine ⟨hafter ▸ List.prefix_append _ _, fun final hagree => ?_⟩
  rw [List.length_set] at hagree
  refine ⟨?_, ?_, h.holds final fun i hi hlt => ?_⟩
  · rw [hagree _ le_rfl (by omega), hafter]
    simp
  · rw [hagree _ (by omega) (by omega), hafter,
      List.getElem?_append_right (by omega)]
    simp
  · have hlow : objects.length + 2 ≤ i := by simpa using hi
    rw [hagree i (by omega) hlt, List.getElem?_set_ne (by omega)]

end Appends

/-- What appending a value does. -/
def Archives (value : Plist) : Prop :=
  ∀ objects, Appends objects (appendObject value objects).2 fun final =>
    Stored final (appendObject value objects).1 value

theorem appendKeys_spec (entries : List (Bytes × Plist)) (objects : List Plist) :
    (appendKeys entries objects).1.length = entries.length ∧
      Appends objects (appendKeys entries objects).2 fun final =>
        ∀ entry ∈ (appendKeys entries objects).1.zip entries,
          final[entry.1]? = some (.string entry.2.1) := by
  induction entries generalizing objects with
  | nil => exact ⟨rfl, .refl fun _ => by simp [appendKeys]⟩
  | cons entry rest ih =>
      obtain ⟨key, item⟩ := entry
      obtain ⟨hlength, hrest⟩ := ih (appendLeaf (.string key) objects).2
      refine ⟨congrArg (· + 1) hlength,
        ((appendLeaf_spec (.string key) objects).trans hrest).imp ?_⟩
      rintro final ⟨hfirst, hothers⟩
      exact List.forall_mem_cons.mpr ⟨hfirst, hothers⟩

theorem appendItems_spec {items : List Plist} (h : ∀ item ∈ items, Archives item)
    (objects : List Plist) :
    (appendItems items objects).1.length = items.length ∧
      Appends objects (appendItems items objects).2 fun final =>
        ∀ entry ∈ (appendItems items objects).1.zip items,
          Stored final entry.1 entry.2 := by
  induction items generalizing objects with
  | nil => exact ⟨rfl, .refl fun _ => by simp [appendItems]⟩
  | cons item rest ih =>
      obtain ⟨hitem, hothers⟩ := List.forall_mem_cons.mp h
      obtain ⟨hlength, hrest⟩ := ih hothers (appendObject item objects).2
      rw [appendItems]
      refine ⟨congrArg (· + 1) hlength, ((hitem objects).trans hrest).imp ?_⟩
      rintro final ⟨hfirst, hlater⟩
      exact List.forall_mem_cons.mpr ⟨hfirst, hlater⟩

theorem appendValues_spec {entries : List (Bytes × Plist)}
    (h : ∀ entry ∈ entries, Archives entry.2) (objects : List Plist) :
    (appendValues entries objects).1.length = entries.length ∧
      Appends objects (appendValues entries objects).2 fun final =>
        ∀ entry ∈ (appendValues entries objects).1.zip entries,
          Stored final entry.1 entry.2.2 := by
  induction entries generalizing objects with
  | nil => exact ⟨rfl, .refl fun _ => by simp [appendValues]⟩
  | cons entry rest ih =>
      obtain ⟨hentry, hothers⟩ := List.forall_mem_cons.mp h
      obtain ⟨hlength, hrest⟩ := ih hothers (appendObject entry.2 objects).2
      rw [appendValues]
      refine ⟨congrArg (· + 1) hlength, ((hentry objects).trans hrest).imp ?_⟩
      rintro final ⟨hfirst, hlater⟩
      exact List.forall_mem_cons.mpr ⟨hfirst, hlater⟩

/-- Appending a value stores it at the end of the table. -/
theorem appendObject_spec (value : Plist) : Archives value := by
  induction value using Plist.induct with
  | leaf value hleaf =>
      intro objects
      have happend : appendObject value objects = appendLeaf value objects := by
        cases value <;> first
          | exact hleaf.elim
          | rw [appendObject] <;> simp
      rw [happend]
      exact (appendLeaf_spec value objects).imp fun _ => .leaf hleaf
  | array items ih =>
      intro objects
      obtain ⟨hlength, hitems⟩ := appendItems_spec ih
        (objects ++ [.null, classDictionary "NSArray" "NSObject"])
      rw [appendObject]
      refine hitems.container.imp ?_
      rintro final ⟨hobject, hclass, hstored⟩
      exact .array hobject hclass hlength hstored
  | dictionary entries ih =>
      intro objects
      obtain ⟨hkeysLength, hkeys⟩ := appendKeys_spec entries
        (objects ++ [.null, classDictionary "NSDictionary" "NSObject"])
      obtain ⟨hlength, hvalues⟩ := appendValues_spec ih
        (appendKeys entries
          (objects ++ [.null, classDictionary "NSDictionary" "NSObject"])).2
      rw [appendObject]
      refine (hkeys.trans hvalues).container.imp ?_
      rintro final ⟨hobject, hclass, hkeysStored, hstored⟩
      exact .dictionary hobject hclass hkeysLength hkeysStored hlength hstored

/-! ## The leaves of an archive -/

/-- A well-formed tree of such leaves. -/
def Built (P : Plist → Prop) (value : Plist) : Prop :=
  value.WellFormed ∧ value.AllLeaves P

/-- The leaves that an archive adds to those of its value. -/
structure Constants (P : Plist → Prop) : Prop where
  null : P .null
  version : P (.integer kVersion)
  uid : ∀ index, P (.uid index)
  text : ∀ text : Bytes, text.all (· < 0x80) = true → P (.string text)

section Built

variable {P : Plist → Prop} {value : Plist} {objects after : List Plist}

theorem built_leaf (h : value.IsLeaf) (hP : P value) : Built P value :=
  ⟨.leaf h, .leaf h hP⟩

theorem built_array {items : List Plist} :
    Built P (.array items) ↔ ∀ item ∈ items, Built P item := by
  rw [Built, wellFormed_array, allLeaves_array]
  exact ⟨fun h item hmem => ⟨h.1 item hmem, h.2 item hmem⟩,
    fun h => ⟨fun item hmem => (h item hmem).1, fun item hmem => (h item hmem).2⟩⟩

theorem built_ofEntries {entries : List (Bytes × Plist)}
    (hkeys : ∀ entry ∈ entries, P (.string entry.1))
    (h : ∀ entry ∈ entries, Built P entry.2) :
    Built P (.dictionary (SortedMap.ofEntries entries)) := by
  have hmem : ∀ entry ∈ SortedMap.ofEntries entries, entry ∈ entries :=
    fun _ => SortedMap.mem_ofEntries
  constructor
  · rw [wellFormed_dictionary]
    exact ⟨SortedMap.sorted_ofEntries entries,
      fun entry hentry => (h entry (hmem entry hentry)).1⟩
  · rw [allLeaves_dictionary]
    exact ⟨fun entry hentry => hkeys entry (hmem entry hentry),
      fun entry hentry => (h entry (hmem entry hentry)).2⟩

theorem built_references (hconstants : Constants P) (slots : List Nat) :
    Built P (.array (slots.map reference)) := by
  rw [built_array]
  intro item hmem
  obtain ⟨slot, -, rfl⟩ := List.mem_map.mp hmem
  exact built_leaf trivial (hconstants.uid _)

theorem built_classDictionary (hconstants : Constants P) {name superclass : String}
    (hname : (ascii name).all (· < 0x80) = true)
    (hsuperclass : (ascii superclass).all (· < 0x80) = true) :
    Built P (classDictionary name superclass) := by
  have hfirst : Built P (.string (ascii name)) :=
    built_leaf trivial (hconstants.text _ hname)
  have hsecond : Built P (.string (ascii superclass)) :=
    built_leaf trivial (hconstants.text _ hsuperclass)
  refine built_ofEntries ?_ ?_
  · simp only [List.forall_mem_cons]
    exact ⟨hconstants.text _ (by decide +kernel),
      hconstants.text _ (by decide +kernel), by simp⟩
  · simp only [List.forall_mem_cons, built_array]
    exact ⟨⟨hfirst, hsecond, by simp⟩, hfirst, by simp⟩

theorem built_arrayObject (hconstants : Constants P) (classSlot : Nat)
    (refs : List Nat) : Built P (arrayObject classSlot refs) := by
  refine built_ofEntries ?_ ?_
  · simp only [List.forall_mem_cons]
    exact ⟨hconstants.text _ (by decide +kernel),
      hconstants.text _ (by decide +kernel), by simp⟩
  · simp only [List.forall_mem_cons]
    exact ⟨built_leaf trivial (hconstants.uid _),
      built_references hconstants refs, by simp⟩

theorem built_dictionaryObject (hconstants : Constants P) (classSlot : Nat)
    (keys refs : List Nat) : Built P (dictionaryObject classSlot keys refs) := by
  refine built_ofEntries ?_ ?_
  · simp only [List.forall_mem_cons]
    exact ⟨hconstants.text _ (by decide +kernel),
      hconstants.text _ (by decide +kernel),
      hconstants.text _ (by decide +kernel), by simp⟩
  · simp only [List.forall_mem_cons]
    exact ⟨built_leaf trivial (hconstants.uid _),
      built_references hconstants keys, built_references hconstants refs, by simp⟩

/-- A table whose objects are such trees. -/
def BuiltAll (P : Plist → Prop) (objects : List Plist) : Prop :=
  ∀ object ∈ objects, Built P object

theorem builtAll_append {others : List Plist} (h : BuiltAll P objects)
    (h' : BuiltAll P others) : BuiltAll P (objects ++ others) := by
  intro object hmem
  rcases List.mem_append.mp hmem with hmem | hmem
  · exact h object hmem
  · exact h' object hmem

theorem builtAll_set {slot : Nat} {object : Plist} (h : BuiltAll P objects)
    (hobject : Built P object) : BuiltAll P (objects.set slot object) := by
  intro other hmem
  rcases List.mem_or_eq_of_mem_set hmem with hmem | rfl
  · exact h other hmem
  · exact hobject

theorem builtAll_appendKeys {entries : List (Bytes × Plist)}
    (hkeys : ∀ entry ∈ entries, P (.string entry.1)) (h : BuiltAll P objects) :
    BuiltAll P (appendKeys entries objects).2 := by
  induction entries generalizing objects with
  | nil => exact h
  | cons entry rest ih =>
      obtain ⟨hkey, hrest⟩ := List.forall_mem_cons.mp hkeys
      refine ih hrest (builtAll_append h ?_)
      intro object hmem
      rw [List.mem_singleton.mp hmem]
      exact built_leaf trivial hkey

/-- Appending a value keeps such a table one. -/
def AppendsBuilt (P : Plist → Prop) (value : Plist) : Prop :=
  ∀ objects, BuiltAll P objects → BuiltAll P (appendObject value objects).2

theorem builtAll_appendItems {items : List Plist}
    (h : ∀ item ∈ items, AppendsBuilt P item) (hobjects : BuiltAll P objects) :
    BuiltAll P (appendItems items objects).2 := by
  induction items generalizing objects with
  | nil => rwa [appendItems]
  | cons item rest ih =>
      obtain ⟨hitem, hrest⟩ := List.forall_mem_cons.mp h
      rw [appendItems]
      exact ih hrest (hitem objects hobjects)

theorem builtAll_appendValues {entries : List (Bytes × Plist)}
    (h : ∀ entry ∈ entries, AppendsBuilt P entry.2)
    (hobjects : BuiltAll P objects) :
    BuiltAll P (appendValues entries objects).2 := by
  induction entries generalizing objects with
  | nil => rwa [appendValues]
  | cons entry rest ih =>
      obtain ⟨hentry, hrest⟩ := List.forall_mem_cons.mp h
      rw [appendValues]
      exact ih hrest (hentry objects hobjects)

private theorem builtAll_reserve (hconstants : Constants P) {name : String}
    (hname : (ascii name).all (· < 0x80) = true) (h : BuiltAll P objects) :
    BuiltAll P (objects ++ [.null, classDictionary name "NSObject"]) := by
  refine builtAll_append h ?_
  simp only [BuiltAll, List.forall_mem_cons]
  exact ⟨built_leaf trivial hconstants.null,
    built_classDictionary hconstants hname (by decide +kernel), by simp⟩

theorem appendsBuilt (hconstants : Constants P) (h : value.AllLeaves P) :
    AppendsBuilt P value := by
  induction value using Plist.induct with
  | leaf value hleaf =>
      intro objects hobjects
      have happend : appendObject value objects = appendLeaf value objects := by
        cases value <;> first
          | exact hleaf.elim
          | rw [appendObject] <;> simp
      rw [happend]
      refine builtAll_append hobjects ?_
      intro object hmem
      rw [List.mem_singleton.mp hmem]
      exact built_leaf hleaf ((allLeaves_leaf hleaf).mp h)
  | array items ih =>
      intro objects hobjects
      have hitems := builtAll_appendItems
        (fun item hmem => ih item hmem (allLeaves_array.mp h item hmem))
        (@builtAll_reserve P objects hconstants "NSArray" (by decide +kernel)
          hobjects)
      rw [appendObject]
      exact builtAll_set hitems (built_arrayObject hconstants _ _)
  | dictionary entries ih =>
      intro objects hobjects
      obtain ⟨hkeys, hvalues⟩ := allLeaves_dictionary.mp h
      have hslots := builtAll_appendKeys hkeys
        (@builtAll_reserve P objects hconstants "NSDictionary" (by decide +kernel)
          hobjects)
      have hentries := builtAll_appendValues
        (fun entry hmem => ih entry hmem (hvalues entry hmem)) hslots
      rw [appendObject]
      exact builtAll_set hentries (built_dictionaryObject hconstants _ _ _)

theorem built_skeleton (hconstants : Constants P) (root : Nat)
    (h : BuiltAll P objects) : Built P (skeleton root objects) := by
  have htop : Built P (.dictionary (SortedMap.ofEntries
      [(ascii "root", reference root)])) := by
    refine built_ofEntries ?_ ?_
    · simp only [List.forall_mem_cons]
      exact ⟨hconstants.text _ (by decide +kernel), by simp⟩
    · simp only [List.forall_mem_cons]
      exact ⟨built_leaf trivial (hconstants.uid _), by simp⟩
  refine built_ofEntries ?_ ?_
  · simp only [List.forall_mem_cons]
    exact ⟨hconstants.text _ (by decide +kernel),
      hconstants.text _ (by decide +kernel),
      hconstants.text _ (by decide +kernel),
      hconstants.text _ (by decide +kernel), by simp⟩
  · simp only [List.forall_mem_cons]
    exact ⟨built_leaf trivial hconstants.version,
      built_leaf trivial (hconstants.text _ (by decide +kernel)), htop,
      built_array.mpr h, by simp⟩

end Built

/-! ## Resolving what is stored -/

/-- Mapping that passes or fails by member passes when all members do. -/
theorem mapM_gate {α β : Type} {f : α → Result β} {passes : β → Prop}
    [DecidablePred passes] {e : Fault Error} {as : List α} {bs : List β}
    (h : List.Forall₂ (fun a b => f a = if passes b then .ok b else .error e)
      as bs) :
    as.mapM f = if ∀ b ∈ bs, passes b then .ok bs else .error e := by
  induction h with
  | nil => simp
  | @cons a b as bs hfirst _ ih =>
      rw [List.mapM_cons, hfirst, ih]
      by_cases hall : ∀ other ∈ b :: bs, passes other
      · obtain ⟨hb, hbs⟩ := List.forall_mem_cons.mp hall
        rw [if_pos hb, if_pos hbs, if_pos hall]
        rfl
      · rw [if_neg hall]
        by_cases hb : passes b
        · have hbs : ¬ ∀ other ∈ bs, passes other := fun hbs =>
            hall (List.forall_mem_cons.mpr ⟨hb, hbs⟩)
          rw [if_pos hb, if_neg hbs]
          rfl
        · rw [if_neg hb]
          rfl

/-- So does the loop over the entries of a dictionary, whose keys pass when
their values do. -/
theorem resolveEntries_gate {f : Plist → Result Plist} {passes : Plist → Prop}
    [DecidablePred passes] {least : Prop} [Decidable least]
    {e : Fault Error} (hleast : ∀ item, passes item → least)
    {pairs : List (Plist × Plist)} {entries : List (Bytes × Plist)}
    (h : List.Forall₂ (fun pair entry =>
      (f pair.1 = if least then .ok (.string entry.1) else .error e) ∧
        f pair.2 = if passes entry.2 then .ok entry.2 else .error e) pairs entries)
    (found : List (Bytes × Plist)) :
    resolveEntries f pairs found =
      if ∀ entry ∈ entries, passes entry.2 then
        .ok (entries.foldl
          (fun map entry => SortedMap.emplace entry.1 entry.2 map) found)
      else .error e := by
  induction h generalizing found with
  | nil => simp [resolveEntries]
  | @cons pair entry pairs entries hfirst _ ih =>
      obtain ⟨key, ref⟩ := pair
      obtain ⟨hkey, hvalue⟩ := hfirst
      rw [resolveEntries, hkey, hvalue]
      by_cases hpasses : passes entry.2
      · rw [if_pos (hleast _ hpasses), ok_bind, if_pos hpasses, ok_bind, ih]
        by_cases hrest : ∀ other ∈ entries, passes other.2
        · have hall : ∀ other ∈ entry :: entries, passes other.2 := by
            intro other hmem
            rcases List.mem_cons.mp hmem with rfl | hmem
            · exact hpasses
            · exact hrest other hmem
          rw [if_pos hrest, if_pos hall]
          rfl
        · have hnot : ¬ ∀ other ∈ entry :: entries, passes other.2 :=
            fun hall => hrest fun other hmem =>
              hall other (List.mem_cons_of_mem _ hmem)
          rw [if_neg hrest, if_neg hnot]
      · have hnot : ¬ ∀ other ∈ entry :: entries, passes other.2 :=
          fun hall => hpasses (hall entry (by simp))
        rw [if_neg hnot, if_neg hpasses]
        split <;> rfl

section Resolve

variable {objects : List Plist} {slot : Nat} {object : Plist}

/-- A reference is resolved as the object it refers to, a level further on. -/
theorem resolve_reference (hsmall : objects.length < 2 ^ 64)
    (h : objects[slot]? = some object) (levels : Nat) :
    resolve objects (levels + 1) (reference slot) =
      resolve objects levels object := by
  have hlt := (List.getElem?_eq_some_iff.mp h).1
  have hindex : (UInt64.ofNat slot).toNat = slot := by
    rw [UInt64.toNat_ofNat']
    exact Nat.mod_eq_of_lt (by omega)
  rw [resolve, reference, resolveObject, hindex, h]

private theorem find_class {classSlot : Nat} {name superclass : String}
    (hsmall : objects.length < 2 ^ 64)
    (hclass : objects[classSlot]? = some (classDictionary name superclass)) :
    objects[(UInt64.ofNat classSlot).toNat]? =
      some (classDictionary name superclass) := by
  have hlt := (List.getElem?_eq_some_iff.mp hclass).1
  rw [UInt64.toNat_ofNat', Nat.mod_eq_of_lt (by omega), hclass]

/-- The object of an array is resolved item by item. -/
theorem resolveObject_array {classSlot : Nat} {refs : List Nat}
    {f : Plist → Result Plist} (hsmall : objects.length < 2 ^ 64)
    (hclass : objects[classSlot]? = some (classDictionary "NSArray" "NSObject")) :
    resolveObject objects f (arrayObject classSlot refs) =
      ((refs.map reference).mapM f >>= fun items => .ok (.array items)) := by
  have hfind := find_class hsmall hclass
  have hkey : (arrayObject classSlot refs).find (ascii "$class") =
      some (.uid (UInt64.ofNat classSlot)) := rfl
  unfold arrayObject at hkey ⊢
  unfold resolveObject
  dsimp only
  rw [hkey]
  dsimp only
  rw [hfind]
  rfl

/-- The object of a dictionary is resolved entry by entry. -/
theorem resolveObject_dictionary {classSlot : Nat} {keys refs : List Nat}
    {f : Plist → Result Plist} (hsmall : objects.length < 2 ^ 64)
    (hclass : objects[classSlot]? =
      some (classDictionary "NSDictionary" "NSObject"))
    (hlength : keys.length = refs.length) :
    resolveObject objects f (dictionaryObject classSlot keys refs) =
      (resolveEntries f ((keys.map reference).zip (refs.map reference)) [] >>=
        fun entries => .ok (.dictionary entries)) := by
  have hfind := find_class hsmall hclass
  have hkey : (dictionaryObject classSlot keys refs).find (ascii "$class") =
      some (.uid (UInt64.ofNat classSlot)) := rfl
  unfold dictionaryObject at hkey ⊢
  unfold resolveObject
  dsimp only
  rw [hkey]
  dsimp only
  rw [hfind]
  change (if (keys.map reference).length ≠ (refs.map reference).length then _
    else _ : Result Plist) = _
  rw [if_neg (by simpa using hlength)]

end Resolve

/-- A leaf that is no reference: resolving gives it as it is. -/
def IsScalar : Plist → Prop
  | uid _ => False
  | _ => True

theorem resolve_leaf {objects : List Plist} {value : Plist} (hleaf : value.IsLeaf)
    (hscalar : IsScalar value) (levels : Nat) :
    resolve objects (levels + 1) value = .ok value := by
  cases value <;> first
    | exact hleaf.elim
    | exact hscalar.elim
    | rfl

theorem resolve_key {objects : List Plist} (hsmall : objects.length < 2 ^ 64)
    {slot : Nat} {text : Bytes} (h : objects[slot]? = some (.string text))
    (levels : Nat) :
    resolve objects levels (reference slot) =
      if 2 ≤ levels then .ok (.string text) else .error (.error tooDeep) := by
  match levels with
  | 0 => rfl
  | 1 => exact resolve_reference hsmall h 0
  | levels + 2 =>
      rw [resolve_reference hsmall h, if_pos (by omega)]
      exact @resolve_leaf objects (.string text) trivial trivial levels

private theorem forall₂_columns {α β γ : Type} {P : α → γ → Prop}
    {Q : β → γ → Prop} {as : List α} {bs : List β} {cs : List γ}
    (h : List.Forall₂ P as cs) (h' : List.Forall₂ Q bs cs) :
    List.Forall₂ (fun pair c => P pair.1 c ∧ Q pair.2 c) (as.zip bs) cs := by
  induction h generalizing bs with
  | nil =>
      cases h'
      exact .nil
  | cons hfirst _ ih =>
      cases h' with
      | cons hsecond hrest => exact .cons ⟨hfirst, hsecond⟩ (ih hrest)

/-- What each member of a container leaves of the levels, in terms of how deep
the container is. -/
private theorem levels_le {α : Type} {members : List α} {depth : α → Nat}
    {n : Nat} (h : ∀ m, n ≤ m ↔ ∀ member ∈ members, depth member + 1 ≤ m)
    (levels : Nat) :
    (∀ member ∈ members, 2 * depth member + 2 ≤ levels) ↔
      2 * n + 2 ≤ levels + 2 := by
  constructor
  · intro hall
    have := (h (levels / 2)).mpr fun member hmem => by
      have := hall member hmem
      omega
    omega
  · intro hle member hmem
    have := (h (levels / 2)).mp (by omega) member hmem
    omega

/-- A slot gives a value back when two levels are left for each container
around a node of it, and two for the node. -/
def Resolves (objects : List Plist) (slot : Nat) (value : Plist) : Prop :=
  ∀ levels, resolve objects levels (reference slot) =
    if 2 * nesting value + 2 ≤ levels then .ok value
    else .error (.error tooDeep)

section Stored

variable {objects : List Plist} {slot classSlot : Nat}

/-- Resolving a slot takes a level for the reference and one for the object
it refers to. -/
theorem resolves_of_object (hsmall : objects.length < 2 ^ 64)
    {object value : Plist} (hobject : objects[slot]? = some object)
    (h : ∀ levels, resolveObject objects (resolve objects levels) object =
      if 2 * nesting value + 2 ≤ levels + 2 then .ok value
      else .error (.error tooDeep)) :
    Resolves objects slot value := by
  intro levels
  match levels with
  | 0 => rw [if_neg (by omega), resolve]
  | 1 => rw [if_neg (by omega), resolve_reference hsmall hobject, resolve]
  | levels + 2 => rw [resolve_reference hsmall hobject, resolve, h]

theorem resolves_leaf (hsmall : objects.length < 2 ^ 64) {value : Plist}
    (hleaf : value.IsLeaf) (hscalar : IsScalar value)
    (hobject : objects[slot]? = some value) : Resolves objects slot value := by
  refine resolves_of_object hsmall hobject fun levels => ?_
  rw [nesting_leaf hleaf, if_pos (by omega)]
  exact resolve_leaf hleaf hscalar levels

/-- The array is given back when each reference of its object gives an item. -/
theorem resolves_array (hsmall : objects.length < 2 ^ 64) {refs : List Nat}
    {items : List Plist}
    (hobject : objects[slot]? = some (arrayObject classSlot refs))
    (hclass : objects[classSlot]? = some (classDictionary "NSArray" "NSObject"))
    (hitems : List.Forall₂ (Resolves objects) refs items) :
    Resolves objects slot (.array items) := by
  refine resolves_of_object hsmall hobject fun levels => ?_
  have hgate : List.Forall₂ (fun ref item => resolve objects levels ref =
      if 2 * nesting item + 2 ≤ levels then .ok item
      else .error (.error tooDeep)) (refs.map reference) items :=
    List.forall₂_map_left_iff.mpr (hitems.imp fun _ _ h => h levels)
  rw [resolveObject_array hsmall hclass, mapM_gate hgate]
  simp only [levels_le (fun m => @nesting_array_le items m) levels]
  split <;> rfl

/-- The dictionary is given back when its keys are in the table and each
reference of its object gives a value. -/
theorem resolves_dictionary (hsmall : objects.length < 2 ^ 64)
    {keys refs : List Nat} {entries : List (Bytes × Plist)}
    (hobject : objects[slot]? = some (dictionaryObject classSlot keys refs))
    (hclass : objects[classSlot]? =
      some (classDictionary "NSDictionary" "NSObject"))
    (hsorted : SortedMap.Sorted entries)
    (hkeys : List.Forall₂ (fun key entry =>
      objects[key]? = some (.string entry.1)) keys entries)
    (hvalues : List.Forall₂ (fun ref entry => Resolves objects ref entry.2)
      refs entries) :
    Resolves objects slot (.dictionary entries) := by
  refine resolves_of_object hsmall hobject fun levels => ?_
  have hkeysGate : List.Forall₂ (fun key entry => resolve objects levels key =
      if 2 ≤ levels then .ok (.string entry.1) else .error (.error tooDeep))
      (keys.map reference) entries :=
    List.forall₂_map_left_iff.mpr
      (hkeys.imp fun _ _ h => resolve_key hsmall h levels)
  have hvaluesGate : List.Forall₂ (fun ref entry => resolve objects levels ref =
      if 2 * nesting entry.2 + 2 ≤ levels then .ok entry.2
      else .error (.error tooDeep)) (refs.map reference) entries :=
    List.forall₂_map_left_iff.mpr (hvalues.imp fun _ _ h => h levels)
  have hlength : keys.length = refs.length :=
    hkeys.length_eq.trans hvalues.length_eq.symm
  have hmap : entries.foldl
      (fun map entry => SortedMap.emplace entry.1 entry.2 map) [] = entries :=
    SortedMap.ofEntries_of_sorted hsorted
  have hleast : ∀ item, 2 * nesting item + 2 ≤ levels → 2 ≤ levels :=
    fun item h => by omega
  rw [resolveObject_dictionary hsmall hclass hlength,
    resolveEntries_gate hleast (forall₂_columns hkeysGate hvaluesGate), hmap]
  simp only [levels_le (fun m => @nesting_dictionary_le entries m) levels]
  split <;> rfl

end Stored

/-- A stored value is resolved when two levels are left for each container
around a node, and two for the node. -/
theorem resolve_stored {objects : List Plist} (hsmall : objects.length < 2 ^ 64)
    {value : Plist} (hwell : value.WellFormed)
    (hleaves : value.AllLeaves IsScalar) {slot : Nat}
    (h : Stored objects slot value) : Resolves objects slot value := by
  induction value using Plist.induct generalizing slot with
  | leaf value hleaf =>
      cases h with
      | leaf _ hobject =>
          exact resolves_leaf hsmall hleaf ((allLeaves_leaf hleaf).mp hleaves)
            hobject
      | array => exact hleaf.elim
      | dictionary => exact hleaf.elim
  | array items ih =>
      cases h with
      | leaf hleaf => exact hleaf.elim
      | array hobject hclass hlength hitems =>
      refine resolves_array hsmall hobject hclass
        (List.forall₂_iff_zip.mpr ⟨hlength, fun {ref item} hmem => ?_⟩)
      have hitem := (List.of_mem_zip hmem).2
      exact ih item hitem (wellFormed_array.mp hwell item hitem)
        (allLeaves_array.mp hleaves item hitem) (hitems _ hmem)
  | dictionary entries ih =>
      obtain ⟨hsorted, hwells⟩ := wellFormed_dictionary.mp hwell
      have hall := (allLeaves_dictionary.mp hleaves).2
      cases h with
      | leaf hleaf => exact hleaf.elim
      | dictionary hobject hclass hkeysLength hkeys hlength hvalues =>
      refine resolves_dictionary hsmall hobject hclass hsorted
        (List.forall₂_iff_zip.mpr ⟨hkeysLength, fun hmem => hkeys _ hmem⟩)
        (List.forall₂_iff_zip.mpr ⟨hlength, fun {ref entry} hmem => ?_⟩)
      have hentry := (List.of_mem_zip hmem).2
      exact ih entry hentry (hwells entry hentry) (hall entry hentry)
        (hvalues _ hmem)

/-! ## The round trip -/

/-- The property list of an archive. -/
def archived (value : Plist) : Plist :=
  skeleton (appendObject value [.string kNull]).1 (appendObject value [.string kNull]).2

theorem archive_eq (value : Plist) : archive value = toBinary (archived value) := rfl

/-- What holds of the leaves of a value, and of the constants that an archive adds,
holds of all leaves of the property list of its archive. -/
theorem built_archived {P : Plist → Prop} (hconstants : Constants P) {value : Plist}
    (h : value.AllLeaves P) : Built P (archived value) := by
  refine built_skeleton hconstants _ (appendsBuilt hconstants h _ fun object hmem => ?_)
  rw [List.mem_singleton.mp hmem]
  exact built_leaf trivial (hconstants.text _ (by decide +kernel))

/-- A table that is written whole has 64-bit places. -/
theorem length_lt_of_fits {root : Nat} {objects : List Plist}
    (hfits : FitsVector (toBinary (skeleton root objects))) :
    objects.length < 2 ^ 64 := by
  obtain ⟨decoder, -, written⟩ := openBinary_toBinary _ hfits
  obtain ⟨hplaced, -⟩ := flatten_root (skeleton root objects)
  cases hplaced with
  | leaf hleaf => exact hleaf.elim
  | dictionary _ _ _ hvalues =>
      cases hvalues 1 (ascii "$objects", .array objects) rfl with
      | leaf hleaf => exact hleaf.elim
      | array _ hobject =>
          have hlength := written.length_array_le hobject
          unfold FitsVector at hfits
          omega

theorem unarchiveParsed_skeleton (root : Nat) (objects : List Plist) :
    unarchiveParsed (skeleton root objects) =
      resolve objects (kMaxDepth + 1) (reference root) := by
  rfl

/-- Whoever reads the list as it was written has the value back when it is nested at
most `kMaxNesting` deep, and fails on any other. -/
theorem unarchiveParsed_archived {value : Plist} (hwell : value.WellFormed)
    (hscalars : value.AllLeaves IsScalar) (hfits : FitsVector (archive value)) :
    unarchiveParsed (archived value) =
      if nesting value ≤ kMaxNesting then .ok value
      else .error (.error tooDeep) := by
  have hstored := (appendObject_spec value [.string kNull]).holds _ fun _ _ _ => rfl
  have hlevels : 2 * nesting value + 2 ≤ kMaxDepth + 1 ↔
      nesting value ≤ kMaxNesting := by
    simp only [kMaxDepth, kMaxNesting]
    omega
  rw [archived, unarchiveParsed_skeleton,
    resolve_stored (length_lt_of_fits hfits) hwell hscalars hstored]
  simp only [hlevels]

/-- This library's reader reads what an archive adds as it is. -/
theorem constants_readBack : Constants fun leaf => readBack leaf = leaf where
  null := rfl
  version := by
    rw [readBack_eq_iff]
    unfold RoundTrips HighBitInt
    decide
  uid := fun _ => rfl
  text := fun _ _ => rfl

/-- The leaves an archive gives back. Integers and dates go through the binary form,
which changes some of them, and a uid would be taken for a reference. -/
def IsArchivable : Plist → Prop
  | null | boolean _ | real _ | string _ | data _ => True
  | _ => False

theorem IsArchivable.readBack_eq {value : Plist} (h : IsArchivable value) :
    readBack value = value := by
  cases value <;> first
    | exact h.elim
    | rfl

theorem IsArchivable.isScalar {value : Plist} (h : IsArchivable value) :
    IsScalar value := by
  cases value <;> first
    | exact h.elim
    | trivial

/-- An archive gives back a value that is nested at most `kMaxNesting` deep, with its
strings, data, reals, booleans and nulls as they were. On a value that is nested deeper
it fails, and with the error of that limit. -/
theorem unarchive_archive {value : Plist} (hwell : value.WellFormed)
    (hleaves : value.AllLeaves IsArchivable) (hfits : FitsVector (archive value)) :
    unarchive (archive value) =
      if nesting value ≤ kMaxNesting then .ok value
      else .error (.error tooDeep) := by
  obtain ⟨hlist, hexact⟩ := built_archived constants_readBack
    (hleaves.imp fun _ => IsArchivable.readBack_eq)
  rw [unarchive, archive_eq, (parseBinary_toBinary_leaves hlist hfits).mpr hexact,
    ok_bind]
  exact unarchiveParsed_archived hwell (hleaves.imp fun _ => IsArchivable.isScalar) hfits

theorem unarchive_archive_nested :
    unarchive (archive (.dictionary [(ascii "k", .array [.null, .data [7]])])) =
      .ok (.dictionary [(ascii "k", .array [.null, .data [7]])]) :=
  (unarchive_archive
    (.dictionary (by simp [SortedMap.Sorted]) (by
      simp only [List.mem_cons, List.not_mem_nil, or_false, forall_eq,
        forall_eq_or_imp, wellFormed_array]
      exact ⟨.leaf trivial, .leaf trivial⟩))
    (.dictionary (fun _ _ => trivial) (by
      simp only [List.mem_cons, List.not_mem_nil, or_false, forall_eq,
        forall_eq_or_imp, allLeaves_array]
      exact ⟨.leaf trivial trivial, .leaf trivial trivial⟩))
    (by unfold FitsVector; decide +kernel)).trans (if_pos (by decide))

end Ioscpp.Protocol.KeyedArchive
