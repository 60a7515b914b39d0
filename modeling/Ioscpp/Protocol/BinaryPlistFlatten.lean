import Ioscpp.Protocol.BinaryPlist

/-!
# What `flatten` numbers

`flatten` gives every object of a tree a slot.  `Placed` says so of a state: the
value has a slot, its object stands there, and everything it refers to is placed
too.  The proof follows the recursion: a state only grows (`Extends`), a
flattened subtree touches no address outside itself (`frame`), and so the next
sibling is still fresh.

## Main results

- `flatten_spec`: flattening a value at a fresh path places it and everything in it,
  and touches no other path.
-/

namespace Ioscpp.Protocol.Plist

open Ioscpp.Support

namespace Flattened

/-- A state that has grown into another: what was placed stays. -/
structure Extends (s t : Flattened) : Prop where
  objects : s.objects <+: t.objects
  slots : ∀ path slot, s.slots (.node path) = some slot →
    t.slots (.node path) = some slot
  keySlots : ∀ text slot, s.keySlots text = some slot →
    t.keySlots text = some slot

theorem Extends.refl (s : Flattened) : s.Extends s :=
  ⟨List.prefix_rfl, fun _ _ h => h, fun _ _ h => h⟩

theorem Extends.trans {s t u : Flattened} (h : s.Extends t)
    (h' : t.Extends u) : s.Extends u where
  objects := h.objects.trans h'.objects
  slots := fun path slot hs => h'.slots path slot (h.slots path slot hs)
  keySlots := fun text slot hs => h'.keySlots text slot (h.keySlots text slot hs)

theorem Extends.getElem? {s t : Flattened} (h : s.Extends t) {slot : Nat}
    {pointer : Pointer} (hs : s.objects[slot]? = some pointer) :
    t.objects[slot]? = some pointer := by
  obtain ⟨more, hmore⟩ := h.objects
  have hlt := (List.getElem?_eq_some_iff.mp hs).1
  rw [← hmore, List.getElem?_append_left hlt, hs]

/-- Every key that has a slot has its object there. -/
def KeysPlaced (s : Flattened) : Prop :=
  ∀ text slot, s.keySlots text = some slot →
    s.objects[slot]? = some ⟨.key text, .string text⟩

/-- A value is placed at a path, with everything it refers to. -/
inductive Placed (s : Flattened) : List Nat → Plist → Prop
  | leaf {path : List Nat} {value : Plist} {slot : Nat} (h : value.IsLeaf)
      (hslot : s.slots (.node path) = some slot)
      (hobject : s.objects[slot]? = some ⟨.node path, value⟩) :
      Placed s path value
  | array {path : List Nat} {items : List Plist} {slot : Nat}
      (hslot : s.slots (.node path) = some slot)
      (hobject : s.objects[slot]? = some ⟨.node path, .array items⟩)
      (h : ∀ i item, items[i]? = some item → Placed s (i :: path) item) :
      Placed s path (.array items)
  | dictionary {path : List Nat} {entries : List (Bytes × Plist)} {slot : Nat}
      (hslot : s.slots (.node path) = some slot)
      (hobject : s.objects[slot]? = some ⟨.node path, .dictionary entries⟩)
      (hkeys : ∀ entry ∈ entries, (s.keySlots entry.1).isSome)
      (h : ∀ i entry, entries[i]? = some entry →
        Placed s (i :: path) entry.2) :
      Placed s path (.dictionary entries)

theorem Placed.mono {s t : Flattened} (hst : s.Extends t) {path : List Nat}
    {value : Plist} (h : s.Placed path value) : t.Placed path value := by
  induction h with
  | leaf hleaf hslot hobject =>
      exact .leaf hleaf (hst.slots _ _ hslot) (hst.getElem? hobject)
  | array hslot hobject _ ih =>
      exact .array (hst.slots _ _ hslot) (hst.getElem? hobject) ih
  | dictionary hslot hobject hkeys _ ih =>
      refine .dictionary (hst.slots _ _ hslot) (hst.getElem? hobject) ?_ ih
      intro entry hmem
      obtain ⟨slot, hkey⟩ := Option.isSome_iff_exists.mp (hkeys entry hmem)
      exact Option.isSome_iff_exists.mpr ⟨slot, hst.keySlots _ _ hkey⟩

/-- A placed value stands at its slot. -/
theorem Placed.object {s : Flattened} {path : List Nat} {value : Plist}
    (h : s.Placed path value) : ∃ slot, s.slots (.node path) = some slot ∧
      s.objects[slot]? = some ⟨.node path, value⟩ := by
  cases h with
  | leaf _ hslot hobject => exact ⟨_, hslot, hobject⟩
  | array hslot hobject _ => exact ⟨_, hslot, hobject⟩
  | dictionary hslot hobject _ _ => exact ⟨_, hslot, hobject⟩

/-- No address at or below a path has a slot. -/
def Fresh (s : Flattened) (path : List Nat) : Prop :=
  ∀ q, path <:+ q → s.slots (.node q) = none

/-! ## Placing one object -/

section Place

variable {s : Flattened} {path : List Nat} {value : Plist}

theorem extends_place (h : s.slots (.node path) = none) :
    s.Extends (s.place ⟨.node path, value⟩) where
  objects := List.prefix_append _ _
  slots := by
    intro q slot hq
    have hne : Address.node q ≠ .node path := by
      rintro heq
      rw [heq, h] at hq
      cases hq
    simpa [place, Function.update_of_ne hne] using hq
  keySlots := fun _ _ hkey => hkey

theorem place_slot :
    (s.place ⟨.node path, value⟩).slots (.node path) =
      some s.objects.length := by
  simp [place]

theorem place_object :
    (s.place ⟨.node path, value⟩).objects[s.objects.length]? =
      some ⟨.node path, value⟩ := by
  simp [place]

theorem place_frame {q : List Nat} (h : q ≠ path) :
    (s.place ⟨.node path, value⟩).slots (.node q) = s.slots (.node q) := by
  have hne : Address.node q ≠ .node path := fun heq => h (by cases heq; rfl)
  simp [place, Function.update_of_ne hne]

theorem keysPlaced_place (h : s.KeysPlaced) {pointer : Pointer} :
    (s.place pointer).KeysPlaced := by
  intro text slot hkey
  have hobject := h text slot hkey
  have hlt := (List.getElem?_eq_some_iff.mp hobject).1
  simp only [place]
  rw [List.getElem?_append_left hlt, hobject]

end Place

/-! ## Placing the keys -/

theorem extends_placeKey (s : Flattened) (text : Bytes) :
    s.Extends (s.placeKey text) := by
  rw [placeKey]
  split
  · exact .refl s
  rename_i hnone
  refine ⟨List.prefix_append _ _, ?_, ?_⟩
  · intro path slot hs
    simpa [place] using hs
  · intro other slot hs
    have hne : other ≠ text := by
      rintro rfl
      rw [hs] at hnone
      exact hnone rfl
    simpa [place, Function.update_of_ne hne] using hs

theorem keysPlaced_placeKey {s : Flattened} (h : s.KeysPlaced) (text : Bytes) :
    (s.placeKey text).KeysPlaced := by
  rw [placeKey]
  split
  · exact h
  intro other slot hkey
  by_cases hother : other = text
  · subst hother
    simp only [place, Function.update_self, Option.some.injEq] at hkey
    subst hkey
    simp [place]
  · simp only [place, Function.update_of_ne hother] at hkey
    have hobject := h other slot hkey
    have hlt := (List.getElem?_eq_some_iff.mp hobject).1
    simp only [place]
    rw [List.getElem?_append_left hlt, hobject]

theorem isSome_placeKey (s : Flattened) (text : Bytes) :
    ((s.placeKey text).keySlots text).isSome := by
  rw [placeKey]
  split
  · assumption
  · simp [place]

theorem placeKey_frame (s : Flattened) (text : Bytes) (path : List Nat) :
    (s.placeKey text).slots (.node path) = s.slots (.node path) := by
  rw [placeKey]
  split
  · rfl
  · simp [place]

/-- The loop over the keys of a dictionary. -/
theorem placeKeys_spec (keys : List Bytes) (s : Flattened) :
    s.Extends (keys.foldl placeKey s) ∧
      (s.KeysPlaced → (keys.foldl placeKey s).KeysPlaced) ∧
      (∀ text ∈ keys, ((keys.foldl placeKey s).keySlots text).isSome) ∧
      ∀ path, (keys.foldl placeKey s).slots (.node path) =
        s.slots (.node path) := by
  induction keys generalizing s with
  | nil => exact ⟨.refl s, fun h => h, by simp, fun _ => rfl⟩
  | cons key rest ih =>
      obtain ⟨hext, hkeys, hsome, hframe⟩ := ih (s.placeKey key)
      refine ⟨(extends_placeKey s key).trans hext,
        fun h => hkeys (keysPlaced_placeKey h key), ?_, ?_⟩
      · intro text hmem
        rcases List.mem_cons.mp hmem with rfl | hmem
        · obtain ⟨slot, hslot⟩ :=
            Option.isSome_iff_exists.mp (isSome_placeKey s text)
          exact Option.isSome_iff_exists.mpr
            ⟨slot, hext.keySlots text slot hslot⟩
        · exact hsome text hmem
      · intro path
        exact (hframe path).trans (placeKey_frame s key path)

end Flattened

/-! ## Flattening -/

/-- What flattening a value at a path does to a state. -/
structure Flattens (path : List Nat) (value : Plist) (s t : Flattened) :
    Prop where
  ext : s.Extends t
  keys : s.KeysPlaced → t.KeysPlaced
  placed : t.Placed path value
  frame : ∀ q, ¬ path <:+ q → t.slots (.node q) = s.slots (.node q)

private theorem not_suffix_of_ne {i j : Nat} {path q : List Nat} (hij : i ≠ j)
    (h : i :: path <:+ q) : ¬ j :: path <:+ q := by
  intro h'
  have heq := (List.suffix_of_suffix_length_le h h' (by simp)).eq_of_length
    (by simp)
  cases heq
  exact hij rfl

/-- After one child is flattened, its siblings are still fresh. -/
private theorem Flattens.fresh_sibling {i j : Nat} {path : List Nat}
    {value : Plist} {s t : Flattened} (h : Flattens (i :: path) value s t)
    (hij : i ≠ j) (hfresh : s.Fresh (j :: path)) : t.Fresh (j :: path) := by
  intro q hq
  rw [h.frame q (not_suffix_of_ne hij.symm hq), hfresh q hq]

/-- What flattening the children of a container, from a position on, does. -/
structure FlattensChildren (path : List Nat) (position : Nat)
    (children : List Plist) (s t : Flattened) : Prop where
  ext : s.Extends t
  keys : s.KeysPlaced → t.KeysPlaced
  placed : ∀ i child, children[i]? = some child →
    t.Placed ((position + i) :: path) child
  frame : ∀ q, (∀ j, ¬ j :: path <:+ q) → t.slots (.node q) = s.slots (.node q)

theorem FlattensChildren.nil (path : List Nat) (position : Nat)
    (s : Flattened) : FlattensChildren path position [] s s where
  ext := .refl s
  keys := fun h => h
  placed := by simp
  frame := fun _ _ => rfl

theorem FlattensChildren.cons {path : List Nat} {position : Nat}
    {child : Plist} {rest : List Plist} {s t u : Flattened}
    (h : Flattens (position :: path) child s t)
    (hrest : FlattensChildren path (position + 1) rest t u) :
    FlattensChildren path position (child :: rest) s u where
  ext := h.ext.trans hrest.ext
  keys := fun hs => hrest.keys (h.keys hs)
  placed := by
    intro i value hi
    cases i with
    | zero =>
        cases hi
        exact h.placed.mono hrest.ext
    | succ i =>
        have := hrest.placed i value hi
        rwa [Nat.add_right_comm] at this
  frame := fun q hq => (hrest.frame q hq).trans (h.frame q (hq position))

section Children

variable {path : List Nat}

theorem flattenItems_spec (items : List Plist)
    (ih : ∀ item ∈ items, ∀ path s, s.Fresh path →
      Flattens path item s (flatten (.node path) item s))
    (position : Nat) (s : Flattened)
    (hfresh : ∀ j, position ≤ j → s.Fresh (j :: path)) :
    FlattensChildren path position items s
      (flattenItems (.node path) position items s) := by
  induction items generalizing position s with
  | nil =>
      rw [flattenItems]
      exact .nil path position s
  | cons item rest ihrest =>
      have hitem := ih item (by simp) (position :: path) s
        (hfresh position le_rfl)
      rw [flattenItems]
      refine .cons hitem (ihrest (fun x hx => ih x (by simp [hx])) _ _ ?_)
      intro j hj
      exact hitem.fresh_sibling (by omega) (hfresh j (by omega))

theorem flattenValues_spec (entries : List (Bytes × Plist))
    (ih : ∀ entry ∈ entries, ∀ path s, s.Fresh path →
      Flattens path entry.2 s (flatten (.node path) entry.2 s))
    (position : Nat) (s : Flattened)
    (hfresh : ∀ j, position ≤ j → s.Fresh (j :: path)) :
    FlattensChildren path position (entries.map Prod.snd) s
      (flattenValues (.node path) position entries s) := by
  induction entries generalizing position s with
  | nil =>
      rw [flattenValues]
      exact .nil path position s
  | cons entry rest ihrest =>
      have hvalue := ih entry (by simp) (position :: path) s
        (hfresh position le_rfl)
      rw [flattenValues]
      refine .cons hvalue (ihrest (fun x hx => ih x (by simp [hx])) _ _ ?_)
      intro j hj
      exact hvalue.fresh_sibling (by omega) (hfresh j (by omega))

end Children

private theorem cons_not_suffix (i : Nat) (path : List Nat) :
    ¬ i :: path <:+ path := by
  intro h
  have := h.length_le
  simp at this

private theorem fresh_child {s : Flattened} {path : List Nat}
    (value : Plist) (h : s.Fresh path) (i : Nat) :
    (s.place ⟨.node path, value⟩).Fresh (i :: path) := by
  intro q hq
  have hne : q ≠ path := by
    rintro rfl
    exact cons_not_suffix i q hq
  rw [Flattened.place_frame hne, h q ((List.suffix_cons i path).trans hq)]

private theorem not_child_suffix {path q : List Nat} (h : ¬ path <:+ q)
    (j : Nat) : ¬ j :: path <:+ q :=
  fun hj => h ((List.suffix_cons j path).trans hj)

/-- Flattening a value at a fresh path places it and everything in it, and
touches no other path. -/
theorem flatten_spec (value : Plist) (path : List Nat) (s : Flattened)
    (hfresh : s.Fresh path) :
    Flattens path value s (flatten (.node path) value s) := by
  induction value using Plist.induct generalizing path s with
  | leaf value hleaf =>
      have hnone := hfresh path List.suffix_rfl
      have hflatten : flatten (.node path) value s =
          s.place ⟨.node path, value⟩ := by
        cases value <;> first
          | exact hleaf.elim
          | simp [flatten, hnone]
      rw [hflatten]
      exact {
        ext := Flattened.extends_place hnone
        keys := fun h => Flattened.keysPlaced_place h
        placed := .leaf hleaf Flattened.place_slot Flattened.place_object
        frame := fun q hq => Flattened.place_frame (by
          rintro rfl
          exact hq List.suffix_rfl) }
  | array items ih =>
      have hnone := hfresh path List.suffix_rfl
      have hflatten : flatten (.node path) (.array items) s =
          flattenItems (.node path) 0 items
            (s.place ⟨.node path, .array items⟩) := by
        rw [flatten, hnone]
        rfl
      have hext : s.Extends (s.place ⟨.node path, .array items⟩) :=
        Flattened.extends_place hnone
      have hitems := flattenItems_spec items ih 0 _
        fun j _ => fresh_child (.array items) hfresh j
      rw [hflatten]
      refine ⟨hext.trans hitems.ext,
        fun h => hitems.keys (Flattened.keysPlaced_place h), ?_, ?_⟩
      · refine .array (hitems.ext.slots _ _ Flattened.place_slot)
          (hitems.ext.getElem? Flattened.place_object) fun i item hi => ?_
        have := hitems.placed i item hi
        rwa [Nat.zero_add] at this
      · intro q hq
        rw [hitems.frame q (not_child_suffix hq), Flattened.place_frame]
        rintro rfl
        exact hq List.suffix_rfl
  | dictionary entries ih =>
      have hnone := hfresh path List.suffix_rfl
      set placed := s.place ⟨.node path, .dictionary entries⟩ with hplaced
      set keyed := (entries.map Prod.fst).foldl Flattened.placeKey placed
        with hkeyed
      have hflatten : flatten (.node path) (.dictionary entries) s =
          flattenValues (.node path) 0 entries keyed := by
        rw [flatten, hnone]
        rfl
      have hext : s.Extends placed := Flattened.extends_place hnone
      obtain ⟨hextKeys, hkeys, hsome, hframe⟩ :=
        Flattened.placeKeys_spec (entries.map Prod.fst) placed
      have hvalues := flattenValues_spec entries ih 0 keyed fun j _ q hq => by
        rw [hframe, fresh_child (.dictionary entries) hfresh j q hq]
      have hgrown := hextKeys.trans hvalues.ext
      rw [hflatten]
      refine ⟨hext.trans hgrown,
        fun h => hvalues.keys (hkeys (Flattened.keysPlaced_place h)), ?_, ?_⟩
      · refine .dictionary (hgrown.slots _ _ Flattened.place_slot)
          (hgrown.getElem? Flattened.place_object) ?_ fun i entry hi => ?_
        · intro entry hmem
          obtain ⟨slot, hslot⟩ := Option.isSome_iff_exists.mp
            (hsome entry.1 (List.mem_map_of_mem hmem))
          exact Option.isSome_iff_exists.mpr
            ⟨slot, hvalues.ext.keySlots _ _ hslot⟩
        · have := hvalues.placed i entry.2 (by rw [List.getElem?_map, hi]; rfl)
          rwa [Nat.zero_add] at this
      · intro q hq
        rw [hvalues.frame q (not_child_suffix hq), hframe, hplaced,
          Flattened.place_frame]
        rintro rfl
        exact hq List.suffix_rfl

/-- The state `toBinary` writes from. -/
theorem flatten_root (value : Plist) :
    (flatten (.node []) value {}).Placed [] value ∧
      (flatten (.node []) value {}).KeysPlaced := by
  have h := flatten_spec value [] {} fun _ _ => rfl
  refine ⟨h.placed, h.keys ?_⟩
  intro text slot hkey
  cases hkey

end Ioscpp.Protocol.Plist
