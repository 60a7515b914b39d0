import Ioscpp.Protocol.BinaryPlistLayout

/-!
# What a reader makes of the encoder's files

A reader is given by how it reads an object up to its references (`head`).  Such
a reader `Speaks` the encoder's containers when it finds their counts, and reads
a leaf as `reads` says, which may be as another value or as none.  Then it reads
back the tree that `toBinary` wrote exactly when it reads each leaf as itself
(`unfoldBinary_toBinary_iff`).

## Main results

- `Written.denotes_iff`: a placed tree stands for itself exactly when each of its
  leaves is read as itself.
- `unfoldBinary_toBinary_iff`: so a reader reads a tree back from its bytes exactly
  then.
-/

namespace Ioscpp.Protocol.Plist

open Ioscpp.Support
open Ioscpp.Support.Reading

/-- The bytes of a leaf, which refer to nothing. -/
def leafBytes (value : Plist) : Bytes :=
  appendObject {} 0 [] ⟨.node [], value⟩

theorem appendObject_leaf {value : Plist} (h : value.IsLeaf)
    (state : Flattened) (refSize : Nat) (address : Address) :
    appendObject state refSize [] ⟨address, value⟩ = leafBytes value := by
  cases value <;> first
    | exact h.elim
    | rfl

/-- A reader of the encoder's objects, which reads a leaf as `reads` says. -/
structure Speaks (head : Nat → Reading Error Head)
    (reads : Plist → Option Plist) : Prop where
  /-- A leaf that is read. -/
  leaf : ∀ {refSize : Nat} {value other : Plist} {pre post : Bytes},
    value.IsLeaf → FitsVector (pre ++ leafBytes value ++ post) →
    reads value = some other →
    ∃ last, head refSize ⟨pre ++ leafBytes value ++ post, pre.length⟩ =
      .ok (.leaf other, last)
  /-- A leaf that is refused. -/
  refused : ∀ {refSize : Nat} {value : Plist} {pre post : Bytes},
    value.IsLeaf → FitsVector (pre ++ leafBytes value ++ post) →
    reads value = none →
    ∃ e, head refSize ⟨pre ++ leafBytes value ++ post, pre.length⟩ = .error e
  array : ∀ {refSize length : Nat} {pre post : Bytes}, 0 < refSize →
    FitsVector (pre ++ appendCount [] kMarkerArray length ++ post) →
    length * refSize ≤ post.length →
    head refSize ⟨pre ++ appendCount [] kMarkerArray length ++ post,
        pre.length⟩ =
      .ok (.array length, ⟨pre ++ appendCount [] kMarkerArray length ++ post,
        pre.length + (appendCount [] kMarkerArray length).length⟩)
  dictionary : ∀ {refSize length : Nat} {pre post : Bytes}, 0 < refSize →
    FitsVector (pre ++ appendCount [] kMarkerDictionary length ++ post) →
    length * (2 * refSize) ≤ post.length →
    head refSize ⟨pre ++ appendCount [] kMarkerDictionary length ++ post,
        pre.length⟩ =
      .ok (.dictionary length,
        ⟨pre ++ appendCount [] kMarkerDictionary length ++ post,
          pre.length + (appendCount [] kMarkerDictionary length).length⟩)
  /-- A string is read as itself or not at all. -/
  string : ∀ {text : Bytes} {other : Plist},
    reads (.string text) = some other → other = .string text

/-! ## References -/

/-- References that fit their width are read back. -/
theorem reads_readRefs {refSize : Nat} (references : List Nat)
    (h : ∀ r ∈ references, r < 256 ^ refSize ∧ r < 2 ^ 64) :
    Reads (fun _ => True) (readRefs refSize references.length)
      (references.flatMap (beBytes refSize)) references := by
  induction references with
  | nil => exact .pure []
  | cons reference rest ih =>
      obtain ⟨hwidth, hsmall⟩ := h reference (by simp)
      rw [List.length_cons, readRefs, List.flatMap_cons]
      refine Reads.bind (A := fun _ => True) (B := fun _ => True)
        (reads_wordBe hwidth hsmall) ?_ fun _ _ => trivial
      rw [← List.append_nil (rest.flatMap _)]
      exact Reads.bind (A := fun _ => True) (B := fun _ => True)
        (ih fun r hr => h r (by simp [hr])) (.pure _) fun _ _ => trivial

theorem length_references (refSize : Nat) (references : List Nat) :
    (references.flatMap (beBytes refSize)).length =
      references.length * refSize := by
  rw [List.length_flatMap]
  simp

/-! ## The objects of a written file -/

section Written

variable {head : Nat → Reading Error Head} {reads : Plist → Option Plist}
  {root : Plist} {state : Flattened} {decoder : Decoder}

/-- The offset of an object, and the bytes around it. -/
theorem Written.offsetAt (written : Written root state decoder) {slot : Nat}
    {pointer : Pointer} (h : state.objects[slot]? = some pointer) :
    ∃ pre post : Bytes, decoder.offsetAt slot = .ok pre.length ∧
      decoder.bytes =
        pre ++ appendObject state decoder.refSize [] pointer ++ post := by
  obtain ⟨pre, post, hoffset, hbytes⟩ := written.object slot pointer h
  refine ⟨pre, post, ?_, written.bytes.trans hbytes⟩
  rw [Decoder.offsetAt, hoffset]

theorem Written.lt_count (written : Written root state decoder) {slot : Nat}
    {pointer : Pointer} (h : state.objects[slot]? = some pointer) :
    slot < (decoder.graph head).count := by
  change slot < decoder.offsets.length
  rw [written.count]
  exact (List.getElem?_eq_some_iff.mp h).1

/-- A reference to an object fits its width. -/
theorem Written.fits_reference (written : Written root state decoder)
    {slot : Nat} (h : slot < state.objects.length) :
    slot < 256 ^ decoder.refSize ∧ slot < 2 ^ 64 :=
  ⟨h.trans written.width, h.trans written.small⟩

/-- A leaf stands for what the reader reads it as. -/
theorem Written.denotes_leaf (written : Written root state decoder)
    (hfits : FitsVector (toBinary root)) (speaks : Speaks head reads)
    {slot : Nat} {address : Address} {value other : Plist}
    (hleaf : value.IsLeaf)
    (h : state.objects[slot]? = some ⟨address, value⟩) :
    (decoder.graph head).Denotes slot other ↔ reads value = some other := by
  obtain ⟨pre, post, hoffset, hbytes⟩ := written.offsetAt h
  rw [appendObject_leaf hleaf] at hbytes
  rw [← written.bytes, hbytes] at hfits
  have hshape : (decoder.graph head).shape slot =
      head decoder.refSize ⟨pre ++ leafBytes value ++ post, pre.length⟩ >>=
        fun x => x.1.shape decoder.refSize x.2 := by
    change decoder.shape head slot = _
    rw [Decoder.shape, hoffset, ok_bind, hbytes]
  cases hreads : reads value with
  | none =>
      obtain ⟨e, he⟩ := @Speaks.refused _ _ speaks decoder.refSize _ _ _ hleaf hfits
        hreads
      refine iff_of_false (fun hdenotes => ?_) (by simp)
      obtain ⟨shape, -, -, hok, -⟩ := ObjectGraph.denotes_iff.mp hdenotes
      rw [hshape, he] at hok
      cases hok
  | some read =>
      obtain ⟨last, hlast⟩ := @Speaks.leaf _ _ speaks decoder.refSize _ _ _ _ hleaf hfits
        hreads
      rw [hlast, ok_bind] at hshape
      rw [ObjectGraph.denotes_leaf_iff (written.lt_count h) hshape,
        Option.some.injEq, eq_comm]

/-- The references of an array. -/
theorem Written.shape_array (written : Written root state decoder)
    (hfits : FitsVector (toBinary root)) (speaks : Speaks head reads)
    {slot : Nat} {address : Address} {items : List Plist}
    (h : state.objects[slot]? = some ⟨address, .array items⟩)
    (hslots : ∀ i < items.length,
      state.slotAt (address.child i) < state.objects.length) :
    (decoder.graph head).shape slot =
      .ok ⟨(List.range items.length).map fun i =>
        state.slotAt (address.child i), .array⟩ := by
  obtain ⟨pre, post, hoffset, hbytes⟩ := written.offsetAt h
  set references := (List.range items.length).map fun i =>
    state.slotAt (address.child i) with hreferences
  have hcount : references.length = items.length := by simp [hreferences]
  have hobject : pre ++ appendObject state decoder.refSize []
      ⟨address, .array items⟩ ++ post =
      pre ++ appendCount [] kMarkerArray items.length ++
        (references.flatMap (beBytes decoder.refSize) ++ post) := by
    simp only [appendObject, appendRefs_eq, hreferences, List.flatMap_map,
      List.append_assoc]
  have hwidth : ∀ r ∈ references, r < 256 ^ decoder.refSize ∧ r < 2 ^ 64 := by
    intro r hr
    obtain ⟨i, hi, rfl⟩ := List.mem_map.mp hr
    exact written.fits_reference (hslots i (List.mem_range.mp hi))
  rw [hobject] at hbytes
  rw [← written.bytes, hbytes] at hfits
  have hhead := speaks.array written.refSize hfits (by
    rw [List.length_append, length_references, hcount]
    omega)
  have hread := reads_readRefs references hwidth
    (pre ++ appendCount [] kMarkerArray items.length) post trivial
  rw [hcount, List.length_append, List.append_assoc _ _ post] at hread
  change decoder.shape head slot = _
  rw [Decoder.shape, hoffset, ok_bind, hbytes, hhead, ok_bind]
  simp only [Head.shape, hread, ok_bind]

/-- An array takes at least a byte for each item. -/
theorem Written.length_array_le (written : Written root state decoder)
    {slot : Nat} {address : Address} {items : List Plist}
    (h : state.objects[slot]? = some ⟨address, .array items⟩) :
    items.length ≤ (toBinary root).length := by
  obtain ⟨pre, post, -, hbytes⟩ := written.object slot _ h
  have hwidth := Nat.le_mul_of_pos_right items.length written.refSize
  rw [hbytes]
  simp only [appendObject, appendRefs_eq, List.length_append,
    List.length_flatMap, length_beBytes, List.map_const', List.sum_replicate,
    List.length_range, smul_eq_mul]
  omega

/-- The references of a dictionary. -/
theorem Written.shape_dictionary (written : Written root state decoder)
    (hfits : FitsVector (toBinary root)) (speaks : Speaks head reads)
    {slot : Nat} {address : Address} {entries : List (Bytes × Plist)}
    (h : state.objects[slot]? = some ⟨address, .dictionary entries⟩)
    (hkeys : ∀ entry ∈ entries,
      state.keySlotAt entry.1 < state.objects.length)
    (hslots : ∀ i < entries.length,
      state.slotAt (address.child i) < state.objects.length) :
    (decoder.graph head).shape slot =
      .ok ⟨interleave (entries.map fun entry => state.keySlotAt entry.1)
          ((List.range entries.length).map fun i =>
            state.slotAt (address.child i)),
        fun objects => .dictionary (SortedMap.ofEntries (pairUp objects))⟩ := by
  obtain ⟨pre, post, hoffset, hbytes⟩ := written.offsetAt h
  set keys := entries.map fun entry => state.keySlotAt entry.1 with hkeysDef
  set values := (List.range entries.length).map fun i =>
    state.slotAt (address.child i) with hvaluesDef
  have hkeyCount : keys.length = entries.length := by simp [hkeysDef]
  have hvalueCount : values.length = entries.length := by simp [hvaluesDef]
  have hobject : pre ++ appendObject state decoder.refSize []
      ⟨address, .dictionary entries⟩ ++ post =
      pre ++ appendCount [] kMarkerDictionary entries.length ++
        (keys.flatMap (beBytes decoder.refSize) ++
          (values.flatMap (beBytes decoder.refSize) ++ post)) := by
    simp only [appendObject, appendRefs_eq, foldl_putBe, hkeysDef, hvaluesDef,
      List.flatMap_map, List.append_assoc]
  have hkeyWidth : ∀ r ∈ keys, r < 256 ^ decoder.refSize ∧ r < 2 ^ 64 := by
    intro r hr
    obtain ⟨entry, hmem, rfl⟩ := List.mem_map.mp hr
    exact written.fits_reference (hkeys entry hmem)
  have hvalueWidth : ∀ r ∈ values,
      r < 256 ^ decoder.refSize ∧ r < 2 ^ 64 := by
    intro r hr
    obtain ⟨i, hi, rfl⟩ := List.mem_map.mp hr
    exact written.fits_reference (hslots i (List.mem_range.mp hi))
  rw [hobject] at hbytes
  rw [← written.bytes, hbytes] at hfits
  have hhead := speaks.dictionary written.refSize hfits (by
    simp only [List.length_append, length_references, hkeyCount, hvalueCount]
    rw [← Nat.mul_assoc, Nat.mul_comm entries.length 2, Nat.mul_assoc]
    omega)
  have hreadKeys := reads_readRefs keys hkeyWidth
    (pre ++ appendCount [] kMarkerDictionary entries.length)
    (values.flatMap (beBytes decoder.refSize) ++ post) trivial
  have hreadValues := reads_readRefs values hvalueWidth
    (pre ++ appendCount [] kMarkerDictionary entries.length ++
      keys.flatMap (beBytes decoder.refSize)) post trivial
  rw [hkeyCount] at hreadKeys
  rw [hvalueCount] at hreadValues
  simp only [List.append_assoc, List.length_append]
    at hbytes hhead hreadKeys hreadValues
  rw [← Nat.add_assoc] at hreadValues
  change decoder.shape head slot = _
  rw [Decoder.shape, hoffset, ok_bind, hbytes, hhead, ok_bind]
  simp only [Head.shape, hreadKeys, hreadValues, ok_bind]

/-! ## The tree -/

/-- The alternating values of a dictionary, as pairs. -/
theorem forall₂_interleave {R : Nat → Plist → Prop}
    {references : List (Nat × Nat)} {objects : List Plist} :
    List.Forall₂ R (references.flatMap fun e => [e.1, e.2]) objects ↔
      ∃ pairs : List (Plist × Plist),
        List.Forall₂ (fun e p => R e.1 p.1 ∧ R e.2 p.2) references pairs ∧
          objects = pairs.flatMap fun p => [p.1, p.2] := by
  induction references generalizing objects with
  | nil =>
      constructor
      · intro h
        cases h
        exact ⟨[], .nil, rfl⟩
      · rintro ⟨pairs, hpairs, rfl⟩
        cases hpairs
        exact .nil
  | cons e rest ih =>
      constructor
      · intro h
        cases h with
        | @cons _ key _ _ hkey h =>
            cases h with
            | @cons _ value _ tail hvalue htail =>
                obtain ⟨pairs, hpairs, rfl⟩ := ih.mp htail
                exact ⟨(key, value) :: pairs, .cons ⟨hkey, hvalue⟩ hpairs, rfl⟩
      · rintro ⟨pairs, hpairs, rfl⟩
        cases hpairs with
        | @cons _ p _ tail hp htail =>
            exact .cons hp.1 (.cons hp.2 (ih.mpr ⟨tail, htail, rfl⟩))

theorem pairUp_flatMap (pairs : List (Plist × Plist)) :
    pairUp (pairs.flatMap fun p => [p.1, p.2]) =
      pairs.map fun p => (p.1.stringOr [], p.2) := by
  induction pairs with
  | nil => rfl
  | cons p rest ih => simp [pairUp, ih]

private theorem forall₂_range {R : Nat → Plist → Prop} {f : Nat → Nat}
    {items : List Plist} :
    List.Forall₂ R ((List.range items.length).map f) items ↔
      ∀ (i : Nat) (h : i < items.length), R (f i) items[i] := by
  rw [List.forall₂_iff_get]
  constructor
  · rintro ⟨-, h⟩ i hi
    simpa using h i (by simpa using hi) hi
  · intro h
    refine ⟨by simp, fun i hi hi' => ?_⟩
    simpa using h i hi'

private theorem forall₂_references {R : Nat → Plist → Prop}
    {entries : List (Bytes × Plist)} {keySlot : Bytes → Nat} {slot : Nat → Nat}
    {pairs : List (Plist × Plist)} :
    List.Forall₂ (fun e p => R e.1 p.1 ∧ R e.2 p.2)
        ((entries.map fun entry => keySlot entry.1).zip
          ((List.range entries.length).map slot)) pairs ↔
      pairs.length = entries.length ∧
        ∀ (i : Nat) (_ : i < entries.length) (_ : i < pairs.length),
          R (keySlot entries[i].1) pairs[i].1 ∧ R (slot i) pairs[i].2 := by
  rw [List.forall₂_iff_get]
  simp only [List.length_zip, List.length_map, List.length_range, Nat.min_self,
    List.get_eq_getElem, List.getElem_zip, List.getElem_map,
    List.getElem_range]
  constructor
  · rintro ⟨hlength, h⟩
    exact ⟨hlength.symm, h⟩
  · rintro ⟨hlength, h⟩
    exact ⟨hlength.symm, h⟩

/-- When a key object stands for nothing but its own text, a dictionary is made
of its references exactly when each of them stands for its part. -/
private theorem exists_dictionary_iff {R : Nat → Plist → Prop}
    {entries : List (Bytes × Plist)} {keySlot : Bytes → Nat} {slot : Nat → Nat}
    (hsorted : SortedMap.Sorted entries)
    (hkey : ∀ entry ∈ entries, ∀ other, R (keySlot entry.1) other →
      other = .string entry.1) :
    (∃ objects, List.Forall₂ R (interleave
        (entries.map fun entry => keySlot entry.1)
        ((List.range entries.length).map slot)) objects ∧
      dictionary entries =
        .dictionary (SortedMap.ofEntries (pairUp objects))) ↔
      ∀ (i : Nat) (h : i < entries.length),
        R (keySlot entries[i].1) (.string entries[i].1) ∧
          R (slot i) entries[i].2 := by
  constructor
  · rintro ⟨objects, hobjects, heq⟩
    obtain ⟨pairs, hpairs, rfl⟩ := forall₂_interleave.mp hobjects
    obtain ⟨hlength, hpairs⟩ := forall₂_references.mp hpairs
    have hkeys : ∀ (i : Nat) (_ : i < entries.length) (_ : i < pairs.length),
        pairs[i].1 = .string entries[i].1 := fun i h h' =>
      hkey _ (List.getElem_mem h) _ (hpairs i h h').1
    have hmap : (pairs.map fun p => (p.1.stringOr [], p.2)).map Prod.fst =
        entries.map Prod.fst := by
      refine List.ext_getElem (by simpa using hlength) fun i hi hi' => ?_
      simp [hkeys i (by simpa using hi') (by simpa using hi), stringOr]
    have hentries : entries = pairs.map fun p => (p.1.stringOr [], p.2) := by
      rw [pairUp_flatMap, SortedMap.ofEntries_of_sorted
        (by rw [SortedMap.Sorted, hmap]; exact hsorted)] at heq
      exact Plist.dictionary.inj heq
    intro i h
    have h' : i < pairs.length := hlength ▸ h
    have hvalue : entries[i].2 = pairs[i].2 := by
      have := congrArg (·[i]?) hentries
      simp only [List.getElem?_map, List.getElem?_eq_getElem h,
        List.getElem?_eq_getElem h', Option.map_some, Option.some.injEq] at this
      rw [this]
    rw [hvalue, ← hkeys i h h']
    exact hpairs i h h'
  · intro h
    set pairs : List (Plist × Plist) :=
      entries.map fun entry => (.string entry.1, entry.2) with hpairsDef
    refine ⟨pairs.flatMap fun p => [p.1, p.2], forall₂_interleave.mpr
      ⟨pairs, forall₂_references.mpr ⟨by simp [hpairsDef], fun i hi _ => ?_⟩, rfl⟩,
      ?_⟩
    · simpa [hpairsDef] using h i hi
    · have hmap : (pairs.map fun p => (p.1.stringOr [], p.2)) = entries := by
        simp [hpairsDef, stringOr, Function.comp_def]
      rw [pairUp_flatMap, hmap, SortedMap.ofEntries_of_sorted hsorted]

theorem Flattened.slotAt_of_some {s : Flattened} {address : Address} {slot : Nat}
    (h : s.slots address = some slot) : s.slotAt address = slot := by
  simp [slotAt, h]

/-- The slot of a placed value is that of an object. -/
theorem Flattened.Placed.slotAt_lt {s : Flattened} {path : List Nat}
    {value : Plist} (h : s.Placed path value) :
    s.slotAt (.node path) < s.objects.length := by
  obtain ⟨slot, hslot, hobject⟩ := h.object
  rw [slotAt_of_some hslot]
  exact (List.getElem?_eq_some_iff.mp hobject).1

/-- The slot of a placed key is that of its string. -/
theorem Flattened.KeysPlaced.object {s : Flattened} (h : s.KeysPlaced)
    {text : Bytes} (hkey : (s.keySlots text).isSome) :
    s.objects[s.keySlotAt text]? = some ⟨.key text, .string text⟩ := by
  obtain ⟨slot, hslot⟩ := Option.isSome_iff_exists.mp hkey
  simpa [keySlotAt, hslot] using h text slot hslot

/-- A placed tree stands for itself exactly when each of its leaves is read as
itself. -/
theorem Written.denotes_iff (written : Written root state decoder)
    (hfits : FitsVector (toBinary root)) (speaks : Speaks head reads)
    (hkeysPlaced : state.KeysPlaced) {path : List Nat} {value : Plist}
    (hplaced : state.Placed path value) (hwell : value.WellFormed) :
    (decoder.graph head).Denotes (state.slotAt (.node path)) value ↔
      value.AllLeaves fun leaf => reads leaf = some leaf := by
  induction value using Plist.induct generalizing path with
  | leaf value hleaf =>
      obtain ⟨slot, hslot, hobject⟩ := hplaced.object
      rw [Flattened.slotAt_of_some hslot,
        written.denotes_leaf hfits speaks hleaf hobject, allLeaves_leaf hleaf]
  | array items ih =>
      rw [wellFormed_array] at hwell
      cases hplaced with
      | leaf hleaf => exact hleaf.elim
      | array hslot hobject hitems =>
          have hplacedAt : ∀ (i : Nat) (h : i < items.length),
              state.Placed (i :: path) items[i] := fun i h =>
            hitems i items[i] (List.getElem?_eq_getElem h)
          have hshape := written.shape_array hfits speaks hobject
            fun i hi => (hplacedAt i hi).slotAt_lt
          rw [Flattened.slotAt_of_some hslot, ObjectGraph.denotes_iff_of_shape
            (written.lt_count hobject) hshape, allLeaves_array]
          have heach : ∀ (i : Nat) (h : i < items.length),
              (decoder.graph head).Denotes (state.slotAt (.node (i :: path)))
                items[i] ↔ items[i].AllLeaves fun leaf =>
                  reads leaf = some leaf := fun i h =>
            ih items[i] (List.getElem_mem h) (hplacedAt i h)
              (hwell _ (List.getElem_mem h))
          constructor
          · rintro ⟨values, hvalues, heq⟩
            cases heq
            intro item hmem
            obtain ⟨i, hi, rfl⟩ := List.getElem_of_mem hmem
            exact (heach i hi).mp (forall₂_range.mp hvalues i hi)
          · intro hall
            refine ⟨items, forall₂_range.mpr fun i hi => ?_, rfl⟩
            exact (heach i hi).mpr (hall _ (List.getElem_mem hi))
  | dictionary entries ih =>
      obtain ⟨hsorted, hwell⟩ := wellFormed_dictionary.mp hwell
      cases hplaced with
      | leaf hleaf => exact hleaf.elim
      | dictionary hslot hobject hkeys hvalues =>
          have hplacedAt : ∀ (i : Nat) (h : i < entries.length),
              state.Placed (i :: path) entries[i].2 := fun i h =>
            hvalues i entries[i] (List.getElem?_eq_getElem h)
          have hkeyObject : ∀ entry ∈ entries,
              state.objects[state.keySlotAt entry.1]? =
                some ⟨.key entry.1, .string entry.1⟩ := fun entry hmem =>
            hkeysPlaced.object (hkeys entry hmem)
          have hshape := written.shape_dictionary hfits speaks hobject
            (fun entry hmem =>
              (List.getElem?_eq_some_iff.mp (hkeyObject entry hmem)).1)
            fun i hi => (hplacedAt i hi).slotAt_lt
          rw [Flattened.slotAt_of_some hslot, ObjectGraph.denotes_iff_of_shape
            (written.lt_count hobject) hshape, allLeaves_dictionary]
          have hkey : ∀ entry ∈ entries, ∀ other,
              (decoder.graph head).Denotes (state.keySlotAt entry.1) other ↔
                reads (.string entry.1) = some other :=
            fun entry hmem other => written.denotes_leaf hfits speaks trivial
              (hkeyObject entry hmem)
          have heach : ∀ (i : Nat) (h : i < entries.length),
              (decoder.graph head).Denotes (state.slotAt (.node (i :: path)))
                entries[i].2 ↔ entries[i].2.AllLeaves fun leaf =>
                  reads leaf = some leaf := fun i h =>
            ih entries[i] (List.getElem_mem h) (hplacedAt i h)
              (hwell _ (List.getElem_mem h))
          rw [exists_dictionary_iff hsorted fun entry hmem other hother =>
            speaks.string ((hkey entry hmem other).mp hother)]
          constructor
          · intro h
            refine ⟨fun entry hmem => ?_, fun entry hmem => ?_⟩
            · obtain ⟨i, hi, rfl⟩ := List.getElem_of_mem hmem
              exact (hkey _ hmem _).mp (h i hi).1
            · obtain ⟨i, hi, rfl⟩ := List.getElem_of_mem hmem
              exact (heach i hi).mp (h i hi).2
          · rintro ⟨hreadKeys, hall⟩ i hi
            exact ⟨(hkey _ (List.getElem_mem hi) _).mpr
                (hreadKeys _ (List.getElem_mem hi)),
              (heach i hi).mpr (hall _ (List.getElem_mem hi))⟩

end Written

/-- A reader that speaks the encoder's objects reads a tree back from its bytes
exactly when it reads each of its leaves, keys included, as itself. -/
theorem unfoldBinary_toBinary_iff {head : Nat → Reading Error Head}
    {reads : Plist → Option Plist} (speaks : Speaks head reads) {value : Plist}
    (hwell : value.WellFormed) (hfits : FitsVector (toBinary value)) :
    unfoldBinary head (toBinary value) = .ok value ↔
      value.AllLeaves fun leaf => reads leaf = some leaf := by
  obtain ⟨decoder, hopen, written⟩ := openBinary_toBinary value hfits
  obtain ⟨hplaced, hkeysPlaced⟩ := flatten_root value
  rw [unfoldBinary, hopen, ok_bind,
    ← written.denotes_iff hfits speaks hkeysPlaced hplaced hwell]
  exact ObjectGraph.unfold_eq_ok_iff

end Ioscpp.Protocol.Plist
