import Ioscpp.Protocol.BinaryPlistFlatten
import Ioscpp.Protocol.BinaryPlistUnfold

/-!
# Where `toBinary` writes what

The bytes of `toBinary` are the header, the objects one after the other, the
offset table and the trailer.  `openBinary` finds the table and the top object
again, and the offset it finds for an object is where its bytes stand
(`openBinary_toBinary`).

## Main results

- `appendObjects_spec`: the objects stand one after the other, each at its offset.
- `openBinary_of_trailer`: what `openBinary` makes of a file with a given trailer.
- `openBinary_toBinary`: so the offset table and the top object of an encoded file are
  read back.
-/

namespace Ioscpp.Protocol.Plist

open Ioscpp.Support
open Ioscpp.Support.Reading

/-! ## Appending -/

theorem putBe_eq (out : Bytes) (value size : Nat) :
    putBe out value size = out ++ beBytes size value := rfl

theorem foldl_putBe {α : Type} (f : α → Nat) (size : Nat) (items : List α)
    (out : Bytes) :
    items.foldl (fun out item => putBe out (f item) size) out =
      out ++ items.flatMap fun item => beBytes size (f item) := by
  induction items generalizing out with
  | nil => simp
  | cons item rest ih =>
      rw [List.foldl_cons, ih, putBe_eq, List.flatMap_cons, List.append_assoc]

theorem appendInt_eq (out : Bytes) (value : Int64) :
    appendInt out value = out ++ appendInt [] value := by
  simp only [appendInt, putBe_eq]
  split_ifs <;> simp

theorem appendCount_eq (out : Bytes) (marker : UInt8) (count : Nat) :
    appendCount out marker count = out ++ appendCount [] marker count := by
  rw [appendCount, appendCount]
  split
  · simp
  · rw [appendInt_eq, appendInt_eq ([] ++ _)]
    simp

theorem appendUid_eq (out : Bytes) (index : Nat) :
    appendUid out index = out ++ appendUid [] index := by
  simp only [appendUid, putBe_eq]
  split_ifs <;> simp

theorem appendRefs_eq (out : Bytes) (state : Flattened) (address : Address)
    (refSize count : Nat) :
    appendRefs out state address refSize count =
      out ++ (List.range count).flatMap fun position =>
        beBytes refSize (state.slotAt (address.child position)) :=
  foldl_putBe _ _ _ _

/-- The bytes of an object do not depend on what stands before them. -/
theorem appendObject_eq (state : Flattened) (refSize : Nat) (out : Bytes)
    (pointer : Pointer) :
    appendObject state refSize out pointer =
      out ++ appendObject state refSize [] pointer := by
  obtain ⟨address, target⟩ := pointer
  cases target with
  | null => rfl
  | boolean value => rfl
  | integer value => exact appendInt_eq out value
  | real bits => simp [appendObject, putBe_eq]
  | string text =>
      simp only [appendObject]
      rw [appendCount_eq, List.append_assoc]
  | data bytes =>
      simp only [appendObject]
      rw [appendCount_eq, List.append_assoc]
  | date seconds => simp [appendObject, putBe_eq]
  | array items =>
      simp only [appendObject, appendRefs_eq]
      rw [appendCount_eq, List.append_assoc]
  | dictionary entries =>
      simp only [appendObject, appendRefs_eq, foldl_putBe]
      rw [appendCount_eq]
      simp only [List.append_assoc]
  | uid index => exact appendUid_eq out index.toNat

/-- The objects stand one after the other, each at its offset, and the bytes of each are
those that it has by itself. -/
theorem appendObjects_spec (state : Flattened) (refSize : Nat)
    (objects : List Pointer) (offsets : List Nat) (out : Bytes) :
    ∃ (more : List Nat) (body : Bytes), appendObjects state refSize objects offsets out =
        (offsets ++ more, out ++ body) ∧
      more.length = objects.length ∧
      ∀ (slot : Nat) (pointer : Pointer), objects[slot]? = some pointer →
        ∃ pre post : Bytes, more[slot]? = some pre.length ∧
          out ++ body = pre ++ appendObject state refSize [] pointer ++ post := by
  induction objects generalizing offsets out with
  | nil => exact ⟨[], [], by simp [appendObjects], rfl, by simp⟩
  | cons pointer rest ih =>
      obtain ⟨more, body, heq, hlength, hslots⟩ := ih (offsets ++ [out.length])
        (appendObject state refSize out pointer)
      have hbody : appendObject state refSize out pointer ++ body =
          out ++ (appendObject state refSize [] pointer ++ body) := by
        rw [appendObject_eq, List.append_assoc]
      refine ⟨out.length :: more, appendObject state refSize [] pointer ++ body,
        ?_, by simp [hlength], ?_⟩
      · rw [appendObjects, heq, hbody, List.append_assoc]
        rfl
      · intro slot other hother
        cases slot with
        | zero =>
            cases hother
            exact ⟨out, body, rfl, by rw [List.append_assoc]⟩
        | succ slot =>
            obtain ⟨pre, post, hoffset, hbytes⟩ := hslots slot other hother
            exact ⟨pre, post, hoffset, by rw [← hbody, hbytes]⟩

/-! ## Widths -/

theorem byteWidth_spec {value : Nat} (turns size : Nat) (h : value < 2 ^ 64)
    (hturns : size + turns = 8) :
    value < 256 ^ byteWidth value turns size ∧
      size ≤ byteWidth value turns size ∧ byteWidth value turns size ≤ 8 := by
  induction turns generalizing size with
  | zero =>
      have hsize : size = 8 := hturns
      subst hsize
      exact ⟨h, le_rfl, le_rfl⟩
  | succ turns ih =>
      rw [byteWidth]
      split
      · obtain ⟨hlt, hlow, hhigh⟩ := ih (size + 1) (by omega)
        exact ⟨hlt, by omega, hhigh⟩
      · rename_i hstop
        have hzero : value >>> (8 * size) = 0 := by
          by_contra hne
          exact hstop ⟨by omega, hne⟩
        rw [Nat.shiftRight_eq_div_pow, pow_mul] at hzero
        exact ⟨Nat.lt_of_div_eq_zero (by positivity) hzero, le_rfl, by omega⟩

/-! ## The trailer and the table -/

/-- The last 32 bytes. -/
def trailer (offsetSize refSize objectCount topObject tableOffset : Nat) :
    Bytes :=
  List.replicate kTrailerOffsetSizeIndex 0 ++
    [UInt8.ofNat offsetSize, UInt8.ofNat refSize] ++ beBytes 8 objectCount ++
    beBytes 8 topObject ++ beBytes 8 tableOffset

theorem length_trailer (offsetSize refSize objectCount topObject tableOffset : Nat) :
    (trailer offsetSize refSize objectCount topObject tableOffset).length = 32 := by
  simp [trailer, kTrailerOffsetSizeIndex]

/-- A byte of the trailer holds a small size. -/
private theorem toNat_size {size : Nat} (h : size < 256) :
    (UInt8.ofNat size).toNat = size := by
  rw [UInt8.toNat_ofNat']
  exact Nat.mod_eq_of_lt h

private theorem size_ne_zero {size : Nat} (hpos : 0 < size) (hlt : size < 256) :
    UInt8.ofNat size ≠ 0 := by
  intro hzero
  have := congrArg UInt8.toNat hzero
  rw [toNat_size hlt] at this
  exact absurd this hpos.ne'

/-- A word of the trailer is read back. -/
private theorem readBe_word {bytes rest : Bytes} {start value : Nat}
    (hvalue : value < 2 ^ 64) (hle : start + 8 ≤ bytes.length)
    (h : bytes.drop start = beBytes 8 value ++ rest) :
    (readBe bytes start 8 : Result Nat) = .ok value := by
  rw [readBe_eq hle, h, List.take_left' (length_beBytes 8 value),
    beValue_beBytes_of_lt hvalue, Nat.mod_eq_of_lt hvalue]

/-- The offsets are those of the part before the trailer. -/
private theorem readOffsets_front {front last : Bytes}
    {tableOffset offsetSize objectCount : Nat}
    (hfits : tableOffset + objectCount * offsetSize ≤ front.length) :
    readOffsets (front ++ last) tableOffset offsetSize objectCount =
      .ok ((List.range objectCount).map fun i =>
        beValue ((front.drop (tableOffset + i * offsetSize)).take
          offsetSize) % 2 ^ 64) := by
  have hwhole := @List.length_append _ front last
  rw [readOffsets_of_le (by omega)]
  congr 1
  refine List.map_congr_left fun i hi => ?_
  have hle : (i + 1) * offsetSize ≤ objectCount * offsetSize :=
    Nat.mul_le_mul_right _ (List.mem_range.mp hi)
  rw [Nat.succ_mul] at hle
  rw [List.drop_append_of_le_length (by omega),
    List.take_append_of_le_length (by rw [List.length_drop]; omega)]

/-- What `openBinary` makes of a file with a given trailer: the offsets are the words of
the table that the trailer points to, in the part before it. -/
theorem openBinary_of_trailer (front : Bytes)
    (offsetSize refSize objectCount topObject tableOffset : Nat)
    (hlength : 8 ≤ front.length) (hheader : front.take 8 = kHeader)
    (hoffsetSize : 0 < offsetSize) (hoffsetSize' : offsetSize < 256)
    (hrefSize : 0 < refSize) (hrefSize' : refSize < 256)
    (hcount : 0 < objectCount) (hcount' : objectCount < 2 ^ 64)
    (htop : topObject < 2 ^ 64) (htable : tableOffset < 2 ^ 64)
    (hfits : tableOffset + objectCount * offsetSize ≤ front.length) :
    openBinary (front ++
        trailer offsetSize refSize objectCount topObject tableOffset) =
      .ok (⟨front ++
          trailer offsetSize refSize objectCount topObject tableOffset,
        (List.range objectCount).map fun i =>
          beValue ((front.drop (tableOffset + i * offsetSize)).take
            offsetSize) % 2 ^ 64, refSize⟩, topObject) := by
  have htrailer := length_trailer offsetSize refSize objectCount topObject
    tableOffset
  set last := trailer offsetSize refSize objectCount topObject tableOffset
    with hlast
  have hwhole : (front ++ last).length = front.length + 32 := by
    rw [List.length_append, htrailer]
  have hdrop : (front ++ last).drop ((front ++ last).length - kTrailerSize) =
      last := by
    rw [hwhole]
    exact List.drop_left' rfl
  have hstart : ¬ ((front ++ last).length < 8 + kTrailerSize ∨
      (front ++ last).take 8 ≠ kHeader) := by
    rw [List.take_append_of_le_length hlength, hheader, hwhole]
    simp only [kTrailerSize, ne_eq, not_true_eq_false, or_false]
    omega
  have hoffsetByte : byteAt last kTrailerOffsetSizeIndex =
      (.ok (UInt8.ofNat offsetSize) : Result UInt8) := rfl
  have hrefByte : byteAt last kTrailerRefSizeIndex =
      (.ok (UInt8.ofNat refSize) : Result UInt8) := rfl
  have hcountWord : (readBe last 8 8 : Result Nat) = .ok objectCount :=
    @readBe_word last (beBytes 8 topObject ++ beBytes 8 tableOffset) 8 _ hcount'
      (by omega) rfl
  have htopWord : (readBe last 16 8 : Result Nat) = .ok topObject :=
    @readBe_word last (beBytes 8 tableOffset) 16 _ htop (by omega) rfl
  have htableWord : (readBe last 24 8 : Result Nat) = .ok tableOffset :=
    @readBe_word last [] 24 _ htable (by omega) rfl
  have hoffsetNat := toNat_size hoffsetSize'
  have hwell : ¬ (UInt8.ofNat offsetSize = 0 ∨ UInt8.ofNat refSize = 0 ∨
      objectCount = 0 ∨ (front ++ last).length < tableOffset ∨
      ((front ++ last).length - tableOffset) / (UInt8.ofNat offsetSize).toNat <
        objectCount) := by
    rw [hoffsetNat]
    rintro (h | h | h | h | h)
    · exact size_ne_zero hoffsetSize hoffsetSize' h
    · exact size_ne_zero hrefSize hrefSize' h
    · omega
    · omega
    · refine absurd h (Nat.not_lt.mpr ?_)
      rw [Nat.le_div_iff_mul_le hoffsetSize]
      omega
  rw [openBinary, if_neg hstart]
  simp only [hdrop, hoffsetByte, hrefByte, hcountWord, htopWord, htableWord,
    ok_bind]
  rw [if_neg hwell, hoffsetNat, toNat_size hrefSize', readOffsets_front hfits,
    ok_bind]

/-- The entries of an offset table are read back. -/
private theorem table_entry {offsetSize : Nat} (offsets : List Nat)
    (hoffsets : ∀ offset ∈ offsets, offset < 256 ^ offsetSize)
    (i : Nat) (hi : i < offsets.length) :
    beValue (((offsets.flatMap (beBytes offsetSize)).drop
      (i * offsetSize)).take offsetSize) = offsets[i] := by
  induction offsets generalizing i with
  | nil => cases hi
  | cons offset rest ih =>
      rw [List.flatMap_cons]
      cases i with
      | zero =>
          rw [Nat.zero_mul, List.drop_zero,
            List.take_left' (length_beBytes offsetSize offset)]
          exact beValue_beBytes_of_lt (hoffsets offset (by simp))
      | succ i =>
          rw [Nat.succ_mul, Nat.add_comm, ← List.drop_drop,
            List.drop_left' (length_beBytes offsetSize offset)]
          exact ih (fun o ho => hoffsets o (by simp [ho])) i
            (by simpa using hi)

/-- So the whole table is. -/
private theorem table_entries {offsetSize : Nat} {out : Bytes}
    {offsets : List Nat} (hsize : offsetSize ≤ 8)
    (hoffsets : ∀ offset ∈ offsets, offset < 256 ^ offsetSize) :
    ((List.range offsets.length).map fun i =>
      beValue (((out ++ offsets.flatMap (beBytes offsetSize)).drop
        (out.length + i * offsetSize)).take offsetSize) % 2 ^ 64) = offsets := by
  refine List.ext_getElem (by simp) fun i hi hi' => ?_
  have hsmall : offsets[i] < 2 ^ 64 :=
    (hoffsets _ (List.getElem_mem hi')).trans_le
      (Nat.pow_le_pow_right (n := 256) (by decide) hsize)
  rw [List.getElem_map, List.getElem_range, ← List.drop_drop, List.drop_left,
    table_entry offsets hoffsets i hi', Nat.mod_eq_of_lt hsmall]

/-! ## The file -/

/-- The largest size of a byte vector. -/
def FitsVector (bytes : Bytes) : Prop := bytes.length < 2 ^ 63

/-- What `openBinary` finds in the bytes of `toBinary`: a decoder whose
references are wide enough for every object, and whose offsets are where the
objects stand. -/
structure Written (value : Plist) (state : Flattened) (decoder : Decoder) :
    Prop where
  bytes : decoder.bytes = toBinary value
  count : decoder.offsets.length = state.objects.length
  refSize : 0 < decoder.refSize
  width : state.objects.length < 256 ^ decoder.refSize
  small : state.objects.length < 2 ^ 64
  object : ∀ (slot : Nat) (pointer : Pointer), state.objects[slot]? = some pointer →
    ∃ pre post : Bytes, decoder.offsets[slot]? = some pre.length ∧
      toBinary value =
        pre ++ appendObject state decoder.refSize [] pointer ++ post

/-- The trailer of an encoded file is accepted: the decoder starts at the slot of the
value itself, and finds every object where it was written. -/
theorem openBinary_toBinary (value : Plist) (hfits : FitsVector (toBinary value)) :
    ∃ decoder, openBinary (toBinary value) =
        .ok (decoder, (flatten (.node []) value {}).slotAt (.node [])) ∧
      Written value (flatten (.node []) value {}) decoder := by
  obtain ⟨hplaced, -⟩ := flatten_root value
  set state := flatten (.node []) value {} with hstate
  obtain ⟨topSlot, htopSlot, htopObject⟩ := hplaced.object
  have htop : state.slotAt (.node []) = topSlot := by
    simp [Flattened.slotAt, htopSlot]
  have htopLt := (List.getElem?_eq_some_iff.mp htopObject).1
  set refSize := byteWidth state.objects.length 7 1 with hrefSize
  obtain ⟨offsets, body, hobjects, hcount, hslots⟩ :=
    appendObjects_spec state refSize state.objects [] kHeader
  rw [List.nil_append] at hobjects
  set out := kHeader ++ body with hout
  set offsetSize := byteWidth out.length 7 1 with hoffsetSize
  have htableFold : offsets.foldl (fun out o => putBe out o offsetSize) out =
      out ++ offsets.flatMap (beBytes offsetSize) :=
    foldl_putBe (fun o => o) _ _ _
  have hbytes : toBinary value =
      out ++ offsets.flatMap (beBytes offsetSize) ++
        trailer offsetSize refSize state.objects.length topSlot out.length := by
    rw [toBinary]
    simp only [← hstate, ← hrefSize, hobjects, ← hoffsetSize, htop, htableFold]
    simp only [putBe_eq, trailer, List.append_assoc]
  have htable : (offsets.flatMap (beBytes offsetSize)).length =
      state.objects.length * offsetSize := by
    rw [List.length_flatMap, ← hcount]
    simp
  have hlength : (toBinary value).length =
      out.length + state.objects.length * offsetSize + 32 := by
    rw [hbytes, List.length_append, List.length_append, htable, length_trailer]
  have hvector : (toBinary value).length < 2 ^ 63 := hfits
  have houtSmall : out.length < 2 ^ 64 := by omega
  obtain ⟨hoffsetWidth, hoffsetPos, hoffsetLe⟩ :=
    byteWidth_spec 7 1 houtSmall rfl
  rw [← hoffsetSize] at hoffsetWidth hoffsetPos hoffsetLe
  have hcountSmall : state.objects.length < 2 ^ 64 := by
    have := Nat.mul_le_mul_left state.objects.length hoffsetPos
    omega
  obtain ⟨hrefWidth, hrefPos, hrefLe⟩ :=
    byteWidth_spec 7 1 hcountSmall rfl
  rw [← hrefSize] at hrefWidth hrefPos hrefLe
  have hheaderLength : kHeader.length = 8 := rfl
  have houtLength : 8 ≤ out.length := by
    rw [hout, List.length_append]
    omega
  have houtHeader : out.take 8 = kHeader := List.take_left' hheaderLength
  clear_value out
  -- every offset lies in the part before the table
  have hoffsets : ∀ o ∈ offsets, o < 256 ^ offsetSize := by
    intro o ho
    obtain ⟨slot, hslot, rfl⟩ := List.getElem_of_mem ho
    obtain ⟨pre, post, hpre, heq⟩ := hslots slot
      state.objects[slot] (List.getElem?_eq_getElem (hcount ▸ hslot))
    rw [List.getElem?_eq_getElem hslot, Option.some.injEq] at hpre
    have hle := congrArg List.length heq
    simp only [List.length_append] at hle
    rw [hpre]
    omega
  have hopen := openBinary_of_trailer
    (out ++ offsets.flatMap (beBytes offsetSize)) offsetSize refSize
    state.objects.length topSlot out.length
    (by rw [List.length_append]; omega)
    (by rw [List.take_append_of_le_length houtLength, houtHeader])
    hoffsetPos (by omega) hrefPos (by omega) (by omega) hcountSmall (by omega)
    houtSmall (by rw [List.length_append, htable])
  rw [← hcount, table_entries hoffsetLe hoffsets, hcount, ← hbytes] at hopen
  rw [htop]
  refine ⟨_, hopen, rfl, hcount, hrefPos, hrefWidth, hcountSmall, ?_⟩
  intro slot pointer hpointer
  obtain ⟨pre, post, hpre, heq⟩ := hslots slot pointer hpointer
  refine ⟨pre, post ++ offsets.flatMap (beBytes offsetSize) ++
    trailer offsetSize refSize state.objects.length topSlot out.length, hpre, ?_⟩
  rw [hbytes]
  nth_rewrite 1 [heq]
  simp only [List.append_assoc]

end Ioscpp.Protocol.Plist
