import Ioscpp.Protocol.BinaryPlistDecode

/-!
# The cached decoder unfolds

`parseBinary` follows references through a cache and active marks; this file
shows that it does what `unfoldBinary` does, that neither reads outside its
input nor runs out of fuel, and that a file whose top object reaches a cycle is
refused.

## Main results

- `decode_eq_visit`: the decoder is the cached visit of its file's graph.
- `parseBinary_eq_unfold`: the cached decoder returns what unfolding returns.
- `parseBinary_refines_unfold`: every parse ends inside its input, and refuses a
  cycle.
-/

namespace Ioscpp.Protocol.Plist

open Ioscpp.Support
open Ioscpp.Support.Reading
open Relation

/-! ## Reading one object -/

/-- The references a head announces are there. -/
def Head.Fits (refSize : Nat) : Head → Cursor → Prop
  | .leaf _, _ => True
  | .array length, reader =>
      reader.offset + length * refSize ≤ reader.bytes.length
  | .dictionary length, reader =>
      reader.offset + length * (2 * refSize) ≤ reader.bytes.length

theorem safe_readCount (info : UInt8) : Safe (readCount info) := by
  rw [readCount]
  split
  · exact .pure fun _ => trivial
  · exact (safe_wordBe _ _).andThen fun _ => safe_wordBe _ _

theorem ensures_readLength {count : Reading Error Nat} (hcount : Safe count)
    {entrySize : Nat} (tooLong : Error) :
    Ensures (fun length reader =>
      reader.offset + length * entrySize ≤ reader.bytes.length)
      (readLength count entrySize tooLong) := by
  refine hcount.bind fun length reader hinside _ => ?_
  change Outcome _ _ ((if (reader.bytes.length - reader.offset) / entrySize <
    length then fail tooLong else pure length : Reading Error Nat) reader)
  split
  · exact .inr ⟨_, rfl⟩
  · rename_i hfits
    refine .inl ⟨length, reader, rfl, rfl, hinside, ?_⟩
    have hle := Nat.mul_le_of_le_div _ _ _ (Nat.not_lt.mp hfits)
    unfold Cursor.Inside at hinside
    omega

theorem ensures_readKind (refSize : Nat) (kind info : UInt8) :
    Ensures (Head.Fits refSize) (readKind refSize kind info) := by
  refine .ite (.pure fun _ => trivial) ?_
  -- an integer, a real, a date
  refine .ite ((safe_wordBe _ _).andThen fun _ => .pure fun _ => trivial) ?_
  refine .ite ((safe_wordBe _ _).andThen fun _ => .pure fun _ => trivial) ?_
  refine .ite ((safe_wordBe _ _).andThen fun _ => .pure fun _ => trivial) ?_
  -- data and the two forms of strings
  refine .ite ((safe_readCount _).andThen fun _ =>
    (safe_take _ _).andThen fun _ => .pure fun _ => trivial) ?_
  refine .ite ((safe_readCount _).andThen fun _ =>
    (safe_take _ _).andThen fun _ => .pure fun _ => trivial) ?_
  refine .ite ((ensures_readLength (safe_readCount _) _).andThen fun _ =>
    (safe_take _ _).andThen fun _ => .pure fun _ => trivial) ?_
  -- a uid
  refine .ite ((safe_wordBe _ _).andThen fun _ => .pure fun _ => trivial) ?_
  -- the containers
  refine .ite ((ensures_readLength (safe_readCount _) _).bind
    fun _ reader hinside hfits => .inl ⟨_, reader, rfl, rfl, hinside, hfits⟩) ?_
  refine .ite ((ensures_readLength (safe_readCount _) _).bind
    fun _ reader hinside hfits => .inl ⟨_, reader, rfl, rfl, hinside, hfits⟩) ?_
  exact ensures_fail _

/-- An object is read inside its file from any offset, also one beyond the
end. -/
theorem outcome_readHead (refSize : Nat) (bytes : Bytes) (offset : Nat) :
    Outcome (Head.Fits refSize) bytes (readHead refSize ⟨bytes, offset⟩) := by
  by_cases hinside : offset ≤ bytes.length
  · refine ((safe_wordBe _ _).andThen fun _ => ?_) ⟨bytes, offset⟩ hinside
    refine .ite (.pure fun _ => trivial) ?_
    refine .ite (.pure fun _ => trivial) ?_
    exact .ite (.pure fun _ => trivial) (ensures_readKind _ _ _)
  · have hhas : (Cursor.mk bytes offset).has 1 = false := by
      simp only [Cursor.has, decide_eq_false_iff_not]
      omega
    exact .inr ⟨offsetOutOfRange,
      by simp [readHead, readMarked, wordBe, hhas, bind_apply]⟩

/-- References that are there are read. -/
theorem readRefs_of_le {refSize count : Nat} (reader : Cursor)
    (h : reader.offset + count * refSize ≤ reader.bytes.length) :
    ∃ references, references.length = count ∧ readRefs refSize count reader =
      .ok (references,
        { reader with offset := reader.offset + count * refSize }) := by
  induction count generalizing reader with
  | zero => exact ⟨[], rfl, by simp [readRefs]⟩
  | succ count ih =>
      rw [Nat.succ_mul] at h
      obtain ⟨rest, hlength, hrest⟩ :=
        ih { reader with offset := reader.offset + refSize }
          (by simp only; omega)
      have hfirst : wordBe truncated refSize reader = _ :=
        wordBe_of_le reader (by omega)
      refine ⟨beValue ((reader.bytes.drop reader.offset).take refSize) %
        2 ^ 64 :: rest, by rw [List.length_cons, hlength], ?_⟩
      rw [readRefs, bind_apply, readUint, hfirst, ok_bind, bind_apply, hrest,
        ok_bind, pure_apply, Nat.succ_mul]
      simp only [Nat.add_assoc, Nat.add_comm refSize]

/-- So are the two columns of references of a dictionary. -/
theorem readRefs_entries {refSize count : Nat} {reader : Cursor}
    (h : reader.offset + count * (2 * refSize) ≤ reader.bytes.length) :
    ∃ keys values middle last, keys.length = count ∧
      readRefs refSize count reader = .ok (keys, middle) ∧
      readRefs refSize count middle = .ok (values, last) := by
  have hdouble : count * (2 * refSize) = count * refSize + count * refSize := by
    ring
  obtain ⟨keys, hlength, hkeys⟩ :=
    readRefs_of_le reader
      (show reader.offset + count * refSize ≤ reader.bytes.length by omega)
  obtain ⟨values, -, hvalues⟩ :=
    readRefs_of_le { reader with offset := reader.offset + count * refSize }
      (show reader.offset + count * refSize + count * refSize ≤
        reader.bytes.length by omega)
  exact ⟨keys, values, _, _, hlength, hkeys, hvalues⟩

/-! ## Following the references -/

section Loops

variable (decoder : Decoder) (decode : Nat → Action Error (Memo Plist) Plist)

private theorem lift_ok_bind {α β : Type} (a : α)
    (f : α → Action Error (Memo Plist) β) :
    Action.lift (.ok a) >>= f = f a := rfl

/-- The loop over an array decodes its references in order. -/
theorem decodeItems_eq {count : Nat} {reader last : Cursor}
    {references : List Nat} (items : List Plist)
    (h : readRefs decoder.refSize count reader = .ok (references, last)) :
    decoder.decodeItems decode count reader items =
      (items ++ ·) <$> references.mapM decode := by
  induction count generalizing reader references items with
  | zero =>
      cases h
      simp [Decoder.decodeItems]
  | succ count ih =>
      rw [readRefs, bind_apply] at h
      obtain ⟨⟨reference, middle⟩, hfirst, h⟩ := bind_eq_ok.mp h
      rw [bind_apply] at h
      obtain ⟨⟨rest, last'⟩, hrest, h⟩ := bind_eq_ok.mp h
      cases h
      rw [Decoder.decodeItems, hfirst, lift_ok_bind, List.mapM_cons]
      simp only [ih _ hrest, ← bind_pure_comp, bind_assoc, pure_bind, List.append_assoc,
        List.singleton_append]

/-- The loop over a dictionary decodes keys and values in turn. -/
theorem decodeEntries_eq {keys values : List Nat} {reader last : Cursor}
    (entries : List (Bytes × Plist))
    (h : readRefs decoder.refSize keys.length reader = .ok (values, last)) :
    decoder.decodeEntries decode keys reader entries =
      (fun objects => (pairUp objects).foldl
        (fun map entry => SortedMap.emplace entry.1 entry.2 map) entries) <$>
        (interleave keys values).mapM decode := by
  induction keys generalizing reader values entries with
  | nil =>
      cases h
      simp [Decoder.decodeEntries, interleave, pairUp]
  | cons key keys ih =>
      rw [List.length_cons, readRefs, bind_apply] at h
      obtain ⟨⟨reference, middle⟩, hfirst, h⟩ := bind_eq_ok.mp h
      rw [bind_apply] at h
      obtain ⟨⟨rest, last'⟩, hrest, h⟩ := bind_eq_ok.mp h
      cases h
      have hchildren : interleave (key :: keys) (reference :: rest) =
          key :: reference :: interleave keys rest := rfl
      rw [Decoder.decodeEntries, hchildren, List.mapM_cons]
      simp only [hfirst, lift_ok_bind, ih _ hrest, List.mapM_cons,
        ← bind_pure_comp, bind_assoc, pure_bind, pairUp, List.foldl_cons]

/-- Reading one object decodes the children of its shape. -/
theorem decodeUncached_eq_expand (index : Nat) :
    decoder.decodeUncached decode index =
      (decoder.graph readHead).expand decode index := by
  rw [Decoder.decodeUncached, ObjectGraph.expand]
  change _ = Action.lift (decoder.shape readHead index) >>= _
  rw [Decoder.shape]
  cases decoder.offsetAt index with
  | error e => rfl
  | ok position =>
      rw [lift_ok_bind, ok_bind]
      rcases outcome_readHead decoder.refSize decoder.bytes position with
        ⟨head, reader, hhead, hbytes, hinside, hfits⟩ | ⟨e, he⟩
      · rw [hhead, lift_ok_bind, ok_bind]
        cases head with
        | leaf value => rfl
        | array length =>
            obtain ⟨references, -, hread⟩ := readRefs_of_le _ hfits
            simp only [Head.shape, hread, ok_bind, decodeItems_eq decoder decode _ hread,
              lift_ok_bind, ← bind_pure_comp, bind_assoc, pure_bind,
              List.nil_append]
        | dictionary length =>
            obtain ⟨keys, values, middle, last, hlength, hkeys, hvalues⟩ :=
              readRefs_entries hfits
            rw [← hlength] at hvalues
            have hentries := decodeEntries_eq decoder decode [] hvalues
            rw [hlength] at hvalues
            simp only [Head.shape, hkeys, hvalues, ok_bind, hentries, lift_ok_bind,
              ← bind_pure_comp, bind_assoc, pure_bind]
            rfl
      · rw [he]
        rfl

/-- The decoder is the cached visit of its file's graph. -/
theorem decode_eq_visit (fuel index : Nat) :
    decoder.decode fuel index =
      (decoder.graph readHead).visit fuel index := by
  induction fuel generalizing index with
  | zero => rfl
  | succ fuel ih =>
      have hdecode : decoder.decode fuel =
          (decoder.graph readHead).visit fuel := funext ih
      rw [Decoder.decode, ObjectGraph.visit, hdecode]
      simp only [decodeUncached_eq_expand decoder _]
      refine bind_congr fun memo => ?_
      refine ite_congr rfl (fun _ => rfl) fun _ => ?_
      cases memo.cache index with
      | some value => rfl
      | none =>
          refine ite_congr rfl (fun _ => rfl) fun _ => ?_
          refine bind_congr fun _ => bind_congr fun result =>
            bind_congr fun _ => ?_
          cases result with
          | ok value => rfl
          | error e => rfl

end Loops

/-! ## The file -/

/-- An offset table that is there is read. -/
theorem readOffsets_of_le {bytes : Bytes} {tableOffset offsetSize count : Nat}
    (h : tableOffset + count * offsetSize ≤ bytes.length) :
    readOffsets bytes tableOffset offsetSize count =
      .ok ((List.range count).map fun i =>
        beValue ((bytes.drop (tableOffset + i * offsetSize)).take offsetSize) %
          2 ^ 64) := by
  refine ObjectGraph.mapM_of_forall_ok fun i hi => readBe_eq ?_
  have hle : (i + 1) * offsetSize ≤ count * offsetSize :=
    Nat.mul_le_mul_right _ (List.mem_range.mp hi)
  rw [Nat.succ_mul] at hle
  omega

/-- Opening a file ends with a decoder or with an error of its own. -/
theorem openBinary_outcome (bytes : Bytes) :
    (∃ file, openBinary bytes = .ok file) ∨
      ∃ e, openBinary bytes = .error (.error e) := by
  rw [openBinary]
  split
  · exact .inr ⟨_, rfl⟩
  rename_i hheader
  have hlength : (bytes.drop (bytes.length - kTrailerSize)).length = 32 := by
    rw [List.length_drop]
    simp only [kTrailerSize] at hheader ⊢
    omega
  simp only [kTrailerOffsetSizeIndex, kTrailerRefSizeIndex]
  rw [byteAt_of_lt (by omega), ok_bind, byteAt_of_lt (by omega), ok_bind,
    readBe_eq (by omega), ok_bind, readBe_eq (by omega), ok_bind,
    readBe_eq (by omega), ok_bind]
  split
  · exact .inr ⟨_, rfl⟩
  rename_i hfits
  have hle := Nat.mul_le_of_le_div _ _ _
    (Nat.not_lt.mp fun h => hfits (.inr (.inr (.inr (.inr h)))))
  have htable := Nat.not_lt.mp fun h => hfits (.inr (.inr (.inr (.inl h))))
  rw [readOffsets_of_le (by omega), ok_bind]
  exact .inl ⟨_, rfl⟩

/-- Reading an object of the file has a value or an error of its own. -/
theorem shape_outcome (decoder : Decoder) {index : Nat}
    (hindex : index < decoder.offsets.length) {e : Fault Error}
    (h : decoder.shape readHead index = .error e) : ∃ e', e = .error e' := by
  rw [Decoder.shape, Decoder.offsetAt, List.getElem?_eq_getElem hindex,
    ok_bind] at h
  rcases outcome_readHead decoder.refSize decoder.bytes
    decoder.offsets[index] with
    ⟨head, reader, hhead, hbytes, hinside, hfits⟩ | ⟨e', he'⟩
  · rw [hhead, ok_bind] at h
    cases head with
    | leaf value => cases h
    | array length =>
        obtain ⟨references, -, hread⟩ := readRefs_of_le _ hfits
        simp only [Head.shape, hread] at h
        cases h
    | dictionary length =>
        obtain ⟨keys, values, middle, last, -, hkeys, hvalues⟩ :=
          readRefs_entries hfits
        simp only [Head.shape, hkeys, hvalues, ok_bind] at h
        cases h
  · rw [he'] at h
    cases h
    exact ⟨e', rfl⟩

/-- The cached decoder returns what unfolding returns: the cache saves work, and the
marks stop at a cycle, where unfolding has no value either. -/
theorem parseBinary_eq_unfold (bytes : Bytes) :
    parseBinary bytes = unfoldBinary readHead bytes := by
  rw [parseBinary, unfoldBinary]
  refine bind_congr fun file => ?_
  obtain ⟨decoder, topObject⟩ := file
  simp only [decode_eq_visit]
  exact (decoder.graph readHead).visit_eq_unfold topObject

/-- Unfolding ends with a value or with an error of its own. -/
theorem unfoldBinary_outcome (bytes : Bytes) :
    (∃ value, unfoldBinary readHead bytes = .ok value) ∨
      ∃ e, unfoldBinary readHead bytes = .error (.error e) := by
  rw [unfoldBinary]
  rcases openBinary_outcome bytes with ⟨⟨decoder, topObject⟩, hopen⟩ | ⟨e, he⟩
  · rw [hopen, ok_bind]
    cases h : (decoder.graph readHead).unfold (decoder.offsets.length + 1) []
        topObject with
    | ok value => exact .inl ⟨value, h⟩
    | error e =>
        have hfault := ObjectGraph.fault_of_unfold
          (P := fun e => ∃ e', e = Fault.error e') ⟨_, rfl⟩ ⟨_, rfl⟩
          (fun i hi _ => shape_outcome decoder hi)
          (.nil (decoder.graph readHead) topObject) le_rfl h
        obtain ⟨e', rfl⟩ := hfault
        exact .inr ⟨e', h⟩
  · rw [he]
    exact .inr ⟨e, rfl⟩

/-- For every input the parse ends, inside the input, with the outcome of the
unfolding; and it ends with an error whenever the objects that the top object
reaches contain a cycle. -/
theorem parseBinary_refines_unfold (bytes : Bytes) :
    parseBinary bytes = unfoldBinary readHead bytes ∧
      parseBinary bytes ≠ .error .outOfBounds ∧
      parseBinary bytes ≠ .error .outOfFuel ∧
      ∀ decoder topObject object, openBinary bytes = .ok (decoder, topObject) →
        ReflTransGen (decoder.graph readHead).Child topObject object →
        TransGen (decoder.graph readHead).Child object object →
        ∃ e, parseBinary bytes = .error (.error e) := by
  have hunfold := parseBinary_eq_unfold bytes
  have houtcome := unfoldBinary_outcome bytes
  refine ⟨hunfold, ?_, ?_, ?_⟩
  · rw [hunfold]
    rcases houtcome with ⟨value, h⟩ | ⟨e, h⟩ <;> simp [h]
  · rw [hunfold]
    rcases houtcome with ⟨value, h⟩ | ⟨e, h⟩ <;> simp [h]
  · intro decoder topObject object hopen hreach hcycle
    rw [hunfold]
    rcases houtcome with ⟨value, h⟩ | h
    · obtain ⟨e, he⟩ := ObjectGraph.unfold_of_cycle hreach hcycle
      rw [unfoldBinary, hopen, ok_bind] at h
      exact absurd (he.symm.trans h) (by simp)
    · exact h

/-- A file of one array whose item is the array itself. -/
def selfReference : Bytes :=
  kHeader ++ [0xa1, 0] ++ [8] ++ List.replicate 6 0 ++ [1, 1] ++
    beBytes 8 1 ++ beBytes 8 0 ++ beBytes 8 10

theorem parseBinary_selfReference :
    ∃ e, parseBinary selfReference = .error (.error e) :=
  (parseBinary_refines_unfold selfReference).2.2.2
    ⟨selfReference, [8], 1⟩ 0 0 rfl .refl
    (.single ⟨by decide, ⟨[0], .array⟩, rfl, by decide⟩)

end Ioscpp.Protocol.Plist
