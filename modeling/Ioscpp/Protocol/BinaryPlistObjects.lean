import Ioscpp.Protocol.BinaryPlistGraph

/-!
# The encoder's objects, byte by byte

An object is a marker, made of a kind and a low nibble, and what follows it.
The rules here take an object apart for any reader that switches on the kind
(`readMarked`): a leaf, a counted sequence of bytes, a container.

## Main results

- `reads_readMarked`: an object whose body is read after its marker is read.
- `readMarked_container`: the head of a container is read back when its references
  follow.
- `reads_scalar`, `reads_counted`, `reads_single`: the three forms that leaves are
  written in.
-/

namespace Ioscpp.Protocol.Plist

open Ioscpp.Support
open Ioscpp.Support.Reading

/-! ## Integers -/

/-- The size exponent `appendInt` chooses. -/
def intExponent (value : Int64) : Nat :=
  if 0 ≤ value then
    if value ≤ 0xff then 0
    else if value ≤ 0xffff then 1
    else if value ≤ 0xffffffff then 2
    else 3
  else if -128 ≤ value then 0
  else if -32768 ≤ value then 1
  else if -2147483648 ≤ value then 2
  else 3

theorem intExponent_le (value : Int64) : intExponent value ≤ 3 := by
  rw [intExponent]
  split_ifs <;> omega

theorem beBytes_mod (width value : Nat) :
    beBytes width (value % 256 ^ width) = beBytes width value := by
  induction width generalizing value with
  | zero => rfl
  | succ width ih =>
      have hpow : (256 : Nat) ^ width = 2 ^ (8 * width) := by
        rw [pow_mul]
        norm_num
      rw [beBytes, beBytes, ← ih (value % 256 ^ (width + 1)), ← ih value,
        Nat.mod_mod_of_dvd _ (pow_dvd_pow 256 (Nat.le_succ width))]
      congr 1
      rw [Nat.shiftRight_eq_div_pow, Nat.shiftRight_eq_div_pow, ← hpow,
        pow_succ, Nat.mod_mul_right_div_self]
      refine UInt8.toNat.inj ?_
      simp

/-- An integer object is its marker and the low bytes of its word. -/
theorem appendInt_eq_cons (value : Int64) :
    appendInt [] value = (kMarkerInt ||| UInt8.ofNat (intExponent value)) ::
      beBytes (2 ^ intExponent value) value.toUInt64.toNat := by
  have h1 := beBytes_mod 1 value.toUInt64.toNat
  have h2 := beBytes_mod 2 value.toUInt64.toNat
  have h4 := beBytes_mod 4 value.toUInt64.toNat
  norm_num only at h1 h2 h4
  simp only [appendInt, intExponent, putBe_eq]
  split_ifs <;> simp [h1, h2, h4, kMarkerInt]

/-- The integer a word stands for. -/
theorem toInt_eq (value : Int64) :
    value.toInt = if 2 * value.toUInt64.toNat < 2 ^ 64 then
      (value.toUInt64.toNat : Int) else value.toUInt64.toNat - 2 ^ 64 :=
  BitVec.toInt_eq_toNat_cond _

theorem intExponent_eq (value : Int64) :
    intExponent value =
      if 0 ≤ value.toInt then
        if value.toInt ≤ 255 then 0
        else if value.toInt ≤ 65535 then 1
        else if value.toInt ≤ 4294967295 then 2
        else 3
      else if -128 ≤ value.toInt then 0
      else if -32768 ≤ value.toInt then 1
      else if -2147483648 ≤ value.toInt then 2
      else 3 := by
  simp only [intExponent, Int64.le_iff_toInt_le]
  rfl

/-- A non-negative integer fits the bytes it is given. -/
theorem toNat_lt_of_nonneg {value : Int64} (h : 0 ≤ value.toInt) :
    value.toUInt64.toNat < 256 ^ 2 ^ intExponent value := by
  have hword := toInt_eq value
  have hlt := value.toUInt64.toNat_lt
  rw [intExponent_eq, if_pos h]
  split_ifs at hword ⊢ <;> norm_num <;> omega

/-- The integer of a word taken as 64 bits. -/
theorem toInt_ofNat (raw : Nat) :
    (UInt64.ofNat raw).toInt64.toInt = if 2 * (raw % 2 ^ 64) < 2 ^ 64 then
      ((raw % 2 ^ 64 : Nat) : Int) else (raw % 2 ^ 64 : Nat) - 2 ^ 64 :=
  BitVec.toInt_eq_toNat_cond _

/-! ## Markers -/

/-- The kinds whose markers have a low nibble of their own. -/
def kinds : List UInt8 :=
  [kMarkerInt, kMarkerReal, kMarkerDate, kMarkerData, kMarkerAscii,
    kMarkerUtf16, kMarkerUid, kMarkerArray, kMarkerDictionary]

/-- The nibbles of a marker made of a kind and a low nibble. -/
theorem marker_nibbles : ∀ kind ∈ kinds, ∀ info < 16,
    (kind ||| UInt8.ofNat info) &&& 0xf0 = kind ∧
      (kind ||| UInt8.ofNat info) &&& 0x0f = UInt8.ofNat info ∧
      kind ||| UInt8.ofNat info ≠ kMarkerFalse ∧
      kind ||| UInt8.ofNat info ≠ kMarkerTrue ∧
      kind ||| UInt8.ofNat info ≠ kMarkerNull := by
  decide +kernel

theorem reads_byte (truncated : Error) (byte : UInt8) :
    Reads (fun _ => True) (wordBe truncated 1) [byte] byte.toNat := by
  have hbyte : [byte] = beBytes 1 byte.toNat := by
    simp [beBytes]
  rw [hbyte]
  exact reads_wordBe byte.toNat_lt (byte.toNat_lt.trans (by decide))

section Marked

variable (read : UInt8 → UInt8 → Reading Error Head) {kind : UInt8}
  {info : Nat}

/-- After a marker made of a kind and a low nibble, a reader goes on by them. -/
theorem readMarked_apply (hkind : kind ∈ kinds) (hinfo : info < 16)
    (pre post : Bytes) :
    readMarked read ⟨pre ++ [kind ||| UInt8.ofNat info] ++ post, pre.length⟩ =
      read kind (UInt8.ofNat info)
        ⟨pre ++ [kind ||| UInt8.ofNat info] ++ post, pre.length + 1⟩ := by
  obtain ⟨hhigh, hlow, hfalse, htrue, hnull⟩ :=
    marker_nibbles kind hkind info hinfo
  have hmarker := reads_byte offsetOutOfRange
    (kind ||| UInt8.ofNat info) pre post trivial
  rw [readMarked, bind_apply, hmarker, ok_bind]
  simp only [UInt8.ofNat_toNat]
  rw [if_neg hfalse, if_neg htrue, if_neg hnull, hhigh, hlow]
  rfl

/-- An object whose body is read after its marker is read, for every kind of marker that
carries a low nibble. -/
theorem reads_readMarked (hkind : kind ∈ kinds) (hinfo : info < 16)
    {rest : Bytes} {head : Head}
    (h : Reads (fun _ => True) (read kind (UInt8.ofNat info)) rest head) :
    Reads (fun _ => True) (readMarked read)
      ((kind ||| UInt8.ofNat info) :: rest) head := by
  intro pre post _
  have hbytes : pre ++ ((kind ||| UInt8.ofNat info) :: rest) ++ post =
      pre ++ [kind ||| UInt8.ofNat info] ++ (rest ++ post) := by
    simp
  have hrest := h (pre ++ [kind ||| UInt8.ofNat info]) post trivial
  rw [List.append_assoc _ rest post, List.length_append] at hrest
  rw [hbytes, readMarked_apply read hkind hinfo, List.length_cons]
  refine hrest.trans ?_
  simp only [List.length_cons, List.length_nil]
  congr 3
  omega

end Marked

/-- The leaf made of what a step reads. -/
theorem reads_leaf {α : Type} {p : Reading Error α} {enc : Bytes} {a : α}
    (f : α → Plist) (h : Reads (fun _ => True) p enc a) :
    Reads (fun _ => True) (p >>= fun a => pure (Head.leaf (f a))) enc
      (.leaf (f a)) := by
  rw [← List.append_nil enc]
  exact Reads.bind (A := fun _ => True) (B := fun _ => True) h (.pure _)
    fun _ _ => trivial

theorem byteCount_ofNat {exponent : Nat} (h : exponent < 16) :
    byteCount (UInt8.ofNat exponent) = 2 ^ exponent := by
  rw [byteCount, UInt8.toNat_ofNat', Nat.one_shiftLeft, Nat.mod_eq_of_lt (by omega)]

/-- A word of a power of two of bytes, at most eight, is read back. -/
theorem reads_readUint {exponent value : Nat} (hexp : exponent ≤ 3)
    (hvalue : value < 2 ^ 64) :
    Reads (fun _ => True) (readUint (byteCount (UInt8.ofNat exponent)))
      (beBytes (2 ^ exponent) value) (value % 256 ^ 2 ^ exponent) := by
  rw [byteCount_ofNat (by omega), ← beBytes_mod]
  exact reads_wordBe (Nat.mod_lt _ (by positivity))
    ((Nat.mod_le _ _).trans_lt hvalue)

/-! ## Counts -/

/-- A count is its low nibble, or an integer object after the marker. -/
theorem appendCount_form (marker : UInt8) {count : Nat} (h : count < 2 ^ 63) :
    count < 15 ∧ appendCount [] marker count = [marker ||| UInt8.ofNat count] ∨
      15 ≤ count ∧ ∃ exponent ≤ 3, count < 256 ^ 2 ^ exponent ∧
        appendCount [] marker count = (marker ||| UInt8.ofNat 15) ::
          (kMarkerInt ||| UInt8.ofNat exponent) ::
            beBytes (2 ^ exponent) count := by
  have hiff : count < kMarkerCountFollows.toNat ↔ count < 15 := Iff.rfl
  rw [appendCount]
  split
  · rename_i hsmall
    exact .inl ⟨hsmall, rfl⟩
  · rename_i hlarge
    set value := (UInt64.ofNat count).toInt64 with hvalue
    have hword : value.toUInt64.toNat = count := by
      rw [hvalue, UInt64.toUInt64_toInt64, UInt64.toNat_ofNat']
      exact Nat.mod_eq_of_lt (by omega)
    have hnonneg : 0 ≤ value.toInt := by
      rw [toInt_eq, hword]
      split <;> omega
    have hfits := toNat_lt_of_nonneg hnonneg
    rw [hword] at hfits
    refine .inr ⟨by omega, intExponent value, intExponent_le value, hfits, ?_⟩
    rw [appendInt_eq, appendInt_eq_cons, hword]
    rfl

/-- A reader of counts, which are read back from what follows their marker. -/
def ReadsCounts (count : UInt8 → Reading Error Nat) : Prop :=
  ∀ (marker : UInt8) (length : Nat), length < 2 ^ 63 →
    ∃ (info : Nat) (rest : Bytes), info < 16 ∧
      appendCount [] marker length = (marker ||| UInt8.ofNat info) :: rest ∧
      Reads (fun _ => True) (count (UInt8.ofNat info)) rest length

section Counted

variable {read : UInt8 → UInt8 → Reading Error Head} {kind : UInt8}
  {count : UInt8 → Reading Error Nat}

/-- A length is read back when its entries follow. -/
private theorem readLength_of_le {p : Reading Error Nat} {rest : Bytes}
    {entrySize length : Nat} (tooLong : Error)
    (h : Reads (fun _ => True) p rest length) (pre post : Bytes)
    (hpos : 0 < entrySize) (hpost : length * entrySize ≤ post.length) :
    readLength p entrySize tooLong ⟨pre ++ rest ++ post, pre.length⟩ =
      .ok (length, ⟨pre ++ rest ++ post, pre.length + rest.length⟩) := by
  have hfits : ¬ ((pre ++ rest ++ post).length - (pre.length + rest.length)) /
      entrySize < length := by
    rw [Nat.not_lt, Nat.le_div_iff_mul_le hpos]
    simp only [List.length_append]
    omega
  rw [readLength, bind_apply, h pre post trivial, ok_bind]
  change (if ((pre ++ rest ++ post).length - (pre.length + rest.length)) /
      entrySize < length then fail tooLong else pure length :
    Reading Error Nat) _ = _
  rw [if_neg hfits, pure_apply]

/-- A container's head is read back when its references follow. The reader checks that
they are there before it makes room for them. -/
theorem readMarked_container (hcount : ReadsCounts count) (hkind : kind ∈ kinds)
    {entrySize length : Nat} {tooLong : Error} {f : Nat → Head}
    (hread : ∀ info, read kind info =
      (readLength (count info) entrySize tooLong >>= fun n => pure (f n)))
    {pre post : Bytes} (hpos : 0 < entrySize)
    (hfits : FitsVector (pre ++ appendCount [] kind length ++ post))
    (hpost : length * entrySize ≤ post.length) :
    readMarked read ⟨pre ++ appendCount [] kind length ++ post, pre.length⟩ =
      .ok (f length, ⟨pre ++ appendCount [] kind length ++ post,
        pre.length + (appendCount [] kind length).length⟩) := by
  have hlength : length < 2 ^ 63 := by
    unfold FitsVector at hfits
    simp only [List.length_append] at hfits
    have := Nat.le_mul_of_pos_right length hpos
    omega
  obtain ⟨info, rest, hinfo, hform, hrest⟩ := hcount kind length hlength
  have hbody := readLength_of_le tooLong hrest
    (pre ++ [kind ||| UInt8.ofNat info]) post hpos hpost
  have hbytes : pre ++ appendCount [] kind length ++ post =
      pre ++ [kind ||| UInt8.ofNat info] ++ (rest ++ post) := by
    rw [hform]
    simp
  have hoffset : pre.length + 1 + rest.length =
      pre.length + (appendCount [] kind length).length := by
    rw [hform, List.length_cons]
    omega
  rw [List.append_assoc _ rest post, List.length_append] at hbody
  simp only [List.length_cons, List.length_nil, Nat.zero_add] at hbody
  rw [← hoffset, hbytes, readMarked_apply read hkind hinfo, hread, bind_apply, hbody,
    ok_bind, pure_apply]

end Counted

/-! ## Leaves -/

section Leaves

variable (read : UInt8 → UInt8 → Reading Error Head) {kind : UInt8}
  {count : UInt8 → Reading Error Nat}

/-- A word after its marker is read as the leaf made of it. -/
theorem reads_scalar (hkind : kind ∈ kinds) {exponent value : Nat}
    (hexp : exponent ≤ 3) (hvalue : value < 2 ^ 64) {f : Nat → Plist}
    (hread : read kind (UInt8.ofNat exponent) =
      (readUint (byteCount (UInt8.ofNat exponent)) >>= fun raw =>
        pure (Head.leaf (f raw)))) :
    Reads (fun _ => True) (readMarked read)
      ((kind ||| UInt8.ofNat exponent) :: beBytes (2 ^ exponent) value)
      (.leaf (f (value % 256 ^ 2 ^ exponent))) := by
  refine reads_readMarked read hkind (by omega) ?_
  rw [hread]
  exact reads_leaf f (reads_readUint hexp hvalue)

/-- A word of eight bytes is read as the leaf made of it. -/
theorem reads_scalar_eight (hkind : kind ∈ kinds) (value : UInt64)
    {f : Nat → Plist}
    (hread : read kind 3 = (readUint 8 >>= fun raw => pure (Head.leaf (f raw)))) :
    Reads (fun _ => True) (readMarked read)
      ((kind ||| 3) :: beBytes 8 value.toNat) (.leaf (f value.toNat)) := by
  have h := reads_scalar read hkind (show 3 ≤ 3 from le_rfl) value.toNat_lt
    hread
  rw [Nat.mod_eq_of_lt (by simpa using value.toNat_lt)] at h
  exact h

/-- The form of an encoded uid. -/
theorem leafBytes_uid (index : UInt64) :
    ∃ exponent ≤ 3, index.toNat < 256 ^ 2 ^ exponent ∧
      leafBytes (.uid index) = (kMarkerUid ||| UInt8.ofNat exponent) ::
        beBytes (2 ^ exponent) index.toNat := by
  have hlt := index.toNat_lt
  change ∃ exponent ≤ 3, _ ∧ appendUid [] index.toNat = _
  rw [appendUid]
  split_ifs with h1 h2 h4
  · exact ⟨0, by decide, by norm_num; omega, rfl⟩
  · exact ⟨1, by decide, by norm_num; omega, rfl⟩
  · exact ⟨2, by decide, by norm_num; omega, rfl⟩
  · exact ⟨3, by decide, by norm_num; omega, rfl⟩

/-- A uid is read back. -/
theorem reads_uid
    (hread : ∀ info, read kMarkerUid info =
      (readUint (byteCount info) >>= fun raw =>
        pure (Head.leaf (.uid (UInt64.ofNat raw))))) (index : UInt64) :
    Reads (fun _ => True) (readMarked read) (leafBytes (.uid index))
      (.leaf (.uid index)) := by
  obtain ⟨exponent, hexp, hfits, hform⟩ := leafBytes_uid index
  have h := reads_scalar read (by decide) hexp index.toNat_lt (hread _)
  rw [hform]
  rw [Nat.mod_eq_of_lt hfits, UInt64.ofNat_toNat] at h
  exact h

/-- After a count and as many bytes, a reader goes on with them. -/
theorem readMarked_counted (hcount : ReadsCounts count) (hkind : kind ∈ kinds)
    {g : Bytes → Reading Error Head}
    (hread : ∀ info, read kind info =
      (count info >>= fun length => take truncated length >>= g))
    {bytes : Bytes} (h : bytes.length < 2 ^ 63) (pre post : Bytes) :
    readMarked read
        ⟨pre ++ (appendCount [] kind bytes.length ++ bytes) ++ post, pre.length⟩ =
      g bytes ⟨pre ++ (appendCount [] kind bytes.length ++ bytes) ++ post,
        pre.length + (appendCount [] kind bytes.length ++ bytes).length⟩ := by
  obtain ⟨info, rest, hinfo, hform, hrest⟩ := hcount kind _ h
  have hcounted := hrest (pre ++ [kind ||| UInt8.ofNat info]) (bytes ++ post)
    trivial
  have htaken := reads_take (A := fun _ => True) truncated bytes
    (pre ++ [kind ||| UInt8.ofNat info] ++ rest) post trivial
  have hbytes : pre ++ (appendCount [] kind bytes.length ++ bytes) ++ post =
      pre ++ [kind ||| UInt8.ofNat info] ++ (rest ++ bytes ++ post) := by
    rw [hform]
    simp
  simp only [List.append_assoc, List.length_append] at hcounted htaken hbytes ⊢
  simp only [List.length_cons, List.length_nil, Nat.zero_add] at hcounted htaken
  have happly := readMarked_apply read hkind hinfo pre
    (rest ++ (bytes ++ post))
  simp only [List.append_assoc] at happly
  rw [hbytes, happly, hread, bind_apply, hcounted, ok_bind, bind_apply,
    Nat.add_assoc, htaken, ok_bind]
  have hoffset : pre.length + (1 + rest.length) + bytes.length =
      pre.length + ((appendCount [] kind bytes.length).length +
        bytes.length) := by
    rw [hform, List.length_cons]
    omega
  rw [← hoffset]

/-- Counted bytes are read back. -/
theorem reads_counted (hcount : ReadsCounts count) (hkind : kind ∈ kinds)
    {f : Bytes → Plist}
    (hread : ∀ info, read kind info =
      (count info >>= fun length => take truncated length >>= fun bytes =>
        pure (Head.leaf (f bytes))))
    {bytes : Bytes} (h : bytes.length < 2 ^ 63) :
    Reads (fun _ => True) (readMarked read)
      (appendCount [] kind bytes.length ++ bytes) (.leaf (f bytes)) := by
  intro pre post _
  rw [readMarked_counted read hcount hkind hread h, pure_apply]

/-- The three markers that are matched whole. -/
theorem reads_single {marker : UInt8} {value : Plist}
    (h : ∀ reader, (if marker = kMarkerFalse then
        (pure (.leaf (.boolean false)) : Reading Error Head)
      else if marker = kMarkerTrue then pure (.leaf (.boolean true))
      else if marker = kMarkerNull then pure (.leaf .null)
      else read (marker &&& 0xf0) (marker &&& 0x0f)) reader =
        .ok (.leaf value, reader)) :
    Reads (fun _ => True) (readMarked read) [marker] (.leaf value) := by
  intro pre post _
  have hmarker := reads_byte offsetOutOfRange marker pre post
    trivial
  rw [readMarked, bind_apply, hmarker, ok_bind]
  simp only [UInt8.ofNat_toNat]
  exact h _

/-- A leaf's bytes hold its text or its data. -/
theorem length_lt_of_fitsVector {marker : UInt8} {bytes pre post : Bytes}
    (h : FitsVector (pre ++ (appendCount [] marker bytes.length ++ bytes) ++
      post)) : bytes.length < 2 ^ 63 := by
  unfold FitsVector at h
  simp only [List.length_append] at h
  omega

end Leaves

end Ioscpp.Protocol.Plist
