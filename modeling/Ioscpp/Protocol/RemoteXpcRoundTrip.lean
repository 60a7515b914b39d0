import Ioscpp.Protocol.RemoteXpc

/-!
# The RemoteXPC round trip

Every object takes a multiple of four bytes, so an object that starts aligned
ends aligned: the encoder's buffer, whichever it is, and the decoder's offset
are multiples of four whenever an object begins, and both pad by the same
amount.  A container's length and count then agree with what its entries take.

## Main results

- `encodeObject_eq`: the bytes of an object do not depend on what stands aligned
  before it.
- `Encodable.encodes`: every encodable object is read back from its bytes.
- `parse_toBytes`: so is every wrapper.
-/

namespace Ioscpp.Protocol

open Ioscpp.Support
open Ioscpp.Support.Reading

namespace Xpc

/-- The offset of an object. -/
def Aligned (offset : Nat) : Prop := offset % 4 = 0

/-! ## Padding -/

/-- The zeros after a text of a given length. -/
def padding (length : Nat) : Bytes := List.replicate ((4 - length % 4) % 4) 0

theorem pad_eq (out : Bytes) : pad out = out ++ padding out.length := rfl

theorem padding_length_lt (length : Nat) : (padding length).length < 4 := by
  rw [padding, List.length_replicate]
  omega

/-- Padding ends on a multiple of four. -/
theorem aligned_padding (length : Nat) :
    (length + (padding length).length) % 4 = 0 := by
  rw [padding, List.length_replicate]
  omega

/-- What stands aligned before a text does not change its padding. -/
theorem pad_append {out : Bytes} (h : Aligned out.length) (rest : Bytes) :
    pad (out ++ rest) = out ++ pad rest := by
  have hmod : (out ++ rest).length % 4 = rest.length % 4 := by
    unfold Aligned at h
    rw [List.length_append]
    omega
  rw [pad, pad, hmod, List.append_assoc]

theorem aligned_pad (out : Bytes) : Aligned (pad out).length := by
  rw [pad_eq, List.length_append]
  exact aligned_padding out.length

/-! ## The bytes of an object -/

theorem type_lt (value : Xpc) : value.type < 256 ^ 4 := by
  cases value <;> simp [type]

theorem encodeKey_eq {out : Bytes} (h : Aligned out.length) (key : Bytes) :
    encodeKey key out = out ++ pad (key ++ [0]) := by
  rw [encodeKey, List.append_assoc, pad_append h]

/-- The bytes of an object do not depend on what stands aligned before it, though the
encoder pads by the length of its whole buffer. -/
theorem encodeObject_eq (value : Xpc) {out : Bytes} (h : Aligned out.length) :
    encodeObject value out = out ++ value.toBytes := by
  cases value with
  | data bytes =>
      simp only [toBytes, encodeObject, appendU32, List.append_assoc,
        List.nil_append]
      exact pad_append h _
  | string text =>
      simp only [toBytes, encodeObject, appendU32, List.append_assoc,
        List.nil_append]
      exact pad_append h _
  | _ => simp [toBytes, encodeObject, appendU32, appendU64]

/-- The bytes of a key and its value. -/
def entryBytes (entry : Bytes × Xpc) : Bytes :=
  pad (entry.1 ++ [0]) ++ entry.2.toBytes

theorem encodeItems_eq {items : List Xpc}
    (h : ∀ item ∈ items, Aligned item.toBytes.length) {body : Bytes}
    (hbody : Aligned body.length) :
    encodeItems items body = body ++ items.flatMap toBytes := by
  induction items generalizing body with
  | nil => simp [encodeItems]
  | cons item rest ih =>
      have hitem := h item (by simp)
      have hnext : Aligned (body ++ item.toBytes).length := by
        unfold Aligned at hbody hitem ⊢
        rw [List.length_append]
        omega
      rw [encodeItems, encodeObject_eq item hbody,
        ih (fun item hmem => h item (List.mem_cons_of_mem _ hmem)) hnext,
        List.flatMap_cons, List.append_assoc]

theorem encodeEntries_eq {entries : List (Bytes × Xpc)}
    (h : ∀ entry ∈ entries, Aligned entry.2.toBytes.length) {body : Bytes}
    (hbody : Aligned body.length) :
    encodeEntries entries body = body ++ entries.flatMap entryBytes := by
  induction entries generalizing body with
  | nil => simp [encodeEntries]
  | cons entry rest ih =>
      obtain ⟨key, value⟩ := entry
      have hvalue : Aligned value.toBytes.length := h (key, value) (by simp)
      have hkey := aligned_pad (key ++ [0])
      have hmiddle : Aligned (body ++ pad (key ++ [0])).length := by
        unfold Aligned at hbody hkey ⊢
        rw [List.length_append]
        omega
      have hnext : Aligned (body ++ pad (key ++ [0]) ++ value.toBytes).length := by
        unfold Aligned at hmiddle hvalue ⊢
        rw [List.length_append]
        omega
      rw [encodeEntries, encodeKey_eq hbody, encodeObject_eq value hmiddle,
        ih (fun entry hmem => h entry (List.mem_cons_of_mem _ hmem)) hnext,
        List.flatMap_cons, entryBytes]
      simp only [List.append_assoc]

/-! ## Reading the pieces back -/

/-- Sequencing from an aligned offset. -/
private theorem aligned_bind {α β : Type} {p : Reading Error α}
    {f : α → Reading Error β} {xs ys : Bytes} {a : α} {b : β}
    (hp : Reads Aligned p xs a) (hf : Reads Aligned (f a) ys b)
    (hxs : Aligned xs.length) : Reads Aligned (p >>= f) (xs ++ ys) b :=
  hp.bind hf fun n hn => by
    unfold Aligned at hn hxs ⊢
    omega

private theorem reads_map {α β : Type} {A : Nat → Prop} {p : Reading Error α}
    {xs : Bytes} {a : α} (g : α → β) (hp : Reads A p xs a) :
    Reads A (p >>= fun a => pure (g a)) xs (g a) := by
  have hmap := Reads.bind (B := fun _ => True) (f := fun a => pure (g a)) hp
    (.pure (g a)) fun _ _ => trivial
  rw [List.append_nil] at hmap
  exact hmap

private theorem reads_u32 {value : Nat} (h : value < 2 ^ 32) :
    Reads Aligned readU32 (leBytes 4 value) value :=
  reads_word value h

private theorem reads_u64 {value : Nat} (h : value < 2 ^ 64) :
    Reads Aligned readU64 (leBytes 8 value) value :=
  reads_word value h

private theorem aligned_leBytes_four (value : Nat) :
    Aligned (leBytes 4 value).length := by
  rw [length_leBytes]
  rfl

/-- A measured step may take exactly the bytes it does take. -/
theorem reads_measured {α : Type} {step : Reading Error α} {enc : Bytes} {a : α}
    (h : Reads Aligned step enc a) (mismatch : Error) :
    Reads Aligned (measured enc.length mismatch step) enc a := by
  intro pre post hA
  have hlength : ¬ pre.length + enc.length - pre.length ≠ enc.length := by
    omega
  rw [measured, get_bind_apply, bind_apply, h pre post hA, ok_bind,
    get_bind_apply, if_neg hlength, pure_apply]

/-- A key without a zero is read up to its terminator. -/
theorem reads_decodeKeyBytes {key found : Bytes} (h : 0 ∉ key) {fuel : Nat}
    (hfuel : key.length < fuel) :
    Reads (fun _ => True) (decodeKeyBytes fuel found) (key ++ [0])
      (found ++ key) := by
  induction key generalizing found fuel with
  | nil =>
      obtain ⟨fuel, rfl⟩ := Nat.exists_eq_add_one_of_ne_zero (n := fuel) (by omega)
      rw [decodeKeyBytes, List.nil_append, List.append_nil,
        ← List.append_nil [(0 : UInt8)]]
      exact Reads.bind (A := fun _ => True) (B := fun _ => True)
        (reads_take truncated [0]) (.pure found) fun _ _ => trivial
  | cons byte key ih =>
      obtain ⟨fuel, rfl⟩ := Nat.exists_eq_add_one_of_ne_zero (n := fuel) (by omega)
      have hbyte : ([byte] : Bytes) ≠ [0] := by
        intro heq
        exact h (by rw [(List.cons.inj heq).1]; simp)
      have hrest : Reads (fun _ => True) (decodeKeyBytes fuel (found ++ [byte]))
          (key ++ [0]) (found ++ [byte] ++ key) :=
        ih (fun hmem => h (List.mem_cons_of_mem _ hmem)) (by simpa using hfuel)
      have happend : byte :: key ++ [0] = [byte] ++ (key ++ [0]) := rfl
      have hfound : found ++ byte :: key = found ++ [byte] ++ key := by simp
      rw [decodeKeyBytes, happend, hfound]
      refine Reads.bind (A := fun _ => True) (B := fun _ => True)
        (reads_take truncated [byte]) ?_ fun _ _ => trivial
      rw [if_neg hbyte]
      exact hrest

/-- A key is read with its padding. -/
theorem reads_decodeKey {key : Bytes} (h : 0 ∉ key) :
    Reads Aligned decodeKey (pad (key ++ [0])) key := by
  intro pre post hA
  have hkey : Reads Aligned (decodeKeyBytes ((pre ++ pad (key ++ [0]) ++
      post).length - pre.length + 1) []) (key ++ [0]) key := by
    refine (reads_decodeKeyBytes h ?_).imp fun _ _ => trivial
    rw [pad_eq]
    simp only [List.length_append]
    omega
  have hpadding := @reads_skipPadding _ truncated 4 (padding (key ++ [0]).length)
    (by decide) (padding_length_lt _)
  have hskip := reads_map (fun _ => key) hpadding
  have hread := Reads.bind (f := fun key => do
    skipPadding truncated 4
    return key) hkey hskip fun n hn => by
      have hzero := aligned_padding (key ++ [0]).length
      unfold Aligned at hn
      omega
  rw [decodeKey, get_bind_apply]
  exact hread pre post hA

/-! ## Objects -/

/-- A value of a kind whose size is fixed. -/
def IsScalar : Xpc → Prop
  | data _ | string _ | array _ | dictionary _ => False
  | _ => True

/-- A value whose texts the format can hold, and whose sizes fit in 32 bits. -/
inductive Encodable : Xpc → Prop
  | scalar {value : Xpc} (h : value.IsScalar) : Encodable value
  | data {bytes : Bytes} (hsize : bytes.length < 2 ^ 32) :
      Encodable (data bytes)
  | string {text : Bytes} (hnul : text.getLast? ≠ some 0)
      (hsize : text.length + 1 < 2 ^ 32) : Encodable (string text)
  | array {items : List Xpc} (h : ∀ item ∈ items, Encodable item)
      (hsize : (encodeItems items (appendU32 [] items.length)).length < 2 ^ 32) :
      Encodable (array items)
  | dictionary {entries : List (Bytes × Xpc)}
      (hsorted : SortedMap.Sorted entries)
      (hkeys : ∀ entry ∈ entries, 0 ∉ entry.1)
      (h : ∀ entry ∈ entries, Encodable entry.2)
      (hsize : (encodeEntries entries
        (appendU32 [] entries.length)).length < 2 ^ 32) :
      Encodable (dictionary entries)

/-- What holds of the bytes of an object. -/
structure Encodes (value : Xpc) : Prop where
  aligned : Aligned value.toBytes.length
  four_le : 4 ≤ value.toBytes.length
  reads : ∀ fuel, value.toBytes.length ≤ fuel →
    Reads Aligned (decodeObject fuel) value.toBytes value

/-- An object is its type word and its body. -/
theorem encodes_of_body {value : Xpc} (body : Bytes)
    (hbytes : value.toBytes = leBytes 4 value.type ++ body)
    (hbody : Aligned body.length)
    (hreads : ∀ fuel, body.length ≤ fuel →
      Reads Aligned (decodeValue (decodeObject fuel) value.type) body value) :
    Encodes value := by
  have hlength : value.toBytes.length = 4 + body.length := by
    rw [hbytes, List.length_append, length_leBytes]
  refine ⟨?_, by omega, fun fuel hfuel => ?_⟩
  · unfold Aligned at hbody ⊢
    omega
  · obtain ⟨fuel, rfl⟩ := Nat.exists_eq_add_one_of_ne_zero (n := fuel) (by omega)
    rw [decodeObject, hbytes]
    exact aligned_bind (reads_word _ (type_lt value)) (hreads fuel (by omega))
      (aligned_leBytes_four _)

/-! ## Containers -/

section Containers

variable {items : List Xpc} {entries : List (Bytes × Xpc)}

theorem aligned_flatMap {α : Type} {f : α → Bytes} {xs : List α}
    (h : ∀ x ∈ xs, Aligned (f x).length) : Aligned (xs.flatMap f).length := by
  induction xs with
  | nil => rfl
  | cons x rest ih =>
      have hfirst := h x (by simp)
      have hrest := ih fun x hmem => h x (List.mem_cons_of_mem _ hmem)
      unfold Aligned at hfirst hrest ⊢
      rw [List.flatMap_cons, List.length_append]
      omega

theorem reads_decodeItems {decode : Reading Error Xpc}
    (h : ∀ item ∈ items, Aligned item.toBytes.length ∧
      Reads Aligned decode item.toBytes item) (found : List Xpc) :
    Reads Aligned (decodeItems decode items.length found)
      (items.flatMap toBytes) (found ++ items) := by
  induction items generalizing found with
  | nil =>
      rw [List.append_nil]
      exact .pure found
  | cons item rest ih =>
      obtain ⟨haligned, hread⟩ := h item (by simp)
      have hrest := ih (fun item hmem => h item (List.mem_cons_of_mem _ hmem))
        (found ++ [item])
      have hfound : found ++ item :: rest = found ++ [item] ++ rest := by simp
      rw [List.length_cons, decodeItems, List.flatMap_cons, hfound]
      exact aligned_bind hread hrest haligned

theorem reads_decodeEntries {decode : Reading Error Xpc}
    (h : ∀ entry ∈ entries, 0 ∉ entry.1 ∧ Aligned entry.2.toBytes.length ∧
      Reads Aligned decode entry.2.toBytes entry.2)
    (found : List (Bytes × Xpc)) :
    Reads Aligned (decodeEntries decode entries.length found)
      (entries.flatMap entryBytes)
      (entries.foldl (fun map entry => SortedMap.emplace entry.1 entry.2 map)
        found) := by
  induction entries generalizing found with
  | nil => exact .pure found
  | cons entry rest ih =>
      obtain ⟨key, value⟩ := entry
      obtain ⟨hkey, haligned, hread⟩ := h (key, value) (by simp)
      have hrest := ih (fun entry hmem => h entry (List.mem_cons_of_mem _ hmem))
        (SortedMap.emplace key value found)
      rw [List.length_cons, decodeEntries, List.flatMap_cons, entryBytes,
        List.append_assoc]
      exact aligned_bind (reads_decodeKey hkey)
        (aligned_bind hread hrest haligned) (aligned_pad _)

/-- The body of an array, whose bytes bear out its count. -/
theorem reads_decodeArray {decode : Reading Error Xpc}
    (hcount : items.length < 2 ^ 32)
    (hfour : ∀ item ∈ items, 4 ≤ item.toBytes.length)
    (h : ∀ item ∈ items, Aligned item.toBytes.length ∧
      Reads Aligned decode item.toBytes item) :
    Reads Aligned (decodeArray decode)
      (leBytes 4 items.length ++ items.flatMap toBytes) items := by
  have hbytes := length_mul_le_flatMap hfour
  refine aligned_bind (reads_u32 hcount) ?_ (aligned_leBytes_four _)
  refine (reads_decodeItems h []).check fun pre post _ => ?_
  simp only [List.length_append]
  omega

theorem reads_decodeDictionary {decode : Reading Error Xpc}
    (hcount : entries.length < 2 ^ 32) (hsorted : SortedMap.Sorted entries)
    (h : ∀ entry ∈ entries, 0 ∉ entry.1 ∧ Aligned entry.2.toBytes.length ∧
      Reads Aligned decode entry.2.toBytes entry.2) :
    Reads Aligned (decodeDictionary decode)
      (leBytes 4 entries.length ++ entries.flatMap entryBytes) entries := by
  have hread := reads_decodeEntries h []
  have hmap : entries.foldl
      (fun map entry => SortedMap.emplace entry.1 entry.2 map) [] = entries :=
    SortedMap.ofEntries_of_sorted hsorted
  rw [hmap] at hread
  exact aligned_bind (reads_u32 hcount) hread (aligned_leBytes_four _)

/-- A body after its length. -/
private theorem reads_body {α : Type} {step : Reading Error α} {body : Bytes}
    {a : α} (hsize : body.length < 2 ^ 32) (mismatch : Error)
    (h : Reads Aligned step body a) (f : α → Xpc) :
    Reads Aligned (readU32 >>= fun length =>
      measured length mismatch step >>= fun a => pure (f a))
      (leBytes 4 body.length ++ body) (f a) :=
  aligned_bind (reads_u32 hsize) (reads_map f (reads_measured h mismatch))
    (aligned_leBytes_four _)

end Containers

/-! ## The round trip -/

/-- A text is read with its padding. -/
private theorem reads_padded {bytes : Bytes} (hsize : bytes.length < 2 ^ 32)
    (f : Bytes → Xpc) :
    Reads Aligned (readU32 >>= fun length => take truncated length >>= fun payload =>
      skipPadding truncated 4 >>= fun _ => pure (f payload))
      (leBytes 4 bytes.length ++ (bytes ++ padding bytes.length)) (f bytes) := by
  have hpadding := @reads_skipPadding _ truncated 4 (padding bytes.length)
    (by decide) (padding_length_lt _)
  have hskip := reads_map (fun _ => f bytes) hpadding
  refine aligned_bind (reads_u32 hsize) ?_ (aligned_leBytes_four _)
  refine (reads_take truncated bytes).bind hskip fun n hn => ?_
  have hzero := aligned_padding bytes.length
  unfold Aligned at hn
  omega

private theorem aligned_padded (bytes : Bytes) :
    Aligned (leBytes 4 bytes.length ++ (bytes ++ padding bytes.length)).length := by
  have hzero := aligned_padding bytes.length
  unfold Aligned
  rw [List.length_append, length_leBytes, List.length_append]
  omega

/-- The zeros at the end of a text are its terminator only, when the text does
not end in one. -/
theorem dropTrailingNuls_append_zero {text : Bytes}
    (h : text.getLast? ≠ some 0) : dropTrailingNuls (text ++ [0]) = text := by
  have hhead : text.reverse.dropWhile (· == 0) = text.reverse := by
    rw [List.getLast?_eq_head?_reverse] at h
    cases hrev : text.reverse with
    | nil => rfl
    | cons byte rest =>
        rw [hrev] at h
        have hbyte : ¬ (byte == 0) = true := by
          simpa using h
        exact List.dropWhile_cons_of_neg hbyte
  rw [dropTrailingNuls, List.reverse_append, List.reverse_singleton,
    List.singleton_append, List.dropWhile_cons_of_pos (by rfl), hhead,
    List.reverse_reverse]

private theorem aligned_leBytes_eight (value : Nat) :
    Aligned (leBytes 8 value).length := by
  rw [length_leBytes]
  rfl

/-- An object whose body is one 64-bit word. -/
private theorem encodes_word (make : UInt64 → Xpc) (number : UInt64)
    (hbytes : (make number).toBytes =
      leBytes 4 (make number).type ++ leBytes 8 number.toNat)
    (hdecode : ∀ decode, decodeValue decode (make number).type =
      readU64 >>= fun value => pure (make (UInt64.ofNat value))) :
    Encodes (make number) := by
  refine encodes_of_body _ hbytes (aligned_leBytes_eight _) fun fuel _ => ?_
  have hread := reads_map (fun value => make (UInt64.ofNat value))
    (reads_u64 number.toNat_lt)
  rw [UInt64.ofNat_toNat] at hread
  rw [hdecode]
  exact hread

theorem encodes_scalar {value : Xpc} (h : value.IsScalar) : Encodes value := by
  cases value with
  | null =>
      exact encodes_of_body [] (by simp [toBytes, encodeObject, appendU32]) rfl
        fun _ _ => .pure _
  | boolean flag =>
      refine encodes_of_body (leBytes 4 (if flag then 1 else 0))
        (by simp [toBytes, encodeObject, appendU32]) (aligned_leBytes_four _)
        fun _ _ => ?_
      cases flag with
      | false => exact reads_map _ (reads_u32 (by decide))
      | true => exact reads_map _ (reads_u32 (by decide))
  | int64 number =>
      refine encodes_of_body (leBytes 8 number.toUInt64.toNat)
        (by simp [toBytes, encodeObject, appendU32, appendU64])
        (aligned_leBytes_eight _) fun _ _ => ?_
      have hread := reads_map (fun word => int64 (UInt64.ofNat word).toInt64)
        (reads_u64 number.toUInt64.toNat_lt)
      rw [UInt64.ofNat_toNat, Int64.toInt64_toUInt64] at hread
      exact hread
  | uint64 number =>
      exact encodes_word uint64 number
        (by simp [toBytes, encodeObject, appendU32, appendU64]) fun _ => rfl
  | double bits =>
      exact encodes_word double bits
        (by simp [toBytes, encodeObject, appendU32, appendU64]) fun _ => rfl
  | date nanoseconds =>
      exact encodes_word date nanoseconds
        (by simp [toBytes, encodeObject, appendU32, appendU64]) fun _ => rfl
  | uuid value =>
      obtain ⟨bytes, hsize⟩ := value
      refine encodes_of_body bytes (by simp [toBytes, encodeObject, appendU32])
        (by rw [Aligned, hsize]) fun _ _ pre post _ => ?_
      have hread := reads_take (A := fun _ => True) truncated bytes pre post
        trivial
      rw [hsize] at hread
      show (take truncated 16 >>= _) _ = _
      rw [bind_apply, hread, ok_bind, dif_pos hsize, hsize]
      rfl
  | data _ | string _ | array _ | dictionary _ => exact h.elim

/-! ## Texts and containers -/

theorem toBytes_data (bytes : Bytes) :
    (data bytes).toBytes = leBytes 4 (data bytes).type ++
      (leBytes 4 bytes.length ++ (bytes ++ padding bytes.length)) := by
  have hprefix : Aligned (leBytes 4 (data bytes).type ++
      leBytes 4 bytes.length).length := by
    simp [Aligned]
  have hpad := pad_append hprefix bytes
  rw [pad_eq bytes, List.append_assoc] at hpad
  exact hpad

theorem toBytes_string (text : Bytes) :
    (string text).toBytes = leBytes 4 (string text).type ++
      (leBytes 4 (text ++ [0]).length ++
        (text ++ [0] ++ padding (text ++ [0]).length)) := by
  have hprefix : Aligned (leBytes 4 (string text).type ++
      leBytes 4 (text ++ [0]).length).length := by
    simp [Aligned]
  have hpad := pad_append hprefix (text ++ [0])
  rw [pad_eq (text ++ [0]), List.append_assoc _ _ (_ ++ padding _),
    ← List.append_assoc _ text] at hpad
  rw [← hpad, List.length_append]
  rfl

theorem toBytes_array {items : List Xpc}
    (h : ∀ item ∈ items, Aligned item.toBytes.length) :
    (array items).toBytes = leBytes 4 (array items).type ++
      (leBytes 4 (leBytes 4 items.length ++ items.flatMap toBytes).length ++
        (leBytes 4 items.length ++ items.flatMap toBytes)) := by
  have hbody := encodeItems_eq h (aligned_leBytes_four items.length)
  rw [← hbody, ← List.append_assoc]
  rfl

theorem toBytes_dictionary {entries : List (Bytes × Xpc)}
    (h : ∀ entry ∈ entries, Aligned entry.2.toBytes.length) :
    (dictionary entries).toBytes = leBytes 4 (dictionary entries).type ++
      (leBytes 4 (leBytes 4 entries.length ++
          entries.flatMap entryBytes).length ++
        (leBytes 4 entries.length ++ entries.flatMap entryBytes)) := by
  have hbody := encodeEntries_eq h (aligned_leBytes_four entries.length)
  rw [← hbody, ← List.append_assoc]
  rfl

theorem encodes_array {items : List Xpc} (h : ∀ item ∈ items, Encodes item)
    (hsize : (encodeItems items (appendU32 [] items.length)).length < 2 ^ 32) :
    Encodes (array items) := by
  have haligned := fun item hmem => (h item hmem).aligned
  have hfour := fun item hmem => (h item hmem).four_le
  have hcount := length_mul_le_flatMap hfour
  have hrest := aligned_flatMap haligned
  have hbody : encodeItems items (appendU32 [] items.length) =
      leBytes 4 items.length ++ items.flatMap toBytes :=
    encodeItems_eq haligned (aligned_leBytes_four items.length)
  rw [hbody] at hsize
  have hlength : (leBytes 4 items.length ++ items.flatMap toBytes).length =
      4 + (items.flatMap toBytes).length := by
    rw [List.length_append, length_leBytes]
  refine encodes_of_body _ (toBytes_array haligned) ?_ fun fuel hfuel => ?_
  · unfold Aligned at hrest ⊢
    rw [List.length_append, length_leBytes, hlength]
    omega
  · rw [List.length_append, length_leBytes, hlength] at hfuel
    refine reads_body hsize _ (reads_decodeArray (by omega) hfour ?_) array
    intro item hmem
    have hle := length_le_flatMap (f := toBytes) hmem
    exact ⟨haligned item hmem, (h item hmem).reads fuel (by omega)⟩

theorem encodes_dictionary {entries : List (Bytes × Xpc)}
    (hsorted : SortedMap.Sorted entries) (hkeys : ∀ entry ∈ entries, 0 ∉ entry.1)
    (h : ∀ entry ∈ entries, Encodes entry.2)
    (hsize : (encodeEntries entries
      (appendU32 [] entries.length)).length < 2 ^ 32) :
    Encodes (dictionary entries) := by
  have haligned := fun entry hmem => (h entry hmem).aligned
  have hvalue : ∀ entry : Bytes × Xpc,
      entry.2.toBytes.length ≤ (entryBytes entry).length := by
    intro entry
    rw [entryBytes, List.length_append]
    omega
  have hentry : ∀ entry ∈ entries, Aligned (entryBytes entry).length := by
    intro entry hmem
    have hkey := aligned_pad (entry.1 ++ [0])
    have hvalue := haligned entry hmem
    unfold Aligned at hkey hvalue ⊢
    rw [entryBytes, List.length_append]
    omega
  have hcount := length_mul_le_flatMap fun entry hmem =>
    ((h entry hmem).four_le).trans (hvalue entry)
  have hrest := aligned_flatMap hentry
  have hbody : encodeEntries entries (appendU32 [] entries.length) =
      leBytes 4 entries.length ++ entries.flatMap entryBytes :=
    encodeEntries_eq haligned (aligned_leBytes_four entries.length)
  rw [hbody] at hsize
  have hlength : (leBytes 4 entries.length ++ entries.flatMap entryBytes).length =
      4 + (entries.flatMap entryBytes).length := by
    rw [List.length_append, length_leBytes]
  refine encodes_of_body _ (toBytes_dictionary haligned) ?_ fun fuel hfuel => ?_
  · unfold Aligned at hrest ⊢
    rw [List.length_append, length_leBytes, hlength]
    omega
  · rw [List.length_append, length_leBytes, hlength] at hfuel
    refine reads_body hsize _
      (reads_decodeDictionary (by omega) hsorted ?_) dictionary
    intro entry hmem
    have hle := length_le_flatMap (f := entryBytes) hmem
    have hvalue := hvalue entry
    exact ⟨hkeys entry hmem, haligned entry hmem,
      (h entry hmem).reads fuel (by omega)⟩

/-- Every encodable object is read back from its bytes, at any aligned offset and with
anything behind it. -/
theorem Encodable.encodes {value : Xpc} (h : Encodable value) : Encodes value := by
  induction h with
  | scalar h => exact encodes_scalar h
  | @data bytes hsize =>
      exact encodes_of_body _ (toBytes_data bytes) (aligned_padded bytes)
        fun _ _ => reads_padded hsize Xpc.data
  | @string text hnul hsize =>
      have hread := @reads_padded (text ++ [0]) (by simpa using hsize)
        fun payload => Xpc.string (dropTrailingNuls payload)
      rw [dropTrailingNuls_append_zero hnul] at hread
      exact encodes_of_body _ (toBytes_string text) (aligned_padded _)
        fun _ _ => hread
  | array _ hsize ih => exact encodes_array ih hsize
  | dictionary hsorted hkeys _ hsize ih =>
      exact encodes_dictionary hsorted hkeys ih hsize

/-- An encodable object takes fewer than `2 ^ 32` bytes and its two words. -/
theorem Encodable.length_lt {value : Xpc} (h : Encodable value) :
    value.toBytes.length < 2 ^ 33 := by
  cases h with
  | scalar h =>
      cases value with
      | uuid value =>
          obtain ⟨bytes, hsize⟩ := value
          simp [toBytes, encodeObject, appendU32, hsize]
      | data _ | string _ | array _ | dictionary _ => exact h.elim
      | _ => simp [toBytes, encodeObject, appendU32, appendU64]
  | @data bytes hsize =>
      have hpad := padding_length_lt bytes.length
      rw [toBytes_data]
      simp only [List.length_append, length_leBytes]
      omega
  | @string text hnul hsize =>
      have hpad := padding_length_lt (text ++ [0]).length
      rw [toBytes_string]
      simp only [List.length_append, length_leBytes, List.length_singleton] at *
      omega
  | @array items h hsize =>
      have hbytes : (Xpc.array items).toBytes.length =
          8 + (encodeItems items (appendU32 [] items.length)).length := by
        simp only [toBytes, encodeObject, appendU32, List.length_append,
          length_leBytes, List.length_nil]
      omega
  | @dictionary entries hsorted hkeys h hsize =>
      have hbytes : (Xpc.dictionary entries).toBytes.length =
          8 + (encodeEntries entries (appendU32 [] entries.length)).length := by
        simp only [toBytes, encodeObject, appendU32, List.length_append,
          length_leBytes, List.length_nil]
      omega

/-- What an encoding reads at the start of its own buffer. -/
private theorem reads_whole {α : Type} {p : Reading Error α} {enc : Bytes} {a : α}
    (h : Reads Aligned p enc a) : p ⟨enc, 0⟩ = .ok (a, ⟨enc, enc.length⟩) := by
  have hread := h [] [] rfl
  simpa using hread

theorem Encodable.parse {value : Xpc} (h : Encodable value) :
    Xpc.parse value.toBytes = .ok value := by
  have hread := reads_whole
    (h.encodes.reads (value.toBytes.length + 1) (by omega))
  rw [Xpc.parse, hread, ok_bind]
  exact if_neg (not_not_intro rfl)

end Xpc

/-! ## Payloads and wrappers -/

open Xpc

namespace XpcPayload

theorem length_encode (payload : XpcPayload) :
    payload.encode.length = 8 + payload.object.toBytes.length := by
  simp only [encode, appendU32, List.length_append, length_leBytes,
    List.length_nil]

theorem parse_encode {payload : XpcPayload} (h : payload.object.Encodable) :
    parse payload.encode = .ok payload := by
  have hobject := h.encodes.reads (payload.encode.length + 1)
    (by rw [length_encode]; omega)
  have hversion : Reads Aligned (readU32 >>= fun version =>
      if version ≠ kXpcPayloadVersion then
        fail (protocolError "the xpc payload has an unknown version")
      else decodeObject (payload.encode.length + 1))
      (leBytes 4 kXpcPayloadVersion ++ payload.object.toBytes) payload.object := by
    refine aligned_bind (reads_u32 (by decide)) ?_ (aligned_leBytes_four _)
    rw [if_neg (not_not_intro rfl)]
    exact hobject
  have hdecode : Reads Aligned (decode (payload.encode.length + 1))
      payload.encode payload.object := by
    have hbytes : payload.encode = leBytes 4 kXpcPayloadMagic ++
        (leBytes 4 kXpcPayloadVersion ++ payload.object.toBytes) := by
      simp [encode, appendU32]
    rw [hbytes] at hversion ⊢
    refine aligned_bind (reads_u32 (by decide)) ?_ (aligned_leBytes_four _)
    rw [if_neg (not_not_intro rfl)]
    exact hversion
  rw [parse, reads_whole hdecode, ok_bind]
  exact if_neg (not_not_intro rfl)

end XpcPayload

namespace XpcWrapper

/-- The bytes of the header. -/
def headerBytes (flags : UInt32) (length : Nat) (messageId : UInt64) : Bytes :=
  leBytes 4 kXpcWrapperMagic ++ (leBytes 4 flags.toNat ++
    (leBytes 8 length ++ leBytes 8 messageId.toNat))

theorem reads_decodeHeader (flags : UInt32) (messageId : UInt64) {length : Nat}
    (hlength : length < 2 ^ 64) :
    Reads Aligned decodeHeader (headerBytes flags length messageId)
      (flags, length, messageId) := by
  have hmessage := reads_map (fun word => (flags, length, UInt64.ofNat word))
    (reads_u64 messageId.toNat_lt)
  rw [UInt64.ofNat_toNat] at hmessage
  have hbody := aligned_bind (f := fun bodyLength => do
      let messageId ← readU64
      return (flags, bodyLength, UInt64.ofNat messageId))
    (reads_u64 hlength) hmessage (aligned_leBytes_eight _)
  have hflags := aligned_bind (f := fun flags => do
      let bodyLength ← readU64
      let messageId ← readU64
      return (UInt32.ofNat flags, bodyLength, UInt64.ofNat messageId))
    (reads_u32 flags.toNat_lt) (by rw [UInt32.ofNat_toNat]; exact hbody)
    (aligned_leBytes_four _)
  refine aligned_bind (reads_u32 (by decide)) ?_ (aligned_leBytes_four _)
  rw [if_neg (not_not_intro rfl)]
  exact hflags

theorem parse_encode {wrapper : XpcWrapper}
    (h : ∀ payload, wrapper.payload = some payload →
      payload.object.Encodable) : parse wrapper.encode = .ok wrapper := by
  obtain ⟨flags, messageId, payload⟩ := wrapper
  cases payload with
  | none =>
      have hheader := reads_whole
        (@reads_decodeHeader flags messageId 0 (by decide))
      have hbytes : encode ⟨flags, messageId, none⟩ =
          headerBytes flags 0 messageId := by
        simp [encode, headerBytes, appendU32, appendU64]
      rw [parse, hbytes, hheader, ok_bind]
      dsimp only
      rw [if_pos rfl, if_neg (not_not_intro rfl)]
  | some payload =>
      have hobject := h payload rfl
      have hlength := payload.length_encode
      have hlt := hobject.length_lt
      have hheader := @reads_decodeHeader flags messageId
        payload.encode.length (by omega) [] payload.encode rfl
      have hbytes : encode ⟨flags, messageId, some payload⟩ =
          headerBytes flags payload.encode.length messageId ++ payload.encode := by
        simp [encode, headerBytes, appendU32, appendU64]
      have htake := reads_take (A := fun _ => True) truncated payload.encode
        (headerBytes flags payload.encode.length messageId) [] trivial
      rw [List.nil_append, List.length_nil, Nat.zero_add] at hheader
      rw [List.append_nil] at htake
      rw [parse, hbytes, hheader, ok_bind]
      dsimp only
      rw [if_neg (by omega), htake, ok_bind]
      dsimp only
      rw [if_neg (by simp), XpcPayload.parse_encode hobject, ok_bind]

end XpcWrapper

/-- Every object whose texts and sizes the format can hold is read back from its
bytes, and so is every wrapper, with or without a payload of such an object. -/
theorem parse_toBytes :
    (∀ value : Xpc, value.Encodable → Xpc.parse value.toBytes = .ok value) ∧
      ∀ wrapper : XpcWrapper, (∀ payload, wrapper.payload = some payload →
        payload.object.Encodable) →
          XpcWrapper.parse wrapper.encode = .ok wrapper :=
  ⟨fun _ h => h.parse, fun _ h => XpcWrapper.parse_encode h⟩

/-- A dictionary of a text and an array. -/
def handshake : Xpc :=
  .dictionary [([65], .string [104, 105]), ([66, 67], .array [.uint64 5, .null])]

theorem parse_toBytes_handshake :
    Xpc.parse handshake.toBytes = .ok handshake ∧
      XpcWrapper.parse (XpcWrapper.request 7 handshake true).encode =
        .ok (XpcWrapper.request 7 handshake true) := by
  have hencodable : handshake.Encodable := by
    refine .dictionary (by decide) (by decide) ?_ (by decide)
    rintro entry hmem
    rcases List.mem_pair.mp hmem with rfl | rfl
    · exact .string (by decide) (by decide)
    · refine .array ?_ (by decide)
      rintro item hmem
      rcases List.mem_pair.mp hmem with rfl | rfl
      · exact .scalar trivial
      · exact .scalar trivial
  refine ⟨parse_toBytes.1 handshake hencodable, parse_toBytes.2 _ ?_⟩
  rintro payload ⟨⟩
  exact hencodable

end Ioscpp.Protocol
