import Ioscpp.Protocol.BinaryPlistRoundTrip

/-!
# The encoder against the standard format

`Standard.readHead` is the reader of the `bplist00` format that a device runs,
stated apart from this library's own decoder: a short integer is unsigned, one
of eight bytes is in two's complement, a `0x5n` string is ASCII and a `0x6n`
string is UTF-16.  The encoder speaks that format on every container and on
most leaves (`Standard.speaks_readHead`); what it gets wrong are the negative
integers it shortens and the strings that are not ASCII.

## Main results

- `speaks_readHead`: the standard reader finds the encoder's containers, and reads or
  refuses its leaves.
- `decodes_toBinary_iff`: when it reads a tree back.
-/

namespace Ioscpp.Protocol.Plist.Standard

open Ioscpp.Support
open Ioscpp.Support.Reading

/-! ## The reader -/

def malformed : Error := protocolError "an object is not in the standard form"

/-- A count is the low nibble, or an integer object after it. -/
def readCount (info : UInt8) : Reading Error Nat :=
  if info.toNat < 15 then return info.toNat
  else do
    let byte ← readUint 1
    let marker := UInt8.ofNat byte
    if marker &&& 0xf0 = kMarkerInt then readUint (byteCount (marker &&& 0x0f))
    else fail malformed

/-- An integer of 1, 2 or 4 bytes is unsigned; one of 8 is in two's
complement. -/
def intOf (size raw : Nat) : Option Int64 :=
  if size = 1 ∨ size = 2 ∨ size = 4 then some (Int64.ofNat raw)
  else if size = 8 then some (UInt64.ofNat raw).toInt64
  else none

/-- The characters of UTF-16 code units. -/
def utf16Chars : List Nat → Option (List Char)
  | [] => some []
  | [unit] =>
      if 0xd800 ≤ unit ∧ unit < 0xe000 then none else some [Char.ofNat unit]
  | unit :: next :: rest =>
      if unit < 0xd800 ∨ 0xe000 ≤ unit then
        (Char.ofNat unit :: ·) <$> utf16Chars (next :: rest)
      else if unit < 0xdc00 ∧ 0xdc00 ≤ next ∧ next < 0xe000 then
        (Char.ofNat (0x10000 + (unit - 0xd800) * 0x400 + (next - 0xdc00)) :: ·)
          <$> utf16Chars rest
      else none

/-- The code units of big-endian pairs. -/
def utf16Units : Bytes → List Nat
  | high :: low :: rest => (256 * high.toNat + low.toNat) :: utf16Units rest
  | _ => []

/-- A value that is there, or none. -/
def expect : Option Plist → Reading Error Head
  | some value => return .leaf value
  | none => fail malformed

/-- The string of ASCII bytes. -/
def asciiString (text : Bytes) : Option Plist :=
  if text.all (· < 0x80) then some (.string text) else none

/-- The string of UTF-16 bytes, in UTF-8. -/
def utf16String (pairs : Bytes) : Option Plist :=
  (utf16Chars (utf16Units pairs)).map fun chars =>
    .string (chars.flatMap String.utf8EncodeChar)

/-- The object after its marker, by its kind and low nibble.  Reals and dates
are doubles; the four-byte ones of the format are left out. -/
def readKind (refSize : Nat) (kind info : UInt8) : Reading Error Head :=
  if kind = kMarkerInt then do
    let raw ← readUint (byteCount info)
    expect ((intOf (byteCount info) raw).map .integer)
  else if kind = kMarkerReal ∧ info = 3 then do
    let raw ← readUint 8
    return .leaf (.real (UInt64.ofNat raw))
  else if kind = kMarkerDate ∧ info = 3 then do
    let raw ← readUint 8
    return .leaf (.date (Binary64.toInt64 (UInt64.ofNat raw)))
  else if kind = kMarkerData then do
    let length ← readCount info
    let bytes ← take truncated length
    return .leaf (.data bytes)
  else if kind = kMarkerAscii then do
    let length ← readCount info
    let text ← take truncated length
    expect (asciiString text)
  else if kind = kMarkerUtf16 then do
    let length ← readCount info
    let pairs ← take truncated (length * 2)
    expect (utf16String pairs)
  else if kind = kMarkerUid then do
    let raw ← readUint (byteCount info)
    return .leaf (.uid (UInt64.ofNat raw))
  else if kind = kMarkerArray then do
    let length ← readLength (readCount info) refSize truncated
    return .array length
  else if kind = kMarkerDictionary then do
    let length ← readLength (readCount info) (2 * refSize) truncated
    return .dictionary length
  else fail malformed

/-- The object at the reader's offset, up to its references. -/
def readHead (refSize : Nat) : Reading Error Head :=
  readMarked (readKind refSize)

/-! ## What it makes of the encoder's leaves -/

/-- What the reader makes of an integer's encoding. -/
def readBackInt (value : Int64) : Int64 :=
  Int64.ofNat (value.toUInt64.toNat % 256 ^ 2 ^ intExponent value)

/-- The negative integers that the encoder writes in fewer than eight bytes. -/
def ShortNegative (value : Int64) : Prop :=
  -2147483648 ≤ value.toInt ∧ value.toInt < 0

/-- Exactly those are read as another integer. -/
theorem readBackInt_eq_iff (value : Int64) :
    readBackInt value = value ↔ ¬ ShortNegative value := by
  have hword := toInt_eq value
  have hlt := value.toUInt64.toNat_lt
  have hexp := intExponent_eq value
  have hofNat := toInt_ofNat (value.toUInt64.toNat % 256 ^ 2 ^ intExponent value)
  change (readBackInt value).toInt = _ at hofNat
  rw [← Int64.toInt_inj, hofNat, ShortNegative]
  split_ifs at hexp hword with h0 h1 h2 h4 <;> rw [hexp] <;>
    norm_num <;> split_ifs <;> omega

/-- What the reader makes of a leaf. -/
def readBack : Plist → Option Plist
  | integer value => some (.integer (readBackInt value))
  | string text => asciiString text
  | date seconds => some (.date (Binary64.toInt64 (Binary64.ofInt64 seconds)))
  | value => some value

theorem readsCounts_readCount : ReadsCounts readCount := by
  intro marker length h
  rcases appendCount_form marker h with
    ⟨hsmall, hform⟩ | ⟨hlarge, exponent, hexp, hfits, hform⟩
  · refine ⟨length, [], by omega, hform, ?_⟩
    have hlength : (UInt8.ofNat length).toNat = length := by
      rw [UInt8.toNat_ofNat']
      exact Nat.mod_eq_of_lt (by omega)
    rw [readCount, hlength, if_pos hsmall]
    exact .pure length
  · refine ⟨15, _, by decide, hform, ?_⟩
    obtain ⟨hkind, hnibble, -⟩ := marker_nibbles kMarkerInt (by decide) exponent
      (by omega)
    have hread := reads_readUint hexp (show length < 2 ^ 64 by omega)
    rw [Nat.mod_eq_of_lt hfits] at hread
    rw [readCount, if_neg (by decide), ← List.singleton_append]
    refine Reads.bind (A := fun _ => True) (B := fun _ => True)
      (reads_byte _ _) ?_ fun _ _ => trivial
    simp only [UInt8.ofNat_toNat]
    rw [if_pos hkind, hnibble]
    exact hread

theorem reads_integer (refSize : Nat) (value : Int64) :
    Reads (fun _ => True) (readHead refSize) (leafBytes (.integer value))
      (.leaf (.integer (readBackInt value))) := by
  have hexp := intExponent_le value
  have hread : readKind refSize kMarkerInt (UInt8.ofNat (intExponent value)) =
      (readUint (byteCount (UInt8.ofNat (intExponent value))) >>= fun raw =>
        pure (Head.leaf (.integer (Int64.ofNat raw)))) := by
    have hsize : byteCount (UInt8.ofNat (intExponent value)) = 1 ∨
        byteCount (UInt8.ofNat (intExponent value)) = 2 ∨
        byteCount (UInt8.ofNat (intExponent value)) = 4 ∨
        byteCount (UInt8.ofNat (intExponent value)) = 8 := by
      rw [byteCount_ofNat (by omega)]
      interval_cases intExponent value <;> decide
    rcases hsize with h | h | h | h <;> simp only [readKind, h] <;> rfl
  have h := reads_scalar _ (f := fun raw => .integer (Int64.ofNat raw))
    (by decide) hexp value.toUInt64.toNat_lt hread
  change Reads _ _ (appendInt [] value) _
  rw [appendInt_eq_cons]
  exact h

theorem reads_real (refSize : Nat) (bits : UInt64) :
    Reads (fun _ => True) (readHead refSize) (leafBytes (.real bits))
      (.leaf (.real bits)) := by
  have h := reads_scalar_eight (readKind refSize)
    (show kMarkerReal ∈ kinds by decide) bits
    (f := fun raw => .real (UInt64.ofNat raw)) rfl
  rw [UInt64.ofNat_toNat] at h
  exact h

theorem reads_date (refSize : Nat) (seconds : Int64) :
    Reads (fun _ => True) (readHead refSize) (leafBytes (.date seconds))
      (.leaf (.date (Binary64.toInt64 (Binary64.ofInt64 seconds)))) := by
  have h := reads_scalar_eight (readKind refSize)
    (show kMarkerDate ∈ kinds by decide) (Binary64.ofInt64 seconds)
    (f := fun raw => .date (Binary64.toInt64 (UInt64.ofNat raw))) rfl
  rw [UInt64.ofNat_toNat] at h
  exact h

/-- The reader reads a leaf as `readBack` says, or refuses it. -/
def Answers (refSize : Nat) (value : Plist) (pre post : Bytes) : Prop :=
  (∀ other, readBack value = some other →
    ∃ last, readHead refSize ⟨pre ++ leafBytes value ++ post, pre.length⟩ =
      .ok (.leaf other, last)) ∧
  (readBack value = none →
    ∃ e, readHead refSize ⟨pre ++ leafBytes value ++ post, pre.length⟩ =
      .error e)

private theorem answers_of_reads {refSize : Nat} {value other : Plist}
    {pre post : Bytes} (hother : readBack value = some other)
    (h : Reads (fun _ => True) (readHead refSize) (leafBytes value)
      (.leaf other)) : Answers refSize value pre post := by
  constructor
  · intro found hfound
    rw [hother] at hfound
    cases hfound
    exact ⟨_, h pre post trivial⟩
  · intro hnone
    rw [hother] at hnone
    cases hnone

theorem readHead_leafBytes (refSize : Nat) {value : Plist}
    (hleaf : value.IsLeaf) {pre post : Bytes}
    (hfits : FitsVector (pre ++ leafBytes value ++ post)) :
    Answers refSize value pre post := by
  cases value with
  | null => exact answers_of_reads rfl (reads_single _ fun _ => rfl)
  | boolean value =>
      cases value with
      | false => exact answers_of_reads rfl (reads_single _ fun _ => rfl)
      | true => exact answers_of_reads rfl (reads_single _ fun _ => rfl)
  | integer value => exact answers_of_reads rfl (reads_integer refSize value)
  | real bits => exact answers_of_reads rfl (reads_real refSize bits)
  | data bytes =>
      exact answers_of_reads rfl (reads_counted _ readsCounts_readCount (by decide)
        (fun _ => rfl) (length_lt_of_fitsVector hfits))
  | date seconds => exact answers_of_reads rfl (reads_date refSize seconds)
  | array items => exact hleaf.elim
  | dictionary entries => exact hleaf.elim
  | uid index => exact answers_of_reads rfl (reads_uid _ (fun _ => rfl) index)
  | string text =>
      have h : readHead refSize
          ⟨pre ++ leafBytes (.string text) ++ post, pre.length⟩ = _ :=
        readMarked_counted _ readsCounts_readCount
          (show kMarkerAscii ∈ kinds by decide) (fun _ => rfl)
          (length_lt_of_fitsVector hfits) pre post
      rw [Answers, h]
      change (∀ other, asciiString text = some other → _) ∧
        (asciiString text = none → _)
      constructor
      · intro other hother
        rw [hother]
        exact ⟨_, rfl⟩
      · intro hnone
        rw [hnone]
        exact ⟨_, rfl⟩

/-- The reader finds the encoder's containers, and reads or refuses its
leaves. -/
theorem speaks_readHead : Speaks readHead readBack where
  leaf := fun hleaf hfits => (readHead_leafBytes _ hleaf hfits).1 _
  refused := fun hleaf hfits => (readHead_leafBytes _ hleaf hfits).2
  array := fun hpos hfits hpost =>
    readMarked_container readsCounts_readCount (by decide) (fun _ => rfl) hpos hfits hpost
  dictionary := fun hpos hfits hpost =>
    readMarked_container readsCounts_readCount (by decide) (fun _ => rfl) (by omega) hfits hpost
  string := by
    intro text other hother
    change asciiString text = some other at hother
    rw [asciiString] at hother
    split at hother <;> cases hother
    rfl

/-! ## The trees it reads back -/

/-- A leaf that the encoder writes in the standard form. It shortens negative integers
as if they were unsigned, and marks every string as ASCII. -/
def IsStandard : Plist → Prop
  | integer value => ¬ ShortNegative value
  | string text => ∀ byte ∈ text, byte < 0x80
  | date seconds => Binary64.toInt64 (Binary64.ofInt64 seconds) = seconds
  | _ => True

theorem readBack_eq_iff (value : Plist) :
    readBack value = some value ↔ IsStandard value := by
  cases value <;> simp [readBack, IsStandard, readBackInt_eq_iff, asciiString]

/-- The standard reader reads a tree back exactly when its leaves, keys included, are
written in the standard form: no integer is a negative one in fewer than eight bytes, no
string has a byte outside ASCII, and each date is one that a double holds. -/
theorem decodes_toBinary_iff {value : Plist} (hwell : value.WellFormed)
    (hfits : FitsVector (toBinary value)) :
    unfoldBinary readHead (toBinary value) = .ok value ↔
      value.AllLeaves IsStandard := by
  rw [Plist.unfoldBinary_toBinary_iff speaks_readHead hwell hfits]
  simp only [readBack_eq_iff]

theorem decodes_toBinary_iff_dictionary :
    unfoldBinary readHead (toBinary (.dictionary [(ascii "n", .integer 200)])) =
      .ok (.dictionary [(ascii "n", .integer 200)]) :=
  (decodes_toBinary_iff
    (.dictionary (by decide) (by
      simp only [List.mem_cons, List.not_mem_nil, or_false, forall_eq]
      exact .leaf trivial))
    (by unfold FitsVector; decide)).mpr
    (.dictionary (by
        simp only [List.mem_cons, List.not_mem_nil, or_false, forall_eq]
        change ∀ byte ∈ ascii "n", byte < 0x80
        decide +kernel)
      (by
        simp only [List.mem_cons, List.not_mem_nil, or_false, forall_eq]
        exact .leaf trivial (by unfold IsStandard ShortNegative; decide)))

/-- The integer -1 is written as the byte ff, which is read as 255; the string
of the character U+00E9 is written as its two UTF-8 bytes, which are refused. -/
theorem decodes_toBinary_negative :
    unfoldBinary readHead (toBinary (.integer (-1))) = .ok (.integer 255) ∧
      unfoldBinary readHead (toBinary (.string [0xc3, 0xa9])) =
        .error (.error malformed) ∧
      String.utf8EncodeChar (Char.ofNat 0xe9) = [0xc3, 0xa9] :=
  ⟨rfl, rfl, by decide +kernel⟩

end Ioscpp.Protocol.Plist.Standard
