import Ioscpp.Protocol.BinaryPlistObjects
import Ioscpp.Protocol.BinaryPlistPlaces
import Ioscpp.Support.FloatFormat

/-!
# The reals of binary property lists

The eight bytes of a real are taken as the bits of a double.  Its four bytes are taken
as an integer, which is converted to a float: only two words of four bytes are read as
the number they stand for.

## Main results

- `rounded_eq_value_iff`: the finite floats that are the rounding of their bits as an
  integer.
- `parseBinary_real_iff`: which reals of a file are read with their value.
-/

namespace Ioscpp.Protocol.Plist

open Ioscpp.Support
open Ioscpp.Support.Reading
open FloatFormat

/-! ## Bits that are taken for an integer -/

section Bits

variable {raw : Nat}

theorem field_single (h : raw < 2 ^ 31) : single.field raw = raw / 2 ^ 23 := by
  show raw / 2 ^ 23 % 2 ^ 8 = raw / 2 ^ 23
  omega

theorem value_single (h : raw < 2 ^ 31) : single.value raw = single.magnitude raw := by
  unfold value
  rw [if_neg]
  show ¬ raw / 2 ^ 31 % 2 = 1
  omega

/-- A negative float is taken for a large integer. -/
theorem rounded_ne_of_negative (hraw : raw < 2 ^ 32) (h : 2 ^ 31 ≤ raw) :
    (rounded raw : ℚ) ≠ single.value raw := by
  have hpos := le_rounded h
  have hnonneg := @magnitude_nonneg single raw
  have hcast : (0 : ℚ) < rounded raw := by
    exact_mod_cast lt_of_lt_of_le (by decide) hpos
  have hsign : single.IsNegative raw := by
    show raw / 2 ^ 31 % 2 = 1
    omega
  unfold value
  rw [if_pos hsign]
  intro heq
  linarith

/-- A subnormal float is taken for its fraction. -/
theorem rounded_eq_of_subnormal (h : raw < 2 ^ 23) :
    (rounded raw : ℚ) = single.magnitude raw ↔ raw = 0 := by
  have hfield : single.field raw = 0 := by
    rw [field_single (by omega)]
    omega
  have hvalue : single.magnitude raw = raw * 2 ^ (-149 : Int) := by
    have hsignificand : single.significand raw = raw := by
      unfold significand
      rw [if_pos hfield]
      exact Nat.mod_eq_of_lt h
    have hexponent : single.exponent raw = -149 := by
      unfold exponent
      rw [hfield]
      decide
    rw [magnitude, hsignificand, hexponent]
  rw [hvalue]
  constructor
  · intro heq
    by_contra hzero
    have hlog : raw.log2 < 23 := (Nat.log2_lt hzero).mpr h
    rw [rounded_of_small (by omega)] at heq
    have hpos : (0 : ℚ) < raw := by exact_mod_cast Nat.pos_of_ne_zero hzero
    have hless : (2 : ℚ) ^ (-149 : Int) < 1 := by norm_num
    nlinarith
  · rintro rfl
    rw [rounded_of_small (by decide)]
    simp

/-- A float below `2^31` whose field is no more than that of `2^29` is less than its
bits. -/
theorem rounded_ne_of_low (h : 2 ^ 23 ≤ raw) (hfield : raw / 2 ^ 23 ≤ 156) :
    (rounded raw : ℚ) ≠ single.magnitude raw := by
  have hsame := field_single (show raw < 2 ^ 31 by omega)
  have hless : single.magnitude raw < rounded raw := by
    by_cases hlarge : 2 ^ 30 ≤ raw
    · have hlt := @magnitude_lt single raw 156 (by decide) (by omega)
      have hround : ((2 ^ 30 : Nat) : ℚ) ≤ rounded raw := by
        exact_mod_cast le_rounded hlarge
      calc single.magnitude raw < _ := hlt
        _ = ((2 ^ 30 : Nat) : ℚ) := by norm_num [single]
        _ ≤ rounded raw := hround
    · have hlt := @magnitude_lt single raw 127 (by decide) (by omega)
      have hround : ((2 ^ 23 : Nat) : ℚ) ≤ rounded raw := by
        exact_mod_cast le_rounded h
      calc single.magnitude raw < _ := hlt
        _ ≤ ((2 ^ 23 : Nat) : ℚ) := by norm_num [single]
        _ ≤ rounded raw := hround
  exact hless.ne'

/-- A finite float from `2^31` on is more than its bits. -/
theorem rounded_ne_of_high (hlow : 158 ≤ raw / 2 ^ 23) (hhigh : raw / 2 ^ 23 < 255) :
    (rounded raw : ℚ) ≠ single.magnitude raw := by
  have hsame := field_single (show raw < 2 ^ 31 by omega)
  have hge := @le_magnitude single raw 158 (by decide) (by omega)
  have hlog : raw.log2 < 31 := (Nat.log2_lt (by omega)).mpr (by omega)
  have hplace : 2 ^ (raw.log2 - 23) ≤ 2 ^ 7 :=
    Nat.pow_le_pow_right (by decide) (by omega)
  have hround := @rounded_le raw
  have hless : (rounded raw : ℚ) < ((2 ^ 31 : Nat) : ℚ) := by
    exact_mod_cast (show rounded raw < 2 ^ 31 by omega)
  have hmore : (rounded raw : ℚ) < single.magnitude raw := by
    calc (rounded raw : ℚ) < ((2 ^ 31 : Nat) : ℚ) := hless
      _ = _ := by norm_num [single]
      _ ≤ single.magnitude raw := hge
  exact hmore.ne

/-- Between `2^30` and `2^31` a float is a multiple of 128, and one of them is the
rounding of its bits. -/
theorem rounded_eq_of_middle (h : raw / 2 ^ 23 = 157) :
    (rounded raw : ℚ) = single.magnitude raw ↔ raw = 0x4e9d3a75 := by
  have hsame := field_single (show raw < 2 ^ 31 by omega)
  have hlog : raw.log2 = 30 := by
    rw [Nat.log2_eq_iff (by omega)]
    omega
  have hsignificand : single.significand raw = 2 ^ 23 + raw % 2 ^ 23 := by
    unfold significand
    rw [if_neg (by omega)]
    rfl
  have hexponent : single.exponent raw = (7 : Nat) := by
    unfold exponent
    rw [hsame, h]
    decide
  have hmagnitude : single.magnitude raw = ((2 ^ 23 + raw % 2 ^ 23) * 2 ^ 7 : Nat) := by
    rw [magnitude, hsignificand, hexponent, zpow_natCast]
    push_cast
    rfl
  have hround : rounded raw = Binary64.roundDiv raw 128 * 2 ^ 7 := by
    rw [rounded, hlog]
    rfl
  rw [hmagnitude, hround, Nat.cast_inj, Nat.mul_left_inj (by decide)]
  unfold Binary64.roundDiv
  dsimp only
  split_ifs <;> omega

/-- The finite floats that are the rounding of their bits as an integer: the zero, and
the one float whose value is its own bits, rounded. -/
theorem rounded_eq_value_iff (hraw : raw < 2 ^ 32) (hfinite : single.IsFinite raw) :
    (rounded raw : ℚ) = single.value raw ↔ raw = 0 ∨ raw = 0x4e9d3a75 := by
  by_cases hsign : 2 ^ 31 ≤ raw
  · exact iff_of_false (rounded_ne_of_negative hraw hsign) (by omega)
  have hpos : raw < 2 ^ 31 := by omega
  have hfield : raw / 2 ^ 23 < 255 := by
    have hne : single.field raw ≠ 255 := hfinite
    rw [field_single hpos] at hne
    omega
  rw [value_single hpos]
  by_cases hsub : raw < 2 ^ 23
  · rw [rounded_eq_of_subnormal hsub]
    omega
  by_cases hlow : raw / 2 ^ 23 ≤ 156
  · exact iff_of_false (rounded_ne_of_low (by omega) hlow) (by omega)
  by_cases hmiddle : raw / 2 ^ 23 = 157
  · rw [rounded_eq_of_middle hmiddle]
    omega
  · exact iff_of_false (rounded_ne_of_high (by omega) hfield) (by omega)

end Bits

/-! ## Real objects -/

/-- The format of a real of `2 ^ exponent` bytes. -/
def realFormat (exponent : Nat) : FloatFormat := if exponent = 2 then single else double

/-- The object is a real of four or eight bytes: its marker with the exponent of that
width, and behind it the bits `raw`, with the high byte first. -/
structure Decoder.HoldsReal (decoder : Decoder) (object exponent raw : Nat) : Prop where
  width : exponent = 2 ∨ exponent = 3
  fits : raw < 256 ^ 2 ^ exponent
  bytes : ∃ pre post : Bytes, decoder.offsets[object]? = some pre.length ∧
    decoder.bytes = pre ++ ((kMarkerReal ||| UInt8.ofNat exponent) ::
      beBytes (2 ^ exponent) raw) ++ post

/-- What such an object stands for. -/
theorem Decoder.HoldsReal.denotes {decoder : Decoder} {object exponent raw : Nat}
    (h : decoder.HoldsReal object exponent raw) :
    (decoder.graph readHead).Denotes object (.real (realOf (2 ^ exponent) raw)) := by
  obtain ⟨pre, post, hoffset, hbytes⟩ := h.bytes
  have hexponent : exponent ≤ 3 := by
    have hwidth := h.width
    omega
  have hraw : raw < 2 ^ 64 := by
    calc raw < 256 ^ 2 ^ exponent := h.fits
      _ ≤ 256 ^ 2 ^ 3 :=
        Nat.pow_le_pow_right (by decide) (Nat.pow_le_pow_right (by decide) hexponent)
  have hread := reads_scalar (readKind decoder.refSize) (show kMarkerReal ∈ kinds by decide)
    (f := fun raw => .real (realOf (byteCount (UInt8.ofNat exponent)) raw)) hexponent
    hraw rfl
  rw [byteCount_ofNat (by omega), Nat.mod_eq_of_lt h.fits] at hread
  obtain ⟨hposition, hcount⟩ := Decoder.offsetAt_of_getElem? hoffset
  refine (ObjectGraph.denotes_leaf_iff hcount ?_).mpr rfl
  change decoder.shape readHead object = _
  rw [Decoder.shape, hposition, ok_bind, hbytes]
  have hhead : readHead decoder.refSize _ = _ := hread pre post trivial
  rw [hhead]
  rfl

/-- The real that is read has the value of its bits exactly when they are eight bytes,
or one of two words of four. -/
theorem value_realOf_iff {exponent raw : Nat} (hwidth : exponent = 2 ∨ exponent = 3)
    (hfits : raw < 256 ^ 2 ^ exponent) (hfinite : (realFormat exponent).IsFinite raw) :
    double.value (realOf (2 ^ exponent) raw).toNat = (realFormat exponent).value raw ↔
      exponent = 3 ∨ raw = 0 ∨ raw = 0x4e9d3a75 := by
  have hsingle : realFormat 2 = single := rfl
  have hdouble : realFormat 3 = double := rfl
  rcases hwidth with rfl | rfl
  · have hraw : raw < 2 ^ 32 := by
      norm_num at hfits ⊢
      exact hfits
    have hread : realOf (2 ^ 2) raw = Binary64.ofNatViaFloat raw := by
      rw [realOf, if_neg (by decide), if_pos (by decide)]
    rw [hsingle] at hfinite ⊢
    rw [hread, value_ofNatViaFloat (by omega), rounded_eq_value_iff hraw hfinite]
    omega
  · have hraw : raw < 2 ^ 64 := by
      norm_num at hfits ⊢
      exact hfits
    have hread : realOf (2 ^ 3) raw = UInt64.ofNat raw := by
      rw [realOf, if_pos (by decide)]
    rw [hdouble, hread, UInt64.toNat_ofNat', Nat.mod_eq_of_lt hraw]
    simp

/-- In a file that is parsed, at the place of a finite real of four or eight bytes, is a
real of the value of its bits exactly when it has eight bytes, or its four bytes are
zero or `4e9d3a75`. -/
theorem parseBinary_real_iff {bytes : Bytes} {decoder : Decoder}
    {top target exponent raw : Nat} {root : Plist} {path : List Step}
    (hopen : openBinary bytes = .ok (decoder, top))
    (hparse : parseBinary bytes = .ok root) (hplace : decoder.Leads top path target)
    (hreal : decoder.HoldsReal target exponent raw)
    (hfinite : (realFormat exponent).IsFinite raw) :
    (∃ bits, root.valueAt path = some (.real bits) ∧
        double.value bits.toNat = (realFormat exponent).value raw) ↔
      exponent = 3 ∨ raw = 0 ∨ raw = 0x4e9d3a75 := by
  obtain ⟨found, hfound, hdenotes⟩ :=
    hplace.exists_valueAt (denotes_of_parseBinary hopen hparse)
  have hsame := hdenotes.unique hreal.denotes
  rw [← value_realOf_iff hreal.width hreal.fits hfinite, hfound, hsame]
  constructor
  · intro h
    obtain ⟨bits, hbits, hvalue⟩ := h
    cases hbits
    exact hvalue
  · intro h
    exact ⟨_, rfl, h⟩

/-- A file of an array with one real, of eight bytes. -/
def oneDouble : Bytes :=
  kHeader ++ [0xa1, 1] ++ [0x23] ++ beBytes 8 0x3ff8000000000000 ++ [8, 10] ++
    List.replicate 6 0 ++ [1, 1] ++ beBytes 8 2 ++ beBytes 8 0 ++ beBytes 8 19

theorem parseBinary_real_oneDouble :
    (∃ bits, (Plist.array [.real 0x3ff8000000000000]).valueAt [.item 0] =
          some (.real bits) ∧
        double.value bits.toNat = (realFormat 3).value 0x3ff8000000000000) ↔
      3 = 3 ∨ 0x3ff8000000000000 = 0 ∨ 0x3ff8000000000000 = 0x4e9d3a75 :=
  @parseBinary_real_iff oneDouble ⟨oneDouble, [8, 10], 1⟩ 0 1 3 0x3ff8000000000000 _ _
    rfl rfl (.item ⟨8, 1, _, _, rfl, rfl, rfl⟩ rfl (.here 1))
    ⟨by decide, by decide, oneDouble.take 10, oneDouble.drop 19, rfl, rfl⟩ (by decide)

/-- A file of one real, of the four bytes of the float 1. -/
def oneSingle : Bytes :=
  kHeader ++ [0x22] ++ beBytes 4 0x3f800000 ++ [8] ++ List.replicate 6 0 ++ [1, 1] ++
    beBytes 8 1 ++ beBytes 8 0 ++ beBytes 8 13

/-- It is parsed as the real 1065353216. -/
theorem parseBinary_real_oneSingle :
    ¬ ∀ (bytes : Bytes) (decoder : Decoder) (top target exponent raw : Nat)
      (root : Plist) (path : List Step), openBinary bytes = .ok (decoder, top) →
      parseBinary bytes = .ok root → decoder.Leads top path target →
      decoder.HoldsReal target exponent raw → (realFormat exponent).IsFinite raw →
      ∃ bits, root.valueAt path = some (.real bits) ∧
        double.value bits.toNat = (realFormat exponent).value raw := by
  intro hclaim
  obtain ⟨bits, hbits, hvalue⟩ := hclaim oneSingle ⟨oneSingle, [8], 1⟩ 0 0 2 0x3f800000
    (.real 0x41cfc00000000000) [] rfl rfl (.here 0)
    ⟨by decide, by decide, kHeader, oneSingle.drop 13, rfl, rfl⟩ (by decide)
  cases hbits
  revert hvalue
  decide +kernel

end Ioscpp.Protocol.Plist
