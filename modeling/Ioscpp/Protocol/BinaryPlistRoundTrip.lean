import Ioscpp.Protocol.BinaryPlistObjects

/-!
# The binary round trip

`readHead` speaks the encoder's objects (`speaks_readHead`).  Every leaf but two
kinds is read back as it was.  An integer is read back through a sign extension
that its encoding does not make, and a date through a double; the tree round
trips exactly when those leaves do.

## Main results

- `readBackInt_eq_iff`: which integers are read back as another.
- `speaks_readHead`: the decoder speaks the encoder's objects.
- `parseBinary_toBinary`: the round trip of trees without such leaves.
- `parseBinary_toBinary_iff`: when a tree round trips.
-/

namespace Ioscpp.Protocol.Plist

open Ioscpp.Support
open Ioscpp.Support.Reading

/-! ## Integers -/

/-- A word of fewer than eight bytes is read as a two's complement one. -/
theorem toInt_signExtend {size raw : Nat} (hpos : 0 < size) (hsize : size < 8)
    (hraw : raw < 2 ^ (size * 8)) :
    (signExtend size raw).toInt =
      if raw < 2 ^ (size * 8 - 1) then (raw : Int)
      else raw - 2 ^ (size * 8) := by
  have hdouble : 2 ^ (size * 8) = 2 * 2 ^ (size * 8 - 1) := by
    rw [← pow_succ', Nat.sub_add_cancel (by omega)]
  have hhalf : (2 : Nat) ^ (size * 8 - 1) ≤ 2 ^ 62 :=
    Nat.pow_le_pow_right (by decide) (by omega)
  have hbit : raw &&& (1 <<< (size * 8 - 1)) ≠ 0 ↔
      ¬ raw < 2 ^ (size * 8 - 1) := by
    rw [Nat.one_shiftLeft, Nat.and_two_pow, Nat.testBit_eq_decide_div_mod_eq]
    have hpow : (2 : Nat) ^ (size * 8 - 1) ≠ 0 := by positivity
    by_cases hlt : raw < 2 ^ (size * 8 - 1)
    · simp [Nat.div_eq_of_lt hlt, hlt]
    · have hdiv : raw / 2 ^ (size * 8 - 1) = 1 :=
        Nat.div_eq_of_lt_le (by omega) (by omega)
      simp [hdiv, hlt]
  have hor : raw ||| ((2 ^ 64 - 1) <<< (size * 8)) =
      (2 ^ 64 - 1) * 2 ^ (size * 8) + raw := by
    rw [Nat.or_comm, ← Nat.shiftLeft_add_eq_or_of_lt hraw, Nat.shiftLeft_eq]
  rw [signExtend, hor]
  simp only [hsize, hbit, true_and]
  generalize hx : (2 : Nat) ^ (size * 8 - 1) = x at *
  have hcast : (2 : Int) ^ (size * 8) = 2 * (x : Int) := by
    exact_mod_cast hdouble
  rw [hcast]
  split_ifs with hlt
  · rw [toInt_ofNat]
    split_ifs <;> omega
  · rw [toInt_ofNat]
    split_ifs <;> omega

/-- What is read of an integer's encoding. -/
def readBackInt (value : Int64) : Int64 :=
  signExtend (2 ^ intExponent value)
    (value.toUInt64.toNat % 256 ^ 2 ^ intExponent value)

/-- The integers whose short unsigned encoding has its high bit set. -/
def HighBitInt (value : Int64) : Prop :=
  128 ≤ value.toInt ∧ value.toInt ≤ 255 ∨
    32768 ≤ value.toInt ∧ value.toInt ≤ 65535 ∨
    2147483648 ≤ value.toInt ∧ value.toInt ≤ 4294967295

/-- An integer is read back as itself exactly when its short encoding has not its high
bit set: only those are taken for negative numbers. -/
theorem readBackInt_eq_iff (value : Int64) :
    readBackInt value = value ↔ ¬ HighBitInt value := by
  have hword := toInt_eq value
  have hlt := value.toUInt64.toNat_lt
  have hexp := intExponent_eq value
  rw [← Int64.toInt_inj, readBackInt, HighBitInt]
  by_cases h3 : intExponent value = 3
  · have hraw : value.toUInt64.toNat % 256 ^ 2 ^ 3 = value.toUInt64.toNat :=
      Nat.mod_eq_of_lt (by norm_num; omega)
    have hback : signExtend (2 ^ 3) value.toUInt64.toNat = value := by
      simp [signExtend]
    rw [h3] at hexp ⊢
    rw [hraw, hback]
    simp only [true_iff]
    split_ifs at hexp <;> omega
  · have hle := intExponent_le value
    rw [toInt_signExtend (by positivity) (by
        have : intExponent value ≤ 2 := by omega
        calc 2 ^ intExponent value ≤ 2 ^ 2 := Nat.pow_le_pow_right (by decide) this
          _ < 8 := by decide)
      (by
        rw [Nat.mul_comm, pow_mul]
        exact Nat.mod_lt _ (by positivity))]
    split_ifs at hexp hword with h0 h1 h2 h4 <;> rw [hexp] <;>
      norm_num <;> split_ifs <;> omega

/-! ## Counts -/

theorem readsCounts_readCount : ReadsCounts readCount := by
  intro marker length h
  rcases appendCount_form marker h with
    ⟨hsmall, hform⟩ | ⟨hlarge, exponent, hexp, hfits, hform⟩
  · refine ⟨length, [], by omega, hform, ?_⟩
    have hne : UInt8.ofNat length ≠ kMarkerCountFollows := by
      intro heq
      have hnat := congrArg UInt8.toNat heq
      rw [UInt8.toNat_ofNat', Nat.mod_eq_of_lt (by omega)] at hnat
      exact absurd hnat (by change length ≠ 15; omega)
    have hlength : (UInt8.ofNat length).toNat = length := by
      rw [UInt8.toNat_ofNat']
      exact Nat.mod_eq_of_lt (by omega)
    rw [readCount, if_pos hne, hlength]
    exact .pure length
  · refine ⟨15, _, by decide, hform, ?_⟩
    have hnibble := (marker_nibbles kMarkerInt (by decide) exponent
      (by omega)).2.1
    have hread := reads_readUint hexp (show length < 2 ^ 64 by omega)
    rw [Nat.mod_eq_of_lt hfits] at hread
    rw [readCount, if_neg (by decide), ← List.singleton_append]
    refine Reads.bind (A := fun _ => True) (B := fun _ => True)
      (reads_byte _ _) ?_ fun _ _ => trivial
    rw [UInt8.ofNat_toNat, hnibble]
    exact hread

/-! ## Leaves -/

/-- What a leaf is read back as. -/
def readBack : Plist → Plist
  | integer value => integer (readBackInt value)
  | date seconds => date (Binary64.toInt64 (Binary64.ofInt64 seconds))
  | value => value

theorem reads_integer (refSize : Nat) (value : Int64) :
    Reads (fun _ => True) (readHead refSize) (leafBytes (.integer value))
      (.leaf (.integer (readBackInt value))) := by
  have hexp := intExponent_le value
  change Reads _ _ (appendInt [] value) _
  have h := reads_scalar (readKind refSize) (show kMarkerInt ∈ kinds by decide)
    (f := fun raw => .integer (signExtend
      (byteCount (UInt8.ofNat (intExponent value))) raw)) hexp
    value.toUInt64.toNat_lt rfl
  rw [byteCount_ofNat (by omega)] at h
  rw [appendInt_eq_cons, readBackInt]
  exact h

theorem reads_real (refSize : Nat) (bits : UInt64) :
    Reads (fun _ => True) (readHead refSize) (leafBytes (.real bits))
      (.leaf (.real bits)) := by
  have h := reads_scalar_eight (readKind refSize)
    (show kMarkerReal ∈ kinds by decide) bits
    (f := fun raw => .real (realOf 8 raw)) rfl
  have hbits : realOf 8 bits.toNat = bits := UInt64.ofNat_toNat
  rw [hbits] at h
  exact h

theorem reads_date (refSize : Nat) (seconds : Int64) :
    Reads (fun _ => True) (readHead refSize) (leafBytes (.date seconds))
      (.leaf (.date (Binary64.toInt64 (Binary64.ofInt64 seconds)))) := by
  have h := reads_scalar_eight (readKind refSize)
    (show kMarkerDate ∈ kinds by decide) (Binary64.ofInt64 seconds)
    (f := fun raw => .date (Binary64.toInt64 (UInt64.ofNat raw))) rfl
  rw [UInt64.ofNat_toNat] at h
  exact h

/-- A leaf is read back. -/
theorem reads_leafBytes (refSize : Nat) {value : Plist} (hleaf : value.IsLeaf)
    (hfits : FitsVector (leafBytes value)) :
    Reads (fun _ => True) (readHead refSize) (leafBytes value)
      (.leaf (readBack value)) := by
  have hbytes : FitsVector ([] ++ leafBytes value ++ []) := by
    simpa using hfits
  cases value with
  | null => exact reads_single _ fun _ => rfl
  | boolean value =>
      cases value with
      | false => exact reads_single _ fun _ => rfl
      | true => exact reads_single _ fun _ => rfl
  | integer value => exact reads_integer refSize value
  | real bits => exact reads_real refSize bits
  | string text =>
      exact reads_counted _ readsCounts_readCount (by decide) (fun _ => rfl)
        (length_lt_of_fitsVector hbytes)
  | data bytes =>
      exact reads_counted _ readsCounts_readCount (by decide) (fun _ => rfl)
        (length_lt_of_fitsVector hbytes)
  | date seconds => exact reads_date refSize seconds
  | array items => exact hleaf.elim
  | dictionary entries => exact hleaf.elim
  | uid index => exact reads_uid _ (fun _ => rfl) index

/-- The decoder speaks the encoder's objects. -/
theorem speaks_readHead : Speaks readHead (fun value => some (readBack value)) where
  leaf := by
    intro refSize value other pre post hleaf hfits hother
    cases hother
    have hsize : FitsVector (leafBytes value) := by
      unfold FitsVector at hfits ⊢
      simp only [List.length_append] at hfits
      omega
    exact ⟨_, reads_leafBytes refSize hleaf hsize pre post trivial⟩
  refused := by
    intro refSize value pre post hleaf hfits hnone
    cases hnone
  array := fun hpos hfits hpost =>
    readMarked_container readsCounts_readCount (by decide) (fun _ => rfl) hpos hfits hpost
  dictionary := fun hpos hfits hpost =>
    readMarked_container readsCounts_readCount (by decide) (fun _ => rfl) (by omega) hfits hpost
  string := by
    intro text other hother
    cases hother
    rfl

/-! ## The round trip -/

/-- A tree round-trips exactly when each of its leaves is read back as itself. -/
theorem parseBinary_toBinary_leaves {value : Plist} (hwell : value.WellFormed)
    (hfits : FitsVector (toBinary value)) :
    parseBinary (toBinary value) = .ok value ↔
      value.AllLeaves fun leaf => readBack leaf = leaf := by
  rw [parseBinary_eq_unfold, unfoldBinary_toBinary_iff speaks_readHead hwell hfits]
  simp only [Option.some.injEq]

/-- The leaves whose encoding holds them whole: all but the integers, which are
shortened, and the dates, which are written as doubles. -/
def IsExact : Plist → Prop
  | null | boolean _ | real _ | string _ | data _ | uid _ => True
  | _ => False

theorem readBack_of_isExact {leaf : Plist} (h : leaf.IsExact) :
    readBack leaf = leaf := by
  cases leaf <;> first
    | exact h.elim
    | rfl

/-- A tree without integers and dates round-trips, whatever its size and nesting: its
null, boolean, real, string, data and uid leaves are read back as they were, and so are
the containers with their order and their keys. -/
theorem parseBinary_toBinary {value : Plist} (hwell : value.WellFormed)
    (hleaves : value.AllLeaves IsExact) (hfits : FitsVector (toBinary value)) :
    parseBinary (toBinary value) = .ok value :=
  (parseBinary_toBinary_leaves hwell hfits).mpr
    (hleaves.imp fun _ => readBack_of_isExact)

theorem parseBinary_toBinary_nested :
    parseBinary (toBinary (.dictionary [([], .array [.null, .uid 70000]),
      (ascii "k", .real 0x7ff8000000000001)])) =
      .ok (.dictionary [([], .array [.null, .uid 70000]),
        (ascii "k", .real 0x7ff8000000000001)]) :=
  parseBinary_toBinary
    (.dictionary (by decide) (by
      simp only [List.mem_cons, List.not_mem_nil, or_false, forall_eq_or_imp,
        forall_eq, wellFormed_array]
      exact ⟨⟨.leaf trivial, .leaf trivial⟩, .leaf trivial⟩))
    (.dictionary (fun _ _ => trivial) (by
      simp only [List.mem_cons, List.not_mem_nil, or_false, forall_eq_or_imp,
        forall_eq, allLeaves_array]
      exact ⟨⟨.leaf trivial trivial, .leaf trivial trivial⟩,
        .leaf trivial trivial⟩))
    (by unfold FitsVector; decide)

/-- A leaf that the round trip gives back: not an integer whose short encoding
has its high bit set, nor a date that its double does not hold. -/
def RoundTrips : Plist → Prop
  | integer value => ¬ HighBitInt value
  | date seconds =>
      Binary64.toInt64 (Binary64.ofInt64 seconds) = seconds
  | _ => True

theorem readBack_eq_iff (value : Plist) :
    readBack value = value ↔ value.RoundTrips := by
  cases value <;> simp [readBack, RoundTrips, readBackInt_eq_iff]

/-- A tree round-trips exactly when each of its integers and dates does: no integer is
of the kind whose short encoding has its high bit set, and each date is a number of
seconds that a double holds. -/
theorem parseBinary_toBinary_iff {value : Plist} (hwell : value.WellFormed)
    (hfits : FitsVector (toBinary value)) :
    parseBinary (toBinary value) = .ok value ↔ value.AllLeaves RoundTrips := by
  rw [parseBinary_toBinary_leaves hwell hfits]
  simp only [readBack_eq_iff]

theorem parseBinary_toBinary_iff_array :
    parseBinary (toBinary (.array [.integer 127, .integer (-200)])) =
      .ok (.array [.integer 127, .integer (-200)]) :=
  (parseBinary_toBinary_iff
    (.array (by
      simp only [List.mem_cons, List.not_mem_nil, or_false, forall_eq_or_imp,
        forall_eq]
      exact ⟨.leaf trivial, .leaf trivial⟩))
    (by unfold FitsVector; decide)).mpr
    (.array (by
      simp only [List.mem_cons, List.not_mem_nil, or_false, forall_eq_or_imp,
        forall_eq]
      exact ⟨.leaf trivial (by unfold RoundTrips HighBitInt; decide),
        .leaf trivial (by unfold RoundTrips HighBitInt; decide)⟩))

/-- The integer 128 is written as the byte 80, which is read as -128. -/
theorem parseBinary_toBinary_128 :
    parseBinary (toBinary (.integer 128)) = .ok (.integer (-128)) ∧
      Plist.integer (-128) ≠ .integer 128 :=
  ⟨rfl, by simp⟩

end Ioscpp.Protocol.Plist
