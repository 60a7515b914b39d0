import Ioscpp.Support.Bytes

/-!
# Signed words without overflow

A sum, difference or product of signed 64-bit words that fits in one is that of the
integers.  Division truncates; a program that wants the floor of a negative number
shifts the number down first.

## Main results

- `toInt_floorDiv`: the two ways to divide, for the two signs, are one division
  rounded down.
-/

namespace Ioscpp.Support

/-- The integers of a signed 64-bit word. -/
def FitsInt64 (x : Int) : Prop := -2 ^ 63 ≤ x ∧ x < 2 ^ 63

theorem bmod_of_fits {x : Int} (h : FitsInt64 x) : x.bmod (2 ^ 64) = x :=
  Int.bmod_eq_of_le (by simpa using h.1) (by simpa using h.2)

section Arithmetic

variable {x y : Int64}

theorem toInt_add_eq {a b : Int} (hx : x.toInt = a) (hy : y.toInt = b)
    (h : FitsInt64 (a + b)) : (x + y).toInt = a + b := by
  rw [Int64.toInt_add, hx, hy, bmod_of_fits h]

theorem toInt_sub_eq {a b : Int} (hx : x.toInt = a) (hy : y.toInt = b)
    (h : FitsInt64 (a - b)) : (x - y).toInt = a - b := by
  rw [Int64.toInt_sub, hx, hy, bmod_of_fits h]

theorem toInt_mul_eq {a b : Int} (hx : x.toInt = a) (hy : y.toInt = b)
    (h : FitsInt64 (a * b)) : (x * y).toInt = a * b := by
  rw [Int64.toInt_mul, hx, hy, bmod_of_fits h]

/-- A negative number that is shifted down by one less than the divisor is rounded
down. -/
theorem tdiv_shifted {n d : Int} (hn : n < 0) (hd : 0 < d) :
    (n - (d - 1)).tdiv d = n / d := by
  have hrem := Int.emod_lt_of_pos n hd
  have hnonneg := Int.emod_nonneg n hd.ne'
  have hsplit := Int.emod_add_mul_ediv n d
  have hneg : n - (d - 1) = -(d - 1 - n % d + d * -(n / d)) := by
    rw [Int.mul_neg]
    omega
  have hquot : (d - 1 - n % d + d * -(n / d)) / d = -(n / d) := by
    rw [Int.add_mul_ediv_left _ _ hd.ne', Int.ediv_eq_zero_of_lt (by omega) (by omega),
      Int.zero_add]
  have hpos : 0 ≤ d - 1 - n % d + d * -(n / d) := by omega
  rw [hneg, Int.neg_tdiv, Int.tdiv_eq_ediv_of_nonneg hpos, hquot, Int.neg_neg]

theorem ne_neg_one (hy : 1 < y.toInt) : y ≠ -1 := by
  intro heq
  rw [heq] at hy
  exact absurd hy (by decide)

/-- The two ways to divide, for the two signs, are one division rounded down. -/
theorem toInt_floorDiv {a d : Int} (hx : x.toInt = a) (hy : y.toInt = d) (hd : 1 < d)
    (hfits : FitsInt64 (a - (d - 1))) :
    ((if 0 ≤ x then x else x - (y - 1)) / y).toInt = a / d := by
  rw [Int64.toInt_div_of_ne_right _ _ (ne_neg_one (hy ▸ hd)), hy]
  by_cases hsign : 0 ≤ x
  · have hpos : 0 ≤ x.toInt := Int64.le_iff_toInt_le.mp hsign
    rw [if_pos hsign, hx, Int.tdiv_eq_ediv_of_nonneg (hx ▸ hpos)]
  · have hneg : a < 0 := by
      rw [Int64.le_iff_toInt_le, hx] at hsign
      exact Int.not_le.mp hsign
    have hone : (1 : Int64).toInt = 1 := rfl
    have hyle := y.toInt_lt
    have hless : (y - 1).toInt = d - 1 := toInt_sub_eq hy hone ⟨by omega, by omega⟩
    rw [if_neg hsign, toInt_sub_eq hx hless hfits, tdiv_shifted hneg (by omega)]

theorem toInt_div_of_nonneg {a d : Int} (hx : x.toInt = a) (hy : y.toInt = d)
    (ha : 0 ≤ a) (hd : 1 < d) : (x / y).toInt = a / d := by
  rw [Int64.toInt_div_of_ne_right _ _ (ne_neg_one (hy ▸ hd)), hx, hy,
    Int.tdiv_eq_ediv_of_nonneg ha]

theorem toInt_mod_of_nonneg {a d : Int} (hx : x.toInt = a) (hy : y.toInt = d)
    (ha : 0 ≤ a) : (x % y).toInt = a % d := by
  rw [Int64.toInt_mod, hx, hy, Int.tmod_eq_emod_of_nonneg ha]

end Arithmetic

/-- The low half of a word that is not negative. -/
theorem toNat_low {x : Int64} {a : Int} (hx : x.toInt = a) (hpos : 0 ≤ a)
    (hlt : a < 2 ^ 32) : (x.toUInt64.toUInt32.toNat : Int) = a := by
  have hle : 0 ≤ x := Int64.le_iff_toInt_le.mpr (hx ▸ hpos)
  have hword : x.toUInt64.toNat = x.toInt.toNat := Int64.toNat_toUInt64_of_le hle
  rw [UInt64.toNat_toUInt32, hword, hx]
  omega

theorem toInt_widen (x : UInt32) : x.toUInt64.toInt64.toInt = x.toNat := by
  have hlt := x.toNat_lt
  show x.toUInt64.toBitVec.toInt = x.toNat
  rw [BitVec.toInt_eq_toNat_of_lt]
  · show ((x.toUInt64.toNat : Nat) : Int) = x.toNat
    rw [UInt32.toNat_toUInt64]
  · show 2 * x.toUInt64.toNat < 2 ^ 64
    rw [UInt32.toNat_toUInt64]
    omega

end Ioscpp.Support
