import Ioscpp.Support.Binary64

/-!
# Integers as doubles

An integer of at most 53 bits is a double, so rounding its ratio loses nothing:
the significand is the integer, shifted until it has 53 bits.

## Main results

- `toNat_ofRatio`: the pattern of an integer below `2^53`.
- `eq_ofRatio_of_integer`: a double that is such an integer is the double nearest to
  it, with its sign.
-/

namespace Ioscpp.Support.Binary64

variable {value den : Nat}

theorem scale_of_nonpos {num den : Nat} {exponent : Int} (h : exponent ≤ 0) :
    scale num den exponent = (num * 2 ^ (-exponent).toNat, den) := by
  unfold scale
  by_cases hzero : 0 ≤ exponent
  · have heq : exponent = 0 := by omega
    rw [if_pos hzero, heq]
    simp
  · rw [if_neg hzero]

/-- The last place of an integer is that of its leading bit, less 52. -/
theorem lastPlace_of_integer (hpos : 0 < value) (hlt : value < 2 ^ 53)
    (hden : 0 < den) :
    lastPlace 53 (-1074) (value * den) den = (value.log2 : Int) - 52 := by
  have hlog : value.log2 < 53 := (Nat.log2_lt hpos.ne').mpr hlt
  have hlow : 2 ^ value.log2 ≤ value := Nat.log2_self_le hpos.ne'
  have hhigh : value < 2 ^ (value.log2 + 1) := Nat.lt_log2_self
  have hprod : value * den ≠ 0 := Nat.mul_ne_zero hpos.ne' hden.ne'
  have hprodLow : value.log2 + den.log2 ≤ (value * den).log2 := by
    rw [Nat.le_log2 hprod, Nat.pow_add]
    exact Nat.mul_le_mul hlow (Nat.log2_self_le hden.ne')
  have hprodHigh : (value * den).log2 < value.log2 + den.log2 + 2 := by
    rw [Nat.log2_lt hprod]
    calc value * den < 2 ^ (value.log2 + 1) * 2 ^ (den.log2 + 1) :=
          Nat.mul_lt_mul'' hhigh Nat.lt_log2_self
      _ = 2 ^ (value.log2 + den.log2 + 2) := by ring
  -- the product has the bits of the two factors together, or one more
  have hcases : (value * den).log2 = value.log2 + den.log2 ∨
      (value * den).log2 = value.log2 + den.log2 + 1 := by
    omega
  unfold lastPlace
  dsimp only
  rw [scale_of_nonpos (by omega)]
  dsimp only
  have hquot : ∀ shift, value * den * 2 ^ shift / den = value * 2 ^ shift := by
    intro shift
    rw [Nat.mul_right_comm, Nat.mul_div_cancel _ hden]
  rw [hquot]
  rcases hcases with heq | heq
  · have hshift : (-(((value * den).log2 : Int) - den.log2 - (53 : Nat))).toNat =
        53 - value.log2 := by
      omega
    have hge : 2 ^ 53 ≤ value * 2 ^ (53 - value.log2) := by
      calc 2 ^ 53 = 2 ^ value.log2 * 2 ^ (53 - value.log2) := by
            rw [← Nat.pow_add]
            congr 1
            omega
        _ ≤ value * 2 ^ (53 - value.log2) := Nat.mul_le_mul_right _ hlow
    rw [hshift, if_pos hge]
    omega
  · have hshift : (-(((value * den).log2 : Int) - den.log2 - (53 : Nat))).toNat =
        52 - value.log2 := by
      omega
    have hless : ¬ 2 ^ 53 ≤ value * 2 ^ (52 - value.log2) := by
      have hbound : value * 2 ^ (52 - value.log2) < 2 ^ 53 := by
        calc value * 2 ^ (52 - value.log2)
            < 2 ^ (value.log2 + 1) * 2 ^ (52 - value.log2) :=
              Nat.mul_lt_mul_of_pos_right hhigh (by positivity)
          _ = 2 ^ 53 := by
              rw [← Nat.pow_add]
              congr 1
              omega
      omega
    rw [hshift, if_neg hless]
    omega

theorem roundDiv_mul (hden : 0 < den) : roundDiv (value * den) den = value := by
  unfold roundDiv
  rw [Nat.mul_mod_left, Nat.mul_div_cancel _ hden]
  simp [hden]

/-- The significand of an integer is the integer, shifted to 53 bits. -/
theorem nearest_of_integer (hpos : 0 < value) (hlt : value < 2 ^ 53)
    (hden : 0 < den) :
    nearest 53 (-1074) (value * den) den =
      (value * 2 ^ (52 - value.log2), (value.log2 : Int) - 52) := by
  have hlog : value.log2 < 53 := (Nat.log2_lt hpos.ne').mpr hlt
  have hshift : (-((value.log2 : Int) - 52)).toNat = 52 - value.log2 := by omega
  unfold nearest
  rw [lastPlace_of_integer hpos hlt hden]
  dsimp only
  rw [scale_of_nonpos (by omega), hshift]
  dsimp only
  rw [Nat.mul_right_comm, roundDiv_mul hden]

/-- The shifted integer has 53 bits. -/
theorem shifted_bounds (hpos : 0 < value) (hlt : value < 2 ^ 53) :
    2 ^ 52 ≤ value * 2 ^ (52 - value.log2) ∧
      value * 2 ^ (52 - value.log2) < 2 ^ 53 := by
  have hlog : value.log2 < 53 := (Nat.log2_lt hpos.ne').mpr hlt
  constructor
  · calc 2 ^ 52 = 2 ^ value.log2 * 2 ^ (52 - value.log2) := by
          rw [← Nat.pow_add]
          congr 1
          omega
      _ ≤ value * 2 ^ (52 - value.log2) :=
          Nat.mul_le_mul_right _ (Nat.log2_self_le hpos.ne')
  · calc value * 2 ^ (52 - value.log2)
        < 2 ^ (value.log2 + 1) * 2 ^ (52 - value.log2) :=
          Nat.mul_lt_mul_of_pos_right Nat.lt_log2_self (by positivity)
      _ = 2 ^ 53 := by
          rw [← Nat.pow_add]
          congr 1
          omega

/-- The pattern of an integer. -/
theorem toNat_ofRatio (negative : Bool) (hpos : 0 < value) (hlt : value < 2 ^ 53)
    (hden : 0 < den) :
    (ofRatio negative (value * den) den).toNat =
      signBit negative + ((value.log2 + 1022) * 2 ^ 52 +
        value * 2 ^ (52 - value.log2)) := by
  have hlog : value.log2 < 53 := (Nat.log2_lt hpos.ne').mpr hlt
  have hbounds := shifted_bounds hpos hlt
  have hsign : signBit negative ≤ 2 ^ 63 := by cases negative <;> decide
  have hfield : ((value.log2 : Int) - 52 + 1074).toNat = value.log2 + 1022 := by
    omega
  unfold ofRatio
  rw [if_neg (Nat.mul_ne_zero hpos.ne' hden.ne'),
    nearest_of_integer hpos hlt hden]
  dsimp only
  rw [hfield, Nat.min_eq_left (by unfold infinity; omega), UInt64.toNat_ofNat']
  apply Nat.mod_eq_of_lt
  omega

section Fields

variable (negative : Bool) (hpos : 0 < value) (hlt : value < 2 ^ 53)
  (hden : 0 < den)

include hpos hlt hden

theorem exponentField_ofRatio :
    exponentField (ofRatio negative (value * den) den) = value.log2 + 1023 := by
  have hlog : value.log2 < 53 := (Nat.log2_lt hpos.ne').mpr hlt
  have hbounds := shifted_bounds hpos hlt
  unfold exponentField
  rw [toNat_ofRatio negative hpos hlt hden]
  cases negative
  · show (0 + _) / 2 ^ 52 % 2 ^ 11 = _
    omega
  · show (2 ^ 63 + _) / 2 ^ 52 % 2 ^ 11 = _
    omega

theorem exponent_ofRatio :
    exponent (ofRatio negative (value * den) den) = (value.log2 : Int) - 52 := by
  unfold exponent
  rw [exponentField_ofRatio negative hpos hlt hden]
  omega

theorem significand_ofRatio :
    significand (ofRatio negative (value * den) den) =
      value * 2 ^ (52 - value.log2) := by
  have hbounds := shifted_bounds hpos hlt
  have hmod : (ofRatio negative (value * den) den).toNat % 2 ^ 52 =
      value * 2 ^ (52 - value.log2) - 2 ^ 52 := by
    rw [toNat_ofRatio negative hpos hlt hden]
    cases negative
    · show (0 + _) % 2 ^ 52 = _
      omega
    · show (2 ^ 63 + _) % 2 ^ 52 = _
      omega
  unfold significand
  rw [exponentField_ofRatio negative hpos hlt hden, hmod, if_neg (by omega)]
  omega

theorem isNegative_ofRatio :
    isNegative (ofRatio negative (value * den) den) = negative := by
  have hlog : value.log2 < 53 := (Nat.log2_lt hpos.ne').mpr hlt
  have hbounds := shifted_bounds hpos hlt
  unfold isNegative
  rw [toNat_ofRatio negative hpos hlt hden]
  cases negative
  · apply decide_eq_false
    show ¬ 2 ^ 63 ≤ 0 + _
    omega
  · apply decide_eq_true
    show 2 ^ 63 ≤ 2 ^ 63 + _
    omega

/-- The number that the fields of an integer's pattern denote is the integer. -/
theorem scale_ofRatio :
    let bits := ofRatio negative (value * den) den
    let scaled := scale (significand bits) 1 (-exponent bits)
    scaled.1 / scaled.2 = value := by
  have hlog : value.log2 < 53 := (Nat.log2_lt hpos.ne').mpr hlt
  dsimp only
  rw [significand_ofRatio negative hpos hlt hden,
    exponent_ofRatio negative hpos hlt hden, scale, if_pos (by omega)]
  have hshift : (-((value.log2 : Int) - 52)).toNat = 52 - value.log2 := by omega
  dsimp only
  rw [hshift, Nat.one_mul, Nat.mul_div_cancel _ (by positivity)]

end Fields

/-! ## Doubles that are integers -/

theorem toNat_ofRatio_zero (negative : Bool) :
    (ofRatio negative 0 1).toNat = signBit negative := by
  cases negative <;> rfl

theorem signBit_isNegative (bits : UInt64) :
    signBit (isNegative bits) = bits.toNat / 2 ^ 63 * 2 ^ 63 := by
  have hbits : bits.toNat < 2 ^ 64 := bits.toNat_lt
  by_cases h : 2 ^ 63 ≤ bits.toNat
  · rw [show isNegative bits = true from decide_eq_true h, signBit, if_pos rfl]
    omega
  · rw [show isNegative bits = false from decide_eq_false h, signBit,
      if_neg Bool.false_ne_true]
    omega

/-- A pattern is its sign, its exponent field and its fraction. -/
theorem toNat_fields (bits : UInt64) :
    bits.toNat = signBit (isNegative bits) + exponentField bits * 2 ^ 52 +
      bits.toNat % 2 ^ 52 := by
  rw [signBit_isNegative]
  unfold exponentField
  omega

/-- A number that a shift takes to 53 bits lacks as many. -/
theorem log2_of_shifted {shift : Nat} (hlow : 2 ^ 52 ≤ value * 2 ^ shift)
    (hhigh : value * 2 ^ shift < 2 ^ 53) : value.log2 + shift = 52 := by
  have hpos : value ≠ 0 := by
    intro hzero
    rw [hzero, Nat.zero_mul] at hlow
    omega
  have hless : 2 ^ (value.log2 + shift) < 2 ^ 53 := by
    calc 2 ^ (value.log2 + shift) = 2 ^ value.log2 * 2 ^ shift := Nat.pow_add ..
      _ ≤ value * 2 ^ shift := Nat.mul_le_mul_right _ (Nat.log2_self_le hpos)
      _ < 2 ^ 53 := hhigh
  have hmore : 2 ^ 52 < 2 ^ (value.log2 + 1 + shift) := by
    calc 2 ^ 52 ≤ value * 2 ^ shift := hlow
      _ < 2 ^ (value.log2 + 1) * 2 ^ shift :=
        Nat.mul_lt_mul_of_pos_right Nat.lt_log2_self (by positivity)
      _ = 2 ^ (value.log2 + 1 + shift) := (Nat.pow_add ..).symm
  have hlt := (Nat.pow_lt_pow_iff_right (by decide : 1 < 2)).mp hless
  have hgt := (Nat.pow_lt_pow_iff_right (by decide : 1 < 2)).mp hmore
  omega

/-- A subnormal number that is an integer is zero. -/
theorem eq_zero_of_subnormal {bits : UInt64}
    (hsub : exponentField bits = 0)
    (hscale : scale (significand bits) 1 (-exponent bits) = (value * den, den)) :
    value = 0 ∧ bits.toNat % 2 ^ 52 = 0 := by
  have hfraction : bits.toNat % 2 ^ 52 < 2 ^ 52 := Nat.mod_lt _ (by decide)
  unfold scale exponent significand at hscale
  rw [if_pos hsub, if_pos (by omega), hsub] at hscale
  obtain ⟨hnum, hden⟩ := Prod.mk.inj hscale
  have hbig : 2 ^ 52 ≤ den := by
    rw [← hden, Nat.one_mul]
    exact Nat.pow_le_pow_right (by decide) (by decide)
  have hzero : value = 0 := by
    by_contra hne
    have hle : 1 * den ≤ value * den :=
      Nat.mul_le_mul_right _ (Nat.one_le_iff_ne_zero.mpr hne)
    clear hscale hden
    omega
  rw [hzero, Nat.zero_mul] at hnum
  exact ⟨hzero, hnum⟩

/-- Of a normal number that is an integer below `2^53`, the significand is the
integer, shifted by what its exponent lacks. -/
theorem shifted_of_normal {bits : UInt64} (hvalue : value < 2 ^ 53)
    (hnormal : exponentField bits ≠ 0)
    (hscale : scale (significand bits) 1 (-exponent bits) = (value * den, den)) :
    exponentField bits ≤ 1075 ∧
      2 ^ 52 + bits.toNat % 2 ^ 52 = value * 2 ^ (1075 - exponentField bits) := by
  unfold scale exponent significand at hscale
  rw [if_neg hnormal] at hscale
  have hmax : max (exponentField bits) 1 = exponentField bits := by omega
  rw [hmax] at hscale
  by_cases hbig : 1075 < exponentField bits
  · -- beyond the significand's bits an integer is at least `2^53`
    rw [if_neg (by omega)] at hscale
    obtain ⟨hnum, hden⟩ := Prod.mk.inj hscale
    rw [← hden, Nat.mul_one] at hnum
    have hpow : 2 ^ 1 ≤ 2 ^ (- -((exponentField bits : Int) - 1075)).toNat :=
      Nat.pow_le_pow_right (by decide) (by omega)
    have hle := Nat.mul_le_mul (Nat.le_add_right (2 ^ 52) (bits.toNat % 2 ^ 52)) hpow
    omega
  · rw [if_pos (by omega)] at hscale
    obtain ⟨hnum, hden⟩ := Prod.mk.inj hscale
    have hshift : (-((exponentField bits : Int) - 1075)).toNat =
        1075 - exponentField bits := by
      omega
    rw [hshift, Nat.one_mul] at hden
    rw [hden]
    exact ⟨by omega, hnum⟩

/-- A double that is an integer below `2^53` is the double nearest to it, with its
sign. -/
theorem eq_ofRatio_of_integer {bits : UInt64} (hvalue : value < 2 ^ 53)
    (hscale : scale (significand bits) 1 (-exponent bits) = (value * den, den)) :
    bits = ofRatio (isNegative bits) value 1 := by
  have hfields := toNat_fields bits
  apply UInt64.toNat_inj.mp
  by_cases hsub : exponentField bits = 0
  · obtain ⟨hzero, hfraction⟩ := eq_zero_of_subnormal hsub hscale
    rw [hsub, hfraction] at hfields
    rw [hzero, toNat_ofRatio_zero]
    exact hfields
  · obtain ⟨hfield, hshifted⟩ := shifted_of_normal hvalue hsub hscale
    have hfraction : bits.toNat % 2 ^ 52 < 2 ^ 52 := Nat.mod_lt _ (by decide)
    have hpos : 0 < value := by
      apply Nat.pos_of_ne_zero
      intro hzero
      rw [hzero, Nat.zero_mul] at hshifted
      omega
    have hlog := @log2_of_shifted value (1075 - exponentField bits) (by omega)
      (by omega)
    have hback : 52 - value.log2 = 1075 - exponentField bits := by omega
    have hplace : (value.log2 + 1022) * 2 ^ 52 + 2 ^ 52 =
        exponentField bits * 2 ^ 52 := by
      rw [← Nat.succ_mul]
      congr 1
      omega
    have hpattern := toNat_ofRatio (isNegative bits) hpos hvalue Nat.one_pos
    rw [Nat.mul_one] at hpattern
    rw [hpattern, hback, ← hshifted]
    omega

end Ioscpp.Support.Binary64
