import Ioscpp.Support.Binary64Integers

/-!
# The values of floating-point words

A word of a binary format is a sign, an exponent field and a fraction.  Unless the
field is all ones, it stands for a rational number: the significand, with a hidden bit
where the field is not zero, times a power of two.

## Main results

- `magnitude_lt`, `le_magnitude`: the values of words by their exponent fields.
- `ofNatViaFloat_eq`: the conversion to single and back to double is a rounding.
- `value_ofNatViaFloat`: the value of an integer that is converted.
-/

namespace Ioscpp.Support

/-- The widths of the fraction and of the exponent field. -/
structure FloatFormat where
  fractionBits : Nat
  exponentBits : Nat

namespace FloatFormat

def single : FloatFormat := ⟨23, 8⟩

def double : FloatFormat := ⟨52, 11⟩

variable (format : FloatFormat) (word : Nat)

/-- The exponent field of a word. -/
def field : Nat := word / 2 ^ format.fractionBits % 2 ^ format.exponentBits

/-- The sign bit of a word. -/
def IsNegative : Prop := word / 2 ^ (format.fractionBits + format.exponentBits) % 2 = 1

instance : Decidable (format.IsNegative word) :=
  inferInstanceAs (Decidable (_ = _))

/-- The word is neither an infinity nor not a number. -/
def IsFinite : Prop := format.field word ≠ 2 ^ format.exponentBits - 1

instance : Decidable (format.IsFinite word) := inferInstanceAs (Decidable (_ ≠ _))

/-- The significand, its hidden bit included. -/
def significand : Nat :=
  let fraction := word % 2 ^ format.fractionBits
  if format.field word = 0 then fraction else 2 ^ format.fractionBits + fraction

/-- The exponent of the last place of a word. -/
def exponent : Int :=
  (max (format.field word) 1 : Nat) - (2 ^ (format.exponentBits - 1) - 1 : Nat) -
    format.fractionBits

def magnitude : ℚ := format.significand word * 2 ^ format.exponent word

/-- The number that a finite word stands for. -/
def value : ℚ :=
  if format.IsNegative word then -format.magnitude word else format.magnitude word

/-! ## Bounds -/

section Bounds

variable {format : FloatFormat} {word : Nat} {field : Nat}

theorem magnitude_nonneg : 0 ≤ format.magnitude word := by
  unfold magnitude
  positivity

theorem significand_lt : format.significand word < 2 ^ (format.fractionBits + 1) := by
  have hfraction : word % 2 ^ format.fractionBits < 2 ^ format.fractionBits :=
    Nat.mod_lt _ (by positivity)
  have hdouble : 2 ^ (format.fractionBits + 1) = 2 * 2 ^ format.fractionBits :=
    Nat.pow_succ'
  unfold significand
  dsimp only
  split <;> omega

/-- What is smaller than the words of a higher field. -/
theorem magnitude_lt (hpos : 1 ≤ field) (h : format.field word ≤ field) :
    format.magnitude word < 2 ^ (format.fractionBits + 1) *
      2 ^ ((field : Int) - (2 ^ (format.exponentBits - 1) - 1 : Nat) -
        format.fractionBits) := by
  have hsignificand : (format.significand word : ℚ) < 2 ^ (format.fractionBits + 1) := by
    exact_mod_cast significand_lt
  have hexponent : format.exponent word ≤
      (field : Int) - (2 ^ (format.exponentBits - 1) - 1 : Nat) -
        format.fractionBits := by
    unfold exponent
    omega
  have hpower := zpow_le_zpow_right₀ (show (1 : ℚ) ≤ 2 by norm_num) hexponent
  unfold magnitude
  calc (format.significand word : ℚ) * 2 ^ format.exponent word
      < 2 ^ (format.fractionBits + 1) * 2 ^ format.exponent word :=
        mul_lt_mul_of_pos_right hsignificand (by positivity)
    _ ≤ _ := mul_le_mul_of_nonneg_left hpower (by positivity)

/-- The words of a field, and those of a higher one, are at least its first. -/
theorem le_magnitude (hpos : 1 ≤ field) (h : field ≤ format.field word) :
    2 ^ format.fractionBits *
      2 ^ ((field : Int) - (2 ^ (format.exponentBits - 1) - 1 : Nat) -
        format.fractionBits) ≤ format.magnitude word := by
  have hsignificand : (2 : ℚ) ^ format.fractionBits ≤ format.significand word := by
    have hle : 2 ^ format.fractionBits ≤ format.significand word := by
      unfold significand
      rw [if_neg (by omega)]
      omega
    exact_mod_cast hle
  have hexponent : (field : Int) - (2 ^ (format.exponentBits - 1) - 1 : Nat) -
      format.fractionBits ≤ format.exponent word := by
    unfold exponent
    omega
  have hpower := zpow_le_zpow_right₀ (show (1 : ℚ) ≤ 2 by norm_num) hexponent
  unfold magnitude
  calc (2 : ℚ) ^ format.fractionBits * _
      ≤ 2 ^ format.fractionBits * 2 ^ format.exponent word :=
        mul_le_mul_of_nonneg_left hpower (by positivity)
    _ ≤ _ := mul_le_mul_of_nonneg_right hsignificand (by positivity)

end Bounds

/-! ## Doubles -/

open Binary64

/-- The value of a double by its fields. -/
theorem magnitude_double (bits : UInt64) :
    double.magnitude bits.toNat =
      Binary64.significand bits * 2 ^ Binary64.exponent bits := by
  have hexponent : double.exponent bits.toNat = Binary64.exponent bits := by
    show ((max (exponentField bits) 1 : Nat) : Int) - (1023 : Nat) - (52 : Nat) =
      ((max (exponentField bits) 1 : Nat) : Int) - 1075
    omega
  unfold magnitude
  rw [hexponent]
  rfl

theorem isNegative_double (bits : UInt64) :
    double.IsNegative bits.toNat ↔ isNegative bits = true := by
  have hlt := bits.toNat_lt
  unfold isNegative
  rw [decide_eq_true_iff]
  show bits.toNat / 2 ^ 63 % 2 = 1 ↔ 2 ^ 63 ≤ bits.toNat
  omega

/-- The double nearest to an integer of at most 53 bits is that integer. -/
theorem value_ofRatio {number den : Nat} (hpos : 0 < number) (hlt : number < 2 ^ 53)
    (hden : 0 < den) :
    double.value (ofRatio false (number * den) den).toNat = number := by
  have hlog : number.log2 < 53 := (Nat.log2_lt hpos.ne').mpr hlt
  have hsign : ¬ double.IsNegative (ofRatio false (number * den) den).toNat := by
    rw [isNegative_double, isNegative_ofRatio false hpos hlt hden]
    decide
  have hsplit : (52 : Int) - number.log2 = (52 - number.log2 : Nat) := by omega
  unfold value
  rw [if_neg hsign, magnitude_double, significand_ofRatio false hpos hlt hden,
    exponent_ofRatio false hpos hlt hden]
  have hpower : (2 : ℚ) ^ ((number.log2 : Int) - 52) =
      ((2 : ℚ) ^ (52 - number.log2))⁻¹ := by
    rw [← neg_sub, zpow_neg, hsplit, zpow_natCast]
  rw [hpower]
  push_cast
  rw [mul_assoc, mul_inv_cancel₀ (by positivity), mul_one]

/-! ## Integers as singles -/

/-- An integer with the 24 bits that a single keeps of it. -/
def rounded (number : Nat) : Nat :=
  roundDiv number (2 ^ (number.log2 - 23)) * 2 ^ (number.log2 - 23)

theorem roundDiv_bounds (num den : Nat) :
    num / den ≤ roundDiv num den ∧ roundDiv num den ≤ num / den + 1 := by
  unfold roundDiv
  dsimp only
  split_ifs <;> omega

section Rounded

variable {number : Nat}

/-- The last place of an integer as a single is that of its leading bit, less 23. -/
theorem lastPlace_single (hpos : 0 < number) :
    lastPlace 24 (-149) number 1 = (number.log2 : Int) - 23 := by
  have hlow : 2 ^ number.log2 ≤ number := Nat.log2_self_le hpos.ne'
  unfold lastPlace
  dsimp only
  rw [show Nat.log2 1 = 0 from rfl]
  have hge : 2 ^ 24 ≤ (scale number 1 ((number.log2 : Int) - (0 : Nat) - (24 : Nat))).1 /
      (scale number 1 ((number.log2 : Int) - (0 : Nat) - (24 : Nat))).2 := by
    unfold scale
    by_cases hlarge : 24 ≤ number.log2
    · have hshift : ((number.log2 : Int) - (0 : Nat) - (24 : Nat)).toNat =
          number.log2 - 24 := by
        omega
      rw [if_pos (by omega), hshift, Nat.one_mul, Nat.le_div_iff_mul_le (by positivity),
        ← Nat.pow_add]
      have hsum : 24 + (number.log2 - 24) = number.log2 := by omega
      rwa [hsum]
    · have hshift : (-((number.log2 : Int) - (0 : Nat) - (24 : Nat))).toNat =
          24 - number.log2 := by
        omega
      rw [if_neg (by omega), hshift, Nat.div_one]
      calc 2 ^ 24 = 2 ^ number.log2 * 2 ^ (24 - number.log2) := by
            rw [← Nat.pow_add]
            congr 1
            omega
        _ ≤ number * 2 ^ (24 - number.log2) := Nat.mul_le_mul_right _ hlow
  rw [if_pos hge]
  omega

/-- A number that has 24 bits or less is kept. -/
theorem rounded_of_small (h : number.log2 ≤ 23) : rounded number = number := by
  have hback := @roundDiv_mul number 1 Nat.one_pos
  have hshift : number.log2 - 23 = 0 := by omega
  rw [Nat.mul_one] at hback
  rw [rounded, hshift, Nat.pow_zero, Nat.mul_one, hback]

/-- The conversion to single and back to double is that rounding. -/
theorem ofNatViaFloat_eq (hpos : 0 < number) :
    ∃ den, 0 < den ∧
      ofNatViaFloat number = ofRatio false (rounded number * den) den := by
  unfold ofNatViaFloat nearest
  rw [if_neg hpos.ne', lastPlace_single hpos]
  dsimp only
  by_cases hlarge : 23 ≤ number.log2
  · have hshift : ((number.log2 : Int) - 23).toNat = number.log2 - 23 := by omega
    refine ⟨1, Nat.one_pos, ?_⟩
    rw [scale_of_nonpos (by omega), Int.neg_neg, hshift, scale, if_pos (by omega),
      hshift, Nat.one_mul, Nat.mul_one]
    rfl
  · have hshift : (-((number.log2 : Int) - 23)).toNat = 23 - number.log2 := by omega
    have hback := @roundDiv_mul (number * 2 ^ (23 - number.log2)) 1 Nat.one_pos
    rw [Nat.mul_one] at hback
    have hinner : scale number 1 ((number.log2 : Int) - 23) =
        (number * 2 ^ (23 - number.log2), 1) := by
      rw [scale_of_nonpos (by omega), hshift]
    have houter : scale (number * 2 ^ (23 - number.log2)) 1
        (-((number.log2 : Int) - 23)) =
          (number * 2 ^ (23 - number.log2), 2 ^ (23 - number.log2)) := by
      rw [scale, if_pos (by omega), hshift, Nat.one_mul]
    refine ⟨2 ^ (23 - number.log2), by positivity, ?_⟩
    rw [hinner]
    dsimp only
    rw [hback, houter, rounded_of_small (by omega)]

/-- Rounding does not cross a power of two. -/
theorem le_rounded {bits : Nat} (h : 2 ^ bits ≤ number) : 2 ^ bits ≤ rounded number := by
  have hpos : number ≠ 0 := by
    rintro rfl
    exact absurd h (by simp)
  have hbits : bits ≤ number.log2 := (Nat.le_log2 hpos).mpr h
  have hlow : 2 ^ number.log2 ≤ number := Nat.log2_self_le hpos
  by_cases hsmall : number.log2 ≤ 23
  · rwa [rounded_of_small hsmall]
  · have hsplit : 2 ^ number.log2 = 2 ^ 23 * 2 ^ (number.log2 - 23) := by
      rw [← Nat.pow_add]
      congr 1
      omega
    have hquot : 2 ^ 23 ≤ number / 2 ^ (number.log2 - 23) := by
      rw [Nat.le_div_iff_mul_le (by positivity), ← hsplit]
      exact hlow
    have hround := (roundDiv_bounds number (2 ^ (number.log2 - 23))).1
    calc 2 ^ bits ≤ 2 ^ number.log2 := Nat.pow_le_pow_right (by decide) hbits
      _ = 2 ^ 23 * 2 ^ (number.log2 - 23) := hsplit
      _ ≤ rounded number := Nat.mul_le_mul_right _ (hquot.trans hround)

/-- Rounding adds less than a last place. -/
theorem rounded_le : rounded number ≤ number + 2 ^ (number.log2 - 23) := by
  have hround := (roundDiv_bounds number (2 ^ (number.log2 - 23))).2
  calc rounded number
      ≤ (number / 2 ^ (number.log2 - 23) + 1) * 2 ^ (number.log2 - 23) :=
        Nat.mul_le_mul_right _ hround
    _ = number / 2 ^ (number.log2 - 23) * 2 ^ (number.log2 - 23) +
        2 ^ (number.log2 - 23) := Nat.succ_mul _ _
    _ ≤ number + 2 ^ (number.log2 - 23) :=
        Nat.add_le_add_right (Nat.div_mul_le_self _ _) _

/-- An integer of at most 52 bits is converted to its rounding. -/
theorem value_ofNatViaFloat (h : number < 2 ^ 52) :
    double.value (ofNatViaFloat number).toNat = rounded number := by
  by_cases hzero : number = 0
  · subst hzero
    decide +kernel
  have hpos : 0 < number := Nat.pos_of_ne_zero hzero
  have hlog : number.log2 < 52 := (Nat.log2_lt hzero).mpr h
  have hlow := @le_rounded number 0 (by omega)
  have hplace : 2 ^ (number.log2 - 23) ≤ 2 ^ 28 :=
    Nat.pow_le_pow_right (by decide) (by omega)
  have hhigh := @rounded_le number
  obtain ⟨den, hden, heq⟩ := ofNatViaFloat_eq hpos
  rw [heq]
  exact value_ofRatio (by omega) (by omega) hden

end Rounded

end FloatFormat

end Ioscpp.Support
