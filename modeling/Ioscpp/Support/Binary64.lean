import Ioscpp.Support.Bytes

/-!
# Binary64 words

A double is its 64-bit pattern.  The conversions a codec makes are computed on
patterns with exact integer arithmetic: a ratio of naturals is rounded to the
nearest value of a precision, ties to even, and a double is truncated to an
integer.
-/

namespace Ioscpp.Support.Binary64

/-- The integer nearest to `num / den`, ties to even. -/
def roundDiv (num den : Nat) : Nat :=
  let quotient := num / den
  let remainder := num % den
  if 2 * remainder < den then quotient
  else if den < 2 * remainder then quotient + 1
  else quotient + quotient % 2

/-- `num / den / 2 ^ exponent`, as a ratio. -/
def scale (num den : Nat) (exponent : Int) : Nat × Nat :=
  if 0 ≤ exponent then (num, den * 2 ^ exponent.toNat)
  else (num * 2 ^ (-exponent).toNat, den)

/-- The exponent of the last place of `num / den` in a format of `precision`
bits whose smallest places have the exponent `least`. -/
def lastPlace (precision : Nat) (least : Int) (num den : Nat) : Int :=
  -- the ratio lies between two powers of two around this one
  let exponent : Int := (num.log2 : Int) - den.log2 - precision
  let scaled := scale num den exponent
  let exponent :=
    if 2 ^ precision ≤ scaled.1 / scaled.2 then exponent + 1 else exponent
  max exponent least

/-- The value of the format nearest to `num / den`, as a significand and the
exponent of its last place. -/
def nearest (precision : Nat) (least : Int) (num den : Nat) : Nat × Int :=
  let exponent := lastPlace precision least num den
  let scaled := scale num den exponent
  (roundDiv scaled.1 scaled.2, exponent)

/-- The pattern of an infinity, without its sign. -/
def infinity : Nat := 0x7ff0000000000000

/-- The sign bit. -/
def signBit (negative : Bool) : Nat := if negative then 2 ^ 63 else 0

/-- The double nearest to `num / den`.  A significand that rounding carried to
the next power of two carries into the exponent field. -/
def ofRatio (negative : Bool) (num den : Nat) : UInt64 :=
  if num = 0 then UInt64.ofNat (signBit negative)
  else
    let (significand, exponent) := nearest 53 (-1074) num den
    let magnitude := (exponent + 1074).toNat * 2 ^ 52 + significand
    UInt64.ofNat (signBit negative + min magnitude infinity)

/-- The conversion of a signed 64-bit integer to double. -/
def ofInt64 (value : Int64) : UInt64 :=
  ofRatio (value.toInt < 0) value.toInt.natAbs 1

/-- The conversion of an unsigned integer to float, which has 24 bits of
precision, and of the float to double, which is exact. -/
def ofNatViaFloat (value : Nat) : UInt64 :=
  if value = 0 then 0
  else
    let (significand, exponent) := nearest 24 (-149) value 1
    let scaled := scale significand 1 (-exponent)
    ofRatio false scaled.1 scaled.2

/-- Whether a pattern is that of a negative number. -/
def isNegative (bits : UInt64) : Bool := 2 ^ 63 ≤ bits.toNat

/-- The exponent field of a pattern. -/
def exponentField (bits : UInt64) : Nat := bits.toNat / 2 ^ 52 % 2 ^ 11

/-- The significand of a finite double, its hidden bit included. -/
def significand (bits : UInt64) : Nat :=
  let fraction := bits.toNat % 2 ^ 52
  if exponentField bits = 0 then fraction else 2 ^ 52 + fraction

/-- The exponent of the last place of a finite double. -/
def exponent (bits : UInt64) : Int := (max (exponentField bits) 1 : Nat) - 1075

/-- The conversion of a double to a signed 64-bit integer.  It truncates towards
zero; of a value out of range, and of what is no number, it makes the smallest
integer, as the conversion instruction does where the language leaves it
undefined. -/
def toInt64 (bits : UInt64) : Int64 :=
  let scaled := scale (significand bits) 1 (-exponent bits)
  let magnitude := scaled.1 / scaled.2
  if exponentField bits = 0x7ff then Int64.minValue
  else if isNegative bits then
    if magnitude ≤ 2 ^ 63 then Int64.ofInt (-magnitude) else Int64.minValue
  else if magnitude < 2 ^ 63 then Int64.ofNat magnitude
  else Int64.minValue

example : ofInt64 1 = 0x3ff0000000000000 := by decide

example : toInt64 (ofInt64 (-86400)) = -86400 := by decide

end Ioscpp.Support.Binary64
