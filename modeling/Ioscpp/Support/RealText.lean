import Ioscpp.Support.Binary64
import Ioscpp.Support.Text

/-!
# Doubles as text

The two conversions of the C library between a double, by its pattern, and
text: `printf` with the format `%.17g`, and `strtod`.
-/

namespace Ioscpp.Support.RealText

open Binary64

/-! ## Writing -/

/-- `num / den` times a power of ten, as a ratio. -/
def timesTen (num den : Nat) (exponent : Int) : Nat × Nat :=
  if 0 ≤ exponent then (num * 10 ^ exponent.toNat, den)
  else (num, den * 10 ^ (-exponent).toNat)

/-- The decimal exponent of the leading digit of a positive ratio. -/
def leadingPlace (num den : Nat) : Int :=
  if den ≤ num then Nat.log 10 (num / den)
  else -(Nat.clog 10 ((den + num - 1) / num) : Int)

/-- The seventeen significant digits nearest to a positive ratio, as a number,
and the decimal exponent of the first. -/
def significantDigits (num den : Nat) : Nat × Int :=
  let exponent := leadingPlace num den
  let scaled := timesTen num den (16 - exponent)
  let value := roundDiv scaled.1 scaled.2
  -- rounding can carry into an eighteenth digit
  if value = 10 ^ 17 then (10 ^ 16, exponent + 1) else (value, exponent)

/-- A fraction without the zeros at its end, and the point that goes before
it. -/
def fraction (digits : Bytes) : Bytes :=
  let digits := (digits.reverse.dropWhile (· == digit 0)).reverse
  if digits.isEmpty then [] else ascii "." ++ digits

/-- Digits written out around the point. -/
def fixed (digits : Bytes) (exponent : Int) : Bytes :=
  if 0 ≤ exponent then
    digits.take (exponent.toNat + 1) ++ fraction (digits.drop (exponent.toNat + 1))
  else
    digit 0 :: fraction (List.replicate ((-exponent).toNat - 1) (digit 0) ++ digits)

/-- Digits with one before the point, and an exponent of at least two digits. -/
def scientific (digits : Bytes) (exponent : Int) : Bytes :=
  let places := decimal exponent.natAbs
  digits.take 1 ++ fraction (digits.drop 1) ++ ascii "e" ++
    (if exponent < 0 then ascii "-" else ascii "+") ++
    List.replicate (2 - places.length) (digit 0) ++ places

/-- `printf` with `%.17g`. -/
def format (bits : UInt64) : Bytes :=
  let sign := if isNegative bits then ascii "-" else []
  if exponentField bits = 0x7ff then
    sign ++ if bits.toNat % 2 ^ 52 = 0 then ascii "inf" else ascii "nan"
  else if significand bits = 0 then sign ++ [digit 0]
  else
    let ratio := scale (significand bits) 1 (-Binary64.exponent bits)
    let (value, exponent) := significantDigits ratio.1 ratio.2
    sign ++
      if -4 ≤ exponent ∧ exponent < 17 then fixed (decimal value) exponent
      else scientific (decimal value) exponent

/-! ## Reading -/

/-- `std::tolower`. -/
def toLower (c : UInt8) : UInt8 := if 0x41 ≤ c ∧ c ≤ 0x5a then c + 0x20 else c

/-- Whether a lower-case character is a hexadecimal digit. -/
def isHexDigit (c : UInt8) : Bool := isDigit c || (0x61 ≤ c && c ≤ 0x66)

/-- The value of a lower-case hexadecimal digit. -/
def hexDigitValue (c : UInt8) : Nat :=
  if isDigit c then digitValue c else c.toNat - 0x57

/-- The digits before and after a point, and what follows them. -/
def takeDigits (isDigit : UInt8 → Bool) (text : Bytes) : Bytes × Bytes × Bytes :=
  match text.dropWhile isDigit with
  | 0x2e :: rest =>
      (text.takeWhile isDigit, rest.takeWhile isDigit, rest.dropWhile isDigit)
  | rest => (text.takeWhile isDigit, [], rest)

/-- The exponent after its letter; none counts as zero. -/
def takeExponent (letter : UInt8) : Bytes → Int
  | c :: rest =>
      if c = letter then
        let (negative, rest) := takeSign rest
        let magnitude := digitsValue (rest.takeWhile isDigit)
        if negative then -magnitude else magnitude
      else 0
  | [] => 0

/-- A decimal number. -/
def readDecimal (negative : Bool) (text : Bytes) : UInt64 :=
  let (whole, rest, tail) := takeDigits isDigit text
  if whole.isEmpty ∧ rest.isEmpty then 0
  else
    let ratio := timesTen (digitsValue (whole ++ rest)) 1
      (takeExponent 0x65 tail - rest.length)
    ofRatio negative ratio.1 ratio.2

/-- A hexadecimal number, after its prefix; without a digit there is only the
zero of the prefix. -/
def readHex (negative : Bool) (text : Bytes) : UInt64 :=
  let (whole, rest, tail) := takeDigits isHexDigit text
  let value := (whole ++ rest).foldl
    (fun value c => value * 16 + hexDigitValue c) 0
  let ratio := scale value 1 (4 * rest.length - takeExponent 0x70 tail)
  ofRatio negative ratio.1 ratio.2

/-- `strtod`, in which a letter may have either case.  What stands in parentheses
behind a NaN is left to the implementation by the C standard, and some put it into the
bits of the NaN; here it is not looked at, and the NaN has no payload. -/
def strtod (text : Bytes) : UInt64 :=
  let (negative, text) := takeSign (text.dropWhile isSpace)
  let text := text.map toLower
  if (ascii "inf").isPrefixOf text then UInt64.ofNat (signBit negative + infinity)
  else if (ascii "nan").isPrefixOf text then
    UInt64.ofNat (signBit negative + infinity + 2 ^ 51)
  else if (ascii "0x").isPrefixOf text then readHex negative (text.drop 2)
  else readDecimal negative text

example : format 0x3fb999999999999a = ascii "0.10000000000000001" := by
  decide +kernel

example : strtod (ascii " -2.5e1x") = 0xc039000000000000 := by decide +kernel

end Ioscpp.Support.RealText
