import Ioscpp.Protocol.JsonStrings

/-!
# JSON as text

The writer puts no white space between the parts.  A number without a fraction is
written as an integer as long as it is below `10^15`, where a double has every
integer.
-/

namespace Ioscpp.Protocol.Json

open Ioscpp.Support

/-! ## The writer -/

/-- A digit of `%04x`. -/
def lowerHexDigit (value : Nat) : UInt8 :=
  (ascii "0123456789abcdef").getD (value % 16) 0

/-- A character of a string. -/
def serializeChar (c : UInt8) : Bytes :=
  match c with
  | 0x22 => ascii "\\\""
  | 0x5c => ascii "\\\\"
  | 0x08 => ascii "\\b"
  | 0x0c => ascii "\\f"
  | 0x0a => ascii "\\n"
  | 0x0d => ascii "\\r"
  | 0x09 => ascii "\\t"
  | _ =>
      if c < 0x20 then
        ascii "\\u" ++ [lowerHexDigit (c.toNat / 4096), lowerHexDigit (c.toNat / 256),
          lowerHexDigit (c.toNat / 16), lowerHexDigit c.toNat]
      else [c]

def serializeString (value : Bytes) : Bytes :=
  0x22 :: (value.flatMap serializeChar ++ [0x22])

/-- The exact value of a finite double, without its sign. -/
def magnitudeRatio (bits : UInt64) : Nat × Nat :=
  Binary64.scale (Binary64.significand bits) 1 (-Binary64.exponent bits)

/-- `std::isfinite`. -/
def isFinite (bits : UInt64) : Bool := Binary64.exponentField bits ≠ 0x7ff

/-- Whether a double is finite, equal to its floor, and below `10^15` without its
sign. -/
def IsInteger (bits : UInt64) : Prop :=
  isFinite bits ∧ (magnitudeRatio bits).1 % (magnitudeRatio bits).2 = 0 ∧
    (magnitudeRatio bits).1 < 10 ^ 15 * (magnitudeRatio bits).2

instance instDecidableIsInteger (bits : UInt64) : Decidable (IsInteger bits) :=
  inferInstanceAs (Decidable (_ ∧ _ ∧ _))

def serializeNumber (bits : UInt64) : Bytes :=
  if IsInteger bits then decimalInt (Binary64.toInt64 bits).toInt
  else if !isFinite bits then ascii "null"
  else RealText.format bits

mutual

def serialize : Json → Bytes
  | null => ascii "null"
  | boolean value => if value then ascii "true" else ascii "false"
  | number bits => serializeNumber bits
  | string text => serializeString text
  | array items => 0x5b :: (serializeElements true items ++ [0x5d])
  | object entries => 0x7b :: (serializeMembers true entries ++ [0x7d])

/-- The elements of an array, with a comma before each but the first. -/
def serializeElements (first : Bool) : List Json → Bytes
  | [] => []
  | element :: rest =>
      (if first then [] else [0x2c]) ++ (serialize element ++
        serializeElements false rest)

/-- The members of an object, with a comma before each but the first. -/
def serializeMembers (first : Bool) : List (Bytes × Json) → Bytes
  | [] => []
  | (key, member) :: rest =>
      (if first then [] else [0x2c]) ++ (serializeString key ++
        (0x3a :: (serialize member ++ serializeMembers false rest)))

end

/-- `Json::to_string`. -/
def toString (value : Json) : Bytes := serialize value

example : toString (object [(ascii "b", array [boolean true, null]),
    (ascii "n", number (Binary64.ofInt64 1280))]) =
    ascii "\x7b\"b\":[true,null],\"n\":1280\x7d" := by
  decide +kernel

end Ioscpp.Protocol.Json
