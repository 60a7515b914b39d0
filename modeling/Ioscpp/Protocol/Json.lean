import Ioscpp.Error
import Ioscpp.Support.RealText
import Ioscpp.Support.SortedMap

/-!
# JSON

A `Json` is a value of the six kinds of JSON; an object is an ordered map, so it
is the list of its entries with increasing keys, and a number is a double, by its
pattern.  The parser reads the text by recursive descent: `peek` is the next
character, or a zero at the end.
-/

namespace Ioscpp.Protocol

open Ioscpp.Support

/-- A JSON value. -/
inductive Json where
  | null
  | boolean (value : Bool)
  | number (bits : UInt64)
  | string (text : Bytes)
  | array (items : List Json)
  | object (entries : List (Bytes × Json))
  deriving Repr, Inhabited

namespace Json

def asNumber : Json → Option UInt64
  | number bits => some bits
  | _ => none

def asString : Json → Option Bytes
  | string text => some text
  | _ => none

def asObject : Json → Option (List (Bytes × Json))
  | object entries => some entries
  | _ => none

/-- The value for `key`, when this is an object that has one. -/
def find (key : Bytes) (value : Json) : Option Json :=
  value.asObject.bind (SortedMap.find key)

/-! ## Characters -/

/-- The UTF-8 of a code point. -/
def utf8 (codePoint : Nat) : Bytes :=
  if codePoint ≤ 0x7f then [UInt8.ofNat codePoint]
  else if codePoint ≤ 0x7ff then
    [UInt8.ofNat (0xc0 ||| codePoint >>> 6),
      UInt8.ofNat (0x80 ||| codePoint &&& 0x3f)]
  else if codePoint ≤ 0xffff then
    [UInt8.ofNat (0xe0 ||| codePoint >>> 12),
      UInt8.ofNat (0x80 ||| (codePoint >>> 6) &&& 0x3f),
      UInt8.ofNat (0x80 ||| codePoint &&& 0x3f)]
  else
    [UInt8.ofNat (0xf0 ||| codePoint >>> 18),
      UInt8.ofNat (0x80 ||| (codePoint >>> 12) &&& 0x3f),
      UInt8.ofNat (0x80 ||| (codePoint >>> 6) &&& 0x3f),
      UInt8.ofNat (0x80 ||| codePoint &&& 0x3f)]

/-- The value of a hexadecimal digit of either case. -/
def hexDigit (c : UInt8) : Option Nat :=
  if 0x30 ≤ c ∧ c ≤ 0x39 then some (c.toNat - 0x30)
  else if 0x61 ≤ c ∧ c ≤ 0x66 then some (c.toNat - 0x61 + 10)
  else if 0x41 ≤ c ∧ c ≤ 0x46 then some (c.toNat - 0x41 + 10)
  else none

/-- The white space of JSON. -/
def isWhitespace (c : UInt8) : Bool :=
  c == 0x20 || c == 0x09 || c == 0x0a || c == 0x0d

/-! ## Numbers -/

/-- The digits that a text begins with, and the rest. -/
def spanDigits (text : Bytes) : Bytes × Bytes :=
  (text.takeWhile isDigit, text.dropWhile isDigit)

/-- The characters of a number that a text begins with, and the rest. -/
def numberToken (text : Bytes) : Bytes × Bytes :=
  let (minus, text) :=
    match text with
    | 0x2d :: rest => ([(0x2d : UInt8)], rest)
    | text => ([], text)
  let (whole, text) := spanDigits text
  let (fraction, text) :=
    match text with
    | 0x2e :: rest => (0x2e :: (spanDigits rest).1, (spanDigits rest).2)
    | text => ([], text)
  let (exponent, text) :=
    match text with
    | c :: rest =>
        if c = 0x65 ∨ c = 0x45 then
          match rest with
          | sign :: rest' =>
              if sign = 0x2b ∨ sign = 0x2d then
                (c :: sign :: (spanDigits rest').1, (spanDigits rest').2)
              else (c :: (spanDigits rest).1, (spanDigits rest).2)
          | [] => ([c], [])
        else ([], text)
    | [] => ([], [])
  (minus ++ whole ++ fraction ++ exponent, text)

/-- The exponent that a whole text is, after the digits of a number. -/
def wholeExponent : Bytes → Option Int
  | [] => some 0
  | c :: rest =>
      if c = 0x65 ∨ c = 0x45 then
        let (negative, digits) := takeSign rest
        if digits ≠ [] ∧ digits.all isDigit then
          some (if negative then -digitsValue digits else digitsValue digits)
        else none
      else none

/-- The double that a text without a sign is.  A number that is too large, or too
small but not zero, is an error. -/
def fromDigits (negative : Bool) (text : Bytes) : Option UInt64 :=
  let (whole, fraction, tail) := RealText.takeDigits isDigit text
  if whole = [] ∧ fraction = [] then none
  else
    match wholeExponent tail with
    | none => none
    | some exponent =>
        let ratio := RealText.timesTen (digitsValue (whole ++ fraction)) 1
          (exponent - fraction.length)
        let bits := Binary64.ofRatio negative ratio.1 ratio.2
        let magnitude := bits.toNat % 2 ^ 63
        if magnitude = Binary64.infinity ∨ magnitude = 0 ∧ ratio.1 ≠ 0 then none
        else some bits

/-- `std::from_chars` for a double, when it takes the whole text without an
error. -/
def fromChars : Bytes → Option UInt64
  | 0x2d :: rest => fromDigits true rest
  | text => fromDigits false text

/-! ## Parsing -/

/-- A step of the parser: it moves on in the text and returns a value, or it
fails. -/
abbrev JsonParser := StateT Bytes (Checked Error)

namespace JsonParser

def fail {α : Type} (message : String) : JsonParser α :=
  fun _ => .error (.error (protocolError message))

def outOfFuel {α : Type} : JsonParser α := fun _ => .error .outOfFuel

def atEnd : JsonParser Bool := do
  let text ← get
  return text = []

/-- The next character, or a zero at the end. -/
def peek : JsonParser UInt8 := do
  let text ← get
  return text.headD 0

/-- Moves over so many characters. -/
def advance (count : Nat) : JsonParser Unit := modify (·.drop count)

def skipWhitespace : JsonParser Unit := modify (·.dropWhile isWhitespace)

/-! ### Strings -/

/-- The value of hexadecimal digits. -/
def hexValue (digits : Bytes) : Option Nat :=
  digits.foldlM (fun value c => do
    let digit ← hexDigit c
    return value <<< 4 ||| digit) 0

/-- Reads the four digits of a unicode escape. -/
def parseHex4 : JsonParser Nat := do
  let text ← get
  if text.length < 4 then fail "a JSON unicode escape is truncated"
  else
    match hexValue (text.take 4) with
    | none => fail "a JSON unicode escape is not hexadecimal"
    | some value => do
        advance 4
        return value

/-- The code point of an escape, of which `high` is the first half or all.  A low
surrogate is taken with the high one before it; any other escape after a high
surrogate is read, and left. -/
def codePoint (high : Nat) : JsonParser Nat := do
  let text ← get
  if 0xd800 ≤ high ∧ high ≤ 0xdbff ∧ 6 ≤ text.length ∧
      text.take 2 = ascii "\\u" then do
    advance 2
    let low ← parseHex4
    if 0xdc00 ≤ low ∧ low ≤ 0xdfff then
      return 0x10000 + ((high - 0xd800) <<< 10) + (low - 0xdc00)
    else do
      set text
      return high
  else return high

/-- The bytes of an escape, after its backslash. -/
def parseEscape (c : UInt8) : JsonParser Bytes :=
  match c with
  | 0x22 => return [0x22]
  | 0x5c => return [0x5c]
  | 0x2f => return [0x2f]
  | 0x62 => return [0x08]
  | 0x66 => return [0x0c]
  | 0x6e => return [0x0a]
  | 0x72 => return [0x0d]
  | 0x74 => return [0x09]
  | 0x75 => do
      let high ← parseHex4
      let codePoint ← codePoint high
      return utf8 codePoint
  | _ => fail "a JSON string has an unknown escape"

/-- The loop over the characters of a string, after its opening quote. -/
def parseCharacters : Nat → Bytes → JsonParser Bytes
  | 0, _ => outOfFuel
  | fuel + 1, out => do
      if ← atEnd then fail "a JSON string is not terminated"
      else do
        let c ← peek
        advance 1
        if c = 0x22 then return out
        else if c ≠ 0x5c then parseCharacters fuel (out ++ [c])
        else if ← atEnd then fail "a JSON escape is not terminated"
        else do
          let escape ← peek
          advance 1
          let bytes ← parseEscape escape
          parseCharacters fuel (out ++ bytes)

def parseString : JsonParser Bytes := do
  if (← peek) ≠ 0x22 then fail "a JSON string does not start with a quote"
  else do
    advance 1
    let text ← get
    parseCharacters (text.length + 1) []

/-! ### Values -/

/-- Reads one of the three literals. -/
def parseLiteral (literal : String) (value : Json) : JsonParser Json := do
  let text ← get
  if (ascii literal).isPrefixOf text then do
    advance (ascii literal).length
    return value
  else fail "a JSON literal is malformed"

def parseNumber : JsonParser Json := do
  let text ← get
  let (token, rest) := numberToken text
  match fromChars token with
  | none => fail "a JSON number is malformed"
  | some bits => do
      set rest
      return .number bits

mutual

/-- Parses a value.  A value inside another begins after a character of it, with a
turn of a loop between, and each turn takes a character: two turns for each
character of the text bound the fuel. -/
def parseValue : Nat → JsonParser Json
  | 0 => outOfFuel
  | fuel + 1 => do
      match ← peek with
      | 0x7b => do
          advance 1
          skipWhitespace
          if (← peek) = 0x7d then do
            advance 1
            return .object []
          else parseMembers fuel []
      | 0x5b => do
          advance 1
          skipWhitespace
          if (← peek) = 0x5d then do
            advance 1
            return .array []
          else parseElements fuel []
      | 0x22 => do
          let text ← parseString
          return .string text
      | 0x74 => parseLiteral "true" (.boolean true)
      | 0x66 => parseLiteral "false" (.boolean false)
      | 0x6e => parseLiteral "null" .null
      | _ => parseNumber

/-- The loop over the members of an object; of equal keys the first stays. -/
def parseMembers : Nat → List (Bytes × Json) → JsonParser Json
  | 0, _ => outOfFuel
  | fuel + 1, members => do
      skipWhitespace
      let key ← parseString
      skipWhitespace
      if (← peek) ≠ 0x3a then fail "a JSON object member has no colon"
      else do
        advance 1
        skipWhitespace
        let value ← parseValue fuel
        let members := SortedMap.emplace key value members
        skipWhitespace
        match ← peek with
        | 0x2c => do
            advance 1
            parseMembers fuel members
        | 0x7d => do
            advance 1
            return .object members
        | _ => fail "a JSON object is malformed"

/-- The loop over the elements of an array. -/
def parseElements : Nat → List Json → JsonParser Json
  | 0, _ => outOfFuel
  | fuel + 1, elements => do
      skipWhitespace
      let value ← parseValue fuel
      let elements := elements ++ [value]
      skipWhitespace
      match ← peek with
      | 0x2c => do
          advance 1
          parseElements fuel elements
      | 0x5d => do
          advance 1
          return .array elements
      | _ => fail "a JSON array is malformed"

end

end JsonParser

open JsonParser in
/-- Parses a text that is one value, with white space around it. -/
def parse (text : Bytes) : Result Json := do
  let (value, rest) ← (do
    skipWhitespace
    let value ← parseValue (2 * text.length + 1)
    skipWhitespace
    return value : JsonParser Json) text
  if rest ≠ [] then
    .error (.error (protocolError "a JSON document has trailing text"))
  else .ok value

end Json

end Ioscpp.Protocol
