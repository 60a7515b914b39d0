import Ioscpp.Error
import Ioscpp.Support.Text

/-!
# The text inside plist elements

The XML form writes data in base64, text with three characters escaped, and a
date as a calendar date with a time of day.

## Main results

- `base64Decode_encode`: data is decoded from its encoding.
- `xmlUnescape_escape`: escaping is undone.
-/

namespace Ioscpp.Protocol.Plist

open Ioscpp.Support

/-! ## Base64 -/

def kBase64Alphabet : Bytes :=
  ascii "ABCDEFGHIJKLMNOPQRSTUVWXYZabcdefghijklmnopqrstuvwxyz0123456789+/"

/-- The character for the six bits of `triple` from bit `shift` on. -/
def base64Char (triple shift : Nat) : UInt8 :=
  kBase64Alphabet.getD (triple >>> shift &&& 0x3f) 0

/-- Encodes three bytes as four characters. -/
def base64Encode : Bytes → Bytes
  | a :: b :: c :: rest =>
      let triple := a.toNat <<< 16 ||| b.toNat <<< 8 ||| c.toNat
      base64Char triple 18 :: base64Char triple 12 :: base64Char triple 6 ::
        base64Char triple 0 :: base64Encode rest
  | [a, b] =>
      let triple := a.toNat <<< 16 ||| b.toNat <<< 8
      [base64Char triple 18, base64Char triple 12, base64Char triple 6, 0x3d]
  | [a] =>
      let triple := a.toNat <<< 16
      [base64Char triple 18, base64Char triple 12, 0x3d, 0x3d]
  | [] => []

/-- The value of a character, when it has one. -/
def base64Value (c : UInt8) : Option Nat := kBase64Alphabet.idxOf? c

/-- Shifts six bits into the 32-bit buffer. -/
def base64Push (buffer value : Nat) : Nat := (buffer <<< 6 ||| value) % 2 ^ 32

/-- The decoding loop: a buffer of which the low `bits` bits are still to be
written, and what was written. -/
def base64Loop (buffer bits : Nat) (out : Bytes) : Bytes → Result Bytes
  | [] => .ok out
  | c :: rest =>
      if c = 0x3d then .ok out
      else if isSpace c then base64Loop buffer bits out rest
      else
        match base64Value c with
        | none => .error (.error (protocolError "the data is not valid base64"))
        | some value =>
            let buffer := base64Push buffer value
            if 8 ≤ bits + 6 then
              base64Loop buffer (bits - 2)
                (out ++ [UInt8.ofNat (buffer >>> (bits - 2) &&& 0xff)]) rest
            else base64Loop buffer (bits + 6) out rest

def base64Decode (text : Bytes) : Result Bytes := base64Loop 0 0 [] text

/-! ## Escaping -/

def escapeChar (c : UInt8) : Bytes :=
  if c = 0x26 then ascii "&amp;"
  else if c = 0x3c then ascii "&lt;"
  else if c = 0x3e then ascii "&gt;"
  else [c]

def xmlEscape (text : Bytes) : Bytes := text.flatMap escapeChar

/-- The entities that are decoded, in the order they are looked for. -/
def entities : List (Bytes × UInt8) :=
  [(ascii "&amp;", 0x26), (ascii "&lt;", 0x3c), (ascii "&gt;", 0x3e),
    (ascii "&quot;", 0x22), (ascii "&apos;", 0x27)]

/-- The loop over the characters, the next `skip` of which belong to an entity
that was decoded. -/
def unescapeFrom : Nat → Bytes → Bytes
  | _, [] => []
  | skip + 1, _ :: rest => unescapeFrom skip rest
  | 0, c :: rest =>
      match entities.find? fun entity => entity.1.isPrefixOf (c :: rest) with
      | some entity => entity.2 :: unescapeFrom (entity.1.length - 1) rest
      | none => c :: unescapeFrom 0 rest

def xmlUnescape (text : Bytes) : Bytes := unescapeFrom 0 text

/-! ## Dates -/

/-- Days from 1970-01-01 to `y-m-d`.  The month and day are not checked, and
unsigned arithmetic wraps around. -/
def daysFromCivil (y : Int64) (m d : UInt32) : Int64 :=
  let y := if m ≤ 2 then y - 1 else y
  let era := (if 0 ≤ y then y else y - 399) / 400
  let yoe := (y - era * 400).toUInt64.toUInt32
  let doy := (153 * (m + if 2 < m then -3 else 9) + 2) / 5 + d - 1
  let doe := yoe * 365 + yoe / 4 - yoe / 100 + doy
  era * 146097 + doe.toUInt64.toInt64 - 719468

/-- The year, month and day of a count of days from 1970-01-01. -/
def civilFromDays (z : Int64) : Int64 × UInt32 × UInt32 :=
  let z := z + 719468
  let era := (if 0 ≤ z then z else z - 146096) / 146097
  let doe := (z - era * 146097).toUInt64.toUInt32
  let yoe := (doe - doe / 1460 + doe / 36524 - doe / 146096) / 365
  let y := yoe.toUInt64.toInt64 + era * 400
  let doy := doe - (365 * yoe + yoe / 4 - yoe / 100)
  let mp := (5 * doy + 2) / 153
  let d := doy - (153 * mp + 2) / 5 + 1
  let m := mp + if mp < 10 then 3 else -9
  (if m ≤ 2 then y + 1 else y, m, d)

/-- 2001-01-01T00:00:00Z, in seconds from the Unix epoch. -/
def kPlistEpochSeconds : Int64 := 978307200

def kSecondsPerDay : Int64 := 86400

/-- A number in at least `width` characters, with zeros after its sign. -/
def zeroPadded (width : Nat) (value : Int) : Bytes :=
  let digits := decimal value.natAbs
  let sign := if value < 0 then [0x2d] else []
  sign ++ List.replicate (width - sign.length - digits.length) (digit 0) ++ digits

/-- The text of a date.  The sum with the epoch is taken modulo 2^64, where the
language leaves an overflow undefined. -/
def formatDate (secondsSince2001 : Int64) : Bytes :=
  let seconds := secondsSince2001 + kPlistEpochSeconds
  -- division truncates, so a negative time is shifted down to get the floor
  let days :=
    if 0 ≤ seconds then seconds / kSecondsPerDay
    else (seconds - (kSecondsPerDay - 1)) / kSecondsPerDay
  let remainder := seconds - days * kSecondsPerDay
  let remainder :=
    if remainder < 0 then remainder + kSecondsPerDay else remainder
  let (year, month, day) := civilFromDays days
  zeroPadded 4 year.toInt ++ ascii "-" ++ zeroPadded 2 month.toNat ++
    ascii "-" ++ zeroPadded 2 day.toNat ++ ascii "T" ++
    zeroPadded 2 (remainder / 3600).toInt ++ ascii ":" ++
    zeroPadded 2 (remainder % 3600 / 60).toInt ++ ascii ":" ++
    zeroPadded 2 (remainder % 60).toInt ++ ascii "Z"

/-- The number of `count` digits at an offset, when they are digits. -/
def dateNumber (text : Bytes) (offset count : Nat) : Option Nat :=
  let digits := (text.drop offset).take count
  if digits.all isDigit then some (digitsValue digits) else none

def parseDate (text : Bytes) : Result Int64 :=
  if text.length < 19 then
    .error (.error (protocolError "the date is too short"))
  else
    match dateNumber text 0 4, dateNumber text 5 2, dateNumber text 8 2,
      dateNumber text 11 2, dateNumber text 14 2, dateNumber text 17 2 with
    | some year, some month, some day, some hour, some minute, some second =>
        let days := daysFromCivil (Int64.ofNat year) (UInt32.ofNat month)
          (UInt32.ofNat day)
        .ok (days * 86400 + Int64.ofNat hour * 3600 + Int64.ofNat minute * 60 +
          Int64.ofNat second - kPlistEpochSeconds)
    | _, _, _, _, _, _ =>
        .error (.error (protocolError "the date has a non-digit"))

example : formatDate (-1) = ascii "2000-12-31T23:59:59Z" := by decide +kernel

example : parseDate (ascii "2024-02-29T12:00:00Z") = .ok 730900800 := by
  decide +kernel

/-! ## The round trips -/

/-- The characters of base64 are read back, and are none that a reader treats in
another way. -/
theorem base64Char_spec : ∀ value < 64,
    base64Value (kBase64Alphabet.getD value 0) = some value ∧
      kBase64Alphabet.getD value 0 ≠ 0x3d ∧
      isSpace (kBase64Alphabet.getD value 0) = false ∧
      kBase64Alphabet.getD value 0 ≠ 0x3c := by
  decide +kernel

/-- One character of the encoding, of a sextet of `triple`. -/
theorem base64Char_eq (triple shift : Nat) :
    base64Char triple shift =
      kBase64Alphabet.getD (triple / 2 ^ shift % 64) 0 := by
  rw [base64Char, Nat.shiftRight_eq_div_pow,
    show 0x3f = 2 ^ 6 - 1 from rfl, Nat.and_two_pow_sub_one_eq_mod]

theorem base64Push_eq {buffer value : Nat} (h : value < 64) :
    base64Push buffer value = (buffer * 64 + value) % 2 ^ 32 := by
  rw [base64Push, ← Nat.shiftLeft_add_eq_or_of_lt (i := 6) h,
    Nat.shiftLeft_eq]

/-- A step of the loop over a character of the encoding. -/
theorem base64Loop_char {buffer bits triple shift : Nat} {out rest : Bytes} :
    base64Loop buffer bits out (base64Char triple shift :: rest) =
      (let buffer := (buffer * 64 + triple / 2 ^ shift % 64) % 2 ^ 32
      if 8 ≤ bits + 6 then
        base64Loop buffer (bits - 2)
          (out ++ [UInt8.ofNat (buffer / 2 ^ (bits - 2))]) rest
      else base64Loop buffer (bits + 6) out rest) := by
  have hlt : triple / 2 ^ shift % 64 < 64 := Nat.mod_lt _ (by decide)
  obtain ⟨hvalue, hpad, hspace, -⟩ := base64Char_spec _ hlt
  have hbyte : ∀ x : Nat, UInt8.ofNat (x &&& 0xff) = UInt8.ofNat x := by
    intro x
    rw [show 0xff = 2 ^ 8 - 1 from rfl, Nat.and_two_pow_sub_one_eq_mod]
    exact UInt8.ofNat_mod_size
  rw [base64Char_eq, base64Loop, if_neg hpad, hspace, hvalue]
  simp only [Bool.false_eq_true, if_false, base64Push_eq hlt, hbyte,
    Nat.shiftRight_eq_div_pow]

private theorem triple_eq (a b c : UInt8) :
    a.toNat <<< 16 ||| b.toNat <<< 8 ||| c.toNat =
      a.toNat * 65536 + b.toNat * 256 + c.toNat := by
  have ha := a.toNat_lt
  have hb := b.toNat_lt
  have hlow : b.toNat <<< 8 ||| c.toNat = b.toNat * 256 + c.toNat := by
    rw [← Nat.shiftLeft_add_eq_or_of_lt c.toNat_lt, Nat.shiftLeft_eq]
  have hlt : b.toNat * 256 + c.toNat < 2 ^ 16 := by
    have hc := c.toNat_lt
    omega
  rw [Nat.or_assoc, hlow, ← Nat.shiftLeft_add_eq_or_of_lt hlt, Nat.shiftLeft_eq,
    Nat.add_assoc]

private theorem ofNat_eq {x : Nat} (byte : UInt8) (h : x % 256 = byte.toNat) :
    UInt8.ofNat x = byte := by
  apply UInt8.toNat_inj.mp
  rw [UInt8.toNat_ofNat', h]

/-- The loop decodes an encoding, whatever is left in its buffer. -/
private theorem base64Loop_encode (data : Bytes) (buffer : Nat) (out : Bytes) :
    base64Loop buffer 0 out (base64Encode data) = .ok (out ++ data) := by
  induction data using base64Encode.induct generalizing buffer out with
  | case1 a b c rest ih =>
      have ha := a.toNat_lt
      have hb := b.toNat_lt
      have hc := c.toNat_lt
      have htriple := triple_eq a b c
      rw [base64Encode]
      simp only [base64Loop_char, htriple, Nat.zero_add, Nat.reduceLeDiff,
        if_false, if_true, Nat.reduceAdd, Nat.reduceSub]
      rw [ih, List.append_assoc, List.append_assoc, List.append_assoc]
      rw [ofNat_eq a (by omega), ofNat_eq b (by omega),
        ofNat_eq c (by omega)]
      rfl
  | case2 a b =>
      have ha := a.toNat_lt
      have hb := b.toNat_lt
      have htriple := triple_eq a b 0
      simp only [UInt8.toNat_zero, Nat.or_zero, Nat.add_zero] at htriple
      rw [base64Encode]
      simp only [base64Loop_char, htriple, Nat.zero_add, Nat.reduceLeDiff,
        if_false, if_true, Nat.reduceAdd, Nat.reduceSub]
      rw [ofNat_eq a (by omega), ofNat_eq b (by omega),
        base64Loop, if_pos rfl, List.append_assoc]
      rfl
  | case3 a =>
      have ha := a.toNat_lt
      have htriple := triple_eq a 0 0
      simp only [UInt8.toNat_zero, Nat.zero_shiftLeft, Nat.or_zero, Nat.add_zero,
        Nat.zero_mul] at htriple
      rw [base64Encode]
      simp only [base64Loop_char, htriple, Nat.zero_add, Nat.reduceLeDiff,
        if_false, if_true, Nat.reduceAdd, Nat.reduceSub]
      rw [ofNat_eq a (by omega), base64Loop, if_pos rfl]
  | case4 => simp [base64Encode, base64Loop]

/-- Data is decoded from its encoding. -/
theorem base64Decode_encode (data : Bytes) :
    base64Decode (base64Encode data) = .ok data :=
  base64Loop_encode data 0 []

theorem base64Encode_chars (data : Bytes) :
    ∀ c ∈ base64Encode data, isSpace c = false ∧ c ≠ 0x3c := by
  have hchar : ∀ triple shift, isSpace (base64Char triple shift) = false ∧
      base64Char triple shift ≠ 0x3c := by
    intro triple shift
    rw [base64Char_eq]
    exact (base64Char_spec _ (Nat.mod_lt _ (by decide))).2.2
  have hpad : isSpace 0x3d = false ∧ (0x3d : UInt8) ≠ 0x3c := by decide
  induction data using base64Encode.induct with
  | case1 a b c rest ih =>
      rw [base64Encode]
      simp only [List.forall_mem_cons]
      exact ⟨hchar _ _, hchar _ _, hchar _ _, hchar _ _, ih⟩
  | case2 a b =>
      rw [base64Encode]
      simp only [List.forall_mem_cons]
      exact ⟨hchar _ _, hchar _ _, hchar _ _, hpad, by simp⟩
  | case3 a =>
      rw [base64Encode]
      simp only [List.forall_mem_cons]
      exact ⟨hchar _ _, hchar _ _, hpad, hpad, by simp⟩
  | case4 => simp [base64Encode]

theorem unescapeFrom_escapeChar (c : UInt8) (rest : Bytes) :
    unescapeFrom 0 (escapeChar c ++ rest) = c :: unescapeFrom 0 rest := by
  rw [escapeChar]
  split
  · rename_i h
    rw [h]
    rfl
  split
  · rename_i h
    rw [h]
    rfl
  split
  · rename_i h
    rw [h]
    rfl
  · rename_i hamp hlt hgt
    have hnone : (entities.find? fun entity => entity.1.isPrefixOf (c :: rest)) =
        none := by
      rw [List.find?_eq_none]
      intro entity hmem
      simp only [entities, List.mem_cons, List.not_mem_nil, or_false] at hmem
      rcases hmem with rfl | rfl | rfl | rfl | rfl <;>
        simp [ascii, List.isPrefixOf, Ne.symm hamp]
    rw [List.singleton_append, unescapeFrom, hnone]

/-- Escaping is undone. -/
theorem xmlUnescape_escape (text : Bytes) :
    xmlUnescape (xmlEscape text) = text := by
  rw [xmlUnescape, xmlEscape]
  induction text with
  | nil => rfl
  | cons c rest ih => rw [List.flatMap_cons, unescapeFrom_escapeChar, ih]

/-- Escaped text opens no element. -/
theorem xmlEscape_chars (text : Bytes) : 0x3c ∉ xmlEscape text := by
  intro hmem
  obtain ⟨c, -, hc⟩ := List.mem_flatMap.mp hmem
  rw [escapeChar] at hc
  split_ifs at hc with hamp hlt hgt
  · exact absurd hc (by decide)
  · exact absurd hc (by decide)
  · exact absurd hc (by decide)
  · exact hlt (List.mem_singleton.mp hc).symm

end Ioscpp.Protocol.Plist
