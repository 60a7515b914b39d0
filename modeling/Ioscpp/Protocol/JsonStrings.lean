import Ioscpp.Protocol.Json
import Ioscpp.Support.Hex

/-!
# The strings of JSON

A string of characters has many spellings: each character raw, by a short escape,
or by one or two escapes of four hexadecimal digits.  The parser reads every one
of them as the UTF-8 of the characters.

## Main results

- `utf8_toNat`: the encoder of the parser is that of the standard.
- `reads_spells`: a spelling of a character is read as its UTF-8.
- `parseString_spelled`: so is a spelling of a string.
-/

namespace Ioscpp.Protocol.Json

open Ioscpp.Support

/-! ## Spellings -/

/-- The characters that have a short escape, with its letter. -/
def shortEscapes : List (Char × UInt8) :=
  [('"', 0x22), ('\\', 0x5c), ('/', 0x2f), ('\x08', 0x62), ('\x0c', 0x66),
    ('\n', 0x6e), ('\r', 0x72), ('\t', 0x74)]

/-- An escape of four hexadecimal digits, for a number of sixteen bits. -/
def UnicodeEscape (text : Bytes) (value : Nat) : Prop :=
  ∃ digits, text = 0x5c :: 0x75 :: digits ∧ digits.length = 4 ∧
    HexNumber digits value

/-- The ways to write a character in a string: raw, by a short escape, by an escape of
four hexadecimal digits, or by two of them. -/
inductive Spells (c : Char) : Bytes → Prop
  /-- As it is, unless it is a control character, the quote or the backslash. -/
  | raw (hcontrol : 0x20 ≤ c.toNat) (hquote : c ≠ '"') (hslash : c ≠ '\\') :
      Spells c (String.utf8EncodeChar c)
  | short {letter : UInt8} (h : (c, letter) ∈ shortEscapes) :
      Spells c [0x5c, letter]
  | unicode {text : Bytes} (h : UnicodeEscape text c.toNat) : Spells c text
  /-- By a high and a low surrogate. -/
  | surrogates {first second : Bytes} {high low : Nat}
      (hfirst : UnicodeEscape first high) (hsecond : UnicodeEscape second low)
      (hhigh : 0xd800 ≤ high ∧ high < 0xdc00) (hlow : 0xdc00 ≤ low ∧ low < 0xe000)
      (hvalue : c.toNat = 0x10000 + (high - 0xd800) * 0x400 + (low - 0xdc00)) :
      Spells c (first ++ second)

/-! ## UTF-8 -/

/-- A character is a number below `0x110000` that is no surrogate. -/
theorem toNat_spec (c : Char) :
    c.toNat < 0xd800 ∨ 0xdfff < c.toNat ∧ c.toNat < 0x110000 := c.valid

/-- The first bits of a character are put under the bits of its lead byte. -/
theorem lead_or {width lead low : Nat} (h : low < 2 ^ width) :
    lead <<< width ||| low = low % 2 ^ width + lead * 2 ^ width := by
  rw [← Nat.shiftLeft_add_eq_or_of_lt h, Nat.shiftLeft_eq, Nat.mod_eq_of_lt h,
    Nat.add_comm]

theorem continuation_or (low : Nat) :
    0x80 ||| low &&& 0x3f = low % 0x40 + 0x80 := by
  have hlow : low &&& 0x3f = low % 2 ^ 6 := Nat.and_two_pow_sub_one_eq_mod low 6
  have hlt : low % 2 ^ 6 < 2 ^ 6 := Nat.mod_lt low (by decide)
  have hor : 0x80 ||| low % 2 ^ 6 = low % 2 ^ 6 % 2 ^ 6 + 0x80 :=
    @lead_or 6 2 (low % 2 ^ 6) hlt
  rw [hlow, hor, Nat.mod_mod, show 2 ^ 6 = 0x40 from rfl]

/-- The encoder of the parser is that of the standard, in each of its four ranges of
code points. -/
theorem utf8_toNat (c : Char) : utf8 c.toNat = String.utf8EncodeChar c := by
  have hrange := toNat_spec c
  have hval : c.val.toNat = c.toNat := rfl
  rw [utf8, String.utf8EncodeChar, hval]
  generalize c.toNat = v at *
  have hsix : v >>> 6 = v / 64 := Nat.shiftRight_eq_div_pow v 6
  have htwelve : v >>> 12 = v / 4096 := Nat.shiftRight_eq_div_pow v 12
  have heighteen : v >>> 18 = v / 262144 := Nat.shiftRight_eq_div_pow v 18
  rw [hsix, htwelve, heighteen]
  simp only [continuation_or]
  by_cases hone : v ≤ 0x7f
  · rw [if_pos hone, if_pos hone]
  rw [if_neg hone, if_neg hone]
  by_cases htwo : v ≤ 0x7ff
  · have hlead : 0xc0 ||| v / 64 = v / 64 % 32 + 0xc0 :=
      @lead_or 5 6 (v / 64) (by omega)
    rw [if_pos htwo, if_pos htwo, hlead]
  rw [if_neg htwo, if_neg htwo]
  by_cases hthree : v ≤ 0xffff
  · have hlead : 0xe0 ||| v / 4096 = v / 4096 % 16 + 0xe0 :=
      @lead_or 4 14 (v / 4096) (by omega)
    rw [if_pos hthree, if_pos hthree, hlead]
  · have hlead : 0xf0 ||| v / 262144 = v / 262144 % 8 + 0xf0 :=
      @lead_or 3 30 (v / 262144) (by omega)
    rw [if_neg hthree, if_neg hthree, hlead]

/-- A character other than the quote and the backslash has no byte of theirs. -/
theorem mem_utf8EncodeChar {c : Char} (hquote : c ≠ '"') (hslash : c ≠ '\\') :
    ∀ byte ∈ String.utf8EncodeChar c, byte ≠ 0x22 ∧ byte ≠ 0x5c := by
  have hbyte : ∀ v : Nat, v < 0x100 → v ≠ 0x22 → v ≠ 0x5c →
      UInt8.ofNat v ≠ 0x22 ∧ UInt8.ofNat v ≠ 0x5c := by
    intro v hlt hquote hslash
    constructor
    · intro heq
      have hnat := congrArg UInt8.toNat heq
      rw [UInt8.toNat_ofNat', Nat.mod_eq_of_lt hlt] at hnat
      exact hquote hnat
    · intro heq
      have hnat := congrArg UInt8.toNat heq
      rw [UInt8.toNat_ofNat', Nat.mod_eq_of_lt hlt] at hnat
      exact hslash hnat
  have hquote : c.val.toNat ≠ 0x22 := fun heq =>
    hquote (Char.ext (UInt32.toNat_inj.mp heq))
  have hslash : c.val.toNat ≠ 0x5c := fun heq =>
    hslash (Char.ext (UInt32.toNat_inj.mp heq))
  rw [String.utf8EncodeChar]
  split
  · rw [List.forall_mem_singleton]
    exact hbyte _ (by omega) hquote hslash
  split
  · simp only [List.forall_mem_cons]
    exact ⟨hbyte _ (by omega) (by omega) (by omega),
      hbyte _ (by omega) (by omega) (by omega), by simp⟩
  split
  · simp only [List.forall_mem_cons]
    exact ⟨hbyte _ (by omega) (by omega) (by omega),
      hbyte _ (by omega) (by omega) (by omega),
      hbyte _ (by omega) (by omega) (by omega), by simp⟩
  · simp only [List.forall_mem_cons]
    exact ⟨hbyte _ (by omega) (by omega) (by omega),
      hbyte _ (by omega) (by omega) (by omega),
      hbyte _ (by omega) (by omega) (by omega),
      hbyte _ (by omega) (by omega) (by omega), by simp⟩

/-! ## Escapes -/

theorem hexDigit_eq (c : UInt8) : hexDigit c = hexDigitValue c := by
  revert c
  decide +kernel

namespace JsonParser

theorem foldlM_hexDigit (digits : Bytes) :
    ∀ (value number : Nat), HexNumber digits number →
      digits.foldlM (fun value c => do
        let digit ← hexDigit c
        return value <<< 4 ||| digit) value =
        some (value * 16 ^ digits.length + number) := by
  induction digits with
  | nil =>
      intro value number h
      rw [hexNumber_nil.mp h]
      simp
  | cons c rest ih =>
      intro value number h
      obtain ⟨d, low, hd, hlow, rfl⟩ := hexNumber_cons.mp h
      have hshift : value <<< 4 ||| d = value * 16 + d := by
        rw [← Nat.shiftLeft_add_eq_or_of_lt (i := 4) (hexDigitValue_lt hd),
          Nat.shiftLeft_eq]
      rw [List.foldlM_cons, hexDigit_eq, hd]
      show rest.foldlM _ (value <<< 4 ||| d) = _
      rw [ih _ low hlow, hshift, List.length_cons, Nat.pow_succ]
      congr 1
      ring

/-- Four digits are read as their number. -/
theorem parseHex4_digits {digits : Bytes} {value : Nat} (hlength : digits.length = 4)
    (h : HexNumber digits value) (rest : Bytes) :
    parseHex4 (digits ++ rest) = .ok (value, rest) := by
  have hlong : ¬ (digits ++ rest).length < 4 := by
    rw [List.length_append]
    omega
  have htake : (digits ++ rest).take 4 = digits := List.take_left' hlength
  have hdrop : (digits ++ rest).drop 4 = rest := List.drop_left' hlength
  have hvalue : hexValue digits = some value := by
    rw [hexValue, foldlM_hexDigit digits 0 value h]
    simp
  show (if (digits ++ rest).length < 4 then _ else _ : JsonParser Nat)
    (digits ++ rest) = _
  rw [if_neg hlong, htake, hvalue]
  show Except.ok (value, (digits ++ rest).drop 4) = _
  rw [hdrop]

theorem parseCharacters_quote (fuel : Nat) (out rest : Bytes) :
    parseCharacters (fuel + 1) out (0x22 :: rest) = .ok (out, rest) := rfl

theorem parseCharacters_plain (fuel : Nat) (out rest : Bytes) {c : UInt8}
    (hquote : c ≠ 0x22) (hslash : c ≠ 0x5c) :
    parseCharacters (fuel + 1) out (c :: rest) =
      parseCharacters fuel (out ++ [c]) rest := by
  show (if c = 0x22 then (return out : JsonParser Bytes)
    else if c ≠ 0x5c then parseCharacters fuel (out ++ [c]) else _) rest = _
  rw [if_neg hquote, if_pos hslash]

theorem parseCharacters_escape (fuel : Nat) (out : Bytes) {c : UInt8}
    {rest bytes rest' : Bytes} (h : parseEscape c rest = .ok (bytes, rest')) :
    parseCharacters (fuel + 1) out (0x5c :: c :: rest) =
      parseCharacters fuel (out ++ bytes) rest' := by
  show (parseEscape c >>= fun bytes => parseCharacters fuel (out ++ bytes)) rest = _
  show parseEscape c rest >>= (fun result =>
    parseCharacters fuel (out ++ result.1) result.2) = _
  rw [h]
  rfl

theorem parseCharacters_plains (bytes : Bytes) (fuel : Nat) (out rest : Bytes)
    (h : ∀ byte ∈ bytes, byte ≠ 0x22 ∧ byte ≠ 0x5c) :
    parseCharacters (bytes.length + fuel) out (bytes ++ rest) =
      parseCharacters fuel (out ++ bytes) rest := by
  induction bytes generalizing out with
  | nil => simp
  | cons byte bytes ih =>
      have hbyte := h byte (by simp)
      have hsucc : (byte :: bytes).length + fuel = (bytes.length + fuel) + 1 := by
        rw [List.length_cons]
        omega
      rw [hsucc, List.cons_append,
        parseCharacters_plain _ _ _ hbyte.1 hbyte.2,
        ih _ fun other hmem => h other (List.mem_cons_of_mem _ hmem),
        List.append_assoc, List.singleton_append]

/-! ## What the parser makes of an escape -/

theorem parseEscape_short {c : Char} {letter : UInt8}
    (h : (c, letter) ∈ shortEscapes) (rest : Bytes) :
    parseEscape letter rest = .ok (String.utf8EncodeChar c, rest) := by
  simp only [shortEscapes, List.mem_cons, Prod.mk.injEq, List.not_mem_nil,
    or_false] at h
  rcases h with ⟨rfl, rfl⟩ | ⟨rfl, rfl⟩ | ⟨rfl, rfl⟩ | ⟨rfl, rfl⟩ | ⟨rfl, rfl⟩ |
    ⟨rfl, rfl⟩ | ⟨rfl, rfl⟩ | ⟨rfl, rfl⟩ <;> rfl

/-- A number that is no high surrogate is a whole code point. -/
theorem codePoint_whole {high : Nat} (h : high < 0xd800 ∨ 0xdbff < high)
    (rest : Bytes) : codePoint high rest = .ok (high, rest) := by
  have hnot : ¬ (0xd800 ≤ high ∧ high ≤ 0xdbff ∧ 6 ≤ rest.length ∧
      rest.take 2 = ascii "\\u") := by
    omega
  show (if 0xd800 ≤ high ∧ high ≤ 0xdbff ∧ 6 ≤ rest.length ∧
      rest.take 2 = ascii "\\u" then _ else (return high : JsonParser Nat)) rest = _
  rw [if_neg hnot]
  rfl

/-- A high surrogate is put together with the low one that follows. -/
theorem codePoint_surrogates {high low : Nat} {text : Bytes}
    (hhigh : 0xd800 ≤ high ∧ high < 0xdc00) (hlow : 0xdc00 ≤ low ∧ low < 0xe000)
    (h : UnicodeEscape text low) (rest : Bytes) :
    codePoint high (text ++ rest) =
      .ok (0x10000 + (high - 0xd800) * 0x400 + (low - 0xdc00), rest) := by
  obtain ⟨digits, rfl, hlength, hnumber⟩ := h
  have hpair : 0xd800 ≤ high ∧ high ≤ 0xdbff ∧
      6 ≤ (0x5c :: 0x75 :: digits ++ rest).length ∧
      (0x5c :: 0x75 :: digits ++ rest).take 2 = ascii "\\u" := by
    refine ⟨hhigh.1, by omega, ?_, rfl⟩
    simp only [List.length_append, List.length_cons]
    omega
  have hinner : 0xdc00 ≤ low ∧ low ≤ 0xdfff := by omega
  show (if 0xd800 ≤ high ∧ high ≤ 0xdbff ∧
        6 ≤ (0x5c :: 0x75 :: digits ++ rest).length ∧
        (0x5c :: 0x75 :: digits ++ rest).take 2 = ascii "\\u" then (do
      advance 2
      let low ← parseHex4
      if 0xdc00 ≤ low ∧ low ≤ 0xdfff then
        return 0x10000 + ((high - 0xd800) <<< 10) + (low - 0xdc00)
      else do
        set (0x5c :: 0x75 :: digits ++ rest)
        return high : JsonParser Nat) else return high)
    (0x5c :: 0x75 :: digits ++ rest) = _
  rw [if_pos hpair]
  show (parseHex4 (digits ++ rest) >>= fun result =>
    (if 0xdc00 ≤ result.1 ∧ result.1 ≤ 0xdfff then (do
      return 0x10000 + ((high - 0xd800) <<< 10) + (result.1 - 0xdc00) :
        JsonParser Nat)
    else do
      set (0x5c :: 0x75 :: digits ++ rest)
      return high) result.2) = _
  rw [parseHex4_digits hlength hnumber, ok_bind, if_pos hinner, Nat.shiftLeft_eq]
  rfl

theorem parseEscape_unicode {digits : Bytes} {value number : Nat}
    {rest rest' : Bytes} (hlength : digits.length = 4) (h : HexNumber digits value)
    (hpoint : codePoint value rest = .ok (number, rest')) :
    parseEscape 0x75 (digits ++ rest) = .ok (utf8 number, rest') := by
  show (parseHex4 (digits ++ rest) >>= fun result =>
    codePoint result.1 result.2 >>= fun point =>
      .ok (utf8 point.1, point.2)) = _
  rw [parseHex4_digits hlength h, ok_bind, hpoint]
  rfl

/-! ## Strings -/

/-- Text that adds these bytes to a string, in at most a turn for each of its
characters and whatever follows. -/
def Reads (text bytes : Bytes) : Prop :=
  ∃ turns ≤ text.length, ∀ (fuel : Nat) (out rest : Bytes),
    parseCharacters (turns + fuel) out (text ++ rest) =
      parseCharacters fuel (out ++ bytes) rest

theorem reads_escape {letter : UInt8} {digits bytes : Bytes}
    (h : ∀ rest, parseEscape letter (digits ++ rest) = .ok (bytes, rest)) :
    Reads (0x5c :: letter :: digits) bytes := by
  refine ⟨1, by simp, ?_⟩
  intro fuel out rest
  rw [Nat.add_comm 1 fuel]
  exact parseCharacters_escape fuel out (h rest)

theorem reads_plain {bytes : Bytes}
    (h : ∀ byte ∈ bytes, byte ≠ 0x22 ∧ byte ≠ 0x5c) : Reads bytes bytes :=
  ⟨_, Nat.le_refl _, fun fuel out rest => parseCharacters_plains bytes fuel out rest h⟩

/-- The characters of a string, up to its closing quote. -/
theorem parseString_of_reads {texts pieces : List Bytes}
    (h : List.Forall₂ Reads texts pieces) (rest : Bytes) :
    parseString (0x22 :: (texts.flatten ++ 0x22 :: rest)) =
      .ok (pieces.flatten, rest) := by
  have hloop : ∀ (fuel : Nat) (out : Bytes), texts.flatten.length < fuel →
      parseCharacters fuel out (texts.flatten ++ 0x22 :: rest) =
        .ok (out ++ pieces.flatten, rest) := by
    induction h with
    | nil =>
        intro fuel out hfuel
        cases fuel with
        | zero => cases hfuel
        | succ fuel =>
            rw [List.flatten_nil, List.append_nil]
            exact parseCharacters_quote fuel out rest
    | cons hhead htail ih =>
        intro fuel out hfuel
        obtain ⟨turns, hturns, hstep⟩ := hhead
        rw [List.flatten_cons, List.length_append] at hfuel
        have hsplit : fuel = turns + (fuel - turns) := by omega
        rw [List.flatten_cons, List.append_assoc, hsplit, hstep,
          ih _ _ (by omega), List.flatten_cons, List.append_assoc]
  have hfuel : texts.flatten.length < (texts.flatten ++ 0x22 :: rest).length + 1 := by
    rw [List.length_append]
    omega
  exact hloop _ [] hfuel

/-- A spelling of a character is read as its UTF-8. -/
theorem reads_spells {c : Char} {text : Bytes} (h : Spells c text) :
    Reads text (String.utf8EncodeChar c) := by
  cases h with
  | raw hcontrol hquote hslash =>
      exact reads_plain (mem_utf8EncodeChar hquote hslash)
  | short h => exact reads_escape (parseEscape_short h)
  | unicode h =>
      obtain ⟨digits, rfl, hlength, hnumber⟩ := h
      apply reads_escape
      intro rest
      have hpoint := @codePoint_whole c.toNat (by
        have hrange := toNat_spec c
        omega) rest
      rw [parseEscape_unicode hlength hnumber hpoint, utf8_toNat]
  | surrogates hfirst hsecond hhigh hlow hvalue =>
      rename_i first second high low
      obtain ⟨digits, rfl, hlength, hnumber⟩ := hfirst
      have hread : ∀ rest, parseEscape 0x75 ((digits ++ second) ++ rest) =
          .ok (String.utf8EncodeChar c, rest) := by
        intro rest
        have hpoint := codePoint_surrogates hhigh hlow hsecond rest
        rw [List.append_assoc, parseEscape_unicode hlength hnumber hpoint, ← hvalue,
          utf8_toNat]
      exact reads_escape hread

/-- Every spelling of a string of characters is read as the UTF-8 of the
characters, and the parser stops right after the closing quote. -/
theorem parseString_spelled {chars : List Char} {spellings : List Bytes}
    (h : List.Forall₂ Spells chars spellings) (rest : Bytes) :
    parseString (0x22 :: (spellings.flatten ++ 0x22 :: rest)) =
      .ok (chars.flatMap String.utf8EncodeChar, rest) := by
  have hreads : List.Forall₂ Reads spellings (chars.map String.utf8EncodeChar) := by
    induction h with
    | nil => exact List.Forall₂.nil
    | cons hhead htail ih => exact List.Forall₂.cons (reads_spells hhead) ih
  rw [parseString_of_reads hreads, List.flatMap_def]

/-- Four characters, each in another way: an accented letter raw, a tab by its
short escape, a letter by its number, and one above `U+FFFF` by two escapes. -/
theorem parseString_spelled_mixed :
    parseString (0x22 :: (List.flatten [String.utf8EncodeChar 'é', ascii "\\t",
        ascii "\\u0041", ascii "\\uD83d\\ude00"] ++ 0x22 :: ascii ", 1")) =
      .ok (['é', '\t', 'A', '😀'].flatMap String.utf8EncodeChar, ascii ", 1") := by
  have hletter : HexNumber (ascii "0041") 0x41 :=
    ⟨[0, 0, 4, 1], .cons (by decide +kernel) (.cons (by decide +kernel)
      (.cons (by decide +kernel) (.cons (by decide +kernel) .nil))), rfl⟩
  have hhigh : HexNumber (ascii "D83d") 0xd83d :=
    ⟨[13, 8, 3, 13], .cons (by decide +kernel) (.cons (by decide +kernel)
      (.cons (by decide +kernel) (.cons (by decide +kernel) .nil))), rfl⟩
  have hlow : HexNumber (ascii "de00") 0xde00 :=
    ⟨[13, 14, 0, 0], .cons (by decide +kernel) (.cons (by decide +kernel)
      (.cons (by decide +kernel) (.cons (by decide +kernel) .nil))), rfl⟩
  apply parseString_spelled
  apply List.Forall₂.cons (Spells.raw (by decide) (by decide) (by decide))
  apply List.Forall₂.cons (Spells.short (by decide))
  have hunicode : Spells 'A' (ascii "\\u0041") :=
    Spells.unicode ⟨ascii "0041", rfl, rfl, hletter⟩
  apply List.Forall₂.cons hunicode
  apply List.Forall₂.cons _ List.Forall₂.nil
  exact @Spells.surrogates '😀' (ascii "\\uD83d") (ascii "\\ude00") 0xd83d 0xde00
    ⟨ascii "D83d", rfl, rfl, hhigh⟩ ⟨ascii "de00", rfl, rfl, hlow⟩ (by decide)
    (by decide) (by decide)

end JsonParser

end Ioscpp.Protocol.Json
