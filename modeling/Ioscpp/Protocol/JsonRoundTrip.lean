import Ioscpp.Protocol.JsonText
import Ioscpp.Support.Binary64Integers

/-!
# The JSON round trip

The parser undoes the writer part by part: a character of a string, a number, an
element with the comma before it.  What follows a value is the end, a comma or a
closing bracket, and none of these goes on with a number.

## Main results

- `parseString_serializeString`: a string is read back.
- `sameNumber_toInt64`: the double of the integer that is written is the one that was.
- `readsAs_same`: every tree that the text holds whole is read back as an equal one.
- `parse_toString`: the round trip.
-/

namespace Ioscpp.Protocol.Json

open Ioscpp.Support

/-! ## Numbers -/

/-- An integer below `10^15`, without its sign. -/
def magnitude (bits : UInt64) : Nat :=
  (magnitudeRatio bits).1 / (magnitudeRatio bits).2

theorem IsInteger.magnitude_lt {bits : UInt64} (h : IsInteger bits) :
    magnitude bits < 10 ^ 15 := by
  apply Nat.div_lt_of_lt_mul
  rw [Nat.mul_comm]
  exact h.2.2

theorem IsInteger.scale_eq {bits : UInt64} (h : IsInteger bits) :
    Binary64.scale (Binary64.significand bits) 1 (-Binary64.exponent bits) =
      (magnitude bits * (magnitudeRatio bits).2, (magnitudeRatio bits).2) := by
  have hwhole : magnitude bits * (magnitudeRatio bits).2 = (magnitudeRatio bits).1 :=
    Nat.div_mul_cancel (Nat.dvd_of_mod_eq_zero h.2.1)
  rw [hwhole]
  rfl

/-- The double is given by its sign and its magnitude. -/
theorem IsInteger.eq_ofRatio {bits : UInt64} (h : IsInteger bits) :
    bits = Binary64.ofRatio (Binary64.isNegative bits) (magnitude bits) 1 := by
  have hlt := h.magnitude_lt
  exact Binary64.eq_ofRatio_of_integer (by omega) h.scale_eq

theorem IsInteger.toInt64_eq {bits : UInt64} (h : IsInteger bits) :
    (Binary64.toInt64 bits).toInt =
      if Binary64.isNegative bits then -(magnitude bits : Int)
      else magnitude bits := by
  have hlt := h.magnitude_lt
  have hfinite : Binary64.exponentField bits ≠ 0x7ff := of_decide_eq_true h.1
  unfold Binary64.toInt64
  show (if Binary64.exponentField bits = 0x7ff then Int64.minValue
    else if Binary64.isNegative bits then
      if magnitude bits ≤ 2 ^ 63 then Int64.ofInt (-magnitude bits)
      else Int64.minValue
    else if magnitude bits < 2 ^ 63 then Int64.ofNat (magnitude bits)
    else Int64.minValue).toInt = _
  rw [if_neg hfinite]
  by_cases hneg : Binary64.isNegative bits = true
  · rw [if_pos hneg, if_pos hneg, if_pos (by omega)]
    exact Int64.toInt_ofInt_of_le (by omega) (by omega)
  · rw [if_neg hneg, if_neg hneg, if_pos (by omega)]
    exact Int64.toInt_ofNat_of_lt (by omega)

/-- What may follow a value in a text. -/
def Delimited (rest : Bytes) : Prop :=
  ∀ c ∈ rest.head?, c = 0x2c ∨ c = 0x5d ∨ c = 0x7d

theorem delimited_nil : Delimited [] := by
  intro c hc
  cases hc

theorem delimited_cons {c : UInt8} (h : c = 0x2c ∨ c = 0x5d ∨ c = 0x7d)
    (rest : Bytes) : Delimited (c :: rest) := by
  intro d hd
  cases hd
  exact h

theorem spanDigits_digits {digits rest : Bytes} (hdigits : ∀ c ∈ digits, isDigit c)
    (hrest : Delimited rest) : spanDigits (digits ++ rest) = (digits, rest) := by
  have hnone : rest.takeWhile isDigit = [] ∧ rest.dropWhile isDigit = rest := by
    cases rest with
    | nil => exact ⟨rfl, rfl⟩
    | cons c rest =>
        have hc := hrest c rfl
        rcases hc with rfl | rfl | rfl <;> exact ⟨rfl, rfl⟩
  unfold spanDigits
  rw [List.takeWhile_append_of_pos hdigits, List.dropWhile_append_of_pos hdigits,
    hnone.1, hnone.2, List.append_nil]

/-- Digits and a minus sign are one number, up to the delimiter. -/
theorem numberToken_minus {digits rest : Bytes} (hdigits : ∀ c ∈ digits, isDigit c)
    (hrest : Delimited rest) :
    numberToken (0x2d :: (digits ++ rest)) = (0x2d :: digits, rest) := by
  have hspan := spanDigits_digits hdigits hrest
  cases rest with
  | nil =>
      rw [List.append_nil] at hspan ⊢
      simp [numberToken, hspan]
  | cons c rest =>
      rcases hrest c rfl with rfl | rfl | rfl <;> simp [numberToken, hspan]

theorem numberToken_plain {digits rest : Bytes} (hdigits : ∀ c ∈ digits, isDigit c)
    (hnil : digits ≠ []) (hrest : Delimited rest) :
    numberToken (digits ++ rest) = (digits, rest) := by
  have hspan := spanDigits_digits hdigits hrest
  obtain ⟨d, digits, rfl⟩ := List.exists_cons_of_ne_nil hnil
  have hminus : d ≠ 0x2d := by
    intro heq
    have hd := hdigits d (by simp)
    rw [heq] at hd
    cases hd
  rw [List.cons_append] at hspan ⊢
  cases rest with
  | nil =>
      rw [List.append_nil] at hspan ⊢
      simp [numberToken, hspan, hminus]
  | cons c rest =>
      rcases hrest c rfl with rfl | rfl | rfl <;> simp [numberToken, hspan, hminus]

/-- The digits of a small number are read as its double. -/
theorem fromDigits_decimal (negative : Bool) {value : Nat} (h : value < 2 ^ 53) :
    fromDigits negative (decimal value) =
      some (Binary64.ofRatio negative value 1) := by
  have hdigits : ∀ c ∈ decimal value, isDigit c := isDigit_of_mem_decimal
  have htake : RealText.takeDigits isDigit (decimal value) =
      (decimal value, [], []) := by
    unfold RealText.takeDigits
    rw [List.dropWhile_eq_nil_iff.mpr hdigits, List.takeWhile_eq_self_iff.mpr hdigits]
  have hratio : RealText.timesTen (digitsValue (decimal value ++ [])) 1
      (0 - ((([] : Bytes).length : Nat) : Int)) = (value, 1) := by
    rw [List.append_nil, digitsValue_decimal]
    show (value * 10 ^ 0, 1) = _
    rw [Nat.pow_zero, Nat.mul_one]
  have hrange : ¬ ((Binary64.ofRatio negative value 1).toNat % 2 ^ 63 =
        Binary64.infinity ∨
      (Binary64.ofRatio negative value 1).toNat % 2 ^ 63 = 0 ∧ value ≠ 0) := by
    by_cases hzero : value = 0
    · rw [hzero, Binary64.toNat_ofRatio_zero]
      cases negative <;> decide
    · have hpos : 0 < value := Nat.pos_of_ne_zero hzero
      have hlog : value.log2 < 53 := (Nat.log2_lt hzero).mpr h
      have hbounds := Binary64.shifted_bounds hpos h
      have hpattern := Binary64.toNat_ofRatio negative hpos h Nat.one_pos
      rw [Nat.mul_one] at hpattern
      rw [hpattern]
      unfold Binary64.infinity
      cases negative
      · show ¬ ((0 + _) % 2 ^ 63 = _ ∨ (0 + _) % 2 ^ 63 = 0 ∧ _)
        omega
      · show ¬ ((2 ^ 63 + _) % 2 ^ 63 = _ ∨ (2 ^ 63 + _) % 2 ^ 63 = 0 ∧ _)
        omega
  unfold fromDigits
  rw [htake]
  dsimp only
  rw [if_neg fun hnil => decimal_ne_nil value hnil.1]
  show (if (_ : Prop) then _ else _) = _
  rw [hratio]
  dsimp only
  rw [if_neg hrange]

/-! ## What is read back -/

/-- Two doubles that are numbers compare equal: they are the same, or both are
zeros. -/
def SameNumber (bits other : UInt64) : Prop :=
  bits = other ∨ bits.toNat % 2 ^ 63 = 0 ∧ other.toNat % 2 ^ 63 = 0

/-- Two trees compare equal: they are the same but for their numbers, which compare as
doubles do, so that the two zeros are equal. -/
inductive Same : Json → Json → Prop
  | null : Same null null
  | boolean (value : Bool) : Same (boolean value) (boolean value)
  | number {bits other : UInt64} (h : SameNumber bits other) :
      Same (number bits) (number other)
  | string (text : Bytes) : Same (string text) (string text)
  | array {items others : List Json} (h : List.Forall₂ Same items others) :
      Same (array items) (array others)
  | object {entries others : List (Bytes × Json)}
      (hkeys : entries.map Prod.fst = others.map Prod.fst)
      (h : List.Forall₂ Same (entries.map Prod.snd) (others.map Prod.snd)) :
      Same (object entries) (object others)

/-- The trees that the text holds whole: the numbers are integers below `10^15`, the
strings are any bytes, and the members of an object are a map. -/
inductive Writable : Json → Prop
  | null : Writable null
  | boolean (value : Bool) : Writable (boolean value)
  | number {bits : UInt64} (h : IsInteger bits) : Writable (number bits)
  | string (text : Bytes) : Writable (string text)
  | array {items : List Json} (h : ∀ item ∈ items, Writable item) :
      Writable (array items)
  | object {entries : List (Bytes × Json)} (hsorted : SortedMap.Sorted entries)
      (h : ∀ entry ∈ entries, Writable entry.2) : Writable (object entries)

namespace JsonParser

theorem bind_apply {α β : Type} (p : JsonParser α) (f : α → JsonParser β)
    (text : Bytes) : (p >>= f) text = p text >>= fun x => f x.1 x.2 := rfl

theorem get_bind_apply {β : Type} (f : Bytes → JsonParser β) (text : Bytes) :
    ((get : JsonParser Bytes) >>= f) text = f text text := rfl

/-! ### Numbers -/

theorem parseValue_number {c : UInt8} (h : isDigit c ∨ c = 0x2d) (fuel : Nat)
    (rest : Bytes) :
    parseValue (fuel + 1) (c :: rest) = parseNumber (c :: rest) := by
  have hcases : ∀ c : UInt8, isDigit c ∨ c = 0x2d →
      c ∈ ([0x2d, 0x30, 0x31, 0x32, 0x33, 0x34, 0x35, 0x36, 0x37, 0x38, 0x39] :
        Bytes) := by
    decide +kernel
  have hmem := hcases c h
  simp only [List.mem_cons, List.not_mem_nil, or_false] at hmem
  rcases hmem with rfl | rfl | rfl | rfl | rfl | rfl | rfl | rfl | rfl | rfl | rfl <;>
    rfl

theorem parseNumber_token {text token rest : Bytes} {bits : UInt64}
    (htoken : numberToken text = (token, rest)) (hbits : fromChars token = some bits) :
    parseNumber text = .ok (.number bits, rest) := by
  unfold parseNumber
  rw [get_bind_apply, htoken]
  dsimp only
  rw [hbits]
  rfl

/-- A decimal integer is read as the double nearest to it. -/
theorem parseValue_decimalInt {value : Int} (h : value.natAbs < 2 ^ 53) {fuel : Nat}
    {rest : Bytes} (hrest : Delimited rest) :
    parseValue (fuel + 1) (decimalInt value ++ rest) =
      .ok (.number (Binary64.ofRatio (value < 0) value.natAbs 1), rest) := by
  have hdigits : ∀ c ∈ decimal value.natAbs, isDigit c := isDigit_of_mem_decimal
  have hnil := decimal_ne_nil value.natAbs
  by_cases hneg : value < 0
  · have hbits := fromDigits_decimal true h
    rw [decimalInt, if_pos hneg, decide_eq_true hneg, List.cons_append,
      parseValue_number (Or.inr rfl),
      parseNumber_token (numberToken_minus hdigits hrest) hbits]
  · have hbits := fromDigits_decimal false h
    rw [decimalInt, if_neg hneg, decide_eq_false hneg]
    have htoken := numberToken_plain hdigits hnil hrest
    generalize decimal value.natAbs = digits at *
    cases digits with
    | nil => exact absurd rfl hnil
    | cons d digits =>
        have hd : isDigit d = true := hdigits d (by simp)
        have hplain : fromChars (d :: digits) = fromDigits false (d :: digits) := by
          have hminus : d ≠ 0x2d := by
            intro heq
            rw [heq] at hd
            cases hd
          unfold fromChars
          split
          · rename_i heq
            exact absurd (List.cons.inj heq).1 hminus
          · rfl
        rw [List.cons_append, parseValue_number (Or.inl hd)]
        exact parseNumber_token htoken (hplain.trans hbits)

/-- The double of the integer that is written is the one that was, but for the sign
of a zero. -/
theorem sameNumber_toInt64 {bits : UInt64} (h : IsInteger bits) :
    SameNumber (Binary64.ofRatio ((Binary64.toInt64 bits).toInt < 0)
      (Binary64.toInt64 bits).toInt.natAbs 1) bits := by
  have hbits := h.eq_ofRatio
  have hint := h.toInt64_eq
  by_cases hzero : magnitude bits = 0
  · have hnone : (Binary64.toInt64 bits).toInt = 0 := by
      rw [hint, hzero]
      simp
    have hsign : ∀ negative, (Binary64.ofRatio negative 0 1).toNat % 2 ^ 63 = 0 := by
      decide
    rw [hzero] at hbits
    apply Or.inr
    rw [hnone]
    constructor
    · exact hsign _
    · rw [hbits]
      exact hsign _
  · have habs : (Binary64.toInt64 bits).toInt.natAbs = magnitude bits := by
      rw [hint]
      split <;> omega
    have hneg : decide ((Binary64.toInt64 bits).toInt < 0) =
        Binary64.isNegative bits := by
      rw [hint]
      cases Binary64.isNegative bits
      · exact decide_eq_false (by rw [if_neg Bool.false_ne_true]; omega)
      · exact decide_eq_true (by rw [if_pos rfl]; omega)
    apply Or.inl
    rw [habs, hneg]
    exact hbits.symm

/-- A value is read from its text as another, with fuel for its length. -/
def ReadsAs (value parsed : Json) : Prop :=
  ∀ (fuel : Nat) (rest : Bytes), (serialize value).length ≤ fuel → Delimited rest →
    parseValue fuel (serialize value ++ rest) = .ok (parsed, rest)

/-- A value's text begins with a character that is neither white space nor the end
of an array. -/
theorem serialize_eq_cons (value : Json) (h : Writable value) :
    ∃ c tail, serialize value = c :: tail ∧ isWhitespace c = false ∧ c ≠ 0x5d := by
  cases h with
  | null => exact ⟨_, _, rfl, rfl, by decide⟩
  | boolean value => cases value <;> exact ⟨_, _, rfl, rfl, by decide⟩
  | number h =>
      rename_i bits
      have htext : serialize (number bits) =
          decimalInt (Binary64.toInt64 bits).toInt := by
        rw [serialize, serializeNumber, if_pos h]
      rw [htext, decimalInt]
      split
      · exact ⟨_, _, rfl, rfl, by decide⟩
      · have hdigits : ∀ c ∈ decimal (Binary64.toInt64 bits).toInt.natAbs,
            isDigit c := isDigit_of_mem_decimal
        obtain ⟨c, tail, heq⟩ := List.exists_cons_of_ne_nil
          (decimal_ne_nil (Binary64.toInt64 bits).toInt.natAbs)
        rw [heq] at hdigits ⊢
        have hc : isDigit c := hdigits c (by simp)
        have hall : ∀ c : UInt8, isDigit c → isWhitespace c = false ∧ c ≠ 0x5d := by
          decide +kernel
        exact ⟨c, tail, rfl, hall c hc⟩
  | string text => exact ⟨_, _, by rw [serialize, serializeString], rfl, by decide⟩
  | array h => exact ⟨_, _, by rw [serialize], rfl, by decide⟩
  | object hsorted h => exact ⟨_, _, by rw [serialize], rfl, by decide⟩

theorem readsAs_number {bits : UInt64} (h : IsInteger bits) :
    ReadsAs (number bits) (number (Binary64.ofRatio
      ((Binary64.toInt64 bits).toInt < 0) (Binary64.toInt64 bits).toInt.natAbs 1)) := by
  intro fuel rest hfuel hrest
  have hlt := h.magnitude_lt
  have hint := h.toInt64_eq
  have habs : (Binary64.toInt64 bits).toInt.natAbs < 2 ^ 53 := by
    rw [hint]
    split <;> omega
  obtain ⟨c, tail, htext, -⟩ := serialize_eq_cons _ (Writable.number h)
  rw [htext, List.length_cons] at hfuel
  obtain ⟨fuel, rfl⟩ := Nat.exists_eq_add_one_of_ne_zero (show fuel ≠ 0 by omega)
  rw [serialize, serializeNumber, if_pos h]
  exact parseValue_decimalInt habs hrest

/-! ### Strings -/

theorem hexDigitValue_lower (value : Nat) :
    hexDigitValue (lowerHexDigit value) = some (value % 16) := by
  have hall : ∀ d < 16, hexDigitValue ((ascii "0123456789abcdef").getD d 0) =
      some d := by
    decide +kernel
  exact hall (value % 16) (Nat.mod_lt _ (by decide))

/-- A character is read back, whatever its escape. -/
theorem reads_serializeChar (c : UInt8) : Reads (serializeChar c) [c] := by
  unfold serializeChar
  split
  · exact @reads_escape 0x22 [] _ fun _ => rfl
  · exact @reads_escape 0x5c [] _ fun _ => rfl
  · exact @reads_escape 0x62 [] _ fun _ => rfl
  · exact @reads_escape 0x66 [] _ fun _ => rfl
  · exact @reads_escape 0x6e [] _ fun _ => rfl
  · exact @reads_escape 0x72 [] _ fun _ => rfl
  · exact @reads_escape 0x74 [] _ fun _ => rfl
  · rename_i hquote hslash _ _ _ _ _
    by_cases hcontrol : c < 0x20
    · have hc : c.toNat < 32 := hcontrol
      have hdigits : HexNumber [lowerHexDigit (c.toNat / 4096),
          lowerHexDigit (c.toNat / 256), lowerHexDigit (c.toNat / 16),
          lowerHexDigit c.toNat] c.toNat := by
        refine ⟨[c.toNat / 4096 % 16, c.toNat / 256 % 16, c.toNat / 16 % 16,
          c.toNat % 16], ?_, ?_⟩
        · exact .cons (hexDigitValue_lower _) (.cons (hexDigitValue_lower _)
            (.cons (hexDigitValue_lower _) (.cons (hexDigitValue_lower _) .nil)))
        · simp only [List.reverse_cons, List.reverse_nil, List.nil_append,
            List.cons_append, Nat.ofDigits_cons, Nat.ofDigits_nil]
          omega
      have hutf8 : utf8 c.toNat = [c] := by
        rw [utf8, if_pos (by omega), UInt8.ofNat_toNat]
      have hread : ∀ rest, parseEscape 0x75 ([lowerHexDigit (c.toNat / 4096),
          lowerHexDigit (c.toNat / 256), lowerHexDigit (c.toNat / 16),
          lowerHexDigit c.toNat] ++ rest) = .ok ([c], rest) := by
        intro rest
        have hpoint := @codePoint_whole c.toNat (by omega) rest
        rw [parseEscape_unicode rfl hdigits hpoint, hutf8]
      rw [if_pos hcontrol]
      exact reads_escape hread
    · rw [if_neg hcontrol]
      apply reads_plain
      rw [List.forall_mem_singleton]
      exact ⟨hquote, hslash⟩

/-- A string of any bytes is read back, and the parser stops after its closing quote:
control characters, the quote and the backslash are escaped, all others stand as they
are. -/
theorem parseString_serializeString (text rest : Bytes) :
    parseString (serializeString text ++ rest) = .ok (text, rest) := by
  have hreads : List.Forall₂ Reads (text.map serializeChar)
      (text.map fun c => [c]) := by
    induction text with
    | nil => exact List.Forall₂.nil
    | cons c text ih => exact List.Forall₂.cons (reads_serializeChar c) ih
  have hback : (text.map fun c => [c]).flatten = text := by
    rw [← List.flatMap_def, List.flatMap_singleton']
  have hstring := parseString_of_reads hreads rest
  rw [hback, ← List.flatMap_def] at hstring
  rw [serializeString, List.cons_append, List.append_assoc, List.singleton_append]
  exact hstring

/-! ### Trees -/

theorem skipWhitespace_cons {c : UInt8} (h : isWhitespace c = false) (rest : Bytes) :
    skipWhitespace (c :: rest) = .ok ((), c :: rest) := by
  show Except.ok ((), (c :: rest).dropWhile isWhitespace) = _
  rw [List.dropWhile_cons_of_neg (by simp [h])]

theorem peek_cons (c : UInt8) (rest : Bytes) :
    peek (c :: rest) = .ok (c, c :: rest) := rfl

theorem advance_one (c : UInt8) (rest : Bytes) :
    advance 1 (c :: rest) = .ok ((), rest) := rfl

/-- A value does not begin with white space. -/
theorem skipWhitespace_serialize {value : Json} (hwritable : Writable value)
    (rest : Bytes) :
    skipWhitespace (serialize value ++ rest) = .ok ((), serialize value ++ rest) := by
  obtain ⟨c, tail, htext, hspace, -⟩ := serialize_eq_cons value hwritable
  rw [htext]
  exact skipWhitespace_cons hspace _

/-- A turn of the loop over elements takes an element and the comma after it, or
the bracket. -/
theorem parseElements_element {value parsed : Json} (hwritable : Writable value)
    (h : ReadsAs value parsed) (elements : List Json) {fuel : Nat} (rest : Bytes)
    (hfuel : (serialize value).length ≤ fuel) :
    parseElements (fuel + 1) elements (serialize value ++ 0x2c :: rest) =
        parseElements fuel (elements ++ [parsed]) rest ∧
      parseElements (fuel + 1) elements (serialize value ++ 0x5d :: rest) =
        .ok (.array (elements ++ [parsed]), rest) := by
  have hskip := @skipWhitespace_serialize value hwritable
  constructor
  · have hvalue := h fuel (0x2c :: rest) hfuel (delimited_cons (Or.inl rfl) rest)
    rw [parseElements, bind_apply, hskip, ok_bind, bind_apply, hvalue, ok_bind]
    rfl
  · have hvalue := h fuel (0x5d :: rest) hfuel
      (delimited_cons (Or.inr (Or.inl rfl)) rest)
    rw [parseElements, bind_apply, hskip, ok_bind, bind_apply, hvalue, ok_bind]
    rfl

/-- The loop over the elements of an array that has one. -/
theorem parseElements_serialize {items others : List Json}
    (hwritable : ∀ item ∈ items, Writable item)
    (h : List.Forall₂ ReadsAs items others) (rest : Bytes) :
    ∀ (item other : Json), Writable item → ReadsAs item other →
      ∀ (fuel : Nat) (elements : List Json),
        (serializeElements true (item :: items)).length < fuel →
        parseElements fuel elements
            (serializeElements true (item :: items) ++ 0x5d :: rest) =
          .ok (.array (elements ++ other :: others), rest) := by
  induction h with
  | nil =>
      intro item other hitem hread fuel elements hfuel
      rw [serializeElements, serializeElements, if_pos rfl, List.nil_append,
        List.append_nil] at hfuel ⊢
      obtain ⟨fuel, rfl⟩ := Nat.exists_eq_add_one_of_ne_zero (show fuel ≠ 0 by omega)
      exact (parseElements_element hitem hread elements rest (by omega)).2
  | cons hnext htail ih =>
      rename_i next nextOther items others
      intro item other hitem hread fuel elements hfuel
      have htext : serializeElements true (item :: next :: items) =
          serialize item ++ 0x2c :: serializeElements true (next :: items) := by
        simp [serializeElements]
      rw [htext, List.length_append, List.length_cons] at hfuel
      obtain ⟨fuel, rfl⟩ := Nat.exists_eq_add_one_of_ne_zero (show fuel ≠ 0 by omega)
      have hturn := (@parseElements_element item other hitem hread elements fuel
        (serializeElements true (next :: items) ++ 0x5d :: rest) (by omega)).1
      have hrest := ih (fun item hmem => hwritable item (List.mem_cons_of_mem _ hmem))
        next nextOther (hwritable next (by simp)) hnext fuel (elements ++ [other])
        (by omega)
      rw [htext, List.append_assoc, List.cons_append, hturn, hrest,
        List.append_assoc, List.singleton_append]

/-- A turn of the loop over members takes a key, the colon and a value, and goes
by what follows them. -/
theorem parseMembers_delimited {value parsed : Json} (hwritable : Writable value)
    (h : ReadsAs value parsed) (key : Bytes) (members : List (Bytes × Json))
    {fuel : Nat} {c : UInt8} (hc : c = 0x2c ∨ c = 0x5d ∨ c = 0x7d) (rest : Bytes)
    (hfuel : (serialize value).length ≤ fuel) :
    parseMembers (fuel + 1) members
        (serializeString key ++ 0x3a :: (serialize value ++ c :: rest)) =
      match c with
      | 0x2c => parseMembers fuel (SortedMap.emplace key parsed members) rest
      | 0x7d => .ok (.object (SortedMap.emplace key parsed members), rest)
      | _ => fail "a JSON object is malformed" (c :: rest) := by
  have hskip := @skipWhitespace_serialize value hwritable
  have hquote : ∀ rest, skipWhitespace (serializeString key ++ rest) =
      .ok ((), serializeString key ++ rest) := fun _ => rfl
  have hvalue := h fuel (c :: rest) hfuel (delimited_cons hc rest)
  rw [parseMembers, bind_apply, hquote, ok_bind, bind_apply,
    parseString_serializeString, ok_bind, bind_apply, skipWhitespace_cons rfl,
    ok_bind, bind_apply, peek_cons, ok_bind, if_neg (by simp), bind_apply,
    advance_one, ok_bind, bind_apply, hskip, ok_bind, bind_apply, hvalue, ok_bind]
  rcases hc with rfl | rfl | rfl <;> rfl

/-- So it takes a member with the comma after it, or the brace. -/
theorem parseMembers_member {value parsed : Json} (hwritable : Writable value)
    (h : ReadsAs value parsed) (key : Bytes) (members : List (Bytes × Json))
    {fuel : Nat} (rest : Bytes) (hfuel : (serialize value).length ≤ fuel) :
    parseMembers (fuel + 1) members
        (serializeString key ++ 0x3a :: (serialize value ++ 0x2c :: rest)) =
        parseMembers fuel (SortedMap.emplace key parsed members) rest ∧
      parseMembers (fuel + 1) members
          (serializeString key ++ 0x3a :: (serialize value ++ 0x7d :: rest)) =
        .ok (.object (SortedMap.emplace key parsed members), rest) :=
  ⟨parseMembers_delimited hwritable h key members (Or.inl rfl) rest hfuel,
    parseMembers_delimited hwritable h key members (Or.inr (Or.inr rfl)) rest
      hfuel⟩

/-- The loop over the members of an object that has one. -/
theorem parseMembers_serialize {entries others : List (Bytes × Json)}
    (hwritable : ∀ entry ∈ entries, Writable entry.2)
    (h : List.Forall₂ (fun entry other => other.1 = entry.1 ∧ ReadsAs entry.2 other.2)
      entries others) (rest : Bytes) :
    ∀ entry other : Bytes × Json, Writable entry.2 →
      other.1 = entry.1 → ReadsAs entry.2 other.2 →
      ∀ (fuel : Nat) (members : List (Bytes × Json)),
        (serializeMembers true (entry :: entries)).length < fuel →
        parseMembers fuel members
            (serializeMembers true (entry :: entries) ++ 0x7d :: rest) =
          .ok (.object ((other :: others).foldl
            (fun map entry => SortedMap.emplace entry.1 entry.2 map) members),
              rest) := by
  induction h with
  | nil =>
      intro entry other hentry hkey hread fuel members hfuel
      obtain ⟨key, value⟩ := entry
      have hkey : other.1 = key := hkey
      have htext : serializeMembers true [(key, value)] =
          serializeString key ++ 0x3a :: serialize value := by
        simp [serializeMembers]
      rw [htext, List.length_append, List.length_cons] at hfuel
      obtain ⟨fuel, rfl⟩ := Nat.exists_eq_add_one_of_ne_zero (show fuel ≠ 0 by omega)
      have hturn := (@parseMembers_member value other.2 hentry hread key members fuel
        rest (by omega)).2
      rw [htext, List.append_assoc, List.cons_append, hturn, ← hkey]
      rfl
  | cons hnext htail ih =>
      rename_i next nextOther entries others
      intro entry other hentry hkey hread fuel members hfuel
      obtain ⟨key, value⟩ := entry
      have hkey : other.1 = key := hkey
      have htext : serializeMembers true ((key, value) :: next :: entries) =
          serializeString key ++ 0x3a :: (serialize value ++
            0x2c :: serializeMembers true (next :: entries)) := by
        simp [serializeMembers]
      rw [htext, List.length_append, List.length_cons, List.length_append,
        List.length_cons] at hfuel
      obtain ⟨fuel, rfl⟩ := Nat.exists_eq_add_one_of_ne_zero (show fuel ≠ 0 by omega)
      have hturn := (@parseMembers_member value other.2 hentry hread key members fuel
        (serializeMembers true (next :: entries) ++ 0x7d :: rest) (by omega)).1
      have hrest := ih
        (fun entry hmem => hwritable entry (List.mem_cons_of_mem _ hmem)) next
        nextOther (hwritable next (by simp)) hnext.1 hnext.2 fuel
        (SortedMap.emplace key other.2 members) (by omega)
      rw [htext, List.append_assoc, List.cons_append, List.append_assoc,
        List.cons_append, hturn, hrest, ← hkey]
      rfl

/-- The leaves and the empty containers need no more than one turn. -/
theorem readsAs_leaf {value : Json} (hnumber : value.asNumber = none)
    (harray : ∀ item items, value ≠ array (item :: items))
    (hobject : ∀ entry entries, value ≠ object (entry :: entries)) :
    ReadsAs value value := by
  intro fuel rest hfuel hrest
  cases fuel with
  | zero =>
      cases value with
      | boolean value => cases value <;> cases hfuel
      | number bits => cases hnumber
      | _ => rw [serialize] at hfuel; cases hfuel
  | succ fuel =>
      cases value with
      | null => rfl
      | boolean value => cases value <;> rfl
      | number bits => cases hnumber
      | string text =>
          have hstring := parseString_serializeString text rest
          rw [serialize]
          show (parseString >>= fun text => (pure (string text) : JsonParser Json))
            (serializeString text ++ rest) = _
          rw [bind_apply, hstring]
          rfl
      | array items =>
          cases items with
          | nil => rfl
          | cons item items => exact absurd rfl (harray item items)
      | object entries =>
          cases entries with
          | nil => rfl
          | cons entry entries => exact absurd rfl (hobject entry entries)

theorem readsAs_array {item : Json} {items : List Json} {other : Json}
    {others : List Json} (hwritable : ∀ item' ∈ item :: items, Writable item')
    (h : List.Forall₂ ReadsAs (item :: items) (other :: others)) :
    ReadsAs (array (item :: items)) (array (other :: others)) := by
  intro fuel rest hfuel hrest
  cases h with
  | cons hitem hitems =>
      obtain ⟨c, tail, htext, hspace, hclose⟩ :=
        serialize_eq_cons item (hwritable item (by simp))
      rw [serialize, List.length_cons, List.length_append, List.length_singleton]
        at hfuel
      obtain ⟨fuel, rfl⟩ := Nat.exists_eq_add_one_of_ne_zero (show fuel ≠ 0 by omega)
      have hloop := parseElements_serialize
        (fun item hmem => hwritable item (List.mem_cons_of_mem _ hmem)) hitems rest
        item other (hwritable item (by simp)) hitem fuel [] (by omega)
      have hhead : serializeElements true (item :: items) ++ 0x5d :: rest =
          c :: (tail ++ (serializeElements false items ++ 0x5d :: rest)) := by
        simp [serializeElements, htext]
      rw [serialize, List.cons_append, List.append_assoc, List.singleton_append]
      rw [hhead] at hloop ⊢
      show (skipWhitespace >>= fun _ => peek >>= fun c =>
        if c = 0x5d then advance 1 >>= fun _ => pure (.array [])
        else parseElements fuel [])
          (c :: (tail ++ (serializeElements false items ++ 0x5d :: rest))) = _
      rw [bind_apply, skipWhitespace_cons hspace, ok_bind, bind_apply, peek_cons,
        ok_bind, if_neg hclose]
      exact hloop

theorem readsAs_object {entry : Bytes × Json} {entries : List (Bytes × Json)}
    {other : Bytes × Json} {others : List (Bytes × Json)}
    (hsorted : SortedMap.Sorted (other :: others))
    (hwritable : ∀ entry' ∈ entry :: entries, Writable entry'.2)
    (h : List.Forall₂ (fun entry other => other.1 = entry.1 ∧ ReadsAs entry.2 other.2)
      (entry :: entries) (other :: others)) :
    ReadsAs (object (entry :: entries)) (object (other :: others)) := by
  intro fuel rest hfuel hrest
  cases h with
  | cons hentry hentries =>
      rw [serialize, List.length_cons, List.length_append, List.length_singleton]
        at hfuel
      obtain ⟨fuel, rfl⟩ := Nat.exists_eq_add_one_of_ne_zero (show fuel ≠ 0 by omega)
      have hloop := parseMembers_serialize
        (fun entry hmem => hwritable entry (List.mem_cons_of_mem _ hmem)) hentries
        rest entry other (hwritable entry (by simp)) hentry.1 hentry.2 fuel []
        (by omega)
      have hmap : (other :: others).foldl
          (fun map entry => SortedMap.emplace entry.1 entry.2 map) [] =
          other :: others := SortedMap.ofEntries_of_sorted hsorted
      rw [hmap] at hloop
      rw [serialize, List.cons_append, List.append_assoc, List.singleton_append]
      exact hloop

end JsonParser

/-! ## Whole texts -/

open JsonParser

/-- A choice for every entry of a list is a list of choices. -/
theorem exists_forall₂ {α β : Type} {R : α → β → Prop} {entries : List α}
    (h : ∀ entry ∈ entries, ∃ other, R entry other) :
    ∃ others, List.Forall₂ R entries others := by
  induction entries with
  | nil => exact ⟨[], List.Forall₂.nil⟩
  | cons entry entries ih =>
      obtain ⟨other, hhead⟩ := h entry (by simp)
      obtain ⟨others, htail⟩ := ih fun entry hmem =>
        h entry (List.mem_cons_of_mem _ hmem)
      exact ⟨other :: others, List.Forall₂.cons hhead htail⟩

/-- Every tree that the text holds whole is read back as an equal one. -/
theorem readsAs_same {value : Json} (h : Writable value) :
    ∃ other, ReadsAs value other ∧ Same other value := by
  induction h with
  | null => exact ⟨_, readsAs_leaf rfl (by simp) (by simp), .null⟩
  | boolean value => exact ⟨_, readsAs_leaf rfl (by simp) (by simp), .boolean value⟩
  | number h => exact ⟨_, readsAs_number h, .number (sameNumber_toInt64 h)⟩
  | string text => exact ⟨_, readsAs_leaf rfl (by simp) (by simp), .string text⟩
  | array h ih =>
      rename_i items
      obtain ⟨others, hothers⟩ := exists_forall₂ ih
      have hreads : List.Forall₂ ReadsAs items others :=
        hothers.imp fun item other hitem => hitem.1
      have hsame : List.Forall₂ Same others items :=
        (hothers.imp fun item other hitem => hitem.2).flip
      cases hothers with
      | nil => exact ⟨_, readsAs_leaf rfl (by simp) (by simp), .array hsame⟩
      | cons _ _ => exact ⟨_, readsAs_array h hreads, .array hsame⟩
  | object hsorted h ih =>
      rename_i entries
      have hchoice : ∀ entry ∈ entries, ∃ other : Bytes × Json,
          (other.1 = entry.1 ∧ ReadsAs entry.2 other.2) ∧ Same other.2 entry.2 := by
        intro entry hmem
        obtain ⟨other, hread, hsame⟩ := ih entry hmem
        exact ⟨(entry.1, other), ⟨rfl, hread⟩, hsame⟩
      obtain ⟨others, hothers⟩ := exists_forall₂ hchoice
      have hreads : List.Forall₂
          (fun entry other => other.1 = entry.1 ∧ ReadsAs entry.2 other.2)
          entries others := hothers.imp fun entry other hentry => hentry.1
      have hkeys : others.map Prod.fst = entries.map Prod.fst := by
        clear hsorted h ih hchoice hreads
        induction hothers with
        | nil => rfl
        | cons hhead htail ih => rw [List.map_cons, List.map_cons, hhead.1.1, ih]
      have hsame : List.Forall₂ Same (others.map Prod.snd) (entries.map Prod.snd) := by
        rw [List.forall₂_map_left_iff, List.forall₂_map_right_iff]
        exact (hothers.imp fun entry other hentry => hentry.2).flip
      have hsortedOthers : SortedMap.Sorted others := by
        rw [SortedMap.Sorted, hkeys]
        exact hsorted
      cases hothers with
      | nil => exact ⟨_, readsAs_leaf rfl (by simp) (by simp), .object hkeys hsame⟩
      | cons _ _ =>
          exact ⟨_, readsAs_object hsortedOthers h hreads, .object hkeys hsame⟩

/-- A tree over null, booleans, integers below `10^15` and any strings is parsed from
its text, to a tree that compares equal: only the sign of a zero may be another. -/
theorem parse_toString {value : Json} (h : Writable value) :
    ∃ parsed, parse (toString value) = .ok parsed ∧ Same parsed value := by
  obtain ⟨parsed, hread, hsame⟩ := readsAs_same h
  obtain ⟨c, tail, htext, hspace, -⟩ := serialize_eq_cons value h
  have hskip : skipWhitespace (serialize value) = .ok ((), serialize value) := by
    rw [htext]
    exact skipWhitespace_cons hspace tail
  have hvalue := hread (2 * (serialize value).length + 1) [] (by omega) delimited_nil
  rw [List.append_nil] at hvalue
  refine ⟨parsed, ?_, hsame⟩
  rw [toString, parse, bind_apply, hskip, ok_bind, bind_apply, hvalue, ok_bind]
  rfl

/-- A key with escapes over a negative zero, an integer and bytes that are no
text. -/
private def sampleTree : Json :=
  object [(ascii "\n\"", array [number 0x8000000000000000,
    number (Binary64.ofInt64 (-15)), string [0x00, 0x1f, 0xff], null]),
    (ascii "e", object [])]

theorem parse_toString_nested :
    ∃ parsed, parse (toString sampleTree) = .ok parsed ∧ Same parsed sampleTree := by
  have hentries : ∀ entry ∈ ([(ascii "\n\"", array [number 0x8000000000000000,
      number (Binary64.ofInt64 (-15)), string [0x00, 0x1f, 0xff], null]),
      (ascii "e", object [])] : List (Bytes × Json)), Writable entry.2 := by
    simp only [List.mem_cons, List.not_mem_nil, or_false, forall_eq_or_imp, forall_eq]
    constructor
    · apply Writable.array
      simp only [List.mem_cons, List.not_mem_nil, or_false, forall_eq_or_imp,
        forall_eq]
      exact ⟨.number (by decide +kernel), .number (by decide +kernel), .string _, .null⟩
    · exact .object (by decide) (by simp)
  exact parse_toString (.object (by decide +kernel) hentries)

end Ioscpp.Protocol.Json
