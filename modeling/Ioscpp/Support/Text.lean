import Ioscpp.Support.Checked

/-!
# Text in the C locale

Text is bytes.  Here are the parts of the C library that a text format leans on:
white space, decimal numbers (`std::to_string` and `strtoll`), and the search
for a pattern.

## Main results

- `strtoll_decimalInt`, `strtoull_decimal`: numbers are read back from their digits.
- `eq_of_cutAt`: what `cutAt` finds.
-/

namespace Ioscpp.Support

/-! ## Characters -/

/-- `std::isspace`. -/
def isSpace (c : UInt8) : Bool := c == 0x20 || (0x09 ≤ c && c ≤ 0x0d)

/-- `std::isdigit`. -/
def isDigit (c : UInt8) : Bool := 0x30 ≤ c && c ≤ 0x39

/-- The value of a digit. -/
def digitValue (c : UInt8) : Nat := c.toNat - 0x30

/-- The digit of a value. -/
def digit (value : Nat) : UInt8 := 0x30 + UInt8.ofNat value

theorem digit_spec : ∀ value < 10,
    isDigit (digit value) = true ∧ digitValue (digit value) = value := by
  decide

theorem not_isSpace_of_isDigit {c : UInt8} (h : isDigit c) :
    isSpace c = false := by
  revert c
  decide +kernel

/-! ## Decimal numbers -/

/-- `std::to_string` of a natural number. -/
def decimal (value : Nat) : Bytes :=
  if value = 0 then [digit 0]
  else ((Nat.digits 10 value).map digit).reverse

/-- `std::to_string` of an integer. -/
def decimalInt (value : Int) : Bytes :=
  if value < 0 then 0x2d :: decimal value.natAbs else decimal value.natAbs

/-- The number that digits denote. -/
def digitsValue (digits : Bytes) : Nat :=
  digits.foldl (fun value c => value * 10 + digitValue c) 0

/-- A sign that may stand in front, and what follows it. -/
def takeSign : Bytes → Bool × Bytes
  | 0x2d :: rest => (true, rest)
  | 0x2b :: rest => (false, rest)
  | text => (false, text)

/-- `strtoll` in base ten: white space, a sign and the digits up to the first
other character, limited to the range of the type. -/
def strtoll (text : Bytes) : Int64 :=
  let (negative, text) := takeSign (text.dropWhile isSpace)
  let magnitude := digitsValue (text.takeWhile isDigit)
  if negative then Int64.ofInt (max (-(magnitude : Int)) (-2 ^ 63))
  else Int64.ofInt (min (magnitude : Int) (2 ^ 63 - 1))

/-- `strtoull` in base ten: as `strtoll`, limited to the range of the unsigned
type.  A minus sign negates in that type. -/
def strtoull (text : Bytes) : UInt64 :=
  let (negative, text) := takeSign (text.dropWhile isSpace)
  let magnitude := digitsValue (text.takeWhile isDigit)
  if 2 ^ 64 ≤ magnitude then UInt64.ofNat (2 ^ 64 - 1)
  else if negative then -UInt64.ofNat magnitude
  else UInt64.ofNat magnitude

/-- `std::stoi`: as `strtoll`, but it throws when there is no digit or the number
is not an `int`. -/
def stoi {ε : Type} (text : Bytes) : Checked ε Int :=
  let (negative, text) := takeSign (text.dropWhile isSpace)
  let digits := text.takeWhile isDigit
  let magnitude : Int := digitsValue digits
  let value := if negative then -magnitude else magnitude
  if digits = [] ∨ value < -2 ^ 31 ∨ 2 ^ 31 ≤ value then .error .exception
  else .ok value

theorem isDigit_of_mem_decimal {value : Nat} :
    ∀ c ∈ decimal value, isDigit c := by
  intro c hc
  rw [decimal] at hc
  split at hc
  · rw [List.mem_singleton.mp hc]
    exact (digit_spec 0 (by decide)).1
  · obtain ⟨d, hd, rfl⟩ := List.mem_map.mp (List.mem_reverse.mp hc)
    exact (digit_spec d (Nat.digits_lt_base (by decide) hd)).1

theorem decimal_ne_nil (value : Nat) : decimal value ≠ [] := by
  rw [decimal]
  split
  · simp
  · rename_i h
    simpa [Nat.digits_eq_nil_iff_eq_zero] using h

private theorem digitsValue_reverse (digits : List Nat)
    (h : ∀ d ∈ digits, d < 10) :
    digitsValue ((digits.map digit).reverse) = Nat.ofDigits 10 digits := by
  induction digits with
  | nil => rfl
  | cons d rest ih =>
      have hd := (digit_spec d (h d (by simp))).2
      have hrest := ih fun d hd => h d (List.mem_cons_of_mem _ hd)
      rw [digitsValue] at hrest ⊢
      rw [List.map_cons, List.reverse_cons, List.foldl_append, hrest,
        List.foldl_cons, List.foldl_nil, hd, Nat.ofDigits_cons]
      ring

/-- The digits of a number denote it. -/
theorem digitsValue_decimal (value : Nat) :
    digitsValue (decimal value) = value := by
  rw [decimal]
  split
  · rename_i h
    rw [h]
    rfl
  · rw [digitsValue_reverse _ fun d => Nat.digits_lt_base (by decide),
      Nat.ofDigits_digits]

private theorem takeSign_digits {text : Bytes} (h : ∀ c ∈ text, isDigit c) :
    takeSign text = (false, text) := by
  cases text with
  | nil => rfl
  | cons c rest =>
      have hc := h c (by simp)
      have hminus : c ≠ 0x2d := fun heq => by rw [heq] at hc; cases hc
      have hplus : c ≠ 0x2b := fun heq => by rw [heq] at hc; cases hc
      unfold takeSign
      split
      · rename_i heq
        exact absurd (List.cons.inj heq).1 hminus
      · rename_i heq
        exact absurd (List.cons.inj heq).1 hplus
      · rfl

/-- An integer is read back from its digits. -/
theorem strtoll_decimalInt (value : Int64) :
    strtoll (decimalInt value.toInt) = value := by
  have hdigits : ∀ c ∈ decimal value.toInt.natAbs, isDigit c :=
    isDigit_of_mem_decimal
  have htake := List.takeWhile_eq_self_iff.mpr hdigits
  have hlow := value.minValue_le_toInt
  have hhigh := value.toInt_le
  have hmin : Int64.minValue.toInt = -2 ^ 63 := by decide
  have hmax : Int64.maxValue.toInt = 2 ^ 63 - 1 := by decide
  rw [decimalInt]
  split
  · rename_i hneg
    have hspace : (0x2d :: decimal value.toInt.natAbs).dropWhile isSpace =
        0x2d :: decimal value.toInt.natAbs := rfl
    rw [strtoll, hspace]
    simp only [takeSign, htake, digitsValue_decimal, if_true]
    have hbound : max (-(value.toInt.natAbs : Int)) (-2 ^ 63) = value.toInt := by
      omega
    rw [hbound, Int64.ofInt_toInt]
  · rename_i hneg
    have hspace : (decimal value.toInt.natAbs).dropWhile isSpace =
        decimal value.toInt.natAbs := by
      rw [List.dropWhile_eq_self_iff]
      intro hlen
      simp [not_isSpace_of_isDigit (hdigits _ (List.getElem_mem hlen))]
    rw [strtoll, hspace, takeSign_digits hdigits]
    simp only [htake, digitsValue_decimal]
    have hbound : min (value.toInt.natAbs : Int) (2 ^ 63 - 1) = value.toInt := by
      omega
    rw [if_neg (by decide), hbound, Int64.ofInt_toInt]

/-- A number below the limit is read back from its digits. -/
theorem strtoull_decimal {value : Nat} (h : value < 2 ^ 64) :
    strtoull (decimal value) = UInt64.ofNat value := by
  have hdigits : ∀ c ∈ decimal value, isDigit c := isDigit_of_mem_decimal
  have htake := List.takeWhile_eq_self_iff.mpr hdigits
  have hspace : (decimal value).dropWhile isSpace = decimal value := by
    rw [List.dropWhile_eq_self_iff]
    intro hlen
    simp [not_isSpace_of_isDigit (hdigits _ (List.getElem_mem hlen))]
  rw [strtoull, hspace, takeSign_digits hdigits]
  simp only [htake, digitsValue_decimal]
  rw [if_neg (by omega), if_neg (by decide)]

/-! ## Searching -/

/-- The text before and after the first place where `pattern` stands. -/
def cutAt (pattern : Bytes) : Bytes → Option (Bytes × Bytes)
  | [] => if pattern.isEmpty then some ([], []) else none
  | c :: rest =>
      if pattern.isPrefixOf (c :: rest) then
        some ([], (c :: rest).drop pattern.length)
      else (cutAt pattern rest).map fun parts => (c :: parts.1, parts.2)

/-- A pattern is found after a text without its first character. -/
theorem cutAt_append {c : UInt8} (pattern : Bytes) {before rest : Bytes}
    (h : c ∉ before) :
    cutAt (c :: pattern) (before ++ (c :: pattern ++ rest)) =
      some (before, rest) := by
  induction before with
  | nil =>
      simp [cutAt]
  | cons d before ih =>
      have hne : c ≠ d := fun heq => h (by simp [heq])
      have hnot : (c :: pattern).isPrefixOf
          (d :: (before ++ (c :: pattern ++ rest))) = false := by
        simp [List.isPrefixOf, hne]
      rw [List.cons_append, cutAt, hnot,
        ih fun hmem => h (List.mem_cons_of_mem _ hmem)]
      rfl

/-- What `cutAt` finds: the pattern between the two parts. -/
theorem eq_of_cutAt {pattern text before rest : Bytes} (hpattern : pattern ≠ [])
    (h : cutAt pattern text = some (before, rest)) :
    text = before ++ (pattern ++ rest) := by
  induction text generalizing before with
  | nil =>
      rw [cutAt, if_neg (by simpa using hpattern)] at h
      cases h
  | cons c text ih =>
      rw [cutAt] at h
      split at h
      · rename_i hprefix
        obtain ⟨tail, htail⟩ := List.isPrefixOf_iff_prefix.mp hprefix
        cases h
        rw [← htail, List.drop_left]
        rfl
      · obtain ⟨⟨before', rest'⟩, hcut, heq⟩ := Option.map_eq_some_iff.mp h
        cases heq
        rw [ih hcut]
        rfl

/-- Where a pattern is found does not depend on what follows it. -/
theorem cutAt_append_rest {pattern before : Bytes} (hpattern : pattern ≠ [])
    (rest rest' : Bytes)
    (h : cutAt pattern (before ++ (pattern ++ rest)) = some (before, rest)) :
    cutAt pattern (before ++ (pattern ++ rest')) = some (before, rest') := by
  induction before with
  | nil =>
      obtain ⟨c, tail, rfl⟩ := List.exists_cons_of_ne_nil hpattern
      rw [List.nil_append, List.cons_append, cutAt, if_pos]
      · rw [← List.cons_append, List.drop_left]
      · rw [List.isPrefixOf_iff_prefix]
        exact ⟨rest', rfl⟩
  | cons c before ih =>
      rw [List.cons_append, cutAt] at h ⊢
      split at h
      · cases h
      · rename_i hprefix
        obtain ⟨parts, hcut, heq⟩ := Option.map_eq_some_iff.mp h
        have hparts : parts = (before, rest) := by
          obtain ⟨hbefore, hrest⟩ := Prod.mk.inj heq
          exact Prod.ext (List.cons.inj hbefore).2 hrest
        rw [if_neg, ih (hparts ▸ hcut)]
        · rfl
        · -- the pattern is no longer than what stands before `rest'`
          intro hprefix'
          refine hprefix ?_
          rw [List.isPrefixOf_iff_prefix] at hprefix' ⊢
          have hshort : pattern <+: c :: (before ++ pattern) := by
            have hbefore : c :: (before ++ pattern) <+:
                c :: before ++ (pattern ++ rest') := ⟨rest', by simp⟩
            refine List.prefix_of_prefix_length_le hprefix' hbefore ?_
            simp only [List.length_cons, List.length_append]
            omega
          exact hshort.trans ⟨rest, by simp⟩

end Ioscpp.Support
