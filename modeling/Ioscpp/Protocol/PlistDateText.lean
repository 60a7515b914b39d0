import Ioscpp.Protocol.PlistDates

/-!
# The texts of dates

Which texts name a time, and that these are the ones the writer writes back: what is
written back is always a day of the calendar, in fields whose places are fixed for a
year of four digits.

## Main results

- `formatDate_of_namesTime`: a text of the form is written back as it was.
- `namesTime_of_formatDate`: a text that is written back as it was is of the form.
- `formatDate_parseDate_iff`: both, with the seconds of the time.
-/

namespace Ioscpp.Protocol.Plist

open Ioscpp.Support Calendar

/-! ## Numbers of a fixed width -/

theorem zeroPadded_of_nonneg (width value : Nat) :
    zeroPadded width value =
      List.replicate (width - (decimal value).length) (digit 0) ++ decimal value := by
  unfold zeroPadded
  dsimp only
  rw [if_neg (by omega), Int.natAbs_natCast]
  simp

/-- A number that its width holds is written with as many digits. -/
theorem zeroPadded_spec {width value : Nat} (hwidth : 0 < width)
    (h : value < 10 ^ width) :
    (zeroPadded width value).length = width ∧
      (∀ c ∈ zeroPadded width value, isDigit c) ∧
      digitsValue (zeroPadded width value) = value := by
  have hle := (length_decimal_le hwidth).mpr h
  have hdigits : ∀ c ∈ decimal value, isDigit c := isDigit_of_mem_decimal
  rw [zeroPadded_of_nonneg]
  refine ⟨?_, ?_, ?_⟩
  · rw [List.length_append, List.length_replicate]
    omega
  · rw [List.forall_mem_append]
    constructor
    · intro c hc
      rw [List.eq_of_mem_replicate hc]
      rfl
    · exact hdigits
  · rw [digitsValue_zeros, digitsValue_decimal]

/-- Digits are what their number is written as in their width. -/
theorem zeroPadded_digitsValue {digits : Bytes} (h : ∀ c ∈ digits, isDigit c)
    (hnil : 0 < digits.length) :
    zeroPadded digits.length (digitsValue digits) = digits := by
  obtain ⟨hlength, hall, hvalue⟩ := zeroPadded_spec hnil (digitsValue_lt h)
  exact digitsValue_inj hlength hall h hvalue

/-! ## The fields of a text -/

/-- The characters of a text at a place. -/
def charsAt (text : Bytes) (offset count : Nat) : Bytes :=
  (text.drop offset).take count

/-- The number at a place, when its characters are digits. -/
def numberAt (text : Bytes) (offset count : Nat) : Nat :=
  digitsValue (charsAt text offset count)

/-- The time of day that a text has in its fields. -/
def timeAt (text : Bytes) : Int :=
  numberAt text 11 2 * 3600 + numberAt text 14 2 * 60 + numberAt text 17 2

/-- A text of the form `YYYY-MM-DDThh:mm:ss` for a day of the calendar and a time of
the day. -/
structure NamesTime (text : Bytes) : Prop where
  dashes : charsAt text 4 1 = ascii "-" ∧ charsAt text 7 1 = ascii "-"
  letter : charsAt text 10 1 = ascii "T"
  colons : charsAt text 13 1 = ascii ":" ∧ charsAt text 16 1 = ascii ":"
  date : IsDate (numberAt text 0 4) (numberAt text 5 2) (numberAt text 8 2)
  time : numberAt text 11 2 < 24 ∧ numberAt text 14 2 < 60 ∧ numberAt text 17 2 < 60

/-- The seconds of that time since 2001-01-01T00:00:00. -/
def instant (text : Bytes) : Int :=
  (dayNumber (numberAt text 0 4) (numberAt text 5 2) (numberAt text 8 2) -
    dayNumber 2001 1 1) * 86400 + timeAt text

/-- The digits at a place. -/
def DigitsAt (text : Bytes) (offset count : Nat) : Prop :=
  ∀ c ∈ charsAt text offset count, isDigit c

theorem length_charsAt {text : Bytes} {offset count : Nat}
    (h : offset + count ≤ text.length) : (charsAt text offset count).length = count := by
  rw [charsAt, List.length_take, List.length_drop]
  omega

theorem numberAt_lt {text : Bytes} {offset count : Nat}
    (hdigits : DigitsAt text offset count) (h : offset + count ≤ text.length) :
    numberAt text offset count < 10 ^ count := by
  have hlt := digitsValue_lt hdigits
  rwa [length_charsAt h] at hlt

theorem zeroPadded_numberAt {text : Bytes} {offset count : Nat} (hcount : 0 < count)
    (hdigits : DigitsAt text offset count) (h : offset + count ≤ text.length) :
    zeroPadded count (numberAt text offset count) = charsAt text offset count := by
  have hlength := length_charsAt h
  have hback := zeroPadded_digitsValue hdigits (by omega)
  rwa [hlength] at hback

/-- What the parser makes of a text: six fields of digits. -/
structure Accepted (text : Bytes) (seconds : Int64) : Prop where
  length : 19 ≤ text.length
  year : DigitsAt text 0 4
  month : DigitsAt text 5 2
  day : DigitsAt text 8 2
  hour : DigitsAt text 11 2
  minute : DigitsAt text 14 2
  second : DigitsAt text 17 2
  value : seconds =
    daysFromCivil (Int64.ofNat (numberAt text 0 4)) (UInt32.ofNat (numberAt text 5 2))
      (UInt32.ofNat (numberAt text 8 2)) * 86400 +
      Int64.ofNat (numberAt text 11 2) * 3600 + Int64.ofNat (numberAt text 14 2) * 60 +
        Int64.ofNat (numberAt text 17 2) - kPlistEpochSeconds

theorem dateNumber_eq_some {text : Bytes} {offset count value : Nat}
    (h : dateNumber text offset count = some value) :
    DigitsAt text offset count ∧ value = numberAt text offset count := by
  unfold dateNumber at h
  dsimp only at h
  split at h
  · rename_i hall
    cases h
    exact ⟨List.all_eq_true.mp hall, rfl⟩
  · cases h

theorem accepted_of_parseDate {text : Bytes} {seconds : Int64}
    (h : parseDate text = .ok seconds) : Accepted text seconds := by
  unfold parseDate at h
  split at h
  · cases h
  rename_i hlength
  split at h
  · rename_i heqYear heqMonth heqDay heqHour heqMinute heqSecond
    obtain ⟨hyear, rfl⟩ := dateNumber_eq_some heqYear
    obtain ⟨hmonth, rfl⟩ := dateNumber_eq_some heqMonth
    obtain ⟨hday, rfl⟩ := dateNumber_eq_some heqDay
    obtain ⟨hhour, rfl⟩ := dateNumber_eq_some heqHour
    obtain ⟨hminute, rfl⟩ := dateNumber_eq_some heqMinute
    obtain ⟨hsecond, rfl⟩ := dateNumber_eq_some heqSecond
    cases h
    exact ⟨by omega, hyear, hmonth, hday, hhour, hminute, hsecond, rfl⟩
  · cases h

theorem charsAt_add (text : Bytes) (offset first rest : Nat) :
    charsAt text offset (first + rest) =
      charsAt text offset first ++ charsAt text (offset + first) rest := by
  rw [charsAt, List.take_add, List.drop_drop]
  rfl

/-- The first 19 characters are the fields and the characters between them. -/
theorem take_fields (text : Bytes) :
    text.take 19 = charsAt text 0 4 ++ (charsAt text 4 1 ++ (charsAt text 5 2 ++
      (charsAt text 7 1 ++ (charsAt text 8 2 ++ (charsAt text 10 1 ++
        (charsAt text 11 2 ++ (charsAt text 13 1 ++ (charsAt text 14 2 ++
          (charsAt text 16 1 ++ charsAt text 17 2))))))))) := by
  have hwhole : text.take 19 = charsAt text 0 (4 + (1 + (2 + (1 + (2 + (1 + (2 +
      (1 + (2 + (1 + 2)))))))))) := rfl
  rw [hwhole]
  simp only [charsAt_add]

/-! ## Texts that are written back -/

theorem prefix_split {first rest first' rest' : Bytes}
    (h : first ++ rest <+: first' ++ rest') (hlength : first.length = first'.length) :
    first = first' ∧ rest <+: rest' := by
  obtain ⟨tail, htail⟩ := h
  rw [List.append_assoc] at htail
  obtain ⟨hfirst, hrest⟩ := List.append_inj htail hlength
  exact ⟨hfirst, tail, hrest⟩

theorem DigitsAt.first {text : Bytes} {offset count : Nat}
    (h : DigitsAt text offset (1 + count)) : DigitsAt text offset 1 := by
  intro c hc
  apply h c
  rw [charsAt_add]
  exact List.mem_append_left _ hc

/-- Where a text has a digit, what it is written back as has no dash. -/
theorem no_dash_at {text before after : Bytes} {place : Nat}
    (hlength : 19 ≤ text.length) (hplace : place < 19) (hdigits : DigitsAt text place 1)
    (hbefore : before.length = place) :
    ¬ text.take 19 <+: before ++ (ascii "-" ++ after) := by
  intro hpre
  have hwhole : text.take 19 = charsAt text 0 (place + (1 + (18 - place))) := by
    rw [show place + (1 + (18 - place)) = 19 by omega]
    rfl
  rw [hwhole, charsAt_add, charsAt_add, Nat.zero_add] at hpre
  obtain ⟨-, hrest⟩ := prefix_split hpre (by
    rw [length_charsAt (by omega), hbefore])
  obtain ⟨hdash, -⟩ := prefix_split hrest (by
    rw [length_charsAt (by omega)]
    rfl)
  have hdigit := hdigits 0x2d (by
    rw [hdash]
    decide)
  cases hdigit

/-- A year that is written with so many more digits than four. -/
theorem zeroPadded_wide {value width : Nat} (hwidth : 4 ≤ width)
    (hlow : 10 ^ width ≤ value) (hhigh : value < 10 ^ (width + 1)) :
    (zeroPadded 4 value).length = width + 1 := by
  have hle := (@length_decimal_le value (width + 1) (by omega)).mpr hhigh
  have hnot : ¬ (decimal value).length ≤ width := by
    rw [length_decimal_le (by omega)]
    omega
  rw [zeroPadded_of_nonneg, List.length_append, List.length_replicate]
  omega

/-- A field is the number that is written there. -/
theorem numberAt_of_eq {text : Bytes} {offset count value : Nat} (hcount : 0 < count)
    (hvalue : value < 10 ^ count)
    (h : charsAt text offset count = zeroPadded count value) :
    numberAt text offset count = value := by
  rw [numberAt, h]
  exact (zeroPadded_spec hcount hvalue).2.2

/-- The fields of a text, and what is between them, are those that the writer writes
for a date and a time of the day. -/
structure HasFields (text : Bytes) (year month day time : Nat) : Prop where
  year : charsAt text 0 4 = zeroPadded 4 year
  month : charsAt text 5 2 = zeroPadded 2 month
  day : charsAt text 8 2 = zeroPadded 2 day
  hour : charsAt text 11 2 = zeroPadded 2 (time / 3600 : Nat)
  minute : charsAt text 14 2 = zeroPadded 2 (time % 3600 / 60 : Nat)
  second : charsAt text 17 2 = zeroPadded 2 (time % 60 : Nat)
  dashes : charsAt text 4 1 = ascii "-" ∧ charsAt text 7 1 = ascii "-"
  letter : charsAt text 10 1 = ascii "T"
  colons : charsAt text 13 1 = ascii ":" ∧ charsAt text 16 1 = ascii ":"

section Fields

variable {text : Bytes} {year month day time : Nat}

/-- A text that begins the writer's text of a date has its fields. -/
theorem hasFields_of_prefix (hlength : 19 ≤ text.length) (hdate : IsDate year month day)
    (hyear : year < 10000) (htime : time < 86400)
    (h : text.take 19 <+: dateText (year, month, day) time) :
    HasFields text year month day time := by
  have hmonth := hdate.monthRange
  have hday := day_le_of_isDate hdate
  have hfour : ∀ {offset value : Nat}, offset + 4 ≤ 19 → value < 10000 →
      (charsAt text offset 4).length = (zeroPadded 4 value).length := by
    intro offset value hoffset hvalue
    rw [length_charsAt (by omega), (zeroPadded_spec (by decide) hvalue).1]
  have htwo : ∀ {offset value : Nat}, offset + 2 ≤ 19 → value < 100 →
      (charsAt text offset 2).length = (zeroPadded 2 value).length := by
    intro offset value hoffset hvalue
    rw [length_charsAt (by omega), (zeroPadded_spec (by decide) hvalue).1]
  have hone : ∀ {offset : Nat} {c : UInt8}, offset + 1 ≤ 19 →
      (charsAt text offset 1).length = [c].length := by
    intro offset c hoffset
    rw [length_charsAt (by omega)]
    rfl
  have hhours : ((time : Int) / 3600) = (time / 3600 : Nat) := by omega
  have hminutes : ((time : Int) % 3600 / 60) = (time % 3600 / 60 : Nat) := by omega
  have hseconds : ((time : Int) % 60) = (time % 60 : Nat) := by omega
  rw [take_fields, dateText, hhours, hminutes, hseconds] at h
  simp only [List.append_assoc] at h
  obtain ⟨hyearAt, h⟩ := prefix_split h (hfour (by decide) hyear)
  obtain ⟨hdash, h⟩ := prefix_split h (hone (by decide))
  obtain ⟨hmonthAt, h⟩ := prefix_split h (htwo (by decide) (by omega))
  obtain ⟨hdash', h⟩ := prefix_split h (hone (by decide))
  obtain ⟨hdayAt, h⟩ := prefix_split h (htwo (by decide) (by omega))
  obtain ⟨hletter, h⟩ := prefix_split h (hone (by decide))
  obtain ⟨hhourAt, h⟩ := prefix_split h (htwo (by decide) (by omega))
  obtain ⟨hcolon, h⟩ := prefix_split h (hone (by decide))
  obtain ⟨hminuteAt, h⟩ := prefix_split h (htwo (by decide) (by omega))
  obtain ⟨hcolon', h⟩ := prefix_split h (hone (by decide))
  rw [← List.append_nil (charsAt text 17 2)] at h
  obtain ⟨hsecondAt, -⟩ := prefix_split h (htwo (by decide) (by omega))
  exact ⟨hyearAt, hmonthAt, hdayAt, hhourAt, hminuteAt, hsecondAt, ⟨hdash, hdash'⟩,
    hletter, ⟨hcolon, hcolon'⟩⟩

/-- The numbers of these fields. -/
theorem HasFields.numbers (h : HasFields text year month day time)
    (hdate : IsDate year month day) (hyear : year < 10000) (htime : time < 86400) :
    (numberAt text 0 4 = year ∧ numberAt text 5 2 = month ∧ numberAt text 8 2 = day) ∧
      numberAt text 11 2 = time / 3600 ∧ numberAt text 14 2 = time % 3600 / 60 ∧
        numberAt text 17 2 = time % 60 := by
  have hmonth := hdate.monthRange
  have hday := day_le_of_isDate hdate
  constructor
  · exact ⟨numberAt_of_eq (by decide) hyear h.year,
      numberAt_of_eq (by decide) (by omega) h.month,
      numberAt_of_eq (by decide) (by omega) h.day⟩
  · exact ⟨numberAt_of_eq (by decide) (by omega) h.hour,
      numberAt_of_eq (by decide) (by omega) h.minute,
      numberAt_of_eq (by decide) (by omega) h.second⟩

/-- A text with these fields is of the form. -/
theorem HasFields.namesTime (h : HasFields text year month day time)
    (hdate : IsDate year month day) (hyear : year < 10000) (htime : time < 86400) :
    NamesTime text := by
  obtain ⟨⟨hyear', hmonth', hday'⟩, hhour', hminute', hsecond'⟩ :=
    h.numbers hdate hyear htime
  constructor
  · exact h.dashes
  · exact h.letter
  · exact h.colons
  · rw [hyear', hmonth', hday']
    exact hdate
  · rw [hhour', hminute', hsecond']
    omega

end Fields

/-! ## What an accepted text stands for -/

/-- The count of days that the parser makes of a text. -/
def daysAt (text : Bytes) : Int :=
  let march := if (numberAt text 5 2 : Int) ≤ 2 then (numberAt text 0 4 : Int) - 1
    else numberAt text 0 4
  let marchMonth := if 2 < (numberAt text 5 2 : Int) then (numberAt text 5 2 : Int) - 3
    else numberAt text 5 2 + 9
  march / 400 * 146097 +
    wrapped (yearStart (march % 400) + (monthStart marchMonth + numberAt text 8 2 - 1)) -
      719468

theorem daysAt_of_isDate {text : Bytes}
    (h : IsDate (numberAt text 0 4) (numberAt text 5 2) (numberAt text 8 2)) :
    daysAt text =
      civilToDays (numberAt text 0 4) (numberAt text 5 2) (numberAt text 8 2) :=
  wrapped_of_isDate h

/-- The seconds of days and a time of day, from the epoch on. -/
theorem toInt_total {days hour minute second : Int64} {d h m s : Int}
    (hdays : days.toInt = d) (hhour : hour.toInt = h) (hminute : minute.toInt = m)
    (hsecond : second.toInt = s) (hd : -2 ^ 40 ≤ d ∧ d ≤ 2 ^ 40)
    (hh : 0 ≤ h ∧ h ≤ 99) (hm : 0 ≤ m ∧ m ≤ 99) (hs : 0 ≤ s ∧ s ≤ 99) :
    (days * 86400 + hour * 3600 + minute * 60 + second - kPlistEpochSeconds).toInt =
      d * 86400 + h * 3600 + m * 60 + s - 978307200 := by
  have hone : FitsInt64 (d * 86400) := by constructor <;> omega
  have htwo : FitsInt64 (h * 3600) := by constructor <;> omega
  have hthree : FitsInt64 (m * 60) := by constructor <;> omega
  have hfour : FitsInt64 (d * 86400 + h * 3600) := by constructor <;> omega
  have hfive : FitsInt64 (d * 86400 + h * 3600 + m * 60) := by constructor <;> omega
  have hsix : FitsInt64 (d * 86400 + h * 3600 + m * 60 + s) := by
    constructor <;> omega
  have hseven : FitsInt64 (d * 86400 + h * 3600 + m * 60 + s - 978307200) := by
    constructor <;> omega
  have hproduct := toInt_mul_eq hdays (show (86400 : Int64).toInt = 86400 from rfl) hone
  have hhours := toInt_mul_eq hhour (show (3600 : Int64).toInt = 3600 from rfl) htwo
  have hminutes := toInt_mul_eq hminute (show (60 : Int64).toInt = 60 from rfl) hthree
  have hsum := toInt_add_eq (toInt_add_eq (toInt_add_eq hproduct hhours hfour) hminutes
    hfive) hsecond hsix
  exact toInt_sub_eq hsum (show kPlistEpochSeconds.toInt = 978307200 from rfl) hseven

namespace Accepted

variable {text : Bytes} {seconds : Int64} (h : Accepted text seconds)

include h

theorem bounds :
    numberAt text 0 4 ≤ 9999 ∧ numberAt text 5 2 ≤ 99 ∧ numberAt text 8 2 ≤ 99 ∧
      numberAt text 11 2 ≤ 99 ∧ numberAt text 14 2 ≤ 99 ∧ numberAt text 17 2 ≤ 99 := by
  have hlength := h.length
  have hyear := numberAt_lt h.year (by omega)
  have hmonth := numberAt_lt h.month (by omega)
  have hday := numberAt_lt h.day (by omega)
  have hhour := numberAt_lt h.hour (by omega)
  have hminute := numberAt_lt h.minute (by omega)
  have hsecond := numberAt_lt h.second (by omega)
  omega

/-- The days are those of at most 26 eras, or lie far beyond. -/
theorem daysAt_range :
    (-146097 ≤ daysAt text + 719468 ∧ daysAt text + 719468 < 26 * 146097) ∨
      (29396 * 146097 ≤ daysAt text + 719468 ∧
        daysAt text + 719468 < 29423 * 146097) := by
  obtain ⟨hyear, hmonth, hday, -⟩ := h.bounds
  unfold daysAt
  dsimp only
  have hmarch : -1 ≤ (if (numberAt text 5 2 : Int) ≤ 2 then (numberAt text 0 4 : Int) - 1
      else numberAt text 0 4) ∧ (if (numberAt text 5 2 : Int) ≤ 2 then
        (numberAt text 0 4 : Int) - 1 else numberAt text 0 4) ≤ 9999 := by
    split_ifs <;> omega
  have hmarchMonth : 0 ≤ (if 2 < (numberAt text 5 2 : Int) then
      (numberAt text 5 2 : Int) - 3 else numberAt text 5 2 + 9) ∧
      (if 2 < (numberAt text 5 2 : Int) then (numberAt text 5 2 : Int) - 3
        else numberAt text 5 2 + 9) ≤ 96 := by
    split_ifs <;> omega
  generalize (if (numberAt text 5 2 : Int) ≤ 2 then (numberAt text 0 4 : Int) - 1
    else numberAt text 0 4) = march at *
  generalize (if 2 < (numberAt text 5 2 : Int) then (numberAt text 5 2 : Int) - 3
    else numberAt text 5 2 + 9) = marchMonth at *
  have hstart : 0 ≤ yearStart (march % 400) ∧ yearStart (march % 400) < 146097 := by
    unfold yearStart
    omega
  have hmonthStart : 0 ≤ monthStart marchMonth ∧ monthStart marchMonth < 3000 := by
    unfold monthStart
    omega
  unfold wrapped
  split_ifs
  · right
    omega
  · left
    omega

theorem toInt_seconds :
    seconds.toInt = daysAt text * 86400 + timeAt text - 978307200 := by
  obtain ⟨hyear, hmonth, hday, hhour, hminute, hsecond⟩ := h.bounds
  have hrange := h.daysAt_range
  have hcount := @toInt_daysFromCivil (Int64.ofNat (numberAt text 0 4))
    (UInt32.ofNat (numberAt text 5 2)) (UInt32.ofNat (numberAt text 8 2))
  have hword : ∀ value : Nat, value ≤ 9999 → (Int64.ofNat value).toInt = value := by
    intro value hvalue
    exact Int64.toInt_ofNat_of_lt (by omega)
  have hhalf : ∀ value : Nat, value ≤ 99 → (UInt32.ofNat value).toNat = value := by
    intro value hvalue
    rw [UInt32.toNat_ofNat']
    omega
  rw [hword _ hyear, hhalf _ hmonth, hhalf _ hday] at hcount
  have hdays := hcount ⟨by omega, by omega⟩ hmonth hday
  have hdays : (daysFromCivil (Int64.ofNat (numberAt text 0 4))
      (UInt32.ofNat (numberAt text 5 2)) (UInt32.ofNat (numberAt text 8 2))).toInt =
        daysAt text := hdays
  rw [h.value]
  generalize daysFromCivil (Int64.ofNat (numberAt text 0 4))
    (UInt32.ofNat (numberAt text 5 2)) (UInt32.ofNat (numberAt text 8 2)) = days at *
  have htotal := toInt_total hdays (hword _ (show numberAt text 11 2 ≤ 9999 by omega))
    (hword _ (show numberAt text 14 2 ≤ 9999 by omega))
    (hword _ (show numberAt text 17 2 ≤ 9999 by omega)) ⟨by omega, by omega⟩
    ⟨by omega, by omega⟩ ⟨by omega, by omega⟩ ⟨by omega, by omega⟩
  rw [htotal]
  unfold timeAt
  omega

/-- The text that is written back. -/
theorem formatDate_seconds :
    formatDate seconds =
      dateText (daysToCivil ((daysAt text * 86400 + timeAt text) / 86400))
        ((daysAt text * 86400 + timeAt text) % 86400) := by
  obtain ⟨-, -, -, hhour, hminute, hsecond⟩ := h.bounds
  have hrange := h.daysAt_range
  have hseconds := h.toInt_seconds
  have htime : 0 ≤ timeAt text ∧ timeAt text ≤ 99 * 3600 + 99 * 60 + 99 := by
    unfold timeAt
    omega
  rw [formatDate_eq ⟨by omega, by omega⟩, hseconds]
  have hback : daysAt text * 86400 + timeAt text - 978307200 + 978307200 =
      daysAt text * 86400 + timeAt text := by
    omega
  rw [hback]

/-- A text of the form is written back as it was, up to its seconds, and with the `Z` of
the writer behind. -/
theorem formatDate_of_namesTime (hnames : NamesTime text) :
    formatDate seconds = text.take 19 ++ ascii "Z" := by
  have hlength := h.length
  obtain ⟨hhour, hminute, hsecond⟩ := hnames.time
  have htime : 0 ≤ timeAt text ∧ timeAt text < 86400 := by
    unfold timeAt
    omega
  have hdays : (daysAt text * 86400 + timeAt text) / 86400 = daysAt text := by omega
  have hrest : (daysAt text * 86400 + timeAt text) % 86400 = timeAt text := by omega
  have hhours : timeAt text / 3600 = numberAt text 11 2 := by
    unfold timeAt
    omega
  have hminutes : timeAt text % 3600 / 60 = numberAt text 14 2 := by
    unfold timeAt
    omega
  have hseconds : timeAt text % 60 = numberAt text 17 2 := by
    unfold timeAt
    omega
  have hcivil := daysToCivil_civilToDays hnames.date
  rw [h.formatDate_seconds, hdays, hrest, daysAt_of_isDate hnames.date, hcivil,
    take_fields, hnames.dashes.1, hnames.dashes.2, hnames.letter, hnames.colons.1,
    hnames.colons.2, dateText, hhours, hminutes, hseconds,
    zeroPadded_numberAt (by decide) h.year (by omega),
    zeroPadded_numberAt (by decide) h.month (by omega),
    zeroPadded_numberAt (by decide) h.day (by omega),
    zeroPadded_numberAt (by decide) h.hour (by omega),
    zeroPadded_numberAt (by decide) h.minute (by omega),
    zeroPadded_numberAt (by decide) h.second (by omega)]
  simp only [List.append_assoc]

/-- The seconds of such a text are those of its time. -/
theorem toInt_of_namesTime (hnames : NamesTime text) :
    seconds.toInt = instant text := by
  have hepoch : dayNumber 2001 1 1 = dayNumber 1970 1 1 + 11323 := by
    unfold dayNumber
    rw [daysBeforeYear_eq, daysBeforeYear_eq]
    rfl
  rw [h.toInt_seconds, daysAt_of_isDate hnames.date,
    civilToDays_eq_dayNumber hnames.date, instant, hepoch]
  omega

/-- A text that is written back as it was is of the form: what the writer writes always
has a day of the calendar and a time of the day. -/
theorem namesTime_of_formatDate (hback : text.take 19 <+: formatDate seconds) :
    NamesTime text := by
  have hlength := h.length
  have hrange := h.daysAt_range
  obtain ⟨-, -, -, hhour, hminute, hsecond⟩ := h.bounds
  have htime : 0 ≤ timeAt text ∧ timeAt text ≤ 99 * 3600 + 99 * 60 + 99 := by
    unfold timeAt
    omega
  rw [h.formatDate_seconds] at hback
  have hdays : daysAt text ≤ (daysAt text * 86400 + timeAt text) / 86400 ∧
      (daysAt text * 86400 + timeAt text) / 86400 ≤ daysAt text + 5 := by
    omega
  have hrest : 0 ≤ (daysAt text * 86400 + timeAt text) % 86400 ∧
      (daysAt text * 86400 + timeAt text) % 86400 < 86400 := by
    omega
  generalize (daysAt text * 86400 + timeAt text) / 86400 = days at *
  generalize (daysAt text * 86400 + timeAt text) % 86400 = time at *
  have hdate := isDate_daysToCivil days
  have hyears := year_daysToCivil days
  generalize daysToCivil days = date at *
  obtain ⟨year, month, day⟩ := date
  dsimp only at hdate hyears
  have hmonth := hdate.monthRange
  have hday := hdate.dayRange
  -- the text of the date, from the dash after its year on
  have hafter : ∃ after, dateText (year, month, day) time =
      zeroPadded 4 year ++ (ascii "-" ++ after) := by
    unfold dateText
    simp only [List.append_assoc]
    exact ⟨_, rfl⟩
  obtain ⟨after, hafter⟩ := hafter
  by_cases hneg : year < 0
  · -- a year before zero begins with a dash
    have hdash : ∃ rest, zeroPadded 4 year = ascii "-" ++ rest := by
      unfold zeroPadded
      dsimp only
      rw [if_pos hneg, List.append_assoc]
      exact ⟨_, rfl⟩
    obtain ⟨rest, hrest'⟩ := hdash
    have hzero : DigitsAt text 0 1 := @DigitsAt.first text 0 3 h.year
    rw [hafter, hrest', List.append_assoc] at hback
    exact absurd hback (@no_dash_at text [] _ 0 hlength (by decide) hzero rfl)
  obtain ⟨year, rfl⟩ := Int.eq_ofNat_of_zero_le (show 0 ≤ year by omega)
  by_cases hsmall : year < 10000
  · obtain ⟨month, rfl⟩ := Int.eq_ofNat_of_zero_le (show 0 ≤ month by omega)
    obtain ⟨day, rfl⟩ := Int.eq_ofNat_of_zero_le (show 0 ≤ day by omega)
    obtain ⟨time, rfl⟩ := Int.eq_ofNat_of_zero_le hrest.1
    have hfields := hasFields_of_prefix hlength hdate hsmall (by omega) hback
    exact hfields.namesTime hdate hsmall (by omega)
  -- a longer year has its dash at a digit of the month or of the day
  rw [hafter] at hback
  rcases hrange with hnear | hfar
  · have hwide := @zeroPadded_wide year 4 (by decide) (by omega) (by omega)
    have hfive : DigitsAt text 5 1 := @DigitsAt.first text 5 1 h.month
    exact absurd hback (no_dash_at hlength (by decide) hfive hwide)
  · have hwide := @zeroPadded_wide year 7 (by decide) (by omega) (by omega)
    have height : DigitsAt text 8 1 := @DigitsAt.first text 8 1 h.day
    exact absurd hback (no_dash_at hlength (by decide) height hwide)

end Accepted

/-- An accepted text is written back as its first 19 characters exactly when they are
of the form `YYYY-MM-DDThh:mm:ss` for a day of the calendar and a time of the day; the
seconds are then those of that time. -/
theorem formatDate_parseDate_iff {text : Bytes} {seconds : Int64}
    (h : parseDate text = .ok seconds) :
    (text.take 19 <+: formatDate seconds ↔ NamesTime text) ∧
      (NamesTime text → seconds.toInt = instant text) := by
  have haccepted := accepted_of_parseDate h
  constructor
  · constructor
    · exact haccepted.namesTime_of_formatDate
    · intro hnames
      rw [haccepted.formatDate_of_namesTime hnames]
      exact List.prefix_append _ _
  · exact haccepted.toInt_of_namesTime

theorem formatDate_parseDate_leapDay :
    ((ascii "2024-02-29T12:00:00Z").take 19 <+: formatDate 730900800 ↔
        NamesTime (ascii "2024-02-29T12:00:00Z")) ∧
      (NamesTime (ascii "2024-02-29T12:00:00Z") →
        (730900800 : Int64).toInt = instant (ascii "2024-02-29T12:00:00Z")) :=
  formatDate_parseDate_iff (by decide +kernel)

/-- The thirtieth of February is taken, as the second of March. -/
theorem parseDate_february_thirtieth :
    ¬ ∀ text seconds, parseDate text = .ok seconds →
      text.take 19 <+: formatDate seconds := by
  intro hclaim
  have hparse : parseDate (ascii "2023-02-30T12:00:00Z") = .ok 699451200 := by
    decide +kernel
  have hback := hclaim _ _ hparse
  revert hback
  decide +kernel

end Ioscpp.Protocol.Plist
