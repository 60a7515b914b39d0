import Ioscpp.Protocol.PlistDateText

/-!
# The round trip of dates

In the years of four digits a time is written as its date and read back from it.  The
two conversions between dates and counts of days are inverse to each other there, and
are those of the calendar: no word of theirs wraps around on the way.

## Main results

- `formatDate_of_fallsOn`: what is written of a time is its date.
- `parseDate_formatDate`: a time in the years of four digits is read back from it.
-/

namespace Ioscpp.Protocol.Plist

open Ioscpp.Support Calendar

variable {year month day time : Nat}

/-! ## Texts that are read -/

theorem parseDate_of_accepted {text : Bytes} {seconds : Int64}
    (h : Accepted text seconds) : parseDate text = .ok seconds := by
  have hnumber : ∀ {offset count : Nat}, DigitsAt text offset count →
      dateNumber text offset count = some (numberAt text offset count) := by
    intro offset count hdigits
    exact if_pos (List.all_eq_true.mpr hdigits)
  have hlength := h.length
  unfold parseDate
  rw [if_neg (by omega), hnumber h.year, hnumber h.month, hnumber h.day,
    hnumber h.hour, hnumber h.minute, hnumber h.second]
  rw [h.value]

/-- The fields of a date are digits. -/
theorem HasFields.exists_accepted {text : Bytes}
    (h : HasFields text year month day time) (hlength : 19 ≤ text.length)
    (hdate : IsDate year month day) (hyear : year ≤ 9999) (htime : time < 86400) :
    ∃ seconds, Accepted text seconds := by
  have hmonth := hdate.monthRange
  have hday := day_le_of_isDate hdate
  have hdigits : ∀ {offset count value : Nat}, 0 < count → value < 10 ^ count →
      charsAt text offset count = zeroPadded count value →
        DigitsAt text offset count := by
    intro offset count value hcount hvalue heq
    unfold DigitsAt
    rw [heq]
    exact (zeroPadded_spec hcount hvalue).2.1
  exact ⟨_, hlength, hdigits (by decide) (by omega) h.year,
    hdigits (by decide) (by omega) h.month, hdigits (by decide) (by omega) h.day,
    hdigits (by decide) (by omega) h.hour, hdigits (by decide) (by omega) h.minute,
    hdigits (by decide) (by omega) h.second, rfl⟩

/-! ## There and back -/

/-- A time, in seconds since 2001-01-01T00:00:00, by the date that it falls on and the
seconds of that day. -/
structure FallsOn (seconds : Int) (year month day time : Nat) : Prop where
  date : IsDate year month day
  inDay : time < 86400
  count : seconds = (dayNumber year month day - dayNumber 2001 1 1) * 86400 + time

theorem dayNumber_epochs :
    dayNumber 2001 1 1 = 730851 ∧ dayNumber 1970 1 1 = 719528 := by
  unfold dayNumber
  rw [daysBeforeYear_eq, daysBeforeYear_eq]
  decide

/-- The days of a time since 1970-01-01, and what is left of it. -/
theorem FallsOn.split {seconds : Int} (h : FallsOn seconds year month day time) :
    (seconds + 978307200) / 86400 = civilToDays year month day ∧
      (seconds + 978307200) % 86400 = time := by
  obtain ⟨hepoch, hunix⟩ := dayNumber_epochs
  have hcount := h.count
  have htime := h.inDay
  rw [civilToDays_eq_dayNumber h.date, hunix]
  rw [hepoch] at hcount
  omega

/-- The counts of days in the years of four digits. -/
theorem civilToDays_range (hdate : IsDate year month day) (hyear : year ≤ 9999) :
    -719528 ≤ civilToDays year month day ∧ civilToDays year month day < 2932897 := by
  have hmonth := hdate.monthRange
  have hday := hdate.dayRange
  have hlast := day_le_of_isDate hdate
  unfold civilToDays yearStart monthStart
  dsimp only
  split_ifs <;> omega

/-- What is written of a time in the years of four digits is its date and the time of
that day. -/
theorem formatDate_of_fallsOn {seconds : Int64}
    (h : FallsOn seconds.toInt year month day time) (hyear : year ≤ 9999) :
    formatDate seconds = dateText (year, month, day) time := by
  obtain ⟨hdays, hrest⟩ := h.split
  have hrange := civilToDays_range h.date hyear
  rw [formatDate_eq ⟨by omega, by omega⟩, hdays, hrest,
    daysToCivil_civilToDays h.date]

theorem length_dateText (hdate : IsDate year month day) (hyear : year ≤ 9999)
    (htime : time < 86400) : 19 ≤ (dateText (year, month, day) time).length := by
  have hmonth := hdate.monthRange
  have hday := day_le_of_isDate hdate
  have hhours : ((time : Int) / 3600) = (time / 3600 : Nat) := by omega
  have hminutes : ((time : Int) % 3600 / 60) = (time % 3600 / 60 : Nat) := by omega
  have hseconds : ((time : Int) % 60) = (time % 60 : Nat) := by omega
  have hfour : (zeroPadded 4 year).length = 4 :=
    (zeroPadded_spec (by decide) (by omega)).1
  have htwo : ∀ {value : Nat}, value < 100 → (zeroPadded 2 value).length = 2 :=
    fun hvalue => (zeroPadded_spec (by decide) hvalue).1
  have hone : (ascii "-").length = 1 ∧ (ascii "T").length = 1 ∧
      (ascii ":").length = 1 ∧ (ascii "Z").length = 1 := by
    decide
  unfold dateText
  rw [hhours, hminutes, hseconds]
  simp only [List.length_append, hfour, htwo (show month < 100 by omega),
    htwo (show day < 100 by omega), htwo (show time / 3600 < 100 by omega),
    htwo (show time % 3600 / 60 < 100 by omega), htwo (show time % 60 < 100 by omega)]
  omega

/-- What is written of a time is read as that time. -/
theorem parseDate_dateText {seconds : Int64}
    (h : FallsOn seconds.toInt year month day time) (hyear : year ≤ 9999) :
    parseDate (dateText (year, month, day) time) = .ok seconds := by
  have hlength := length_dateText h.date hyear h.inDay
  have hfields := hasFields_of_prefix hlength h.date (by omega) h.inDay
    (List.take_prefix _ _)
  obtain ⟨found, haccepted⟩ := hfields.exists_accepted hlength h.date hyear h.inDay
  have hnames := hfields.namesTime h.date (by omega) h.inDay
  obtain ⟨⟨hyearAt, hmonthAt, hdayAt⟩, hhourAt, hminuteAt, hsecondAt⟩ :=
    hfields.numbers h.date (by omega) h.inDay
  have hsame : found = seconds := by
    rw [← Int64.toInt_inj, haccepted.toInt_of_namesTime hnames, h.count, instant,
      timeAt, hyearAt, hmonthAt, hdayAt, hhourAt, hminuteAt, hsecondAt]
    omega
  rw [parseDate_of_accepted haccepted, hsame]

/-- A time in the years of four digits is read back from its text.  In these years the
two conversions are inverse to each other, and both are those of the calendar over
integers without bound. -/
theorem parseDate_formatDate {seconds days : Int64}
    (h : FallsOn seconds.toInt year month day time) (hyear : year ≤ 9999)
    (hdays : days.toInt = dayNumber year month day - dayNumber 1970 1 1) :
    parseDate (formatDate seconds) = .ok seconds ∧
      civilFromDays days =
        (Int64.ofNat year, UInt32.ofNat month, UInt32.ofNat day) ∧
      daysFromCivil (Int64.ofNat year) (UInt32.ofNat month) (UInt32.ofNat day) =
        days ∧
      daysToCivil days.toInt = ((year : Int), (month : Int), (day : Int)) ∧
      civilToDays year month day = days.toInt := by
  have hcount : days.toInt = civilToDays year month day := by
    rw [hdays, civilToDays_eq_dayNumber h.date]
  refine ⟨?_, civilFromDays_of_isDate h.date hyear hcount, ?_, ?_, hcount.symm⟩
  · rw [formatDate_of_fallsOn h hyear]
    exact parseDate_dateText h hyear
  · rw [← Int64.toInt_inj, toInt_daysFromCivil_of_isDate h.date hyear, hcount]
  · rw [hcount]
    exact daysToCivil_civilToDays h.date

theorem parseDate_formatDate_leapDay :
    parseDate (formatDate (-12649219201)) = .ok (-12649219201) ∧
      civilFromDays (-135081) =
        (Int64.ofNat 1600, UInt32.ofNat 2, UInt32.ofNat 29) ∧
      daysFromCivil (Int64.ofNat 1600) (UInt32.ofNat 2) (UInt32.ofNat 29) =
        -135081 ∧
      daysToCivil (-135081 : Int64).toInt = (1600, 2, 29) ∧
      civilToDays 1600 2 29 = (-135081 : Int64).toInt := by
  obtain ⟨hepoch, hunix⟩ := dayNumber_epochs
  have hnumber : dayNumber 1600 2 29 = 584447 := by
    unfold dayNumber
    rw [daysBeforeYear_eq]
    decide
  have hdate : IsDate (1600 : Nat) (2 : Nat) (29 : Nat) :=
    ⟨by decide, by decide⟩
  exact @parseDate_formatDate 1600 2 29 86399 _ _
    ⟨hdate, by decide, by rw [hnumber, hepoch]; decide⟩ (by decide)
    (by rw [hnumber, hunix]; decide)

end Ioscpp.Protocol.Plist
