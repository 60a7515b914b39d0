import Ioscpp.Protocol.PlistText
import Ioscpp.Support.Calendar
import Ioscpp.Support.DecimalDigits
import Ioscpp.Support.SignedWords

/-!
# The dates of plists

The parser reads six numbers at fixed places and checks that they are digits; it
checks neither the characters between them nor that there is such a day.  The words
of the two conversions are those of the calendar as long as nothing wraps around.

## Main results

- `toInt_daysFromCivil_of_isDate`: the count of the days of a date.
- `civilFromDays_of_isDate`: the date of a count of days.
- `formatDate_eq`: the writer writes the date of a time, as long as nothing overflows.
-/

namespace Ioscpp.Protocol.Plist

open Ioscpp.Support Calendar

/-! ## The conversions without overflow -/

/-- The day of an era wraps around for the day before the first. -/
def wrapped (day : Int) : Int := if day < 0 then day + 2 ^ 32 else day

theorem toNat_marchMonth {month : UInt32} (h : month.toNat ≤ 99) :
    ((month + if 2 < month then -3 else 9).toNat : Int) =
      if 2 < (month.toNat : Int) then (month.toNat : Int) - 3 else month.toNat + 9 := by
  by_cases hlate : 2 < month
  · have hnat : 2 < month.toNat := UInt32.lt_iff_toNat_lt.mp hlate
    rw [if_pos hlate, if_pos (by omega), UInt32.toNat_add,
      show (-3 : UInt32).toNat = 2 ^ 32 - 3 from rfl]
    omega
  · have hnat : ¬ 2 < month.toNat := fun h => hlate (UInt32.lt_iff_toNat_lt.mpr h)
    rw [if_neg hlate, if_neg (by omega), UInt32.toNat_add,
      show (9 : UInt32).toNat = 9 from rfl]
    omega

/-- The day of an era, in 32 bits. -/
theorem toNat_dayOfEra {yoe marchMonth day : UInt32} (hyear : yoe.toNat < 400)
    (hmonth : marchMonth.toNat ≤ 99) (hday : day.toNat ≤ 99) :
    ((yoe * 365 + yoe / 4 - yoe / 100 +
        ((153 * marchMonth + 2) / 5 + day - 1)).toNat : Int) =
      wrapped (yearStart yoe.toNat + (monthStart marchMonth.toNat + day.toNat - 1)) := by
  have hwhole : (yoe * 365).toNat = yoe.toNat * 365 := by
    rw [UInt32.toNat_mul, show (365 : UInt32).toNat = 365 from rfl]
    omega
  have hfour : (yoe / 4).toNat = yoe.toNat / 4 := UInt32.toNat_div yoe 4
  have hhundred : (yoe / 100).toNat = yoe.toNat / 100 := UInt32.toNat_div yoe 100
  have hstart : (yoe * 365 + yoe / 4 - yoe / 100).toNat =
      yoe.toNat * 365 + yoe.toNat / 4 - yoe.toNat / 100 := by
    rw [UInt32.toNat_sub, UInt32.toNat_add, hwhole, hfour, hhundred]
    omega
  have hmonthStart : ((153 * marchMonth + 2) / 5).toNat =
      (153 * marchMonth.toNat + 2) / 5 := by
    have hproduct : (153 * marchMonth).toNat = 153 * marchMonth.toNat := by
      rw [UInt32.toNat_mul, show (153 : UInt32).toNat = 153 from rfl]
      omega
    have hsum : (153 * marchMonth + 2).toNat = 153 * marchMonth.toNat + 2 := by
      rw [UInt32.toNat_add, hproduct, show (2 : UInt32).toNat = 2 from rfl]
      omega
    rw [UInt32.toNat_div, hsum, show (5 : UInt32).toNat = 5 from rfl]
  rw [UInt32.toNat_add, hstart, UInt32.toNat_sub, UInt32.toNat_add, hmonthStart,
    show (1 : UInt32).toNat = 1 from rfl]
  unfold wrapped yearStart monthStart
  split_ifs <;> omega

/-- The count of days, with the one way in which it goes wrong. -/
theorem toInt_daysFromCivil {year : Int64} {month day : UInt32}
    (hyear : 0 ≤ year.toInt ∧ year.toInt ≤ 9999) (hmonth : month.toNat ≤ 99)
    (hday : day.toNat ≤ 99) :
    let march := if (month.toNat : Int) ≤ 2 then year.toInt - 1 else year.toInt
    let marchMonth :=
      if 2 < (month.toNat : Int) then (month.toNat : Int) - 3 else month.toNat + 9
    (daysFromCivil year month day).toInt = march / 400 * 146097 +
      wrapped (yearStart (march % 400) + (monthStart marchMonth + day.toNat - 1)) -
        719468 := by
  have hmarch : (if month ≤ 2 then year - 1 else year).toInt =
      if (month.toNat : Int) ≤ 2 then year.toInt - 1 else year.toInt := by
    by_cases hearly : month ≤ 2
    · have hnat : month.toNat ≤ 2 := UInt32.le_iff_toNat_le.mp hearly
      rw [if_pos hearly, if_pos (by omega)]
      exact toInt_sub_eq rfl rfl ⟨by omega, by omega⟩
    · have hnat : ¬ month.toNat ≤ 2 := fun h => hearly (UInt32.le_iff_toNat_le.mpr h)
      rw [if_neg hearly, if_neg (by omega)]
  have hmonth' := toNat_marchMonth hmonth
  have hrange : -1 ≤ (if (month.toNat : Int) ≤ 2 then year.toInt - 1 else year.toInt) ∧
      (if (month.toNat : Int) ≤ 2 then year.toInt - 1 else year.toInt) ≤ 9999 := by
    split_ifs <;> omega
  have hsmall : (month + if 2 < month then -3 else 9).toNat ≤ 99 := by
    have hle : (if 2 < (month.toNat : Int) then (month.toNat : Int) - 3
        else month.toNat + 9) ≤ 99 := by
      split_ifs <;> omega
    omega
  unfold daysFromCivil
  dsimp only
  rw [← hmarch, ← hmonth']
  rw [← hmarch] at hrange
  generalize (if month ≤ 2 then year - 1 else year) = march at *
  generalize (month + if 2 < month then -3 else 9) = marchMonth at *
  have h400 : (400 : Int64).toInt = 400 := rfl
  have hera : ((if 0 ≤ march then march else march - 399) / 400).toInt =
      march.toInt / 400 :=
    @toInt_floorDiv march 400 _ _ rfl h400 (by decide) ⟨by omega, by omega⟩
  generalize (if 0 ≤ march then march else march - 399) / 400 = era at *
  have hprod := toInt_mul_eq hera h400 ⟨by omega, by omega⟩
  have hrest : (march - era * 400).toInt = march.toInt % 400 := by
    rw [toInt_sub_eq rfl hprod ⟨by omega, by omega⟩]
    omega
  have hlow := toNat_low hrest (by omega) (by omega)
  generalize (march - era * 400).toUInt64.toUInt32 = yoe at *
  have hdoe := @toNat_dayOfEra yoe marchMonth day (by omega) hsmall hday
  rw [hlow] at hdoe
  generalize yoe * 365 + yoe / 4 - yoe / 100 +
    ((153 * marchMonth + 2) / 5 + day - 1) = doe at *
  have hlt := doe.toNat_lt
  have h146097 : (146097 : Int64).toInt = 146097 := rfl
  have h719468 : (719468 : Int64).toInt = 719468 := rfl
  have hdays := toInt_mul_eq hera h146097 ⟨by omega, by omega⟩
  have hsum := toInt_add_eq hdays (toInt_widen doe) ⟨by omega, by omega⟩
  have hfits : FitsInt64 (march.toInt / 400 * 146097 + doe.toNat - 719468) := by
    clear hsum hdays hdoe h146097 h719468
    constructor <;> omega
  rw [← hdoe]
  exact toInt_sub_eq hsum h719468 hfits

/-- A day of the calendar does not wrap around. -/
theorem wrapped_of_isDate {year month day : Int} (h : IsDate year month day) :
    let march := if month ≤ 2 then year - 1 else year
    let marchMonth := if 2 < month then month - 3 else month + 9
    march / 400 * 146097 +
      wrapped (yearStart (march % 400) + (monthStart marchMonth + day - 1)) - 719468 =
        civilToDays year month day := by
  obtain ⟨hoffset, -⟩ := march_of_isDate h
  unfold civilToDays
  dsimp only at hoffset ⊢
  generalize (if month ≤ 2 then year - 1 else year) = march at *
  have hstart : 0 ≤ yearStart (march % 400) := by
    unfold yearStart
    omega
  unfold wrapped
  rw [if_neg (by omega)]

/-- No month has more than 31 days. -/
theorem day_le_of_isDate {year month day : Int} (h : IsDate year month day) :
    day ≤ 31 := by
  have hlast := h.dayRange.2
  unfold daysInMonth at hlast
  split_ifs at hlast <;> omega

theorem toInt_wide {value : Nat} (h : value ≤ 9999) :
    (Int64.ofNat value).toInt = value :=
  Int64.toInt_ofNat_of_lt (by omega)

theorem toNat_half {value : Nat} (h : value ≤ 99) :
    (UInt32.ofNat value).toNat = value := by
  rw [UInt32.toNat_ofNat']
  omega

/-- The count of the days of a date of the calendar: no word wraps around on the way,
and the count is that over integers without bound. -/
theorem toInt_daysFromCivil_of_isDate {year month day : Nat}
    (hdate : IsDate year month day) (hyear : year ≤ 9999) :
    (daysFromCivil (Int64.ofNat year) (UInt32.ofNat month) (UInt32.ofNat day)).toInt =
      civilToDays year month day := by
  have hmonth := hdate.monthRange
  have hday := day_le_of_isDate hdate
  have hcount := @toInt_daysFromCivil (Int64.ofNat year) (UInt32.ofNat month)
    (UInt32.ofNat day)
  rw [toInt_wide hyear, toNat_half (show month ≤ 99 by omega),
    toNat_half (show day ≤ 99 by omega)] at hcount
  have hdays := hcount ⟨by omega, by omega⟩ (by omega) (by omega)
  exact hdays.trans (wrapped_of_isDate hdate)

section DayOfEra

variable {doe : UInt32} (hdoe : doe.toNat < 146097)

include hdoe

theorem toNat_yearOfEra :
    (((doe - doe / 1460 + doe / 36524 - doe / 146096) / 365).toNat : Int) =
      yearOfEra doe.toNat := by
  have hone : (doe / 1460).toNat = doe.toNat / 1460 := UInt32.toNat_div doe 1460
  have htwo : (doe / 36524).toNat = doe.toNat / 36524 := UInt32.toNat_div doe 36524
  have hthree : (doe / 146096).toNat = doe.toNat / 146096 :=
    UInt32.toNat_div doe 146096
  have hsum : (doe - doe / 1460 + doe / 36524 - doe / 146096).toNat =
      doe.toNat - doe.toNat / 1460 + doe.toNat / 36524 - doe.toNat / 146096 := by
    rw [UInt32.toNat_sub, UInt32.toNat_add, UInt32.toNat_sub, hone, htwo, hthree]
    omega
  rw [UInt32.toNat_div, hsum, show (365 : UInt32).toNat = 365 from rfl]
  unfold yearOfEra
  omega

/-- The year of a day of an era, and the day of that year. -/
theorem yearOfEra_range :
    (0 ≤ yearOfEra doe.toNat ∧ yearOfEra doe.toNat < 400) ∧
      0 ≤ (doe.toNat : Int) - yearStart (yearOfEra doe.toNat) ∧
        (doe.toNat : Int) - yearStart (yearOfEra doe.toNat) < 366 := by
  obtain ⟨year, offset, hyear, hoffset, hday⟩ :=
    @exists_year doe.toNat ⟨by omega, by omega⟩
  have hlength : yearLength year ≤ 366 := by
    unfold yearLength
    split <;> omega
  have hback := yearOfEra_of_mem hyear hoffset
  rw [← hday] at hback
  rw [hback]
  omega

theorem toNat_dayOfYear {yoe : UInt32} (hyoe : (yoe.toNat : Int) = yearOfEra doe.toNat) :
    ((doe - (365 * yoe + yoe / 4 - yoe / 100)).toNat : Int) =
      doe.toNat - yearStart (yearOfEra doe.toNat) := by
  obtain ⟨hyear, hday⟩ := yearOfEra_range hdoe
  rw [← hyoe] at hyear hday ⊢
  have hwhole : (365 * yoe).toNat = 365 * yoe.toNat := by
    rw [UInt32.toNat_mul, show (365 : UInt32).toNat = 365 from rfl]
    omega
  have hfour : (yoe / 4).toNat = yoe.toNat / 4 := UInt32.toNat_div yoe 4
  have hhundred : (yoe / 100).toNat = yoe.toNat / 100 := UInt32.toNat_div yoe 100
  have hstart : (365 * yoe + yoe / 4 - yoe / 100).toNat =
      365 * yoe.toNat + yoe.toNat / 4 - yoe.toNat / 100 := by
    rw [UInt32.toNat_sub, UInt32.toNat_add, hwhole, hfour, hhundred]
    omega
  rw [UInt32.toNat_sub, hstart]
  unfold yearStart at hday ⊢
  omega

end DayOfEra

/-- The month of a day of a year that begins in March, and the day of the month. -/
theorem toNat_monthAndDay {doy : UInt32} (hdoy : doy.toNat < 366) :
    (((5 * doy + 2) / 153).toNat : Int) = monthOfYear doy.toNat ∧
      ((doy - (153 * ((5 * doy + 2) / 153) + 2) / 5 + 1).toNat : Int) =
        doy.toNat - monthStart (monthOfYear doy.toNat) + 1 := by
  obtain ⟨hmonth, hmem⟩ := @monthOfYear_spec doy.toNat ⟨by omega, by omega⟩
  have hproduct : (5 * doy).toNat = 5 * doy.toNat := by
    rw [UInt32.toNat_mul, show (5 : UInt32).toNat = 5 from rfl]
    omega
  have hsum : (5 * doy + 2).toNat = 5 * doy.toNat + 2 := by
    rw [UInt32.toNat_add, hproduct, show (2 : UInt32).toNat = 2 from rfl]
    omega
  have hmp : (((5 * doy + 2) / 153).toNat : Int) = monthOfYear doy.toNat := by
    rw [UInt32.toNat_div, hsum, show (153 : UInt32).toNat = 153 from rfl]
    unfold monthOfYear
    omega
  rw [← hmp] at hmonth hmem ⊢
  generalize (5 * doy + 2) / 153 = mp at *
  have hscaled : (153 * mp).toNat = 153 * mp.toNat := by
    rw [UInt32.toNat_mul, show (153 : UInt32).toNat = 153 from rfl]
    omega
  have hshifted : (153 * mp + 2).toNat = 153 * mp.toNat + 2 := by
    rw [UInt32.toNat_add, hscaled, show (2 : UInt32).toNat = 2 from rfl]
    omega
  have hstart : (((153 * mp + 2) / 5).toNat : Int) = monthStart mp.toNat := by
    rw [UInt32.toNat_div, hshifted, show (5 : UInt32).toNat = 5 from rfl]
    unfold monthStart
    omega
  have hle : (153 * mp + 2) / 5 ≤ doy := by
    rw [UInt32.le_iff_toNat_le]
    omega
  have hdifference := UInt32.toNat_sub_of_le _ _ hle
  constructor
  · rfl
  · rw [UInt32.toNat_add, hdifference, show (1 : UInt32).toNat = 1 from rfl]
    omega

theorem toNat_civilMonth {mp : UInt32} (hmp : mp.toNat < 12) :
    ((mp + if mp < 10 then 3 else -9).toNat : Int) =
      mp.toNat + if (mp.toNat : Int) < 10 then 3 else -9 := by
  by_cases hearly : mp < 10
  · have hnat : mp.toNat < 10 := UInt32.lt_iff_toNat_lt.mp hearly
    rw [if_pos hearly, if_pos (by omega), UInt32.toNat_add,
      show (3 : UInt32).toNat = 3 from rfl]
    omega
  · have hnat : ¬ mp.toNat < 10 := fun h => hearly (UInt32.lt_iff_toNat_lt.mpr h)
    rw [if_neg hearly, if_neg (by omega), UInt32.toNat_add,
      show (-9 : UInt32).toNat = 2 ^ 32 - 9 from rfl]
    omega

/-- The date of a count of days that is far from the bounds of its type. -/
theorem civilFromDays_eq {z : Int64} (hz : -2 ^ 40 ≤ z.toInt ∧ z.toInt ≤ 2 ^ 40) :
    (civilFromDays z).1.toInt = (daysToCivil z.toInt).1 ∧
      ((civilFromDays z).2.1.toNat : Int) = (daysToCivil z.toInt).2.1 ∧
      ((civilFromDays z).2.2.toNat : Int) = (daysToCivil z.toInt).2.2 := by
  have h719468 : (719468 : Int64).toInt = 719468 := rfl
  have hshift : (z + 719468).toInt = z.toInt + 719468 :=
    toInt_add_eq rfl h719468 ⟨by omega, by omega⟩
  unfold civilFromDays daysToCivil
  dsimp only
  rw [← hshift]
  have hrange : -2 ^ 41 ≤ (z + 719468).toInt ∧ (z + 719468).toInt ≤ 2 ^ 41 := by
    rw [hshift]
    omega
  generalize z + 719468 = days at *
  have h146097 : (146097 : Int64).toInt = 146097 := rfl
  have hera : ((if 0 ≤ days then days else days - 146096) / 146097).toInt =
      days.toInt / 146097 :=
    @toInt_floorDiv days 146097 _ _ rfl h146097 (by decide) ⟨by omega, by omega⟩
  generalize (if 0 ≤ days then days else days - 146096) / 146097 = era at *
  have hprod := toInt_mul_eq hera h146097 ⟨by omega, by omega⟩
  have hrest : (days - era * 146097).toInt = days.toInt % 146097 := by
    rw [toInt_sub_eq rfl hprod ⟨by omega, by omega⟩]
    omega
  have hlow := toNat_low hrest (by omega) (by omega)
  generalize (days - era * 146097).toUInt64.toUInt32 = doe at *
  have hdoe : doe.toNat < 146097 := by omega
  rw [← hlow]
  have hyoe := toNat_yearOfEra hdoe
  have hyear := (yearOfEra_range hdoe).1
  have hdoy := toNat_dayOfYear hdoe hyoe
  have hdoyRange := (yearOfEra_range hdoe).2
  generalize (doe - doe / 1460 + doe / 36524 - doe / 146096) / 365 = yoe at *
  rw [← hdoy] at hdoyRange ⊢
  generalize doe - (365 * yoe + yoe / 4 - yoe / 100) = doy at *
  obtain ⟨hmp, hday⟩ := @toNat_monthAndDay doy (by omega)
  obtain ⟨hmonth, -⟩ := @monthOfYear_spec doy.toNat ⟨by omega, by omega⟩
  rw [← hday]
  have hcivil := @toNat_civilMonth ((5 * doy + 2) / 153) (by omega)
  rw [← hmp, ← hcivil]
  generalize (5 * doy + 2) / 153 + (if (5 * doy + 2) / 153 < 10 then 3 else -9) =
    month at *
  have h400 : (400 : Int64).toInt = 400 := rfl
  have heras := toInt_mul_eq hera h400 ⟨by omega, by omega⟩
  have hwide := toInt_widen yoe
  rw [hyoe] at hwide
  have hsum := toInt_add_eq hwide heras ⟨by omega, by omega⟩
  constructor
  · by_cases hearly : month ≤ 2
    · have hnat : month.toNat ≤ 2 := UInt32.le_iff_toNat_le.mp hearly
      rw [if_pos hearly, if_pos (by omega)]
      exact toInt_add_eq hsum rfl ⟨by omega, by omega⟩
    · have hnat : ¬ month.toNat ≤ 2 := fun h => hearly (UInt32.le_iff_toNat_le.mpr h)
      rw [if_neg hearly, if_neg (by omega), hsum]
  · exact ⟨rfl, rfl⟩

/-- The date of a count of days is the date that has this count, in the years of four
digits. -/
theorem civilFromDays_of_isDate {days : Int64} {year month day : Nat}
    (hdate : IsDate year month day) (hyear : year ≤ 9999)
    (hdays : days.toInt = civilToDays year month day) :
    civilFromDays days =
      (Int64.ofNat year, UInt32.ofNat month, UInt32.ofNat day) := by
  have hmonth := hdate.monthRange
  have hday := day_le_of_isDate hdate
  have hrange : -2 ^ 40 ≤ days.toInt ∧ days.toInt ≤ 2 ^ 40 := by
    rw [hdays]
    unfold civilToDays yearStart monthStart
    dsimp only
    split_ifs <;> omega
  obtain ⟨hyear', hmonth', hday'⟩ := civilFromDays_eq hrange
  rw [hdays, daysToCivil_civilToDays hdate] at hyear' hmonth' hday'
  dsimp only at hyear' hmonth' hday'
  rw [Prod.ext_iff, Prod.ext_iff]
  refine ⟨?_, ?_, ?_⟩
  · rw [← Int64.toInt_inj, hyear', toInt_wide hyear]
  · rw [← UInt32.toNat_inj, toNat_half (by omega)]
    omega
  · rw [← UInt32.toNat_inj, toNat_half (by omega)]
    omega

/-! ## The text of a date -/

/-- The text of a date and of the seconds of a day. -/
def dateText (date : Int × Int × Int) (time : Int) : Bytes :=
  zeroPadded 4 date.1 ++ ascii "-" ++ zeroPadded 2 date.2.1 ++ ascii "-" ++
    zeroPadded 2 date.2.2 ++ ascii "T" ++ zeroPadded 2 (time / 3600) ++ ascii ":" ++
    zeroPadded 2 (time % 3600 / 60) ++ ascii ":" ++ zeroPadded 2 (time % 60) ++
    ascii "Z"

/-- The writer writes the date of a time, as long as nothing overflows: for times within
`2^50` seconds of 2001. -/
theorem formatDate_eq {seconds : Int64}
    (h : -2 ^ 50 ≤ seconds.toInt ∧ seconds.toInt ≤ 2 ^ 50) :
    formatDate seconds =
      dateText (daysToCivil ((seconds.toInt + 978307200) / 86400))
        ((seconds.toInt + 978307200) % 86400) := by
  have hepoch : kPlistEpochSeconds.toInt = 978307200 := rfl
  have hday : kSecondsPerDay.toInt = 86400 := rfl
  have htotal : (seconds + kPlistEpochSeconds).toInt = seconds.toInt + 978307200 :=
    toInt_add_eq rfl hepoch ⟨by omega, by omega⟩
  unfold formatDate
  dsimp only
  rw [← htotal]
  have hrange : -2 ^ 51 ≤ (seconds + kPlistEpochSeconds).toInt ∧
      (seconds + kPlistEpochSeconds).toInt ≤ 2 ^ 51 := by
    omega
  generalize seconds + kPlistEpochSeconds = total at *
  have hdays : ((if 0 ≤ total then total / kSecondsPerDay
      else (total - (kSecondsPerDay - 1)) / kSecondsPerDay)).toInt =
        total.toInt / 86400 := by
    have hfloor := @toInt_floorDiv total kSecondsPerDay _ _ rfl hday (by decide)
      ⟨by omega, by omega⟩
    rw [← hfloor]
    split <;> rfl
  generalize (if 0 ≤ total then total / kSecondsPerDay
      else (total - (kSecondsPerDay - 1)) / kSecondsPerDay) = days at *
  have hprod := toInt_mul_eq hdays hday ⟨by omega, by omega⟩
  have hrest : (total - days * kSecondsPerDay).toInt = total.toInt % 86400 := by
    rw [toInt_sub_eq rfl hprod ⟨by omega, by omega⟩]
    omega
  have hnonneg : ¬ total - days * kSecondsPerDay < 0 := by
    rw [Int64.lt_iff_toInt_lt, hrest, show (0 : Int64).toInt = 0 from rfl]
    omega
  rw [if_neg hnonneg]
  generalize total - days * kSecondsPerDay = time at *
  obtain ⟨hyear, hmonth, hday⟩ := @civilFromDays_eq days (by omega)
  have hpos : 0 ≤ time.toInt := by omega
  have h3600 : (3600 : Int64).toInt = 3600 := rfl
  have h60 : (60 : Int64).toInt = 60 := rfl
  have hhour := @toInt_div_of_nonneg time 3600 _ _ rfl h3600 hpos (by decide)
  have hmod := @toInt_mod_of_nonneg time 3600 _ _ rfl h3600 hpos
  have hminute := toInt_div_of_nonneg hmod h60 (by omega) (by decide)
  have hsecond := @toInt_mod_of_nonneg time 60 _ _ rfl h60 hpos
  rw [hhour, hminute, hsecond, hyear, hmonth, hday, hdays, hrest]
  rfl

end Ioscpp.Protocol.Plist
