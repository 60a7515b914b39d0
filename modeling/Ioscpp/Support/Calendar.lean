import Ioscpp.Support.Bytes

/-!
# The calendar

The dates of the proleptic Gregorian calendar, the count of days from 1970-01-01,
and the way back.  Both count in eras of 400 years and in years that begin in March,
so that a leap day is the last day of its year.

## Main results

- `isDate_daysToCivil`: every count of days is that of a date.
- `daysToCivil_civilToDays`: a date is given back by its count of days.
- `civilToDays_eq_dayNumber`: the count is the sum of the years, months and days
  before the date.
-/

namespace Ioscpp.Support.Calendar

/-- Every fourth year, but of the centuries only every fourth. -/
def IsLeap (year : Int) : Prop := 4 ∣ year ∧ (¬ 100 ∣ year ∨ 400 ∣ year)

instance instDecidableIsLeap (year : Int) : Decidable (IsLeap year) :=
  inferInstanceAs (Decidable (_ ∧ _))

def daysInMonth (year month : Int) : Int :=
  if month = 2 then if IsLeap year then 29 else 28
  else if month = 4 ∨ month = 6 ∨ month = 9 ∨ month = 11 then 30
  else 31

/-- A day of the calendar. -/
structure IsDate (year month day : Int) : Prop where
  monthRange : 1 ≤ month ∧ month ≤ 12
  dayRange : 1 ≤ day ∧ day ≤ daysInMonth year month

/-! ## Years that begin in March -/

/-- The days of an era before the March of one of its years. -/
def yearStart (yearOfEra : Int) : Int :=
  yearOfEra * 365 + yearOfEra / 4 - yearOfEra / 100

/-- The days of a year that begins in March, before one of its months. -/
def monthStart (month : Int) : Int := (153 * month + 2) / 5

/-- The year of a day of an era. -/
def yearOfEra (day : Int) : Int :=
  (day - day / 1460 + day / 36524 - day / 146096) / 365

/-- The month of a day of a year that begins in March. -/
def monthOfYear (day : Int) : Int := (5 * day + 2) / 153

/-- The February at the end of a year that begins in March has a leap day or not. -/
def yearLength (yearOfEra : Int) : Int :=
  if IsLeap (yearOfEra + 1) then 366 else 365

/-- The days from 1970-01-01 to a date. -/
def civilToDays (year month day : Int) : Int :=
  let year := if month ≤ 2 then year - 1 else year
  let month := if 2 < month then month - 3 else month + 9
  year / 400 * 146097 + (yearStart (year % 400) + (monthStart month + day - 1)) -
    719468

/-- The date of a count of days from 1970-01-01. -/
def daysToCivil (days : Int) : Int × Int × Int :=
  let days := days + 719468
  let dayOfEra := days % 146097
  let yearOfEra := yearOfEra dayOfEra
  let dayOfYear := dayOfEra - yearStart yearOfEra
  let marchMonth := monthOfYear dayOfYear
  let day := dayOfYear - monthStart marchMonth + 1
  let month := marchMonth + if marchMonth < 10 then 3 else -9
  let year := yearOfEra + days / 146097 * 400
  (if month ≤ 2 then year + 1 else year, month, day)

/-! ## The year of a day -/

/-- The estimate of the year never falls. -/
theorem yearOfEra_mono {day day' : Int} (h : day ≤ day') :
    yearOfEra day ≤ yearOfEra day' := by
  have hone : day - day / 1460 ≤ day' - day' / 1460 := by omega
  have hquot : day / 36524 ≤ day' / 36524 := Int.ediv_le_ediv (by decide) h
  have hfour : ∀ day : Int, day / 146096 = day / 36524 / 4 := by
    intro day
    omega
  have htwo : day / 36524 - day / 146096 ≤ day' / 36524 - day' / 146096 := by
    rw [hfour, hfour]
    omega
  unfold yearOfEra
  exact Int.ediv_le_ediv (by decide) (by omega)

theorem yearOfEra_ends : ∀ year < 400,
    yearOfEra (yearStart (year : Nat)) = year ∧
      yearOfEra (yearStart year + yearLength year - 1) = year := by
  decide +kernel

/-- A day of a year of an era is in that year. -/
theorem yearOfEra_of_mem {year day : Int} (hyear : 0 ≤ year ∧ year < 400)
    (hday : 0 ≤ day ∧ day < yearLength year) :
    yearOfEra (yearStart year + day) = year := by
  obtain ⟨n, rfl⟩ := Int.eq_ofNat_of_zero_le hyear.1
  have hends := yearOfEra_ends n (by omega)
  have hlow := yearOfEra_mono (show yearStart n ≤ yearStart n + day by omega)
  have hle : yearStart n + day ≤ yearStart n + yearLength n - 1 := by omega
  have hhigh := yearOfEra_mono hle
  omega

/-- The next year begins where a year ends, and the era ends with its last year. -/
theorem yearStart_succ {year : Int} (hyear : 0 ≤ year ∧ year < 400) :
    yearStart year + yearLength year =
      if year = 399 then 146097 else yearStart (year + 1) := by
  unfold yearStart yearLength IsLeap
  split_ifs <;> omega

/-- Every day of an era is in one of its years. -/
theorem exists_year {day : Int} (hday : 0 ≤ day ∧ day < 146097) :
    ∃ year offset, (0 ≤ year ∧ year < 400) ∧ (0 ≤ offset ∧ offset < yearLength year) ∧
      day = yearStart year + offset := by
  have hall : ∀ n : Nat, n < 400 → day < yearStart n + yearLength n →
      ∃ year offset, (0 ≤ year ∧ year < 400) ∧
        (0 ≤ offset ∧ offset < yearLength year) ∧ day = yearStart year + offset := by
    intro n
    induction n with
    | zero =>
        intro hn hlt
        have hzero : yearStart ((0 : Nat) : Int) = 0 := by decide
        exact ⟨(0 : Nat), day, ⟨by omega, by omega⟩, ⟨hday.1, by omega⟩, by omega⟩
    | succ n ih =>
        intro hn hlt
        by_cases hless : day < yearStart n + yearLength n
        · exact ih (by omega) hless
        · have hnext := @yearStart_succ n ⟨by omega, by omega⟩
          rw [if_neg (by omega)] at hnext
          rw [Int.natCast_succ] at hlt
          exact ⟨n + 1, day - yearStart (n + 1), ⟨by omega, by omega⟩,
            ⟨by omega, by omega⟩, by omega⟩
  have hlast := @yearStart_succ 399 ⟨by decide, by decide⟩
  exact hall 399 (by decide) (by
    show day < yearStart 399 + yearLength 399
    rw [hlast, if_pos rfl]
    exact hday.2)

/-! ## The month of a day -/

/-- A day of a month of a year that begins in March is in that month. -/
theorem monthOfYear_of_mem {month day : Int}
    (hday : monthStart month ≤ day ∧ day < monthStart (month + 1)) :
    monthOfYear day = month := by
  unfold monthStart at hday
  unfold monthOfYear
  omega

theorem monthOfYear_spec {day : Int} (hday : 0 ≤ day ∧ day < 366) :
    (0 ≤ monthOfYear day ∧ monthOfYear day < 12) ∧
      monthStart (monthOfYear day) ≤ day ∧ day < monthStart (monthOfYear day + 1) := by
  unfold monthStart monthOfYear
  omega

/-- The months of a year that begins in March, but for the February at its end, are
as long as the calendar says. -/
theorem daysInMonth_march {year month : Int} (hmonth : 0 ≤ month ∧ month < 11) :
    daysInMonth year (month + if month < 10 then 3 else -9) =
      monthStart (month + 1) - monthStart month := by
  obtain ⟨hlow, hhigh⟩ := hmonth
  interval_cases month <;> rfl

theorem isLeap_add (year eras : Int) :
    IsLeap (year + eras * 400) ↔ IsLeap year := by
  unfold IsLeap
  omega

theorem yearLength_eq (year eras : Int) :
    yearLength year = 337 + daysInMonth (year + eras * 400 + 1) 2 := by
  have hleap : IsLeap (year + eras * 400 + 1) ↔ IsLeap (year + 1) := by
    rw [Int.add_right_comm]
    exact isLeap_add (year + 1) eras
  unfold yearLength daysInMonth
  rw [if_pos rfl]
  simp only [hleap]
  split <;> rfl

theorem dayOfEra_range {year offset : Int} (hyear : 0 ≤ year ∧ year < 400)
    (hoffset : 0 ≤ offset ∧ offset < yearLength year) :
    0 ≤ yearStart year + offset ∧ yearStart year + offset < 146097 := by
  have hlength : yearLength year ≤ 366 := by
    unfold yearLength
    split <;> omega
  unfold yearStart
  omega

/-! ## There and back -/

/-- A day by the era, the year that begins in March, its month and the day in it. -/
theorem daysToCivil_eq {eras year offset month : Int} (hyear : 0 ≤ year ∧ year < 400)
    (hoffset : 0 ≤ offset ∧ offset < yearLength year)
    (hmonth : monthStart month ≤ offset ∧ offset < monthStart (month + 1)) :
    daysToCivil (eras * 146097 + (yearStart year + offset) - 719468) =
      let civil := month + if month < 10 then 3 else -9
      let march := year + eras * 400
      (if civil ≤ 2 then march + 1 else march, civil,
        offset - monthStart month + 1) := by
  have hrange := dayOfEra_range hyear hoffset
  have hdays : eras * 146097 + (yearStart year + offset) - 719468 + 719468 =
      eras * 146097 + (yearStart year + offset) := by
    omega
  have hera : (eras * 146097 + (yearStart year + offset)) / 146097 = eras := by omega
  have hday : (eras * 146097 + (yearStart year + offset)) % 146097 =
      yearStart year + offset := by
    omega
  have hback : yearStart year + offset - yearStart year = offset := by omega
  unfold daysToCivil
  dsimp only
  rw [hdays, hera, hday, yearOfEra_of_mem hyear hoffset, hback,
    monthOfYear_of_mem hmonth]

/-- Every day is a day of a month of a year that begins in March, and its date is
made of them. -/
theorem exists_march (days : Int) :
    ∃ year offset month, (0 ≤ year ∧ year < 400) ∧
      (0 ≤ offset ∧ offset < yearLength year) ∧ (0 ≤ month ∧ month < 12) ∧
      (monthStart month ≤ offset ∧ offset < monthStart (month + 1)) ∧
      days + 719468 = (days + 719468) / 146097 * 146097 + (yearStart year + offset) ∧
      daysToCivil days =
        let civil := month + if month < 10 then 3 else -9
        let march := year + (days + 719468) / 146097 * 400
        (if civil ≤ 2 then march + 1 else march, civil,
          offset - monthStart month + 1) := by
  have hera : 0 ≤ (days + 719468) % 146097 ∧ (days + 719468) % 146097 < 146097 := by
    omega
  obtain ⟨year, offset, hyear, hoffset, hday⟩ := exists_year hera
  have hshort : yearLength year ≤ 366 := by
    unfold yearLength
    split <;> omega
  obtain ⟨hmonth, hmem⟩ := @monthOfYear_spec offset ⟨hoffset.1, by omega⟩
  have hdays : (days + 719468) / 146097 * 146097 + (yearStart year + offset) - 719468 =
      days := by
    omega
  have heq := @daysToCivil_eq ((days + 719468) / 146097) year offset
    (monthOfYear offset) hyear hoffset hmem
  rw [hdays] at heq
  exact ⟨year, offset, monthOfYear offset, hyear, hoffset, hmonth, hmem, by omega, heq⟩

/-- Every count of days is that of a date. -/
theorem isDate_daysToCivil (days : Int) :
    IsDate (daysToCivil days).1 (daysToCivil days).2.1 (daysToCivil days).2.2 := by
  obtain ⟨year, offset, month, hyear, hoffset, hmonth, hmem, hdays, heq⟩ :=
    exists_march days
  have hlength := yearLength_eq year ((days + 719468) / 146097)
  rw [heq]
  dsimp only
  have hstart : monthStart 11 = 337 := by decide
  constructor
  · split_ifs <;> omega
  · by_cases hlast : month < 11
    · rw [daysInMonth_march ⟨hmonth.1, hlast⟩]
      omega
    · have heleven : month = 11 := by omega
      have hcivil : (11 : Int) + (if (11 : Int) < 10 then 3 else -9) = 2 := by decide
      rw [heleven] at hmem
      rw [heleven, hcivil, if_pos (by decide)]
      omega

/-- A date by the year that begins in March: the day of that year is in its
month. -/
theorem march_of_isDate {year month day : Int} (h : IsDate year month day) :
    let march := if month ≤ 2 then year - 1 else year
    let marchMonth := if 2 < month then month - 3 else month + 9
    let offset := monthStart marchMonth + day - 1
    (0 ≤ offset ∧ offset < yearLength (march % 400)) ∧
      monthStart marchMonth ≤ offset ∧ offset < monthStart (marchMonth + 1) := by
  obtain ⟨hmonth, hday⟩ := h
  have hlong : ∀ year, 365 ≤ yearLength year := by
    intro year
    unfold yearLength
    split <;> omega
  dsimp only
  by_cases hfebruary : month = 2
  · have hlength := yearLength_eq ((year - 1) % 400) ((year - 1) / 400)
    have hyear : (year - 1) % 400 + (year - 1) / 400 * 400 + 1 = year := by omega
    have hshort : daysInMonth year 2 ≤ 29 := by
      unfold daysInMonth
      rw [if_pos rfl]
      split <;> omega
    have hstart : monthStart 11 = 337 ∧ monthStart 12 = 367 := by decide
    rw [hyear] at hlength
    rw [hfebruary] at hday ⊢
    show (0 ≤ monthStart 11 + day - 1 ∧
        monthStart 11 + day - 1 < yearLength ((year - 1) % 400)) ∧
      monthStart 11 ≤ monthStart 11 + day - 1 ∧
        monthStart 11 + day - 1 < monthStart 12
    omega
  · have hmarch : ∃ marchMonth, (0 ≤ marchMonth ∧ marchMonth < 11) ∧
        (if 2 < month then month - 3 else month + 9) = marchMonth ∧
        marchMonth + (if marchMonth < 10 then 3 else -9) = month := by
      refine ⟨_, ?_, rfl, ?_⟩
      · split_ifs <;> omega
      · split_ifs <;> omega
    obtain ⟨marchMonth, hrange, heq, hback⟩ := hmarch
    have hdays := @daysInMonth_march year marchMonth hrange
    have hlast : monthStart (marchMonth + 1) ≤ 337 := by
      unfold monthStart
      omega
    have hfirst : 0 ≤ monthStart marchMonth := by
      unfold monthStart
      omega
    have hyear := hlong ((if month ≤ 2 then year - 1 else year) % 400)
    rw [hback] at hdays
    rw [heq]
    omega

/-- The year of a count of days is one of its era, or the one after. -/
theorem year_daysToCivil (days : Int) :
    (days + 719468) / 146097 * 400 ≤ (daysToCivil days).1 ∧
      (daysToCivil days).1 ≤ (days + 719468) / 146097 * 400 + 400 := by
  obtain ⟨year, offset, month, hyear, -, -, -, -, heq⟩ := exists_march days
  rw [heq]
  dsimp only
  split <;> omega

/-- A date is given back by its count of days. -/
theorem daysToCivil_civilToDays {year month day : Int} (h : IsDate year month day) :
    daysToCivil (civilToDays year month day) = (year, month, day) := by
  obtain ⟨hoffset, hmonth⟩ := march_of_isDate h
  have hrange := h.monthRange
  have hyear : 0 ≤ (if month ≤ 2 then year - 1 else year) % 400 ∧
      (if month ≤ 2 then year - 1 else year) % 400 < 400 := by
    omega
  have hmarch : (if month ≤ 2 then year - 1 else year) % 400 +
      (if month ≤ 2 then year - 1 else year) / 400 * 400 =
        if month ≤ 2 then year - 1 else year := by
    omega
  unfold civilToDays
  dsimp only at hoffset hmonth ⊢
  rw [daysToCivil_eq hyear hoffset hmonth]
  dsimp only
  rw [hmarch]
  rw [Prod.mk.injEq, Prod.mk.injEq]
  constructor
  · split_ifs <;> omega
  constructor
  · split_ifs <;> omega
  · omega

/-! ## The days by their sum -/

def daysInYear (year : Int) : Int := if IsLeap year then 366 else 365

/-- The days before the first of January of a year, from that of year zero. -/
def daysBeforeYear : Nat → Int
  | 0 => 0
  | year + 1 => daysBeforeYear year + daysInYear year

/-- The days of a year before the first of a month, of which there are so many
before it. -/
def daysBeforeMonth (year : Int) : Nat → Int
  | 0 => 0
  | months + 1 => daysBeforeMonth year months + daysInMonth year (months + 1)

/-- The days from the first of January of year zero to a date. -/
def dayNumber (year month day : Nat) : Int :=
  daysBeforeYear year + daysBeforeMonth year (month - 1) + (day - 1)

theorem daysBeforeYear_eq (year : Nat) :
    daysBeforeYear year =
      365 * year + (year + 3) / 4 - (year + 99) / 100 + (year + 399) / 400 := by
  induction year with
  | zero => decide
  | succ year ih =>
      rw [daysBeforeYear, ih, daysInYear]
      by_cases hleap : IsLeap year
      · rw [if_pos hleap]
        unfold IsLeap at hleap
        omega
      · rw [if_neg hleap]
        unfold IsLeap at hleap
        omega

theorem daysBeforeMonth_eq {year month : Nat} (hmonth : 1 ≤ month ∧ month ≤ 12) :
    daysBeforeMonth year (month - 1) =
      if month ≤ 2 then monthStart (month + 9) - 306
      else monthStart (month - 3) + 31 + daysInMonth year 2 := by
  obtain ⟨hlow, hhigh⟩ := hmonth
  by_cases hleap : IsLeap year <;> interval_cases month <;>
    simp [daysBeforeMonth, daysInMonth, monthStart, hleap]

/-- The count of days is the sum of the years, months and days before the date. -/
theorem civilToDays_eq_dayNumber {year month day : Nat} (h : IsDate year month day) :
    civilToDays year month day = dayNumber year month day - dayNumber 1970 1 1 := by
  have hmonth := h.monthRange
  have hbefore := @daysBeforeMonth_eq year month ⟨by omega, by omega⟩
  have hepoch : dayNumber 1970 1 1 = 719528 := by
    rw [dayNumber, daysBeforeYear_eq]
    rfl
  rw [hepoch, dayNumber, daysBeforeYear_eq, hbefore]
  have hfebruary : daysInMonth year 2 = 28 + (if IsLeap year then 1 else 0) := by
    unfold daysInMonth
    rw [if_pos rfl]
    split <;> rfl
  unfold civilToDays yearStart
  dsimp only
  by_cases hfirst : (month : Int) ≤ 2
  · rw [if_pos hfirst, if_neg (by omega), if_pos (by omega)]
    omega
  · rw [if_neg hfirst, if_pos (by omega), if_neg (by omega), hfebruary]
    by_cases hleap : IsLeap year
    · rw [if_pos hleap]
      unfold IsLeap at hleap
      omega
    · rw [if_neg hleap]
      unfold IsLeap at hleap
      omega

end Ioscpp.Support.Calendar
