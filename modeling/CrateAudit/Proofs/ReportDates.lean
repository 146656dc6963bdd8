/-
This file proves that the dates of reports are those of the calendar: the first is the
start of 1970, and every day is followed by the next date. A day is placed in a year
that starts in March, where all months but the last have lengths of their own; that the
count of an era gives the right year comes from its centuries and their cycles of four
years.
-/

import Mathlib.Logic.Function.Iterate
import Mathlib.Order.Monotone.Basic
import CrateAudit.Data.Calendar

namespace CrateAudit.Calendar

theorem isLeapYear_iff {year : Nat} :
    isLeapYear year = true ↔ (4 ∣ year ∧ ¬ 100 ∣ year) ∨ 400 ∣ year := by
  simp [isLeapYear, Nat.dvd_iff_mod_eq_zero]

theorem isLeapYear_add_eras (year eras : Nat) :
    isLeapYear (year + 400 * eras) = isLeapYear year := by
  have fours : (year + 400 * eras) % 4 = year % 4 := by omega
  have hundreds : (year + 400 * eras) % 100 = year % 100 := by omega
  simp only [isLeapYear, fours, hundreds, Nat.add_mul_mod_self_left]

/-! ### Years that start in March -/

/-- The days of a year that starts in March, and so ends with the February of the next. -/
def yearLength (year : Nat) : Nat :=
  if isLeapYear (year + 1) then 366 else 365

theorem yearLength_bounds (year : Nat) : 365 ≤ yearLength year ∧ yearLength year ≤ 366 := by
  unfold yearLength
  split <;> decide

theorem yearStart_add_one (year : Nat) :
    yearStart (year + 1) = yearStart year + yearLength year := by
  have often : 100 ∣ year + 1 → 4 ∣ year + 1 := Nat.dvd_trans (by decide)
  have rarely : 400 ∣ year + 1 → 100 ∣ year + 1 := Nat.dvd_trans (by decide)
  have fewer : year / 100 ≤ year := Nat.div_le_self year 100
  simp only [yearStart, yearLength, isLeapYear_iff, Nat.succ_div]
  by_cases four : 4 ∣ year + 1
  · by_cases hundred : 100 ∣ year + 1
    · by_cases era : 400 ∣ year + 1
      · simp only [four, hundred, era, if_true, or_true]
        omega
      · simp only [four, hundred, era, if_true, if_false, not_true, and_false, or_false]
        omega
    · simp only [four, hundred, mt rarely hundred, if_true, if_false, not_false_iff, and_true,
        or_false]
      omega
  · simp only [four, mt often four, mt (often ∘ rarely) four, if_false, false_and, or_false]
    omega

theorem yearStart_monotone : Monotone yearStart := by
  refine monotone_nat_of_le_succ fun year => ?_
  rw [yearStart_add_one]
  exact Nat.le_add_right _ _

theorem yearStart_add_eras (year eras : Nat) :
    yearStart (400 * eras + year) = eraDays * eras + yearStart year := by
  have fours : (400 * eras + year) / 4 = 100 * eras + year / 4 := by omega
  have hundreds : (400 * eras + year) / 100 = 4 * eras + year / 100 := by omega
  have whole : (400 * eras + year) / 400 = eras + year / 400 := by omega
  have fewer : year / 100 ≤ year := Nat.div_le_self year 100
  simp only [yearStart, eraDays, fours, hundreds, whole]
  omega

/-- Only one year holds a day. -/
theorem year_unique {year later day rest : Nat} (within : day < yearLength year)
    (inside : rest < yearLength later)
    (same : yearStart year + day = yearStart later + rest) : year = later := by
  rcases Nat.lt_trichotomy year later with before | equal | after
  · have start := yearStart_monotone (Nat.succ_le_of_lt before)
    rw [Nat.succ_eq_add_one, yearStart_add_one] at start
    omega
  · exact equal
  · have start := yearStart_monotone (Nat.succ_le_of_lt after)
    rw [Nat.succ_eq_add_one, yearStart_add_one] at start
    omega

/-! ### The year of a day -/

/-- The last century of an era and the last cycle of a century are a day longer or shorter than
the others, which is what the count of days is corrected for. -/
theorem yearOfEra_eq {century cycle day : Nat} (inEra : century ≤ 3) (inCentury : cycle ≤ 24)
    (inCycle : day ≤ 1460) (last : cycle = 24 → day ≤ 1459 ∨ century = 3) :
    yearOfEra (36524 * century + 1461 * cycle + day) =
      100 * century + 4 * cycle + min 3 (day / 365) := by
  have quotient : (36524 * century + 1461 * cycle + day) / 1460 =
      25 * century + cycle + (24 * century + cycle + day) / 1460 := by omega
  by_cases final : century = 3 ∧ cycle = 24 ∧ day = 1460
  · obtain ⟨rfl, rfl, rfl⟩ := final
    rfl
  · have centuries : (36524 * century + 1461 * cycle + day) / 36524 = century := by omega
    have eras : (36524 * century + 1461 * cycle + day) / 146096 = 0 := by omega
    simp only [yearOfEra, quotient, centuries, eras]
    omega

theorem yearStart_of_cycle {century cycle position : Nat} (inEra : century ≤ 3)
    (inCentury : cycle ≤ 24) (inCycle : position ≤ 3) :
    yearStart (100 * century + 4 * cycle + position) =
      36524 * century + 1461 * cycle + 365 * position := by
  have fours : (100 * century + 4 * cycle + position) / 4 = 25 * century + cycle := by omega
  have hundreds : (100 * century + 4 * cycle + position) / 100 = century := by omega
  have eras : (100 * century + 4 * cycle + position) / 400 = 0 := by omega
  rw [yearStart, fours, hundreds, eras]
  omega

theorem yearStart_yearOfEra {day : Nat} (inEra : day < eraDays) :
    yearStart (yearOfEra day) ≤ day ∧
      day < yearStart (yearOfEra day) + yearLength (yearOfEra day) := by
  unfold eraDays at inEra
  obtain ⟨century, cycle, rest, rfl, few, fewer, within, last⟩ :
      ∃ century cycle rest, day = 36524 * century + 1461 * cycle + rest ∧
        century ≤ 3 ∧ cycle ≤ 24 ∧ rest ≤ 1460 ∧ (cycle = 24 → rest ≤ 1459 ∨ century = 3) := by
    refine ⟨min 3 (day / 36524), (day - 36524 * min 3 (day / 36524)) / 1461,
      (day - 36524 * min 3 (day / 36524)) % 1461, ?_⟩
    omega
  obtain ⟨position, known, bounded⟩ : ∃ position, min 3 (rest / 365) = position ∧ position ≤ 3 :=
    ⟨_, rfl, Nat.min_le_left _ _⟩
  rw [yearOfEra_eq few fewer within last, known, yearStart_of_cycle few fewer bounded]
  refine ⟨by omega, ?_⟩
  by_cases leap : isLeapYear (100 * century + 4 * cycle + position + 1) = true
  · rw [yearLength, if_pos leap]
    omega
  · rw [yearLength, if_neg leap]
    rw [isLeapYear_iff] at leap
    omega

/-- The date of a day is the one that it has in its year. -/
theorem dateOfDay_eq (days : Nat) :
    ∃ year day, days + daysBeforeEpoch = yearStart year + day ∧ day < yearLength year ∧
      dateOfDay days = dateInYear year day := by
  have whole := Nat.div_add_mod (days + daysBeforeEpoch) eraDays
  obtain ⟨reached, ahead⟩ := yearStart_yearOfEra
    (Nat.mod_lt (days + daysBeforeEpoch) (by decide : 0 < eraDays))
  generalize eras : (days + daysBeforeEpoch) / eraDays = era at whole
  generalize known : (days + daysBeforeEpoch) % eraDays = day at reached ahead whole
  refine ⟨400 * era + yearOfEra day, day - yearStart (yearOfEra day), ?_, ?_, ?_⟩
  · rw [yearStart_add_eras]
    omega
  · have length : yearLength (400 * era + yearOfEra day) = yearLength (yearOfEra day) := by
      have shifted : 400 * era + yearOfEra day + 1 = yearOfEra day + 1 + 400 * era := by omega
      rw [yearLength, yearLength, shifted, isLeapYear_add_eras]
    omega
  · rw [← eras, ← known]
    rfl

/-! ### The next date -/

/-- The date after a date. -/
def nextDate (date : Date) : Date :=
  if date.day < daysOfMonth date.year date.month then { date with day := date.day + 1 }
  else if date.month < 12 then ⟨date.year, date.month + 1, 1⟩
  else ⟨date.year + 1, 1, 1⟩

/-- The lengths of the months before February do not depend on the year. -/
theorem daysOfMonth_inYear {month : Nat} (early : month < 11) (year : Nat) :
    daysOfMonth year (if month < 10 then month + 3 else month - 9) =
      (153 * (month + 1) + 2) / 5 - (153 * month + 2) / 5 := by
  have each : ∀ month < 11, (if month < 10 then month + 3 else month - 9) ≠ 2 ∧
      daysOfMonth 1 (if month < 10 then month + 3 else month - 9) =
        (153 * (month + 1) + 2) / 5 - (153 * month + 2) / 5 := by decide
  obtain ⟨other, length⟩ := each month early
  rw [← length, daysOfMonth, daysOfMonth, if_neg other, if_neg other]

theorem nextDate_dateInYear {year day : Nat} (within : day + 1 < yearLength year) :
    nextDate (dateInYear year day) = dateInYear year (day + 1) := by
  have most := (yearLength_bounds year).2
  obtain ⟨month, known, few⟩ : ∃ month, (5 * day + 2) / 153 = month ∧ month < 12 :=
    ⟨_, rfl, by omega⟩
  rcases Nat.lt_or_ge month 11 with early | february
  · have length := daysOfMonth_inYear early (if month < 10 then year else year + 1)
    rcases (by omega : (5 * (day + 1) + 2) / 153 = month ∨
        (5 * (day + 1) + 2) / 153 = month + 1) with same | next
    · have inMonth : day - (153 * month + 2) / 5 + 1 <
          (153 * (month + 1) + 2) / 5 - (153 * month + 2) / 5 := by omega
      have later : day + 1 - (153 * month + 2) / 5 + 1 = day - (153 * month + 2) / 5 + 1 + 1 := by
        omega
      simp only [dateInYear, nextDate, known, same, length, if_pos inMonth, later]
    · have last : ¬ day - (153 * month + 2) / 5 + 1 <
          (153 * (month + 1) + 2) / 5 - (153 * month + 2) / 5 := by omega
      have first : day + 1 - (153 * (month + 1) + 2) / 5 + 1 = 1 := by omega
      simp only [dateInYear, nextDate, known, next, length, if_neg last, first]
      -- The year of the calendar ends with the tenth month.
      rcases Nat.lt_trichotomy month 9 with before | rfl | after
      · have inYear : month + 3 < 12 := by omega
        have earlier : month + 1 < 10 := by omega
        simp [Nat.lt_succ_of_lt before, inYear, earlier, Nat.add_right_comm]
      · simp
      · obtain rfl : month = 10 := by omega
        simp
  · obtain rfl : month = 11 := by omega
    have same : (5 * (day + 1) + 2) / 153 = 11 := by omega
    have inMonth : day - 337 + 1 < daysOfMonth (year + 1) 2 := by
      by_cases leap : isLeapYear (year + 1) = true
      · rw [yearLength, if_pos leap] at within
        rw [daysOfMonth, if_pos rfl, if_pos leap]
        omega
      · rw [yearLength, if_neg leap] at within
        rw [daysOfMonth, if_pos rfl, if_neg leap]
        omega
    have later : day + 1 - 337 + 1 = day - 337 + 1 + 1 := by omega
    simp [dateInYear, nextDate, known, same, inMonth, ← later]

theorem nextDate_dateInYear_last {year day : Nat} (last : day + 1 = yearLength year) :
    nextDate (dateInYear year day) = dateInYear (year + 1) 0 := by
  by_cases leap : isLeapYear (year + 1) = true
  · rw [yearLength, if_pos leap] at last
    obtain rfl : day = 365 := by omega
    simp [nextDate, dateInYear, daysOfMonth, leap]
  · rw [yearLength, if_neg leap] at last
    obtain rfl : day = 364 := by omega
    simp [nextDate, dateInYear, daysOfMonth, leap]

/-- The day after a day has the date after its date. -/
theorem dateOfDay_add_one (days : Nat) : dateOfDay (days + 1) = nextDate (dateOfDay days) := by
  obtain ⟨year, day, place, within, date⟩ := dateOfDay_eq days
  obtain ⟨later, rest, laterPlace, inside, laterDate⟩ := dateOfDay_eq (days + 1)
  rw [date, laterDate]
  rcases Nat.lt_or_ge (day + 1) (yearLength year) with inYear | last
  · obtain rfl : year = later := year_unique inYear inside (by omega)
    obtain rfl : rest = day + 1 := by omega
    exact (nextDate_dateInYear inYear).symm
  · have start := yearStart_add_one year
    have positive := (yearLength_bounds (year + 1)).1
    have first : yearStart (year + 1) + 0 = yearStart later + rest := by omega
    obtain rfl : year + 1 = later := year_unique (by omega) inside first
    obtain rfl : rest = 0 := by omega
    exact (nextDate_dateInYear_last (by omega)).symm

/-- Counting days is stepping through the calendar from the start of 1970. -/
theorem dateOfDay_eq_iterate (days : Nat) : dateOfDay days = nextDate^[days] ⟨1970, 1, 1⟩ := by
  induction days with
  | zero => rfl
  | succ days inductionHypothesis =>
    rw [dateOfDay_add_one, inductionHypothesis, Function.iterate_succ_apply']

example : dateOfDay 19782 = ⟨2024, 2, 29⟩ := by decide

end CrateAudit.Calendar
