/-
# Theory.Calendar -- the proleptic Gregorian calendar

A `Date` is a day the calendar has.  `dayNumber` counts the days since 1970-01-01: that day is 0,
and the day after a day has the next number (`dayNumber_next`), so every number is a date's
(`exists_dayNumber`).

The usual conversion counts years from March and splits the count into eras of 400 years:
`dayCount_eq` is the count in these terms, and `yearOfEra_eq` the division that finds the
year.
-/
import Mathlib

namespace Kuku.Theory

def IsLeap (year : Int) : Prop := year % 4 = 0 ∧ (year % 100 ≠ 0 ∨ year % 400 = 0)

instance (year : Int) : Decidable (IsLeap year) := inferInstanceAs (Decidable (_ ∧ _))

def marchYear (year month : Int) : Int := if month ≤ 2 then year - 1 else year

/-- The days from 1970-01-01; 719469 of them from the start of March of the year 0. -/
def dayCount (year month day : Int) : Int :=
  let y := marchYear year month
  365 * y + y / 4 - y / 100 + y / 400 + (153 * ((month + 9) % 12) + 2) / 5 + day - 719469

def monthLength (year month : Int) : Int :=
  if month = 2 then if IsLeap year then 29 else 28
  else if month = 4 ∨ month = 6 ∨ month = 9 ∨ month = 11 then 30 else 31

@[ext] structure Date where
  year : Int
  month : Int
  day : Int
  isMonth : 1 ≤ month ∧ month ≤ 12
  isDay : 1 ≤ day ∧ day ≤ monthLength year month

namespace Date

theorem monthLength_range (year month : Int) : 1 ≤ monthLength year month ∧
    monthLength year month ≤ 31 := by
  unfold monthLength
  split_ifs <;> omega

/-- The day after. -/
def next (d : Date) : Date :=
  if h : d.day < monthLength d.year d.month then
    { d with day := d.day + 1, isDay := by have := d.isDay; omega }
  else if h' : d.month < 12 then
    ⟨d.year, d.month + 1, 1, by have := d.isMonth; omega, le_refl _, (monthLength_range _ _).1⟩
  else ⟨d.year + 1, 1, 1, by omega, le_refl _, (monthLength_range _ _).1⟩

def epoch : Date := ⟨1970, 1, 1, by omega, by decide⟩

def dayNumber (d : Date) : Int := dayCount d.year d.month d.day

theorem dayNumber_epoch : epoch.dayNumber = 0 := by decide

theorem dayNumber_next (d : Date) : d.next.dayNumber = d.dayNumber + 1 := by
  obtain ⟨year, month, day, isMonth, isDay⟩ := d
  obtain ⟨low, high⟩ := isMonth
  unfold next
  by_cases inside : day < monthLength year month
  · simp only [dif_pos inside, dayNumber, dayCount]
    omega
  · have isLast : day = monthLength year month := by
      omega
    simp only [dif_neg inside]
    interval_cases month <;> simp [dayNumber, dayCount, marchYear, isLast, monthLength, IsLeap]
    case neg.«2» => split_ifs <;> omega
    all_goals omega

/-- The same day 400 years later, an era of 146097 days. -/
def shift (d : Date) (eras : Int) : Date where
  year := d.year + 400 * eras
  month := d.month
  day := d.day
  isMonth := d.isMonth
  isDay := by
    have same : monthLength (d.year + 400 * eras) d.month = monthLength d.year d.month := by
      have leap : IsLeap (d.year + 400 * eras) ↔ IsLeap d.year := by
        unfold IsLeap
        omega
      simp only [monthLength, leap]
    rw [same]
    exact d.isDay

theorem dayNumber_shift (d : Date) (eras : Int) :
    (d.shift eras).dayNumber = d.dayNumber + 146097 * eras := by
  simp only [dayNumber, dayCount, marchYear, shift]
  split_ifs <;> omega

theorem exists_dayNumber (n : Int) : ∃ d : Date, d.dayNumber = n := by
  have later : ∀ k : Nat, ∃ d : Date, d.dayNumber = k := by
    intro k
    induction k with
    | zero => exact ⟨epoch, dayNumber_epoch⟩
    | succ k ih =>
      obtain ⟨d, isNumber⟩ := ih
      exact ⟨d.next, by rw [dayNumber_next, isNumber, Nat.cast_succ]⟩
  obtain ⟨d, isNumber⟩ := later (n + 146097 * n.natAbs).toNat
  refine ⟨d.shift (-n.natAbs), ?_⟩
  rw [dayNumber_shift]
  omega

end Date

/-! ## Eras -/

/-- A day of an era, from the year of the era and the day of the year. -/
def dayOfEra (yearOfEra dayOfYear : Int) : Int :=
  365 * yearOfEra + yearOfEra / 4 - yearOfEra / 100 + dayOfYear

/-- The year of an era is found by one division: what the leap days before a day add to 365 days
a year is taken off first. -/
theorem yearOfEra_eq {yearOfEra dayOfYear : Int} (isYear : 0 ≤ yearOfEra ∧ yearOfEra < 400)
    (isDay : 0 ≤ dayOfYear ∧ (dayOfYear < 365 ∨ dayOfYear = 365 ∧ IsLeap (yearOfEra + 1)))
    {day : Int} (isDayOfEra : day = dayOfEra yearOfEra dayOfYear) :
    (0 ≤ day ∧ day < 146097) ∧
      (day - day / 1460 + day / 36524 - day / 146096) / 365 = yearOfEra := by
  unfold IsLeap at isDay
  unfold dayOfEra at isDayOfEra
  obtain ⟨c, rest, inYears, inRest⟩ :
      ∃ c rest, yearOfEra = 100 * c + rest ∧ 0 ≤ rest ∧ rest < 100 :=
    ⟨yearOfEra / 100, yearOfEra % 100, by omega⟩
  obtain ⟨q, k, inYears', inK⟩ : ∃ q k, rest = 4 * q + k ∧ 0 ≤ k ∧ k < 4 :=
    ⟨rest / 4, rest % 4, by omega⟩
  have inQ : 0 ≤ q ∧ q < 25 := by omega
  have inC : 0 ≤ c ∧ c < 4 := by omega
  have isLong : dayOfYear ≤ 364 ∨ dayOfYear = 365 ∧ k = 3 ∧ (q = 24 → c = 3) := by omega
  have isDay : day = 36524 * c + 1461 * q + 365 * k + dayOfYear := by omega
  have century : day / 36524 = c ∨ day = 146096 := by
    rcases isLong with short | long <;> omega
  have quad : day / 1460 = 25 * c + q ∨ day / 1460 = 25 * c + q + 1 := by
    rcases isLong with short | long <;> omega
  rcases century with century | isLast
  · rcases quad with quad | quad <;> omega
  · omega

/-- The day of the year that starts in March. -/
def dayOfYear (month day : Int) : Int := (153 * ((month + 9) % 12) + 2) / 5 + day - 1

theorem dayCount_eq (year month day : Int) : dayCount year month day =
    146097 * (marchYear year month / 400) +
      dayOfEra (marchYear year month % 400) (dayOfYear month day) - 719468 := by
  simp only [dayCount, dayOfEra, dayOfYear]
  omega

/-- February is the last month of its year, so that only the last day depends on the year. -/
theorem Date.dayOfYear_le (d : Date) : 0 ≤ dayOfYear d.month d.day ∧
    (dayOfYear d.month d.day < 365 ∨
      dayOfYear d.month d.day = 365 ∧ IsLeap (marchYear d.year d.month % 400 + 1)) ∧
    (5 * dayOfYear d.month d.day + 2) / 153 = (d.month + 9) % 12 := by
  obtain ⟨year, month, day, ⟨low, high⟩, isDay⟩ := d
  simp only [dayOfYear, marchYear]
  interval_cases month <;> simp [monthLength, IsLeap] at isDay ⊢
  case «2» => split_ifs at isDay <;> omega
  all_goals omega

end Kuku.Theory
