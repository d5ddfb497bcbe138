/-
# Sync.ConflictTimes -- the time in the name of a conflict copy

`timestamp_utc` and `civil_from_days` as the overflow checks of `i64` run them.  No check fails,
the text is a date of the calendar with a time of the day (`timestampUtc_eq`), and it determines
them (`rendered_injective`).
-/
import Kuku.Sync.Applier
import Kuku.Theory.Calendar

namespace Kuku.Sync.ConflictTimes

open Kuku.Theory List Option
open Applier (padded)

/-- What an operation on `i64` answers; nothing, when it overflows. -/
def i64 (n : Int) : Option Int := if -2 ^ 63 ≤ n ∧ n < 2 ^ 63 then some n else none

def add (x y : Int) : Option Int := i64 (x + y)
def sub (x y : Int) : Option Int := i64 (x - y)
def mul (x y : Int) : Option Int := i64 (x * y)
def div (x y : Int) : Option Int := if y = 0 then none else i64 (x.tdiv y)
def rem (x y : Int) : Option Int := (div x y).map fun _ => x.tmod y
def divEuclid (x y : Int) : Option Int := if y = 0 then none else i64 (x / y)
def remEuclid (x y : Int) : Option Int := (divEuclid x y).map fun _ => x % y

def civilFromDays (days : Int) : Option (Int × Int × Int) := do
  let z ← add days 719468
  let era ← div (← (if 0 ≤ z then some z else sub z 146096)) 146097
  let doe ← sub z (← mul era 146097)
  let yoe ← div
    (← sub (← add (← sub doe (← div doe 1460)) (← div doe 36524)) (← div doe 146096)) 365
  let y ← add yoe (← mul era 400)
  let doy ← sub doe (← sub (← add (← mul 365 yoe) (← div yoe 4)) (← div yoe 100))
  let mp ← div (← add (← mul 5 doy) 2) 153
  let day ← add (← sub doy (← div (← add (← mul 153 mp) 2) 5)) 1
  let month ← add mp (if mp < 10 then 3 else -9)
  let year ← add y (if month ≤ 2 then 1 else 0)
  return (year, month, day)

def timestampUtc (ms : Int) : Option Str := do
  let seconds ← divEuclid ms 1000
  let days ← divEuclid seconds 86400
  let secondsOfDay ← remEuclid seconds 86400
  let (year, month, day) ← civilFromDays days
  let hour ← div secondsOfDay 3600
  let minute ← div (← rem secondsOfDay 3600) 60
  let second ← rem secondsOfDay 60
  return padded 4 year ++ padded 2 month ++ padded 2 day ++ '-' ::
    (padded 2 hour ++ padded 2 minute ++ padded 2 second)

theorem i64_eq {n m : Int} (same : n = m) (fits : -2 ^ 63 ≤ m ∧ m < 2 ^ 63) : i64 n = some m :=
  same ▸ if_pos (same ▸ fits)

/-- The divisions are of what is not negative, by a constant. -/
theorem div_eq {x y q : Int} (nonneg : 0 ≤ x) (positive : 0 < y) (same : x / y = q)
    (fits : x < 2 ^ 63) : div x y = some q := by
  have small := Int.ediv_le_self y nonneg
  have isNonneg := Int.ediv_nonneg nonneg positive.le
  rw [div, if_neg positive.ne', Int.tdiv_eq_ediv_of_nonneg nonneg]
  exact i64_eq same (by omega)

theorem rem_eq {x y : Int} (nonneg : 0 ≤ x) (positive : 0 < y) (fits : x < 2 ^ 63) :
    rem x y = some (x % y) := by
  rw [rem, div_eq nonneg positive rfl fits, map_some, Int.tmod_eq_emod_of_nonneg nonneg]

theorem andThen {α β : Type} {x : Option α} {f : α → Option β} {a : α} {b : β}
    (isValue : x = some a) (rest : f a = some b) : (x >>= f) = some b :=
  isValue ▸ rest

theorem civilFromDays_dayNumber (d : Date) (near : -2 ^ 60 ≤ d.dayNumber ∧ d.dayNumber < 2 ^ 60) :
    civilFromDays d.dayNumber = some (d.year, d.month, d.day) := by
  obtain ⟨inYear, inDays, isMonthPrime⟩ := d.dayOfYear_le
  obtain ⟨⟨nonneg, below⟩, isYear⟩ :=
    yearOfEra_eq (by omega : 0 ≤ marchYear d.year d.month % 400 ∧ _) ⟨inYear, inDays⟩ rfl
  have isSum : d.dayNumber = _ := dayCount_eq d.year d.month d.day
  have isDoe := dayOfEra.eq_1 (marchYear d.year d.month % 400) (dayOfYear d.month d.day)
  have isDay := dayOfYear.eq_1 d.month d.day
  have isLast : d.year = marchYear d.year d.month + if d.month ≤ 2 then 1 else 0 := by
    unfold marchYear
    split_ifs <;> omega
  have isMonth := d.isMonth
  generalize dayOfEra (marchYear d.year d.month % 400) (dayOfYear d.month d.day) = doe at *
  generalize marchYear d.year d.month = y at *
  generalize dayOfYear d.month d.day = doy at *
  generalize isPrime : (d.month + 9) % 12 = mp at *
  obtain ⟨z, isZ⟩ : ∃ z, d.dayNumber + 719468 = z := ⟨_, rfl⟩
  unfold civilFromDays
  refine andThen (i64_eq isZ (by omega)) (andThen (a := if 0 ≤ z then z else z - 146096) ?_ ?_)
  · split_ifs
    · rfl
    · exact i64_eq rfl (by omega)
  refine andThen (a := y / 400) ?_ ?_
  · have isSign : Int.sign 146097 = 1 := rfl
    rw [div, if_neg (by decide), Int.tdiv_eq_ediv]
    refine i64_eq ?_ (by omega)
    split_ifs <;> omega
  refine andThen (i64_eq rfl (by omega)) (andThen (i64_eq (m := doe) (by omega) (by omega)) ?_)
  refine andThen (div_eq nonneg (by omega) rfl (by omega)) (andThen (i64_eq rfl (by omega)) ?_)
  refine andThen (div_eq nonneg (by omega) rfl (by omega)) (andThen (i64_eq rfl (by omega)) ?_)
  refine andThen (div_eq nonneg (by omega) rfl (by omega)) (andThen (i64_eq rfl (by omega)) ?_)
  refine andThen (div_eq (by omega) (by omega) isYear (by omega)) ?_
  refine andThen (i64_eq rfl (by omega)) (andThen (i64_eq rfl (by omega)) ?_)
  refine andThen (i64_eq rfl (by omega)) (andThen (div_eq (by omega) (by omega) rfl (by omega)) ?_)
  refine andThen (i64_eq rfl (by omega)) (andThen (div_eq (by omega) (by omega) rfl (by omega)) ?_)
  refine andThen (i64_eq rfl (by omega)) ?_
  refine andThen (i64_eq (m := doy) (by omega) (by omega)) ?_
  refine andThen (i64_eq rfl (by omega)) (andThen (i64_eq rfl (by omega)) ?_)
  refine andThen (div_eq (by omega) (by omega) isMonthPrime (by omega)) ?_
  refine andThen (i64_eq rfl (by omega)) (andThen (i64_eq rfl (by omega)) ?_)
  refine andThen (div_eq (by omega) (by omega) rfl (by omega)) (andThen (i64_eq rfl (by omega)) ?_)
  refine andThen (i64_eq (m := d.day) (by omega) (by omega)) ?_
  refine andThen (i64_eq (m := d.month) (by split_ifs <;> omega) (by omega)) ?_
  exact andThen (i64_eq (m := d.year) (by omega) (by omega)) rfl

def rendered (d : Date) (hour minute second : Int) : Str :=
  padded 4 d.year ++ padded 2 d.month ++ padded 2 d.day ++ '-' ::
    (padded 2 hour ++ padded 2 minute ++ padded 2 second)

theorem timestampUtc_eq {ms : Int} (isI64 : -2 ^ 63 ≤ ms ∧ ms < 2 ^ 63) :
    ∃ d : Date, ∃ hour minute second : Int,
      d.dayNumber * 86400 + hour * 3600 + minute * 60 + second = ms / 1000 ∧
      (0 ≤ hour ∧ hour < 24) ∧ (0 ≤ minute ∧ minute < 60) ∧ (0 ≤ second ∧ second < 60) ∧
      timestampUtc ms = some (rendered d hour minute second) := by
  obtain ⟨d, isDay⟩ := Date.exists_dayNumber (ms / 1000 / 86400)
  refine ⟨d, ms / 1000 % 86400 / 3600, ms / 1000 % 86400 % 3600 / 60, ms / 1000 % 86400 % 60,
    by omega, by omega, by omega, by omega, ?_⟩
  have isCivil := civilFromDays_dayNumber d (by omega)
  rw [isDay] at isCivil
  unfold timestampUtc remEuclid divEuclid
  refine andThen (i64_eq rfl (by omega)) (andThen (i64_eq rfl (by omega)) ?_)
  refine andThen (map_eq_some_iff.mpr ⟨_, i64_eq rfl (by omega), rfl⟩) (andThen isCivil ?_)
  refine andThen (div_eq (by omega) (by omega) rfl (by omega)) ?_
  refine andThen (rem_eq (by omega) (by omega) (by omega)) ?_
  refine andThen (div_eq (by omega) (by omega) rfl (by omega)) ?_
  exact andThen (rem_eq (by omega) (by omega) (by omega)) rfl

/-- Padded with zeros or not, a number is read back from its digits. -/
theorem ofDigitChars_leftpad (width n : Nat) :
    Nat.ofDigitChars 10 ((Chars.ofNat n).leftpad width '0') 0 = n := by
  rw [List.leftpad, Nat.ofDigitChars_append, Nat.ofDigitChars_replicate_zero, Nat.mul_zero]
  exact Nat.ofDigitChars_ten_toDigits

theorem not_mem_leftpad {width n : Nat} {c : Char} (isOther : c.isDigit = false) :
    c ∉ (Chars.ofNat n).leftpad width '0' := by
  intro among
  rcases mem_append.mp among with zero | digit
  · rw [eq_of_mem_replicate zero] at isOther
    exact absurd isOther (by decide)
  · rw [Nat.isDigit_of_mem_toDigits (by decide) (by decide) digit] at isOther
    exact Bool.noConfusion isOther

theorem padded_injective {width : Nat} {m n : Int} (same : padded width m = padded width n) :
    m = n := by
  have noSign : ∀ n rest, (Chars.ofNat n).leftpad width '0' ≠ '-' :: rest :=
    fun n rest isSign => not_mem_leftpad (c := '-') rfl (isSign ▸ mem_cons_self)
  unfold padded at same
  split_ifs at same with negM negN negN
  · have := congrArg (Nat.ofDigitChars 10 · 0) (List.cons.inj same).2
    simp only [ofDigitChars_leftpad] at this
    omega
  · exact absurd same.symm (noSign _ _)
  · exact absurd same (noSign _ _)
  · have := congrArg (Nat.ofDigitChars 10 · 0) same
    simp only [ofDigitChars_leftpad] at this
    omega

theorem length_padded {n : Int} (inRange : 0 ≤ n ∧ n < 100) : (padded 2 n).length = 2 := by
  have short := (Nat.length_toDigits_le_iff (n := n.natAbs) (k := 2) (by decide) (by decide)).mpr
    (by omega : n.natAbs < 10 ^ 2)
  rw [padded, if_neg (by omega), length_leftpad, Chars.ofNat]
  omega

theorem rendered_injective {d d' : Date} {hour minute second hour' minute' second' : Int}
    (inDay : 0 ≤ hour ∧ hour < 24) (inHour : 0 ≤ minute ∧ minute < 60)
    (inMinute : 0 ≤ second ∧ second < 60) (inDay' : 0 ≤ hour' ∧ hour' < 24)
    (inHour' : 0 ≤ minute' ∧ minute' < 60) (inMinute' : 0 ≤ second' ∧ second' < 60)
    (same : rendered d hour minute second = rendered d' hour' minute' second') :
    d = d' ∧ hour = hour' ∧ minute = minute' ∧ second = second' := by
  have two : ∀ {n : Int}, 0 ≤ n ∧ n < 60 → (padded 2 n).length = 2 := fun inRange =>
    length_padded (by omega)
  have := Date.monthLength_range d.year d.month
  have := Date.monthLength_range d'.year d'.month
  have := d.isMonth
  have := d'.isMonth
  have := d.isDay
  have := d'.isDay
  have isTime : (padded 2 hour ++ padded 2 minute ++ padded 2 second).length = 6 := by
    simp (disch := omega) only [length_append, two]
  have isTime' : (padded 2 hour' ++ padded 2 minute' ++ padded 2 second').length = 6 := by
    simp (disch := omega) only [length_append, two]
  obtain ⟨isDate, back⟩ := append_inj' same (by simp only [length_cons, isTime, isTime'])
  obtain ⟨clock, isSecond⟩ := append_inj' (List.cons.inj back).2
    (by rw [two inMinute, two inMinute'])
  obtain ⟨isHour, isMinute⟩ := append_inj' clock (by rw [two inHour, two inHour'])
  obtain ⟨month, isDay⟩ := append_inj' isDate
    (by rw [two (by omega : 0 ≤ d.day ∧ _), two (by omega : 0 ≤ d'.day ∧ _)])
  obtain ⟨isYear, isMonth⟩ := append_inj' month
    (by rw [two (by omega : 0 ≤ d.month ∧ _), two (by omega : 0 ≤ d'.month ∧ _)])
  exact ⟨Date.ext (padded_injective isYear) (padded_injective isMonth) (padded_injective isDay),
    padded_injective isHour, padded_injective isMinute, padded_injective isSecond⟩

/-- **Conflict timestamps are calendar times**: no operation overflows, the text is the date and
the time of the second, `civil_from_days` inverts the count of days on the days that occur, and two
seconds have two texts. -/
theorem timestampUtc_isCalendarTime :
    (∀ ms : Int, -2 ^ 63 ≤ ms ∧ ms < 2 ^ 63 → ∃ d : Date, ∃ hour minute second : Int,
      d.dayNumber * 86400 + hour * 3600 + minute * 60 + second = ms / 1000 ∧
      (0 ≤ hour ∧ hour < 24) ∧ (0 ≤ minute ∧ minute < 60) ∧ (0 ≤ second ∧ second < 60) ∧
      timestampUtc ms = some (rendered d hour minute second)) ∧
    (∀ d : Date, (∃ ms : Int, (-2 ^ 63 ≤ ms ∧ ms < 2 ^ 63) ∧ ms / 1000 / 86400 = d.dayNumber) →
      civilFromDays d.dayNumber = some (d.year, d.month, d.day)) ∧
    ∀ ms ms' : Int, -2 ^ 63 ≤ ms ∧ ms < 2 ^ 63 → -2 ^ 63 ≤ ms' ∧ ms' < 2 ^ 63 →
      timestampUtc ms = timestampUtc ms' → ms / 1000 = ms' / 1000 := by
  refine ⟨fun ms isI64 => timestampUtc_eq isI64, ?_, ?_⟩
  · rintro d ⟨ms, isI64, isDay⟩
    exact civilFromDays_dayNumber d (by omega)
  · intro ms ms' isI64 isI64' same
    obtain ⟨d, hour, minute, second, isSum, inDay, inHour, inMinute, isText⟩ :=
      timestampUtc_eq isI64
    obtain ⟨d', hour', minute', second', isSum', inDay', inHour', inMinute', isText'⟩ :=
      timestampUtc_eq isI64'
    rw [isText, isText', Option.some.injEq] at same
    obtain ⟨rfl, rfl, rfl, rfl⟩ :=
      rendered_injective inDay inHour inMinute inDay' inHour' inMinute' same
    exact isSum.symm.trans isSum'

end Kuku.Sync.ConflictTimes
