/-
# Desktop.TokenExpiry -- when a stored token expires

The stored tokens carry their expiry as text, written by `format_rfc3339` and read back by
`parse_rfc3339`.  A time is in nanoseconds since 1970.

What is written is read back (`parseRfc3339_formatRfc3339`).  The reader checks that a day is at
most 31 and not that its month has it, and it turns days before 1970 into an unsigned number:
`sound_iff` says which texts it reads as it should.
-/
import Kuku.Sync.ConflictTimes

namespace Kuku.Desktop.TokenExpiry

open Kuku.Theory List Option
open Kuku.Sync.Applier (padded)
open Kuku.Sync.ConflictTimes (not_mem_leftpad ofDigitChars_leftpad)

abbrev Str := List Char

/-- The function of merge.rs, and a cast. -/
def civilFromDays (days : Int) : Option (Int × Int × Int) :=
  (Sync.ConflictTimes.civilFromDays days).map fun (year, month, day) =>
    (year.bmod (2 ^ 32), month % 2 ^ 32, day % 2 ^ 32)

structure Fields where
  year : Int
  month : Int
  day : Int
  hour : Int
  minute : Int
  second : Int
  deriving DecidableEq

def Fields.text (f : Fields) : Str :=
  padded 4 f.year ++ '-' :: (padded 2 f.month ++ '-' :: padded 2 f.day) ++ 'T' ::
    (padded 2 f.hour ++ ':' :: (padded 2 f.minute ++ ':' :: padded 2 f.second)) ++ ['Z']

/-- A time before 1970 is written as 1970. -/
def formatRfc3339 (time : Int) : Option Str := do
  let seconds : Int := time.toNat / 1000000000
  let secondsOfDay := seconds % 86400
  let (year, month, day) ← civilFromDays (seconds / 86400)
  return Fields.text ⟨year, month, day, secondsOfDay / 3600, secondsOfDay % 3600 / 60,
    secondsOfDay % 60⟩

/-! ## Reading -/

def readDigits (bound : Nat) (digits : Str) : Option Nat :=
  let value := Nat.ofDigitChars 10 digits 0
  if digits ≠ [] ∧ digits.all Char.isDigit ∧ value < bound then some value else none

/-- `str::parse` of an unsigned type. -/
def parseUnsigned (bound : Nat) (text : Str) : Option Int :=
  (readDigits bound (if text.head? = some '+' then text.tail else text)).map Int.ofNat

/-- `str::parse::<i32>`. -/
def parseI32 (text : Str) : Option Int :=
  if text.head? = some '-' then (readDigits (2 ^ 31 + 1) text.tail).map fun n : Nat => -(n : Int)
  else parseUnsigned (2 ^ 31) text

/-- `strip_suffix('Z')`. -/
def stripZone (value : Str) : Option Str :=
  if value.getLast? = some 'Z' then some value.dropLast else none

/-- More parts of the date or of the time are not looked at. -/
def readFields (value : Str) : Option Fields := do
  let (date, time) ← Text.cut ['T'] (← stripZone value)
  let dateParts := date.splitOn '-'
  let year ← parseI32 (← dateParts[0]?)
  let month ← parseUnsigned (2 ^ 32) (← dateParts[1]?)
  let day ← parseUnsigned (2 ^ 32) (← dateParts[2]?)
  let timeParts := time.splitOn ':'
  let hour ← parseUnsigned (2 ^ 64) (← timeParts[0]?)
  let minute ← parseUnsigned (2 ^ 64) (← timeParts[1]?)
  let second ← parseUnsigned (2 ^ 64) (← timeParts[2]?)
  return { year, month, day, hour, minute, second }

def Fields.InRange (f : Fields) : Prop :=
  (1 ≤ f.month ∧ f.month ≤ 12) ∧ (1 ≤ f.day ∧ f.day ≤ 31) ∧ f.hour ≤ 23 ∧ f.minute ≤ 59 ∧
    f.second ≤ 59

instance (f : Fields) : Decidable f.InRange := inferInstanceAs (Decidable (_ ∧ _))

def daysFromCivil (year month day : Int) : Option Int :=
  let year := year - if month ≤ 2 then 1 else 0
  let era := (if 0 ≤ year then year else year - 399).tdiv 400
  let yearOfEra := year - era * 400
  let monthPrime := month + if month > 2 then -3 else 9
  let dayOfYear := (153 * monthPrime + 2) / 5 + day - 1
  let dayOfEra := yearOfEra * 365 + yearOfEra / 4 - yearOfEra / 100 + dayOfYear
  if dayOfEra ≥ 146097 then none else some (era * 146097 + dayOfEra - 719468)

/-- What an operation on `u64` answers; nothing, when it overflows. -/
def u64 (n : Int) : Option Int := if 0 ≤ n ∧ n < 2 ^ 64 then some n else none

/-- `UNIX_EPOCH + Duration::from_secs(seconds)`; the seconds of a time are an `i64`. -/
def sinceEpoch (seconds : Int) : Option Int :=
  if seconds < 2 ^ 63 then some (seconds * 1000000000) else none

/-- The sum of the seconds, from `days as u64`; an overflow is a panic. -/
def timeOf (days : Int) (f : Fields) : Option Int := do
  let seconds ← u64 (days % 2 ^ 64 * 86400)
  let seconds ← u64 (seconds + (← u64 (f.hour * 3600)))
  let seconds ← u64 (seconds + (← u64 (f.minute * 60)))
  sinceEpoch (← u64 (seconds + f.second))

/-- Nothing is a panic. -/
def parseRfc3339 (value : Str) : Option (Option Int) :=
  match (readFields value).filter fun f => f.InRange with
  | none => some none
  | some f =>
    match daysFromCivil f.year f.month f.day with
    | none => some none
    | some days => (timeOf days f).map some

def tokenExpiresSoon (expiresAt : Str) (now : Int) : Option Bool := (parseRfc3339 expiresAt).map fun
    | some time => decide (time ≤ now + 60 * 1000000000)
    | none => true

/-! ## What is read -/

/-- The date that is named exists. -/
def Fields.Exists (f : Fields) : Prop :=
  ∃ d : Date, d.year = f.year ∧ d.month = f.month ∧ d.day = f.day

/-- No overflow, and no time for a date that does not exist. -/
def Sound (value : Str) : Prop :=
  match parseRfc3339 value with
  | none => False
  | some none => True
  | some (some _) => ∀ f, readFields value = some f → f.Exists

/-- The one check of the day against its month: no era ends with a February 30. -/
def Fields.PastEra (f : Fields) : Prop := f.month = 2 ∧ f.year % 400 = 0 ∧ 29 < f.day

instance (f : Fields) : Decidable f.PastEra := inferInstanceAs (Decidable (_ ∧ _))

variable {f : Fields} {value : Str}

theorem daysFromCivil_eq (inRange : f.InRange) : daysFromCivil f.year f.month f.day =
    if f.PastEra then none else some (dayCount f.year f.month f.day) := by
  obtain ⟨inYear, inMonth, -⟩ := inRange
  have isEra : ∀ y : Int, (if 0 ≤ y then y else y - 399).tdiv 400 = y / 400 := by
    intro y
    have isSign : Int.sign 400 = 1 := rfl
    rw [Int.tdiv_eq_ediv]
    split_ifs <;> omega
  have isYear : f.year - (if f.month ≤ 2 then 1 else 0) = marchYear f.year f.month := by
    unfold marchYear
    split_ifs <;> omega
  have isPrime : f.month + (if f.month > 2 then -3 else 9) = (f.month + 9) % 12 := by
    split_ifs <;> omega
  have isDay := dayOfYear.eq_1 f.month f.day
  have past : f.PastEra ↔ 146097 ≤ dayOfEra (marchYear f.year f.month % 400)
      (dayOfYear f.month f.day) := by
    unfold Fields.PastEra dayOfEra marchYear
    split_ifs <;> omega
  have isRest : marchYear f.year f.month - marchYear f.year f.month / 400 * 400 =
    marchYear f.year f.month % 400 := by omega
  have isDoe : marchYear f.year f.month % 400 * 365 + marchYear f.year f.month % 400 / 4 -
      marchYear f.year f.month % 400 / 100 + ((153 * ((f.month + 9) % 12) + 2) / 5 + f.day - 1) =
        dayOfEra (marchYear f.year f.month % 400) (dayOfYear f.month f.day) := by
    rw [dayOfEra, isDay]
    omega
  simp only [daysFromCivil, isYear, isEra, isRest, isPrime, isDoe, past, dayCount_eq, ge_iff_le]
  split_ifs
  · rfl
  · congr 1
    omega

theorem readDigits_lt {bound n : Nat} {digits : Str} (isRead : readDigits bound digits = some n) :
    n < bound := by
  unfold readDigits at isRead
  dsimp only at isRead
  split_ifs at isRead with valid
  cases isRead
  exact valid.2.2

theorem parseUnsigned_range {bound : Nat} {text : Str} {n : Int}
    (isNumber : parseUnsigned bound text = some n) : 0 ≤ n ∧ n < bound := by
  obtain ⟨k, isRead, rfl⟩ := Option.map_eq_some_iff.mp isNumber
  have := readDigits_lt isRead
  simp only [Int.ofNat_eq_natCast]
  omega

theorem parseI32_range {text : Str} {n : Int} (isNumber : parseI32 text = some n) :
    -2 ^ 31 ≤ n ∧ n < 2 ^ 31 := by
  unfold parseI32 at isNumber
  split_ifs at isNumber
  · obtain ⟨k, isRead, rfl⟩ := Option.map_eq_some_iff.mp isNumber
    have := readDigits_lt isRead
    omega
  · have := parseUnsigned_range isNumber
    omega

theorem readFields_range (isRead : readFields value = some f) :
    (-2 ^ 31 ≤ f.year ∧ f.year < 2 ^ 31) ∧ 0 ≤ f.hour ∧ 0 ≤ f.minute ∧ 0 ≤ f.second := by
  simp only [readFields, bind_eq_bind, bind_eq_some_iff, Option.pure_def,
    Option.some.injEq] at isRead
  obtain ⟨_, -, ⟨date, time⟩, -, _, -, year, isYear, _, -, month, -, _, -, day, -, _, -, hour, isHour,
    _, -, minute, isMinute, _, -, second, isSecond, rfl⟩ := isRead
  exact ⟨parseI32_range isYear, (parseUnsigned_range isHour).1, (parseUnsigned_range isMinute).1,
    (parseUnsigned_range isSecond).1⟩

theorem dayCount_range {year month day : Int} (inYear : 1 ≤ month ∧ month ≤ 12)
    (inMonth : 1 ≤ day ∧ day ≤ 31) : (year < 1970 ↔ dayCount year month day < 0) ∧
      (-2 ^ 31 ≤ year → -2 ^ 40 < dayCount year month day) ∧
      (year < 2 ^ 31 → dayCount year month day < 2 ^ 40) := by
  obtain ⟨first, last⟩ := inYear
  simp only [dayCount, marchYear]
  interval_cases month <;> simp only [Int.reduceLE, ↓reduceIte] <;> omega

theorem timeOf_eq (isRead : readFields value = some f) (inRange : f.InRange) :
    timeOf (dayCount f.year f.month f.day) f = if f.year < 1970 then none else
      some ((dayCount f.year f.month f.day * 86400 + f.hour * 3600 + f.minute * 60 + f.second) *
        1000000000) := by
  obtain ⟨⟨low, high⟩, hour, minute, second⟩ := readFields_range isRead
  obtain ⟨inYear, inMonth, inTime⟩ := inRange
  have isDays := @dayCount_range f.year _ _ inYear inMonth
  generalize dayCount f.year f.month f.day = days at *
  unfold timeOf
  split_ifs with before
  · rw [u64, if_neg (by omega)]
    rfl
  · simp (disch := omega) only [u64, Int.emod_eq_of_lt, if_pos, bind_eq_bind, bind_some, sinceEpoch]

theorem parseRfc3339_eq (isRead : readFields value = some f) : parseRfc3339 value =
    if ¬ f.InRange ∨ f.PastEra then some none
    else (timeOf (dayCount f.year f.month f.day) f).map some := by
  rw [parseRfc3339, isRead, filter_some]
  by_cases inRange : f.InRange
  · simp only [inRange, decide_true, ↓reduceIte, daysFromCivil_eq inRange, not_true_eq_false, false_or]
    split_ifs <;> rfl
  · simp [inRange]

/-! ## What is written -/

section Padded

variable {width : Nat} {n : Int}

theorem not_mem_padded (nonneg : 0 ≤ n) {c : Char} (isOther : c.isDigit = false) :
    c ∉ padded width n := by
  rw [padded, if_neg (by omega)]
  exact not_mem_leftpad isOther

theorem readDigits_padded {bound : Nat} (nonneg : 0 ≤ n) (small : n < bound) :
    readDigits bound (padded width n) = some n.toNat := by
  have isValue : Nat.ofDigitChars 10 (padded width n) 0 = n.toNat := by
    rw [padded, if_neg (by omega), ofDigitChars_leftpad]
    omega
  have isDigits : (padded width n).all Char.isDigit = true :=
    List.all_eq_true.mpr fun c among => by_contra fun isOther =>
      not_mem_padded nonneg (eq_false_of_ne_true isOther) among
  have nonempty : padded width n ≠ [] := by
    rw [padded, if_neg (by omega), List.leftpad]
    exact append_ne_nil_of_right_ne_nil _ Nat.toDigits_ne_nil
  simp only [readDigits, isValue]
  exact if_pos ⟨nonempty, isDigits, by omega⟩

theorem parseUnsigned_padded {bound : Nat} (nonneg : 0 ≤ n) (small : n < bound) :
    parseUnsigned bound (padded width n) = some n := by
  rw [parseUnsigned, if_neg fun isHead => not_mem_padded nonneg rfl (mem_of_head? isHead),
    readDigits_padded nonneg small]
  exact congrArg some (Int.toNat_of_nonneg nonneg)

theorem parseI32_padded (nonneg : 0 ≤ n) (small : n < 2 ^ 31) :
    parseI32 (padded width n) = some n := by
  rw [parseI32, if_neg fun isHead => not_mem_padded nonneg rfl (mem_of_head? isHead),
    parseUnsigned_padded nonneg (by simpa using small)]

theorem splitOn_padded {sep : Char} (notDigit : sep.isDigit = false) {a b c : Int} (isA : 0 ≤ a)
    (isB : 0 ≤ b) (isC : 0 ≤ c) :
    (padded width a ++ sep :: (padded 2 b ++ sep :: padded 2 c)).splitOn sep =
      [padded width a, padded 2 b, padded 2 c] := by
  have isJoined : padded width a ++ sep :: (padded 2 b ++ sep :: padded 2 c) =
      [sep].intercalate [padded width a, padded 2 b, padded 2 c] := by
    simp [List.intercalate]
  rw [isJoined, splitOn_intercalate sep _ (cons_ne_nil _ _)]
  simp [not_mem_padded isA notDigit, not_mem_padded isB notDigit, not_mem_padded isC notDigit]

end Padded

theorem readFields_text (f : Fields) (isYear : 0 ≤ f.year ∧ f.year < 2 ^ 31)
    (inRange : f.InRange) (isTime : 0 ≤ f.hour ∧ 0 ≤ f.minute ∧ 0 ≤ f.second) :
    readFields f.text = some f := by
  obtain ⟨inYear, inMonth, inTime⟩ := inRange
  obtain ⟨nonneg, small⟩ := isYear
  have noLetter : 'T' ∉ padded 4 f.year ++ '-' :: (padded 2 f.month ++ '-' :: padded 2 f.day) := by
    have absent : ∀ {width n}, 0 ≤ n → 'T' ∉ padded width n := fun isNonneg =>
      not_mem_padded isNonneg rfl
    simp (disch := omega) [absent]
  have small32 : ∀ {n : Int}, 0 ≤ n ∧ n < 100 → parseUnsigned (2 ^ 32) (padded 2 n) = some n :=
    fun two => parseUnsigned_padded two.1 (by omega)
  have small64 : ∀ {n : Int}, 0 ≤ n ∧ n < 100 → parseUnsigned (2 ^ 64) (padded 2 n) = some n :=
    fun two => parseUnsigned_padded two.1 (by omega)
  rw [readFields, stripZone, Fields.text, if_pos (getLast?_concat ..), dropLast_concat]
  simp only [bind_eq_bind, bind_some, Text.cut_singleton noLetter]
  rw [splitOn_padded rfl nonneg (by omega) (by omega),
    splitOn_padded rfl (by omega) (by omega) (by omega)]
  simp only [getElem?_cons_zero, getElem?_cons_succ, bind_some]
  rw [parseI32_padded nonneg small, small32 (by omega), small32 (by omega), small64 (by omega),
    small64 (by omega), small64 (by omega)]
  rfl

/-- **What is written is read back**, rounded down to seconds. -/
theorem parseRfc3339_formatRfc3339 {time : Int} (later : 0 ≤ time) {d : Date}
    (isDay : d.dayNumber = time / 1000000000 / 86400) (fits : d.year < 2 ^ 31) :
    ∃ text, formatRfc3339 time = some text ∧
      parseRfc3339 text = some (some (time / 1000000000 * 1000000000)) := by
  have inYear := d.isMonth
  have inMonth := d.isDay
  have isLength := Date.monthLength_range d.year d.month
  have isDays := @dayCount_range d.year _ _ inYear (by omega : 1 ≤ d.day ∧ _)
  have isCount : d.dayNumber = dayCount d.year d.month d.day := rfl
  have isCivil : civilFromDays (time / 1000000000 / 86400) = some (d.year, d.month, d.day) := by
    rw [← isDay, civilFromDays, Sync.ConflictTimes.civilFromDays_dayNumber d (by omega)]
    simp only [map_some]
    rw [Int.bmod_eq_of_le (by omega) (by omega), Int.emod_eq_of_lt (by omega) (by omega),
      Int.emod_eq_of_lt (by omega) (by omega)]
  let f : Fields := ⟨d.year, d.month, d.day, time / 1000000000 % 86400 / 3600,
    time / 1000000000 % 86400 % 3600 / 60, time / 1000000000 % 86400 % 60⟩
  have inRange : f.InRange := ⟨inYear, by simp only [f]; omega⟩
  have notPast : ¬ f.PastEra := by
    rintro ⟨isFeb, isEra, late⟩
    simp only [f] at isFeb isEra late
    rw [isFeb, monthLength, if_pos rfl] at inMonth
    split_ifs at inMonth <;> omega
  have isRead := readFields_text f (by simp only [f]; omega) inRange (by simp only [f]; omega)
  refine ⟨f.text, ?_, ?_⟩
  · simp only [formatRfc3339, Int.toNat_of_nonneg later, isCivil]
    rfl
  · rw [parseRfc3339_eq isRead, if_neg (by tauto), timeOf_eq isRead inRange,
      if_neg (by simp only [f]; omega)]
    simp only [f, map_some, ← isCount, isDay]
    congr 3
    omega

/-- What the checks let through is a date from 1970 on. -/
def Fields.Fits (f : Fields) : Prop := f.InRange → f.PastEra ∨ f.Exists ∧ 1970 ≤ f.year

theorem sound_iff (value : Str) : Sound value ↔ ∀ f, readFields value = some f → f.Fits := by
  constructor
  · intro sound f isRead inRange
    rw [Sound, parseRfc3339_eq isRead] at sound
    by_cases past : f.PastEra
    · exact .inl past
    · rw [if_neg (by tauto), timeOf_eq isRead inRange] at sound
      split_ifs at sound with before
      · exact sound.elim
      · exact .inr ⟨sound f isRead, not_lt.mp before⟩
  · intro right
    cases isRead : readFields value with
    | none =>
      rw [Sound, parseRfc3339, isRead]
      trivial
    | some f =>
      rw [Sound, parseRfc3339_eq isRead]
      by_cases refused : ¬ f.InRange ∨ f.PastEra
      · rw [if_pos refused]
        trivial
      · obtain ⟨inRange, notPast⟩ := not_or.mp refused
        obtain ⟨isDate, later⟩ := (right f isRead (not_not.mp inRange)).resolve_left notPast
        rw [if_neg refused, timeOf_eq isRead (not_not.mp inRange), if_neg (not_lt.mpr later)]
        rintro g isSame
        cases isRead.symm.trans isSame
        exact isDate

/-- **Expiry times survive storage**, and a text is read as it should exactly when what the checks
let through is a date from 1970 on. -/
theorem tokenTimes_iff (value : Str) :
    (∀ (time now : Int) (d : Date), 0 ≤ time → d.dayNumber = time / 1000000000 / 86400 →
      d.year < 2 ^ 31 → ∃ text, formatRfc3339 time = some text ∧
        parseRfc3339 text = some (some (time / 1000000000 * 1000000000)) ∧
        tokenExpiresSoon text now =
          some (decide (time / 1000000000 * 1000000000 ≤ now + 60 * 1000000000))) ∧
    (Sound value ↔ ∀ f, readFields value = some f → f.Fits) := by
  refine ⟨fun time now d later isDay fits => ?_, sound_iff value⟩
  obtain ⟨text, isText, isTime⟩ := parseRfc3339_formatRfc3339 later isDay fits
  exact ⟨text, isText, isTime, by rw [tokenExpiresSoon, isTime]; rfl⟩

/-- February 31 is read as March 3, and the last second before 1970 is a panic. -/
theorem misreads_dates : ¬ Sound "2026-02-31T00:00:00Z".toList ∧
    parseRfc3339 "1969-12-31T23:59:59Z".toList = none ∧ ¬ Sound "1969-12-31T23:59:59Z".toList := by
  have isRead : readFields "2026-02-31T00:00:00Z".toList = some ⟨2026, 2, 31, 0, 0, 0⟩ := by
    decide +kernel
  have march : parseRfc3339 "2026-02-31T00:00:00Z".toList = some (some 1772496000000000000) := by
    decide +kernel
  have panics : parseRfc3339 "1969-12-31T23:59:59Z".toList = none := by decide +kernel
  refine ⟨fun sound => ?_, panics, fun sound => ?_⟩
  · rw [Sound, march] at sound
    obtain ⟨d, isYear, isMonth, isDay⟩ := sound _ isRead
    have inMonth := d.isDay
    rw [isYear, isMonth, isDay] at inMonth
    exact absurd inMonth (by decide)
  · rwa [Sound, panics] at sound

end Kuku.Desktop.TokenExpiry
