import Phasegent.Calendar.Gregorian
import Phasegent.Provider.Api
import Phasegent.Timer.Run

namespace Phasegent.Timer.Dates
open Calendar

section Arithmetic

/-- The value of a 64-bit operation, or nothing where it overflows. -/
def i64 (value : Int) : Option Int := if -9223372036854775808 ≤ value ∧ value < 9223372036854775808 then some value else none

def add (a b : Int) : Option Int := i64 (a + b)

def sub (a b : Int) : Option Int := i64 (a - b)

def mul (a b : Int) : Option Int := i64 (a * b)

-- Division towards zero; the divisors of the source are positive constants.
def div (a b : Int) : Option Int := i64 (a.tdiv b)

def divEuclid (a b : Int) : Option Int := i64 (a / b)

theorem bind_of {α β : Type} {x : Option α} {a : α} (known : x = some a) (f : α → Option β) :
    (x >>= f) = f a := by
  rw [known]
  rfl

theorem i64_of_bounds {value : Int} (low : -9223372036854775808 ≤ value) (high : value < 9223372036854775808) : i64 value = some value :=
  if_pos ⟨low, high⟩

end Arithmetic

section Text

/-- The decimal text, filled with zeros to the width; a sign counts towards it. -/
def padded (width : Nat) (value : Int) : String :=
  let digits := value.natAbs.repr
  let sign := if value < 0 then "-" else ""
  sign ++ String.ofList (List.replicate (width - sign.length - digits.length) '0') ++ digits

def dateText (date : Date) : String :=
  padded 4 date.year ++ "-" ++ padded 2 date.month ++ "-" ++ padded 2 date.day

end Text

section Conversion

def eraOf (shifted : Int) : Option Int := do
  let numerator ← if 0 ≤ shifted then pure shifted else sub shifted 146096
  div numerator 146097

def yearOfEra (dayOfEra : Int) : Option Int := do
  let quads ← sub dayOfEra (← div dayOfEra 1460)
  let centuries ← add quads (← div dayOfEra 36524)
  let days ← sub centuries (← div dayOfEra 146096)
  div days 365

def dayOfYear (dayOfEra yearOfEra : Int) : Option Int := do
  let leaps ← add (← mul 365 yearOfEra) (← div yearOfEra 4)
  sub dayOfEra (← sub leaps (← div yearOfEra 100))

def dateOf (year dayOfYear : Int) : Option Date := do
  let monthPrime ← div (← add (← mul 5 dayOfYear) 2) 153
  let day ← add (← sub dayOfYear (← div (← add (← mul 153 monthPrime) 2) 5)) 1
  let month ← add monthPrime (if monthPrime < 10 then 3 else -9)
  let year ← add year (if month ≤ 2 then 1 else 0)
  return ⟨year, month, day⟩

def civilFromDays (days : Int) : Option Date := do
  let shifted ← add days 719468
  let era ← eraOf shifted
  let dayOfEra ← sub shifted (← mul era 146097)
  let yearOfEra ← yearOfEra dayOfEra
  let year ← add yearOfEra (← mul era 400)
  let dayOfYear ← dayOfYear dayOfEra yearOfEra
  dateOf year dayOfYear

def formatUnixDate (timestamp : Int64) : Option (Except PhasegentError String) := do
  let days ← divEuclid timestamp.toInt 86400
  let date ← civilFromDays days
  return .ok (dateText date)

end Conversion

section Steps

theorem add_eq {a b : Int} (low : -9223372036854775808 ≤ a + b) (high : a + b < 9223372036854775808) : add a b = some (a + b) :=
  i64_of_bounds low high

theorem sub_eq {a b : Int} (low : -9223372036854775808 ≤ a - b) (high : a - b < 9223372036854775808) : sub a b = some (a - b) :=
  i64_of_bounds low high

theorem mul_eq {a b : Int} (low : -9223372036854775808 ≤ a * b) (high : a * b < 9223372036854775808) : mul a b = some (a * b) :=
  i64_of_bounds low high

theorem div_eq {a b : Int} (low : 0 ≤ a) (high : a < 9223372036854775808) (positive : 0 < b) : div a b = some (a / b) := by
  have nonneg : 0 ≤ a / b := Int.ediv_nonneg low positive.le
  have small : a / b ≤ a := Int.ediv_le_self b low
  rw [div, Int.tdiv_eq_ediv_of_nonneg low]
  exact i64_of_bounds (by omega) (by omega)

theorem eraOf_eq {shifted : Int} (low : -4611686018427387904 ≤ shifted) (high : shifted < 4611686018427387904) :
    eraOf shifted = some (shifted / 146097) := by
  by_cases positive : 0 ≤ shifted
  · simp [eraOf, positive, div_eq positive (show shifted < 9223372036854775808 by omega)]
  · have numerator : (shifted - 146096).tdiv 146097 = shifted / 146097 := by
      have opposite : shifted - 146096 = -(146096 - shifted) := by omega
      rw [opposite, Int.neg_tdiv, Int.tdiv_eq_ediv_of_nonneg (by omega)]
      omega
    have step := @sub_eq shifted 146096 (by omega) (by omega)
    simp only [eraOf, positive, if_false, step, Option.bind_eq_bind, Option.bind_some, div, numerator]
    exact i64_of_bounds (by omega) (by omega)

variable {day year : Int}

theorem yearOfEra_eq (first : 0 ≤ day) (last : day < 146097) :
    yearOfEra day = some ((day - day / 1460 + day / 36524 - day / 146096) / 365) := by
  have quads := @div_eq day 1460 first (by omega) (by decide)
  have centuries := @div_eq day 36524 first (by omega) (by decide)
  have whole := @div_eq day 146096 first (by omega) (by decide)
  have less := @sub_eq day (day / 1460) (by omega) (by omega)
  have more := @add_eq (day - day / 1460) (day / 36524) (by omega) (by omega)
  have rest := @sub_eq (day - day / 1460 + day / 36524) (day / 146096) (by omega) (by omega)
  have years := @div_eq (day - day / 1460 + day / 36524 - day / 146096) 365 (by omega) (by omega) (by decide)
  simp [yearOfEra, quads, centuries, whole, less, more, rest, years]

theorem dayOfYear_eq (first : 0 ≤ day) (last : day < 146097) (low : 0 ≤ year) (high : year < 400) :
    dayOfYear day year = some (day - daysBeforeMarchYear year) := by
  have days := @mul_eq 365 year (by omega) (by omega)
  have quads := @div_eq year 4 low (by omega) (by decide)
  have centuries := @div_eq year 100 low (by omega) (by decide)
  have leaps := @add_eq (365 * year) (year / 4) (by omega) (by omega)
  have before := @sub_eq (365 * year + year / 4) (year / 100) (by omega) (by omega)
  have rest := @sub_eq day (365 * year + year / 4 - year / 100) (by omega) (by omega)
  simp [dayOfYear, days, quads, centuries, leaps, before, rest, daysBeforeMarchYear]

end Steps

section Correct

theorem dateOf_eq {cycle year dayOfYear : Int} (low : -2305843009213693952 ≤ year + cycle * 400)
    (high : year + cycle * 400 < 2305843009213693952) (first : 0 ≤ dayOfYear) (last : dayOfYear ≤ 365) :
    dateOf (year + cycle * 400) dayOfYear = some (marchDate cycle year dayOfYear) := by
  obtain ⟨monthPrime, months⟩ : ∃ monthPrime, (5 * dayOfYear + 2) / 153 = monthPrime := ⟨_, rfl⟩
  have days := @mul_eq 5 dayOfYear (by omega) (by omega)
  have shifted := @add_eq (5 * dayOfYear) 2 (by omega) (by omega)
  have month := @div_eq (5 * dayOfYear + 2) 153 (by omega) (by omega) (by decide)
  have before := @mul_eq 153 monthPrime (by omega) (by omega)
  have beforeShifted := @add_eq (153 * monthPrime) 2 (by omega) (by omega)
  have passed := @div_eq (153 * monthPrime + 2) 5 (by omega) (by omega) (by decide)
  have rest := @sub_eq dayOfYear ((153 * monthPrime + 2) / 5) (by omega) (by omega)
  have day := @add_eq (dayOfYear - (153 * monthPrime + 2) / 5) 1 (by omega) (by omega)
  have civil := @add_eq monthPrime (if monthPrime < 10 then 3 else -9) (by split <;> omega) (by split <;> omega)
  have civilYear : ∀ month : Int, add (year + cycle * 400) (if month ≤ 2 then 1 else 0) =
      some (year + cycle * 400 + if month ≤ 2 then 1 else 0) := by
    intro month
    apply add_eq <;> split <;> omega
  simp only [dateOf, days, shifted, month, months, before, beforeShifted, passed, rest, day, civil, civilYear,
    Option.bind_eq_bind, Option.bind_some, Option.pure_def, marchDate]

theorem civilFromDays_of {days shifted era before day yearOf years civil dayOf : Int}
    (shift : add days 719468 = some shifted) (cycle : eraOf shifted = some era)
    (cycles : mul era 146097 = some before) (rest : sub shifted before = some day)
    (year : yearOfEra day = some yearOf) (cycleYears : mul era 400 = some years)
    (civilYear : add yearOf years = some civil) (within : dayOfYear day yearOf = some dayOf) :
    civilFromDays days = dateOf civil dayOf := by
  rw [civilFromDays, bind_of shift, bind_of cycle, bind_of cycles, bind_of rest, bind_of year,
    bind_of cycleYears, bind_of civilYear, bind_of within]

theorem civilFromDays_spec {days : Int} (low : -1152921504606846976 ≤ days) (high : days < 1152921504606846976) :
    ∃ date, civilFromDays days = some date ∧ date.Valid ∧ date.dayNumber = days := by
  obtain ⟨era, eras⟩ : ∃ era, (days + 719468) / 146097 = era := ⟨_, rfl⟩
  obtain ⟨day, within⟩ : ∃ day, days + 719468 - era * 146097 = day := ⟨_, rfl⟩
  have first : 0 ≤ day := by omega
  have last : day < 146097 := by omega
  obtain ⟨year, computed⟩ : ∃ year, year = (day - day / 1460 + day / 36524 - day / 146096) / 365 := ⟨_, rfl⟩
  have early : 0 ≤ year := by omega
  have late : year < 400 := by omega
  obtain ⟨started, unfinished⟩ := marchYear_bounds first last computed
  have short := daysBeforeMarchYear_succ year
  have final : day = 146096 ∧ year = 399 → daysBeforeMarchYear year = 145731 := by
    rintro ⟨-, rfl⟩
    rfl
  obtain ⟨dayOfYear, days'⟩ : ∃ dayOfYear, day - daysBeforeMarchYear year = dayOfYear := ⟨_, rfl⟩
  have start : 0 ≤ dayOfYear := by omega
  have finish : dayOfYear ≤ 365 := by omega
  have leapDay : dayOfYear = 365 → isLeap (year + era * 400 + 1) := by
    intro long
    obtain next | ⟨-, rfl⟩ := unfinished
    · exact isLeap_of_long era (by omega)
    · rw [isLeap_iff]
      omega
  refine ⟨marchDate era year dayOfYear, ?_, marchDate_valid era year start finish leapDay, ?_⟩
  · have shifted := @add_eq days 719468 (by omega) (by omega)
    have cycles := @mul_eq era 146097 (by omega) (by omega)
    have rest := @sub_eq (days + 719468) (era * 146097) (by omega) (by omega)
    have years := @mul_eq era 400 (by omega) (by omega)
    have civil := @add_eq year (era * 400) (by omega) (by omega)
    have eraOf := @eraOf_eq (days + 719468) (by omega) (by omega)
    have yearOf := yearOfEra_eq first last
    have dayOf := dayOfYear_eq first last early late
    rw [within] at rest
    rw [eras] at eraOf
    rw [← computed] at yearOf
    rw [days'] at dayOf
    rw [civilFromDays_of shifted eraOf cycles rest yearOf years civil dayOf]
    exact dateOf_eq (by omega) (by omega) start finish
  · rw [marchDate_dayNumber era early late start finish]
    omega

/-- Every timestamp is written as the date that its day has, the only date with that number. -/
theorem unix_date_exact (timestamp : Int64) :
    ∃ date : Date, formatUnixDate timestamp = some (.ok (dateText date)) ∧ date.Valid ∧
      date.dayNumber = timestamp.toInt / 86400 ∧
      ∀ other : Date, other.Valid → other.dayNumber = timestamp.toInt / 86400 → other = date := by
  have low : -9223372036854775808 ≤ timestamp.toInt := timestamp.le_toInt
  have high : timestamp.toInt < 9223372036854775808 := timestamp.toInt_lt
  have days : divEuclid timestamp.toInt 86400 = some (timestamp.toInt / 86400) :=
    i64_of_bounds (by omega) (by omega)
  obtain ⟨date, converted, valid, number⟩ :=
    @civilFromDays_spec (timestamp.toInt / 86400) (by omega) (by omega)
  refine ⟨date, ?_, valid, number, ?_⟩
  · simp [formatUnixDate, days, converted]
  · intro other valid' number'
    exact valid'.eq_of_dayNumber valid (number'.trans number.symm)

example : formatUnixDate 951782400 = some (.ok "2000-02-29") := by decide

end Correct

section Ledger

theorem i64_eq {value given : Int} (fits : i64 value = some given) : given = value := by
  unfold i64 at fits
  split at fits
  · exact (Option.some.inj fits).symm
  · exact absurd fits (by simp)

theorem eraOf_plain {shifted era : Int} (computed : eraOf shifted = some era) :
    era = (if 0 ≤ shifted then shifted else shifted - 146096).tdiv 146097 := by
  by_cases positive : 0 ≤ shifted
  · simp only [eraOf, positive, if_true, Option.pure_def, Option.bind_eq_bind, Option.bind_some] at computed ⊢
    exact i64_eq computed
  · simp only [eraOf, positive, if_false, Option.bind_eq_bind, Option.bind_eq_some_iff] at computed ⊢
    obtain ⟨numerator, numerator', divided⟩ := computed
    obtain rfl := i64_eq numerator'
    exact i64_eq divided

theorem yearOfEra_plain {day year : Int} (computed : yearOfEra day = some year) :
    year = (day - day.tdiv 1460 + day.tdiv 36524 - day.tdiv 146096).tdiv 365 := by
  simp only [yearOfEra, Option.bind_eq_bind, Option.bind_eq_some_iff] at computed
  obtain ⟨quads, quads', less, less', centuries, centuries', more, more', whole, whole', rest, rest', years⟩ := computed
  obtain rfl := i64_eq quads'
  obtain rfl := i64_eq less'
  obtain rfl := i64_eq centuries'
  obtain rfl := i64_eq more'
  obtain rfl := i64_eq whole'
  obtain rfl := i64_eq rest'
  exact i64_eq years

theorem dayOfYear_plain {day year dayOf : Int} (computed : dayOfYear day year = some dayOf) :
    dayOf = day - (365 * year + year.tdiv 4 - year.tdiv 100) := by
  simp only [dayOfYear, Option.bind_eq_bind, Option.bind_eq_some_iff] at computed
  obtain ⟨days, days', quads, quads', leaps, leaps', centuries, centuries', before, before', rest⟩ := computed
  obtain rfl := i64_eq days'
  obtain rfl := i64_eq quads'
  obtain rfl := i64_eq leaps'
  obtain rfl := i64_eq centuries'
  obtain rfl := i64_eq before'
  exact i64_eq rest

theorem dateOf_plain {year dayOf : Int} {date : Date} (computed : dateOf year dayOf = some date) :
    date.day = dayOf - (153 * (5 * dayOf + 2).tdiv 153 + 2).tdiv 5 + 1 ∧
      date.month = (5 * dayOf + 2).tdiv 153 + (if (5 * dayOf + 2).tdiv 153 < 10 then 3 else -9) ∧
      date.year = year + if date.month ≤ 2 then 1 else 0 := by
  simp only [dateOf, Option.bind_eq_bind, Option.bind_eq_some_iff, Option.pure_def, Option.some.injEq] at computed
  obtain ⟨days, days', shifted, shifted', prime, prime', before, before', more, more', passed, passed', rest, rest',
    day, day', month, month', civil, civil', rfl⟩ := computed
  obtain rfl := i64_eq days'
  obtain rfl := i64_eq shifted'
  obtain rfl := i64_eq prime'
  obtain rfl := i64_eq before'
  obtain rfl := i64_eq more'
  obtain rfl := i64_eq passed'
  obtain rfl := i64_eq rest'
  obtain rfl := i64_eq day'
  obtain rfl := i64_eq month'
  exact ⟨rfl, rfl, i64_eq civil'⟩

theorem padded_eq_padLeft (width : Nat) (value : Int) : padded width value = padLeft width value := by
  unfold padded padLeft
  split <;> apply String.toList_injective <;> simp [String.length]

/-- The ledger's dates are computed without overflow checks, and none of them would fail. -/
theorem formatUnixDate_ledger (timestamp : Int64) :
    formatUnixDate timestamp = some (.ok (Timer.formatUnixDate timestamp.toInt)) := by
  have low : -9223372036854775808 ≤ timestamp.toInt := timestamp.le_toInt
  have high : timestamp.toInt < 9223372036854775808 := timestamp.toInt_lt
  have days : divEuclid timestamp.toInt 86400 = some (timestamp.toInt / 86400) :=
    i64_of_bounds (by omega) (by omega)
  obtain ⟨date, converted, -, -⟩ := @civilFromDays_spec (timestamp.toInt / 86400) (by omega) (by omega)
  have text : dateText date = Timer.formatUnixDate timestamp.toInt := by
    simp only [civilFromDays, Option.bind_eq_bind, Option.bind_eq_some_iff] at converted
    obtain ⟨shifted, shifted', era, era', before, before', day, day', yearOf, yearOf', years, years', civil, civil',
      dayOf, dayOf', dated⟩ := converted
    obtain rfl := i64_eq shifted'
    obtain rfl := eraOf_plain era'
    obtain rfl := i64_eq before'
    obtain rfl := i64_eq day'
    obtain rfl := yearOfEra_plain yearOf'
    obtain rfl := i64_eq years'
    obtain rfl := i64_eq civil'
    obtain rfl := dayOfYear_plain dayOf'
    obtain ⟨day, month, year⟩ := dateOf_plain dated
    rw [dateText, padded_eq_padLeft, padded_eq_padLeft, padded_eq_padLeft, year, month, day, Timer.formatUnixDate,
      Int.fdiv_eq_ediv_of_nonneg timestamp.toInt (by decide)]
  rw [formatUnixDate, bind_of days, bind_of converted, text]
  rfl

end Ledger

end Phasegent.Timer.Dates
