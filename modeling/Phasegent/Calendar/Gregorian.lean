import Mathlib.Tactic.IntervalCases

namespace Calendar

structure Date where
  year : Int
  month : Int
  day : Int
  deriving DecidableEq, Repr

def isLeap (year : Int) : Bool := year % 4 == 0 && (year % 100 != 0 || year % 400 == 0)

def monthLength (year month : Int) : Int :=
  if month = 2 then if isLeap year then 29 else 28
  else if month = 4 ∨ month = 6 ∨ month = 9 ∨ month = 11 then 30
  else 31

structure Date.Valid (date : Date) : Prop where
  month_pos : 1 ≤ date.month
  month_le : date.month ≤ 12
  day_pos : 1 ≤ date.day
  day_le : date.day ≤ monthLength date.year date.month

def yearLength (year : Int) : Int := if isLeap year then 366 else 365

def daysBeforeYear (year : Int) : Int :=
  365 * (year - 1) + (year - 1) / 4 - (year - 1) / 100 + (year - 1) / 400

def daysBeforeMonth (year month : Int) : Int :=
  ((List.range (month - 1).toNat).map fun i : Nat => monthLength year (i + 1)).sum

/-- The number of days since the first of January 1970. -/
def Date.dayNumber (date : Date) : Int :=
  daysBeforeYear date.year + daysBeforeMonth date.year date.month + date.day - 719163

example : Date.dayNumber ⟨1970, 1, 1⟩ = 0 := by decide

section Lengths

theorem isLeap_iff {year : Int} : isLeap year ↔ year % 4 = 0 ∧ (year % 100 ≠ 0 ∨ year % 400 = 0) := by
  simp [isLeap]

theorem daysBeforeYear_succ (year : Int) :
    daysBeforeYear (year + 1) = daysBeforeYear year + yearLength year := by
  by_cases leap : isLeap year
  · have rule := isLeap_iff.mp leap
    simp only [daysBeforeYear, yearLength, leap, if_true]
    omega
  · have rule := mt isLeap_iff.mpr leap
    simp only [daysBeforeYear, yearLength, leap]
    simp only [Bool.false_eq_true, if_false]
    omega

theorem yearLength_pos (year : Int) : 0 < yearLength year := by
  rw [yearLength]
  split <;> decide

theorem monthLength_pos (year month : Int) : 0 < monthLength year month := by
  rw [monthLength]
  split_ifs <;> decide

theorem daysBeforeMonth_one (year : Int) : daysBeforeMonth year 1 = 0 := rfl

theorem daysBeforeMonth_succ (year : Int) {month : Int} (first : 1 ≤ month) :
    daysBeforeMonth year (month + 1) = daysBeforeMonth year month + monthLength year month := by
  have count : (month + 1 - 1).toNat = (month - 1).toNat + 1 := by omega
  have same : ((month - 1).toNat : Int) + 1 = month := by omega
  simp only [daysBeforeMonth, count, List.range_succ, List.map_append, List.sum_append, List.map_cons,
    List.map_nil, List.sum_cons, List.sum_nil, same, add_zero]

theorem daysBeforeMonth_thirteen (year : Int) : daysBeforeMonth year 13 = yearLength year := by
  by_cases leap : isLeap year <;>
    simp [daysBeforeMonth, List.range_succ, monthLength, yearLength, leap]

-- The months from March on lie evenly, five of them in 153 days.
theorem daysBeforeMonth_march (year : Int) {months : Int} (first : 0 ≤ months) (last : months ≤ 10) :
    daysBeforeMonth year (months + 3) = yearLength year - 306 + (153 * months + 2) / 5 := by
  by_cases leap : isLeap year <;> interval_cases months <;>
    simp [daysBeforeMonth, List.range_succ, monthLength, yearLength, leap]

end Lengths

section Cycles

/-- The days before the year that starts in March of the given year of a cycle of 400 years. -/
def daysBeforeMarchYear (year : Int) : Int := 365 * year + year / 4 - year / 100

theorem daysBeforeYear_cycle (cycle : Int) {year : Int} (first : 0 ≤ year) (last : year < 400) :
    daysBeforeYear (year + cycle * 400 + 1) = cycle * 146097 + daysBeforeMarchYear year := by
  simp only [daysBeforeYear, daysBeforeMarchYear]
  omega

/-- The year of a cycle that a day falls into; the last year has the leap day that ends the cycle. -/
theorem marchYear_bounds {day year : Int} (first : 0 ≤ day) (last : day < 146097)
    (computed : year = (day - day / 1460 + day / 36524 - day / 146096) / 365) :
    daysBeforeMarchYear year ≤ day ∧
      (day < daysBeforeMarchYear (year + 1) ∨ day = 146096 ∧ year = 399) := by
  simp only [daysBeforeMarchYear]
  obtain ⟨quad, quads⟩ : ∃ quad, day / 1460 = quad := ⟨_, rfl⟩
  obtain ⟨century, centuries⟩ : ∃ century, day / 36524 = century := ⟨_, rfl⟩
  obtain ⟨rest, rests⟩ : ∃ rest, year - 4 * quad = rest := ⟨_, rfl⟩
  have restLow : -1 ≤ rest := by omega
  have restHigh : rest ≤ 3 := by omega
  have centuryLow : 0 ≤ century := by omega
  have centuryHigh : century ≤ 4 := by omega
  obtain ordinary | leapDay : day / 146096 = 0 ∨ day = 146096 := by omega
  · rw [ordinary, quads, centuries] at computed
    interval_cases rest <;> interval_cases century <;> omega
  · subst leapDay
    omega

theorem daysBeforeMarchYear_succ (year : Int) :
    daysBeforeMarchYear (year + 1) ≤ daysBeforeMarchYear year + 366 := by
  simp only [daysBeforeMarchYear]
  omega

theorem isLeap_of_long (cycle : Int) {year : Int}
    (long : daysBeforeMarchYear year + 366 ≤ daysBeforeMarchYear (year + 1)) :
    isLeap (year + cycle * 400 + 1) := by
  rw [isLeap_iff]
  simp only [daysBeforeMarchYear] at long
  omega

def marchDate (cycle year dayOfYear : Int) : Date :=
  let monthPrime := (5 * dayOfYear + 2) / 153
  let month := monthPrime + if monthPrime < 10 then 3 else -9
  ⟨year + cycle * 400 + (if month ≤ 2 then 1 else 0), month, dayOfYear - (153 * monthPrime + 2) / 5 + 1⟩

theorem marchDate_valid (cycle year : Int) {dayOfYear : Int} (first : 0 ≤ dayOfYear) (last : dayOfYear ≤ 365)
    (leapDay : dayOfYear = 365 → isLeap (year + cycle * 400 + 1)) :
    (marchDate cycle year dayOfYear).Valid := by
  obtain ⟨monthPrime, months⟩ : ∃ monthPrime, (5 * dayOfYear + 2) / 153 = monthPrime := ⟨_, rfl⟩
  have low : 0 ≤ monthPrime := by omega
  have high : monthPrime ≤ 11 := by omega
  by_cases february : monthPrime = 11
  · subst february
    by_cases leap : isLeap (year + cycle * 400 + 1)
    · constructor <;> simp [marchDate, months, monthLength, leap] <;> omega
    · have short : dayOfYear ≠ 365 := mt leapDay leap
      constructor <;> simp [marchDate, months, monthLength, leap] <;> omega
  · have other : monthPrime ≤ 10 := by omega
    interval_cases monthPrime <;> constructor <;> simp [marchDate, months, monthLength] <;> omega

theorem marchDate_dayNumber (cycle : Int) {year dayOfYear : Int} (first : 0 ≤ year) (last : year < 400)
    (start : 0 ≤ dayOfYear) (finish : dayOfYear ≤ 365) :
    (marchDate cycle year dayOfYear).dayNumber =
      cycle * 146097 + daysBeforeMarchYear year + dayOfYear - 719468 := by
  have before := daysBeforeYear_cycle cycle first last
  have next := daysBeforeYear_succ (year + cycle * 400)
  obtain ⟨monthPrime, months⟩ : ∃ monthPrime, (5 * dayOfYear + 2) / 153 = monthPrime := ⟨_, rfl⟩
  by_cases spring : monthPrime < 10
  · have month : ¬monthPrime + 3 ≤ 2 := by omega
    have passed := daysBeforeMonth_march (year + cycle * 400) (show 0 ≤ monthPrime by omega) (by omega)
    simp only [Date.dayNumber, marchDate, months, spring, if_true, month, if_false, add_zero, passed]
    omega
  · have late : monthPrime = 10 ∨ monthPrime = 11 := by omega
    obtain rfl | rfl := late
    · simp [Date.dayNumber, marchDate, months, daysBeforeMonth_one, before]
      omega
    · have january : daysBeforeMonth (year + cycle * 400 + 1) 2 = 31 := by
        simp [daysBeforeMonth, monthLength]
      simp [Date.dayNumber, marchDate, months, january, before]
      omega

end Cycles

section Order

theorem daysBeforeYear_mono {earlier later : Int} (order : earlier ≤ later) :
    daysBeforeYear earlier ≤ daysBeforeYear later := by
  induction later, order using Int.leInduction with
  | base => exact le_rfl
  | succ year _ ih =>
      have more := daysBeforeYear_succ year
      have positive := yearLength_pos year
      omega

theorem daysBeforeMonth_mono (year : Int) {earlier later : Int} (first : 1 ≤ earlier) (order : earlier ≤ later) :
    daysBeforeMonth year earlier ≤ daysBeforeMonth year later := by
  induction later, order using Int.leInduction with
  | base => exact le_rfl
  | succ month after ih =>
      have more := daysBeforeMonth_succ year (first.trans after)
      have positive := monthLength_pos year month
      omega

def Date.ordinal (date : Date) : Int := daysBeforeMonth date.year date.month + date.day

variable {date other : Date}

theorem Date.Valid.ordinal_pos (valid : date.Valid) : 1 ≤ date.ordinal := by
  have before := daysBeforeMonth_mono date.year le_rfl valid.month_pos
  have none := daysBeforeMonth_one date.year
  have day := valid.day_pos
  rw [Date.ordinal]
  omega

theorem Date.Valid.ordinal_le (valid : date.Valid) : date.ordinal ≤ daysBeforeMonth date.year (date.month + 1) := by
  have more := daysBeforeMonth_succ date.year valid.month_pos
  have day := valid.day_le
  rw [Date.ordinal]
  omega

theorem Date.Valid.ordinal_le_yearLength (valid : date.Valid) : date.ordinal ≤ yearLength date.year := by
  have next : 1 ≤ date.month + 1 := by have := valid.month_pos; omega
  have last : date.month + 1 ≤ 13 := by have := valid.month_le; omega
  have within := daysBeforeMonth_mono date.year next last
  rw [daysBeforeMonth_thirteen] at within
  exact valid.ordinal_le.trans within

theorem Date.Valid.year_le (valid : date.Valid) (valid' : other.Valid)
    (same : date.dayNumber = other.dayNumber) : date.year ≤ other.year := by
  by_contra later
  have years := daysBeforeYear_mono (show other.year + 1 ≤ date.year by omega)
  have more := daysBeforeYear_succ other.year
  have low := valid.ordinal_pos
  have high := valid'.ordinal_le_yearLength
  simp only [Date.dayNumber, Date.ordinal] at same low high
  omega

theorem Date.Valid.month_le_of_ordinal (valid : date.Valid) (valid' : other.Valid) (years : date.year = other.year)
    (same : date.ordinal = other.ordinal) : date.month ≤ other.month := by
  by_contra later
  have next : 1 ≤ other.month + 1 := by have := valid'.month_pos; omega
  have months := daysBeforeMonth_mono date.year next (show other.month + 1 ≤ date.month by omega)
  have high := valid'.ordinal_le
  have day := valid.day_pos
  rw [← years, ← same, Date.ordinal] at high
  omega

theorem Date.Valid.eq_of_dayNumber (valid : date.Valid) (valid' : other.Valid)
    (same : date.dayNumber = other.dayNumber) : date = other := by
  have years : date.year = other.year :=
    le_antisymm (valid.year_le valid' same) (valid'.year_le valid same.symm)
  have ordinals : date.ordinal = other.ordinal := by
    simp only [Date.dayNumber, Date.ordinal, years] at same ⊢
    omega
  have months : date.month = other.month :=
    le_antisymm (valid.month_le_of_ordinal valid' years ordinals)
      (valid'.month_le_of_ordinal valid years.symm ordinals.symm)
  have days : date.day = other.day := by
    simp only [Date.ordinal, years, months] at ordinals
    omega
  cases date
  cases other
  simp_all

end Order

end Calendar
