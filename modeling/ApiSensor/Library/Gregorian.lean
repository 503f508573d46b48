import Mathlib.Algebra.BigOperators.Intervals
import Mathlib.Algebra.Order.BigOperators.Group.Finset
import Mathlib.Data.List.Lex
import Mathlib.Order.Monotone.Basic

/-!
# The proleptic Gregorian calendar

Dates with a time of day, and the number of seconds between the start of 1970 and such a date.
-/

namespace Library

/-- Every fourth year is a leap year, except for centuries that 400 does not divide. -/
def leapYear (year : ℤ) : Bool := 4 ∣ year ∧ (100 ∣ year → 400 ∣ year)

def daysInYear (year : ℤ) : ℤ := if leapYear year then 366 else 365

def daysInMonth (leap : Bool) : ℕ → ℕ
  | 2 => if leap then 29 else 28
  | 4 | 6 | 9 | 11 => 30
  | _ => 31

/-- Leap years up to a year, counted from year 1. -/
def leapsThrough (year : ℤ) : ℤ := year / 4 - year / 100 + year / 400

/-- Days from the start of 1970 to the start of a year, negative for earlier years. -/
def daysBeforeYear (year : ℤ) : ℤ :=
  365 * (year - 1970) + leapsThrough (year - 1) - leapsThrough 1969

def daysBeforeMonth (leap : Bool) (month : ℕ) : ℕ :=
  ∑ earlier ∈ Finset.Ico 1 month, daysInMonth leap earlier

/-- A date with a time of day. -/
structure CivilTime where
  year : ℤ
  month : ℕ
  day : ℕ
  hour : ℕ
  minute : ℕ
  second : ℕ
deriving DecidableEq

theorem daysBeforeYear_succ (year : ℤ) :
    daysBeforeYear (year + 1) = daysBeforeYear year + daysInYear year := by
  unfold daysBeforeYear leapsThrough daysInYear leapYear
  split <;> simp_all only [decide_eq_true_eq] <;> omega

theorem daysBeforeYear_mono {first second : ℤ} (le : first ≤ second) :
    daysBeforeYear first ≤ daysBeforeYear second := by
  refine monotone_int_of_le_succ (fun year => ?_) le
  rw [daysBeforeYear_succ, daysInYear]
  split <;> omega

theorem daysBeforeMonth_succ (leap : Bool) {month : ℕ} (positive : 1 ≤ month) :
    daysBeforeMonth leap (month + 1) = daysBeforeMonth leap month + daysInMonth leap month :=
  Finset.sum_Ico_succ_top positive _

theorem daysBeforeMonth_mono (leap : Bool) {month later : ℕ} (le : month ≤ later) :
    daysBeforeMonth leap month ≤ daysBeforeMonth leap later :=
  Finset.sum_le_sum_of_subset (Finset.Ico_subset_Ico_right le)

theorem daysBeforeMonth_end (year : ℤ) :
    (daysBeforeMonth (leapYear year) 13 : ℤ) = daysInYear year := by
  unfold daysInYear
  cases leapYear year <;> decide

namespace CivilTime

/-- The date exists and the time is one of a day. -/
structure Valid (time : CivilTime) : Prop where
  month : 1 ≤ time.month ∧ time.month ≤ 12
  day : 1 ≤ time.day ∧ time.day ≤ daysInMonth (leapYear time.year) time.month
  hour : time.hour < 24
  minute : time.minute < 60
  second : time.second < 60

/-- Days from the first of January 1970. -/
def daysFromCivil (time : CivilTime) : ℤ :=
  daysBeforeYear time.year + daysBeforeMonth (leapYear time.year) time.month + (time.day - 1)

def timeOfDay (time : CivilTime) : ℕ := 3600 * time.hour + 60 * time.minute + time.second

/-- Seconds from the start of 1970. -/
def seconds (time : CivilTime) : ℤ := time.daysFromCivil * 86400 + time.timeOfDay

/-- The fields from the most significant one on. -/
def fields (time : CivilTime) : List ℤ :=
  [time.year, time.month, time.day, time.hour, time.minute, time.second]

variable {time other : CivilTime}

theorem fields_injective (same : time.fields = other.fields) :
    time = other := by
  obtain ⟨_, _, _, _, _, _⟩ := time
  obtain ⟨_, _, _, _, _, _⟩ := other
  simp only [fields, List.cons.injEq, Int.natCast_inj] at same
  simp only [mk.injEq]
  tauto

section

variable (valid : time.Valid)
include valid

theorem Valid.timeOfDay_lt : time.timeOfDay < 86400 := by
  obtain ⟨-, -, hour, minute, second⟩ := valid
  unfold timeOfDay
  omega

/-- A date lies before the first of every later month of its year. -/
theorem Valid.day_lt {month : ℕ} (later : time.month + 1 ≤ month) :
    daysBeforeMonth (leapYear time.year) time.month + time.day ≤
      daysBeforeMonth (leapYear time.year) month := by
  have next := daysBeforeMonth_succ (leapYear time.year) valid.month.1
  have onwards := daysBeforeMonth_mono (leapYear time.year) later
  have day := valid.day.2
  omega

/-- A date lies before the first day of every later year. -/
theorem Valid.daysFromCivil_lt {year : ℤ} (later : time.year < year) :
    time.daysFromCivil < daysBeforeYear year := by
  have december : time.month + 1 ≤ 13 := Nat.succ_le_succ valid.month.2
  have inYear := valid.day_lt december
  have whole := daysBeforeMonth_end time.year
  have onwards := daysBeforeYear_mono (Int.add_one_le_of_lt later)
  rw [daysBeforeYear_succ] at onwards
  unfold daysFromCivil
  omega

theorem Valid.seconds_lt_of_days (days : time.daysFromCivil < other.daysFromCivil) :
    time.seconds < other.seconds := by
  have rest := valid.timeOfDay_lt
  unfold seconds
  omega

/-- Valid times are ordered as their fields. -/
theorem Valid.seconds_lt (valid' : other.Valid) (fields : time.fields < other.fields) :
    time.seconds < other.seconds := by
  have day := valid'.day.1
  simp only [CivilTime.fields, List.cons_lt_cons_iff, List.not_lt_nil, and_false, or_false,
    Int.ofNat_lt, Int.natCast_inj] at fields
  rcases fields with later | ⟨year, later | ⟨month, digits⟩⟩
  · have inYear := valid.daysFromCivil_lt later
    refine valid.seconds_lt_of_days (inYear.trans_le ?_)
    unfold daysFromCivil
    omega
  · have inMonth := valid.day_lt later
    refine valid.seconds_lt_of_days ?_
    rw [year] at inMonth
    simp only [daysFromCivil, year]
    omega
  · -- the same month: the remaining fields are digits
    obtain ⟨-, -, hour, minute, second⟩ := valid
    simp only [seconds, daysFromCivil, timeOfDay, year, month]
    omega

/-- No two valid times lie equally many seconds from the start of 1970. -/
theorem Valid.eq_of_seconds (valid' : other.Valid) (same : time.seconds = other.seconds) :
    time = other := by
  rcases lt_trichotomy time.fields other.fields with before | equal | behind
  · exact absurd same (valid.seconds_lt valid' before).ne
  · exact fields_injective equal
  · exact absurd same (valid'.seconds_lt valid behind).ne'

theorem Valid.fields_lt (valid' : other.Valid) (before : time.seconds < other.seconds) :
    time.fields < other.fields := by
  rcases lt_trichotomy time.fields other.fields with less | equal | behind
  · exact less
  · exact absurd (congrArg seconds (fields_injective equal)) before.ne
  · exact absurd (valid'.seconds_lt valid behind) before.not_gt

end

end CivilTime

end Library
