import ApiSensor.Library.Gregorian

/-!
# Dates of timestamps

`unix_secs_to_dt` counts days from the first of March of year 0, in eras of 400 years.  It agrees
with the Gregorian calendar on every timestamp.
-/

namespace ApiSensor

open Library

/-- `unix_secs_to_dt`. -/
def unixSecsToDt (secs : UInt64) : UInt64 × UInt64 × UInt64 × UInt64 × UInt64 × UInt64 :=
  let timeOfDay := secs % 86400
  let h := timeOfDay / 3600
  let mi := timeOfDay % 3600 / 60
  let s := timeOfDay % 60
  let days := secs / 86400
  let z := days + 719468
  let era := z / 146097
  let doe := z % 146097
  let yoe := (doe - doe / 1460 + doe / 36524 - doe / 146096) / 365
  let y := yoe + era * 400
  let doy := doe - (365 * yoe + yoe / 4 - yoe / 100)
  let mp := (5 * doy + 2) / 153
  let d := doy - (153 * mp + 2) / 5 + 1
  let mo := if mp < 10 then mp + 3 else mp - 9
  let y := if mo ≤ 2 then y + 1 else y
  (y, mo, d, h, mi, s)

/-- The returned numbers as a date. -/
def dateTime (secs : UInt64) : CivilTime :=
  let (y, mo, d, h, mi, s) := unixSecsToDt secs
  ⟨y.toNat, mo.toNat, d.toNat, h.toNat, mi.toNat, s.toNat⟩

/-! ## Years of an era -/

/-- Days of an era before March of a year. -/
def marchDays (year : ℕ) : ℕ := 365 * year + year / 4 - year / 100

/-- Days of an era without the leap days. -/
def withoutLeapDays (doe : ℕ) : ℕ := doe - doe / 1460 + doe / 36524 - doe / 146096

theorem withoutLeapDays_mono {doe later : ℕ} (le : doe ≤ later) (inside : later < 146097) :
    withoutLeapDays doe ≤ withoutLeapDays later := by
  unfold withoutLeapDays
  induction le with
  | refl => exact Nat.le_refl _
  | step _ induction =>
    have before := induction (by omega)
    omega

theorem withoutLeapDays_marchDays : ∀ year < 400,
    365 * year ≤ withoutLeapDays (marchDays year) ∧
      withoutLeapDays (marchDays (year + 1) - 1) < 365 * (year + 1) := by
  decide +kernel

/-- The year of the era that a day lies in.  The last year of an era is a leap year. -/
theorem year_of_era {doe yoe : ℕ} (inside : doe < 146097) (year : withoutLeapDays doe / 365 = yoe) :
    yoe < 400 ∧ marchDays yoe ≤ doe ∧ doe < marchDays (yoe + 1) + (yoe + 1) / 400 := by
  have last := withoutLeapDays_mono (Nat.le_sub_one_of_lt inside) (by decide)
  rw [show withoutLeapDays (146097 - 1) = 145999 by decide] at last
  have small : yoe < 400 := by omega
  refine ⟨small, ?_, ?_⟩
  · by_contra before
    cases yoe with
    | zero => exact before (Nat.zero_le _)
    | succ previous =>
      have ends : marchDays (previous + 1) - 1 < 146097 := by unfold marchDays; omega
      have less := withoutLeapDays_mono (Nat.le_sub_one_of_lt (Nat.not_le.mp before)) ends
      have table := withoutLeapDays_marchDays previous (by omega)
      omega
  · by_contra behind
    by_cases next : yoe + 1 < 400
    · have starts : marchDays (yoe + 1) ≤ doe := by omega
      have more := withoutLeapDays_mono starts inside
      have table := withoutLeapDays_marchDays (yoe + 1) next
      omega
    · obtain rfl : yoe = 399 := by omega
      exact behind inside

theorem marchDays_succ_le {yoe : ℕ} (inEra : yoe < 400) :
    marchDays (yoe + 1) + (yoe + 1) / 400 ≤ marchDays yoe + 366 := by
  unfold marchDays
  omega

/-- Month and day of a day counted from the first of March. -/
theorem month_of_year : ∀ doy < 366, ∀ leap next : Bool, (doy = 365 → next = true) →
    let mp := (5 * doy + 2) / 153
    let d := doy - (153 * mp + 2) / 5 + 1
    (153 * mp + 2) / 5 ≤ doy ∧ d ≤ 31 ∧
      if mp < 10 then
        d ≤ daysInMonth leap (mp + 3) ∧
          daysBeforeMonth leap (mp + 3) + d = 60 + leap.toNat + doy
      else mp < 12 ∧ d ≤ daysInMonth next (mp - 9) ∧
        daysBeforeMonth next (mp - 9) + d + 305 = doy := by
  decide +kernel

/-! ## Dates -/

theorem daysBeforeYear_era (era : ℕ) {yoe : ℕ} (inEra : yoe < 400) :
    daysBeforeYear ((yoe + era * 400 : ℕ) + 1) = 146097 * era + marchDays yoe - 719162 := by
  unfold daysBeforeYear leapsThrough marchDays
  omega

/-- The date of a day that is given by its era, its year from March and its day of that year. -/
theorem date_of_day {days era yoe doy mp d : ℕ}
    (count : days + 719468 = 146097 * era + marchDays yoe + doy) (inEra : yoe < 400)
    (inYear : marchDays yoe + doy < marchDays (yoe + 1) + (yoe + 1) / 400)
    (month : mp = (5 * doy + 2) / 153) (day : d = doy - (153 * mp + 2) / 5 + 1)
    {time : CivilTime} (time_month : time.month = if mp < 10 then mp + 3 else mp - 9)
    (time_year : time.year = ((if mp < 10 then yoe + era * 400 else yoe + era * 400 + 1 : ℕ) : ℤ))
    (time_day : time.day = d) :
    (1 ≤ time.month ∧ time.month ≤ 12) ∧
      (1 ≤ time.day ∧ time.day ≤ daysInMonth (leapYear time.year) time.month) ∧
      time.daysFromCivil = days := by
  have short : doy < 366 := by have := marchDays_succ_le inEra; omega
  have leapDay : doy = 365 → leapYear ((yoe + era * 400 : ℕ) + 1) = true := by
    intro last
    unfold marchDays at inYear
    rw [leapYear, decide_eq_true_eq]
    omega
  have table := month_of_year doy short (leapYear (yoe + era * 400 : ℕ))
    (leapYear ((yoe + era * 400 : ℕ) + 1)) leapDay
  have before := daysBeforeYear_era era inEra
  dsimp only at table
  rw [← month, ← day] at table
  obtain ⟨-, -, table⟩ := table
  rw [CivilTime.daysFromCivil, time_month, time_year, time_day]
  by_cases spring : mp < 10
  · simp only [if_pos spring] at table ⊢
    refine ⟨⟨by omega, by omega⟩, ⟨by omega, table.1⟩, ?_⟩
    rw [daysBeforeYear_succ, daysInYear] at before
    cases leap : leapYear (yoe + era * 400 : ℕ) with
    | false =>
      rw [leap, Bool.toNat_false] at table
      rw [leap, if_neg Bool.false_ne_true] at before
      omega
    | true =>
      rw [leap, Bool.toNat_true] at table
      rw [leap, if_pos rfl] at before
      omega
  · simp only [if_neg spring] at table ⊢
    rw [Int.natCast_succ]
    exact ⟨⟨by omega, by omega⟩, ⟨by omega, table.2.1⟩, by omega⟩

theorem toNat_yearOfEra {doe : UInt64} (inside : doe.toNat < 146097) :
    ((doe - doe / 1460 + doe / 36524 - doe / 146096) / 365).toNat =
      withoutLeapDays doe.toNat / 365 := by
  simp only [withoutLeapDays, UInt64.toNat_div, UInt64.toNat_sub, UInt64.toNat_add,
    UInt64.reduceToNat]
  congr 1
  omega

theorem toNat_dayOfYear {doe yoe : UInt64} (inEra : yoe.toNat < 400)
    (started : marchDays yoe.toNat ≤ doe.toNat) :
    (doe - (365 * yoe + yoe / 4 - yoe / 100)).toNat = doe.toNat - marchDays yoe.toNat := by
  have before : (365 * yoe + yoe / 4 - yoe / 100).toNat = marchDays yoe.toNat := by
    simp only [marchDays, UInt64.toNat_sub, UInt64.toNat_add, UInt64.toNat_mul, UInt64.toNat_div,
      UInt64.reduceToNat]
    omega
  rw [← before] at started ⊢
  exact UInt64.toNat_sub_of_le _ _ (UInt64.le_iff_toNat_le.mpr started)

theorem toNat_month {doy : UInt64} (short : doy.toNat < 366) :
    ((5 * doy + 2) / 153).toNat = (5 * doy.toNat + 2) / 153 := by
  simp only [UInt64.toNat_add, UInt64.toNat_mul, UInt64.toNat_div, UInt64.reduceToNat]
  omega

theorem toNat_day {doy mp : UInt64} (short : doy.toNat < 366)
    (month : mp.toNat = (5 * doy.toNat + 2) / 153) :
    (doy - (153 * mp + 2) / 5 + 1).toNat = doy.toNat - (153 * mp.toNat + 2) / 5 + 1 := by
  have inMonth := (month_of_year doy.toNat short true true fun _ => rfl).1
  have before : ((153 * mp + 2) / 5).toNat = (153 * mp.toNat + 2) / 5 := by
    simp only [UInt64.toNat_add, UInt64.toNat_mul, UInt64.toNat_div, UInt64.reduceToNat]
    omega
  rw [← month, ← before] at inMonth
  rw [UInt64.toNat_add, UInt64.toNat_sub_of_le _ _ (UInt64.le_iff_toNat_le.mpr inMonth), before]
  simp only [UInt64.reduceToNat]
  omega

theorem digits_of_day {tod : ℕ} (inside : tod < 86400) :
    tod / 3600 < 24 ∧ tod % 3600 / 60 < 60 ∧ tod % 60 < 60 ∧
      3600 * (tod / 3600) + 60 * (tod % 3600 / 60) + tod % 60 = tod := by
  omega

/-- No step of the computation wraps. -/
theorem dateTime_spec (secs : UInt64) :
    (dateTime secs).Valid ∧ (dateTime secs).seconds = secs.toNat := by
  unfold dateTime unixSecsToDt
  extract_lets timeOfDay h mi s days z era doe yoe y doy mp d mo y'
  have days_eq : days.toNat = secs.toNat / 86400 := UInt64.toNat_div _ _
  have days_lt : days.toNat < 2 ^ 48 := by have := secs.toNat_lt; omega
  have z_eq : z.toNat = days.toNat + 719468 := by
    simp only [z, UInt64.toNat_add, UInt64.reduceToNat]
    omega
  have era_eq : era.toNat = z.toNat / 146097 := UInt64.toNat_div _ _
  have doe_eq : doe.toNat = z.toNat % 146097 := UInt64.toNat_mod _ _
  have inside : doe.toNat < 146097 := by omega
  have yoe_eq : yoe.toNat = withoutLeapDays doe.toNat / 365 := toNat_yearOfEra inside
  obtain ⟨inEra, started, ended⟩ := year_of_era inside yoe_eq.symm
  have doy_eq : doy.toNat = doe.toNat - marchDays yoe.toNat := toNat_dayOfYear inEra started
  have short : doy.toNat < 366 := by have := marchDays_succ_le inEra; omega
  have mp_eq : mp.toNat = (5 * doy.toNat + 2) / 153 := toNat_month short
  have d_eq : d.toNat = doy.toNat - (153 * mp.toNat + 2) / 5 + 1 := toNat_day short mp_eq
  have mo_eq : mo.toNat = if mp.toNat < 10 then mp.toNat + 3 else mp.toNat - 9 := by
    simp only [mo, UInt64.lt_iff_toNat_lt, apply_ite UInt64.toNat, UInt64.toNat_sub,
      UInt64.toNat_add, UInt64.reduceToNat]
    clear_value mp
    split <;> omega
  have y_eq : y.toNat = yoe.toNat + era.toNat * 400 := by
    simp only [y, UInt64.toNat_add, UInt64.toNat_mul, UInt64.reduceToNat]
    omega
  have y'_eq : y'.toNat = if mp.toNat < 10 then yoe.toNat + era.toNat * 400
      else yoe.toNat + era.toNat * 400 + 1 := by
    simp only [y', UInt64.le_iff_toNat_le, apply_ite UInt64.toNat, UInt64.toNat_add, mo_eq, y_eq,
      UInt64.reduceToNat]
    split_ifs <;> omega
  have count : days.toNat + 719468 = 146097 * era.toNat + marchDays yoe.toNat + doy.toNat := by
    omega
  obtain ⟨month, day, days_from⟩ := @date_of_day _ _ _ _ _ _ count inEra (by omega) mp_eq d_eq
    ⟨y'.toNat, mo.toNat, d.toNat, h.toNat, mi.toNat, s.toNat⟩ mo_eq (congrArg Nat.cast y'_eq) rfl
  have h_eq : h.toNat = timeOfDay.toNat / 3600 := UInt64.toNat_div _ _
  have mi_eq : mi.toNat = timeOfDay.toNat % 3600 / 60 := by
    rw [UInt64.toNat_div, UInt64.toNat_mod]
    rfl
  have s_eq : s.toNat = timeOfDay.toNat % 60 := UInt64.toNat_mod _ _
  have tod_eq : timeOfDay.toNat = secs.toNat % 86400 := UInt64.toNat_mod _ _
  have tod_lt : timeOfDay.toNat < 86400 := tod_eq ▸ Nat.mod_lt _ (by decide)
  have digits := digits_of_day tod_lt
  rw [← h_eq, ← mi_eq, ← s_eq] at digits
  obtain ⟨hour, minute, second, digits⟩ := digits
  refine ⟨⟨month, day, hour, minute, second⟩, ?_⟩
  rw [CivilTime.seconds, days_from, CivilTime.timeOfDay, digits, tod_eq, days_eq]
  exact_mod_cast Nat.div_add_mod' secs.toNat 86400

/-- `unix_secs_to_dt` returns the date and time that lies that many seconds after the start of 1970.
No other date does, and later timestamps have later dates. -/
theorem unix_secs_to_dt_exact (secs : UInt64) :
    (dateTime secs).Valid ∧ (dateTime secs).seconds = secs.toNat ∧
      (∀ other : CivilTime, other.Valid → other.seconds = secs.toNat → other = dateTime secs) ∧
      ∀ later, secs < later → (dateTime secs).fields < (dateTime later).fields := by
  obtain ⟨valid, exact⟩ := dateTime_spec secs
  refine ⟨valid, exact, fun other valid' same => ?_, fun later less => ?_⟩
  · exact valid'.eq_of_seconds valid (same.trans exact.symm)
  · obtain ⟨valid', exact'⟩ := dateTime_spec later
    refine valid.fields_lt valid' ?_
    rw [exact, exact']
    exact Int.ofNat_lt.mpr (UInt64.lt_iff_toNat_lt.mp less)

end ApiSensor
