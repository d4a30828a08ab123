import Mathlib.Tactic.Common

/-! Broken-down calendar times and what is relied on of the two conversions of a platform between
them and the seconds of a clock; the conversions of the proleptic Gregorian calendar in UTC are such.
-/

namespace Foundation

/-- The fields of a broken-down time: years count from 1900, months from zero. -/
structure Tm where
  sec : Int := 0
  min : Int := 0
  hour : Int := 0
  mday : Int := 0
  mon : Int := 0
  year : Int := 0
  wday : Int := 0
deriving DecidableEq

/-- The fields are in their ranges; a month may have 31 days. -/
structure Tm.Valid (tm : Tm) : Prop where
  sec : 0 ≤ tm.sec ∧ tm.sec ≤ 60
  min : 0 ≤ tm.min ∧ tm.min < 60
  hour : 0 ≤ tm.hour ∧ tm.hour < 24
  mday : 1 ≤ tm.mday ∧ tm.mday ≤ 31
  mon : 0 ≤ tm.mon ∧ tm.mon < 12
  wday : 0 ≤ tm.wday ∧ tm.wday < 7

/-- The full minutes of any year are valid. -/
theorem Tm.Valid.minute {tm : Tm} (valid : tm.Valid) (year : Int)
    : ({ tm with sec := 0, year } : Tm).Valid :=
  { valid with sec := ⟨Int.le_refl 0, (by decide : (0 : Int) ≤ 60)⟩ }

/-- The conversions of a platform, where the second inverts the first (as it does without daylight
saving). The seconds only add up, the day of the week is not read, a later year is later, and the
years 1971 to 2105 are within 32 bits.
-/
structure LocalTime where
  localtime : Int → Tm
  mktime : Tm → Int
  valid : ∀ time, (localtime time).Valid
  inverse : ∀ time, mktime (localtime time) = time
  seconds : ∀ tm, mktime { tm with sec := 0 } = mktime tm - tm.sec
  weekday : ∀ tm wday, mktime { tm with wday } = mktime tm
  later
    : ∀ tm tm' : Tm, tm.Valid → tm'.Valid → tm.sec = 0 → tm'.sec = 0 → tm.year < tm'.year →
        mktime tm < mktime tm'
  range
    : ∀ tm : Tm, tm.Valid → 71 ≤ tm.year → tm.year < 206 →
        0 < mktime tm ∧ mktime tm < 0x100000000

-- The Gregorian calendar

namespace Gregorian

def eraDays : Int := 146097

def splitEra (doe : Int) : Int × Int :=
  let century := min (doe / 36524) 3
  let quad := (doe - century * 36524) / 1461
  let year := min ((doe - century * 36524 - quad * 1461) / 365) 3
  (century * 100 + quad * 4 + year, doe - century * 36524 - quad * 1461 - year * 365)

def yearStart (yoe : Int) : Int := yoe * 365 + yoe / 4 - yoe / 100

theorem splitEra_spec {doe : Int} (low : 0 ≤ doe) (high : doe < eraDays)
    : 0 ≤ (splitEra doe).1 ∧ (splitEra doe).1 < 400
        ∧ 0 ≤ (splitEra doe).2 ∧ (splitEra doe).2 ≤ 365
        ∧ yearStart (splitEra doe).1 + (splitEra doe).2 = doe := by
  unfold eraDays at high
  unfold yearStart splitEra
  dsimp only
  generalize centuryIs : min (doe / 36524) 3 = century
  have first : 0 ≤ century ∧ century ≤ 3 ∧ 0 ≤ doe - century * 36524
      ∧ doe - century * 36524 ≤ 36524 := by omega
  generalize quadIs : (doe - century * 36524) / 1461 = quad
  have second : 0 ≤ quad ∧ quad ≤ 24 ∧ 0 ≤ doe - century * 36524 - quad * 1461
      ∧ doe - century * 36524 - quad * 1461 ≤ 1460 := by omega
  generalize yearIs : min ((doe - century * 36524 - quad * 1461) / 365) 3 = year
  have third : 0 ≤ year ∧ year ≤ 3 ∧ 0 ≤ doe - century * 36524 - quad * 1461 - year * 365
      ∧ doe - century * 36524 - quad * 1461 - year * 365 ≤ 365 := by omega
  have fours : (century * 100 + quad * 4 + year) / 4 = century * 25 + quad := by omega
  have hundreds : (century * 100 + quad * 4 + year) / 100 = century := by omega
  rw [fours, hundreds]
  omega

def monthStart (mon : Int) : Int := (153 * (if 2 ≤ mon then mon - 2 else mon + 10) + 2) / 5

def splitYear (doy : Int) : Int × Int :=
  let month := (5 * doy + 2) / 153
  (if month < 10 then month + 2 else month - 10, doy - (153 * month + 2) / 5 + 1)

theorem splitYear_spec {doy : Int} (low : 0 ≤ doy) (high : doy ≤ 365)
    : 0 ≤ (splitYear doy).1 ∧ (splitYear doy).1 < 12
        ∧ 1 ≤ (splitYear doy).2 ∧ (splitYear doy).2 ≤ 31
        ∧ monthStart (splitYear doy).1 + (splitYear doy).2 - 1 = doy := by
  unfold monthStart splitYear
  dsimp only
  generalize monthIs : (5 * doy + 2) / 153 = month
  split <;> omega

def daysOf (year mon mday : Int) : Int :=
  let year := if 2 ≤ mon then year + 1900 else year + 1899
  year / 400 * eraDays + yearStart (year % 400) + monthStart mon + mday - 1 - 719468

def dateOf (day : Int) : Int × Int × Int :=
  let day := day + 719468
  let year := splitEra (day % eraDays)
  let date := splitYear year.2
  (day / eraDays * 400 + year.1 - (if 2 ≤ date.1 then 1900 else 1899), date.1, date.2)

/-- The days to a date whose year is given by its era and the year of the era, from March on. -/
theorem daysOf_era {era yoe mon mday : Int} (low : 0 ≤ yoe) (high : yoe < 400)
    : daysOf (era * 400 + yoe - (if 2 ≤ mon then 1900 else 1899)) mon mday
      = era * eraDays + yearStart yoe + monthStart mon + mday - 1 - 719468 := by
  have same : (if 2 ≤ mon then era * 400 + yoe - (if 2 ≤ mon then 1900 else 1899) + 1900
        else era * 400 + yoe - (if 2 ≤ mon then 1900 else 1899) + 1899)
      = era * 400 + yoe := by
    split <;> omega
  have eraIs : (era * 400 + yoe) / 400 = era := by omega
  have yearIs : (era * 400 + yoe) % 400 = yoe := by omega
  unfold daysOf
  dsimp only
  rw [same, eraIs, yearIs]

theorem daysOf_dateOf (day : Int)
    : daysOf (dateOf day).1 (dateOf day).2.1 (dateOf day).2.2 = day := by
  have low : 0 ≤ (day + 719468) % eraDays := Int.emod_nonneg _ (by decide)
  have high : (day + 719468) % eraDays < eraDays := Int.emod_lt_of_pos _ (by decide)
  obtain ⟨yearLow, yearHigh, dayLow, dayHigh, era⟩ := splitEra_spec low high
  obtain ⟨-, -, -, -, date⟩ := splitYear_spec dayLow dayHigh
  have whole : (day + 719468) / eraDays * eraDays + (day + 719468) % eraDays = day + 719468 :=
    Int.ediv_mul_add_emod _ _
  unfold dateOf
  dsimp only
  rw [daysOf_era yearLow yearHigh]
  omega

/-- A date of an earlier year is an earlier day. -/
theorem daysOf_lt {year mon mday year' mon' mday' : Int} (before : year < year')
    (month : 0 ≤ mon ∧ mon < 12) (day : mday ≤ 31) (month' : 0 ≤ mon' ∧ mon' < 12)
    (day' : 1 ≤ mday')
    : daysOf year mon mday < daysOf year' mon' mday' := by
  unfold daysOf yearStart monthStart eraDays
  dsimp only
  split <;> split <;> omega

def localtime (time : Int) : Tm where
  sec := time % 60
  min := time / 60 % 60
  hour := time / 3600 % 24
  mday := (dateOf (time / 86400)).2.2
  mon := (dateOf (time / 86400)).2.1
  year := (dateOf (time / 86400)).1
  wday := (time / 86400 + 4) % 7

def mktime (tm : Tm) : Int :=
  daysOf tm.year tm.mon tm.mday * 86400 + tm.hour * 3600 + tm.min * 60 + tm.sec

def utc : LocalTime where
  localtime := localtime
  mktime := mktime
  valid time := by
    have low : 0 ≤ (time / 86400 + 719468) % eraDays := Int.emod_nonneg _ (by decide)
    have high : (time / 86400 + 719468) % eraDays < eraDays := Int.emod_lt_of_pos _ (by decide)
    obtain ⟨-, -, dayLow, dayHigh, -⟩ := splitEra_spec low high
    obtain ⟨monLow, monHigh, mdayLow, mdayHigh, -⟩ := splitYear_spec dayLow dayHigh
    refine ⟨?_, ?_, ?_, ⟨mdayLow, mdayHigh⟩, ⟨monLow, monHigh⟩, ?_⟩ <;>
      simp only [localtime] <;> omega
  inverse time := by
    unfold mktime localtime
    dsimp only
    rw [daysOf_dateOf]
    omega
  seconds tm := by
    unfold mktime
    dsimp only
    omega
  weekday _ _ := rfl
  later tm tm' valid valid' whole whole' before := by
    have days := daysOf_lt before valid.mon valid.mday.2 valid'.mon valid'.mday.1
    obtain ⟨-, min, hour, -, -, -⟩ := valid
    obtain ⟨-, min', hour', -, -, -⟩ := valid'
    unfold mktime
    omega
  range tm valid low high := by
    have after : daysOf 70 11 31 < daysOf tm.year tm.mon tm.mday :=
      daysOf_lt (by omega) (by decide) (by decide) valid.mon valid.mday.1
    have before : daysOf tm.year tm.mon tm.mday < daysOf 206 0 1 :=
      daysOf_lt high valid.mon valid.mday.2 (by decide) (by decide)
    have first : daysOf 70 11 31 = 364 := by decide
    have last : daysOf 206 0 1 = 49673 := by decide
    obtain ⟨sec, min, hour, -, -, -⟩ := valid
    unfold mktime
    omega

end Gregorian

end Foundation
