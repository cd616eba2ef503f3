import Mathlib.Data.Int.Init
import Mathlib.Tactic.Common

/-!
# The Gregorian calendar

Days are numbered from the first of January 1970, and the calendar is carried on in both directions.

* `yearStart`, `monthStart` — the days before a year, and before a month of it.
* `yearStart_succ`, `yearStart_cycle` — a year behind the other, and the cycle of 400 years.
* `dayNumber_unique` — two dates with the same number are the same date.
* `SameCalendar` — two years with the same days of the week.
-/

namespace Luan

namespace Gregorian

/-! ## Years -/

def IsLeap (y : ℤ) : Prop := y % 400 = 0 ∨ (y % 4 = 0 ∧ y % 100 ≠ 0)

instance (y : ℤ) : Decidable (IsLeap y) := inferInstanceAs (Decidable (_ ∨ _))

def yearLength (y : ℤ) : ℤ := if IsLeap y then 366 else 365

/-- The number of the first of January. -/
def yearStart (y : ℤ) : ℤ := 365 * (y - 1970) + (y - 1) / 4 - (y - 1) / 100 + (y - 1) / 400 - 477

lemma yearLength_le (y : ℤ) : yearLength y ≤ 366 := by
  rw [yearLength]
  split_ifs <;> omega

lemma le_yearLength (y : ℤ) : 365 ≤ yearLength y := by
  rw [yearLength]
  split_ifs <;> omega

lemma yearStart_succ (y : ℤ) : yearStart (y + 1) = yearStart y + yearLength y := by
  simp only [yearStart, yearLength, IsLeap]
  split_ifs <;> omega

/-- A cycle of 400 years has 146097 days. -/
lemma yearStart_cycle (y k : ℤ) : yearStart (y + 400 * k) = yearStart y + 146097 * k := by
  simp only [yearStart]
  omega

lemma isLeap_cycle (y k : ℤ) : IsLeap (y + 400 * k) ↔ IsLeap y := by
  simp only [IsLeap]
  omega

lemma yearLength_cycle (y k : ℤ) : yearLength (y + 400 * k) = yearLength y := by
  simp only [yearLength, isLeap_cycle]

lemma yearStart_lt {y y' : ℤ} (h : y < y') : yearStart y + yearLength y ≤ yearStart y' := by
  rw [← yearStart_succ]
  simp only [yearStart]
  omega

lemma yearStart_inj {y y' : ℤ} : yearStart y = yearStart y' ↔ y = y' := by
  constructor
  · intro h
    have hpos := le_yearLength y
    have hpos' := le_yearLength y'
    rcases Int.lt_trichotomy y y' with hlt | heq | hgt
    · have := yearStart_lt hlt
      omega
    · exact heq
    · have := yearStart_lt hgt
      omega
  · intro h
    rw [h]

/-- A day lies in one year. -/
lemma year_unique {y y' n : ℤ} (h : yearStart y ≤ n) (hend : n < yearStart y + yearLength y)
    (h' : yearStart y' ≤ n) (hend' : n < yearStart y' + yearLength y') : y = y' := by
  rcases Int.lt_trichotomy y y' with hlt | heq | hgt
  · have := yearStart_lt hlt
    omega
  · exact heq
  · have := yearStart_lt hgt
    omega

/-! ## Months -/

/-- The months of a year, from 0 on. -/
def monthLength (y : ℤ) (m : ℕ) : ℤ :=
  if m = 1 then (if IsLeap y then 29 else 28)
  else if m = 3 ∨ m = 5 ∨ m = 8 ∨ m = 10 then 30
  else 31

/-- The days of the year before the month. -/
def monthStart (y : ℤ) : ℕ → ℤ
  | 0 => 0
  | m + 1 => monthStart y m + monthLength y m

lemma monthLength_pos (y : ℤ) (m : ℕ) : 0 < monthLength y m := by
  rw [monthLength]
  split_ifs <;> omega

lemma monthLength_le (y : ℤ) (m : ℕ) : monthLength y m ≤ 31 := by
  rw [monthLength]
  split_ifs <;> omega

/-- Twelve months are a year. -/
lemma monthStart_twelve (y : ℤ) : monthStart y 12 = yearLength y := by
  by_cases h : IsLeap y <;> simp [monthStart, monthLength, yearLength, h]

lemma monthStart_le {y : ℤ} {m m' : ℕ} (h : m ≤ m') : monthStart y m ≤ monthStart y m' := by
  induction m' with
  | zero =>
      obtain rfl := Nat.le_zero.mp h
      exact Int.le_refl _
  | succ m' ih =>
      rcases Nat.lt_or_eq_of_le h with hlt | rfl
      · have hle := ih (Nat.le_of_lt_succ hlt)
        have hpos := monthLength_pos y m'
        rw [monthStart]
        omega
      · exact Int.le_refl _

lemma monthStart_nonneg (y : ℤ) (m : ℕ) : 0 ≤ monthStart y m := monthStart_le (Nat.zero_le m)

/-- A day of the year lies in one month. -/
lemma month_unique {y n : ℤ} {m m' : ℕ} (h : monthStart y m ≤ n)
    (hend : n < monthStart y m + monthLength y m) (h' : monthStart y m' ≤ n)
    (hend' : n < monthStart y m' + monthLength y m') : m = m' := by
  rcases Nat.lt_trichotomy m m' with hlt | heq | hgt
  · have hle := monthStart_le (y := y) (Nat.succ_le_of_lt hlt)
    rw [monthStart] at hle
    omega
  · exact heq
  · have hle := monthStart_le (y := y) (Nat.succ_le_of_lt hgt)
    rw [monthStart] at hle
    omega

/-! ## Dates -/

/-- A date: the days of a month begin with 1. -/
structure Date where
  year : ℤ
  month : ℕ
  day : ℤ
  month_lt : month < 12
  day_pos : 1 ≤ day
  day_le : day ≤ monthLength year month

namespace Date

/-- The days of the year before the date. -/
def dayOfYear (d : Date) : ℤ := monthStart d.year d.month + d.day - 1

def dayNumber (d : Date) : ℤ := yearStart d.year + d.dayOfYear

lemma dayOfYear_nonneg (d : Date) : 0 ≤ d.dayOfYear := by
  have hmonth := monthStart_nonneg d.year d.month
  have hday := d.day_pos
  rw [dayOfYear]
  omega

lemma dayOfYear_lt (d : Date) : d.dayOfYear < yearLength d.year := by
  have hmonth := monthStart_le (y := d.year) (Nat.succ_le_of_lt d.month_lt)
  have hday := d.day_le
  rw [monthStart_twelve, monthStart] at hmonth
  rw [dayOfYear]
  omega

/-- **A day has one date.** -/
theorem dayNumber_unique {d d' : Date} (h : d.dayNumber = d'.dayNumber) : d = d' := by
  have hnonneg := d.dayOfYear_nonneg
  have hlt := d.dayOfYear_lt
  have hnonneg' := d'.dayOfYear_nonneg
  have hlt' := d'.dayOfYear_lt
  simp only [dayNumber] at h
  have hyear : d.year = d'.year :=
    year_unique (n := yearStart d.year + d.dayOfYear) (by omega) (by omega) (by omega) (by omega)
  have hof : d.dayOfYear = d'.dayOfYear := by
    rw [hyear] at h
    omega
  have hpos := d.day_pos
  have hle := d.day_le
  have hpos' := d'.day_pos
  have hle' := d'.day_le
  simp only [dayOfYear, hyear] at hof
  rw [hyear] at hle
  have hmonth : d.month = d'.month :=
    month_unique (y := d'.year) (n := monthStart d'.year d.month + d.day - 1)
      (by omega) (by omega) (by omega) (by omega)
  have hday : d.day = d'.day := by
    rw [hmonth] at hof
    omega
  cases d
  cases d'
  simp only [Date.mk.injEq]
  exact ⟨hyear, hmonth, hday⟩

/-- The first day of a year is in its first month. -/
lemma month_first {d : Date} (h : d.dayOfYear = 0) : d.month = 0 := by
  have hpos := d.day_pos
  rw [dayOfYear] at h
  rcases Nat.eq_zero_or_pos d.month with hzero | hlate
  · exact hzero
  · have hle := @monthStart_le d.year _ _ (Nat.succ_le_of_lt hlate)
    have hjanuary : monthStart d.year (Nat.succ 0) = 31 := rfl
    omega

/-- The last day of a year is in its last month. -/
lemma month_last {d : Date} (h : d.dayOfYear + 1 = yearLength d.year) : d.month = 11 := by
  have hday := d.day_le
  have hmonth := d.month_lt
  rw [dayOfYear] at h
  rcases Nat.lt_or_ge d.month 11 with hearly | hlate
  · have hle := @monthStart_le d.year _ _ (Nat.succ_le_of_lt hearly)
    have htwelve := monthStart_twelve d.year
    have hpos := monthLength_pos d.year 11
    rw [monthStart] at hle htwelve
    omega
  · omega

/-- The next day is in another year only at the end of one. -/
lemma next_year {d d' : Date} (h : d'.dayNumber ≤ d.dayNumber + 1) (hyear : d.year < d'.year) :
    d'.year = d.year + 1 ∧ d.month = 11 ∧ d'.month = 0 := by
  have hstart := yearStart_lt hyear
  have hsucc := yearStart_succ d.year
  have hlt := d.dayOfYear_lt
  have hnonneg' := d'.dayOfYear_nonneg
  have hlt' := d'.dayOfYear_lt
  have hlength := le_yearLength (d.year + 1)
  simp only [dayNumber] at h
  refine ⟨?_, month_last (by omega), month_first (by omega)⟩
  exact @year_unique _ _ (yearStart d'.year) (by omega) (by omega) (by omega) (by omega)

/-- Within a year, the next day is at most in the next month. -/
lemma next_month {d d' : Date} (h : d'.dayNumber ≤ d.dayNumber + 1) (hyear : d.year = d'.year) :
    d'.month ≠ d.month + 11 := by
  intro hmonth
  have hlt := d'.month_lt
  have hday := d.day_le
  have hpos := d'.day_pos
  have hfirst : d.month = 0 := by omega
  have hlast : d'.month = 11 := by omega
  have hlength := monthLength_le d.year 0
  have hmonths := @monthStart_le d.year 2 11 (by decide)
  have hseconds : monthStart d.year 2 = 31 + monthLength d.year 1 := rfl
  have hle := monthLength_pos d.year 1
  simp only [dayNumber, dayOfYear, ← hyear, hfirst, hlast, monthStart] at h hday hmonths
  omega

end Date

/-! ## The days of the week -/

/-- The day of the week, from Sunday on. -/
def weekday (n : ℤ) : ℤ := (n + 4) % 7

/-- The year begins on the same day of the week, and it has as many days. -/
structure SameCalendar (y y' : ℤ) : Prop where
  leap : IsLeap y ↔ IsLeap y'
  start : weekday (yearStart y) = weekday (yearStart y')

instance (y y' : ℤ) : Decidable (SameCalendar y y') :=
  decidable_of_iff ((IsLeap y ↔ IsLeap y') ∧ weekday (yearStart y) = weekday (yearStart y'))
    ⟨fun h => ⟨h.1, h.2⟩, fun h => ⟨h.leap, h.start⟩⟩

/-- 146097 days are whole weeks. -/
lemma sameCalendar_cycle (y k : ℤ) : SameCalendar (y + 400 * k) y := by
  refine ⟨isLeap_cycle y k, ?_⟩
  rw [yearStart_cycle, weekday, weekday]
  omega

lemma SameCalendar.trans {y y' y'' : ℤ} (h : SameCalendar y y') (h' : SameCalendar y' y'') :
    SameCalendar y y'' :=
  ⟨h.leap.trans h'.leap, h.start.trans h'.start⟩

lemma SameCalendar.symm {y y' : ℤ} (h : SameCalendar y y') : SameCalendar y' y :=
  ⟨h.leap.symm, h.start.symm⟩

lemma SameCalendar.monthLength {y y' : ℤ} (h : SameCalendar y y') (m : ℕ) :
    monthLength y m = Gregorian.monthLength y' m := by
  simp only [Gregorian.monthLength, h.leap]

lemma SameCalendar.monthStart {y y' : ℤ} (h : SameCalendar y y') (m : ℕ) :
    monthStart y m = Gregorian.monthStart y' m := by
  induction m with
  | zero => rfl
  | succ m ih => rw [Gregorian.monthStart, Gregorian.monthStart, ih, h.monthLength]

lemma SameCalendar.yearLength {y y' : ℤ} (h : SameCalendar y y') :
    yearLength y = Gregorian.yearLength y' := by
  simp only [Gregorian.yearLength, h.leap]

end Gregorian

end Luan
