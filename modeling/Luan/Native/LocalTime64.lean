import Luan.Native.Time64

/-!
# Local times beyond 32 bits

`localtime64_r` and `mktime64` of `lua-apple/utlua/time64.c` ask the system about a year that it
knows, and put the year back.  The system's `localtime_r` and `mktime` are parameters.

* `safeYear_spec` — the year that is asked about has the same calendar, and so has the year before.
* `localtime64R_tells` — the local date is that of the offset at the safe time, across the ends of a
  year, too.
* `mktime64_iff` — the seconds between the years make up for the safe year exactly if the system
  does not carry the date over into another year.
-/

namespace Luan

open Gregorian

/-! ## Safe years -/

/-- `MIN_SAFE_YEAR` -/
def minSafeYear : ℤ := 1971

/-- `MAX_SAFE_YEAR` -/
def maxSafeYear : ℤ := 2037

def safeYearsHigh : List ℤ :=
  [2016, 2017, 2018, 2019, 2020, 2021, 2022, 2023, 2024, 2025, 2026, 2027, 2028, 2029,
   2030, 2031, 2032, 2033, 2034, 2035, 2036, 2037, 2010, 2011, 2012, 2013, 2014, 2015]

def safeYearsLow : List ℤ :=
  [1996, 1997, 1998, 1971, 1972, 1973, 1974, 1975, 1976, 1977, 1978, 1979, 1980, 1981,
   1982, 1983, 1984, 1985, 1986, 1987, 1988, 1989, 1990, 1991, 1992, 1993, 1994, 1995]

/-- `is_exception_century` -/
def isExceptionCentury (year : ℤ) : Bool := year.tmod 100 = 0 && year.tmod 400 ≠ 0

def cycleOffset (year : ℤ) : ℤ :=
  let yearDiff := year - 2000
  let yearDiff := if year > 2000 then yearDiff - 1 else yearDiff
  (yearDiff.tdiv 100 - yearDiff.tdiv 400) * 16

/-- `year_cycle`, before it is an index. -/
def yearCycle (year : ℤ) : ℤ :=
  let cycle := year + cycleOffset year
  let cycle := if year < minSafeYear then cycle - 8 else cycle
  let cycle := if isExceptionCentury year then cycle + 11 else cycle
  if isExceptionCentury (year - 1) then cycle + 17 else cycle

def safeYear (year : ℤ) : CRun ℤ :=
  if minSafeYear ≤ year ∧ year ≤ maxSafeYear then .done year
  else
    let cycle := (yearCycle year).tmod 28
    let cycle := if cycle < 0 then 28 + cycle else cycle
    (tableAt (if year < minSafeYear then safeYearsLow else safeYearsHigh) cycle).bind fun safe =>
      if safe ≤ maxSafeYear ∧ minSafeYear ≤ safe then .done safe else .undefined

/-- A year that the system can be asked about in the place of another one. -/
structure SafeFor (year safe : ℤ) : Prop where
  range : minSafeYear ≤ safe ∧ safe ≤ maxSafeYear
  same : SameCalendar safe year
  previous : SameCalendar (safe - 1) (year - 1)

instance (year safe : ℤ) : Decidable (SafeFor year safe) :=
  decidable_of_iff ((minSafeYear ≤ safe ∧ safe ≤ maxSafeYear) ∧ SameCalendar safe year
      ∧ SameCalendar (safe - 1) (year - 1))
    ⟨fun h => ⟨h.1, h.2.1, h.2.2⟩, fun h => ⟨h.range, h.same, h.previous⟩⟩

section Cycles

variable {year k : ℤ}

lemma isExceptionCentury_iff :
    isExceptionCentury year = true ↔ year % 100 = 0 ∧ year % 400 ≠ 0 := by
  simp only [isExceptionCentury, tmod_eq, Bool.and_eq_true, decide_eq_true_eq]
  split_ifs <;> omega

lemma isExceptionCentury_cycle : isExceptionCentury (year + 400 * k) = isExceptionCentury year := by
  rw [Bool.eq_iff_iff, isExceptionCentury_iff, isExceptionCentury_iff]
  omega

/-- 400 years have three centuries that do not end with a leap year. -/
lemma cycleOffset_up (h : 2000 < year) (hk : 0 ≤ k) :
    cycleOffset (year + 400 * k) = cycleOffset year + 48 * k := by
  have hend : 2000 < year + 400 * k := by omega
  simp only [cycleOffset]
  rw [if_pos hend, if_pos h]
  simp only [tdiv_eq]
  split_ifs <;> omega

lemma cycleOffset_down (h : year ≤ 2000) (hk : 0 ≤ k) :
    cycleOffset (year - 400 * k) = cycleOffset year - 48 * k := by
  have hend : ¬ year - 400 * k > 2000 := by omega
  have hstart : ¬ year > 2000 := by omega
  simp only [cycleOffset]
  rw [if_neg hend, if_neg hstart]
  simp only [tdiv_eq]
  split_ifs <;> omega

/-- They are 16 turns of the 28 years. -/
lemma yearCycle_up (h : maxSafeYear < year) (hk : 0 ≤ k) :
    yearCycle (year + 400 * k) = yearCycle year + 448 * k := by
  simp only [maxSafeYear] at h
  have hoffset := @cycleOffset_up year k (by omega) hk
  have hless : (year + 400 * k < minSafeYear) ↔ year < minSafeYear := by
    simp only [minSafeYear]
    omega
  rw [yearCycle, yearCycle, show year + 400 * k - 1 = year - 1 + 400 * k by omega]
  simp only [isExceptionCentury_cycle, hoffset, hless]
  split_ifs <;> omega

lemma yearCycle_down (h : year < minSafeYear) (hk : 0 ≤ k) :
    yearCycle (year - 400 * k) = yearCycle year - 448 * k := by
  simp only [minSafeYear] at h
  have hoffset := @cycleOffset_down year k (by omega) hk
  have hless : (year - 400 * k < minSafeYear) ↔ year < minSafeYear := by
    simp only [minSafeYear]
    omega
  have hcentury := @isExceptionCentury_cycle year (-k)
  have hbefore := @isExceptionCentury_cycle (year - 1) (-k)
  rw [show year + 400 * -k = year - 400 * k by omega] at hcentury
  rw [show year - 1 + 400 * -k = year - 400 * k - 1 by omega] at hbefore
  rw [yearCycle, yearCycle]
  simp only [hcentury, hbefore, hoffset, hless]
  split_ifs <;> omega

end Cycles

/-- The index into the table, and what stands there. -/
def safeYearOf (year : ℤ) : ℤ :=
  let table := if year < minSafeYear then safeYearsLow else safeYearsHigh
  table[(yearCycle year % 28).toNat]?.getD 0

lemma safeYear_high (r : Fin 400) : SafeFor (2038 + r) (safeYearOf (2038 + r)) := by
  revert r
  decide +kernel

lemma safeYear_low (r : Fin 400) : SafeFor (1970 - r) (safeYearOf (1970 - r)) := by
  revert r
  decide +kernel

/-- The years of one cycle stand for all of them. -/
lemma safeFor_cycle {year safe k : ℤ} (h : SafeFor year safe) : SafeFor (year + 400 * k) safe := by
  refine ⟨h.range, h.same.trans (sameCalendar_cycle year k).symm, ?_⟩
  rw [show year + 400 * k - 1 = year - 1 + 400 * k by omega]
  exact h.previous.trans (sameCalendar_cycle (year - 1) k).symm

lemma safeYearOf_safe {year : ℤ} (h : year < minSafeYear ∨ maxSafeYear < year) :
    SafeFor year (safeYearOf year) := by
  simp only [minSafeYear, maxSafeYear] at h
  rcases h with hlow | hhigh
  · obtain ⟨r, k, hk, hr⟩ : ∃ r : Fin 400, ∃ k : ℤ, 0 ≤ k ∧ year = 1970 - r - 400 * k :=
      ⟨⟨((1970 - year) % 400).toNat, by omega⟩, (1970 - year) / 400, by omega, by
        simp only
        omega⟩
    have hcycle := @yearCycle_down (1970 - (r : ℤ)) k
      (by simp only [minSafeYear]; omega) hk
    have hsafe : safeYearOf year = safeYearOf (1970 - r) := by
      have hless : 1970 - (r : ℤ) < minSafeYear := by
        simp only [minSafeYear]
        omega
      rw [safeYearOf, safeYearOf, hr, hcycle, if_pos (by omega), if_pos hless]
      congr 3
      omega
    rw [hsafe, hr, show 1970 - (r : ℤ) - 400 * k = 1970 - r + 400 * -k by omega]
    exact safeFor_cycle (safeYear_low r)
  · obtain ⟨r, k, hk, hr⟩ : ∃ r : Fin 400, ∃ k : ℤ, 0 ≤ k ∧ year = 2038 + r + 400 * k :=
      ⟨⟨((year - 2038) % 400).toNat, by omega⟩, (year - 2038) / 400, by omega, by
        simp only
        omega⟩
    have hcycle := @yearCycle_up (2038 + (r : ℤ)) k
      (by simp only [maxSafeYear]; omega) hk
    have hsafe : safeYearOf year = safeYearOf (2038 + r) := by
      have hless : ¬ 2038 + (r : ℤ) < minSafeYear := by
        simp only [minSafeYear]
        omega
      rw [safeYearOf, safeYearOf, hr, hcycle, if_neg (by omega), if_neg hless]
      congr 3
      omega
    rw [hsafe, hr]
    exact safeFor_cycle (safeYear_high r)

lemma tableAt_getD {table : List ℤ} {i : ℤ} (h : 0 ≤ i) (hlt : i.toNat < table.length) :
    tableAt table i = .done (table[i.toNat]?.getD 0) := by
  rw [tableAt, if_pos h, List.getElem?_eq_getElem hlt]
  rfl

lemma safeYear_eq (year : ℤ) : ∃ safe, safeYear year = .done safe ∧ SafeFor year safe := by
  by_cases hsafe : minSafeYear ≤ year ∧ year ≤ maxSafeYear
  · exact ⟨year, by rw [safeYear, if_pos hsafe], hsafe, ⟨Iff.rfl, rfl⟩, ⟨Iff.rfl, rfl⟩⟩
  · have hdated : SafeFor year (safeYearOf year) := safeYearOf_safe (by omega)
    have hcycle : (if (yearCycle year).tmod 28 < 0 then 28 + (yearCycle year).tmod 28
        else (yearCycle year).tmod 28) = yearCycle year % 28 := by
      rw [tmod_eq]
      split_ifs <;> omega
    have hlength : (if year < minSafeYear then safeYearsLow else safeYearsHigh).length = 28 := by
      split_ifs <;> rfl
    have hread := @tableAt_getD (if year < minSafeYear then safeYearsLow else safeYearsHigh)
      (yearCycle year % 28) (by omega) (by omega)
    refine ⟨safeYearOf year, ?_, hdated⟩
    simp only [safeYear, if_neg hsafe, hcycle, hread, CRun.done_bind]
    exact if_pos ⟨hdated.range.2, hdated.range.1⟩

/-- **`safe_year` finds a year that stands for any year**: neither its index nor its assertions
fail, the year found has the same days of the week and the same leap day, and so has the year
before it; the year behind it begins on the same day of the week. -/
theorem safeYear_spec (year : ℤ) : ∃ safe, safeYear year = .done safe ∧ SafeFor year safe
    ∧ weekday (yearStart (safe + 1)) = weekday (yearStart (year + 1)) := by
  obtain ⟨safe, hrun, h⟩ := safeYear_eq year
  refine ⟨safe, hrun, h, ?_⟩
  have hstart := h.same.start
  rw [yearStart_succ, yearStart_succ, h.same.yearLength]
  simp only [weekday] at hstart ⊢
  omega

/-! ## Local times -/

/-- `localtime64_r`; a date that the system does not tell is read all the same if the system's
range is thought to hold it. -/
def localtime64R (localtimeR : ℤ → Option Tm) (time : ℤ) : CRun (Option Tm) :=
  if time ≤ 2147483647 ∧ -2147483648 ≤ time then
    match localtimeR time with
    | none => .undefined
    | some safeDate => if checkTm safeDate then .done (some safeDate) else .undefined
  else
    (gmtime64R time).bind fun
      | none => .done none
      | some gmTm =>
          let origYear := gmTm.year
          let safe : CRun ℤ :=
            if gmTm.year > 2037 - 1900 ∨ gmTm.year < 1970 - 1900 then safeYear (gmTm.year + 1900)
            else .done (gmTm.year + 1900)
          safe.bind fun year =>
            let gmTm := { gmTm with year := year - 1900 }
            (timegm64 gmTm).bind fun safeTime =>
              match localtimeR safeTime with
              | none => .done none
              | some safeDate =>
                  let monthDiff := safeDate.mon - gmTm.mon
                  let year := if monthDiff = 11 then origYear - 1 else origYear
                  let year := if monthDiff = -11 then year + 1 else year
                  let yday :=
                    if !isLeap year && safeDate.yday = 365 then safeDate.yday - 1 else safeDate.yday
                  let localTm := { safeDate with year := year, yday := yday }
                  -- the year before and the year behind are sums of `int`s
                  if FitsInt year ∧ checkTm localTm then .done (some localTm) else .undefined

/-- What the system's `localtime_r` does in the range of its years: it tells the date at an offset
of less than a day. -/
structure SystemLocaltime (localtimeR : ℤ → Option Tm) (offset : ℤ → ℤ) : Prop where
  tells : ∀ time, FitsInt time → ∃ tm, localtimeR time = some tm ∧ tm.Says (time + offset time)
  offset_lt : ∀ time, -86400 < offset time ∧ offset time < 86400

/-- The time of the same date and time of day, in a year that the system knows. -/
def SafeTime (time safeTime : ℤ) : Prop :=
  ∃ gm : Tm, gm.Says time ∧ ∃ safe, SafeFor (gm.year + 1900) safe
    ∧ { gm with year := safe - 1900 }.Says safeTime

namespace Tm.Says

variable {tm tm' : Tm} {time time' y : ℤ}

/-- A date and a time of day, moved to another year: the days before its month are as many there,
and the year begins on the same day of the week. -/
lemma move (h : tm.Says time) (hmonth : tm.mon = 0 ∨ (IsLeap (tm.year + 1900) ↔ IsLeap (y + 1900)))
    (hweek : weekday (yearStart (tm.year + 1900)) = weekday (yearStart (y + 1900)))
    (htime : time' = time + (yearStart (y + 1900) - yearStart (tm.year + 1900)) * 86400) :
    { tm with year := y }.Says time' := by
  obtain ⟨d, hyear, hmon, hmday, hnumber, hyday⟩ := h.date
  have hdays : time' / 86400
      = time / 86400 + (yearStart (y + 1900) - yearStart (tm.year + 1900)) := by omega
  have hsame : monthStart d.year d.month = monthStart (y + 1900) d.month
      ∧ monthLength d.year d.month = monthLength (y + 1900) d.month := by
    rw [hyear]
    rcases hmonth with hfirst | hleap
    · rw [show d.month = 0 by omega]
      exact ⟨rfl, rfl⟩
    · have hcal : SameCalendar (tm.year + 1900) (y + 1900) := ⟨hleap, hweek⟩
      exact ⟨hcal.monthStart _, hcal.monthLength _⟩
  have hle := d.day_le
  rw [hsame.2] at hle
  refine ⟨⟨⟨y + 1900, d.month, d.day, d.month_lt, d.day_pos, hle⟩, rfl, hmon, hmday, ?_, ?_⟩, h.sec,
    h.min, h.hour, ?_, ?_⟩
  · rw [Date.dayNumber, Date.dayOfYear, hyear] at hnumber
    rw [Date.dayNumber, Date.dayOfYear, hdays, ← hnumber]
    simp only
    rw [← hsame.1, hyear]
    omega
  · rw [← hyday, Date.dayOfYear, Date.dayOfYear, hsame.1]
  · have hclock := h.clock
    simp only
    omega
  · have hwday := h.wday
    simp only [weekday] at hwday hweek ⊢
    omega

/-- The local date and the date at Greenwich, less than a day apart. -/
lemma near (h : tm.Says time) (h' : tm'.Says time') (hup : time' < time + 86400)
    (hdown : time < time' + 86400) :
    (tm'.year = tm.year ∧ tm'.mon - tm.mon ≠ 11 ∧ tm'.mon - tm.mon ≠ -11)
      ∨ (tm'.year = tm.year + 1 ∧ tm'.mon = 0 ∧ tm.mon = 11)
      ∨ (tm'.year = tm.year - 1 ∧ tm'.mon = 11 ∧ tm.mon = 0) := by
  obtain ⟨d, hyear, hmon, -, hnumber, -⟩ := h.date
  obtain ⟨d', hyear', hmon', -, hnumber', -⟩ := h'.date
  have hnext : d'.dayNumber ≤ d.dayNumber + 1 := by omega
  have hbefore : d.dayNumber ≤ d'.dayNumber + 1 := by omega
  rcases Int.lt_trichotomy d.year d'.year with hlt | heq | hgt
  · obtain ⟨hsucc, hlast, hfirst⟩ := Date.next_year hnext hlt
    omega
  · have hup := Date.next_month hnext heq
    have hdown := Date.next_month hbefore heq.symm
    omega
  · obtain ⟨hsucc, hlast, hfirst⟩ := Date.next_year hbefore hgt
    omega

end Tm.Says

/-- A time in the safe year. -/
lemma Tm.Says.toSafe {gm : Tm} {time safe : ℤ} (hgm : gm.Says time)
    (hsafe : SafeFor (gm.year + 1900) safe) :
    { gm with year := safe - 1900 }.Says
      (time + (yearStart safe - yearStart (gm.year + 1900)) * 86400) := by
  have hback : safe - 1900 + 1900 = safe := by omega
  refine hgm.move (Or.inr ?_) ?_ ?_
  · rw [hback]
    exact hsafe.same.leap.symm
  · rw [hback]
    exact hsafe.same.start.symm
  · rw [hback]

/-- **The year is put back** behind the system's local date, one off it at the ends of the year. -/
lemma Tm.Says.putBack {gm safeDate : Tm} {time safe offset : ℤ} (hgm : gm.Says time)
    (hsafe : SafeFor (gm.year + 1900) safe)
    (hlocal : safeDate.Says
      (time + (yearStart safe - yearStart (gm.year + 1900)) * 86400 + offset))
    (hoffset : -86400 < offset ∧ offset < 86400) {monthDiff : ℤ}
    (hdiff : monthDiff = safeDate.mon - gm.mon) :
    ∃ year, (if monthDiff = -11 then (if monthDiff = 11 then gm.year - 1 else gm.year) + 1
        else if monthDiff = 11 then gm.year - 1 else gm.year) = year
      ∧ gm.year - 1 ≤ year ∧ year ≤ gm.year + 1
      ∧ { safeDate with year := year }.Says (time + offset) := by
  have hstart := hsafe.same.start
  have hnear := (hgm.toSafe hsafe).near hlocal (by omega) (by omega)
  simp only at hnear
  refine ⟨_, rfl, ?_, ?_, ?_⟩
  · split_ifs <;> omega
  · split_ifs <;> omega
  · rcases hnear with ⟨hyear, hno, hno'⟩ | ⟨hyear, hmon, hmon'⟩ | ⟨hyear, hmon, hmon'⟩
    · have hsame : safeDate.year + 1900 = safe := by omega
      rw [if_neg (by omega), if_neg (by omega)]
      refine hlocal.move (Or.inr ?_) ?_ ?_
      · rw [hsame]
        exact hsafe.same.leap
      · rw [hsame]
        exact hstart
      · rw [hsame]
        omega
    · have hsame : safeDate.year + 1900 = safe + 1 := by omega
      have hsucc := yearStart_succ safe
      have hsucc' := yearStart_succ (gm.year + 1900)
      have hlength := hsafe.same.yearLength
      rw [if_pos (by omega), if_neg (by omega)]
      have hput : gm.year + 1 + 1900 = gm.year + 1900 + 1 := by omega
      refine hlocal.move (Or.inl hmon) ?_ ?_
      · rw [hsame, hput, hsucc, hsucc']
        simp only [weekday] at hstart ⊢
        omega
      · rw [hsame, hput]
        omega
    · have hsame : safeDate.year + 1900 = safe - 1 := by omega
      have hput : gm.year - 1 + 1900 = gm.year + 1900 - 1 := by omega
      have hsucc := yearStart_succ (safe - 1)
      have hsucc' := yearStart_succ (gm.year + 1900 - 1)
      have hlength := hsafe.previous.yearLength
      rw [show safe - 1 + 1 = safe by omega] at hsucc
      rw [show gm.year + 1900 - 1 + 1 = gm.year + 1900 by omega] at hsucc'
      rw [if_neg (by omega), if_pos (by omega)]
      refine hlocal.move (Or.inr ?_) ?_ ?_
      · rw [hsame, hput]
        exact hsafe.previous.leap
      · rw [hsame, hput]
        exact hsafe.previous.start
      · rw [hsame, hput]
        omega

/-- The last day of a year that is no leap year is its 364th: the correction behind the year never
has anything to do. -/
lemma Tm.Says.yday_ne {tm : Tm} {time : ℤ} (h : tm.Says time) :
    (!isLeap tm.year && tm.yday = 365) = false := by
  obtain ⟨d, hyear, -, -, -, hyday⟩ := h.date
  have hlt := d.dayOfYear_lt
  rw [hyear, ← lengthOfYear_eq] at hlt
  cases hleap : isLeap tm.year
  · rw [hleap] at hlt
    simp only [lengthOfYear] at hlt
    simp only [Bool.not_false, Bool.true_and, decide_eq_false_iff_not]
    omega
  · rfl

lemma safeTime_fits {gm : Tm} {safe safeTime : ℤ} (hsafe : SafeFor (gm.year + 1900) safe)
    (hdated : { gm with year := safe - 1900 }.Says safeTime) : FitsInt safeTime := by
  obtain ⟨d, hyear, -, -, hnumber, -⟩ := hdated.date
  have hnonneg := d.dayOfYear_nonneg
  have hlt := d.dayOfYear_lt
  have hlength := yearLength_le d.year
  have hmin := hsafe.range.1
  have hmax := hsafe.range.2
  simp only [minSafeYear, maxSafeYear] at hmin hmax
  simp only [Date.dayNumber, yearStart] at hnumber
  simp only at hyear
  rw [FitsInt]
  omega

/-- The assertions of the year, which a time of 32 bits passes. -/
lemma Tm.Says.year_fits {tm : Tm} {time : ℤ} (h : tm.Says time)
    (hmin : -2147570048 ≤ time) (hmax : time ≤ 2147570047) :
    FitsInt tm.year ∧ FitsInt (tm.year + 1900) := by
  obtain ⟨d, hyear, -, -, hnumber, -⟩ := h.date
  have hnonneg := d.dayOfYear_nonneg
  have hlt := d.dayOfYear_lt
  have hlength := yearLength_le d.year
  simp only [Date.dayNumber, yearStart] at hnumber
  simp only [FitsInt]
  omega

/-- Where the system is not asked about the time itself. -/
lemma Tm.Says.outside {gm : Tm} {time : ℤ} (h : gm.Says time) (hout : ¬ FitsInt time) :
    gm.year > 2037 - 1900 ∨ gm.year < 1970 - 1900 := by
  obtain ⟨d, hyear, -, -, hnumber, -⟩ := h.date
  have hnonneg := d.dayOfYear_nonneg
  have hlt := d.dayOfYear_lt
  have hlength := yearLength_le d.year
  simp only [Date.dayNumber, yearStart, hyear] at hnumber
  rw [hyear] at hlt hlength
  rw [FitsInt] at hout
  omega

/-- In the range of the system, the date is the system's. -/
lemma localtime64R_inside {localtimeR : ℤ → Option Tm} {offset : ℤ → ℤ}
    (hsystem : SystemLocaltime localtimeR offset) {time : ℤ} (hfits : FitsInt time) :
    ∃ tm, localtime64R localtimeR time = .done (some tm) ∧ tm.Says (time + offset time) := by
  have hoffset := hsystem.offset_lt time
  obtain ⟨tm, htells, hdated⟩ := hsystem.tells time hfits
  have hcheck : checkTm tm = true := by
    rw [hdated.checkTm, decide_eq_true_iff]
    rw [FitsInt] at hfits
    exact (hdated.year_fits (by omega) (by omega)).2
  refine ⟨tm, ?_, hdated⟩
  rw [localtime64R, if_pos ⟨hfits.2, hfits.1⟩, htells]
  exact if_pos hcheck

/-- Outside of it, the system is asked about the safe year. -/
lemma localtime64R_outside {localtimeR : ℤ → Option Tm} {offset : ℤ → ℤ}
    (hsystem : SystemLocaltime localtimeR offset) {time : ℤ} (hfits : ¬ FitsInt time)
    (hyear : ∀ gm : Tm, gm.Says time → FitsInt (gm.year - 1) ∧ FitsInt (gm.year + 1 + 1900)) :
    ∃ tm safeTime, localtime64R localtimeR time = .done (some tm) ∧ SafeTime time safeTime
      ∧ FitsInt safeTime ∧ tm.Says (time + offset safeTime) := by
  obtain ⟨gm, hgm, -, hrun⟩ := gmtime64R_spec time
  obtain ⟨hbefore, hbehind⟩ := hyear gm hgm
  rw [FitsInt] at hbefore hbehind
  rw [if_pos (by rw [FitsInt]; omega), if_pos (by rw [FitsInt]; omega)] at hrun
  obtain ⟨safe, hsafeRun, hsafe⟩ := safeYear_eq (gm.year + 1900)
  have hto := hgm.toSafe hsafe
  obtain ⟨safeTime, hsafeTime⟩ : ∃ safeTime,
    time + (yearStart safe - yearStart (gm.year + 1900)) * 86400 = safeTime := ⟨_, rfl⟩
  rw [hsafeTime] at hto
  have htimegm : timegm64 { gm with year := safe - 1900 } = .done safeTime := timegm64_of_date hto
  have hsafeFits := safeTime_fits hsafe hto
  have hoffset := hsystem.offset_lt safeTime
  obtain ⟨safeDate, htells, hlocal⟩ := hsystem.tells safeTime hsafeFits
  rw [← hsafeTime] at hlocal
  obtain ⟨year, hput, hmin, hmax, hdated⟩ := hgm.putBack hsafe hlocal
    (by rw [hsafeTime]; exact hoffset) rfl
  rw [hsafeTime] at hdated
  have hyday := hdated.yday_ne
  have hcheck := hdated.checkTm
  rw [decide_eq_true (by rw [FitsInt]; simp only; omega)] at hcheck
  simp only at hyday
  have houtside : ¬ (time ≤ 2147483647 ∧ -2147483648 ≤ time) := by
    rw [FitsInt] at hfits
    omega
  refine ⟨{ safeDate with year := year }, safeTime, ?_, ⟨gm, hgm, safe, hsafe, hto⟩, hsafeFits,
    hdated⟩
  rw [localtime64R, if_neg houtside, hrun]
  simp only [CRun.done_bind, if_pos (hgm.outside hfits), hsafeRun, htimegm, htells, hput, hyday]
  rw [if_pos ⟨by rw [FitsInt]; omega, hcheck⟩]
  rfl

/-- **`localtime64_r` tells the local date** of every time whose year is not one of the last of an
`int`.  In the range of the system it is the system's; outside of it, it is the date and the time of
day of the time at the offset that the system knows for the same date in a safe year: year, day of
the year and day of the week are right at the ends of the year, too. -/
theorem localtime64R_tells {localtimeR : ℤ → Option Tm} {offset : ℤ → ℤ}
    (hsystem : SystemLocaltime localtimeR offset) {time : ℤ}
    (hyear : ∀ gm : Tm, gm.Says time → FitsInt (gm.year - 1) ∧ FitsInt (gm.year + 1 + 1900)) :
    ∃ tm safeTime, localtime64R localtimeR time = .done (some tm)
      ∧ (if FitsInt time then safeTime = time else SafeTime time safeTime)
      ∧ FitsInt safeTime ∧ tm.Says (time + offset safeTime) := by
  by_cases hfits : FitsInt time
  · obtain ⟨tm, hrun, hdated⟩ := localtime64R_inside hsystem hfits
    exact ⟨tm, time, hrun, by rw [if_pos hfits], hfits, hdated⟩
  · obtain ⟨tm, safeTime, hrun, hsafe, hsafeFits, hdated⟩ :=
      localtime64R_outside hsystem hfits hyear
    exact ⟨tm, safeTime, hrun, by rwa [if_neg hfits], hsafeFits, hdated⟩

/-- A system in a zone whose offset never changes. -/
def fixedZone (offset time : ℤ) : Option Tm :=
  match gmtime64R (time + offset) with
  | .done tm => tm
  | _ => none

lemma fixedZone_tells {offset : ℤ} (h : -86400 < offset ∧ offset < 86400) :
    SystemLocaltime (fixedZone offset) fun _ => offset := by
  refine ⟨fun time hfits => ?_, fun _ => h⟩
  obtain ⟨tm, hdated, -, hrun⟩ := gmtime64R_spec (time + offset)
  rw [FitsInt] at hfits
  obtain ⟨hyear, hsum⟩ := hdated.year_fits (by omega) (by omega)
  rw [if_pos hyear, if_pos hsum] at hrun
  refine ⟨tm, ?_, hdated⟩
  unfold fixedZone
  rw [hrun]

/-- The last half an hour of 2099 is in 2100 an hour to the east. -/
theorem localtime64R_tells_2100 :
    ∃ tm safeTime, localtime64R (fixedZone 3600) 4102443000 = .done (some tm)
      ∧ (if FitsInt 4102443000 then safeTime = 4102443000 else SafeTime 4102443000 safeTime)
      ∧ FitsInt safeTime ∧ tm.Says (4102443000 + 3600) := by
  have hdated : Tm.Says ⟨0, 30, 23, 31, 11, 199, 4, 364, 0⟩ 4102443000 := by
    refine ⟨⟨⟨2099, 11, 31, by decide, by decide, by decide⟩, rfl, rfl, rfl, ?_, ?_⟩,
      ?_, ?_, ?_, ?_, ?_⟩ <;> decide
  refine localtime64R_tells (fixedZone_tells (by decide)) fun gm hgm => ?_
  rw [hgm.year_eq hdated]
  decide

/-! ## From a local date to a time -/

def cmpDate (left right : Tm) : ℤ :=
  if left.year > right.year then 1
  else if left.year < right.year then -1
  else if left.mon > right.mon then 1
  else if left.mon < right.mon then -1
  else if left.mday > right.mday then 1
  else if left.mday < right.mday then -1
  else if left.hour > right.hour then 1
  else if left.hour < right.hour then -1
  else if left.min > right.min then 1
  else if left.min < right.min then -1
  else if left.sec > right.sec then 1
  else if left.sec < right.sec then -1
  else 0

def dateInSafeRange (date min max : Tm) : Bool :=
  if cmpDate date min = -1 then false
  else if cmpDate date max = 1 then false
  else true

/-- `SYSTEM_MKTIME_MAX` -/
def systemMktimeMax : Tm := ⟨7, 14, 19, 18, 0, 138, 1, 17, 0⟩

/-- `SYSTEM_MKTIME_MIN` -/
def systemMktimeMin : Tm := ⟨52, 45, 12, 13, 11, 1, 5, 346, 0⟩

/-- `while (left_year != right_year)`: a `right_year` on the wrong side runs out of its type. -/
def addYears (up : Bool) (leftYear rightYear seconds : ℤ) : CRun ℤ :=
  let increment : ℤ := if up then 1 else -1
  if leftYear = rightYear then .done seconds
  else if (up ∧ leftYear < rightYear) ∨ (!up ∧ rightYear < leftYear) then .undefined
  else
    addYears up leftYear (rightYear + increment)
      (seconds + lengthOfYear (isLeap (rightYear - 1900)) * 60 * 60 * 24)
termination_by (leftYear - rightYear).natAbs
decreasing_by
  cases up <;> simp_all <;> omega

/-- Whole cycles of a year in the past make the loop longer: they are taken off in the sum. -/
def secondsBetweenYears (leftYear rightYear : ℤ) : CRun ℤ :=
  let up : Bool := leftYear > rightYear
  let cycles :=
    if leftYear > 2400 then (leftYear - 2400).tdiv 400
    else if leftYear < 1600 then (leftYear - 1600).tdiv 400
    else 0
  let leftYear :=
    if leftYear > 2400 then leftYear - cycles * 400
    else if leftYear < 1600 then leftYear + cycles * 400
    else leftYear
  let seconds := cycles * (daysInGregorianCycle * 60 * 60 * 24)
  (addYears up leftYear rightYear seconds).bind fun seconds =>
    .done (seconds * if up then 1 else -1)

/-- `mktime64`: the time, and the date that the caller finds in its place. -/
def mktime64 (mktime : Tm → ℤ × Tm) (inputDate : Tm) : CRun (ℤ × Tm) :=
  if FitsInt (inputDate.year + 1900) then
    let year := inputDate.year + 1900
    if dateInSafeRange inputDate systemMktimeMin systemMktimeMax then .done (mktime inputDate)
    else
      (safeYear year).bind fun safe =>
        let (time, safeDate) := mktime { inputDate with year := safe - 1900 }
        if FitsInt (safeDate.year + 1900) then
          (secondsBetweenYears year (safeDate.year + 1900)).bind fun seconds =>
            .done (time + seconds, safeDate)
        else .undefined
  else .undefined

lemma cmpDate_of_year_lt {left right : Tm} (h : left.year < right.year) :
    cmpDate left right = -1 := by
  rw [cmpDate, if_neg (by omega), if_pos h]

lemma cmpDate_of_lt_year {left right : Tm} (h : right.year < left.year) :
    cmpDate left right = 1 := by
  rw [cmpDate, if_pos h]

/-- The system is asked about the years between the ends of its range only. -/
lemma year_of_safe {date : Tm} (h : dateInSafeRange date systemMktimeMin systemMktimeMax = true) :
    1 ≤ date.year ∧ date.year ≤ 138 := by
  rw [dateInSafeRange] at h
  constructor
  · by_contra hless
    have hcmp : cmpDate date systemMktimeMin = -1 := cmpDate_of_year_lt (Int.not_le.mp hless)
    rw [if_pos hcmp] at h
    cases h
  · by_contra hmore
    have hcmp : cmpDate date systemMktimeMax = 1 := cmpDate_of_lt_year (Int.not_le.mp hmore)
    rw [if_pos hcmp] at h
    split_ifs at h

/-- One year of the loop. -/
lemma addYears_step {up : Bool} {leftYear rightYear seconds : ℤ} (hne : leftYear ≠ rightYear)
    (hside : ¬ ((up ∧ leftYear < rightYear) ∨ (!up ∧ rightYear < leftYear))) :
    addYears up leftYear rightYear seconds
      = addYears up leftYear (rightYear + if up then 1 else -1)
        (seconds + yearLength rightYear * 86400) := by
  have hlength := @lengthOfYear_eq (rightYear - 1900)
  rw [Int.sub_add_cancel] at hlength
  rw [addYears, if_neg hne, if_neg hside, hlength]
  congr 1
  omega

lemma addYears_up (leftYear : ℤ) (n : ℕ) (seconds : ℤ) :
    addYears true leftYear (leftYear - n) seconds
      = .done (seconds + (yearStart leftYear - yearStart (leftYear - n)) * 86400) := by
  induction n generalizing seconds with
  | zero =>
      rw [addYears]
      simp
  | succ n ih =>
      have hsucc := yearStart_succ (leftYear - (n + 1 : ℕ))
      rw [show leftYear - (n + 1 : ℕ) + 1 = leftYear - n by omega] at hsucc
      rw [addYears_step (by omega) (by simp; omega), if_pos rfl,
        show leftYear - (n + 1 : ℕ) + 1 = leftYear - n by omega, ih]
      congr 1
      omega

/-- Downwards, the lengths are those of the years behind. -/
lemma addYears_down (leftYear : ℤ) (n : ℕ) (seconds : ℤ) :
    addYears false leftYear (leftYear + n) seconds
      = .done (seconds + (yearStart (leftYear + n + 1) - yearStart (leftYear + 1)) * 86400) := by
  induction n generalizing seconds with
  | zero =>
      rw [addYears]
      simp
  | succ n ih =>
      have hsucc := yearStart_succ (leftYear + (n + 1 : ℕ))
      rw [addYears_step (by omega) (by simp; omega), if_neg (by decide),
        show leftYear + (n + 1 : ℕ) + -1 = leftYear + n by omega, ih]
      rw [show leftYear + (n + 1 : ℕ) = leftYear + n + 1 by omega] at hsucc ⊢
      congr 1
      omega

lemma secondsBetweenYears_up {leftYear rightYear : ℤ} (hmin : 1600 ≤ rightYear)
    (hmax : rightYear ≤ 2400) (h : rightYear < leftYear) :
    secondsBetweenYears leftYear rightYear
      = .done ((yearStart leftYear - yearStart rightYear) * 86400) := by
  have hside : decide (leftYear > rightYear) = true := decide_eq_true h
  have hup : ∀ {left : ℤ} (seconds : ℤ), rightYear ≤ left → addYears true left rightYear seconds
      = .done (seconds + (yearStart left - yearStart rightYear) * 86400) := by
    intro left seconds hle
    have hrun := addYears_up left (left - rightYear).toNat seconds
    rwa [show left - ((left - rightYear).toNat : ℤ) = rightYear by omega] at hrun
  have hseconds : daysInGregorianCycle * 60 * 60 * 24 = 146097 * 86400 := rfl
  simp only [secondsBetweenYears, hside, hseconds, if_true,
    if_neg (show ¬ leftYear < 1600 by omega)]
  split_ifs with hlate
  · have hcycle := yearStart_cycle leftYear (-((leftYear - 2400) / 400))
    rw [tdiv_eq, if_pos (by omega), hup _ (by omega), CRun.done_bind,
      show leftYear - (leftYear - 2400) / 400 * 400
        = leftYear + 400 * -((leftYear - 2400) / 400) by omega, hcycle]
    congr 1
    omega
  · rw [hup _ (by omega), CRun.done_bind]
    congr 1
    omega

/-- Whole cycles are added twice on the way down, and taken off once. -/
lemma secondsBetweenYears_down {leftYear rightYear : ℤ} (hmin : 1600 ≤ rightYear)
    (hmax : rightYear ≤ 2400) (h : leftYear ≤ rightYear) :
    secondsBetweenYears leftYear rightYear
      = .done ((yearStart (leftYear + 1) - yearStart (rightYear + 1)) * 86400) := by
  have hside : decide (leftYear > rightYear) = false := decide_eq_false (by omega)
  have hdown : ∀ {left : ℤ} (seconds : ℤ), left ≤ rightYear → addYears false left rightYear seconds
      = .done (seconds + (yearStart (rightYear + 1) - yearStart (left + 1)) * 86400) := by
    intro left seconds hle
    have hrun := addYears_down left (rightYear - left).toNat seconds
    rwa [show left + ((rightYear - left).toNat : ℤ) = rightYear by omega] at hrun
  have hseconds : daysInGregorianCycle * 60 * 60 * 24 = 146097 * 86400 := rfl
  simp only [secondsBetweenYears, hside, hseconds, Bool.false_eq_true, if_false,
    if_neg (show ¬ leftYear > 2400 by omega)]
  split_ifs with hearly
  · obtain ⟨k, hk⟩ : ∃ k, -(leftYear - 1600) / 400 = k := ⟨_, rfl⟩
    have hcycle := yearStart_cycle (leftYear + 1) (-k)
    rw [tdiv_eq, if_neg (by omega), hk, hdown _ (by omega), CRun.done_bind,
      show leftYear + -k * 400 + 1 = leftYear + 1 + 400 * -k by omega, hcycle]
    congr 1
    omega
  · rw [hdown _ h, CRun.done_bind]
    congr 1
    omega

/-- **The seconds between the years make up for the safe year** if the other year is the safe one:
its leap day is that of the year, whichever end of the years is counted. -/
lemma secondsBetweenYears_safe {year safe other : ℤ} (hsafe : SafeFor year safe)
    (hmin : 1600 ≤ other) (hmax : other ≤ 2400) :
    ∃ seconds, secondsBetweenYears year other = .done seconds
      ∧ (seconds = (yearStart year - yearStart safe) * 86400 ↔ other = safe) := by
  by_cases h : other < year
  · refine ⟨_, secondsBetweenYears_up hmin hmax h, ?_⟩
    rw [← @yearStart_inj other safe]
    omega
  · refine ⟨_, secondsBetweenYears_down hmin hmax (by omega), ?_⟩
    have hlength := hsafe.same.yearLength
    have hinj := @yearStart_inj (other + 1) (safe + 1)
    have hsucc := yearStart_succ year
    have hsucc' := yearStart_succ safe
    omega

/-- The fields that `mktime` reads say a local time. -/
def Tm.Asks (date : Tm) (time : ℤ) : Prop :=
  ∃ wday yday, { date with wday := wday, yday := yday }.Says time

/-- What the system's `mktime` does with a date of its years in a zone with one offset and without
summer time: it fills in the other fields. -/
def SystemMktime (mktime : Tm → ℤ × Tm) (offset : ℤ) : Prop :=
  ∀ date time, date.Asks time → date.isdst ≤ 0 → 1 ≤ date.year → date.year ≤ 138 →
    ∃ answer, mktime date = (time - offset, answer) ∧ answer.Says time

/-- Every date and time of day is a local time. -/
lemma asks_of_date {date : Tm} {k : ℕ} (hmon : date.mon = k) (hk : k < 12)
    (hmday : 1 ≤ date.mday ∧ date.mday ≤ monthLength (date.year + 1900) k)
    (hsec : 0 ≤ date.sec ∧ date.sec < 60) (hmin : 0 ≤ date.min ∧ date.min < 60)
    (hhour : 0 ≤ date.hour ∧ date.hour < 24) : ∃ time, date.Asks time := by
  let d : Date := ⟨date.year + 1900, k, date.mday, hk, hmday.1, hmday.2⟩
  let clock := date.hour * 3600 + date.min * 60 + date.sec
  have hdays : (d.dayNumber * 86400 + clock) / 86400 = d.dayNumber := by
    simp only [clock]
    omega
  refine ⟨d.dayNumber * 86400 + clock, weekday d.dayNumber, d.dayOfYear,
    ⟨⟨d, rfl, hmon.symm, rfl, hdays.symm, rfl⟩, hsec, hmin, hhour, ?_, ?_⟩⟩
  · simp only [clock]
    omega
  · rw [hdays]

/-- Such a system, of a date of its years. -/
def fixedMktime (offset : ℤ) (date : Tm) : ℤ × Tm :=
  match timegm64 date with
  | .done time =>
      match gmtime64R time with
      | .done (some answer) => (time - offset, answer)
      | _ => (-1, date)
  | _ => (-1, date)

lemma fixedMktime_tells (offset : ℤ) : SystemMktime (fixedMktime offset) offset := by
  rintro date time ⟨wday, yday, hdated⟩ - hmin hmax
  obtain ⟨answer, hanswer, -, hrun⟩ := gmtime64R_spec time
  have hyear : answer.year = date.year := (hanswer.year_eq hdated :)
  rw [if_pos (by rw [FitsInt]; omega), if_pos (by rw [FitsInt]; omega)] at hrun
  have htimegm : timegm64 date = .done time := (timegm64_of_date hdated :)
  refine ⟨answer, ?_, hanswer⟩
  unfold fixedMktime
  rw [htimegm]
  simp only
  rw [hrun]

/-- **Outside of the system's range, `mktime64` asks about a safe year and adds the seconds between
the years.**  The sum is the time of the year asked for exactly if the system leaves the date in the
safe year: a month or a day that it carries over into the year before or behind moves the time by
a year.  The date that the caller finds has the year of the system's answer, not its own. -/
theorem mktime64_iff (mktime : Tm → ℤ × Tm) {date : Tm} (hfits : FitsInt (date.year + 1900))
    (hout : dateInSafeRange date systemMktimeMin systemMktimeMax = false)
    (hanswer : ∀ safe, minSafeYear ≤ safe → safe ≤ maxSafeYear →
      1600 ≤ (mktime { date with year := safe - 1900 }).2.year + 1900
        ∧ (mktime { date with year := safe - 1900 }).2.year + 1900 ≤ 2400) :
    ∃ safe time, SafeFor (date.year + 1900) safe
      ∧ mktime64 mktime date = .done (time, (mktime { date with year := safe - 1900 }).2)
      ∧ (time = (mktime { date with year := safe - 1900 }).1
            + (yearStart (date.year + 1900) - yearStart safe) * 86400
          ↔ (mktime { date with year := safe - 1900 }).2.year = safe - 1900) := by
  obtain ⟨safe, hrun, hsafe⟩ := safeYear_eq (date.year + 1900)
  obtain ⟨hmin, hmax⟩ := hanswer safe hsafe.range.1 hsafe.range.2
  obtain ⟨seconds, hseconds, hiff⟩ := secondsBetweenYears_safe hsafe hmin hmax
  refine ⟨safe, (mktime { date with year := safe - 1900 }).1 + seconds, hsafe, ?_, ?_⟩
  · simp only [mktime64, if_pos hfits, hout, Bool.false_eq_true, if_false, hrun, CRun.done_bind,
      hseconds]
    rw [if_pos]
    rw [FitsInt]
    omega
  · omega

/-- Noon of a summer's day in 2050. -/
theorem mktime64_iff_2050 :
    ∃ safe time, SafeFor 2050 safe
      ∧ mktime64 (fixedMktime 3600) ⟨0, 0, 12, 15, 5, 150, 0, 0, 0⟩
        = .done (time, (fixedMktime 3600 ⟨0, 0, 12, 15, 5, safe - 1900, 0, 0, 0⟩).2)
      ∧ (time = (fixedMktime 3600 ⟨0, 0, 12, 15, 5, safe - 1900, 0, 0, 0⟩).1
            + (yearStart 2050 - yearStart safe) * 86400
          ↔ (fixedMktime 3600 ⟨0, 0, 12, 15, 5, safe - 1900, 0, 0, 0⟩).2.year = safe - 1900) := by
  refine @mktime64_iff (fixedMktime 3600) ⟨0, 0, 12, 15, 5, 150, 0, 0, 0⟩ (by decide) (by decide)
    fun safe hmin hmax => ?_
  simp only [minSafeYear, maxSafeYear] at hmin hmax
  obtain ⟨time, hasks⟩ := @asks_of_date ⟨0, 0, 12, 15, 5, safe - 1900, 0, 0, 0⟩ 5 rfl (by decide)
    (by simp [monthLength]) (by simp) (by simp) (by simp)
  obtain ⟨answer, hanswer, hdated⟩ := fixedMktime_tells 3600 _ time hasks
    (Int.le_refl 0) (by simp only; omega) (by simp only; omega)
  obtain ⟨wday, yday, hasked⟩ := hasks
  have hyear : answer.year = safe - 1900 := hdated.year_eq hasked
  simp only [hanswer]
  omega

lemma Tm.Asks.toSafe {date : Tm} {time safe : ℤ} (h : date.Asks time)
    (hsafe : SafeFor (date.year + 1900) safe) :
    { date with year := safe - 1900 }.Asks
      (time + (yearStart safe - yearStart (date.year + 1900)) * 86400) := by
  obtain ⟨wday, yday, hdated⟩ := h
  exact ⟨wday, yday, hdated.toSafe hsafe⟩

/-- In a zone with one offset, `mktime64` takes it off a local time of any year. -/
lemma mktime64_fixed {mktime : Tm → ℤ × Tm} {offset time : ℤ} (hmktime : SystemMktime mktime offset)
    {date : Tm} (hasks : date.Asks time) (hdst : date.isdst ≤ 0)
    (hfits : FitsInt (date.year + 1900)) :
    ∃ answer, mktime64 mktime date = .done (time - offset, answer) := by
  cases hrange : dateInSafeRange date systemMktimeMin systemMktimeMax
  · obtain ⟨safe, hrun, hsafe⟩ := safeYear_eq (date.year + 1900)
    have hmin := hsafe.range.1
    have hmax := hsafe.range.2
    simp only [minSafeYear, maxSafeYear] at hmin hmax
    obtain ⟨answer, hanswer, hdated⟩ := hmktime _ _ (hasks.toSafe hsafe)
      hdst (by simp only; omega) (by simp only; omega)
    have hyear : answer.year = safe - 1900 := by
      obtain ⟨wday, yday, hto⟩ := hasks.toSafe hsafe
      exact hdated.year_eq hto
    obtain ⟨seconds, hseconds, hiff⟩ := @secondsBetweenYears_safe _ _ (answer.year + 1900) hsafe
      (by omega) (by omega)
    have hsum := hiff.mpr (by omega)
    refine ⟨answer, ?_⟩
    simp only [mktime64, if_pos hfits, hrange, Bool.false_eq_true, if_false, hrun, CRun.done_bind,
      hanswer, hseconds]
    rw [if_pos (by rw [FitsInt]; omega), hsum]
    congr 2
    omega
  · obtain ⟨hmin, hmax⟩ := year_of_safe hrange
    obtain ⟨answer, hanswer, -⟩ := hmktime date time hasks hdst hmin hmax
    refine ⟨answer, ?_⟩
    simp only [mktime64, if_pos hfits, hrange, if_true, hanswer]

/-- **`localtime64_r` is the way back of `mktime64`** in a zone with one offset: every local date
and time of day of a year that is not one of the last comes back, with the day of the week and the
day of the year filled in, wherever the offset carries the time at Greenwich over a year's end. -/
theorem localtime64R_mktime64 {localtimeR : ℤ → Option Tm} {mktime : Tm → ℤ × Tm} {offset : ℤ}
    (hlocaltime : SystemLocaltime localtimeR fun _ => offset) (hmktime : SystemMktime mktime offset)
    {date : Tm} {local' : ℤ} (hasks : date.Asks local') (hdst : date.isdst ≤ 0)
    (hyear : FitsInt (date.year - 2) ∧ FitsInt (date.year + 2 + 1900)) :
    ∃ time answer tm, mktime64 mktime date = .done (time, answer)
      ∧ localtime64R localtimeR time = .done (some tm) ∧ tm.Says local' := by
  obtain ⟨wday, yday, hdated⟩ := id hasks
  have hoffset := hlocaltime.offset_lt 0
  obtain ⟨answer, hmk⟩ := mktime64_fixed hmktime hasks hdst (by
    simp only [FitsInt] at hyear ⊢
    omega)
  have hback : local' - offset + offset = local' := Int.sub_add_cancel _ _
  by_cases hfits : FitsInt (local' - offset)
  · obtain ⟨tm, hrun, htm⟩ := localtime64R_inside hlocaltime hfits
    rw [hback] at htm
    exact ⟨local' - offset, answer, tm, hmk, hrun, htm⟩
  · have hgmYear : ∀ gm : Tm, gm.Says (local' - offset)
        → FitsInt (gm.year - 1) ∧ FitsInt (gm.year + 1 + 1900) := by
      intro gm hgm
      have hnear := hdated.near hgm (by omega) (by omega)
      simp only at hnear
      simp only [FitsInt] at hyear ⊢
      omega
    obtain ⟨tm, safeTime, hrun, -, -, htm⟩ := localtime64R_outside hlocaltime hfits hgmYear
    rw [hback] at htm
    exact ⟨local' - offset, answer, tm, hmk, hrun, htm⟩

/-- The first half an hour of 2101 is in 2100 at Greenwich. -/
theorem localtime64R_mktime64_2101 :
    ∃ time answer tm,
      mktime64 (fixedMktime 3600) ⟨0, 30, 0, 1, 0, 201, 0, 0, 0⟩ = .done (time, answer)
      ∧ localtime64R (fixedZone 3600) time = .done (some tm) ∧ tm.Says 4133982600 := by
  refine localtime64R_mktime64 (fixedZone_tells (by decide)) (fixedMktime_tells 3600) ?_ (by decide)
    (by decide)
  refine ⟨6, 0, ⟨⟨2101, 0, 1, by decide, by decide, by decide⟩, rfl, rfl, rfl, ?_, ?_⟩,
    ?_, ?_, ?_, ?_, ?_⟩ <;> decide

end Luan
