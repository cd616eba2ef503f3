import Luan.Core.CRun
import Luan.Core.Gregorian

/-!
# Times beyond 32 bits

`timegm64` and `gmtime64_r` of `lua-apple/utlua/time64.c`.  A `Time64_T` and a `Year` are integers:
none of the sums leaves 64 bits, and `cycles` fits an `int`.  A `struct tm` has `int`s: a sum of
them that is no `int`, a read outside of a table and an `assert` that fails are `undefined`.

* `Tm.Says` — the fields say a date and a time of day.
* `gmtime64R_tells` — which fields `gmtime64_r` fills in, from a shortcut to 2008, whole cycles and
  a walk over the years that are left.
* `timegm64_iff` — `timegm64` is the other way.
-/

namespace Luan

open Gregorian

/-! ## Division in C -/

/-- `/` of C goes towards 0. -/
lemma tdiv_eq (x : ℤ) {n : ℤ} : x.tdiv n = if 0 ≤ x then x / n else -(-x / n) := by
  split_ifs with h
  · exact Int.tdiv_eq_ediv_of_nonneg h
  · rw [← Int.tdiv_eq_ediv_of_nonneg (by omega), Int.neg_tdiv, Int.neg_neg]

/-- `%` of C has the sign of the dividend. -/
lemma tmod_eq (x : ℤ) {n : ℤ} : x.tmod n = if 0 ≤ x then x % n else -(-x % n) := by
  split_ifs with h
  · exact Int.tmod_eq_emod_of_nonneg h
  · rw [← Int.tmod_eq_emod_of_nonneg (by omega), Int.neg_tmod, Int.neg_neg]

/-! ## Tables -/

/-- `struct tm` -/
structure Tm where
  sec : ℤ
  min : ℤ
  hour : ℤ
  mday : ℤ
  mon : ℤ
  year : ℤ
  wday : ℤ
  yday : ℤ
  isdst : ℤ
  deriving DecidableEq, Repr

/-- `IS_LEAP` -/
def isLeap (n : ℤ) : Bool :=
  (n + 1900).tmod 400 = 0 || ((n + 1900).tmod 4 = 0 && (n + 1900).tmod 100 ≠ 0)

def daysInMonth : Bool → List ℤ
  | false => [31, 28, 31, 30, 31, 30, 31, 31, 30, 31, 30, 31]
  | true => [31, 29, 31, 30, 31, 30, 31, 31, 30, 31, 30, 31]

def julianDaysByMonth : Bool → List ℤ
  | false => [0, 31, 59, 90, 120, 151, 181, 212, 243, 273, 304, 334]
  | true => [0, 31, 60, 91, 121, 152, 182, 213, 244, 274, 305, 335]

def lengthOfYear : Bool → ℤ
  | false => 365
  | true => 366

def daysInGregorianCycle : ℤ := 365 * 400 + 100 - 4 + 1

/-- The days from 1970 to 2008. -/
def cheatDays : ℤ := 1199145600 / 24 / 60 / 60

def cheatYears : ℤ := 108

/-- The number fits an `int`. -/
def FitsInt (n : ℤ) : Prop := -2147483648 ≤ n ∧ n ≤ 2147483647

instance (n : ℤ) : Decidable (FitsInt n) := inferInstanceAs (Decidable (_ ∧ _))

/-- `table[i]` -/
def tableAt (table : List ℤ) (i : ℤ) : CRun ℤ :=
  if 0 ≤ i then
    match table[i.toNat]? with
    | some value => .done value
    | none => .undefined
  else .undefined

/-! ## From a date to a time -/

/-- `while (year < orig_year)` -/
def daysUp (origYear year days : ℤ) : ℤ :=
  if year < origYear then daysUp origYear (year + 1) (days + lengthOfYear (isLeap year)) else days
termination_by (origYear - year).toNat

/-- `do … while (year >= orig_year)` -/
def daysDown (origYear year days : ℤ) : ℤ :=
  let days := days - lengthOfYear (isLeap year)
  if origYear ≤ year - 1 then daysDown origYear (year - 1) days else days
termination_by (year - origYear).toNat

def timegm64 (date : Tm) : CRun ℤ :=
  let origYear := date.year
  let cycles :=
    if origYear > 100 then (origYear - 100).tdiv 400
    else if origYear < -300 then (origYear - 100).tdiv 400
    else 0
  let origYear := origYear - cycles * 400
  let days := cycles * daysInGregorianCycle
  let days :=
    if origYear > 70 then daysUp origYear 70 days
    else if origYear < 70 then daysDown origYear 69 days
    else days
  (tableAt (julianDaysByMonth (isLeap origYear)) date.mon).bind fun julianDays =>
    -- these three are sums of `int`s
    if FitsInt (date.mday - 1) ∧ FitsInt (date.hour * 60 * 60) ∧ FitsInt (date.min * 60) then
      let days := days + julianDays + (date.mday - 1)
      .done (days * 60 * 60 * 24 + date.hour * 60 * 60 + date.min * 60 + date.sec)
    else .undefined

/-! ## From a time to a date -/

structure GmtimeClock where
  sec : ℤ
  min : ℤ
  hour : ℤ
  tday : ℤ

/-- The time of day and the day, behind the three `WRAP`s. -/
def gmtimeClock (time : ℤ) : GmtimeClock :=
  let sec := time.tmod 60
  let time := time.tdiv 60
  let min := time.tmod 60
  let time := time.tdiv 60
  let hour := time.tmod 24
  let tday := time.tdiv 24
  let (sec, min) := if sec < 0 then (sec + 60, min - 1) else (sec, min)
  let (min, hour) := if min < 0 then (min + 60, hour - 1) else (min, hour)
  let (hour, tday) := if hour < 0 then (hour + 24, tday - 1) else (hour, tday)
  ⟨sec, min, hour, tday⟩

structure GmtimeDate where
  year : ℤ
  mon : ℤ
  m : ℤ

/-- `while (m >= length_of_year[leap])` -/
def yearsUp (m year : ℤ) : ℤ × ℤ :=
  if lengthOfYear (isLeap year) ≤ m then yearsUp (m - lengthOfYear (isLeap year)) (year + 1)
  else (m, year)
termination_by m.toNat
decreasing_by
  have hpos : 0 < lengthOfYear (isLeap year) := by cases isLeap year <;> decide
  omega

/-- `while (m < -length_of_year[leap])` -/
def yearsDown (m year : ℤ) : ℤ × ℤ :=
  if m < -lengthOfYear (isLeap year) then yearsDown (m + lengthOfYear (isLeap year)) (year - 1)
  else (m, year)
termination_by (-m).toNat
decreasing_by
  have hpos : 0 < lengthOfYear (isLeap year) := by cases isLeap year <;> decide
  omega

/-- `while (m >= days_in_month[leap][v_tm_mon])`, along the table. -/
def monthsUp : List ℤ → ℤ → ℤ → CRun (ℤ × ℤ)
  | [], _, _ => .undefined
  | days :: table, m, mon =>
      if days ≤ m then monthsUp table (m - days) (mon + 1) else .done (m, mon)

/-- `while (m < -days_in_month[leap][v_tm_mon])`, down the table. -/
def monthsDown : List ℤ → ℤ → ℤ → CRun (ℤ × ℤ)
  | [], _, _ => .undefined
  | days :: table, m, mon =>
      if m < -days then monthsDown table (m + days) (mon - 1) else .done (m + days, mon)

/-- The year, the month and the day of a day. -/
def gmtimeDate (tday : ℤ) : CRun GmtimeDate :=
  let (m, year) := if cheatDays ≤ tday then (tday - cheatDays, cheatYears) else (tday, 70)
  if 0 ≤ m then
    let cycles := m.tdiv daysInGregorianCycle
    let (m, year) := yearsUp (m - cycles * daysInGregorianCycle) (year + cycles * 400)
    (monthsUp (daysInMonth (isLeap year)) m 0).bind fun (m, mon) => .done ⟨year, mon, m⟩
  else
    let year := year - 1
    let cycles := m.tdiv daysInGregorianCycle + 1
    let (m, year) := yearsDown (m - cycles * daysInGregorianCycle) (year + cycles * 400)
    (monthsDown (daysInMonth (isLeap year)).reverse m 11).bind fun (m, mon) => .done ⟨year, mon, m⟩

/-- `check_tm`, whose `IS_LEAP` adds to an `int`. -/
def checkTm (tm : Tm) : Bool :=
  FitsInt (tm.year + 1900) && 0 ≤ tm.sec && tm.sec ≤ 61 && 0 ≤ tm.min && tm.min ≤ 59
    && 0 ≤ tm.hour && tm.hour ≤ 23 && 1 ≤ tm.mday
    && (match tableAt (daysInMonth (isLeap tm.year)) tm.mon with
        | .done days => tm.mday ≤ days
        | _ => false)
    && 0 ≤ tm.mon && tm.mon ≤ 11 && 0 ≤ tm.wday && tm.wday ≤ 6 && 0 ≤ tm.yday
    && tm.yday ≤ lengthOfYear (isLeap tm.year)

/-- `gmtime64_r`; `NULL` is `none`. -/
def gmtime64R (time : ℤ) : CRun (Option Tm) :=
  let clock := gmtimeClock time
  let wday := (clock.tday + 4).tmod 7
  let wday := if wday < 0 then wday + 7 else wday
  (gmtimeDate clock.tday).bind fun date =>
    if FitsInt date.year then
      (tableAt (julianDaysByMonth (isLeap date.year)) date.mon).bind fun julianDays =>
        let tm : Tm :=
          { sec := clock.sec
            min := clock.min
            hour := clock.hour
            mday := date.m + 1
            mon := date.mon
            year := date.year
            wday := wday
            yday := julianDays + date.m
            isdst := 0 }
        if checkTm tm then .done (some tm) else .undefined
    else .done none

/-! ## What the tables say -/

section Tables

variable {year : ℤ}

lemma isLeap_iff : isLeap year = true ↔ IsLeap (year + 1900) := by
  simp only [isLeap, IsLeap, tmod_eq, Bool.or_eq_true, Bool.and_eq_true, decide_eq_true_eq]
  split_ifs <;> omega

lemma isLeap_eq : isLeap year = decide (IsLeap (year + 1900)) := by
  rw [Bool.eq_iff_iff, isLeap_iff, decide_eq_true_iff]

lemma lengthOfYear_eq : lengthOfYear (isLeap year) = yearLength (year + 1900) := by
  rw [isLeap_eq, yearLength]
  split_ifs with h <;> simp [h, lengthOfYear]

lemma daysInMonth_eq :
    daysInMonth (isLeap year) = (List.range 12).map (monthLength (year + 1900)) := by
  have htwelve : List.range 12 = [0, 1, 2, 3, 4, 5, 6, 7, 8, 9, 10, 11] := rfl
  rw [isLeap_eq, htwelve]
  by_cases h : IsLeap (year + 1900) <;> simp [h, daysInMonth, monthLength]

lemma julianDaysByMonth_eq :
    julianDaysByMonth (isLeap year) = (List.range 12).map (monthStart (year + 1900)) := by
  have htwelve : List.range 12 = [0, 1, 2, 3, 4, 5, 6, 7, 8, 9, 10, 11] := rfl
  rw [isLeap_eq, htwelve]
  by_cases h : IsLeap (year + 1900) <;> simp [h, julianDaysByMonth, monthStart, monthLength]

/-- A read inside of a table. -/
lemma tableAt_map {f : ℕ → ℤ} {m : ℕ} (h : m < 12) :
    tableAt ((List.range 12).map f) m = .done (f m) := by
  have hm : (0 : ℤ) ≤ m := Int.natCast_nonneg m
  rw [tableAt, if_pos hm]
  simp [h]

end Tables

/-! ## What the fields say -/

/-- The fields say the date of a day and a time of day. -/
structure Tm.Says (tm : Tm) (time : ℤ) : Prop where
  date : ∃ d : Date, d.year = tm.year + 1900 ∧ (d.month : ℤ) = tm.mon ∧ d.day = tm.mday
    ∧ d.dayNumber = time / 86400 ∧ d.dayOfYear = tm.yday
  sec : 0 ≤ tm.sec ∧ tm.sec < 60
  min : 0 ≤ tm.min ∧ tm.min < 60
  hour : 0 ≤ tm.hour ∧ tm.hour < 24
  clock : tm.hour * 3600 + tm.min * 60 + tm.sec = time % 86400
  wday : tm.wday = weekday (time / 86400)

namespace Tm.Says

variable {tm tm' : Tm} {time : ℤ}

/-- **A time has one date.** -/
lemma unique (h : tm.Says time) (h' : tm'.Says time) (hdst : tm.isdst = tm'.isdst) : tm = tm' := by
  obtain ⟨d, hyear, hmon, hmday, hnumber, hyday⟩ := h.date
  obtain ⟨d', hyear', hmon', hmday', hnumber', hyday'⟩ := h'.date
  obtain rfl : d = d' := Date.dayNumber_unique (hnumber.trans hnumber'.symm)
  have hclock := h.clock.trans h'.clock.symm
  have hsec := h.sec
  have hsec' := h'.sec
  have hmin := h.min
  have hmin' := h'.min
  have hwday := h.wday.trans h'.wday.symm
  cases tm
  cases tm'
  simp only [Tm.mk.injEq]
  simp only at *
  exact ⟨by omega, by omega, by omega, by omega, by omega, by omega, hwday, by omega, hdst⟩

/-- No assertion fails, and the last years of an `int` are too late for one. -/
lemma checkTm (h : tm.Says time) : checkTm tm = decide (FitsInt (tm.year + 1900)) := by
  obtain ⟨d, hyear, hmon, hmday, -, hyday⟩ := h.date
  have hmonth := d.month_lt
  have hday := d.day_pos
  have hdays := d.day_le
  have hof := d.dayOfYear_nonneg
  have hend := d.dayOfYear_lt
  have hsec := h.sec
  have hmin := h.min
  have hhour := h.hour
  have hwday := h.wday
  rw [weekday] at hwday
  rw [hyear] at hdays hend
  rw [Luan.checkTm, daysInMonth_eq, lengthOfYear_eq, ← hmon, tableAt_map hmonth, Bool.eq_iff_iff]
  simp only [Bool.and_eq_true, decide_eq_true_eq]
  generalize FitsInt (tm.year + 1900) = fits
  constructor
  · intro hall
    simp only [and_assoc] at hall
    exact hall.1
  · intro hfits
    simp only [and_assoc]
    refine ⟨hfits, ?_⟩
    omega

end Tm.Says

/-! ## From a time to a date: what the loops do -/

/-- The three `WRAP`s make up for the truncated divisions. -/
lemma gmtimeClock_spec (time : ℤ) :
    (gmtimeClock time).tday = time / 86400
      ∧ (0 ≤ (gmtimeClock time).sec ∧ (gmtimeClock time).sec < 60)
      ∧ (0 ≤ (gmtimeClock time).min ∧ (gmtimeClock time).min < 60)
      ∧ (0 ≤ (gmtimeClock time).hour ∧ (gmtimeClock time).hour < 24)
      ∧ (gmtimeClock time).hour * 3600 + (gmtimeClock time).min * 60 + (gmtimeClock time).sec
        = time % 86400 := by
  simp only [gmtimeClock, tdiv_eq, tmod_eq]
  split_ifs <;> simp only <;> omega

section Loops

variable {m year : ℤ}

/-- What the day counts from stays the same, year by year. -/
lemma yearsUp_spec (h : 0 ≤ m) :
    0 ≤ (yearsUp m year).1 ∧ (yearsUp m year).1 < yearLength ((yearsUp m year).2 + 1900)
      ∧ yearStart ((yearsUp m year).2 + 1900) + (yearsUp m year).1
        = yearStart (year + 1900) + m := by
  fun_induction yearsUp m year with
  | case1 m year hmore ih =>
      have hlength := @lengthOfYear_eq year
      have hsucc := yearStart_succ (year + 1900)
      rw [show year + 1900 + 1 = year + 1 + 1900 by omega] at hsucc
      obtain ⟨hnonneg, hlt, hday⟩ := ih (by omega)
      exact ⟨hnonneg, hlt, by omega⟩
  | case2 m year hlast =>
      rw [lengthOfYear_eq] at hlast
      exact ⟨h, Int.not_le.mp hlast, rfl⟩

/-- Going down, the days are counted from the end of the year. -/
lemma yearsDown_spec (h : m < 0) :
    (yearsDown m year).1 < 0 ∧ -yearLength ((yearsDown m year).2 + 1900) ≤ (yearsDown m year).1
      ∧ yearStart ((yearsDown m year).2 + 1900) + yearLength ((yearsDown m year).2 + 1900)
          + (yearsDown m year).1
        = yearStart (year + 1900) + yearLength (year + 1900) + m := by
  fun_induction yearsDown m year with
  | case1 m year hmore ih =>
      have hlength := @lengthOfYear_eq year
      have hsucc := yearStart_succ (year - 1 + 1900)
      rw [show year - 1 + 1900 + 1 = year + 1900 by omega] at hsucc
      obtain ⟨hneg, hle, hday⟩ := ih (by omega)
      exact ⟨hneg, hle, by omega⟩
  | case2 m year hlast =>
      rw [lengthOfYear_eq] at hlast
      exact ⟨h, Int.not_lt.mp hlast, rfl⟩

/-- Up the months from the `k`-th one on. -/
lemma monthsUp_spec {y : ℤ} {k n : ℕ} (hm : 0 ≤ m)
    (hend : monthStart y k + m < monthStart y (k + n)) :
    ∃ m' : ℤ, ∃ k' : ℕ, monthsUp ((List.range' k n).map (monthLength y)) m k = .done (m', k')
      ∧ k' < k + n ∧ 0 ≤ m' ∧ m' < monthLength y k'
      ∧ monthStart y k' + m' = monthStart y k + m := by
  induction n generalizing k m with
  | zero =>
      rw [Nat.add_zero] at hend
      omega
  | succ n ih =>
      rw [List.range'_succ, List.map_cons, monthsUp]
      split_ifs with hmore
      · have hnext : monthStart y (k + 1) = monthStart y k + monthLength y k := rfl
        rw [← Nat.add_assoc, Nat.add_right_comm] at hend
        obtain ⟨m', k', hrun, hk', hm', hlt, hday⟩ :=
          @ih (m - monthLength y k) (k + 1) (by omega) (by omega)
        refine ⟨m', k', ?_, by omega, hm', hlt, by omega⟩
        rw [← hrun]
        rfl
      · exact ⟨m, k, rfl, by omega, hm, by omega, rfl⟩

/-- Down the months below the `n`-th one. -/
lemma monthsDown_spec {y : ℤ} {n : ℕ} (hm : m < 0) (hend : 0 ≤ monthStart y n + m) :
    ∃ m' : ℤ, ∃ k' : ℕ,
      monthsDown ((List.range n).map (monthLength y)).reverse m (n - 1) = .done (m', k')
        ∧ k' < n ∧ 0 ≤ m' ∧ m' < monthLength y k'
        ∧ monthStart y k' + m' = monthStart y n + m := by
  induction n generalizing m with
  | zero =>
      rw [monthStart] at hend
      omega
  | succ n ih =>
      have hnext : monthStart y (n + 1) = monthStart y n + monthLength y n := rfl
      have hlast : ((n + 1 : ℕ) : ℤ) - 1 = n := by omega
      rw [List.range_succ, List.map_append, List.reverse_append, hlast, List.map_singleton,
        List.reverse_singleton, List.singleton_append, monthsDown]
      split_ifs with hmore
      · obtain ⟨m', k', hrun, hk', hm', hlt, hday⟩ :=
          @ih (m + monthLength y n) (by omega) (by omega)
        exact ⟨m', k', hrun, by omega, hm', hlt, by omega⟩
      · exact ⟨m + monthLength y n, n, rfl, by omega, by omega, by omega, by omega⟩

/-- A month and a day of it, found in a year. -/
lemma exists_date {k : ℕ} {m' : ℤ} (hk : k < 12) (hm : 0 ≤ m')
    (hlt : m' < monthLength (year + 1900) k) :
    ∃ d : Date, d.year = year + 1900 ∧ d.month = k ∧ d.day = m' + 1
      ∧ d.dayNumber = yearStart (year + 1900) + (monthStart (year + 1900) k + m') := by
  refine ⟨⟨year + 1900, k, m' + 1, hk, by omega, by omega⟩, rfl, rfl, rfl, ?_⟩
  rw [Date.dayNumber, Date.dayOfYear]
  simp only
  omega

/-- The rest of the day count, upwards from the beginning of a year. -/
lemma monthsUp_date (hm : 0 ≤ m) (hlt : m < yearLength (year + 1900)) :
    ∃ d : Date, monthsUp (daysInMonth (isLeap year)) m 0 = .done (d.day - 1, (d.month : ℤ))
      ∧ d.year = year + 1900 ∧ d.dayNumber = yearStart (year + 1900) + m := by
  have hend : monthStart (year + 1900) 0 + m < monthStart (year + 1900) (0 + 12) := by
    rw [Nat.zero_add, monthStart_twelve, monthStart]
    omega
  obtain ⟨m', k, hrun, hk, hm', hlen, hday⟩ := monthsUp_spec hm hend
  obtain ⟨d, hyear, hmonth, hd, hnumber⟩ := exists_date (by omega) hm' hlen
  refine ⟨d, ?_, hyear, ?_⟩
  · rw [daysInMonth_eq, List.range_eq_range', hmonth, hd, Int.add_sub_cancel]
    exact hrun
  · rw [monthStart] at hday
    omega

/-- The rest of the day count, downwards from the end of a year. -/
lemma monthsDown_date (hm : m < 0) (hle : -yearLength (year + 1900) ≤ m) :
    ∃ d : Date,
      monthsDown (daysInMonth (isLeap year)).reverse m 11 = .done (d.day - 1, (d.month : ℤ))
        ∧ d.year = year + 1900
        ∧ d.dayNumber = yearStart (year + 1900) + yearLength (year + 1900) + m := by
  have hend : 0 ≤ monthStart (year + 1900) 12 + m := by
    rw [monthStart_twelve]
    omega
  obtain ⟨m', k, hrun, hk, hm', hlen, hday⟩ := monthsDown_spec hm hend
  obtain ⟨d, hyear, hmonth, hd, hnumber⟩ := exists_date hk hm' hlen
  refine ⟨d, ?_, hyear, ?_⟩
  · rw [daysInMonth_eq, hmonth, hd, Int.add_sub_cancel]
    exact hrun
  · rw [monthStart_twelve] at hday
    omega

end Loops

/-- Whole cycles do not change where a year begins. -/
lemma yearStart_cycles (year k : ℤ) :
    yearStart (year + k * 400 + 1900) = yearStart (year + 1900) + 146097 * k := by
  rw [← yearStart_cycle]
  congr 1
  omega

/-- **The date of a day**, on both sides of 1970. -/
lemma gmtimeDate_spec (tday : ℤ) :
    ∃ d : Date, gmtimeDate tday = .done ⟨d.year - 1900, d.month, d.day - 1⟩
      ∧ d.dayNumber = tday := by
  obtain ⟨m, year, hstart, hday⟩ : ∃ m year : ℤ,
      (if cheatDays ≤ tday then (tday - cheatDays, cheatYears) else (tday, 70)) = (m, year)
        ∧ yearStart (year + 1900) + m = tday := by
    split_ifs
    · refine ⟨_, _, rfl, ?_⟩
      simp only [cheatDays, cheatYears, yearStart]
      omega
    · refine ⟨_, _, rfl, ?_⟩
      simp only [yearStart]
      omega
  have hcycle : daysInGregorianCycle = 146097 := rfl
  simp only [gmtimeDate, hstart]
  split_ifs with hsign
  · have hcycles := yearStart_cycles year (m.tdiv daysInGregorianCycle)
    rw [hcycle, tdiv_eq, if_pos hsign] at hcycles ⊢
    obtain ⟨hnonneg, hlt, hsame⟩ :=
      @yearsUp_spec (m - m / 146097 * 146097) (year + m / 146097 * 400) (by omega)
    obtain ⟨d, hrun, hyear, hnumber⟩ := monthsUp_date hnonneg hlt
    refine ⟨d, ?_, by omega⟩
    rw [hrun, hyear, Int.add_sub_cancel]
    rfl
  · have hcycles := yearStart_cycles (year - 1) (m.tdiv daysInGregorianCycle + 1)
    have hsucc := yearStart_succ (year - 1 + 1900)
    rw [show year - 1 + 1900 + 1 = year + 1900 by omega] at hsucc
    rw [hcycle, tdiv_eq, if_neg hsign] at hcycles ⊢
    have hlength := yearLength_cycle (year - 1 + 1900) (-(-m / 146097) + 1)
    rw [show year - 1 + 1900 + 400 * (-(-m / 146097) + 1)
      = year - 1 + (-(-m / 146097) + 1) * 400 + 1900 by omega] at hlength
    obtain ⟨hneg, hle, hsame⟩ :=
      @yearsDown_spec (m - (-(-m / 146097) + 1) * 146097) (year - 1 + (-(-m / 146097) + 1) * 400)
        (by omega)
    obtain ⟨d, hrun, hyear, hnumber⟩ := monthsDown_date hneg hle
    refine ⟨d, ?_, by omega⟩
    rw [hrun, hyear, Int.add_sub_cancel]
    rfl

lemma gmtime64R_spec (time : ℤ) :
    ∃ tm : Tm, tm.Says time ∧ tm.isdst = 0
      ∧ gmtime64R time = if FitsInt tm.year then
          if FitsInt (tm.year + 1900) then .done (some tm) else .undefined
        else .done none := by
  obtain ⟨htday, hsec, hmin, hhour, hclock⟩ := gmtimeClock_spec time
  obtain ⟨d, hdate, hnumber⟩ := gmtimeDate_spec (time / 86400)
  have hyear : d.year - 1900 + 1900 = d.year := by omega
  have hwday : (if ((time / 86400) + 4).tmod 7 < 0 then ((time / 86400) + 4).tmod 7 + 7
      else ((time / 86400) + 4).tmod 7) = weekday (time / 86400) := by
    rw [tmod_eq, weekday]
    split_ifs <;> omega
  let tm : Tm :=
    { sec := (gmtimeClock time).sec
      min := (gmtimeClock time).min
      hour := (gmtimeClock time).hour
      mday := d.day - 1 + 1
      mon := d.month
      year := d.year - 1900
      wday := weekday (time / 86400)
      yday := monthStart d.year d.month + (d.day - 1)
      isdst := 0 }
  have hdated : tm.Says time := by
    refine ⟨⟨d, hyear.symm, rfl, (Int.sub_add_cancel d.day 1).symm, hnumber, ?_⟩, hsec, hmin, hhour,
      hclock, rfl⟩
    show monthStart d.year d.month + d.day - 1 = monthStart d.year d.month + (d.day - 1)
    omega
  refine ⟨tm, hdated, rfl, ?_⟩
  have hcheck : checkTm tm = decide (FitsInt (tm.year + 1900)) := hdated.checkTm
  simp only [gmtime64R, htday, hdate, CRun.done_bind, hwday, julianDaysByMonth_eq, hyear,
    tableAt_map d.month_lt]
  rw [show checkTm _ = decide (FitsInt (tm.year + 1900)) from hcheck]
  simp only [decide_eq_true_eq]
  rfl

/-- The year that a time is in, whatever `tm_isdst` says. -/
lemma Tm.Says.year_eq {tm tm' : Tm} {time : ℤ} (h : tm.Says time) (h' : tm'.Says time) :
    tm.year = tm'.year := by
  have hwith : ({ tm with isdst := tm'.isdst } : Tm).Says time :=
    ⟨h.date, h.sec, h.min, h.hour, h.clock, h.wday⟩
  have heq := hwith.unique h' rfl
  rw [← heq]

/-- **`gmtime64_r` tells the date and the time of day** of every time, before and behind 1970: there
is no read outside of a table, and no assertion fails.  It gives up exactly if the year is no
`int`; for the last 1900 years of an `int` the assertions themselves are a sum that is none. -/
theorem gmtime64R_tells (time : ℤ) :
    (∀ tm, gmtime64R time = .done (some tm)
        ↔ tm.Says time ∧ tm.isdst = 0 ∧ FitsInt tm.year ∧ FitsInt (tm.year + 1900))
      ∧ (gmtime64R time = .done none ↔ ∃ tm : Tm, tm.Says time ∧ ¬ FitsInt tm.year) := by
  obtain ⟨tm, hdated, hdst, hrun⟩ := gmtime64R_spec time
  rw [hrun]
  refine ⟨fun tm' => ⟨?_, ?_⟩, ?_, ?_⟩
  · intro h
    split_ifs at h with hfits hsum
    · cases h
      exact ⟨hdated, hdst, hfits, hsum⟩
    · cases h
  · rintro ⟨hdated', hdst', hfits, hsum⟩
    obtain rfl : tm' = tm := hdated'.unique hdated (hdst'.trans hdst.symm)
    rw [if_pos hfits, if_pos hsum]
  · intro h
    refine ⟨tm, hdated, fun hfits => ?_⟩
    rw [if_pos hfits] at h
    split_ifs at h
    cases h
  · rintro ⟨tm', hdated', hno⟩
    rw [hdated'.year_eq hdated] at hno
    rw [if_neg hno]

/-! ## From a date to a time: what the loops do -/

lemma daysUp_eq {origYear year days : ℤ} (h : year ≤ origYear) :
    daysUp origYear year days = days + yearStart (origYear + 1900) - yearStart (year + 1900) := by
  fun_induction daysUp origYear year days with
  | case1 year days hmore ih =>
      have hlength := @lengthOfYear_eq year
      have hsucc := yearStart_succ (year + 1900)
      rw [show year + 1900 + 1 = year + 1 + 1900 by omega] at hsucc
      rw [ih (by omega)]
      omega
  | case2 year days hlast =>
      obtain rfl : year = origYear := by omega
      omega

lemma daysDown_eq {origYear year days : ℤ} (h : origYear ≤ year) :
    daysDown origYear year days
      = days + yearStart (origYear + 1900) - yearStart (year + 1 + 1900) := by
  fun_induction daysDown origYear year days with
  | case1 year days less hmore ih =>
      have hlength := @lengthOfYear_eq year
      have hsucc := yearStart_succ (year + 1900)
      rw [show year + 1900 + 1 = year + 1 + 1900 by omega] at hsucc
      rw [ih (by omega), show year - 1 + 1 = year by omega]
      omega
  | case2 year days less hlast =>
      have hlength := @lengthOfYear_eq year
      have hsucc := yearStart_succ (year + 1900)
      rw [show year + 1900 + 1 = year + 1 + 1900 by omega] at hsucc
      obtain rfl : year = origYear := by omega
      omega

/-- The whole cycles that `timegm64` takes away. -/
lemma timegm64_days (year : ℤ) :
    ∃ k : ℤ, (if year > 100 then (year - 100).tdiv 400
        else if year < -300 then (year - 100).tdiv 400 else 0) = k
      ∧ (if year - k * 400 > 70 then daysUp (year - k * 400) 70 (k * daysInGregorianCycle)
        else if year - k * 400 < 70 then daysDown (year - k * 400) 69 (k * daysInGregorianCycle)
        else k * daysInGregorianCycle) = yearStart (year + 1900) := by
  refine ⟨_, rfl, ?_⟩
  generalize (if year > 100 then (year - 100).tdiv 400
    else if year < -300 then (year - 100).tdiv 400 else 0) = k
  have hcycles := yearStart_cycles (year - k * 400) k
  have hstart : yearStart (70 + 1900) = 0 := rfl
  rw [show year - k * 400 + k * 400 + 1900 = year + 1900 by omega] at hcycles
  rw [show daysInGregorianCycle = 146097 from rfl]
  split_ifs with hup hdown
  · rw [daysUp_eq (by omega)]
    omega
  · rw [daysDown_eq (by omega), show (69 : ℤ) + 1 + 1900 = 70 + 1900 from rfl]
    omega
  · rw [show year - k * 400 = 70 by omega] at hcycles
    omega

/-- What `timegm64` computes, for every month that there is. -/
lemma timegm64_spec {date : Tm} {k : ℕ} (hmon : date.mon = k) (hk : k < 12)
    (hmday : FitsInt (date.mday - 1)) (hhour : FitsInt (date.hour * 60 * 60))
    (hmin : FitsInt (date.min * 60)) :
    timegm64 date = .done ((yearStart (date.year + 1900) + monthStart (date.year + 1900) k
      + date.mday - 1) * 86400 + date.hour * 3600 + date.min * 60 + date.sec) := by
  obtain ⟨cycles, hcycles, hdays⟩ := timegm64_days date.year
  have hmonth : monthStart (date.year - cycles * 400 + 1900) k
      = monthStart (date.year + 1900) k := by
    rw [show date.year - cycles * 400 + 1900 = date.year + 1900 + 400 * (-cycles) by omega]
    exact (sameCalendar_cycle _ _).monthStart k
  simp only [timegm64, hcycles, hdays, julianDaysByMonth_eq, hmon, tableAt_map hk, hmonth,
    CRun.done_bind]
  rw [if_pos ⟨hmday, hhour, hmin⟩]
  congr 1
  omega

lemma timegm64_of_date {tm : Tm} {time : ℤ} (h : tm.Says time) : timegm64 tm = .done time := by
  obtain ⟨d, hyear, hmon, hmday, hnumber, -⟩ := h.date
  have hpos := d.day_pos
  have hle := d.day_le
  have hlength := monthLength_le d.year d.month
  have hsec := h.sec
  have hmin := h.min
  have hhour := h.hour
  have hclock := h.clock
  rw [timegm64_spec hmon.symm d.month_lt (by rw [FitsInt]; omega) (by rw [FitsInt]; omega)
    (by rw [FitsInt]; omega), ← hyear, ← hmday]
  rw [Date.dayNumber, Date.dayOfYear] at hnumber
  congr 1
  omega

/-- **`timegm64` is the way back**: where the fields are a date and a time of day of any year, it
returns the one time that they say. -/
theorem timegm64_iff {tm : Tm} (h : ∃ time, tm.Says time) (time : ℤ) :
    timegm64 tm = .done time ↔ tm.Says time := by
  obtain ⟨time', hdated⟩ := h
  rw [timegm64_of_date hdated]
  constructor
  · intro heq
    cases heq
    exact hdated
  · intro hdated'
    rw [← timegm64_of_date hdated, timegm64_of_date hdated']

/-- The last second before 1970. -/
lemma says_last_second : Tm.Says ⟨59, 59, 23, 31, 11, 69, 3, 364, 0⟩ (-1) := by
  refine ⟨⟨⟨1969, 11, 31, by decide, by decide, by decide⟩, rfl, rfl, rfl, ?_, ?_⟩,
    ?_, ?_, ?_, ?_, ?_⟩ <;> decide

theorem timegm64_last_second : timegm64 ⟨59, 59, 23, 31, 11, 69, 3, 364, 0⟩ = .done (-1) :=
  (timegm64_iff ⟨-1, says_last_second⟩ (-1)).mpr says_last_second

end Luan
