import Luan.Core.Doubles
import Luan.Native.LocalTime64

/-!
# Times for Lua

`time64.time` of `lua-apple/utlua/ltime64.c`, over `mktime64`.  A field of the table is cast to an
`int`, a sum of `int`s that is none is `undefined`, and the answer is a `double`.

* `time64Time_tells` — what is answered for a date of any year that is an `int`.
-/

namespace Luan

open Gregorian

/-- The table that Lua passes. -/
structure DateTable where
  /-- `lua_tointegerx` of a field, where that is an integer -/
  field : String → Option Int64
  /-- `none` is `nil`. -/
  isdst : Option Bool

/-- How `time64_time` ends. -/
inductive TimeAnswer
  /-- `field '%s' missing in date table` -/
  | missing (key : String)
  | nil
  /-- A `lua_Number`; here it always is an integer. -/
  | number (t : ℤ)
  deriving DecidableEq, Repr

/-- `getfield`, and what is done with its result. -/
def DateTable.getfield (table : DateTable) (key : String) (d : ℤ) (next : ℤ → CRun TimeAnswer) :
    CRun TimeAnswer :=
  match table.field key with
  | some res => next res.toInt32.toInt
  | none => if d < 0 then .done (.missing key) else next d

/-- `getboolfield` -/
def DateTable.getboolfield (table : DateTable) : ℤ :=
  match table.isdst with
  | none => -1
  | some false => 0
  | some true => 1

/-- The sum of two `int`s, and what is done with it. -/
def intSum (n : ℤ) (next : ℤ → CRun TimeAnswer) : CRun TimeAnswer :=
  if FitsInt n then next n else .undefined

/-- The end of `time64_time`. -/
def pushTime (t : ℤ) : TimeAnswer := if t = -1 then .nil else .number (roundInt 53 t)

/-- `time64_time`; nothing has been written to `ts` before. -/
def time64Time (mktime : Tm → ℤ × Tm) (now : ℤ) (ts : Tm) : Option DateTable → CRun TimeAnswer
  | none => .done (pushTime now)
  | some table =>
      table.getfield "sec" 0 fun sec =>
      table.getfield "min" 0 fun min =>
      table.getfield "hour" 12 fun hour =>
      table.getfield "day" (-1) fun mday =>
      table.getfield "month" (-1) fun month => intSum (month - 1) fun mon =>
      table.getfield "year" (-1) fun year => intSum (year - 1900) fun year =>
      (mktime64 mktime ⟨sec, min, hour, mday, mon, year, ts.wday, ts.yday, table.getboolfield⟩).bind
        fun (t, _) => .done (pushTime t)

/-! ## What a table says -/

namespace DateTable

variable {table : DateTable} {key : String} {d n : ℤ} {next : ℤ → CRun TimeAnswer}

/-- The field has this number. -/
def Has (table : DateTable) (key : String) (n : ℤ) : Prop :=
  ∃ res, table.field key = some res ∧ res.toInt = n

/-- The field has this number, or it is not there and the number stands for it. -/
def HasOr (table : DateTable) (key : String) (d n : ℤ) : Prop :=
  table.Has key n ∨ (table.field key = none ∧ n = d)

/-- The table says a date, and a time of day: without an hour it is noon. -/
structure Names (table : DateTable) (date : Tm) : Prop where
  year : table.Has "year" (date.year + 1900)
  mon : table.Has "month" (date.mon + 1)
  mday : table.Has "day" date.mday
  hour : table.HasOr "hour" 12 date.hour
  min : table.HasOr "min" 0 date.min
  sec : table.HasOr "sec" 0 date.sec

/-- A number that is an `int` is not changed by the cast. -/
lemma Has.getfield (h : table.Has key n) (hfits : FitsInt n) :
    table.getfield key d next = next n := by
  obtain ⟨res, hfield, rfl⟩ := h
  obtain ⟨hmin, hmax⟩ := hfits
  have hcast : res.toInt32.toInt = res.toInt := by
    rw [Int64.toInt_toInt32]
    exact Int.bmod_eq_of_le (by omega) (by omega)
  rw [DateTable.getfield, hfield, ← hcast]

lemma HasOr.getfield (h : table.HasOr key d n) (hd : 0 ≤ d) (hfits : FitsInt n) :
    table.getfield key d next = next n := by
  rcases h with h | ⟨hfield, rfl⟩
  · exact h.getfield hfits
  · rw [DateTable.getfield, hfield]
    exact if_neg (Int.not_lt.mpr hd)

end DateTable

/-! ## What is answered -/

section Answer

variable {mktime : Tm → ℤ × Tm} {offset local' : ℤ} {table : DateTable} {date : Tm}

/-- All fields but the year are small. -/
lemma Tm.Asks.fits (h : date.Asks local') : (FitsInt date.sec ∧ FitsInt date.min
    ∧ FitsInt date.hour) ∧ FitsInt date.mday ∧ FitsInt date.mon ∧ FitsInt (date.mon + 1) := by
  obtain ⟨wday, yday, ⟨d, -, hmon, hmday, -, -⟩, hsec, hmin, hhour, -, -⟩ := h
  have hmonth := d.month_lt
  have hfirst := d.day_pos
  have hlast := d.day_le
  have hlength := monthLength_le d.year d.month
  simp only at hmon hmday hsec hmin hhour
  simp only [FitsInt]
  omega

/-- A time of a year that is an `int` has 56 binary digits. -/
lemma Tm.Asks.time_lt (h : date.Asks local') (hyear : FitsInt (date.year + 1900))
    (hoffset : -86400 < offset ∧ offset < 86400) : (local' - offset).natAbs < 2 ^ 56 := by
  obtain ⟨wday, yday, ⟨d, hdate, -, -, hnumber, -⟩, -, -, -, -, -⟩ := h
  have hnonneg := d.dayOfYear_nonneg
  have hlt := d.dayOfYear_lt
  have hlength := yearLength_le d.year
  simp only at hdate
  simp only [Date.dayNumber, yearStart] at hnumber
  simp only [FitsInt] at hyear
  omega

/-- `time64_time` asks `mktime64` about the date of the table. -/
lemma time64Time_names (hnames : table.Names date) (hasks : date.Asks local')
    (hyear : FitsInt (date.year + 1900)) (now : ℤ) (ts : Tm) :
    time64Time mktime now ts (some table) = intSum date.year fun year =>
      (mktime64 mktime ⟨date.sec, date.min, date.hour, date.mday, date.mon, year, ts.wday, ts.yday,
        table.getboolfield⟩).bind fun (t, _) => .done (pushTime t) := by
  obtain ⟨⟨hsec, hmin, hhour⟩, hmday, hmon, hmonth⟩ := hasks.fits
  rw [time64Time, hnames.sec.getfield (Int.le_refl 0) hsec,
    hnames.min.getfield (Int.le_refl 0) hmin, hnames.hour.getfield (by decide) hhour,
    hnames.mday.getfield hmday, hnames.mon.getfield hmonth, Int.add_sub_cancel, intSum,
    if_pos hmon, hnames.year.getfield hyear, Int.add_sub_cancel]

/-- The time of the date is answered. -/
lemma time64Time_done (hmktime : SystemMktime mktime offset) (hnames : table.Names date)
    (hdst : table.isdst ≠ some true) (hasks : date.Asks local')
    (hyear : FitsInt (date.year + 1900)) (hfits : FitsInt date.year) (now : ℤ) (ts : Tm) :
    time64Time mktime now ts (some table) = .done (pushTime (local' - offset)) := by
  have hasks' : Tm.Asks ⟨date.sec, date.min, date.hour, date.mday, date.mon, date.year, ts.wday,
      ts.yday, table.getboolfield⟩ local' := by
    obtain ⟨wday, yday, hdated⟩ := hasks
    exact ⟨wday, yday, hdated.date, hdated.sec, hdated.min, hdated.hour, hdated.clock,
      hdated.wday⟩
  have hdst' : table.getboolfield ≤ 0 := by
    rw [DateTable.getboolfield]
    split
    · decide
    · decide
    · exact absurd ‹_› hdst
  obtain ⟨answer, hrun⟩ := mktime64_fixed hmktime hasks' hdst' hyear
  rw [time64Time_names hnames hasks hyear, intSum, if_pos hfits, hrun]
  rfl

/-- **What `time64.time` answers** in a zone with one offset, for a date of any year that is an
`int`: `nil` for the second before 1970, and otherwise a number that is at most four seconds off,
and exact for times of less than 54 binary digits.  In the first 1900 of these years the program
does something undefined. -/
theorem time64Time_tells (hmktime : SystemMktime mktime offset)
    (hoffset : -86400 < offset ∧ offset < 86400) (hnames : table.Names date)
    (hdst : table.isdst ≠ some true) (hasks : date.Asks local')
    (hyear : FitsInt (date.year + 1900)) (now : ℤ) (ts : Tm) :
    if ¬ FitsInt date.year then time64Time mktime now ts (some table) = .undefined
    else if local' - offset = -1 then time64Time mktime now ts (some table) = .done .nil
    else ∃ t, time64Time mktime now ts (some table) = .done (.number t)
      ∧ (t - (local' - offset)).natAbs ≤ 4
      ∧ ((local' - offset).natAbs < 2 ^ 53 → t = local' - offset) := by
  by_cases hfits : FitsInt date.year
  · rw [if_neg (not_not_intro hfits),
      time64Time_done hmktime hnames hdst hasks hyear hfits, pushTime]
    split_ifs with hminus
    · rfl
    · refine ⟨_, rfl, ?_, roundInt_of_lt⟩
      exact @roundInt_near 53 _ 2 (hasks.time_lt hyear hoffset)
  · rw [if_pos hfits, time64Time_names hnames hasks hyear, intSum, if_neg hfits]

end Answer

/-- `{year = 2050, month = 6, day = 15}` -/
def summerDay : DateTable where
  field key := [("year", 2050), ("month", 6), ("day", 15)].lookup key
  isdst := none

/-- Noon is understood. -/
theorem time64Time_tells_2050 :
    time64Time (fixedMktime 3600) 0 ⟨7, 7, 7, 7, 7, 7, 7, 7, 7⟩ (some summerDay)
      = .done (.number 2538903600) := by
  have hnames : summerDay.Names ⟨0, 0, 12, 15, 5, 150, 0, 0, 0⟩ :=
    ⟨⟨2050, rfl, rfl⟩, ⟨6, rfl, rfl⟩, ⟨15, rfl, rfl⟩, Or.inr ⟨rfl, rfl⟩, Or.inr ⟨rfl, rfl⟩,
      Or.inr ⟨rfl, rfl⟩⟩
  have hasks : Tm.Asks ⟨0, 0, 12, 15, 5, 150, 0, 0, 0⟩ 2538907200 :=
    ⟨3, 165, ⟨⟨2050, 5, 15, by decide, by decide, by decide⟩, rfl, rfl, rfl, by decide, by decide⟩,
      by decide, by decide, by decide, by decide, by decide⟩
  have htells := time64Time_tells (fixedMktime_tells 3600) (by decide) hnames (by decide) hasks
    (by decide) 0 ⟨7, 7, 7, 7, 7, 7, 7, 7, 7⟩
  rw [if_neg (by decide), if_neg (by decide)] at htells
  obtain ⟨t, hrun, -, hexact⟩ := htells
  rw [hrun, hexact (by decide)]
  rfl

end Luan
