import Mathlib.Algebra.Group.Int.Defs
import Mathlib.Algebra.Group.Nat.Defs
import Mathlib.Data.Nat.Size
import Mathlib.Tactic.SplitIfs

/-!
# Integers as floating-point numbers

An integer is rounded to some binary digits, to the nearest number and, between two of them, to the
even one.  The range of the exponents is not looked at.

* `roundInt_eq_iff` — which integers stay as they are.
* `roundInt_near` — how far away the rounded number is at most.
-/

namespace Luan

/-- The digits of a number that are too many. -/
def extraBits (p m : ℕ) : ℕ := m.size - p

/-- A number with its first `p` binary digits. -/
def roundNat (p m : ℕ) : ℕ :=
  let unit := 2 ^ extraBits p m
  if 2 * (m % unit) < unit ∨ (2 * (m % unit) = unit ∧ m / unit % 2 = 0) then m / unit * unit
  else (m / unit + 1) * unit

/-- The sign is not rounded. -/
def roundInt (p : ℕ) (t : ℤ) : ℤ := t.sign * roundNat p t.natAbs

variable {p m : ℕ} {t : ℤ}

lemma extraBits_le {q : ℕ} (h : m < 2 ^ (p + q)) : extraBits p m ≤ q := by
  have hsize := Nat.size_le.mpr h
  rw [extraBits]
  omega

/-- **Only the multiples of the last digit's value stay as they are.** -/
lemma roundNat_eq_iff : roundNat p m = m ↔ 2 ^ extraBits p m ∣ m := by
  have hunit : 0 < 2 ^ extraBits p m := Nat.two_pow_pos _
  have hsplit := Nat.div_add_mod' m (2 ^ extraBits p m)
  have hless := Nat.mod_lt m hunit
  simp only [roundNat]
  rw [Nat.dvd_iff_mod_eq_zero]
  split_ifs with hdown
  · omega
  · rw [Nat.add_mul, Nat.one_mul]
    omega

lemma roundNat_near : 2 * roundNat p m ≤ 2 * m + 2 ^ extraBits p m
    ∧ 2 * m ≤ 2 * roundNat p m + 2 ^ extraBits p m := by
  have hunit : 0 < 2 ^ extraBits p m := Nat.two_pow_pos _
  have hsplit := Nat.div_add_mod' m (2 ^ extraBits p m)
  have hless := Nat.mod_lt m hunit
  simp only [roundNat]
  split_ifs with hdown
  · omega
  · rw [Nat.add_mul, Nat.one_mul]
    omega

lemma roundInt_eq_iff : roundInt p t = t ↔ (2 ^ extraBits p t.natAbs : ℕ) ∣ t.natAbs := by
  rw [← roundNat_eq_iff, roundInt]
  constructor
  · intro h
    rcases Int.lt_trichotomy t 0 with hneg | rfl | hpos
    · rw [Int.sign_eq_neg_one_of_neg hneg] at h
      omega
    · simp [roundNat]
    · rw [Int.sign_eq_one_of_pos hpos] at h
      omega
  · intro h
    rw [h, Int.sign_mul_natAbs]

/-- A number of `p` digits is not rounded. -/
lemma roundInt_of_lt (h : t.natAbs < 2 ^ p) : roundInt p t = t := by
  rw [roundInt_eq_iff, Nat.le_zero.mp (extraBits_le h), Nat.pow_zero]
  exact Nat.one_dvd _

/-- A number of `p + q + 1` digits moves by half of its last unit at most. -/
lemma roundInt_near {q : ℕ} (h : t.natAbs < 2 ^ (p + (q + 1))) :
    (roundInt p t - t).natAbs ≤ 2 ^ q := by
  have hextra := extraBits_le h
  have hpow : 2 ^ extraBits p t.natAbs ≤ 2 * 2 ^ q := by
    calc 2 ^ extraBits p t.natAbs ≤ 2 ^ (q + 1) := Nat.pow_le_pow_right (by decide) hextra
      _ = 2 * 2 ^ q := Nat.pow_succ'
  have hnear := @roundNat_near p t.natAbs
  rw [roundInt]
  rcases Int.lt_trichotomy t 0 with hneg | rfl | hpos
  · rw [Int.sign_eq_neg_one_of_neg hneg]
    omega
  · simp
  · rw [Int.sign_eq_one_of_pos hpos]
    omega

end Luan
