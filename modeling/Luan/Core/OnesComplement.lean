import Mathlib.Data.Nat.Init
import Mathlib.Tactic.SplitIfs

/-!
# One's complement addition

Numbers of `w` bits are added with the carry out of the top brought back in at the bottom.  With
`m = 2 ^ w - 1` this is addition modulo `m` in which zero has two representations: `0`, for a sum of
zeros alone, and `m`, for every other multiple of `m`.

* `onesSum_eq` — adding numbers one by one is representing their sum.
* `onesRep_unique` — what tells the representation of a sum from other numbers.
-/

namespace Luan

/-- One's complement addition of numbers up to `m`. -/
def onesAdd (m a b : ℕ) : ℕ := if a + b ≤ m then a + b else a + b - m

/-- The one's complement sum of some numbers. -/
def onesSum (m : ℕ) : List ℕ → ℕ
  | [] => 0
  | w :: ws => onesAdd m w (onesSum m ws)

/-- The sum of some numbers. -/
def wordTotal : List ℕ → ℕ
  | [] => 0
  | w :: ws => w + wordTotal ws

/-- The number up to `m` that represents `n`. -/
def onesRep (m n : ℕ) : ℕ := if n = 0 then 0 else (n - 1) % m + 1

variable {m n x a b : ℕ}

lemma onesRep_le (hm : 0 < m) (n : ℕ) : onesRep m n ≤ m := by
  rw [onesRep]
  split_ifs
  · exact Nat.zero_le m
  · exact Nat.mod_lt _ hm

lemma onesRep_mod (m n : ℕ) : onesRep m n % m = n % m := by
  rw [onesRep]
  split_ifs with hn
  · rw [hn]
  · rw [Nat.mod_add_mod, Nat.sub_add_cancel (Nat.pos_of_ne_zero hn)]

lemma onesRep_eq_zero : onesRep m n = 0 ↔ n = 0 := by
  rw [onesRep]
  split_ifs with hn
  · simp [hn]
  · simp [hn]

/-- Two positive numbers up to `m` with one remainder are the same. -/
lemma eq_of_mod_eq_of_pos (ha : 0 < a) (hb : 0 < b) (ham : a ≤ m) (hbm : b ≤ m)
    (h : a % m = b % m) : a = b := by
  rcases Nat.lt_or_eq_of_le ham with ha' | rfl
  · rcases Nat.lt_or_eq_of_le hbm with hb' | rfl
    · rwa [Nat.mod_eq_of_lt ha', Nat.mod_eq_of_lt hb'] at h
    · rw [Nat.mod_self, Nat.mod_eq_of_lt ha'] at h
      omega
  · rcases Nat.lt_or_eq_of_le hbm with hb' | rfl
    · rw [Nat.mod_self, Nat.mod_eq_of_lt hb'] at h
      omega
    · rfl

/-- **The representation of `n` is the number up to `m` with its remainder that is zero only when
`n` is.** -/
lemma onesRep_unique (hx : x ≤ m) (hmod : x % m = n % m) (hzero : x = 0 ↔ n = 0) :
    x = onesRep m n := by
  by_cases hn : n = 0
  · rw [hzero.mpr hn, hn]
    rfl
  · have hxpos : 0 < x := Nat.pos_of_ne_zero (mt hzero.mp hn)
    have hrep : 0 < onesRep m n := Nat.pos_of_ne_zero (mt onesRep_eq_zero.mp hn)
    exact eq_of_mod_eq_of_pos hxpos hrep hx (onesRep_le (by omega) n)
      (hmod.trans (onesRep_mod m n).symm)

lemma onesRep_congr (hm : 0 < m) (hmod : a % m = b % m) (hzero : a = 0 ↔ b = 0) :
    onesRep m a = onesRep m b :=
  onesRep_unique (onesRep_le hm a) ((onesRep_mod m a).trans hmod) (onesRep_eq_zero.trans hzero)

lemma wordTotal_le {ws : List ℕ} (h : ∀ w ∈ ws, w ≤ m) : wordTotal ws ≤ ws.length * m := by
  induction ws with
  | nil => exact Nat.zero_le _
  | cons w ws ih =>
      have hw := h w List.mem_cons_self
      have hws := ih fun w' hw' => h w' (List.mem_cons_of_mem w hw')
      rw [wordTotal, List.length_cons, Nat.succ_mul]
      omega

/-- Adding is representing the sum. -/
lemma onesAdd_eq (ha : a ≤ m) (hb : b ≤ m) : onesAdd m a b = onesRep m (a + b) := by
  rw [onesAdd]
  split_ifs with hsum
  · exact onesRep_unique hsum rfl Iff.rfl
  · refine onesRep_unique (by omega) ?_ (by omega)
    exact (Nat.mod_eq_sub_mod (by omega)).symm

/-- A summand may be represented first. -/
lemma onesRep_add (hm : 0 < m) (a b : ℕ) : onesRep m (a + onesRep m b) = onesRep m (a + b) := by
  refine onesRep_unique (onesRep_le hm _) ?_ ?_
  · rw [onesRep_mod, Nat.add_mod, onesRep_mod, ← Nat.add_mod]
  · rw [onesRep_eq_zero, Nat.add_eq_zero_iff, onesRep_eq_zero, Nat.add_eq_zero_iff]

/-- **Adding numbers one by one is representing their sum.** -/
lemma onesSum_eq (hm : 0 < m) {ws : List ℕ} (h : ∀ w ∈ ws, w ≤ m) :
    onesSum m ws = onesRep m (wordTotal ws) := by
  induction ws with
  | nil => rfl
  | cons w ws ih =>
      rw [onesSum, wordTotal, ih fun w' hw' => h w' (List.mem_cons_of_mem w hw'),
        onesAdd_eq (h w List.mem_cons_self) (onesRep_le hm _), onesRep_add hm]

end Luan
