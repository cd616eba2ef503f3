import Mathlib.Algebra.Group.Int.Defs
import Mathlib.Algebra.Group.Nat.Defs
import Mathlib.Data.Int.Notation
import Mathlib.Data.List.TakeWhile
import Mathlib.Logic.Function.Basic
import Mathlib.Tactic.Common

/-!
# Environment variables

The environment of a process, and how the C library reads a number from it.

* `Environment.set` — `setenv` with `overwrite`, or a dictionary of variables under construction.
* `Environment.setAll` — several variables, one after the other.
* `atoi` — `strtol` to base 10, cut off to an `int`.
-/

namespace Luan

/-- The variables of a process; `getenv` is the application. -/
abbrev Environment := String → Option String

namespace Environment

/-- `setenv(key, value, 1)` -/
def set (env : Environment) (key value : String) : Environment :=
  Function.update env key (some value)

def setAll (env : Environment) (vars : List (String × String)) : Environment :=
  vars.foldl (fun env v => env.set v.1 v.2) env

@[simp]
lemma set_self (env : Environment) (key value : String) : env.set key value key = some value := by
  simp [set]

lemma set_of_ne (env : Environment) {key other : String} (value : String) (h : other ≠ key) :
    env.set key value other = env other := by
  simp [set, h]

lemma set_apply (env : Environment) (key value other : String) :
    env.set key value other = if other = key then some value else env other := by
  simp [set, Function.update_apply]

@[simp]
lemma setAll_nil (env : Environment) : env.setAll [] = env := rfl

@[simp]
lemma setAll_cons (env : Environment) (v : String × String) (vars : List (String × String)) :
    env.setAll (v :: vars) = (env.set v.1 v.2).setAll vars := rfl

lemma setAll_append (env : Environment) (vars more : List (String × String)) :
    env.setAll (vars ++ more) = (env.setAll vars).setAll more := by
  simp [setAll]

/-- A variable that is not set keeps its value. -/
lemma setAll_of_notMem {vars : List (String × String)} {key : String}
    (h : key ∉ vars.map Prod.fst) (env : Environment) : env.setAll vars key = env key := by
  induction vars generalizing env with
  | nil => rfl
  | cons v vars ih =>
      simp only [List.map_cons, List.mem_cons, not_or] at h
      rw [setAll_cons, ih h.2, set_of_ne _ _ h.1]

/-- **A numbered list of variables.**  What was there before shows behind its end. -/
lemma setAll_numbered {key : ℕ → String} (hkey : key.Injective) (values : List String)
    (start index : ℕ) (env : Environment) :
    env.setAll ((values.zipIdx start).map fun v => (key v.2, v.1)) (key (start + index))
      = values[index]?.or (env (key (start + index))) := by
  induction values generalizing start index env with
  | nil => rfl
  | cons value values ih =>
      rw [List.zipIdx_cons, List.map_cons, setAll_cons]
      cases index with
      | zero =>
          rw [setAll_of_notMem]
          · exact set_self env _ value
          · intro hmem
            obtain ⟨v, hv, heq⟩ := List.mem_map.mp (List.map_map ▸ hmem)
            have hlt := (List.mem_zipIdx hv).1
            have hstart : v.2 = start := hkey heq
            omega
      | succ index =>
          have hne : start + (index + 1) ≠ start := by omega
          rw [show start + (index + 1) = start + 1 + index by omega] at hne ⊢
          rw [ih, set_of_ne _ _ (hkey.ne hne), List.getElem?_cons_succ]

end Environment

/-! ## Numbers -/

/-- `isspace` in the C locale -/
def isSpaceC (c : Char) : Bool :=
  let n := c.toNat
  n = 0x20 ∨ (0x09 ≤ n ∧ n ≤ 0x0D)

/-- The digits at the beginning of a text. -/
def leadingNumber (text : List Char) : ℕ :=
  (text.takeWhile Char.isDigit).foldl (fun n c => 10 * n + (c.toNat - '0'.toNat)) 0

/-- `strtol(text, NULL, 10)`, which stops at the bounds of a `long`. -/
def strtol (text : List Char) : ℤ :=
  let value : ℤ :=
    match text.dropWhile isSpaceC with
    | '-' :: digits => - leadingNumber digits
    | '+' :: digits => leadingNumber digits
    | digits => leadingNumber digits
  max (-2 ^ 63) (min value (2 ^ 63 - 1))

/-- `atoi(text)` -/
def atoi (text : List Char) : ℤ := (strtol text).bmod (2 ^ 32)

lemma leadingNumber_repr (n : ℕ) : leadingNumber n.repr.toList = n := by
  have hdigits : (Nat.toDigits 10 n).takeWhile Char.isDigit = Nat.toDigits 10 n := by
    rw [List.takeWhile_eq_self_iff]
    exact fun c hc => Nat.isDigit_of_mem_toDigits (by decide) (by decide) hc
  rw [leadingNumber, Nat.toList_repr, hdigits, ← Nat.ofDigitChars_eq_foldl,
    Nat.ofDigitChars_ten_toDigits]

/-- **A number that was written as an `int` is read again.** -/
theorem atoi_repr {n : ℕ} (h : n < 2 ^ 31) : atoi n.repr.toList = n := by
  have hdigit : ∀ c rest, n.repr.toList = c :: rest → c.isDigit = true := by
    intro c rest heq
    refine Nat.isDigit_of_mem_toDigits (b := 10) (n := n) (by decide) (by decide) ?_
    rw [← Nat.toList_repr, heq]
    exact List.mem_cons_self
  have hdrop : n.repr.toList.dropWhile isSpaceC = n.repr.toList := by
    cases heq : n.repr.toList with
    | nil => rfl
    | cons c rest =>
        refine List.dropWhile_cons_of_neg ?_
        have hc := hdigit c rest heq
        simp only [Char.isDigit, Bool.and_eq_true, decide_eq_true_eq] at hc
        have hle : 48 ≤ c.toNat := UInt32.le_iff_toNat_le.mp hc.1
        simp only [isSpaceC, decide_eq_true_eq]
        omega
  have hvalue : strtol n.repr.toList = n := by
    rw [strtol, hdrop]
    split
    case h_1 rest heq => exact absurd (hdigit _ _ heq) (by decide)
    case h_2 rest heq => exact absurd (hdigit _ _ heq) (by decide)
    case h_3 =>
        rw [leadingNumber_repr]
        omega
  rw [atoi, hvalue]
  exact Int.bmod_eq_of_le (by omega) (by omega)

end Luan
