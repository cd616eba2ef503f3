import Mathlib.Algebra.GroupWithZero.Nat
import Mathlib.Logic.Function.Basic
import Mathlib.Tactic.Common

/-!
# Recursive mutexes

A mutex that its owner may lock again, as `pthread_mutex_t` of the kind
`PTHREAD_MUTEX_RECURSIVE`.  How often it can be locked is up to the system: `limit` times (65535 on
Darwin).  A held mutex has an owner and a count between 1 and `limit` by construction.

* `RecursiveMutex.lock` — undefined where the caller would have to wait.  At the limit the call
  fails with `EAGAIN`, and the mutex stays as it is.
* `RecursiveMutex.unlock` — undefined where the call fails with `EPERM`: the caller is not the
  owner.
* `RecursiveMutex.countOf` — how often a thread has locked the mutex.  Both operations are
  described by what they do to it.
-/

namespace Luan

/-- A recursive mutex.  The owner has locked it once, and `again` times more. -/
inductive RecursiveMutex (T : Type*) (limit : ℕ)
  | free
  | held (owner : T) (again : Fin limit)
  deriving DecidableEq, Repr

namespace RecursiveMutex

variable {T : Type*} [DecidableEq T] {limit : ℕ}

/-- The recursion count if the thread owns the mutex, and 0 otherwise. -/
def countOf : RecursiveMutex T limit → T → ℕ
  | free, _ => 0
  | held owner again, t => if t = owner then again + 1 else 0

/-- `pthread_mutex_lock`.  A free mutex can be locked whatever the limit is. -/
def lock [NeZero limit] : RecursiveMutex T limit → T → Option (RecursiveMutex T limit)
  | free, t => some (held t ⟨0, Nat.pos_of_neZero limit⟩)
  | held owner again, t =>
      if t = owner then
        if h : again + 1 < limit then some (held owner ⟨again + 1, h⟩)
        else some (held owner again)
      else none

/-- `pthread_mutex_unlock` -/
def unlock : RecursiveMutex T limit → T → Option (RecursiveMutex T limit)
  | free, _ => none
  | held owner ⟨0, _⟩, t => if t = owner then some free else none
  | held owner ⟨again + 1, h⟩, t =>
      if t = owner then some (held owner ⟨again, Nat.lt_of_succ_lt h⟩) else none

@[simp]
lemma countOf_free (t : T) : (free : RecursiveMutex T limit).countOf t = 0 := rfl

/-- **No count is above the limit.** -/
lemma countOf_le (m : RecursiveMutex T limit) (t : T) : m.countOf t ≤ limit := by
  cases m with
  | free => exact Nat.zero_le _
  | held owner again =>
      simp only [countOf]
      split
      · exact again.isLt
      · exact Nat.zero_le _

/-- **Only one thread at a time has locked the mutex.** -/
theorem countOf_exclusive {m : RecursiveMutex T limit} {t u : T} (ht : 0 < m.countOf t)
    (hu : 0 < m.countOf u) : t = u := by
  cases m with
  | free => simp at ht
  | held owner again =>
      simp only [countOf] at ht hu
      split at ht
      case isFalse => simp at ht
      case isTrue hto =>
          split at hu
          case isFalse => simp at hu
          case isTrue huo => rw [hto, huo]

/-- **What `lock` does to the counts.** -/
theorem countOf_lock [NeZero limit] {m m' : RecursiveMutex T limit} {t : T}
    (h : m.lock t = some m') (u : T) :
    m'.countOf u = if u = t then min (m.countOf t + 1) limit else m.countOf u := by
  have hpos : 0 < limit := Nat.pos_of_neZero limit
  cases m with
  | free =>
      simp only [lock, Option.some.injEq] at h
      subst h
      have hone : min 1 limit = 1 := Nat.min_eq_left hpos
      simp [countOf, hone]
  | held owner again =>
      simp only [lock] at h
      split_ifs at h with hto hlimit
      · obtain rfl := Option.some.inj h
        subst hto
        by_cases hu : u = t
        · simp only [countOf, hu, if_true]
          omega
        · simp [countOf, hu]
      · obtain rfl := Option.some.inj h
        subst hto
        by_cases hu : u = t
        · simp only [countOf, hu, if_true]
          omega
        · simp [countOf, hu]

/-- **What `unlock` does to the counts.** -/
theorem countOf_unlock {m m' : RecursiveMutex T limit} {t : T} (h : m.unlock t = some m') (u : T) :
    m'.countOf u = if u = t then m.countOf t - 1 else m.countOf u := by
  cases m with
  | free => cases h
  | held owner again =>
      obtain ⟨again, hagain⟩ := again
      cases again with
      | zero =>
          simp only [unlock] at h
          split at h
          case isFalse => cases h
          case isTrue hto =>
              obtain rfl := Option.some.inj h
              by_cases hu : u = t <;> simp [countOf, hu, ← hto]
      | succ again =>
          simp only [unlock] at h
          split at h
          case isFalse => cases h
          case isTrue hto =>
              obtain rfl := Option.some.inj h
              by_cases hu : u = t <;> simp [countOf, hu, ← hto]

/-- **Who may unlock**: a thread that has locked the mutex. -/
theorem unlock_isSome {m : RecursiveMutex T limit} {t : T} (h : 0 < m.countOf t) :
    ∃ m', m.unlock t = some m' := by
  cases m with
  | free => simp at h
  | held owner again =>
      obtain ⟨again, hagain⟩ := again
      simp only [countOf] at h
      split at h
      case isFalse => simp at h
      case isTrue hto => cases again <;> simp [unlock, hto]

/-- A mutex is granted only if no other thread has locked it. -/
theorem countOf_of_lock [NeZero limit] {m m' : RecursiveMutex T limit} {t u : T}
    (h : m.lock t = some m') (hu : 0 < m.countOf u) : u = t := by
  have hpos : 0 < limit := Nat.pos_of_neZero limit
  have hu' : 0 < m'.countOf u := by
    rw [countOf_lock h]
    split <;> omega
  have ht' : 0 < m'.countOf t := by
    rw [countOf_lock h]
    simp only [if_true]
    omega
  exact countOf_exclusive hu' ht'

/-- **Who may lock**: a thread, if no other one has locked the mutex. -/
theorem lock_isSome [NeZero limit] {m : RecursiveMutex T limit} {t : T}
    (h : ∀ u, u ≠ t → m.countOf u = 0) : ∃ m', m.lock t = some m' := by
  cases m with
  | free => exact ⟨_, rfl⟩
  | held owner again =>
      by_cases hto : t = owner
      · simp only [lock, hto, if_true]
        split <;> exact ⟨_, rfl⟩
      · have hcount := h owner (Ne.symm hto)
        simp [countOf] at hcount

end RecursiveMutex

end Luan
