import Mathlib.Algebra.Group.Nat.Defs
import Mathlib.Data.List.Basic

/-!
# Code that can do something undefined

What a piece of C code ends with, and reads of a block of memory: a read outside of the block is
something undefined.  An `int` has 32 bits and goes round at `2 ^ 31`.
-/

namespace Luan

/-- How a piece of C code ends. -/
inductive CRun (α : Type)
  /-- The fuel of the model is used up. -/
  | running
  /-- The C program does something undefined. -/
  | undefined
  | done (value : α)
  deriving DecidableEq, Repr

namespace CRun

/-- One piece of code behind another. -/
def bind {α β : Type} : CRun α → (α → CRun β) → CRun β
  | running, _ => running
  | undefined, _ => undefined
  | done value, next => next value

@[simp] lemma done_bind {α β : Type} (value : α) (next : α → CRun β) :
    (CRun.done value).bind next = next value := rfl

end CRun

/-- The byte of a block at an offset. -/
def byteAt (block : List UInt8) (i : ℕ) : CRun UInt8 :=
  match block[i]? with
  | some b => .done b
  | none => .undefined

/-- The bytes of a block from one offset to another. -/
def bytesFromTo (block : List UInt8) (first last : ℕ) : CRun (List UInt8) :=
  if first ≤ last ∧ last ≤ block.length then .done ((block.drop first).take (last - first))
  else .undefined

lemma byteAt_of_get? {block : List UInt8} {i : ℕ} {b : UInt8} (h : block[i]? = some b) :
    byteAt block i = .done b := by
  rw [byteAt, h]

/-- A block is read up to its end. -/
lemma bytesFromTo_length {block : List UInt8} {first : ℕ} (h : first ≤ block.length) :
    bytesFromTo block first block.length = .done (block.drop first) := by
  rw [bytesFromTo, if_pos ⟨h, Nat.le_refl _⟩, List.take_of_length_le]
  exact Nat.le_of_eq List.length_drop

/-- The `int` holds the number if there are fewer than `2 ^ 31`. -/
lemma toInt_ofNat_eq_iff (n : ℕ) : (Int32.ofNat n).toInt = n ↔ n < 2147483648 := by
  constructor
  · intro h
    have hlt := (Int32.ofNat n).toInt_lt
    rw [h] at hlt
    exact Int.ofNat_lt.mp hlt
  · exact Int32.toInt_ofNat_of_lt

/-- A number that goes round at `2 ^ 31` stays as it is if it is an `int`. -/
lemma bmod_eq_self_iff (x : Int) :
    x.bmod (2 ^ 32) = x ↔ -2147483648 ≤ x ∧ x < 2147483648 := by
  constructor
  · intro h
    have hlt := Int.bmod_lt (x := x) (m := 2 ^ 32) (by decide)
    have hle := Int.le_bmod (x := x) (m := 2 ^ 32) (by decide)
    omega
  · rintro ⟨hle, hlt⟩
    exact Int.bmod_eq_of_le (by omega) (by omega)

/-- Counting up below the largest `int`. -/
lemma toInt_add_one {n : Int32} (h : n.toInt < 2147483647) : (n + 1).toInt = n.toInt + 1 := by
  have hle := n.le_toInt
  have hone : (1 : Int32).toInt = 1 := rfl
  rw [Int32.toInt_add, hone]
  exact Int.bmod_eq_of_le (by simp; omega) (by simp; omega)

/-- Counting down above the smallest `int`. -/
lemma toInt_sub_one {n : Int32} (h : -2147483648 < n.toInt) : (n - 1).toInt = n.toInt - 1 := by
  have hlt := n.toInt_lt
  have hone : (1 : Int32).toInt = 1 := rfl
  rw [Int32.toInt_sub, hone]
  exact Int.bmod_eq_of_le (by simp; omega) (by simp; omega)

end Luan
