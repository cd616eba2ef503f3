import Mathlib.Data.List.Basic
import Mathlib.Tactic.Common

/-!
# Writing into a file

`writeAt c pos d` is a file with the contents `c` behind a `write` of `d` at an offset.  What is
there already is overwritten, and a gap between the end of the file and the offset is filled with
zeros.  A block of memory is written in the same way, where what is written fits into it.

* `writeAt_eq_append_iff` — a write appends only at the end.
* `take_writeAt` — a write within the block, up to the end of what was written.
* `writeAt_over` — a write at the end of a text that is followed by another one.
-/

namespace Luan

/-- The contents of a file behind a `write`; writing nothing does not fill a gap. -/
def writeAt (c : List UInt8) (pos : ℕ) (d : List UInt8) : List UInt8 :=
  if d = [] then c
  else c.take pos ++ List.replicate (pos - c.length) 0 ++ d ++ c.drop (pos + d.length)

@[simp] lemma writeAt_nil (c : List UInt8) (pos : ℕ) : writeAt c pos [] = c := if_pos rfl

lemma writeAt_of_le {c : List UInt8} {pos : ℕ} (h : pos ≤ c.length) (d : List UInt8) :
    writeAt c pos d = c.take pos ++ d ++ c.drop (pos + d.length) := by
  rw [writeAt]
  split_ifs with hd
  · rw [hd, List.append_nil, List.length_nil, Nat.add_zero, List.take_append_drop]
  · rw [Nat.sub_eq_zero_of_le h, List.replicate_zero, List.append_nil]

lemma length_writeAt {c d : List UInt8} {pos : ℕ} (h : pos + d.length ≤ c.length) :
    (writeAt c pos d).length = c.length := by
  rw [writeAt_of_le (by omega)]
  simp only [List.length_append, List.length_take, List.length_drop]
  omega

/-- **Within a block**: the old beginning and what was written. -/
lemma take_writeAt {c d : List UInt8} {pos : ℕ} (h : pos + d.length ≤ c.length) :
    (writeAt c pos d).take (pos + d.length) = c.take pos ++ d := by
  rw [writeAt_of_le (by omega), List.take_append_of_le_length, List.take_of_length_le]
  · rw [List.length_append, List.length_take]
    omega
  · rw [List.length_append, List.length_take]
    omega

/-- **At the end of the file.** -/
lemma writeAt_end (c d : List UInt8) : writeAt c c.length d = c ++ d := by
  rw [writeAt_of_le (Nat.le_refl _), List.take_length, List.drop_eq_nil_of_le (by omega),
    List.append_nil]

/-- **Only there.** -/
lemma writeAt_eq_append_iff {c d : List UInt8} {pos : ℕ} :
    writeAt c pos d = c ++ d ↔ d = [] ∨ pos = c.length := by
  constructor
  · intro h
    by_cases hd : d = []
    · exact Or.inl hd
    · have hpos := List.length_pos_iff.mpr hd
      have hlength := congrArg List.length h
      rw [writeAt, if_neg hd] at hlength
      simp only [List.length_append, List.length_take, List.length_replicate,
        List.length_drop] at hlength
      exact Or.inr (by omega)
  · rintro (rfl | rfl)
    · rw [writeAt_nil, List.append_nil]
    · exact writeAt_end c d

/-- **At the end of a text**: what follows it is overwritten as far as the write goes. -/
lemma writeAt_over (t r d : List UInt8) :
    writeAt (t ++ r) t.length d = t ++ d ++ r.drop d.length := by
  rw [writeAt_of_le (by rw [List.length_append]; omega), List.take_left,
    List.drop_length_add_append]

end Luan
