import Luan.Core.Packing
import Luan.Wildcard.Matcher

/-!
# Counting occurrences

The loop of `count_occurrences`, for any substring.  `pos` is what is left of the string from the
pointer on, and `count` is an `int` that goes round at `2 ^ 31`.

* `countOccurrencesC_done` — for a substring with a character the loop ends, with the number of
  cuts.
* `countOccurrencesC_nil` — the empty substring is found again where the search begins: the loop
  never ends.
* `countsMostOccurrences_iff` — when the result is the largest number of occurrences that do not
  overlap.
-/

namespace Luan

/-- **What the caller expects**: the loop ends, and for a substring with a character the result is
the largest number of its occurrences that do not overlap. -/
def CountsMostOccurrences (str substr : CString) : Prop :=
  ∃ fuel count, countOccurrencesC str substr fuel = .done count
    ∧ (substr ≠ [] →
        ∃ n : ℕ, count.toInt = n
          ∧ IsGreatest {k | ∃ S, NonOverlapping substr str S ∧ S.card = k} n)

/-! ## One round -/

variable {str substr : CString} {v : CountState}

/-- Behind an occurrence the search goes on where it ends. -/
lemma countRound_some {u rest : CString} (h : v.pos.dropInfix? substr = some (u, rest)) :
    countRound substr v = .inl { count := v.count + 1, pos := rest } := by
  simp [countRound, strstr, h]

lemma countRound_none (h : v.pos.dropInfix? substr = none) :
    countRound substr v = .inr v.count := by
  simp [countRound, strstr, h]

/-! ## A substring with a character -/

/-- **The loop counts the cuts**, each round taking one off the string. -/
lemma countLoop_done (hne : substr ≠ []) (fuel : ℕ) (h : v.pos.length < fuel) :
    countLoop substr fuel v = .done (v.count + Int32.ofNat (occurrences substr hne v.pos)) := by
  induction fuel generalizing v with
  | zero => exact absurd h (Nat.not_lt_zero _)
  | succ fuel ih =>
      cases hcut : v.pos.dropInfix? substr with
      | none =>
          rw [countLoop, countRound_none hcut, occurrences_none hcut]
          simp
      | some cut =>
          obtain ⟨u, rest⟩ := cut
          have hlen := length_of_dropInfix? hne hcut
          have hrest := ih (v := { count := v.count + 1, pos := rest }) (by dsimp only; omega)
          rw [countLoop, countRound_some hcut]
          dsimp only at hrest ⊢
          rw [hrest, occurrences_some hcut, Int32.ofNat_add, Int32.add_assoc, Int32.add_comm 1]
          rfl

lemma countOccurrencesC_done (str : CString) (hne : substr ≠ []) :
    countOccurrencesC str substr (str.length + 1)
      = .done (Int32.ofNat (occurrences substr hne str)) := by
  have hdone := countLoop_done (v := { count := 0, pos := str }) hne (str.length + 1)
    (Nat.lt_succ_self _)
  rw [countOccurrencesC, hdone]
  simp

/-! ## The empty substring -/

/-- The empty string is found at once, and the pointer stays where it is. -/
lemma countRound_nil : countRound [] v = .inl { v with count := v.count + 1 } := by
  have hfound : v.pos.dropInfix? [] = some ([], v.pos) := dropInfix?_append_left [] v.pos
  rw [countRound_some hfound]

/-- **With the empty substring the loop never ends.** -/
lemma countLoop_nil (fuel : ℕ) (v : CountState) : countLoop [] fuel v = .running := by
  induction fuel generalizing v with
  | zero => rfl
  | succ fuel ih =>
      rw [countLoop, countRound_nil]
      exact ih _

lemma countOccurrencesC_nil (str : CString) (fuel : ℕ) :
    countOccurrencesC str [] fuel = .running :=
  countLoop_nil fuel _

/-! ## When the count is right -/

/-- **When `count_occurrences` counts the most occurrences**: for a substring with a character, as
long as an `int` can count them. -/
theorem countsMostOccurrences_iff (str substr : CString) :
    CountsMostOccurrences str substr
      ↔ substr ≠ [] ∧ ∀ S, NonOverlapping substr str S → S.card < 2147483648 := by
  constructor
  · rintro ⟨fuel, count, hdone, hmost⟩
    have hne : substr ≠ [] := by
      rintro rfl
      rw [countOccurrencesC_nil] at hdone
      cases hdone
    obtain ⟨n, hcount, -, hmax⟩ := hmost hne
    refine ⟨hne, fun S hS => ?_⟩
    have hle := hmax ⟨S, hS, rfl⟩
    have hlt := count.toInt_lt
    omega
  · rintro ⟨hne, hfew⟩
    have hgreatest := isGreatest_occurrences substr hne str
    obtain ⟨S, hS, hcard⟩ := hgreatest.1
    have hlt : occurrences substr hne str < 2147483648 := hcard ▸ hfew S hS
    exact ⟨_, _, countOccurrencesC_done str hne,
      fun _ => ⟨_, (toInt_ofNat_eq_iff _).mpr hlt, hgreatest⟩⟩

/-- `count_occurrences("a", "")` never returns. -/
theorem count_empty_substring :
    ¬ CountsMostOccurrences (cstr "a") []
      ∧ ¬ ∃ fuel count, countOccurrencesC (cstr "a") [] fuel = .done count := by
  have hnever : ¬ ∃ fuel count, countOccurrencesC (cstr "a") [] fuel = .done count := by
    rintro ⟨fuel, count, hdone⟩
    rw [countOccurrencesC_nil] at hdone
    cases hdone
  refine ⟨?_, hnever⟩
  rintro ⟨fuel, count, hdone, -⟩
  exact hnever ⟨fuel, count, hdone⟩

end Luan
