import Luan.Core.Cuts
import Mathlib.Data.Finset.Max
import Mathlib.Order.Bounds.Basic

/-!
# The most occurrences that do not overlap

Cutting a text at the leftmost occurrence of a word, and again behind it, finds as many occurrences
as can be found without two of them overlapping (`isGreatest_occurrences`).  Whatever occurrence
comes first in another choice, it does not end before the leftmost one, so that its place can be
taken by the leftmost one and the rest is a choice from what is behind the cut.
-/

namespace Luan

variable {α : Type*}

/-- The needle stands in the text at this place. -/
def OccursAt (needle text : List α) (i : ℕ) : Prop := needle <+: text.drop i

/-- Places of the needle in the text, no two of which overlap. -/
structure NonOverlapping (needle text : List α) (S : Finset ℕ) : Prop where
  occurs : ∀ i ∈ S, OccursAt needle text i
  apart : ∀ i ∈ S, ∀ j ∈ S, i < j → i + needle.length ≤ j

/-- The places between pieces of a text whose first one begins at `i`. -/
def places (needle : List α) (i : ℕ) : List (List α) → List ℕ
  | [] => []
  | [_] => []
  | u :: next :: pieces =>
      (i + u.length) :: places needle (i + u.length + needle.length) (next :: pieces)

/-! ## What the cuts find -/

lemma places_cons {needle u : List α} {i : ℕ} {pieces : List (List α)} (h : pieces ≠ []) :
    places needle i (u :: pieces)
      = (i + u.length) :: places needle (i + u.length + needle.length) pieces := by
  obtain ⟨next, pieces, rfl⟩ := List.exists_cons_of_ne_nil h
  rw [places]

lemma length_places (needle : List α) (i : ℕ) (pieces : List (List α)) :
    (places needle i pieces).length = pieces.length - 1 := by
  fun_induction places needle i pieces with
  | case1 => rfl
  | case2 => rfl
  | case3 i u next pieces ih =>
      rw [List.length_cons, ih]
      simp

/-- Behind the front part of a text. -/
lemma occursAt_append {needle text : List α} (front : List α) {i : ℕ} (h : front.length ≤ i) :
    OccursAt needle (front ++ text) i ↔ OccursAt needle text (i - front.length) := by
  rw [OccursAt, OccursAt, List.drop_append, List.drop_of_length_le h, List.nil_append]

variable [BEq α] [LawfulBEq α] {needle text u v : List α} {hne : needle ≠ []} {S : Finset ℕ}

/-- No occurrence begins before the leftmost one. -/
lemma length_le_of_occursAt (h : text.dropInfix? needle = some (u, v)) {i : ℕ}
    (hi : OccursAt needle text i) : u.length ≤ i := by
  obtain ⟨w, hw⟩ := hi
  have hcut : text.take i ++ needle ++ w = text := by
    rw [List.append_assoc, hw, List.take_append_drop]
  have hle := (dropInfix?_eq_some.mp h).2 _ _ hcut
  rw [List.length_take] at hle
  omega

/-- Each cut is an occurrence, behind the ones before it. -/
lemma occursAt_of_mem_places {i j : ℕ} (hj : j ∈ places needle i (cutAll needle hne text)) :
    i ≤ j ∧ OccursAt needle text (j - i) := by
  fun_induction cutAll needle hne text generalizing i with
  | case1 text h => cases hj
  | case2 text u v h ih =>
      obtain ⟨hcut, -⟩ := dropInfix?_eq_some.mp h
      rw [places_cons cutAll_ne_nil] at hj
      rcases List.mem_cons.mp hj with rfl | hj
      · refine ⟨Nat.le_add_right _ _, ?_⟩
        rw [Nat.add_sub_cancel_left, ← hcut, List.append_assoc, OccursAt, List.drop_left]
        exact List.prefix_append needle v
      · obtain ⟨hle, hocc⟩ := ih hj
        refine ⟨by omega, ?_⟩
        rw [← hcut, occursAt_append _ (by rw [List.length_append]; omega), List.length_append]
        have hsame : j - i - (u.length + needle.length) = j - (i + u.length + needle.length) := by
          omega
        rwa [hsame]

/-- The cuts do not overlap. -/
lemma pairwise_places (hne : needle ≠ []) (text : List α) (i : ℕ) :
    (places needle i (cutAll needle hne text)).Pairwise (fun a b => a + needle.length ≤ b) := by
  fun_induction cutAll needle hne text generalizing i with
  | case1 text h => exact List.Pairwise.nil
  | case2 text u v h ih =>
      rw [places_cons cutAll_ne_nil]
      exact List.pairwise_cons.mpr ⟨fun b hb => (occursAt_of_mem_places hb).1, ih _⟩

lemma nodup_places (hne : needle ≠ []) (text : List α) (i : ℕ) :
    (places needle i (cutAll needle hne text)).Nodup := by
  have hpos := List.length_pos_iff.mpr hne
  refine (pairwise_places hne text i).imp ?_
  intro a b hab
  omega

/-- **The cuts are a choice of occurrences that do not overlap.** -/
lemma nonOverlapping_places (needle : List α) (hne : needle ≠ []) (text : List α) :
    NonOverlapping needle text (places needle 0 (cutAll needle hne text)).toFinset := by
  refine ⟨fun i hi => ?_, fun i hi j hj hij => ?_⟩
  · exact (occursAt_of_mem_places (List.mem_toFinset.mp hi)).2
  · rw [List.mem_toFinset] at hi hj
    obtain ⟨a, ha, rfl⟩ := List.mem_iff_getElem.mp hi
    obtain ⟨b, hb, rfl⟩ := List.mem_iff_getElem.mp hj
    have hpw := List.pairwise_iff_getElem.mp (pairwise_places hne text 0)
    rcases Nat.lt_trichotomy a b with hab | rfl | hab
    · exact hpw a b ha hb hab
    · omega
    · have hback := hpw b a hb ha hab
      omega

/-! ## No other choice has more -/

/-- Behind its first place, a choice has places behind the leftmost occurrence only. -/
lemma NonOverlapping.far (h : text.dropInfix? needle = some (u, v))
    (hS : NonOverlapping needle text S) {m : ℕ} (hm : m ∈ S) (hmin : ∀ i ∈ S, m ≤ i) {i : ℕ}
    (hi : i ∈ S.erase m) : u.length + needle.length ≤ i := by
  obtain ⟨hne, hi⟩ := Finset.mem_erase.mp hi
  have hfirst := length_le_of_occursAt h (hS.occurs m hm)
  have hlt : m < i := Nat.lt_of_le_of_ne (hmin i hi) (Ne.symm hne)
  have hnext := hS.apart m hm i hi hlt
  omega

/-- Without its first place, a choice is one from the text behind the leftmost occurrence. -/
lemma NonOverlapping.behind (h : text.dropInfix? needle = some (u, v))
    (hS : NonOverlapping needle text S) {m : ℕ} (hm : m ∈ S) (hmin : ∀ i ∈ S, m ≤ i) :
    NonOverlapping needle v ((S.erase m).image (· - (u.length + needle.length))) := by
  obtain ⟨hcut, -⟩ := dropInfix?_eq_some.mp h
  refine ⟨fun i hi => ?_, fun i hi j hj hij => ?_⟩
  · obtain ⟨i, hi', rfl⟩ := Finset.mem_image.mp hi
    have hocc := hS.occurs i (Finset.mem_of_mem_erase hi')
    rw [← hcut, occursAt_append _ (by rw [List.length_append]; exact hS.far h hm hmin hi'),
      List.length_append] at hocc
    exact hocc
  · obtain ⟨i, hi', rfl⟩ := Finset.mem_image.mp hi
    obtain ⟨j, hj', rfl⟩ := Finset.mem_image.mp hj
    have hiS := hS.far h hm hmin hi'
    have hjS := hS.far h hm hmin hj'
    have hapart := hS.apart i (Finset.mem_of_mem_erase hi') j (Finset.mem_of_mem_erase hj')
      (by omega)
    omega

/-- It has one place less. -/
lemma NonOverlapping.card_behind (h : text.dropInfix? needle = some (u, v))
    (hS : NonOverlapping needle text S) {m : ℕ} (hm : m ∈ S) (hmin : ∀ i ∈ S, m ≤ i) :
    ((S.erase m).image (· - (u.length + needle.length))).card = S.card - 1 := by
  rw [Finset.card_image_of_injOn, Finset.card_erase_of_mem hm]
  intro i hi j hj hij
  have hi' := hS.far h hm hmin hi
  have hj' := hS.far h hm hmin hj
  dsimp only at hij
  omega

/-- **No choice has more than the cuts.**  Induction along the cuts. -/
theorem card_le_occurrences (hne : needle ≠ []) (hS : NonOverlapping needle text S) :
    S.card ≤ occurrences needle hne text := by
  induction hn : text.length using Nat.strong_induction_on generalizing text S with
  | _ n ih =>
      rcases S.eq_empty_or_nonempty with rfl | hS'
      · exact Nat.zero_le _
      · have hm := S.min'_mem hS'
        have hmin : ∀ i ∈ S, S.min' hS' ≤ i := fun i hi => S.min'_le i hi
        cases h : text.dropInfix? needle with
        | none =>
            -- there is nothing to choose from
            obtain ⟨w, hw⟩ := hS.occurs _ hm
            refine absurd ⟨text.take (S.min' hS'), w, ?_⟩ (dropInfix?_eq_none.mp h)
            rw [List.append_assoc, hw, List.take_append_drop]
        | some cut =>
            obtain ⟨u, v⟩ := cut
            have hle := ih v.length (hn ▸ length_of_dropInfix? hne h) (hS.behind h hm hmin) rfl
            rw [hS.card_behind h hm hmin] at hle
            rw [occurrences_some h]
            omega

/-- **The number of leftmost occurrences, cut one behind the other, is the largest number of
occurrences that do not overlap.** -/
theorem isGreatest_occurrences (needle : List α) (hne : needle ≠ []) (text : List α) :
    IsGreatest {n | ∃ S, NonOverlapping needle text S ∧ S.card = n}
      (occurrences needle hne text) := by
  constructor
  · refine ⟨_, nonOverlapping_places needle hne text, ?_⟩
    rw [List.toFinset_card_of_nodup (nodup_places hne text 0), length_places]
    rfl
  · rintro n ⟨S, hS, rfl⟩
    exact card_le_occurrences hne hS

end Luan
