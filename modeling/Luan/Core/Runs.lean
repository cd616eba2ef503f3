import Luan.Core.Cuts
import Luan.Core.Glob
import Mathlib.Algebra.Order.Ring.Nat

/-!
# Maximal runs of a letter

`runs s p` lists the lengths of the maximal runs of the letter `s` in the word `p`, from left to
right.

* `run_induction` — a word is built from other letters and whole maximal runs.
* `runs_append` — a word may be cut anywhere but inside a run.
* `mem_runs_iff` — the numbers in the list are the lengths of the maximal runs.
* `occurrences_pair` — pairs of the letter that are cut off from the left: half of each run.
-/

namespace Luan

variable {α : Type*} [DecidableEq α] {s : α}

/-- The lengths of the maximal runs of a letter. -/
def runs (s : α) : List α → List ℕ
  | [] => []
  | c :: p =>
      if c ≠ s then runs s p
      -- the run goes on in what follows
      else if p.head? = some s then (runs s p).modifyHead (· + 1)
      else 1 :: runs s p

/-- `n` letters `s` in a row, with none before and none behind them. -/
def IsMaximalRun (s : α) (n : ℕ) (p : List α) : Prop :=
  0 < n ∧ ∃ u v, p = u ++ (List.replicate n s ++ v) ∧ u.getLast? ≠ some s ∧ v.head? ≠ some s

/-! ## Building a word -/

/-- **Induction along the runs of a word**: a letter of another kind, or a whole maximal run. -/
theorem run_induction (s : α) {P : List α → Prop} (nil : P [])
    (letter : ∀ c p, c ≠ s → P p → P (c :: p))
    (run : ∀ n p, p.head? ≠ some s → P p → P (List.replicate (n + 1) s ++ p)) (p : List α) :
    P p := by
  induction hn : p.length using Nat.strong_induction_on generalizing p with
  | _ n ih =>
      cases p with
      | nil => exact nil
      | cons c p =>
          rw [List.length_cons] at hn
          by_cases hc : c = s
          · subst hc
            obtain ⟨m, q, hrun, hmax, hlen⟩ := @exists_maximal_run α c _ _ p
            rw [hrun]
            exact run m q hmax (ih q.length (by omega) q rfl)
          · exact letter c p hc (ih p.length (by omega) p rfl)

lemma runs_letter {c : α} {p : List α} (hc : c ≠ s) : runs s (c :: p) = runs s p := by
  rw [runs, if_pos hc]

lemma runs_replicate {p : List α} (hp : p.head? ≠ some s) (n : ℕ) :
    runs s (List.replicate (n + 1) s ++ p) = (n + 1) :: runs s p := by
  induction n with
  | zero =>
      show runs s (s :: p) = 1 :: runs s p
      rw [runs, if_neg (not_not.mpr rfl), if_neg hp]
  | succ n ih =>
      rw [List.replicate_succ, List.cons_append, runs, if_neg (not_not.mpr rfl), ih]
      exact if_pos rfl

/-- A word has a run exactly if it has the letter. -/
lemma runs_eq_nil_iff {p : List α} : runs s p = [] ↔ s ∉ p := by
  induction p using run_induction s with
  | nil => simp [runs]
  | letter c p hc ih => rw [runs_letter hc, ih, List.mem_cons, not_or, and_iff_right (Ne.symm hc)]
  | run n p hp ih =>
      rw [runs_replicate hp]
      simp

/-- **A word may be cut anywhere but inside a run.** -/
lemma runs_append {u w : List α} (h : u.getLast? = some s → w.head? ≠ some s) :
    runs s (u ++ w) = runs s u ++ runs s w := by
  induction u using run_induction s with
  | nil => rfl
  | letter c p hc ih =>
      rw [List.cons_append, runs_letter hc, runs_letter hc]
      refine ih fun hlast => h ?_
      rw [List.getLast?_cons, hlast]
      rfl
  | run n p hp ih =>
      have hhead : (p ++ w).head? ≠ some s := by
        cases p with
        | nil => exact h (by simp [List.getLast?_replicate])
        | cons c p => exact hp
      rw [List.append_assoc, runs_replicate hhead, runs_replicate hp, List.cons_append]
      refine congrArg _ (ih fun hlast => h ?_)
      rw [List.getLast?_append, hlast]
      rfl

/-- Renaming letters keeps the runs of a letter that no other one is renamed to. -/
lemma runs_map {β : Type*} [DecidableEq β] {f : α → β} {t : β} (hf : ∀ c, f c = t ↔ c = s)
    (p : List α) : runs t (p.map f) = runs s p := by
  induction p using run_induction s with
  | nil => rfl
  | letter c p hc ih =>
      rw [List.map_cons, runs_letter (mt (hf c).mp hc), runs_letter hc, ih]
  | run n p hp ih =>
      have hp' : (p.map f).head? ≠ some t := by
        rw [List.head?_map]
        intro h
        obtain ⟨c, hc, hct⟩ := Option.map_eq_some_iff.mp h
        exact hp (hc.trans (congrArg some ((hf c).mp hct)))
      rw [List.map_append, List.map_replicate, (hf s).mpr rfl, runs_replicate hp',
        runs_replicate hp, ih]

/-! ## What the list says -/

/-- **The numbers in the list are the lengths of the maximal runs.** -/
theorem mem_runs_iff {n : ℕ} {p : List α} : n ∈ runs s p ↔ IsMaximalRun s n p := by
  constructor
  · induction p using run_induction s with
    | nil =>
        intro h
        cases h
    | letter c p hc ih =>
        intro h
        rw [runs_letter hc] at h
        obtain ⟨hpos, u, v, rfl, hu, hv⟩ := ih h
        refine ⟨hpos, c :: u, v, rfl, ?_, hv⟩
        cases hlast : u.getLast? with
        | none => simpa [List.getLast?_cons, hlast] using hc
        | some d =>
            rw [hlast] at hu
            simpa [List.getLast?_cons, hlast] using hu
    | run m p hp ih =>
        intro h
        rw [runs_replicate hp] at h
        rcases List.mem_cons.mp h with rfl | h
        · exact ⟨Nat.succ_pos m, [], p, rfl, by simp, hp⟩
        · obtain ⟨hpos, u, v, rfl, hu, hv⟩ := ih h
          refine ⟨hpos, List.replicate (m + 1) s ++ u, v, (List.append_assoc _ _ _).symm, ?_, hv⟩
          -- the two runs are not next to each other
          have hne : u ≠ [] := by
            rintro rfl
            obtain ⟨k, rfl⟩ := Nat.exists_eq_succ_of_ne_zero hpos.ne'
            exact hp rfl
          rw [List.getLast?_append_of_ne_nil _ hne]
          exact hu
  · rintro ⟨hpos, u, v, rfl, hu, hv⟩
    obtain ⟨k, rfl⟩ := Nat.exists_eq_succ_of_ne_zero hpos.ne'
    rw [runs_append fun h => absurd h hu, Nat.succ_eq_add_one, runs_replicate hv]
    exact List.mem_append_right _ List.mem_cons_self

/-- Two letters in a row are part of a run of at least two. -/
lemma pair_infix_iff {p : List α} : [s, s] <:+: p ↔ ∃ n ∈ runs s p, 2 ≤ n := by
  induction p using run_induction s with
  | nil => simp [runs]
  | letter c p hc ih =>
      rw [runs_letter hc, List.infix_cons_iff, ih]
      refine or_iff_right ?_
      intro hpre
      exact hc (List.cons_prefix_cons.mp hpre).1.symm
  | run n p hp ih =>
      rw [runs_replicate hp]
      cases n with
      | zero =>
          have hno : ¬ [s, s] <+: s :: p := by
            intro hpre
            obtain ⟨v, hv⟩ := (List.cons_prefix_cons.mp hpre).2
            exact hp (by rw [← hv]; rfl)
          rw [List.replicate_one, List.singleton_append, List.infix_cons_iff, ih,
            or_iff_right hno]
          simp
      | succ n =>
          refine iff_of_true ⟨[], List.replicate n s ++ p, rfl⟩ ⟨n + 1 + 1, by simp, by omega⟩

/-! ## Pairs -/

/-- Pairs cut off from the left of a run, and of what follows it. -/
lemma occurrences_pair_replicate {p : List α} (hp : p.head? ≠ some s) (n : ℕ) :
    occurrences [s, s] (List.cons_ne_nil _ _) (List.replicate n s ++ p)
      = n / 2 + occurrences [s, s] (List.cons_ne_nil _ _) p := by
  induction n using Nat.twoStepInduction with
  | zero => simp
  | one =>
      have hno : ¬ [s, s] <+: s :: p := by
        intro hpre
        obtain ⟨v, hv⟩ := (List.cons_prefix_cons.mp hpre).2
        exact hp (by rw [← hv]; rfl)
      rw [List.replicate_one, List.singleton_append, occurrences_cons hno]
      omega
  | more n ih _ =>
      have hcut : List.replicate (n + 2) s ++ p = [s, s] ++ (List.replicate n s ++ p) := rfl
      rw [hcut, occurrences_some (dropInfix?_append_left _ _), ih]
      omega

/-- **Of each run, half of the letters rounded down are cut off in pairs.** -/
theorem occurrences_pair (s : α) (p : List α) :
    occurrences [s, s] (List.cons_ne_nil _ _) p = ((runs s p).map (· / 2)).sum := by
  induction p using run_induction s with
  | nil => exact occurrences_none (dropInfix?_eq_none_of_length (by simp))
  | letter c p hc ih =>
      have hno : ¬ [s, s] <+: c :: p := fun hpre => hc (List.cons_prefix_cons.mp hpre).1.symm
      rw [runs_letter hc, occurrences_cons hno, ih]
  | run n p hp ih =>
      rw [runs_replicate hp, occurrences_pair_replicate hp, ih, List.map_cons, List.sum_cons]

end Luan
