import Luan.Wildcard.Branches
import Mathlib.Order.Bounds.Basic

/-!
# The best of several patterns

`find_best_wildcard_match_c` walks the patterns once and keeps the index of the best score so
far.  `findBestFrom_of_le` and `findBestFrom_of_lt` say what the loop returns from any state of
its two accumulators: the first of the best among the matches that score more than `bestScore`.

Both accumulators start at `-1`, but a score is a length minus penalties and may be `-1` or less.
`findBestWildcardMatchC_best` gives the condition under which the start does no harm: some match,
if there is one, has a score of at least zero.
-/

namespace Luan

/-! ## The contract -/

/-- Index `i` holds a match of the host that no other match outscores. -/
def IsTopMatch (host : Option CString) (patterns : List (Option CString)) (i : ℕ) : Prop :=
  ∃ p, patterns[i]? = some p ∧ wildcardMatchC p host = true
    ∧ ∀ q ∈ patterns, wildcardMatchC q host = true →
        calculatePatternScoreC q ≤ calculatePatternScoreC p

/-- **What the header promises**: `-1` if nothing matches, and otherwise the first of the best
matches. -/
structure ReturnsBestMatch (host : Option CString) (patterns : List (Option CString))
    (result : Int) : Prop where
  none_iff : result = -1 ↔ ∀ q ∈ patterns, wildcardMatchC q host = false
  best : (∃ q ∈ patterns, wildcardMatchC q host = true) →
    ∃ i : ℕ, result = i ∧ IsLeast {j | IsTopMatch host patterns j} i

/-! ## The loop -/

variable {host : Option CString}

/-- If no match outscores the accumulator, the loop returns the index it started with. -/
lemma findBestFrom_of_le {patterns : List (Option CString)} (i : ℕ)
    (bestIndex bestScore : Int)
    (h : ∀ q ∈ patterns, wildcardMatchC q host = true → calculatePatternScoreC q ≤ bestScore) :
    findBestFrom host i bestIndex bestScore patterns = bestIndex := by
  induction patterns generalizing i with
  | nil => rfl
  | cons p patterns ih =>
      have htail := fun q hq => h q (List.mem_cons_of_mem p hq)
      rw [findBestFrom]
      dsimp only
      split_ifs with hmatch hscore
      · exact absurd (h p List.mem_cons_self hmatch) (by omega)
      · exact ih _ htail
      · exact ih _ htail

/-- Index `k` holds `p`, the first of the best matches. -/
structure IsFirstTop (host : Option CString) (patterns : List (Option CString)) (k : ℕ)
    (p : Option CString) : Prop where
  get : patterns[k]? = some p
  isMatch : wildcardMatchC p host = true
  top : ∀ q ∈ patterns, wildcardMatchC q host = true →
    calculatePatternScoreC q ≤ calculatePatternScoreC p
  first : ∀ j < k, ∀ q, patterns[j]? = some q → wildcardMatchC q host = true →
    calculatePatternScoreC q < calculatePatternScoreC p

namespace IsFirstTop

variable {patterns : List (Option CString)} {p q : Option CString} {k : ℕ}

/-- A match in front of no better one. -/
lemma head (hmatch : wildcardMatchC p host = true)
    (hrest : ∀ q ∈ patterns, wildcardMatchC q host = true →
      calculatePatternScoreC q ≤ calculatePatternScoreC p) :
    IsFirstTop host (p :: patterns) 0 p where
  get := rfl
  isMatch := hmatch
  top r hr hrm := by
    rcases List.mem_cons.mp hr with rfl | hr
    · exact le_refl _
    · exact hrest r hr hrm
  first j hj := by omega

/-- Behind a pattern that is worse, or no match. -/
lemma cons (h : IsFirstTop host patterns k q)
    (hp : wildcardMatchC p host = true → calculatePatternScoreC p < calculatePatternScoreC q) :
    IsFirstTop host (p :: patterns) (k + 1) q where
  get := h.get
  isMatch := h.isMatch
  top r hr hrm := by
    rcases List.mem_cons.mp hr with rfl | hr
    · exact (hp hrm).le
    · exact h.top r hr hrm
  first j hj r hjr hrm := by
    cases j with
    | zero =>
        obtain rfl : p = r := by simpa using hjr
        exact hp hrm
    | succ j => exact h.first j (by omega) r hjr hrm

/-- It is the least index of a best match. -/
lemma isLeast (h : IsFirstTop host patterns k p) :
    IsLeast {j | IsTopMatch host patterns j} k := by
  refine ⟨⟨p, h.get, h.isMatch, h.top⟩, ?_⟩
  rintro j ⟨r, hjr, hrm, hrmax⟩
  by_contra hjk
  have hlt := h.first j (by omega) r hjr hrm
  have hle := hrmax p (List.mem_of_getElem? h.get) h.isMatch
  omega

end IsFirstTop

/-- If some match outscores the accumulator, the loop returns the first of the best matches.
Induction on the patterns still to come: a match that outscores the accumulator becomes the
accumulator. -/
lemma findBestFrom_of_lt {patterns : List (Option CString)} (i : ℕ)
    (bestIndex bestScore : Int)
    (h : ∃ q ∈ patterns, wildcardMatchC q host = true ∧ bestScore < calculatePatternScoreC q) :
    ∃ k p, findBestFrom host i bestIndex bestScore patterns = ((i + k : ℕ) : Int)
      ∧ IsFirstTop host patterns k p ∧ bestScore < calculatePatternScoreC p := by
  induction patterns generalizing i bestIndex bestScore with
  | nil =>
      obtain ⟨q, hq, -⟩ := h
      cases hq
  | cons p patterns ih =>
      have hnext : ∀ k : ℕ, ((i + 1 + k : ℕ) : Int) = ((i + (k + 1) : ℕ) : Int) := fun k => by omega
      rw [findBestFrom]
      dsimp only
      by_cases hp : wildcardMatchC p host = true ∧ bestScore < calculatePatternScoreC p
      · obtain ⟨hmatch, hscore⟩ := hp
        rw [if_pos hmatch, if_pos hscore]
        by_cases hlater : ∃ q ∈ patterns, wildcardMatchC q host = true
            ∧ calculatePatternScoreC p < calculatePatternScoreC q
        · obtain ⟨k, p', hres, htop, hlt⟩ := ih (i + 1) _ _ hlater
          exact ⟨k + 1, p', hres.trans (hnext k), htop.cons fun _ => hlt, hscore.trans hlt⟩
        · push Not at hlater
          exact ⟨0, p, findBestFrom_of_le _ _ _ hlater, .head hmatch hlater, hscore⟩
      · -- the accumulators stay as they are
        have hple : wildcardMatchC p host = true → calculatePatternScoreC p ≤ bestScore := by
          intro hmatch
          by_contra hlt
          exact hp ⟨hmatch, by omega⟩
        obtain ⟨q, hq, hqm, hlt⟩ := h
        have hlater : q ∈ patterns := by
          rcases List.mem_cons.mp hq with rfl | hq
          · exact absurd ⟨hqm, hlt⟩ hp
          · exact hq
        obtain ⟨k, p', hres, htop, hlt'⟩ := ih (i + 1) bestIndex bestScore ⟨q, hlater, hqm, hlt⟩
        refine ⟨k + 1, p', ?_, htop.cons fun hmatch => (hple hmatch).trans_lt hlt', hlt'⟩
        rw [← hnext, ← hres]
        split_ifs with hmatch hscore
        · exact absurd ⟨hmatch, hscore⟩ hp
        · rfl
        · rfl

/-! ## The sentinel -/

/-- **When the best match is found.**  The loop starts below every score from zero on, and only
below those. -/
theorem findBestWildcardMatchC_best (host : Option CString) (patterns : List (Option CString)) :
    ReturnsBestMatch host patterns (findBestWildcardMatchC host patterns)
      ↔ ((∃ q ∈ patterns, wildcardMatchC q host = true) →
          ∃ q ∈ patterns, wildcardMatchC q host = true ∧ 0 ≤ calculatePatternScoreC q) := by
  rw [findBestWildcardMatchC]
  constructor
  · rintro ⟨hnone, -⟩ ⟨q, hq, hqm⟩
    by_contra hlow
    push Not at hlow
    have hres := findBestFrom_of_le 0 (-1) (-1)
      fun r hr hrm => by
        have := hlow r hr hrm
        omega
    have hrej := hnone.mp hres q hq
    rw [hqm] at hrej
    cases hrej
  · intro h
    by_cases hany : ∃ q ∈ patterns, wildcardMatchC q host = true
    · obtain ⟨q, hq, hqm, hscore⟩ := h hany
      obtain ⟨k, p, hres, htop, -⟩ := findBestFrom_of_lt 0 (-1) (-1) ⟨q, hq, hqm, by omega⟩
      rw [Nat.zero_add] at hres
      refine ⟨⟨fun hneg => by omega, fun hall => ?_⟩, fun _ => ⟨k, hres, htop.isLeast⟩⟩
      rw [hall q hq] at hqm
      cases hqm
    · have hres : findBestFrom host 0 (-1) (-1) patterns = -1 :=
        findBestFrom_of_le 0 (-1) (-1) fun r hr hrm => absurd ⟨r, hr, hrm⟩ hany
      push Not at hany
      refine ⟨⟨fun _ q hq => Bool.eq_false_iff.mpr (hany q hq), fun _ => hres⟩, ?_⟩
      rintro ⟨q, hq, hqm⟩
      exact absurd hqm (hany q hq)

/-- The only pattern matches, and the answer is that none does: `*.io` scores `4 - 5`. -/
theorem single_short_pattern_not_found :
    wildcardMatchC (some (cstr "*.io")) (some (cstr "api.io")) = true
      ∧ findBestWildcardMatchC (some (cstr "api.io")) [some (cstr "*.io")] = -1
      ∧ ¬ ReturnsBestMatch (some (cstr "api.io")) [some (cstr "*.io")]
          (findBestWildcardMatchC (some (cstr "api.io")) [some (cstr "*.io")]) := by
  have hmatch : wildcardMatchC (some (cstr "*.io")) (some (cstr "api.io")) = true := by
    refine (wildcardMatch_single (by decide) (by decide)).mpr (Or.inr ?_)
    show cstr "api" ++ cstr ".io" ∈ singleLang (star :: cstr ".io")
    rw [mem_singleLang_star]
    exact ⟨cstr "api", cstr ".io", by decide, self_mem_globLang star_ne_dot _, rfl⟩
  have hres : findBestWildcardMatchC (some (cstr "api.io")) [some (cstr "*.io")] = -1 := by
    refine findBestFrom_of_le 0 (-1) (-1) fun q hq _ => ?_
    obtain rfl := List.mem_singleton.mp hq
    rw [calculatePatternScoreC, doubleStarCount_eq_zero (by decide)]
    decide
  refine ⟨hmatch, hres, fun h => ?_⟩
  have hrej := h.none_iff.mp hres _ List.mem_cons_self
  rw [hmatch] at hrej
  cases hrej

end Luan
