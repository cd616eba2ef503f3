import Luan.Core.Runs
import Luan.Wildcard.Occurrences
import Luan.Wildcard.SingleLevel

/-!
# How stars are charged

`calculate_pattern_score_c` looks at the stars of a pattern twice.  `count_occurrences` takes pairs
off the string from the left, and a second scan counts the stars that have no star before and none
behind them, with jumps of one or two characters.

* `doubleStarCount_eq_sum` — half of each maximal run, rounded down, are pairs.
* `singleStarCount_eq_count` — the second scan counts the runs of length one.
* `chargesOnce` — no star is charged twice.
* `runScore` — what the score says of the runs.  The code computes it with `int`s, and arrives at it
  if it is one itself (`calculatePatternScoreC_eq_runs_iff`).
-/

namespace Luan

/-! ## Where the charged stars are -/

/-- The places of the pairs that `count_occurrences` counts. -/
def doubleStarPlaces (p : CString) : List ℕ :=
  places doubleStar 0 (cutAll doubleStar (by decide) p)

/-- The places that the scan for single stars counts, on a pattern that begins at `i`: the
recursion of `singleStarCount`. -/
def singleStarPlaces (prev : Option CChar) (i : ℕ) : CString → List ℕ
  | [] => []
  | c :: rest =>
      if c = star then
        if prev = some star then singleStarPlaces (some c) (i + 1) rest
        else
          match rest with
          | [] => [i]
          | next :: rest' =>
              if next = star then singleStarPlaces (some next) (i + 2) rest'
              else i :: singleStarPlaces (some c) (i + 1) (next :: rest')
      else singleStarPlaces (some c) (i + 1) rest

/-- The stars that a pattern's score pays for, one by one. -/
def chargedStars (p : CString) : List ℕ :=
  (doubleStarPlaces p).flatMap (fun i => [i, i + 1]) ++ singleStarPlaces none 0 p

/-- **No star is charged twice**: the two numbers in the score count places of pairs and of single
stars, as far as an `int` can, and all of these are different stars. -/
structure ChargesOnce (p : CString) : Prop where
  doubles : doubleStarCount p = Int32.ofNat (doubleStarPlaces p).length
  singles : singleStarCount none p = Int32.ofNat (singleStarPlaces none 0 p).length
  stars : ∀ i ∈ chargedStars p, p[i]? = some star
  nodup : (chargedStars p).Nodup

/-! ## Pairs -/

lemma doubleStarCount_eq_occurrences (p : CString) :
    doubleStarCount p = Int32.ofNat (occurrences doubleStar (by decide) p) := by
  rw [doubleStarCount, countOccurrencesC_done p (by decide)]

/-- Of each run, half of the stars rounded down are charged in pairs. -/
lemma doubleStarCount_eq_sum (p : CString) :
    doubleStarCount p = Int32.ofNat ((runs star p).map (· / 2)).sum := by
  rw [doubleStarCount_eq_occurrences]
  exact congrArg Int32.ofNat (occurrences_pair star p)

lemma stars_of_mem_doubleStarPlaces {p : CString} {i : ℕ} (hi : i ∈ doubleStarPlaces p) :
    p[i]? = some star ∧ p[i + 1]? = some star := by
  obtain ⟨-, w, hw⟩ := occursAt_of_mem_places hi
  rw [Nat.sub_zero] at hw
  constructor
  · have hget := congrArg (fun l => l[0]?) hw
    simpa [doubleStar] using hget.symm
  · have hget := congrArg (fun l => l[1]?) hw
    simpa [doubleStar] using hget.symm

/-- The stars of the pairs are all different. -/
lemma nodup_doubleStars (p : CString) :
    ((doubleStarPlaces p).flatMap fun i => [i, i + 1]).Nodup := by
  rw [List.nodup_flatMap]
  refine ⟨fun i _ => by simp, ?_⟩
  refine (pairwise_places _ p 0).imp ?_
  intro a b hab
  have hfar : a + 2 ≤ b := hab
  clear hab
  show List.Disjoint [a, a + 1] [b, b + 1]
  intro k hk hk'
  simp only [List.mem_cons, List.not_mem_nil, or_false] at hk hk'
  omega

/-! ## Single stars -/

/-- Behind a star that has been seen, the rest of its run is not counted. -/
lemma singleStarCount_replicate (n : ℕ) (p : CString) :
    singleStarCount (some star) (List.replicate n star ++ p) = singleStarCount (some star) p := by
  induction n with
  | zero => rfl
  | succ n ih =>
      rw [List.replicate_succ, List.cons_append, singleStarCount.eq_def]
      dsimp only
      rw [if_pos rfl, if_pos rfl, ih]

/-- **The scan counts the runs of length one.** -/
lemma singleStarCount_eq_count (p : CString) (prev : Option CChar)
    (hprev : prev = some star → p.head? ≠ some star) :
    singleStarCount prev p = Int32.ofNat ((runs star p).count 1) := by
  induction p using run_induction star generalizing prev with
  | nil => rfl
  | letter c p hc ih =>
      rw [runs_letter hc, singleStarCount.eq_def]
      dsimp only
      rw [if_neg hc]
      exact ih (some c) fun h => absurd (Option.some.inj h) hc
  | run n p hp ih =>
      have hfirst : prev ≠ some star := fun h => hprev h rfl
      rw [runs_replicate hp, List.replicate_succ, List.cons_append, singleStarCount.eq_def]
      dsimp only
      rw [if_pos rfl, if_neg hfirst]
      cases n with
      | zero =>
          rw [List.count_cons_self, Int32.ofNat_add, ← ih (some star) fun _ => hp]
          cases p with
          | nil => rfl
          | cons d p =>
              have hd : d ≠ star := fun h => hp (congrArg some h)
              show (if d = star then _ else _) = _
              rw [if_neg hd, Int32.add_comm]
              rfl
      | succ n =>
          rw [List.replicate_succ, List.cons_append]
          dsimp only
          rw [if_pos rfl, singleStarCount_replicate, List.count_cons_of_ne (by omega)]
          exact ih (some star) fun _ => hp

lemma length_singleStarPlaces (prev : Option CChar) (i : ℕ) (p : CString) :
    Int32.ofNat (singleStarPlaces prev i p).length = singleStarCount prev p := by
  fun_induction singleStarPlaces prev i p with
  | case1 => rfl
  | case2 i rest ih =>
      rw [singleStarCount.eq_def, ih]
      simp
  | case3 prev i hprev =>
      rw [singleStarCount.eq_def]
      simp [hprev]
  | case4 prev i hprev rest ih =>
      rw [singleStarCount.eq_def, ih]
      simp [hprev]
  | case5 prev i hprev next rest hnext ih =>
      rw [singleStarCount.eq_def, List.length_cons, Int32.ofNat_add, ih, Int32.add_comm]
      simp [hprev, hnext]
  | case6 prev i c rest hc ih =>
      rw [singleStarCount.eq_def, ih]
      simp [hc]

/-- A star without a star before or behind it. -/
structure IsLoneStar (p : CString) (i : ℕ) : Prop where
  star : p[i]? = some star
  before : ∀ k, k + 1 = i → p[k]? ≠ some Luan.star
  behind : p[i + 1]? ≠ some Luan.star

/-- The first characters of what is left of a string. -/
lemma getElem?_of_drop {w rest : CString} {i : ℕ} {c : CChar} (h : w.drop i = c :: rest) :
    w[i]? = some c ∧ w.drop (i + 1) = rest := by
  constructor
  · rw [← List.head?_drop, h, List.head?_cons]
  · rw [← List.tail_drop, h, List.tail_cons]

/-- The scan only looks ahead. -/
lemma le_of_mem_singleStarPlaces {prev : Option CChar} {i j : ℕ} {p : CString}
    (hj : j ∈ singleStarPlaces prev i p) : i ≤ j := by
  fun_induction singleStarPlaces prev i p with
  | case1 => cases hj
  | case2 i rest ih => exact (Nat.le_succ i).trans (ih hj)
  | case3 prev i hfirst => exact (List.mem_singleton.mp hj).ge
  | case4 prev i hfirst rest ih => exact (Nat.le_add_right i 2).trans (ih hj)
  | case5 prev i hfirst next rest hnext ih =>
      rcases List.mem_cons.mp hj with rfl | hj
      · exact le_refl _
      · exact (Nat.le_succ i).trans (ih hj)
  | case6 prev i c rest hc ih => exact (Nat.le_succ i).trans (ih hj)

lemma nodup_singleStarPlaces (prev : Option CChar) (i : ℕ) (p : CString) :
    (singleStarPlaces prev i p).Nodup := by
  fun_induction singleStarPlaces prev i p with
  | case1 => exact List.nodup_nil
  | case2 i rest ih => exact ih
  | case3 prev i hfirst => exact List.nodup_singleton i
  | case4 prev i hfirst rest ih => exact ih
  | case5 prev i hfirst next rest hnext ih =>
      refine List.nodup_cons.mpr ⟨fun hi => ?_, ih⟩
      exact absurd (le_of_mem_singleStarPlaces hi) (Nat.not_succ_le_self i)
  | case6 prev i c rest hc ih => exact ih

/-- **What the scan counts is a single star**, if it knows what stands before.  The scan is at
place `i` of the pattern `w`. -/
lemma isLoneStar_of_mem {w : CString} {prev : Option CChar} {i j : ℕ} {p : CString}
    (hj : j ∈ singleStarPlaces prev i p) (hp : w.drop i = p)
    (hprev : ∀ k, k + 1 = i → w[k]? = prev) : IsLoneStar w j := by
  have hseen : ∀ {c : CChar} {i k : ℕ}, w[i]? = some c → k + 1 = i + 1 → w[k]? = some c := by
    intro c i k hc hk
    rwa [Nat.succ.inj hk]
  fun_induction singleStarPlaces prev i p with
  | case1 => cases hj
  | case2 i rest ih =>
      obtain ⟨hc, hrest⟩ := getElem?_of_drop hp
      exact ih hj hrest fun k => hseen hc
  | case3 prev i hfirst =>
      obtain ⟨hc, hrest⟩ := getElem?_of_drop hp
      obtain rfl := List.mem_singleton.mp hj
      refine ⟨hc, fun k hk => hprev k hk ▸ hfirst, ?_⟩
      rw [← List.head?_drop, hrest]
      simp
  | case4 prev i hfirst rest ih =>
      obtain ⟨-, hrest⟩ := getElem?_of_drop hp
      obtain ⟨hnext, hrest'⟩ := getElem?_of_drop hrest
      exact ih hj hrest' fun k => hseen hnext
  | case5 prev i hfirst next rest hnext ih =>
      obtain ⟨hc, hrest⟩ := getElem?_of_drop hp
      rcases List.mem_cons.mp hj with rfl | hj
      · refine ⟨hc, fun k hk => hprev k hk ▸ hfirst, ?_⟩
        rw [← List.head?_drop, hrest]
        simpa using hnext
      · exact ih hj hrest fun k => hseen hc
  | case6 prev i c rest hc' ih =>
      obtain ⟨hc, hrest⟩ := getElem?_of_drop hp
      exact ih hj hrest fun k => hseen hc

lemma isLoneStar_of_mem_all {p : CString} {i : ℕ} (hi : i ∈ singleStarPlaces none 0 p) :
    IsLoneStar p i :=
  isLoneStar_of_mem hi List.drop_zero fun k hk => absurd hk (Nat.succ_ne_zero k)

/-! ## The score -/

/-- A star of a pair has another one beside it. -/
lemma disjoint_charges (p : CString) :
    List.Disjoint ((doubleStarPlaces p).flatMap fun i => [i, i + 1])
      (singleStarPlaces none 0 p) := by
  intro j hpair hsingle
  have hlone := isLoneStar_of_mem_all hsingle
  obtain ⟨i, hi, hj⟩ := List.mem_flatMap.mp hpair
  obtain ⟨hfirst, hsecond⟩ := stars_of_mem_doubleStarPlaces hi
  rcases List.mem_cons.mp hj with rfl | hj
  · exact hlone.behind hsecond
  · rw [List.mem_singleton.mp hj] at hlone
    exact hlone.before i rfl hfirst

/-- **No star is charged twice.** -/
lemma chargesOnce (p : CString) : ChargesOnce p where
  doubles := by
    rw [doubleStarCount_eq_occurrences, doubleStarPlaces, length_places]
    rfl
  singles := (length_singleStarPlaces none 0 p).symm
  stars i hi := by
    rcases List.mem_append.mp hi with hpair | hsingle
    · obtain ⟨j, hj, hij⟩ := List.mem_flatMap.mp hpair
      obtain ⟨hfirst, hsecond⟩ := stars_of_mem_doubleStarPlaces hj
      rcases List.mem_cons.mp hij with rfl | hij
      · exact hfirst
      · rwa [List.mem_singleton.mp hij]
    · exact (isLoneStar_of_mem_all hsingle).star
  nodup := List.Nodup.append (nodup_doubleStars p) (nodup_singleStarPlaces none 0 p)
    (disjoint_charges p)

/-- **The score from the runs of the pattern**: its length, less ten for each pair of stars in a
run and five for each single star. -/
def runScore (p : CString) : Int :=
  p.length - 10 * (((runs star p).map (· / 2)).sum : ℕ) - 5 * ((runs star p).count 1 : ℕ)

/-- An `int` that is computed from `int`s is the number that was meant, up to going round. -/
lemma toInt_score (length doubles singles : ℕ) :
    (Int32.ofNat length - Int32.ofNat doubles * multiWildcardPenalty
        - Int32.ofNat singles * singleWildcardPenalty).toInt
      = ((length : Int) - 10 * doubles - 5 * singles).bmod (2 ^ 32) := by
  have hten : multiWildcardPenalty.toInt = 10 := rfl
  have hfive : singleWildcardPenalty.toInt = 5 := rfl
  simp only [Int32.toInt_sub, Int32.toInt_mul, hten, hfive]
  simp [Int.mul_comm]

/-- The score is the number from the runs, up to going round. -/
lemma score_eq_runs (p : CString) :
    calculatePatternScoreC (some p) = (runScore p).bmod (2 ^ 32) := by
  have hsingle := singleStarCount_eq_count p none fun h => by cases h
  rw [calculatePatternScoreC, doubleStarCount_eq_sum, hsingle]
  exact toInt_score _ _ _

/-- The charged stars are some of the pattern's characters. -/
lemma charges_le_length (p : CString) :
    2 * ((runs star p).map (· / 2)).sum + (runs star p).count 1 ≤ p.length := by
  induction p using run_induction star with
  | nil => simp [runs]
  | letter c p hc ih =>
      rw [runs_letter hc, List.length_cons]
      omega
  | run n p hp ih =>
      rw [runs_replicate hp, List.map_cons, List.sum_cons, List.length_append,
        List.length_replicate]
      cases n with
      | zero =>
          rw [List.count_cons_self]
          omega
      | succ n =>
          rw [List.count_cons_of_ne (by omega)]
          omega

/-- Up to 400 million characters no number in the computation leaves the range of an `int`. -/
lemma runScore_fits {p : CString} (h : 5 * p.length < 2147483648) :
    -2147483648 ≤ runScore p ∧ runScore p < 2147483648 := by
  have hle := charges_le_length p
  rw [runScore]
  omega

/-- **What a score is.**  It is what the runs of the pattern say, no star being charged twice,
exactly if that number is in the range of an `int`. -/
theorem calculatePatternScoreC_eq_runs_iff (p : CString) :
    (calculatePatternScoreC (some p) = runScore p ∧ ChargesOnce p)
      ↔ -2147483648 ≤ runScore p ∧ runScore p < 2147483648 := by
  rw [score_eq_runs, and_iff_left (chargesOnce p)]
  exact bmod_eq_self_iff (runScore p)

/-- A pattern of 2 GiB, all of it the letter `a`. -/
def manyLetters : CString := List.replicate 2147483648 ⟨97, by decide⟩

/-- Without a star the score is the length of the pattern, and that of 2 GiB is no `int`. -/
theorem score_of_manyLetters :
    runScore manyLetters = 2147483648
      ∧ calculatePatternScoreC (some manyLetters) = -2147483648 := by
  have hruns : runs star manyLetters = [] :=
    runs_eq_nil_iff.mpr fun hmem => absurd (List.eq_of_mem_replicate hmem) (by decide)
  have hscore : runScore manyLetters = 2147483648 := by
    rw [runScore, hruns, manyLetters, List.length_replicate]
    rfl
  refine ⟨hscore, ?_⟩
  rw [score_eq_runs, hscore]
  decide

end Luan
