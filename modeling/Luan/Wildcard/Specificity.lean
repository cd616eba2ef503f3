import Luan.Core.GlobOrder
import Luan.Wildcard.Score

/-!
# What a score says

The header of `calculate_pattern_score_c` promises "higher = more specific".  A pattern is more
specific than another one if it matches fewer hosts (`MoreSpecific`).

Without `**`, a score is the number of letters less four for each star (`score_of_single`): a star
costs five, and it is counted as a character as well.  A more specific pattern that has no more
stars scores higher.  One that has more stars only does if it has more than four letters for each of
them (`score_lt_iff_of_moreSpecific`).  That is so as long as the numbers are `int`s.
-/

namespace Luan

/-- `p` matches fewer hosts than `q`. -/
def MoreSpecific (p q : CString) : Prop :=
  (∀ h, h ∈ singleLang p → h ∈ singleLang q) ∧ ∃ h, h ∈ singleLang q ∧ h ∉ singleLang p

/-- The letters of a pattern, less four for each star. -/
def letterScore (p : CString) : Int := (letters star p).length - 4 * p.count star

/-- The number is an `int`. -/
def ScoreFits (p : CString) : Prop := -2147483648 ≤ letterScore p ∧ letterScore p < 2147483648

/-- The scan of `calculate_pattern_score_c` counts every star if no two are next to each other. -/
lemma singleStarCount_eq {p : CString} (prev : Option CChar) (hp : ¬ doubleStar <:+: p)
    (hprev : prev = some star → p.head? ≠ some star) :
    singleStarCount prev p = Int32.ofNat (p.count star) := by
  induction p generalizing prev with
  | nil => rfl
  | cons c p ih =>
      have htail : ¬ doubleStar <:+: p := fun hin => hp (List.infix_cons_iff.mpr (Or.inr hin))
      rw [singleStarCount.eq_def]
      dsimp only
      split_ifs with hc hbefore
      · subst hc
        exact absurd rfl (hprev hbefore)
      · subst hc
        cases p with
        | nil => rfl
        | cons d p =>
            have hd : d ≠ star := by
              rintro rfl
              exact hp ⟨[], p, rfl⟩
            dsimp only
            rw [if_neg hd, ih (some star) htail (fun _ => by simpa using hd), List.count_cons_self,
              Int32.ofNat_add, Int32.add_comm]
            rfl
      · rw [ih (some c) htail (fun h => absurd (Option.some.inj h) hc), List.count_cons_of_ne hc]

/-- **The score of a pattern without `**`**: its letters, less four for each star, up to going
round. -/
lemma score_of_single {p : CString} (hp : ¬ doubleStar <:+: p) :
    calculatePatternScoreC (some p) = (letterScore p).bmod (2 ^ 32) := by
  have hlen := length_letters_add_count star p
  have hsame : letterScore p = (p.length : Int) - 10 * (0 : ℕ) - 5 * (p.count star : ℕ) := by
    rw [letterScore]
    omega
  rw [calculatePatternScoreC, doubleStarCount_eq_zero hp,
    singleStarCount_eq none hp (fun h => by cases h), hsame]
  exact toInt_score p.length 0 (p.count star)

/-- The score is that number if it is an `int`. -/
lemma score_of_fits {p : CString} (hp : ¬ doubleStar <:+: p) (hfits : ScoreFits p) :
    calculatePatternScoreC (some p) = letterScore p := by
  rw [score_of_single hp]
  exact (bmod_eq_self_iff _).mpr hfits

/-- Of any three characters, the dot among them, there is a fourth. -/
lemma hasRoom_dot : HasRoom dot := by
  intro a b
  by_cases ha : a = star
  · by_cases hb : b = ⟨97, by decide⟩
    · exact ⟨⟨98, by decide⟩, by rw [ha]; decide, by rw [hb]; decide, by decide⟩
    · exact ⟨⟨97, by decide⟩, by rw [ha]; decide, Ne.symm hb, by decide⟩
  · by_cases hb : b = star
    · by_cases ha' : a = ⟨97, by decide⟩
      · exact ⟨⟨98, by decide⟩, by rw [ha']; decide, by rw [hb]; decide, by decide⟩
      · exact ⟨⟨97, by decide⟩, Ne.symm ha', by rw [hb]; decide, by decide⟩
    · exact ⟨star, Ne.symm ha, Ne.symm hb, star_ne_dot⟩

/-- A more specific pattern that has no fewer stars has more letters. -/
lemma MoreSpecific.letters_lt {p q : CString} (hp : ¬ doubleStar <:+: p) (h : MoreSpecific p q)
    (hstars : q.count star ≤ p.count star) :
    (letters star q).length < (letters star p).length := by
  obtain ⟨hle, w, hw, hnot⟩ := h
  by_contra hletters
  rw [eq_of_le_of_count_le hasRoom_dot hp hle (by omega) hstars] at hnot
  exact hnot hw

/-- A more specific pattern has the higher number if it has no more stars, or more than four
letters more for each star more. -/
lemma MoreSpecific.letterScore_lt_iff {p q : CString} (hp : ¬ doubleStar <:+: p)
    (h : MoreSpecific p q) :
    letterScore q < letterScore p
      ↔ p.count star ≤ q.count star
        ∨ (letters star q).length + 4 * (p.count star - q.count star)
          < (letters star p).length := by
  rw [letterScore, letterScore]
  have hle := (letters_sublist_of_le h.1).length_le
  constructor
  · intro hscore
    by_cases hstars : p.count star ≤ q.count star
    · exact Or.inl hstars
    · exact Or.inr (by omega)
  · rintro (hstars | hletters)
    · by_cases heq : q.count star ≤ p.count star
      · have hlt := h.letters_lt hp heq
        omega
      · omega
    · omega

/-- **When a more specific pattern scores higher**: it has no more stars, or it has more than four
letters more for each star more.  If one of the two numbers is no `int`, it has to be higher after
going round. -/
theorem score_lt_iff_of_moreSpecific (p q : CString) (hp : ¬ doubleStar <:+: p)
    (hq : ¬ doubleStar <:+: q) (h : MoreSpecific p q) :
    calculatePatternScoreC (some q) < calculatePatternScoreC (some p)
      ↔ ((ScoreFits p ∧ ScoreFits q)
          ∧ (p.count star ≤ q.count star
            ∨ (letters star q).length + 4 * (p.count star - q.count star)
              < (letters star p).length))
        ∨ (¬ (ScoreFits p ∧ ScoreFits q)
          ∧ (letterScore q).bmod (2 ^ 32) < (letterScore p).bmod (2 ^ 32)) := by
  by_cases hfits : ScoreFits p ∧ ScoreFits q
  · rw [score_of_fits hp hfits.1, score_of_fits hq hfits.2, h.letterScore_lt_iff hp]
    exact ⟨fun hcond => Or.inl ⟨hfits, hcond⟩,
      fun hcond => hcond.elim (fun hin => hin.2) fun hout => absurd hfits hout.1⟩
  · rw [score_of_single hp, score_of_single hq]
    exact ⟨fun hlt => Or.inr ⟨hfits, hlt⟩,
      fun hcond => hcond.elim (fun hin => absurd hin.1 hfits) fun hout => hout.2⟩

/-- `*` matches more hosts than any other pattern for one label. -/
lemma moreSpecific_star {p : CString} (hdot : dot ∉ p) (hnil : [] ∉ singleLang p) :
    MoreSpecific p [star] := by
  have hstar : ∀ h : CString, dot ∉ h → h ∈ singleLang [star] := fun h hh =>
    mem_globLang_cons_star.mpr ⟨h, [], hh, by simp, by simp⟩
  exact ⟨fun h hh => hstar h (sep_not_mem_of_mem star_ne_dot hdot hh), [], hstar [] (by simp), hnil⟩

/-- `a*` scores higher than `*`. -/
theorem score_lt_iff_of_moreSpecific_letter :
    calculatePatternScoreC (some [star]) < calculatePatternScoreC (some (cstr "a*")) := by
  have hmore : MoreSpecific (cstr "a*") [star] :=
    moreSpecific_star (by decide) (by rw [nil_mem_globLang_iff]; decide)
  refine (score_lt_iff_of_moreSpecific _ _ (by decide) (by decide) hmore).mpr (Or.inl ⟨?_, ?_⟩)
  · rw [ScoreFits, ScoreFits]
    decide
  · exact Or.inl (by decide)

/-- `*a*` matches fewer hosts than `*` and has a lower score. -/
theorem infix_pattern_scores_below_star :
    ¬ doubleStar <:+: cstr "*a*" ∧ ¬ doubleStar <:+: [star] ∧ MoreSpecific (cstr "*a*") [star]
      ∧ calculatePatternScoreC (some (cstr "*a*")) < calculatePatternScoreC (some [star]) := by
  refine ⟨by decide, by decide, ?_, ?_⟩
  · exact moreSpecific_star (by decide) (by rw [nil_mem_globLang_iff]; decide)
  · rw [score_of_single (by decide), score_of_single (by decide)]
    decide

end Luan
