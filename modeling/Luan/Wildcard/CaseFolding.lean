import Luan.Wildcard.Branches
import Luan.Wildcard.Score

/-!
# Upper and lower case

The matcher folds case in several ways: `strcasecmp_c` compares folded characters, the single-level
and the multi-level branch work on lowered copies, `str_ends_with` folds once more, and everything
behind the copies compares characters as they are.  `wildcardMatch_toLowercase` says what comes out:
the answer is that for the lowered pattern and the lowered host.  A score depends on the length and
on the stars only.
-/

namespace Luan

/-! ## Strings that differ in the case of letters -/

/-- An upper-case letter and its lower-case form. -/
def IsCasePair (upper lower : CChar) : Prop :=
  65 ≤ upper.byte.toNat ∧ upper.byte.toNat ≤ 90 ∧ lower.byte.toNat = upper.byte.toNat + 32

/-- The same character up to the case of a letter. -/
def SameLetter (c d : CChar) : Prop := c = d ∨ IsCasePair c d ∨ IsCasePair d c

instance (c d : CChar) : Decidable (IsCasePair c d) :=
  inferInstanceAs (Decidable (_ ∧ _))

instance (c d : CChar) : Decidable (SameLetter c d) :=
  inferInstanceAs (Decidable (_ ∨ _))

/-- **Equal up to the case of letters.** -/
def EqUpToCase (s s' : CString) : Prop := List.Forall₂ SameLetter s s'

instance (s s' : CString) : Decidable (EqUpToCase s s') :=
  inferInstanceAs (Decidable (List.Forall₂ SameLetter s s'))

lemma tolower_eq_of_sameLetter {c d : CChar} (h : SameLetter c d) : tolower c = tolower d := by
  apply CChar.ext_toNat
  rw [tolower_byte, tolower_byte]
  rcases h with rfl | ⟨h₁, h₂, h⟩ | ⟨h₁, h₂, h⟩
  · rfl
  · rw [if_pos ⟨h₁, h₂⟩, if_neg (by omega), h]
  · rw [if_neg (by omega), if_pos ⟨h₁, h₂⟩, h]

lemma EqUpToCase.toLowercase_eq {s s' : CString} (h : EqUpToCase s s') :
    toLowercase s = toLowercase s' := by
  induction h with
  | nil => rfl
  | cons hcd _ ih =>
      rw [toLowercase, toLowercase, List.map_cons, List.map_cons, tolower_eq_of_sameLetter hcd]
      exact congrArg _ ih

/-! ## The matcher -/

lemma toLowercase_copyInto (size : Option ℕ) (s : CString) :
    toLowercase (copyInto size s) = copyInto size (toLowercase s) := by
  cases size with
  | none => rfl
  | some n => exact List.map_take

lemma star_mem_toLowercase {s : CString} : star ∈ toLowercase s ↔ star ∈ s := by
  rw [toLowercase, List.mem_map]
  constructor
  · rintro ⟨c, hc, hstar⟩
    rwa [tolower_eq_star.mp hstar] at hc
  · intro h
    exact ⟨star, h, tolower_eq_star.mpr rfl⟩

/-- The multi-level branch only looks at the lowered copies. -/
lemma matchMultiLevelWildcard_toLowercase (buf : Buffers) (pattern host : CString) :
    matchMultiLevelWildcard buf (toLowercase pattern) (toLowercase host)
      = matchMultiLevelWildcard buf pattern host := by
  simp only [matchMultiLevelWildcard, toLowercase_toLowercase]

/-- The single-level branch lowers what it has copied. -/
lemma matchSingleLevelWildcard_toLowercase (buf : Buffers) (pattern host : CString) :
    matchSingleLevelWildcard buf (toLowercase pattern) (toLowercase host)
      = matchSingleLevelWildcard buf pattern host := by
  simp only [matchSingleLevelWildcard, ← toLowercase_copyInto, toLowercase_toLowercase]

/-- **The matcher answers for the lowered strings.** -/
lemma wildcardMatch_toLowercase (buf : Buffers) (pattern host : CString) :
    wildcardMatch buf (some (toLowercase pattern)) (some (toLowercase host))
      = wildcardMatch buf (some pattern) (some host) := by
  have hcmp : strcasecmpC (toLowercase pattern) (toLowercase host) = 0
      ↔ strcasecmpC pattern host = 0 := by
    rw [strcasecmpC_eq_zero, strcasecmpC_eq_zero, toLowercase_toLowercase,
      toLowercase_toLowercase]
  have hstar : (toLowercase pattern).contains star = pattern.contains star := by
    rw [Bool.eq_iff_iff, List.contains_iff_mem, List.contains_iff_mem, star_mem_toLowercase]
  have hdouble : ((toLowercase pattern).dropInfix? doubleStar).isSome
      = (pattern.dropInfix? doubleStar).isSome := by
    rw [Bool.eq_iff_iff, Option.isSome_iff_ne_none, Option.isSome_iff_ne_none, ne_eq, ne_eq,
      dropInfix?_eq_none, dropInfix?_eq_none, doubleStar_infix_toLowercase]
  simp only [wildcardMatch, hcmp, hstar, hdouble, matchMultiLevelWildcard_toLowercase,
    matchSingleLevelWildcard_toLowercase]

/-- Case makes no difference to the matcher. -/
lemma wildcardMatchC_eq {p p' h h' : CString} (hp : EqUpToCase p p') (hh : EqUpToCase h h') :
    wildcardMatchC (some p) (some h) = wildcardMatchC (some p') (some h') := by
  rw [wildcardMatchC, wildcardMatchC, ← wildcardMatch_toLowercase _ p,
    ← wildcardMatch_toLowercase _ p', hp.toLowercase_eq, hh.toLowercase_eq]

/-! ## The best match -/

/-- Case makes no difference to a score. -/
lemma calculatePatternScoreC_eq_of_case {p p' : CString} (hp : EqUpToCase p p') :
    calculatePatternScoreC (some p) = calculatePatternScoreC (some p') := by
  have hlower : ∀ s : CString,
      calculatePatternScoreC (some s) = calculatePatternScoreC (some (toLowercase s)) := by
    intro s
    rw [score_eq_runs, score_eq_runs, runScore, runScore, length_toLowercase, toLowercase,
      runs_map fun c => tolower_eq_star]
  rw [hlower p, hlower p', hp.toLowercase_eq]

/-- A list of patterns, some of which may be `NULL`, with letters in another case. -/
abbrev PatternsUpToCase : List (Option CString) → List (Option CString) → Prop :=
  List.Forall₂ (Option.Rel EqUpToCase)

/-- **Case makes no difference to the loop.** -/
lemma findBestFrom_eq_of_case {h h' : CString} (hh : EqUpToCase h h')
    {ps ps' : List (Option CString)} (hps : PatternsUpToCase ps ps') (i : ℕ)
    (bestIndex bestScore : Int) :
    findBestFrom (some h) i bestIndex bestScore ps
      = findBestFrom (some h') i bestIndex bestScore ps' := by
  induction hps generalizing i bestIndex bestScore with
  | nil => rfl
  | cons hp _ ih =>
      cases hp with
      | none =>
          rw [findBestFrom, findBestFrom]
          exact ih _ _ _
      | some hp =>
          simp only [findBestFrom, wildcardMatchC_eq hp hh, calculatePatternScoreC_eq_of_case hp,
            ih]

/-- **Case makes no difference**: neither to whether a pattern matches nor to which of several
patterns is the best. -/
theorem wildcard_case_insensitive :
    (∀ p p' h h', EqUpToCase p p' → EqUpToCase h h' →
        wildcardMatchC (some p) (some h) = wildcardMatchC (some p') (some h'))
      ∧ ∀ ps ps' h h', PatternsUpToCase ps ps' → EqUpToCase h h' →
          findBestWildcardMatchC (some h) ps = findBestWildcardMatchC (some h') ps' :=
  ⟨fun _ _ _ _ hp hh => wildcardMatchC_eq hp hh,
    fun _ _ _ _ hps hh => findBestFrom_eq_of_case hh hps 0 (-1) (-1)⟩

/-- The pattern `*.Example.com`, alone and in a list, and the host `API.example.COM`. -/
theorem wildcard_case_insensitive_host :
    wildcardMatchC (some (cstr "*.Example.com")) (some (cstr "API.example.COM"))
        = wildcardMatchC (some (cstr "*.example.com")) (some (cstr "api.example.com"))
      ∧ findBestWildcardMatchC (some (cstr "API.example.COM")) [none, some (cstr "*.Example.com")]
        = findBestWildcardMatchC (some (cstr "api.example.com"))
            [none, some (cstr "*.example.com")] :=
  ⟨wildcard_case_insensitive.1 _ _ _ _ (by decide) (by decide),
    wildcard_case_insensitive.2 _ _ _ _
      (.cons .none (.cons (.some (by decide)) .nil)) (by decide)⟩

end Luan
