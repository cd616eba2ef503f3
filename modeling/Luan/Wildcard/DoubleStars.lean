import Luan.Wildcard.MultiLevel

/-!
# Patterns with several `**`

The header gives `**` one meaning wherever it stands: "zero or more subdomain levels".
`LevelsMatch` is that meaning for any number of `**`, as a cut of the host's labels into one piece
for each label of the pattern.

The code looks for the first `**` only.  The text behind it goes to the single-level matcher, where
a further `**` is a run of stars and stands for exactly one label (`FirstLevelsMatch`).  So every
host that the code accepts has a cut, and `wildcardMatchC_follows_levels` says which hosts with a
cut it misses.
-/

namespace Luan

/-- At least two labels are `**`, and no other label contains it. -/
def HasDoubleStars (pattern : CString) : Prop :=
  2 ≤ (labels pattern).count doubleStar
    ∧ ∀ l ∈ labels pattern, l ≠ doubleStar → ¬ doubleStar <:+: l

instance (pattern : CString) : Decidable (HasDoubleStars pattern) :=
  inferInstanceAs (Decidable (_ ∧ _))

/-- The labels that a pattern label takes: any for `**`, a single one that matches otherwise. -/
def Takes (l : CString) (piece : List CString) : Prop :=
  l = doubleStar ∨ ∃ x, piece = [x] ∧ LabelMatch l x

/-- **The documented meaning of every `**`**: the host's labels are cut into consecutive pieces,
one for each label of the pattern. -/
def LevelsMatch (pattern host : CString) : Prop :=
  ∃ pieces, List.Forall₂ Takes (labels pattern) pieces ∧ pieces.flatten = labels host

/-- A cut in which every `**` behind the first takes exactly one label. -/
def FirstLevelsMatch (pattern host : CString) : Prop :=
  ∃ pre post A M B, labels pattern = pre ++ doubleStar :: post ∧ doubleStar ∉ pre
    ∧ labels host = A ++ M ++ B
    ∧ List.Forall₂ LabelMatch pre A ∧ List.Forall₂ LabelMatch post B

/-! ## Cuts -/

/-- Labels matched one by one are pieces of one label each. -/
lemma takes_singletons {ls xs : List CString} (h : List.Forall₂ LabelMatch ls xs) :
    List.Forall₂ Takes ls (xs.map fun x => [x]) := by
  induction h with
  | nil => exact List.Forall₂.nil
  | cons hl _ ih => exact List.Forall₂.cons (Or.inr ⟨_, rfl, hl⟩) ih

lemma flatten_singletons (xs : List CString) : (xs.map fun x => [x]).flatten = xs := by
  rw [← List.flatMap_def]
  exact List.flatMap_singleton' xs

lemma FirstLevelsMatch.levelsMatch {pattern host : CString} (h : FirstLevelsMatch pattern host) :
    LevelsMatch pattern host := by
  obtain ⟨pre, post, A, M, B, hp, -, hlab, hA, hB⟩ := h
  refine ⟨A.map (fun x => [x]) ++ M :: B.map (fun x => [x]), ?_, ?_⟩
  · rw [hp]
    exact List.rel_append (takes_singletons hA)
      (List.Forall₂.cons (Or.inl rfl) (takes_singletons hB))
  · rw [hlab, List.flatten_append, List.flatten_cons, flatten_singletons, flatten_singletons,
      List.append_assoc]

/-! ## The first `**` -/

/-- The pattern around its first `**`, which has labels behind it. -/
lemma HasDoubleStars.exists_first {pattern : CString} (htwo : HasDoubleStars pattern) :
    ∃ pre post, labels pattern = pre ++ doubleStar :: post ∧ doubleStar ∉ pre ∧ post ≠ [] := by
  have hmem : doubleStar ∈ labels pattern := by
    rw [← List.count_pos_iff]
    have := htwo.1
    omega
  obtain ⟨pre, post, hlab, hpre⟩ := List.eq_append_cons_of_mem hmem
  refine ⟨pre, post, hlab, hpre, ?_⟩
  rintro rfl
  have hcount := htwo.1
  rw [hlab, List.count_append, List.count_eq_zero_of_not_mem hpre, List.count_cons_self,
    List.count_nil] at hcount
  omega

/-- The first `**` is determined by the pattern. -/
lemma first_unique {pre post pre' post' : List CString}
    (h : pre ++ doubleStar :: post = pre' ++ doubleStar :: post') (hpre : doubleStar ∉ pre)
    (hpre' : doubleStar ∉ pre') : pre = pre' ∧ post = post' := by
  have heq : pre = pre' :=
    prefix_eq_of_count h (by
      rw [List.count_eq_zero_of_not_mem hpre, List.count_eq_zero_of_not_mem hpre'])
  subst heq
  exact ⟨rfl, (List.cons.inj (List.append_cancel_left h)).2⟩

/-- The cut of a pattern whose labels are known, on texts in lower case. -/
lemma firstLevelsMatch_iff {pattern host : CString} {pre post : List CString}
    (h : labels pattern = pre ++ doubleStar :: post) (hpre : doubleStar ∉ pre) :
    FirstLevelsMatch pattern host
      ↔ ∃ A M B, labels (toLowercase host) = A ++ M ++ B
        ∧ List.Forall₂ (fun l x => x ∈ singleLang l) (pre.map toLowercase) A
        ∧ List.Forall₂ (fun l x => x ∈ singleLang l) (post.map toLowercase) B := by
  rw [labels_toLowercase]
  constructor
  · rintro ⟨pre', post', A, M, B, hp, hpre', hlab, hA, hB⟩
    obtain ⟨rfl, rfl⟩ := first_unique (h.symm.trans hp) hpre hpre'
    refine ⟨A.map toLowercase, M.map toLowercase, B.map toLowercase, ?_,
      forall₂_labelMatch.mp hA, forall₂_labelMatch.mp hB⟩
    rw [hlab, List.map_append, List.map_append]
  · rintro ⟨A', M', B', hlab, hA, hB⟩
    obtain ⟨AM, B, hAM, hAM', rfl⟩ := List.map_eq_append_iff.mp hlab
    obtain ⟨A, M, rfl, rfl, -⟩ := List.map_eq_append_iff.mp hAM'
    exact ⟨pre, post, A, M, B, h, hpre, hAM, forall₂_labelMatch.mpr hA, forall₂_labelMatch.mpr hB⟩

/-- A pattern equal to the host up to case matches it label by label. -/
lemma firstLevelsMatch_of_eq {pattern host : CString} (htwo : HasDoubleStars pattern)
    (heq : toLowercase pattern = toLowercase host) : FirstLevelsMatch pattern host := by
  obtain ⟨pre, post, hlab, hpre, -⟩ := htwo.exists_first
  have hself : ∀ ls : List CString, List.Forall₂ (fun l x => x ∈ singleLang l) ls ls :=
    fun ls => List.forall₂_same.mpr fun l _ => self_mem_globLang star_ne_dot l
  refine (firstLevelsMatch_iff hlab hpre).mpr
    ⟨pre.map toLowercase, [doubleStar], post.map toLowercase, ?_, hself _, hself _⟩
  rw [← heq, labels_toLowercase, hlab, List.map_append, List.map_cons, List.append_assoc]
  rfl

/-- **What the branches accept** when labels stand behind the first `**`. -/
lemma matchMultiLevelWildcard_iff_firstLevels {pattern host : CString}
    (htwo : HasDoubleStars pattern) (hp : pattern.length < 256) (hh : host.length < 256) :
    matchMultiLevelWildcard Buffers.fixed pattern host = true ↔ FirstLevelsMatch pattern host := by
  obtain ⟨pre, post, hlab, hpre, hpost⟩ := htwo.exists_first
  have hpost' : post.map toLowercase ≠ [] := by simpa using hpost
  rw [firstLevelsMatch_iff hlab hpre]
  by_cases hnil : pre = []
  · subst hnil
    have hlow : labels (toLowercase pattern) = doubleStar :: post.map toLowercase := by
      rw [labels_toLowercase, hlab]
      rfl
    obtain ⟨z, hz, hpat⟩ := (eq_of_labels_doubleStar hlow).resolve_left fun h => hpost' h.1
    rw [matchMultiLevelWildcard_leading_labels hpat (by omega), hz]
    constructor
    · rintro ⟨M, B, hMB, hB⟩
      exact ⟨[], M, B, hMB, List.Forall₂.nil, hB⟩
    · rintro ⟨A, M, B, hMB, hA, hB⟩
      rw [List.forall₂_nil_left_iff.mp hA] at hMB
      exact ⟨M, B, hMB, hB⟩
  · have hfree : ∀ l ∈ pre, ¬ doubleStar <:+: l := fun l hl =>
      htwo.2 l (hlab ▸ List.mem_append_left _ hl) fun h => hpre (h ▸ hl)
    obtain ⟨x, y, hx, hy, hpat, hxfree⟩ := cut_at_doubleStar hlab hnil hfree
    obtain ⟨z, hz, rfl⟩ := (eq_of_labels_doubleStar hy).resolve_left fun h => hpost' h.1
    rw [matchMultiLevelWildcard_middle_labels hp hh hpat hxfree, hx, hz]

/-- **What `wildcard_match_c` accepts** for a pattern with several `**`. -/
lemma wildcardMatchC_iff_firstLevels {pattern host : CString} (htwo : HasDoubleStars pattern)
    (hp : pattern.length < 256) (hh : host.length < 256) :
    wildcardMatchC (some pattern) (some host) = true ↔ FirstLevelsMatch pattern host := by
  have hin : doubleStar <:+: pattern := by
    obtain ⟨pre, post, hlab, -⟩ := htwo.exists_first
    exact label_infix (show doubleStar ∈ labels pattern by simp [hlab])
  rw [wildcardMatchC, wildcardMatch_doubleStar hin,
    matchMultiLevelWildcard_iff_firstLevels htwo hp hh]
  exact ⟨fun h => h.elim (firstLevelsMatch_of_eq htwo) id, Or.inr⟩

/-- **Where every `**` means zero or more levels.**  The code follows the documented meaning on
exactly those hosts that have no cut, or have one in which the later `**` take one label each. -/
theorem wildcardMatchC_follows_levels (pattern host : CString) (htwo : HasDoubleStars pattern)
    (hp : pattern.length < 256) (hh : host.length < 256) :
    (wildcardMatchC (some pattern) (some host) = true ↔ LevelsMatch pattern host)
      ↔ (LevelsMatch pattern host → FirstLevelsMatch pattern host) := by
  rw [wildcardMatchC_iff_firstLevels htwo hp hh]
  constructor
  · intro h
    exact h.mpr
  · intro h
    exact ⟨FirstLevelsMatch.levelsMatch, h⟩

/-- The later `**` takes one label. -/
theorem wildcardMatchC_follows_levels_one :
    (wildcardMatchC (some (cstr "**.a.**")) (some (cstr "x.a.y")) = true
        ↔ LevelsMatch (cstr "**.a.**") (cstr "x.a.y"))
      ↔ (LevelsMatch (cstr "**.a.**") (cstr "x.a.y")
          → FirstLevelsMatch (cstr "**.a.**") (cstr "x.a.y")) :=
  wildcardMatchC_follows_levels _ _ (by decide) (by decide) (by decide)

/-- `**.a.**` rejects `a`: the second `**` would have to take no label. -/
theorem two_doubleStars_reject_a :
    HasDoubleStars (cstr "**.a.**") ∧ (cstr "**.a.**").length < 256 ∧ (cstr "a").length < 256
      ∧ LevelsMatch (cstr "**.a.**") (cstr "a")
      ∧ wildcardMatchC (some (cstr "**.a.**")) (some (cstr "a")) = false := by
  have htwo : HasDoubleStars (cstr "**.a.**") := by decide
  have hlab : labels (cstr "**.a.**") = [doubleStar, cstr "a", doubleStar] := by decide
  have hhost : labels (cstr "a") = [cstr "a"] := by decide
  refine ⟨htwo, by decide, by decide, ⟨[[], [cstr "a"], []], ?_, by decide⟩, ?_⟩
  · rw [hlab]
    refine List.Forall₂.cons (Or.inl rfl) (List.Forall₂.cons (Or.inr ⟨_, rfl, ?_⟩)
      (List.Forall₂.cons (Or.inl rfl) List.Forall₂.nil))
    exact self_mem_globLang star_ne_dot _
  · rw [Bool.eq_false_iff, ne_eq, wildcardMatchC_iff_firstLevels htwo (by decide) (by decide)]
    rintro ⟨pre, post, A, M, B, hp, -, hh, hA, hB⟩
    -- two labels would have to be matched by one
    have hlen := congrArg List.length hp
    have hlen' := congrArg List.length hh
    rw [hlab] at hlen
    rw [hhost] at hlen'
    simp only [List.length_append, List.length_cons, List.length_nil] at hlen hlen'
    have hA' := hA.length_eq
    have hB' := hB.length_eq
    omega

end Luan
