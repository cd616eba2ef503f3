import Luan.Wildcard.SingleLevel

/-!
# What the branches of `wildcard_match_c` accept

One lemma for each way through `wildcard_match_c` and `match_multi_level_wildcard`, character by
character and for buffers of any size.  `pre` and `suffix` are the texts before and behind the
first `**` of the lower-cased pattern.

* `wildcardMatch_single` — a star and no `**`: the copies of pattern and host.
* `matchMultiLevelWildcard_leading` — `pre` is empty; no buffer is involved.
* `matchMultiLevelWildcard_split` — `pre` is not empty: the zero-level pattern glued from `pre`
  and `suffix`, or a split of the host (`SplitMatch`).  The code commits to the *shortest*
  beginning of the host that matches `pre`.
* `splitMatch_iff_of_lt` — nothing is lost by that on hosts that an `int` can measure: what a
  shorter beginning leaves over contains what a longer one leaves over.
-/

namespace Luan

/-! ## The dispatch -/

/-- A pattern with a star and without `**` matches a host that is equal to it, and otherwise by
the copies that `match_single_level_wildcard` makes. -/
lemma wildcardMatch_single {buf : Buffers} {pattern host : CString} (hstar : star ∈ pattern)
    (hsingle : ¬ doubleStar <:+: pattern) :
    wildcardMatch buf (some pattern) (some host) = true
      ↔ toLowercase pattern = toLowercase host
        ∨ toLowercase (copyInto buf.maxHostLength host)
          ∈ singleLang (toLowercase (copyInto buf.maxPatternLength pattern)) := by
  unfold wildcardMatch
  dsimp only
  rw [dropInfix?_eq_none.mpr hsingle, ← strcasecmpC_eq_zero]
  split_ifs with heq hno
  · exact ⟨fun _ => Or.inl heq, fun _ => rfl⟩
  · simp [hstar] at hno
  · rename_i hsome
    cases hsome
  · rw [matchSingleLevelWildcard, matchSingleLevelRecursive_iff]
    exact ⟨Or.inr, fun h => h.resolve_left heq⟩

/-- A pattern with `**` matches a host that is equal to it, and otherwise by the code of
`match_multi_level_wildcard`. -/
lemma wildcardMatch_doubleStar {buf : Buffers} {pattern host : CString}
    (h : doubleStar <:+: pattern) :
    wildcardMatch buf (some pattern) (some host) = true
      ↔ toLowercase pattern = toLowercase host
        ∨ matchMultiLevelWildcard buf pattern host = true := by
  have hstar : star ∈ pattern := h.subset (by decide)
  have hfound : (pattern.dropInfix? doubleStar).isSome = true :=
    Option.isSome_iff_exists.mpr (exists_dropInfix? h)
  unfold wildcardMatch
  dsimp only
  rw [← strcasecmpC_eq_zero]
  split_ifs with heq hno
  · exact ⟨fun _ => Or.inl heq, fun _ => rfl⟩
  · simp [hstar] at hno
  · exact ⟨Or.inr, fun h => h.resolve_left heq⟩

/-- Lower case neither makes nor breaks a `**`. -/
lemma doubleStar_infix_toLowercase {l : CString} :
    doubleStar <:+: toLowercase l ↔ doubleStar <:+: l := by
  constructor
  · rintro ⟨u, v, h⟩
    obtain ⟨uw, v', rfl, huw, -⟩ := List.map_eq_append_iff.mp h.symm
    obtain ⟨u', w', rfl, -, hw⟩ := List.map_eq_append_iff.mp huw
    obtain ⟨a, t, rfl, ha, ht⟩ := List.map_eq_cons_iff.mp hw
    obtain ⟨b, t', rfl, hb, ht'⟩ := List.map_eq_cons_iff.mp ht
    rw [tolower_eq_star] at ha hb
    rw [List.map_eq_nil_iff] at ht'
    subst ha hb ht'
    exact ⟨u', v', by simp [doubleStar]⟩
  · intro h
    exact h.map tolower

/-! ## A leading `**` -/

/-- Cutting a pattern at a leading `**`. -/
lemma dropInfix?_leading (rest : CString) :
    (doubleStar ++ rest).dropInfix? doubleStar = some ([], rest) :=
  dropInfix?_eq_some.mpr ⟨by simp, fun _ _ _ => Nat.zero_le _⟩

/-- A suffix pattern with its dot. -/
lemma exists_suffix_dot {z h : CString} :
    (∃ u v, v ∈ singleLang (dot :: z) ∧ u ++ v = h)
      ↔ ∃ u v, v ∈ singleLang z ∧ u ++ dot :: v = h := by
  constructor
  · rintro ⟨u, v, hv, huv⟩
    obtain ⟨w, hw, rfl⟩ := (mem_globLang_cons_letter star_ne_dot.symm).mp hv
    exact ⟨u, w, hw, huv⟩
  · rintro ⟨u, v, hv, huv⟩
    exact ⟨u, dot :: v, (mem_globLang_cons_letter star_ne_dot.symm).mpr ⟨v, hv, rfl⟩, huv⟩

/-- `str_ends_with` on texts in lower case. -/
lemma strEndsWith_iff {str suffix : CString} (hstr : toLowercase str = str)
    (hsuffix : toLowercase suffix = suffix) :
    strEndsWith str suffix = true ↔ suffix <:+ str := by
  have hdrop : toLowercase (str.drop (str.length - suffix.length))
      = str.drop (str.length - suffix.length) := by
    conv_rhs => rw [← hstr]
    simp [toLowercase, List.map_drop]
  simp only [strEndsWith]
  split_ifs with hlen
  · refine ⟨fun hf => hf.elim, fun hs => ?_⟩
    exact absurd hs.length_le (by omega)
  · rw [beq_iff_eq, strcasecmpC_eq_zero, hdrop, hsuffix, List.suffix_iff_eq_drop, eq_comm]

/-- Pattern `**.z`. -/
lemma matchMultiLevelWildcard_leading {buf : Buffers} {pattern host z : CString}
    (hp : toLowercase pattern = doubleStar ++ dot :: z) (hlt : host.length < 2147483648) :
    matchMultiLevelWildcard buf pattern host = true
      ↔ toLowercase host ∈ singleLang z
        ∨ ∃ u v, v ∈ singleLang z ∧ u ++ dot :: v = toLowercase host := by
  have hz : toLowercase (dot :: z) = dot :: z := by
    have hlow := toLowercase_toLowercase pattern
    rw [hp] at hlow
    exact (List.append_right_inj doubleStar).mp hlow
  simp only [matchMultiLevelWildcard]
  rw [hp, dropInfix?_leading]
  dsimp only
  rw [if_pos List.length_nil, if_neg (by simp), if_pos List.head?_cons, List.tail_cons,
    ← exists_suffix_dot]
  split_ifs with hstar
  · rw [Bool.or_eq_true, matchSingleLevelRecursive_iff, decide_eq_true_eq,
      matchSuffixPattern_nonneg_iff_of_lt (by rwa [length_toLowercase])]
  · have hfree : star ∉ z := by simpa using hstar
    have hfree' : star ∉ dot :: z := by simpa [star_ne_dot] using hfree
    rw [Bool.or_eq_true, decide_eq_true_eq, mem_globLang_of_no_star hfree,
      strEndsWith_iff (toLowercase_toLowercase host) hz]
    refine or_congr_right ⟨?_, ?_⟩
    · rintro ⟨u, hu⟩
      exact ⟨u, dot :: z, self_mem_globLang star_ne_dot _, hu⟩
    · rintro ⟨u, v, hv, huv⟩
      obtain rfl := (mem_globLang_of_no_star hfree').mp hv
      exact ⟨u, huv⟩

/-- With nothing before `**` the code makes no bounded copy. -/
lemma matchMultiLevelWildcard_nil {pattern host suffix : CString}
    (hcut : (toLowercase pattern).dropInfix? doubleStar = some ([], suffix)) (buf buf' : Buffers) :
    matchMultiLevelWildcard buf pattern host = matchMultiLevelWildcard buf' pattern host := by
  simp only [matchMultiLevelWildcard]
  rw [hcut]
  rfl

/-! ## A `**` behind other text -/

/-- The host begins with a match of `pre` that the prefix search can copy, and it ends, behind
the shortest one, with a match of `suffix`.  The two lengths are not negative as `int`s. -/
def SplitMatch (buf : Buffers) (pre suffix h : CString) : Prop :=
  ∃ m n, IsShortestPrefix buf pre h m ∧ 0 ≤ intOfSize m
    ∧ IsLongestSuffix suffix (h.drop (intOfSize m).toNat) n ∧ 0 ≤ intOfSize n

/-- **A split is what the two searches find.** -/
lemma splitMatch_iff {buf : Buffers} {pre suffix h : CString} :
    SplitMatch buf pre suffix h
      ↔ 0 ≤ matchPrefixPattern buf pre h
        ∧ 0 ≤ matchSuffixPattern suffix (h.drop (matchPrefixPattern buf pre h).toNat) := by
  rw [matchPrefixPattern_nonneg_iff, matchSuffixPattern_nonneg_iff]
  constructor
  · rintro ⟨m, n, hm, hmpos, hn, hnpos⟩
    rw [hm.matchPrefixPattern_eq]
    exact ⟨⟨m, hm, hmpos⟩, n, hn, hnpos⟩
  · rintro ⟨⟨m, hm, hmpos⟩, n, hn, hnpos⟩
    rw [hm.matchPrefixPattern_eq] at hn
    exact ⟨m, n, hm, hmpos, hn, hnpos⟩

/-- **Committing to the shortest beginning finds every split** of a host that an `int` can
measure. -/
lemma splitMatch_iff_of_lt {buf : Buffers} {pre suffix h : CString} (hpre : pre ≠ [])
    (hlt : h.length < 2147483648) :
    SplitMatch buf pre suffix h
      ↔ ∃ u v w, u ≠ [] ∧ PrefixFits buf pre u.length ∧ u ∈ singleLang pre ∧ w ∈ singleLang suffix
        ∧ u ++ (v ++ w) = h := by
  rw [splitMatch_iff]
  constructor
  · rintro ⟨hpos, hsuffix⟩
    obtain ⟨m, hm, -⟩ := matchPrefixPattern_nonneg_iff.mp hpos
    have hle := hm.le_length
    rw [hm.matchPrefixPattern_eq, intOfSize_of_lt (by omega), Int.toNat_natCast,
      matchSuffixPattern_nonneg_iff_of_lt (by rw [List.length_drop]; omega)] at hsuffix
    obtain ⟨v, w, hw, hvw⟩ := hsuffix
    have hlen : (h.take m).length = m := List.length_take_of_le hle
    refine ⟨h.take m, v, w, ?_, by rw [hlen]; exact hm.fits, hm.mem, hw, ?_⟩
    · have hone := hm.pos hpre
      exact List.ne_nil_of_length_pos (by omega)
    · rw [hvw, List.take_append_drop]
  · rintro ⟨u, v, w, hne, hfit, hu, hw, rfl⟩
    have hlen : 1 ≤ u.length := List.length_pos_iff.mpr hne
    have htake : (u ++ (v ++ w)).take u.length = u := List.take_left
    obtain ⟨m, hmu, hm⟩ := exists_isShortestPrefix (h := u ++ (v ++ w)) hlen (by simp) hfit
      (by rwa [htake])
    have hle := hm.le_length
    rw [hm.matchPrefixPattern_eq, intOfSize_of_lt (by omega), Int.toNat_natCast,
      matchSuffixPattern_nonneg_iff_of_lt (by rw [List.length_drop]; omega)]
    refine ⟨Int.natCast_nonneg m, u.drop m ++ v, w, hw, ?_⟩
    rw [List.drop_append_of_le_length hmu, List.append_assoc]

/-- The text before the first `**` does not end in a star, which would make an earlier `**`. -/
lemma getLast?_before_doubleStar {p pre suffix : CString}
    (hcut : p.dropInfix? doubleStar = some (pre, suffix)) : pre.getLast? ≠ some star := by
  intro hlast
  obtain ⟨pre', rfl⟩ := List.getLast?_eq_some_iff.mp hlast
  obtain ⟨hp, hfirst⟩ := dropInfix?_eq_some.mp hcut
  have hle := hfirst pre' (star :: suffix) (by rw [← hp]; simp [doubleStar])
  simp only [List.length_append, List.length_singleton] at hle
  omega

/-- A pattern that does not end in a star matches no empty text. -/
lemma ne_nil_of_mem_singleLang {p u : CString} (hp : p ≠ []) (hlast : p.getLast? ≠ some star)
    (hu : u ∈ singleLang p) : u ≠ [] := by
  rintro rfl
  have hstars : ∀ c ∈ p, c = star := by
    simpa using List.dropWhile_eq_nil_iff.mp (nil_mem_globLang_iff.mp hu)
  refine hlast ?_
  rw [List.getLast?_eq_some_getLast hp, hstars _ (List.getLast_mem hp)]

/-- **Committing to the shortest beginning loses no match**: the two searches succeed exactly if
the host has a beginning in the language of the prefix pattern and, behind it, an end in the
language of the suffix pattern. -/
theorem prefix_suffix_search_iff (P S h : CString) (hP : P.getLast? ≠ some star)
    (hh : h.length < 256) :
    (0 ≤ matchPrefixPattern Buffers.fixed P h
        ∧ 0 ≤ matchSuffixPattern S (h.drop (matchPrefixPattern Buffers.fixed P h).toNat))
      ↔ ∃ i j, i ≤ j ∧ j ≤ h.length ∧ h.take i ∈ singleLang P ∧ h.drop j ∈ singleLang S := by
  by_cases hnil : P = []
  · subst hnil
    have hzero : matchPrefixPattern Buffers.fixed [] h = 0 := rfl
    rw [hzero, Int.toNat_zero, List.drop_zero, matchSuffixPattern_nonneg_iff_of_lt (by omega)]
    constructor
    · rintro ⟨-, u, v, hv, rfl⟩
      exact ⟨0, u.length, Nat.zero_le _, by simp, by simp, by rwa [List.drop_left]⟩
    · rintro ⟨i, j, -, -, -, hj⟩
      exact ⟨le_refl 0, h.take j, h.drop j, hj, List.take_append_drop j h⟩
  · rw [← splitMatch_iff, splitMatch_iff_of_lt hnil (by omega)]
    constructor
    · rintro ⟨u, v, w, -, -, hu, hw, rfl⟩
      refine ⟨u.length, u.length + v.length, by omega, by simp, ?_, ?_⟩
      · rwa [List.take_left]
      · rwa [← List.append_assoc, ← List.length_append, List.drop_left]
    · rintro ⟨i, j, hij, hjh, hi, hj⟩
      have hlen : (h.take i).length = i := List.length_take_of_le (by omega)
      refine ⟨h.take i, (h.drop i).take (j - i), h.drop j, ne_nil_of_mem_singleLang hnil hP hi,
        fun _ => ?_, hi, hj, ?_⟩
      · simp only [Buffers.fixed, fitsIn, decide_eq_true_eq]
        omega
      · have hrest : (h.drop i).drop (j - i) = h.drop j := by
          rw [List.drop_drop, Nat.add_sub_cancel' hij]
        rw [← hrest, List.take_append_drop, List.take_append_drop]

/-- A prefix with a star: `a*.` takes `ab.`, and `z` is found behind it. -/
theorem prefix_suffix_search_iff_host :
    (0 ≤ matchPrefixPattern Buffers.fixed (cstr "a*.") (cstr "ab.y.z")
        ∧ 0 ≤ matchSuffixPattern (cstr "z") ((cstr "ab.y.z").drop
            (matchPrefixPattern Buffers.fixed (cstr "a*.") (cstr "ab.y.z")).toNat))
      ↔ ∃ i j, i ≤ j ∧ j ≤ (cstr "ab.y.z").length
        ∧ (cstr "ab.y.z").take i ∈ singleLang (cstr "a*.")
        ∧ (cstr "ab.y.z").drop j ∈ singleLang (cstr "z") :=
  prefix_suffix_search_iff _ _ _ (by decide) (by decide)

/-- The prefix search alone is a split with nothing to match at the end. -/
lemma splitMatch_nil_iff {buf : Buffers} {pre h : CString} :
    SplitMatch buf pre [] h ↔ 0 ≤ matchPrefixPattern buf pre h := by
  rw [splitMatch_iff]
  exact ⟨fun h => h.1, fun h => ⟨h, le_refl 0⟩⟩

/-- **Pattern with a `**` that is not at its beginning.** -/
lemma matchMultiLevelWildcard_split {buf : Buffers} {pattern host pre suffix : CString}
    (hcut : (toLowercase pattern).dropInfix? doubleStar = some (pre, suffix)) (hpre : pre ≠ []) :
    matchMultiLevelWildcard buf pattern host = true
      ↔ (∃ z, suffix = dot :: z
          ∧ toLowercase host ∈ singleLang (copyInto buf.maxPatternLength (pre ++ z)))
        ∨ SplitMatch buf pre suffix (toLowercase host) := by
  simp only [matchMultiLevelWildcard]
  rw [hcut]
  dsimp only
  rw [if_neg (fun h => hpre (List.length_eq_zero_iff.mp h))]
  by_cases hsuffix : suffix = []
  · subst hsuffix
    rw [if_pos List.length_nil, decide_eq_true_eq, splitMatch_nil_iff]
    refine ⟨Or.inr, ?_⟩
    rintro (⟨z, hz, -⟩ | h)
    · cases hz
    · exact h
  · have hglued : (suffix.head? = some dot
        ∧ matchSingleLevelRecursive (copyInto buf.maxPatternLength (pre ++ suffix.tail))
            (toLowercase host) = true)
        ↔ ∃ z, suffix = dot :: z
          ∧ toLowercase host ∈ singleLang (copyInto buf.maxPatternLength (pre ++ z)) := by
      rw [matchSingleLevelRecursive_iff]
      constructor
      · rintro ⟨hdot, hmem⟩
        exact ⟨suffix.tail, (List.cons_head?_tail hdot).symm, hmem⟩
      · rintro ⟨z, rfl, hmem⟩
        exact ⟨rfl, hmem⟩
    rw [if_neg (fun h => hsuffix (List.length_eq_zero_iff.mp h)), splitMatch_iff, ← hglued]
    split_ifs with hzero hpos
    · exact ⟨fun _ => Or.inl hzero, fun _ => rfl⟩
    · rw [decide_eq_true_eq]
      exact ⟨fun h => Or.inr ⟨hpos, h⟩, fun h => (h.resolve_left hzero).2⟩
    · exact ⟨fun hf => hf.elim, fun h => absurd (h.resolve_left hzero).1 hpos⟩

end Luan
