import Luan.Wildcard.Branches

/-!
# What the fixed buffers change

`wildcardMatchC` against the same algorithm with unbounded buffers.  Three copies are bounded:
pattern and host in `match_single_level_wildcard`, the beginnings of the host that
`match_prefix_pattern` tries, and the zero-level pattern.  Texts of at most 255 characters fit
all of them (`wildcardMatchC_of_short`).

`CutMatters` lists the ways in which a longer text changes an answer, in terms of the languages
of the patterns, and `wildcardMatchC_eq_unbounded_iff` says that there are no others.
-/

namespace Luan

/-- What a buffer of 256 bytes holds of a text. -/
def beginning (s : CString) : CString := s.take 255

lemma beginning_of_short {s : CString} (h : s.length < 256) : beginning s = s :=
  List.take_of_length_le (by omega)

/-- **The inputs on which a cut changes the answer**, for pattern and host in lower case. -/
inductive CutMatters (p h : CString) : Prop
  /-- The beginning of the host matches the beginning of the pattern, the host does not match. -/
  | beginningMatches (hstar : star ∈ p) (hsingle : ¬ doubleStar <:+: p)
      (hcut : beginning h ∈ singleLang (beginning p)) (hwhole : h ∉ singleLang p)
  /-- The host matches, its beginning does not match the beginning of the pattern. -/
  | beginningFails (hstar : star ∈ p) (hsingle : ¬ doubleStar <:+: p) (hne : p ≠ h)
      (hwhole : h ∈ singleLang p) (hcut : beginning h ∉ singleLang (beginning p))
  /-- Only the beginning of the zero-level pattern matches the host. -/
  | gluedMatches {pre z : CString} (hp : p.dropInfix? doubleStar = some (pre, dot :: z))
      (hpre : pre ≠ []) (hne : p ≠ h) (hcut : h ∈ singleLang (beginning (pre ++ z)))
      (hwhole : h ∉ singleLang (pre ++ z))
      (hsplit : ¬ SplitMatch Buffers.unbounded pre (dot :: z) h)
  /-- The zero-level pattern matches the host, its beginning does not, and nothing else does. -/
  | gluedFails {pre z : CString} (hp : p.dropInfix? doubleStar = some (pre, dot :: z))
      (hpre : pre ≠ []) (hne : p ≠ h) (hwhole : h ∈ singleLang (pre ++ z))
      (hcut : h ∉ singleLang (beginning (pre ++ z)))
      (hsplit : ¬ SplitMatch Buffers.fixed pre (dot :: z) h)
  /-- The text before `**` only matches beginnings of the host that the buffer does not hold. -/
  | prefixTooLong {pre suffix : CString} (hp : p.dropInfix? doubleStar = some (pre, suffix))
      (hpre : pre ≠ []) (hne : p ≠ h) (hwhole : SplitMatch Buffers.unbounded pre suffix h)
      (hcut : ¬ SplitMatch Buffers.fixed pre suffix h)
      (hglued : ∀ z, suffix = dot :: z → h ∉ singleLang (beginning (pre ++ z)))

/-! ## Copies and splits -/

lemma toLowercase_copy_fixed (s : CString) :
    toLowercase (copyInto (some 256) s) = beginning (toLowercase s) := by
  simp [copyInto, beginning, toLowercase, List.map_take]

lemma SplitMatch.unbounded {buf : Buffers} {pre suffix h : CString}
    (hs : SplitMatch buf pre suffix h) : SplitMatch Buffers.unbounded pre suffix h := by
  obtain ⟨m, n, hm, hsplit⟩ := hs
  exact ⟨m, n, ⟨hm.le_length, hm.pos, hm.mem, fun _ => rfl, hm.shortest⟩, hsplit⟩

/-- On a short host every beginning fits. -/
lemma SplitMatch.fixed_of_short {pre suffix h : CString} (hlen : h.length < 256)
    (hs : SplitMatch Buffers.unbounded pre suffix h) : SplitMatch Buffers.fixed pre suffix h := by
  obtain ⟨m, n, hm, hsplit⟩ := hs
  have hle := hm.le_length
  exact ⟨m, n, ⟨hle, hm.pos, hm.mem, fun _ => decide_eq_true (by omega), hm.shortest⟩, hsplit⟩

/-! ## Case by case -/

lemma cutMatters_single {p h : CString} (hstar : star ∈ p) (hsingle : ¬ doubleStar <:+: p) :
    CutMatters p h
      ↔ (beginning h ∈ singleLang (beginning p) ∧ h ∉ singleLang p)
        ∨ (p ≠ h ∧ h ∈ singleLang p ∧ beginning h ∉ singleLang (beginning p)) := by
  have hnone := dropInfix?_eq_none.mpr hsingle
  constructor
  · intro hc
    cases hc with
    | beginningMatches _ _ hcut hwhole => exact Or.inl ⟨hcut, hwhole⟩
    | beginningFails _ _ hne hwhole hcut => exact Or.inr ⟨hne, hwhole, hcut⟩
    | gluedMatches hp =>
        rw [hnone] at hp
        cases hp
    | gluedFails hp =>
        rw [hnone] at hp
        cases hp
    | prefixTooLong hp =>
        rw [hnone] at hp
        cases hp
  · rintro (⟨hcut, hwhole⟩ | ⟨hne, hwhole, hcut⟩)
    · exact CutMatters.beginningMatches hstar hsingle hcut hwhole
    · exact CutMatters.beginningFails hstar hsingle hne hwhole hcut

/-- The zero-level pattern, if there is one, matches the host after `copy`. -/
def GluedMatch (copy : CString → CString) (pre suffix h : CString) : Prop :=
  ∃ z, suffix = dot :: z ∧ h ∈ singleLang (copy (pre ++ z))

lemma cutMatters_split {p h pre suffix : CString}
    (hcut : p.dropInfix? doubleStar = some (pre, suffix)) (hpre : pre ≠ []) :
    CutMatters p h
      ↔ (p ≠ h ∧ GluedMatch beginning pre suffix h ∧ ¬ GluedMatch id pre suffix h
          ∧ ¬ SplitMatch Buffers.unbounded pre suffix h)
        ∨ (p ≠ h ∧ (GluedMatch id pre suffix h ∨ SplitMatch Buffers.unbounded pre suffix h)
          ∧ ¬ GluedMatch beginning pre suffix h ∧ ¬ SplitMatch Buffers.fixed pre suffix h) := by
  have hin : doubleStar <:+: p := infix_of_dropInfix? hcut
  have hglued : ∀ {copy : CString → CString} {z : CString}, suffix = dot :: z →
      (GluedMatch copy pre suffix h ↔ h ∈ singleLang (copy (pre ++ z))) := by
    rintro copy z rfl
    constructor
    · rintro ⟨z', hz, hmem⟩
      obtain rfl := (List.cons.inj hz).2
      exact hmem
    · intro hmem
      exact ⟨z, rfl, hmem⟩
  have hsame : ∀ {pre' suffix'}, p.dropInfix? doubleStar = some (pre', suffix') →
      pre = pre' ∧ suffix = suffix' := by
    intro pre' suffix' hp
    rw [hcut] at hp
    exact Prod.mk.inj (Option.some.inj hp)
  constructor
  · intro hc
    cases hc with
    | beginningMatches _ hsingle => exact absurd hin hsingle
    | beginningFails _ hsingle => exact absurd hin hsingle
    | gluedMatches hp _ hne hcut' hwhole hsplit =>
        obtain ⟨rfl, rfl⟩ := hsame hp
        exact Or.inl ⟨hne, (hglued rfl).mpr hcut', fun hg => hwhole ((hglued rfl).mp hg), hsplit⟩
    | gluedFails hp _ hne hwhole hcut' hsplit =>
        obtain ⟨rfl, rfl⟩ := hsame hp
        exact Or.inr ⟨hne, Or.inl ((hglued rfl).mpr hwhole), fun hg => hcut' ((hglued rfl).mp hg),
          hsplit⟩
    | prefixTooLong hp _ hne hwhole hcut' hno =>
        obtain ⟨rfl, rfl⟩ := hsame hp
        refine Or.inr ⟨hne, Or.inr hwhole, ?_, hcut'⟩
        rintro ⟨z, hz, hmem⟩
        exact hno z hz hmem
  · rintro (⟨hne, hg, hnog, hsplit⟩ | ⟨hne, hwhole, hnog, hsplit⟩)
    · obtain ⟨z, rfl, hmem⟩ := hg
      exact CutMatters.gluedMatches hcut hpre hne hmem (fun hw => hnog ((hglued rfl).mpr hw)) hsplit
    · rcases hwhole with ⟨z, rfl, hmem⟩ | hwhole
      · exact CutMatters.gluedFails hcut hpre hne hmem (fun hc => hnog ((hglued rfl).mpr hc)) hsplit
      · exact CutMatters.prefixTooLong hcut hpre hne hwhole hsplit
          fun z hz hmem => hnog ⟨z, hz, hmem⟩

/-- What the code accepts with a `**` behind other text, with and without limits. -/
lemma wildcardMatch_split {buf : Buffers} (copy : CString → CString)
    (hcopy : copyInto buf.maxPatternLength = copy) {pattern host pre suffix : CString}
    (hcut : (toLowercase pattern).dropInfix? doubleStar = some (pre, suffix)) (hpre : pre ≠ []) :
    wildcardMatch buf (some pattern) (some host) = true
      ↔ toLowercase pattern = toLowercase host ∨ GluedMatch copy pre suffix (toLowercase host)
        ∨ SplitMatch buf pre suffix (toLowercase host) := by
  have hin : doubleStar <:+: pattern :=
    doubleStar_infix_toLowercase.mp (infix_of_dropInfix? hcut)
  rw [wildcardMatch_doubleStar hin, matchMultiLevelWildcard_split hcut hpre, hcopy]
  rfl

/-- With nothing before the `**` no cut matters. -/
lemma not_cutMatters_leading {p h suffix : CString}
    (hcut : p.dropInfix? doubleStar = some ([], suffix)) : ¬ CutMatters p h := by
  have hin : doubleStar <:+: p := infix_of_dropInfix? hcut
  have hnil : ∀ {pre' suffix'}, p.dropInfix? doubleStar = some (pre', suffix') → pre' = [] := by
    intro pre' suffix' hp
    rw [hcut] at hp
    exact (Prod.mk.inj (Option.some.inj hp)).1.symm
  intro hc
  cases hc with
  | beginningMatches _ hsingle => exact hsingle hin
  | beginningFails _ hsingle => exact hsingle hin
  | gluedMatches hp hpre => exact hpre (hnil hp)
  | gluedFails hp hpre => exact hpre (hnil hp)
  | prefixTooLong hp hpre => exact hpre (hnil hp)

/-- Without a star no cut matters. -/
lemma CutMatters.star_mem {p h : CString} (hc : CutMatters p h) : star ∈ p := by
  have hin : doubleStar <:+: p → star ∈ p := fun hin => hin.subset (by decide)
  cases hc with
  | beginningMatches hs => exact hs
  | beginningFails hs => exact hs
  | gluedMatches hp => exact hin (infix_of_dropInfix? hp)
  | gluedFails hp => exact hin (infix_of_dropInfix? hp)
  | prefixTooLong hp => exact hin (infix_of_dropInfix? hp)

/-! ## All inputs -/

/-- The two sizes of buffers compared, branch by branch. -/
lemma wildcardMatch_fixed_eq_unbounded (pattern host : CString) :
    wildcardMatch Buffers.fixed (some pattern) (some host)
        = wildcardMatch Buffers.unbounded (some pattern) (some host)
      ↔ ¬ CutMatters (toLowercase pattern) (toLowercase host) := by
  have hstar_iff : star ∈ toLowercase pattern ↔ star ∈ pattern := by
    simp [toLowercase, tolower_eq_star]
  rw [Bool.eq_iff_iff]
  by_cases hdouble : doubleStar <:+: pattern
  · obtain ⟨⟨pre, suffix⟩, hcut⟩ := exists_dropInfix? (doubleStar_infix_toLowercase.mpr hdouble)
    by_cases hpre : pre = []
    · subst hpre
      rw [wildcardMatch_doubleStar hdouble, wildcardMatch_doubleStar hdouble,
        matchMultiLevelWildcard_nil hcut Buffers.fixed Buffers.unbounded]
      exact iff_of_true Iff.rfl (not_cutMatters_leading hcut)
    · rw [wildcardMatch_split beginning rfl hcut hpre,
        wildcardMatch_split id rfl hcut hpre, cutMatters_split hcut hpre]
      have hmono : SplitMatch Buffers.fixed pre suffix (toLowercase host)
          → SplitMatch Buffers.unbounded pre suffix (toLowercase host) := SplitMatch.unbounded
      by_cases heq : toLowercase pattern = toLowercase host
      · simp [heq]
      · -- the cut can only lose matches behind the split, so what it adds is glued
        have hadded : (GluedMatch beginning pre suffix (toLowercase host)
              ∧ ¬ GluedMatch id pre suffix (toLowercase host)
              ∧ ¬ SplitMatch Buffers.unbounded pre suffix (toLowercase host))
            ↔ (GluedMatch beginning pre suffix (toLowercase host)
                ∨ SplitMatch Buffers.fixed pre suffix (toLowercase host))
              ∧ ¬ (GluedMatch id pre suffix (toLowercase host)
                ∨ SplitMatch Buffers.unbounded pre suffix (toLowercase host)) := by
          rw [not_or]
          exact and_congr_left fun h => (or_iff_left fun hsplit => h.2 (hmono hsplit)).symm
        rw [and_iff_right heq, hadded, ← not_or, or_iff_right heq, or_iff_right heq,
          and_iff_right heq]
        exact (not_xor _ _).symm
  · have hsingle : ¬ doubleStar <:+: toLowercase pattern :=
      fun h => hdouble (doubleStar_infix_toLowercase.mp h)
    by_cases hstar : star ∈ pattern
    · rw [wildcardMatch_single hstar hdouble, wildcardMatch_single hstar hdouble,
        cutMatters_single (hstar_iff.mpr hstar) hsingle]
      have hself := self_mem_globLang star_ne_dot (toLowercase pattern)
      dsimp only [Buffers.fixed, Buffers.unbounded]
      rw [toLowercase_copy_fixed, toLowercase_copy_fixed]
      by_cases heq : toLowercase pattern = toLowercase host
      · rw [heq] at hself
        simp [heq, hself]
      · dsimp only [copyInto]
        rw [or_iff_right heq, or_iff_right heq, and_iff_right heq]
        exact (not_xor _ _).symm
    · -- both are the comparison of pattern and host
      refine iff_of_true ?_ fun hc => hstar (hstar_iff.mp hc.star_mem)
      simp [wildcardMatch, hstar]

/-- **When the buffers do not matter.**  The code gives the answer of the unbounded algorithm on
exactly the inputs outside `CutMatters`. -/
theorem wildcardMatchC_eq_unbounded_iff (pattern host : CString) :
    wildcardMatchC (some pattern) (some host)
        = wildcardMatch Buffers.unbounded (some pattern) (some host)
      ↔ ¬ CutMatters (toLowercase pattern) (toLowercase host) :=
  wildcardMatch_fixed_eq_unbounded pattern host

/-- A host of 255 letters and `.b`: its first 255 characters match `*`, and it does not. -/
theorem star_accepts_dot_behind_255 :
    wildcardMatchC (some (cstr "*")) (some (List.replicate 255 ⟨97, by decide⟩ ++ cstr ".b")) = true
      ∧ wildcardMatch Buffers.unbounded (some (cstr "*"))
          (some (List.replicate 255 ⟨97, by decide⟩ ++ cstr ".b")) = false := by
  set host : CString := List.replicate 255 ⟨97, by decide⟩ ++ cstr ".b" with hhost
  have hlower : toLowercase host = List.replicate 255 ⟨97, by decide⟩ ++ cstr ".b" := by
    rw [hhost, toLowercase, List.map_append, List.map_replicate]
    rfl
  have hne : toLowercase (cstr "*") ≠ toLowercase host := by
    intro heq
    have hlen := congrArg List.length heq
    rw [hlower, List.length_append, List.length_replicate] at hlen
    simp [toLowercase, cstr] at hlen
  have hlang : ∀ h : CString, h ∈ singleLang (toLowercase (cstr "*")) ↔ dot ∉ h := by
    intro h
    show h ∈ singleLang [star] ↔ dot ∉ h
    rw [mem_singleLang_star]
    constructor
    · rintro ⟨u, v, hu, hv, rfl⟩
      obtain rfl := mem_globLang_nil.mp hv
      rwa [List.append_nil]
    · intro hdot
      exact ⟨h, [], hdot, mem_globLang_nil.mpr rfl, List.append_nil h⟩
  constructor
  · refine (wildcardMatch_single (by decide) (by decide)).mpr (Or.inr ?_)
    dsimp only [Buffers.fixed]
    rw [toLowercase_copy_fixed, toLowercase_copy_fixed, hlower,
      beginning_of_short (s := toLowercase (cstr "*")) (by decide), beginning,
      List.take_left' (List.length_replicate ..)]
    refine (hlang _).mpr fun hmem => ?_
    exact absurd (List.eq_of_mem_replicate hmem) (by decide)
  · rw [Bool.eq_false_iff, ne_eq, wildcardMatch_single (by decide) (by decide)]
    rintro (heq | hmem)
    · exact hne heq
    · refine (hlang _).mp hmem ?_
      dsimp only [Buffers.unbounded, copyInto]
      rw [hlower]
      exact List.mem_append_right _ (by decide)

/-! ## Short texts -/

/-- A cut only matters if a text is longer than the buffers. -/
lemma CutMatters.long {p h : CString} (hc : CutMatters p h) : 256 ≤ p.length ∨ 256 ≤ h.length := by
  by_contra hshort
  push Not at hshort
  obtain ⟨hp256, hh256⟩ := hshort
  have hglued : ∀ {pre z : CString}, p.dropInfix? doubleStar = some (pre, dot :: z) →
      beginning (pre ++ z) = pre ++ z := by
    intro pre z hp
    obtain ⟨rfl, -⟩ := dropInfix?_eq_some.mp hp
    refine beginning_of_short ?_
    simp only [List.length_append, List.length_cons] at hp256 ⊢
    omega
  cases hc with
  | beginningMatches _ _ hcut hwhole =>
      rw [beginning_of_short hp256, beginning_of_short hh256] at hcut
      exact hwhole hcut
  | beginningFails _ _ _ hwhole hcut =>
      rw [beginning_of_short hp256, beginning_of_short hh256] at hcut
      exact hcut hwhole
  | gluedMatches hp _ _ hcut hwhole =>
      rw [hglued hp] at hcut
      exact hwhole hcut
  | gluedFails hp _ _ hwhole hcut =>
      rw [hglued hp] at hcut
      exact hcut hwhole
  | prefixTooLong _ _ _ hwhole hcut => exact hcut (hwhole.fixed_of_short hh256)

/-- **Texts of at most 255 characters are matched as if there were no limits.** -/
theorem wildcardMatchC_of_short {pattern host : CString} (hp : pattern.length < 256)
    (hh : host.length < 256) :
    wildcardMatchC (some pattern) (some host)
      = wildcardMatch Buffers.unbounded (some pattern) (some host) := by
  refine (wildcardMatch_fixed_eq_unbounded pattern host).mpr fun hc => ?_
  have hlong := hc.long
  rw [length_toLowercase, length_toLowercase] at hlong
  omega

end Luan
