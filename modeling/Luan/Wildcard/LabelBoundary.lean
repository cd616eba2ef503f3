import Luan.Wildcard.MultiLevel

/-!
# Where an accepted host ends

A pattern whose last `*` is followed by `.` and a fixed text `S` is meant for `S` and what lies
under it.  Four of the five ways to accept a host keep that boundary, whatever stands before the
last `*`.  The zero-level match does not: it joins the texts before and behind `**` without the
dot, as if the text before `**` ended with one (`JoinedMatch`).

`wildcardMatchC_boundary` says that this is the only way to lose the boundary.
-/

namespace Luan

/-- The host is `S` or ends with a dot and `S`, ignoring case. -/
def EndsAtLabel (S host : CString) : Prop :=
  toLowercase host = toLowercase S ∨ dot :: toLowercase S <:+ toLowercase host

/-- The last wildcard of the pattern is its first `**`, the text before it is not empty and does
not end with a dot, and the host is a match of that text with `S` joined to it. -/
def JoinedMatch (pattern S host : CString) : Prop :=
  ∃ pre u, (toLowercase pattern).dropInfix? doubleStar = some (pre, dot :: toLowercase S)
    ∧ pre ≠ [] ∧ pre.getLast? ≠ some dot ∧ u ∈ singleLang pre
    ∧ u ++ toLowercase S = toLowercase host

/-! ## Ends of matched texts -/

/-- A matched text ends with what its pattern ends with. -/
lemma suffix_of_mem_singleLang {y s w : CString} (hs : star ∉ s)
    (hw : w ∈ singleLang (y ++ s)) : s <:+ w := by
  obtain ⟨u, -, v, hv, rfl⟩ := mem_globLang_append.mp hw
  rw [(mem_globLang_of_no_star hs).mp hv]
  exact List.suffix_append u s

/-- Behind a `**` lies the text behind the last star, or something that ends with it. -/
lemma behind_doubleStar {x y f s : CString} (hs : star ∉ s)
    (h : x ++ doubleStar ++ y = f ++ star :: s) : y = s ∨ ∃ y', y = y' ++ star :: s := by
  rcases List.append_eq_append_iff.mp h with ⟨a, -, ha⟩ | ⟨c, hc, hcy⟩
  · exact Or.inr ⟨a, ha⟩
  · -- the last star lies before `y`: it is the second of the two
    cases c with
    | nil => exact Or.inr ⟨[], hcy.symm⟩
    | cons d c =>
        obtain ⟨rfl, rfl⟩ := List.cons.inj hcy
        have hcnil : c = [] := by
          by_contra hne
          have hlast := congrArg List.getLast? hc
          rw [doubleStar, List.getLast?_append_cons, List.getLast?_append_cons,
            List.getLast?_cons_cons, List.getLast?_singleton, List.getLast?_cons,
            List.getLast?_eq_some_getLast hne, Option.getD_some] at hlast
          exact hs (List.mem_append_left y (Option.some.inj hlast ▸ List.getLast_mem hne))
        subst hcnil
        exact Or.inl rfl

/-- The same behind the dot that follows `**`. -/
lemma behind_dot {y z s : CString} (h : dot :: z = y ++ star :: s) :
    ∃ y', z = y' ++ star :: s := by
  cases y with
  | nil => exact absurd (List.cons.inj h).1 star_ne_dot.symm
  | cons d y => exact ⟨y, (List.cons.inj h).2⟩

/-- A pattern that does not end in a star matches texts that end with its last character. -/
lemma getLast?_of_mem_singleLang {p u : CString} {c : CChar} (hlast : p.getLast? = some c)
    (hc : c ≠ star) (hu : u ∈ singleLang p) : u.getLast? = some c := by
  obtain ⟨p', rfl⟩ := List.getLast?_eq_some_iff.mp hlast
  obtain ⟨u', rfl⟩ := suffix_of_mem_singleLang (s := [c]) (by simpa using hc.symm) hu
  exact List.getLast?_append_cons u' c []

/-! ## The five ways to accept -/

section Boundary

variable {pattern front S host : CString}

/-- The pattern in lower case. -/
lemma toLowercase_around_star :
    toLowercase (front ++ star :: dot :: S)
      = toLowercase front ++ star :: dot :: toLowercase S := by
  rw [toLowercase, List.map_append, List.map_cons, List.map_cons, tolower_eq_star.mpr rfl,
    tolower_dot]
  rfl

lemma star_not_mem_toLowercase : star ∉ toLowercase S ↔ star ∉ S := by
  simp [toLowercase, tolower_eq_star]

/-- A host that ends with a match of a text that ends with `S` behind a dot. -/
lemma EndsAtLabel.of_mem {u v y : CString} (hS : star ∉ S)
    (hv : v ∈ singleLang (y ++ dot :: toLowercase S)) (huv : u ++ v = toLowercase host) :
    EndsAtLabel S host := by
  have hfree : star ∉ dot :: toLowercase S := by
    simpa [star_ne_dot] using star_not_mem_toLowercase.mpr hS
  refine Or.inr (((suffix_of_mem_singleLang hfree hv).trans ?_))
  exact ⟨u, huv⟩

/-- Equal texts keep the boundary. -/
lemma endsAtLabel_of_eq (h : toLowercase (front ++ star :: dot :: S) = toLowercase host) :
    EndsAtLabel S host := by
  rw [toLowercase_around_star] at h
  exact Or.inr ⟨toLowercase front ++ [star], by rw [← h]; simp⟩

/-- The single-level matcher keeps it. -/
lemma endsAtLabel_of_single (hS : star ∉ S)
    (h : toLowercase host ∈ singleLang (toLowercase (front ++ star :: dot :: S))) :
    EndsAtLabel S host := by
  rw [toLowercase_around_star] at h
  refine EndsAtLabel.of_mem (u := []) (y := toLowercase front ++ [star]) hS ?_ rfl
  rwa [List.append_assoc, List.singleton_append]

/-- The text behind `**`, as a suffix pattern, keeps it. -/
lemma endsAtLabel_of_suffix {pre suffix u v w : CString} (hS : star ∉ S)
    (hcut : pre ++ doubleStar ++ suffix = toLowercase (front ++ star :: dot :: S))
    (hw : w ∈ singleLang suffix) (huw : u ++ (v ++ w) = toLowercase host) :
    EndsAtLabel S host := by
  rw [toLowercase_around_star] at hcut
  have hfree : star ∉ dot :: toLowercase S := by
    simpa [star_ne_dot] using star_not_mem_toLowercase.mpr hS
  rw [← List.append_assoc] at huw
  rcases behind_doubleStar hfree hcut with rfl | ⟨y, rfl⟩
  · exact EndsAtLabel.of_mem (y := []) hS hw huw
  · refine EndsAtLabel.of_mem (y := y ++ [star]) hS ?_ huw
    rwa [List.append_assoc, List.singleton_append]

/-- A leading `**` keeps it: its zero-level match is compared with the whole host. -/
lemma endsAtLabel_of_leading {suffix : CString} (hS : star ∉ S) (hh : host.length < 256)
    (hcut : (toLowercase (front ++ star :: dot :: S)).dropInfix? doubleStar = some ([], suffix))
    (h : matchMultiLevelWildcard Buffers.fixed (front ++ star :: dot :: S) host = true) :
    EndsAtLabel S host := by
  have hpat := (dropInfix?_eq_some.mp hcut).1
  have hfree : star ∉ dot :: toLowercase S := by
    simpa [star_ne_dot] using star_not_mem_toLowercase.mpr hS
  have hlast := behind_doubleStar hfree (hpat.trans toLowercase_around_star)
  -- something stands behind the `**`, and the code looks for its dot
  have hz : ∃ z, suffix = dot :: z := by
    simp only [matchMultiLevelWildcard] at h
    rw [hcut] at h
    dsimp only at h
    rw [if_pos List.length_nil] at h
    split_ifs at h with hnil hdot
    · rw [List.length_eq_zero_iff] at hnil
      subst hnil
      rcases hlast with hlast | ⟨y, hy⟩
      · cases hlast
      · simp at hy
    · exact ⟨suffix.tail, (List.cons_head?_tail hdot).symm⟩
    · exact ⟨suffix.tail, (List.cons_head?_tail hdot).symm⟩
  obtain ⟨z, rfl⟩ := hz
  rw [List.nil_append] at hpat
  rw [matchMultiLevelWildcard_leading hpat.symm (by omega)] at h
  rcases h with hmem | ⟨u, v, hv, huv⟩
  · rcases hlast with hlast | ⟨y, hy⟩
    · obtain rfl := (List.cons.inj hlast).2
      exact Or.inl ((mem_globLang_of_no_star (star_not_mem_toLowercase.mpr hS)).mp hmem)
    · obtain ⟨y', rfl⟩ := behind_dot hy
      refine EndsAtLabel.of_mem (u := []) (y := y' ++ [star]) hS ?_ rfl
      rwa [List.append_assoc, List.singleton_append]
  · have hdv : dot :: v ∈ singleLang (dot :: z) :=
      (mem_globLang_cons_letter star_ne_dot.symm).mpr ⟨v, hv, rfl⟩
    have hcut' : [] ++ doubleStar ++ dot :: z = toLowercase (front ++ star :: dot :: S) := hpat
    exact endsAtLabel_of_suffix (v := []) hS hcut' hdv huv

/-- The zero-level match of a `**` behind other text keeps it, unless it is a `JoinedMatch`. -/
lemma endsAtLabel_of_joined {pre z : CString} (hS : star ∉ S) (hpre : pre ≠ [])
    (hcut : (toLowercase (front ++ star :: dot :: S)).dropInfix? doubleStar
      = some (pre, dot :: z))
    (hmem : toLowercase host ∈ singleLang (pre ++ z))
    (hjoined : ¬ JoinedMatch (front ++ star :: dot :: S) S host) : EndsAtLabel S host := by
  have hpat := (dropInfix?_eq_some.mp hcut).1
  have hfree : star ∉ dot :: toLowercase S := by
    simpa [star_ne_dot] using star_not_mem_toLowercase.mpr hS
  rcases behind_doubleStar hfree (hpat.trans toLowercase_around_star) with hlast | ⟨y, hy⟩
  · obtain rfl := (List.cons.inj hlast).2
    obtain ⟨u, hu, v, hv, huv⟩ := mem_globLang_append.mp hmem
    obtain rfl := (mem_globLang_of_no_star (star_not_mem_toLowercase.mpr hS)).mp hv
    have hdot : pre.getLast? = some dot := by
      by_contra hdot
      exact hjoined ⟨pre, u, hcut, hpre, hdot, hu, huv⟩
    obtain ⟨u', rfl⟩ :=
      List.getLast?_eq_some_iff.mp (getLast?_of_mem_singleLang hdot star_ne_dot.symm hu)
    exact Or.inr ⟨u', by rw [← huv, List.append_assoc, List.singleton_append]⟩
  · obtain ⟨y', rfl⟩ := behind_dot hy
    refine EndsAtLabel.of_mem (u := []) (y := pre ++ (y' ++ [star])) hS ?_ rfl
    have hcat : pre ++ (y' ++ [star]) ++ dot :: toLowercase S
        = pre ++ (y' ++ star :: dot :: toLowercase S) := by simp
    rwa [hcat]

/-- A `JoinedMatch` is accepted, and its host does not end at a label. -/
lemma JoinedMatch.breaks_boundary (hp : (front ++ star :: dot :: S).length < 256)
    (h : JoinedMatch (front ++ star :: dot :: S) S host) :
    wildcardMatchC (some (front ++ star :: dot :: S)) (some host) = true
      ∧ ¬ EndsAtLabel S host := by
  obtain ⟨pre, u, hcut, hpre, hdot, hu, huS⟩ := h
  have hpat := (dropInfix?_eq_some.mp hcut).1
  have hin : doubleStar <:+: front ++ star :: dot :: S :=
    doubleStar_infix_toLowercase.mp ⟨pre, dot :: toLowercase S, hpat⟩
  have hlen := congrArg List.length hpat
  rw [length_toLowercase, List.length_append, List.length_append, List.length_cons] at hlen
  constructor
  · rw [wildcardMatchC, wildcardMatch_doubleStar hin, matchMultiLevelWildcard_split hcut hpre]
    refine Or.inr (Or.inl ⟨toLowercase S, rfl, ?_⟩)
    rw [copy_fixed (by rw [List.length_append]; omega), ← huS, mem_globLang_append]
    exact ⟨u, hu, _, self_mem_globLang star_ne_dot _, rfl⟩
  · -- the host has the last character of the text before `**` where the dot should be
    have hlast := List.getLast?_eq_some_getLast hpre
    generalize pre.getLast hpre = c at hlast
    have hc : c ≠ star := fun h => getLast?_before_doubleStar hcut (h ▸ hlast)
    obtain ⟨u', rfl⟩ := List.getLast?_eq_some_iff.mp (getLast?_of_mem_singleLang hlast hc hu)
    rintro (heq | ⟨t, ht⟩)
    · rw [← huS] at heq
      have hlen' := congrArg List.length heq
      simp only [List.length_append, List.length_singleton] at hlen'
      omega
    · rw [← huS, ← List.singleton_append, ← List.append_assoc] at ht
      have hlast' := congrArg List.getLast? (List.append_cancel_right ht)
      rw [List.getLast?_append_cons, List.getLast?_append_cons] at hlast'
      exact hdot (hlast.trans hlast'.symm)

end Boundary

/-- **Where the label boundary is kept**: everywhere but in a `JoinedMatch`. -/
theorem wildcardMatchC_boundary (front S host : CString) (hS : star ∉ S)
    (hp : (front ++ star :: dot :: S).length < 256) (hh : host.length < 256) :
    (wildcardMatchC (some (front ++ star :: dot :: S)) (some host) = true → EndsAtLabel S host)
      ↔ ¬ JoinedMatch (front ++ star :: dot :: S) S host := by
  constructor
  · intro h hjoined
    obtain ⟨hacc, hbreak⟩ := hjoined.breaks_boundary hp
    exact hbreak (h hacc)
  · intro hjoined hacc
    by_cases hin : doubleStar <:+: front ++ star :: dot :: S
    · obtain ⟨⟨pre, suffix⟩, hcut⟩ :=
        Option.isSome_iff_exists.mp (Option.isSome_iff_exists.mpr
          (exists_dropInfix? (doubleStar_infix_toLowercase.mpr hin)))
      rw [wildcardMatchC, wildcardMatch_doubleStar hin] at hacc
      rcases hacc with heq | hacc
      · exact endsAtLabel_of_eq heq
      · by_cases hpre : pre = []
        · subst hpre
          exact endsAtLabel_of_leading hS hh hcut hacc
        · rw [matchMultiLevelWildcard_split hcut hpre,
            splitMatch_iff_of_lt hpre (by rw [length_toLowercase]; omega)] at hacc
          have hpat := (dropInfix?_eq_some.mp hcut).1
          rcases hacc with ⟨z, rfl, hmem⟩ | ⟨u, v, w, -, -, -, hw, huvw⟩
          · have hlen := congrArg List.length hpat
            rw [length_toLowercase, List.length_append, List.length_append,
              List.length_cons] at hlen
            rw [copy_fixed (by rw [List.length_append]; omega)] at hmem
            exact endsAtLabel_of_joined hS hpre hcut hmem hjoined
          · exact endsAtLabel_of_suffix hS hpat hw huvw
    · rw [wildcardMatchC, wildcardMatch_single (by simp) hin] at hacc
      rcases hacc with heq | hmem
      · exact endsAtLabel_of_eq heq
      · rw [show copyInto Buffers.fixed.maxHostLength host = host from copy_fixed hh,
          show copyInto Buffers.fixed.maxPatternLength _ = _ from copy_fixed hp] at hmem
        exact endsAtLabel_of_single hS hmem

/-- A `*` keeps the boundary that a `**` in the same place loses. -/
theorem wildcardMatchC_boundary_star :
    (wildcardMatchC (some (cstr "evil" ++ star :: dot :: cstr "com")) (some (cstr "evilcom")) = true
        → EndsAtLabel (cstr "com") (cstr "evilcom"))
      ↔ ¬ JoinedMatch (cstr "evil" ++ star :: dot :: cstr "com") (cstr "com") (cstr "evilcom") :=
  wildcardMatchC_boundary _ _ _ (by decide) (by decide) (by decide)

/-- `evil**.example.com` accepts `evilexample.com`. -/
theorem evil_doubleStar_accepts_evilexample :
    (cstr "evil**.example.com").length < 256 ∧ (cstr "evilexample.com").length < 256
      ∧ cstr "evil**.example.com" = cstr "evil*" ++ star :: dot :: cstr "example.com"
      ∧ cstr "example.com" ≠ [] ∧ star ∉ cstr "example.com"
      ∧ wildcardMatchC (some (cstr "evil**.example.com")) (some (cstr "evilexample.com")) = true
      ∧ ¬ EndsAtLabel (cstr "example.com") (cstr "evilexample.com") := by
  have hpat : cstr "evil**.example.com" = cstr "evil*" ++ star :: dot :: cstr "example.com" := by
    decide
  have hS : star ∉ cstr "example.com" := by decide
  have hjoined : JoinedMatch (cstr "evil*" ++ star :: dot :: cstr "example.com")
      (cstr "example.com") (cstr "evilexample.com") := by
    exact ⟨cstr "evil", cstr "evil", by decide, by decide, by decide,
      self_mem_globLang star_ne_dot _, by decide⟩
  have hbreak := hjoined.breaks_boundary (by decide)
  rw [← hpat] at hbreak
  exact ⟨by decide, by decide, hpat, by decide, hS, hbreak.1, hbreak.2⟩

end Luan
