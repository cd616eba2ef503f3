import Luan.Wildcard.Branches

/-!
# Patterns with one `**`

The header promises that `**` "matches zero or more subdomain levels".  The code never splits a
host into labels: it cuts the pattern at `**` and compares characters at both ends, in separate
branches for a leading, a middle and a trailing `**`.

`MultiLevelMatch` is the promise, label by label.  Each branch gets a lemma about characters
(`matchMultiLevelWildcard_leading` of `Wildcard/Branches.lean`, `…_trailing`, `…_middle`) and one
about labels (`labels_leading`, …), and `wildcardMatchC_iff_multiLevel` puts them together: the
code keeps the promise on every host, except that a *trailing* `**` stands for one or more levels
(`TrailingZeroLevel`).  The other two branches try the zero-level match; that one does not.
-/

namespace Luan

/-! ## The label grammar -/

/-- The dot-separated labels of a pattern or a host. -/
def labels (s : CString) : List CString := s.splitOn dot

/-- A host label against a pattern label, ignoring case; a star stands for any text in it. -/
def LabelMatch (l x : CString) : Prop := toLowercase x ∈ singleLang (toLowercase l)

/-- **The documented meaning of `**`**: the host's labels are a match of the labels before it,
any labels at all, and a match of the labels behind it. -/
def MultiLevelMatch (pattern host : CString) : Prop :=
  ∃ pre post A M B, labels pattern = pre ++ doubleStar :: post ∧ labels host = A ++ M ++ B
    ∧ List.Forall₂ LabelMatch pre A ∧ List.Forall₂ LabelMatch post B

/-- Exactly one label is `**`, and no other label contains it. -/
def HasOneDoubleStar (pattern : CString) : Prop :=
  (labels pattern).count doubleStar = 1
    ∧ ∀ l ∈ labels pattern, l ≠ doubleStar → ¬ doubleStar <:+: l

instance (pattern : CString) : Decidable (HasOneDoubleStar pattern) :=
  inferInstanceAs (Decidable (_ ∧ _))

/-- The `**` is the last of several labels, and the host consists of a match of the labels
before it and nothing more. -/
def TrailingZeroLevel (pattern host : CString) : Prop :=
  ∃ pre, pre ≠ [] ∧ labels pattern = pre ++ [doubleStar]
    ∧ List.Forall₂ LabelMatch pre (labels host)

/-! ## Labels and lower case -/

lemma dot_not_mem_toLowercase {s : CString} : dot ∉ toLowercase s ↔ dot ∉ s := by
  simp [toLowercase, tolower_eq_dot]

lemma labels_toLowercase (s : CString) :
    labels (toLowercase s) = (labels s).map toLowercase := by
  simp only [labels]
  induction s using label_induction dot with
  | last w hw =>
      rw [List.splitOn_eq_singleton hw, List.splitOn_eq_singleton (dot_not_mem_toLowercase.mpr hw),
        List.map_singleton]
  | more u v hu ih =>
      rw [List.splitOn_append_cons_self_of_not_mem hu, List.map_cons, ← ih]
      have hcut : toLowercase (u ++ dot :: v) = toLowercase u ++ dot :: toLowercase v := by
        simp [toLowercase]
      rw [hcut, List.splitOn_append_cons_self_of_not_mem (dot_not_mem_toLowercase.mpr hu)]

lemma forall₂_labelMatch {pre A : List CString} :
    List.Forall₂ LabelMatch pre A
      ↔ List.Forall₂ (fun l x => x ∈ singleLang l) (pre.map toLowercase) (A.map toLowercase) := by
  rw [List.forall₂_map_left_iff, List.forall₂_map_right_iff]
  rfl

/-! ## The branches with a dot before `**`

`x` is the text before the dot before `**`, and `z` the text behind the dot behind it; `h` is a
host in lower case.
-/

lemma dot_not_mem_doubleStar : dot ∉ doubleStar := by decide

/-- A split at a dot, if every beginning fits its copy. -/
lemma splitMatch_dot {buf : Buffers} {x suffix h : CString}
    (hfit : PrefixFits buf (x ++ [dot]) h.length) (hlt : h.length < 2147483648) :
    SplitMatch buf (x ++ [dot]) suffix h
      ↔ ∃ u v w, u ∈ singleLang x ∧ w ∈ singleLang suffix ∧ u ++ dot :: (v ++ w) = h := by
  rw [splitMatch_iff_of_lt (by simp) hlt]
  constructor
  · rintro ⟨ud, v, w, -, -, hud, hw, rfl⟩
    obtain ⟨u, hu, t, ht, rfl⟩ := (mem_globLang_append_sep star_ne_dot).mp hud
    obtain rfl := mem_globLang_nil.mp ht
    exact ⟨u, v, w, hu, hw, by simp⟩
  · rintro ⟨u, v, w, hu, hw, rfl⟩
    refine ⟨u ++ [dot], v, w, by simp, fun hs => fitsIn_mono (by simp) (hfit hs), ?_, hw, by simp⟩
    exact (mem_globLang_append_sep star_ne_dot).mpr ⟨u, hu, [], by simp, rfl⟩

/-- Pattern `x.**`. -/
lemma matchMultiLevelWildcard_trailing {buf : Buffers} {pattern host x : CString}
    (hp : toLowercase pattern = x ++ dot :: doubleStar) (hx : ¬ doubleStar <:+: x)
    (hfit : PrefixFits buf (x ++ [dot]) host.length) (hlt : host.length < 2147483648) :
    matchMultiLevelWildcard buf pattern host = true
      ↔ ∃ u v, u ∈ singleLang x ∧ u ++ dot :: v = toLowercase host := by
  have hcut := dropInfix?_behind_sep (v := []) dot_not_mem_doubleStar hx
  rw [List.append_nil, ← hp] at hcut
  rw [matchMultiLevelWildcard_split hcut (by simp),
    splitMatch_dot (by simpa using hfit) (by rwa [length_toLowercase])]
  constructor
  · rintro (⟨z, hz, -⟩ | ⟨u, v, w, hu, -, huv⟩)
    · cases hz
    · exact ⟨u, v ++ w, hu, huv⟩
  · rintro ⟨u, v, hu, huv⟩
    exact Or.inr ⟨u, v, [], hu, by simp, by rwa [List.append_nil]⟩

/-- Pattern `x.**.z`. -/
lemma matchMultiLevelWildcard_middle {buf : Buffers} {pattern host x z : CString}
    (hp : toLowercase pattern = x ++ dot :: (doubleStar ++ dot :: z)) (hx : ¬ doubleStar <:+: x)
    (hfit : PrefixFits buf (x ++ [dot]) host.length) (hlt : host.length < 2147483648)
    (hcopy : copyInto buf.maxPatternLength (x ++ dot :: z) = x ++ dot :: z) :
    matchMultiLevelWildcard buf pattern host = true
      ↔ toLowercase host ∈ singleLang (x ++ dot :: z)
        ∨ ∃ u m v, u ∈ singleLang x ∧ v ∈ singleLang z
          ∧ u ++ dot :: (m ++ dot :: v) = toLowercase host := by
  have hcut := dropInfix?_behind_sep (v := dot :: z) dot_not_mem_doubleStar hx
  rw [← hp] at hcut
  rw [matchMultiLevelWildcard_split hcut (by simp),
    splitMatch_dot (by simpa using hfit) (by rwa [length_toLowercase])]
  refine or_congr ?_ ?_
  · constructor
    · rintro ⟨z', hz, hmem⟩
      obtain rfl := (List.cons.inj hz).2
      rwa [List.append_assoc, List.singleton_append, hcopy] at hmem
    · intro hmem
      refine ⟨z, rfl, ?_⟩
      rwa [List.append_assoc, List.singleton_append, hcopy]
  · constructor
    · rintro ⟨u, m, w, hu, hw, huw⟩
      obtain ⟨v, hv, rfl⟩ := (mem_globLang_cons_letter star_ne_dot.symm).mp hw
      exact ⟨u, m, v, hu, hv, huw⟩
    · rintro ⟨u, m, v, hu, hv, huv⟩
      exact ⟨u, m, dot :: v, hu, (mem_globLang_cons_letter star_ne_dot.symm).mpr ⟨v, hv, rfl⟩, huv⟩

/-! ## The branches, label by label -/

lemma mem_singleLang_iff_labels {p w : CString} :
    w ∈ singleLang p
      ↔ List.Forall₂ (fun l x => x ∈ singleLang l) (labels p) (labels w) :=
  mem_globLang_iff_labels star_ne_dot

lemma labels_ne_nil (s : CString) : labels s ≠ [] := List.splitOn_ne_nil dot s

lemma labels_append_dot (u v : CString) : labels (u ++ dot :: v) = labels u ++ labels v :=
  List.splitOn_append_cons_self u v

lemma labels_eq_append_iff {w : CString} {A B : List CString} (hA : A ≠ []) (hB : B ≠ []) :
    labels w = A ++ B ↔ ∃ u v, labels u = A ∧ labels v = B ∧ u ++ dot :: v = w :=
  splitOn_eq_append_iff hA hB

lemma labels_leading {z h : CString} :
    (∃ M B, labels h = M ++ B ∧ List.Forall₂ (fun l x => x ∈ singleLang l) (labels z) B)
      ↔ h ∈ singleLang z ∨ ∃ u v, v ∈ singleLang z ∧ u ++ dot :: v = h := by
  constructor
  · rintro ⟨M, B, hlab, hB⟩
    by_cases hM : M = []
    · subst hM
      exact Or.inl (mem_singleLang_iff_labels.mpr (hlab ▸ hB))
    · have hBne : B ≠ [] := by
        rintro rfl
        exact labels_ne_nil z (List.forall₂_nil_right_iff.mp hB)
      obtain ⟨u, v, -, hv, huv⟩ := (labels_eq_append_iff hM hBne).mp hlab
      exact Or.inr ⟨u, v, mem_singleLang_iff_labels.mpr (hv ▸ hB), huv⟩
  · rintro (hmem | ⟨u, v, hv, rfl⟩)
    · exact ⟨[], labels h, rfl, mem_singleLang_iff_labels.mp hmem⟩
    · exact ⟨labels u, labels v, labels_append_dot u v, mem_singleLang_iff_labels.mp hv⟩

lemma labels_trailing {x h : CString} :
    (∃ A M, labels h = A ++ M ∧ List.Forall₂ (fun l x => x ∈ singleLang l) (labels x) A)
      ↔ h ∈ singleLang x ∨ ∃ u v, u ∈ singleLang x ∧ u ++ dot :: v = h := by
  constructor
  · rintro ⟨A, M, hlab, hA⟩
    by_cases hM : M = []
    · subst hM
      rw [List.append_nil] at hlab
      exact Or.inl (mem_singleLang_iff_labels.mpr (hlab ▸ hA))
    · have hAne : A ≠ [] := by
        rintro rfl
        exact labels_ne_nil x (List.forall₂_nil_right_iff.mp hA)
      obtain ⟨u, v, hu, -, huv⟩ := (labels_eq_append_iff hAne hM).mp hlab
      exact Or.inr ⟨u, v, mem_singleLang_iff_labels.mpr (hu ▸ hA), huv⟩
  · rintro (hmem | ⟨u, v, hu, rfl⟩)
    · exact ⟨labels h, [], (List.append_nil _).symm, mem_singleLang_iff_labels.mp hmem⟩
    · exact ⟨labels u, labels v, labels_append_dot u v, mem_singleLang_iff_labels.mp hu⟩

lemma labels_middle {x z h : CString} :
    (∃ A M B, labels h = A ++ M ++ B
        ∧ List.Forall₂ (fun l x => x ∈ singleLang l) (labels x) A
        ∧ List.Forall₂ (fun l x => x ∈ singleLang l) (labels z) B)
      ↔ h ∈ singleLang (x ++ dot :: z)
        ∨ ∃ u m v, u ∈ singleLang x ∧ v ∈ singleLang z ∧ u ++ dot :: (m ++ dot :: v) = h := by
  constructor
  · rintro ⟨A, M, B, hlab, hA, hB⟩
    have hAne : A ≠ [] := by
      rintro rfl
      exact labels_ne_nil x (List.forall₂_nil_right_iff.mp hA)
    have hMB : M ++ B ≠ [] := by
      intro hnil
      rw [(List.append_eq_nil_iff.mp hnil).2] at hB
      exact labels_ne_nil z (List.forall₂_nil_right_iff.mp hB)
    rw [List.append_assoc] at hlab
    obtain ⟨u, y, hu, hy, rfl⟩ := (labels_eq_append_iff hAne hMB).mp hlab
    have hux : u ∈ singleLang x := mem_singleLang_iff_labels.mpr (hu ▸ hA)
    rcases labels_leading.mp ⟨M, B, hy, hB⟩ with hyz | ⟨m, v, hv, rfl⟩
    · exact Or.inl ((mem_globLang_append_sep star_ne_dot).mpr ⟨u, hux, y, hyz, rfl⟩)
    · exact Or.inr ⟨u, m, v, hux, hv, rfl⟩
  · rintro (hmem | ⟨u, m, v, hu, hv, rfl⟩)
    · obtain ⟨u, hu, v, hv, rfl⟩ := (mem_globLang_append_sep star_ne_dot).mp hmem
      refine ⟨labels u, [], labels v, ?_, mem_singleLang_iff_labels.mp hu,
        mem_singleLang_iff_labels.mp hv⟩
      rw [List.append_nil, labels_append_dot]
    · refine ⟨labels u, labels m, labels v, ?_, mem_singleLang_iff_labels.mp hu,
        mem_singleLang_iff_labels.mp hv⟩
      rw [labels_append_dot, labels_append_dot, List.append_assoc]

/-! ## Putting the branches together -/

/-- The labels around the only `**` are determined by the pattern. -/
lemma HasOneDoubleStar.unique {pattern : CString} (hone : HasOneDoubleStar pattern)
    {pre post pre' post' : List CString} (h : labels pattern = pre ++ doubleStar :: post)
    (h' : labels pattern = pre' ++ doubleStar :: post') : pre = pre' ∧ post = post' := by
  have hcount : ∀ {p q : List CString}, labels pattern = p ++ doubleStar :: q →
      p.count doubleStar = 0 := by
    intro p q hpq
    have hc := hone.1
    rw [hpq, List.count_append, List.count_cons_self] at hc
    omega
  have hpre : pre = pre' :=
    prefix_eq_of_count (h.symm.trans h') ((hcount h).trans (hcount h').symm)
  subst hpre
  rw [h] at h'
  exact ⟨rfl, (List.cons.inj (List.append_cancel_left h')).2⟩

/-- The grammar of a pattern whose labels are known, on texts in lower case. -/
lemma multiLevelMatch_iff {pattern host : CString} (hone : HasOneDoubleStar pattern)
    {pre post : List CString} (h : labels pattern = pre ++ doubleStar :: post) :
    MultiLevelMatch pattern host
      ↔ ∃ A M B, labels (toLowercase host) = A ++ M ++ B
        ∧ List.Forall₂ (fun l x => x ∈ singleLang l) (pre.map toLowercase) A
        ∧ List.Forall₂ (fun l x => x ∈ singleLang l) (post.map toLowercase) B := by
  rw [labels_toLowercase]
  constructor
  · rintro ⟨pre', post', A, M, B, hp, hlab, hA, hB⟩
    obtain ⟨rfl, rfl⟩ := hone.unique h hp
    refine ⟨A.map toLowercase, M.map toLowercase, B.map toLowercase, ?_,
      forall₂_labelMatch.mp hA, forall₂_labelMatch.mp hB⟩
    rw [hlab, List.map_append, List.map_append]
  · rintro ⟨A', M', B', hlab, hA, hB⟩
    obtain ⟨AM, B, hAM, hAM', rfl⟩ := List.map_eq_append_iff.mp hlab
    obtain ⟨A, M, rfl, rfl, -⟩ := List.map_eq_append_iff.mp hAM'
    exact ⟨pre, post, A, M, B, h, hAM, forall₂_labelMatch.mpr hA, forall₂_labelMatch.mpr hB⟩

lemma trailingZeroLevel_iff {pattern host : CString} (hone : HasOneDoubleStar pattern)
    {pre post : List CString} (h : labels pattern = pre ++ doubleStar :: post) :
    TrailingZeroLevel pattern host
      ↔ pre ≠ [] ∧ post = []
        ∧ List.Forall₂ (fun l x => x ∈ singleLang l) (pre.map toLowercase)
          (labels (toLowercase host)) := by
  rw [labels_toLowercase]
  constructor
  · rintro ⟨pre', hne, hp, hA⟩
    obtain ⟨rfl, rfl⟩ := hone.unique h hp
    exact ⟨hne, rfl, forall₂_labelMatch.mp hA⟩
  · rintro ⟨hne, rfl, hA⟩
    exact ⟨pre, hne, h, forall₂_labelMatch.mpr hA⟩

/-- A pattern in lower case is its labels joined again, and the text before the first `**` has
none. -/
lemma cut_at_doubleStar {pattern : CString} {pre post : List CString}
    (h : labels pattern = pre ++ doubleStar :: post) (hpre : pre ≠ [])
    (hfree : ∀ l ∈ pre, ¬ doubleStar <:+: l) :
    ∃ x y, labels x = pre.map toLowercase ∧ labels y = doubleStar :: post.map toLowercase
      ∧ toLowercase pattern = x ++ dot :: y ∧ ¬ doubleStar <:+: x := by
  have hlab : labels (toLowercase pattern)
      = pre.map toLowercase ++ doubleStar :: post.map toLowercase := by
    rw [labels_toLowercase, h, List.map_append, List.map_cons]
    rfl
  obtain ⟨x, y, hx, hy, hxy⟩ :=
    (labels_eq_append_iff (by simpa using hpre) (List.cons_ne_nil _ _)).mp hlab
  refine ⟨x, y, hx, hy, hxy.symm, fun hin => ?_⟩
  obtain ⟨l', hl', hin'⟩ := exists_label_of_infix dot_not_mem_doubleStar hin
  rw [← labels, hx, List.mem_map] at hl'
  obtain ⟨l, hl, rfl⟩ := hl'
  exact hfree l hl (doubleStar_infix_toLowercase.mp hin')

/-- The labels before the only `**` have none. -/
lemma HasOneDoubleStar.free_before {pattern : CString} (hone : HasOneDoubleStar pattern)
    {pre post : List CString} (h : labels pattern = pre ++ doubleStar :: post) :
    ∀ l ∈ pre, ¬ doubleStar <:+: l := by
  intro l hl
  refine hone.2 l (h ▸ List.mem_append_left _ hl) ?_
  rintro rfl
  have hcount := hone.1
  rw [h, List.count_append, List.count_cons_self] at hcount
  have hpos := List.count_pos_iff.mpr hl
  omega

/-- The text from `**` on: `**` alone or `**.` and more. -/
lemma eq_of_labels_doubleStar {y : CString} {post : List CString}
    (h : labels y = doubleStar :: post) :
    (post = [] ∧ y = doubleStar) ∨ (∃ z, labels z = post ∧ y = doubleStar ++ dot :: z) := by
  by_cases hpost : post = []
  · subst hpost
    exact Or.inl ⟨rfl, eq_of_splitOn_eq_singleton h⟩
  · obtain ⟨d, z, hd, hz, rfl⟩ :=
      (labels_eq_append_iff (A := [doubleStar]) (by simp) hpost).mp h
    rw [eq_of_splitOn_eq_singleton hd]
    exact Or.inr ⟨z, hz, rfl⟩

/-- A pattern equal to the host up to case is a match of it in the grammar, and not one with
zero levels: the host has a label for `**`. -/
lemma multiLevelMatch_of_eq {pattern host : CString} (hone : HasOneDoubleStar pattern)
    (heq : toLowercase pattern = toLowercase host) :
    MultiLevelMatch pattern host ∧ ¬ TrailingZeroLevel pattern host := by
  have hmem : doubleStar ∈ labels pattern := by
    rw [← List.count_pos_iff, hone.1]
    exact Nat.one_pos
  obtain ⟨pre, post, h⟩ := List.append_of_mem hmem
  have hlab : labels (toLowercase host)
      = pre.map toLowercase ++ [doubleStar] ++ post.map toLowercase := by
    rw [← heq, labels_toLowercase, h, List.map_append, List.map_cons, List.append_assoc]
    rfl
  have hself : ∀ ls : List CString, List.Forall₂ (fun l x => x ∈ singleLang l) ls ls :=
    fun ls => List.forall₂_same.mpr fun l _ => self_mem_globLang star_ne_dot l
  constructor
  · exact (multiLevelMatch_iff hone h).mpr ⟨_, _, _, hlab, hself _, hself _⟩
  · intro hzero
    obtain ⟨-, rfl, hall⟩ := (trailingZeroLevel_iff hone h).mp hzero
    have hlen := hall.length_eq
    rw [hlab] at hlen
    simp at hlen

/-- A zero-level match of a trailing `**` is a match in the grammar. -/
lemma TrailingZeroLevel.multiLevelMatch {pattern host : CString}
    (h : TrailingZeroLevel pattern host) : MultiLevelMatch pattern host := by
  obtain ⟨pre, -, hp, hall⟩ := h
  exact ⟨pre, [], labels host, [], [], hp, by simp, hall, List.Forall₂.nil⟩

lemma HasOneDoubleStar.exists_cut {pattern : CString} (hone : HasOneDoubleStar pattern) :
    ∃ pre post, labels pattern = pre ++ doubleStar :: post := by
  refine List.append_of_mem ?_
  rw [← List.count_pos_iff, hone.1]
  exact Nat.one_pos

lemma fits_fixed {p : CString} {n : ℕ} (h : n < 256) : PrefixFits Buffers.fixed p n :=
  fun _ => decide_eq_true h

lemma copy_fixed {s : CString} (h : s.length < 256) :
    copyInto Buffers.fixed.maxPatternLength s = s :=
  List.take_of_length_le (by omega)

/-- A leading `**` with labels behind it. -/
lemma matchMultiLevelWildcard_leading_labels {buf : Buffers} {pattern host z : CString}
    (hpat : toLowercase pattern = doubleStar ++ dot :: z) (hlt : host.length < 2147483648) :
    matchMultiLevelWildcard buf pattern host = true
      ↔ ∃ M B, labels (toLowercase host) = M ++ B
        ∧ List.Forall₂ (fun l x => x ∈ singleLang l) (labels z) B := by
  rw [matchMultiLevelWildcard_leading hpat hlt, ← labels_leading]

/-- A `**` between labels. -/
lemma matchMultiLevelWildcard_middle_labels {pattern host x z : CString}
    (hp : pattern.length < 256) (hh : host.length < 256)
    (hpat : toLowercase pattern = x ++ dot :: (doubleStar ++ dot :: z))
    (hfree : ¬ doubleStar <:+: x) :
    matchMultiLevelWildcard Buffers.fixed pattern host = true
      ↔ ∃ A M B, labels (toLowercase host) = A ++ M ++ B
        ∧ List.Forall₂ (fun l x => x ∈ singleLang l) (labels x) A
        ∧ List.Forall₂ (fun l x => x ∈ singleLang l) (labels z) B := by
  have hlen := congrArg List.length hpat
  simp only [length_toLowercase, List.length_append, List.length_cons] at hlen
  have hcopy : (x ++ dot :: z).length < 256 := by
    rw [List.length_append, List.length_cons]
    omega
  rw [matchMultiLevelWildcard_middle hpat hfree (fits_fixed hh) (by omega) (copy_fixed hcopy),
    ← labels_middle]

/-- A leading `**`. -/
lemma matchMultiLevelWildcard_iff_of_first {buf : Buffers} {pattern host : CString}
    (hone : HasOneDoubleStar pattern) (hlt : host.length < 2147483648) {post : List CString}
    (hlab : labels pattern = doubleStar :: post) :
    matchMultiLevelWildcard buf pattern host = true ↔ MultiLevelMatch pattern host := by
  have hlow : labels (toLowercase pattern) = doubleStar :: post.map toLowercase := by
    rw [labels_toLowercase, hlab]
    rfl
  rw [multiLevelMatch_iff hone (show labels pattern = [] ++ doubleStar :: post from hlab)]
  rcases eq_of_labels_doubleStar hlow with ⟨hpost, hpat⟩ | ⟨z, hz, hpat⟩
  · -- `**` alone matches everything, and so does its grammar
    have hcut := dropInfix?_leading []
    rw [List.append_nil] at hcut
    have hcode : matchMultiLevelWildcard buf pattern host = true := by
      simp only [matchMultiLevelWildcard]
      rw [hpat, hcut]
      rfl
    rw [hpost]
    refine ⟨fun _ => ⟨[], labels (toLowercase host), [], ?_, List.Forall₂.nil, List.Forall₂.nil⟩,
      fun _ => hcode⟩
    rw [List.nil_append, List.append_nil]
  · rw [matchMultiLevelWildcard_leading_labels hpat hlt, hz]
    constructor
    · rintro ⟨M, B, hMB, hB⟩
      exact ⟨[], M, B, hMB, List.Forall₂.nil, hB⟩
    · rintro ⟨A, M, B, hMB, hA, hB⟩
      rw [List.forall₂_nil_left_iff.mp hA] at hMB
      exact ⟨M, B, hMB, hB⟩

/-- A `**` behind other labels.  At the end of the pattern it takes at least one label. -/
lemma matchMultiLevelWildcard_iff_of_later {pattern host : CString}
    (hone : HasOneDoubleStar pattern) (hp : pattern.length < 256) (hh : host.length < 256)
    {pre post : List CString} (hlab : labels pattern = pre ++ doubleStar :: post)
    (hpre : pre ≠ []) :
    matchMultiLevelWildcard Buffers.fixed pattern host = true
      ↔ MultiLevelMatch pattern host ∧ ¬ TrailingZeroLevel pattern host := by
  obtain ⟨x, y, hx, hy, hpat, hfree⟩ := cut_at_doubleStar hlab hpre (hone.free_before hlab)
  rw [multiLevelMatch_iff hone hlab, trailingZeroLevel_iff hone hlab, ← hx]
  rcases eq_of_labels_doubleStar hy with ⟨hpost, rfl⟩ | ⟨z, hz, rfl⟩
  · have hnil : post = [] := List.map_eq_nil_iff.mp hpost
    subst hnil
    rw [matchMultiLevelWildcard_trailing hpat hfree (fits_fixed hh) (by omega),
      ← mem_singleLang_iff_labels]
    constructor
    · rintro ⟨u, v, hu, huv⟩
      obtain ⟨A, M, hAM, hA⟩ := labels_trailing.mpr (Or.inr ⟨u, v, hu, huv⟩)
      refine ⟨⟨A, M, [], by simpa using hAM, hA, List.Forall₂.nil⟩, fun hzero => ?_⟩
      -- a match with a level more has a dot more
      have hcount := count_sep_of_mem star_ne_dot hzero.2.2
      rw [← huv, List.count_append, count_sep_of_mem star_ne_dot hu,
        List.count_cons_self] at hcount
      omega
    · rintro ⟨⟨A, M, B, hAM, hA, hB⟩, hzero⟩
      rw [List.forall₂_nil_left_iff.mp hB, List.append_nil] at hAM
      exact (labels_trailing.mp ⟨A, M, hAM, hA⟩).resolve_left fun h => hzero ⟨hpre, rfl, h⟩
  · have hpost : post ≠ [] := by
      rintro rfl
      exact labels_ne_nil z hz
    rw [matchMultiLevelWildcard_middle_labels hp hh hpat hfree, ← hz]
    exact ⟨fun h => ⟨h, fun hzero => hpost hzero.2.1⟩, fun h => h.1⟩

/-- **What the three branches accept**, in terms of the grammar. -/
lemma matchMultiLevelWildcard_iff {pattern host : CString} (hone : HasOneDoubleStar pattern)
    (hp : pattern.length < 256) (hh : host.length < 256) :
    matchMultiLevelWildcard Buffers.fixed pattern host = true
      ↔ MultiLevelMatch pattern host ∧ ¬ TrailingZeroLevel pattern host := by
  obtain ⟨pre, post, hlab⟩ := hone.exists_cut
  by_cases hpre : pre = []
  · subst hpre
    rw [matchMultiLevelWildcard_iff_of_first hone (by omega) hlab]
    refine ⟨fun h => ⟨h, fun hzero => ?_⟩, fun h => h.1⟩
    exact ((trailingZeroLevel_iff hone hlab).mp hzero).1 rfl
  · exact matchMultiLevelWildcard_iff_of_later hone hp hh hlab hpre

/-- **What `wildcard_match_c` accepts** for a pattern with one `**`. -/
theorem wildcardMatchC_iff_multiLevel {pattern host : CString} (hone : HasOneDoubleStar pattern)
    (hp : pattern.length < 256) (hh : host.length < 256) :
    wildcardMatchC (some pattern) (some host) = true
      ↔ MultiLevelMatch pattern host ∧ ¬ TrailingZeroLevel pattern host := by
  have hin : doubleStar <:+: pattern := by
    obtain ⟨pre, post, hlab⟩ := hone.exists_cut
    exact label_infix (show doubleStar ∈ labels pattern by simp [hlab])
  rw [wildcardMatchC, wildcardMatch_doubleStar hin, matchMultiLevelWildcard_iff hone hp hh]
  exact ⟨fun h => h.elim (multiLevelMatch_of_eq hone) id, Or.inr⟩

/-- **Where `**` means zero or more levels.**  The code follows the documented grammar on
exactly those hosts that are not a zero-level match of a trailing `**`. -/
theorem wildcardMatchC_follows_grammar (pattern host : CString) (hone : HasOneDoubleStar pattern)
    (hp : pattern.length < 256) (hh : host.length < 256) :
    (wildcardMatchC (some pattern) (some host) = true ↔ MultiLevelMatch pattern host)
      ↔ ¬ TrailingZeroLevel pattern host := by
  rw [wildcardMatchC_iff_multiLevel hone hp hh]
  constructor
  · intro h hzero
    exact (h.mpr hzero.multiLevelMatch).2 hzero
  · intro hzero
    exact ⟨fun h => h.1, fun h => ⟨h, hzero⟩⟩

/-- The zero-level match `api` of `api.**` is rejected. -/
theorem api_trailing_doubleStar_rejects_api :
    HasOneDoubleStar (cstr "api.**") ∧ (cstr "api.**").length < 256 ∧ (cstr "api").length < 256
      ∧ MultiLevelMatch (cstr "api.**") (cstr "api")
      ∧ wildcardMatchC (some (cstr "api.**")) (some (cstr "api")) = false := by
  have hone : HasOneDoubleStar (cstr "api.**") := by decide
  have hzero : TrailingZeroLevel (cstr "api.**") (cstr "api") := by
    refine ⟨[cstr "api"], by simp, by decide, ?_⟩
    rw [show labels (cstr "api") = [cstr "api"] by decide]
    exact List.Forall₂.cons (self_mem_globLang star_ne_dot _) List.Forall₂.nil
  refine ⟨hone, by decide, by decide, hzero.multiLevelMatch, ?_⟩
  rw [Bool.eq_false_iff, ne_eq, wildcardMatchC_iff_multiLevel hone (by decide) (by decide)]
  exact fun h => h.2 hzero

/-- With a leading `**` the zero-level match is accepted. -/
theorem leading_doubleStar_follows_grammar :
    (wildcardMatchC (some (cstr "**.example.com")) (some (cstr "example.com")) = true
        ↔ MultiLevelMatch (cstr "**.example.com") (cstr "example.com"))
      ↔ ¬ TrailingZeroLevel (cstr "**.example.com") (cstr "example.com") :=
  wildcardMatchC_follows_grammar _ _ (by decide) (by decide) (by decide)

end Luan
