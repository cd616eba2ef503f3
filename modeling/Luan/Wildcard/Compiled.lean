import Luan.Wildcard.Score

/-!
# Compiled patterns

`compile_pattern_c` and `extract_pattern_parts`.  The outcomes of `malloc` and `strdup` are a
parameter; a `NULL` is `none`, and a pointer into the pattern is an offset.

* `Faithful` — what the record should say about its pattern.
* `compiled_faithfulParts` — prefix, suffix and the two flags are right for every pattern.
* `compilePatternC_faithful_iff` — the type is right unless the pattern has stars but no single
  one: `strstr(pattern, "*")` also finds the stars of a `**`, so that the type `PATTERN_MULTI` is
  never chosen.
-/

namespace Luan

/-! ## The record -/

/-- `pattern_type_t` -/
inductive PatternType
  /-- No wildcards. -/
  | exact
  /-- Contains only `*` wildcards. -/
  | single
  /-- Contains `**` wildcards. -/
  | multi
  /-- Contains both `*` and `**` wildcards. -/
  | mixed
  deriving DecidableEq, Repr

/-- `compiled_pattern_t` -/
structure CompiledPattern where
  pattern : CString
  type : PatternType
  score : Int
  prefixText : Option CString
  suffixText : Option CString
  prefixLen : ℕ
  suffixLen : ℕ
  hasPrefixWildcard : Bool
  hasSuffixWildcard : Bool
  deriving DecidableEq, Repr

/-- Which of the allocations succeed: the record, and the copies of pattern, prefix and suffix. -/
structure Allocations where
  compiled : Bool
  pattern : Bool
  prefixText : Bool
  suffixText : Bool

/-- Memory for everything. -/
def Allocations.succeed : Allocations := ⟨true, true, true, true⟩

/-- `strchr` -/
def strchr (s : CString) (c : CChar) : Option ℕ := s.idxOf? c

/-- `strrchr` -/
def strrchr (s : CString) (c : CChar) : Option ℕ :=
  (s.reverse.idxOf? c).map fun k => s.length - 1 - k

/-- `extract_pattern_parts`: the copy of what stands before the first star. -/
def storePrefix (alloc : Allocations) (firstStar : ℕ) (compiled : CompiledPattern) :
    CompiledPattern :=
  let prefixLen := firstStar
  if prefixLen > 0 then
    if alloc.prefixText then
      { compiled with
        prefixText := some (compiled.pattern.take prefixLen)
        prefixLen := prefixLen }
    else compiled
  else compiled

/-- `extract_pattern_parts`: the copy of what stands behind the last star.  The length is stored
whether or not there is memory for the copy. -/
def storeSuffix (alloc : Allocations) (lastStar : Option ℕ) (compiled : CompiledPattern) :
    CompiledPattern :=
  match lastStar with
  | some lastStar =>
      let suffixStart := compiled.pattern.drop (lastStar + 1)
      let suffixLen := suffixStart.length
      if suffixLen > 0 then
        { compiled with
          suffixText := if alloc.suffixText then some suffixStart else none
          suffixLen := suffixLen }
      else compiled
  | none => compiled

/-- `extract_pattern_parts` -/
def extractPatternParts (alloc : Allocations) (compiled : CompiledPattern) : CompiledPattern :=
  let pattern := compiled.pattern
  match strchr pattern star with
  | none => compiled
  | some firstStar =>
      let lastStar := strrchr pattern star
      { storeSuffix alloc lastStar (storePrefix alloc firstStar compiled) with
        hasPrefixWildcard := decide (firstStar = 0)
        hasSuffixWildcard := decide (lastStar = some (pattern.length - 1)) }

/-- The type that `compile_pattern_c` chooses. -/
def patternType (pattern : CString) : PatternType :=
  let hasSingle := pattern.contains star
  let hasDouble := (pattern.dropInfix? doubleStar).isSome
  if !hasSingle && !hasDouble then .exact
  else if hasDouble then if hasSingle then .mixed else .multi
  else .single

/-- The record of `compile_pattern_c` before its parts are extracted: what `memset` leaves, and
pattern, score and type. -/
def unextracted (pattern : CString) : CompiledPattern :=
  { pattern := pattern
    type := patternType pattern
    score := calculatePatternScoreC (some pattern)
    prefixText := none
    suffixText := none
    prefixLen := 0
    suffixLen := 0
    hasPrefixWildcard := false
    hasSuffixWildcard := false }

/-- `compile_pattern_c` -/
def compilePatternC (alloc : Allocations) (pattern : Option CString) : Option CompiledPattern :=
  match pattern with
  | none => none
  | some pattern =>
      if !alloc.compiled then none
      else if !alloc.pattern then none
      else some (extractPatternParts alloc (unextracted pattern))

/-! ## What the record should say -/

/-- A part of the pattern as it is stored: `NULL` if it is empty. -/
def StoresPart (text : CString) (stored : Option CString) (len : ℕ) : Prop :=
  stored = (if text = [] then none else some text) ∧ len = text.length

/-- Prefix, suffix and flags say what they should. -/
structure FaithfulParts (p : CString) (c : CompiledPattern) : Prop where
  /-- The prefix is the text before the first star. -/
  prefixText : ∀ u v, p = u ++ star :: v → star ∉ u → StoresPart u c.prefixText c.prefixLen
  /-- The suffix is the text behind the last star. -/
  suffixText : ∀ u v, p = u ++ star :: v → star ∉ v → StoresPart v c.suffixText c.suffixLen
  /-- Without a star there are no parts. -/
  noStar : star ∉ p →
    StoresPart [] c.prefixText c.prefixLen ∧ StoresPart [] c.suffixText c.suffixLen
  hasPrefixWildcard : c.hasPrefixWildcard = true ↔ p.head? = some star
  hasSuffixWildcard : c.hasSuffixWildcard = true ↔ p.getLast? = some star

/-- The type that `pattern_type_t` documents, from the maximal runs of stars. -/
def documentedType (p : CString) : PatternType :=
  if runs star p = [] then .exact
  else if ∀ n ∈ runs star p, n = 1 then .single
  else if ∀ n ∈ runs star p, 2 ≤ n then .multi
  else .mixed

/-- **A record that is faithful to its pattern.** -/
structure Faithful (p : CString) (c : CompiledPattern) : Prop where
  parts : FaithfulParts p c
  type : c.type = documentedType p

/-! ## The searches -/

variable {p u v : CString}

lemma strchr_eq (hu : star ∉ u) : strchr (u ++ star :: v) star = some u.length := by
  rw [strchr]
  induction u with
  | nil => simp [List.idxOf?_cons]
  | cons c u ih =>
      obtain ⟨hc, hu⟩ := not_or.mp (mt List.mem_cons.mpr hu)
      rw [List.cons_append, List.idxOf?_cons, if_neg (by simpa using Ne.symm hc), ih hu]
      rfl

lemma strchr_eq_none (hp : star ∉ p) : strchr p star = none :=
  List.idxOf?_eq_none_iff.mpr hp

lemma strrchr_eq (hv : star ∉ v) : strrchr (u ++ star :: v) star = some u.length := by
  have hrev : (u ++ star :: v).reverse = v.reverse ++ star :: u.reverse := by simp
  have hfound := strchr_eq (v := u.reverse) (mt List.mem_reverse.mp hv)
  rw [strchr] at hfound
  rw [strrchr, hrev, hfound, Option.map_some, List.length_append, List.length_cons,
    List.length_reverse]
  congr 1
  omega

/-! ## The parts -/

section Store

variable {alloc : Allocations} {firstStar : ℕ} {lastStar : Option ℕ} {c : CompiledPattern}

@[simp] lemma storePrefix_pattern : (storePrefix alloc firstStar c).pattern = c.pattern := by
  simp only [storePrefix]
  split_ifs <;> rfl

@[simp] lemma storePrefix_suffixText :
    (storePrefix alloc firstStar c).suffixText = c.suffixText := by
  simp only [storePrefix]
  split_ifs <;> rfl

@[simp] lemma storePrefix_suffixLen :
    (storePrefix alloc firstStar c).suffixLen = c.suffixLen := by
  simp only [storePrefix]
  split_ifs <;> rfl

@[simp] lemma storeSuffix_prefixText :
    (storeSuffix alloc lastStar c).prefixText = c.prefixText := by
  cases lastStar with
  | none => rfl
  | some lastStar =>
      simp only [storeSuffix]
      split_ifs <;> rfl

@[simp] lemma storeSuffix_prefixLen :
    (storeSuffix alloc lastStar c).prefixLen = c.prefixLen := by
  cases lastStar with
  | none => rfl
  | some lastStar =>
      simp only [storeSuffix]
      split_ifs <;> rfl

@[simp] lemma storePrefix_type : (storePrefix alloc firstStar c).type = c.type := by
  simp only [storePrefix]
  split_ifs <;> rfl

@[simp] lemma storeSuffix_type : (storeSuffix alloc lastStar c).type = c.type := by
  cases lastStar with
  | none => rfl
  | some lastStar =>
      simp only [storeSuffix]
      split_ifs <;> rfl

end Store

/-- With memory for it, the prefix is stored. -/
lemma storePrefix_stores {c : CompiledPattern} (hc : c.pattern = u ++ v)
    (hnone : c.prefixText = none) (hzero : c.prefixLen = 0) :
    StoresPart u (storePrefix .succeed u.length c).prefixText
      (storePrefix .succeed u.length c).prefixLen := by
  simp only [storePrefix]
  by_cases hu : u = []
  · subst hu
    exact ⟨hnone, hzero⟩
  · rw [if_pos (List.length_pos_iff.mpr hu)]
    refine ⟨?_, rfl⟩
    rw [if_neg hu]
    show some (c.pattern.take u.length) = some u
    rw [hc, List.take_left]

/-- With memory for it, the suffix is stored. -/
lemma storeSuffix_stores {c : CompiledPattern} (hc : c.pattern = u ++ star :: v)
    (hnone : c.suffixText = none) (hzero : c.suffixLen = 0) :
    StoresPart v (storeSuffix .succeed (some u.length) c).suffixText
      (storeSuffix .succeed (some u.length) c).suffixLen := by
  have hdrop : c.pattern.drop (u.length + 1) = v := by
    rw [hc]
    simp
  simp only [storeSuffix, hdrop]
  by_cases hv : v = []
  · subst hv
    exact ⟨hnone, hzero⟩
  · rw [if_pos (List.length_pos_iff.mpr hv)]
    exact ⟨(if_neg hv).symm, rfl⟩

/-- The record that is returned when there is memory for everything. -/
abbrev compiled (p : CString) : CompiledPattern := extractPatternParts .succeed (unextracted p)

lemma compiled_of_no_star (hp : star ∉ p) : compiled p = unextracted p := by
  simp only [compiled, extractPatternParts, unextracted, strchr_eq_none hp]

/-- Of a pattern with a star both searches find one. -/
lemma compiled_of_star {i j : ℕ} (hi : strchr p star = some i) (hj : strrchr p star = some j) :
    compiled p
      = { storeSuffix .succeed (some j) (storePrefix .succeed i (unextracted p)) with
          hasPrefixWildcard := decide (i = 0)
          hasSuffixWildcard := decide (j = p.length - 1) } := by
  have hpat : (unextracted p).pattern = p := rfl
  simp only [compiled, extractPatternParts, hpat, hi, hj, Option.some.injEq]

lemma exists_strchr (hp : star ∈ p) : ∃ i, strchr p star = some i := by
  obtain ⟨u, v, rfl, hu⟩ := List.eq_append_cons_of_mem hp
  exact ⟨_, strchr_eq hu⟩

lemma exists_strrchr (hp : star ∈ p) : ∃ j, strrchr p star = some j := by
  obtain ⟨i, hi⟩ := exists_strchr (List.mem_reverse.mpr hp)
  rw [strchr] at hi
  exact ⟨_, by rw [strrchr, hi, Option.map_some]⟩

/-- What comes of the first star. -/
lemma compiled_first (hp : p = u ++ star :: v) (hu : star ∉ u) :
    StoresPart u (compiled p).prefixText (compiled p).prefixLen
      ∧ ((compiled p).hasPrefixWildcard = true ↔ p.head? = some star) := by
  obtain ⟨j, hj⟩ := exists_strrchr (p := p) (by simp [hp])
  have hi : strchr p star = some u.length := by
    rw [hp]
    exact strchr_eq hu
  rw [compiled_of_star hi hj]
  refine ⟨?_, ?_⟩
  · rw [storeSuffix_prefixText, storeSuffix_prefixLen]
    exact storePrefix_stores hp rfl rfl
  · rw [hp, decide_eq_true_eq]
    cases u with
    | nil => simp
    | cons c u =>
        have hc : c ≠ star := fun h => hu (h ▸ List.mem_cons_self)
        simp [hc]

/-- What comes of the last star. -/
lemma compiled_last (hp : p = u ++ star :: v) (hv : star ∉ v) :
    StoresPart v (compiled p).suffixText (compiled p).suffixLen
      ∧ ((compiled p).hasSuffixWildcard = true ↔ p.getLast? = some star) := by
  obtain ⟨i, hi⟩ := exists_strchr (p := p) (by simp [hp])
  have hj : strrchr p star = some u.length := by
    rw [hp]
    exact strrchr_eq hv
  rw [compiled_of_star hi hj]
  refine ⟨?_, ?_⟩
  · exact storeSuffix_stores (by rw [storePrefix_pattern]; exact hp)
      (by rw [storePrefix_suffixText]; rfl) (by rw [storePrefix_suffixLen]; rfl)
  · rw [hp, decide_eq_true_eq]
    cases v using List.reverseRec with
    | nil => simp
    | append_singleton v c =>
        have hc : c ≠ star := fun h => hv (by simp [h])
        rw [← List.cons_append, ← List.append_assoc, List.getLast?_concat]
        simp [hc]

/-- **Prefix, suffix and flags are right for every pattern.** -/
theorem compiled_faithfulParts (p : CString) : FaithfulParts p (compiled p) := by
  by_cases hp : star ∈ p
  · obtain ⟨x, y, hfirst, hx⟩ := List.eq_append_cons_of_mem hp
    obtain ⟨z, w, hlast, hz⟩ := List.eq_append_cons_of_mem (List.mem_reverse.mpr hp)
    have hlast' : p = w.reverse ++ star :: z.reverse := by
      rw [← List.reverse_reverse p, hlast]
      simp
    exact ⟨fun u v hcut hu => (compiled_first hcut hu).1,
      fun u v hcut hv => (compiled_last hcut hv).1, fun h => absurd hp h,
      (compiled_first hfirst hx).2, (compiled_last hlast' (mt List.mem_reverse.mp hz)).2⟩
  · rw [compiled_of_no_star hp]
    have hcut : ∀ u v, p ≠ u ++ star :: v := by
      rintro u v rfl
      simp at hp
    exact ⟨fun u v h => absurd h (hcut u v), fun u v h => absurd h (hcut u v),
      fun _ => ⟨⟨rfl, rfl⟩, ⟨rfl, rfl⟩⟩,
      iff_of_false Bool.false_ne_true fun h => hp (List.mem_of_mem_head? h),
      iff_of_false Bool.false_ne_true fun h => hp (List.mem_of_mem_getLast? h)⟩

/-! ## The type -/

/-- What the two searches tell of the runs. -/
lemma patternType_eq (p : CString) :
    patternType p
      = if star ∉ p then .exact
        else if ∃ n ∈ runs star p, 2 ≤ n then .mixed
        else .single := by
  have hdouble : (p.dropInfix? doubleStar).isSome = true ↔ ∃ n ∈ runs star p, 2 ≤ n := by
    rw [Option.isSome_iff_ne_none, ne_eq, dropInfix?_eq_none, not_not]
    exact pair_infix_iff
  simp only [patternType]
  by_cases hp : star ∈ p
  · have hsingle : p.contains star = true := by simpa using hp
    rw [if_neg (not_not.mpr hp), hsingle]
    by_cases hd : ∃ n ∈ runs star p, 2 ≤ n
    · rw [if_pos hd, hdouble.mpr hd]
      rfl
    · rw [if_neg hd, Bool.eq_false_iff.mpr (mt hdouble.mp hd)]
      rfl
  · have hsingle : p.contains star = false := by simpa using hp
    have hd : ¬ ∃ n ∈ runs star p, 2 ≤ n := by
      rintro ⟨n, hn, -⟩
      rw [runs_eq_nil_iff.mpr hp] at hn
      cases hn
    rw [if_pos hp, hsingle, Bool.eq_false_iff.mpr (mt hdouble.mp hd)]
    rfl

/-- **When the type is the documented one**: if the pattern has stars, one of its runs is a single
star. -/
lemma patternType_eq_documentedType_iff (p : CString) :
    patternType p = documentedType p ↔ (star ∈ p → IsMaximalRun star 1 p) := by
  rw [patternType_eq, documentedType, ← mem_runs_iff]
  have hnil : runs star p = [] ↔ star ∉ p := runs_eq_nil_iff
  have hpos : ∀ n ∈ runs star p, 0 < n := fun n hn => (mem_runs_iff.mp hn).1
  by_cases hp : star ∈ p
  · rw [if_neg (not_not.mpr hp), if_neg (mt hnil.mp (not_not.mpr hp)), forall_prop_of_true hp]
    by_cases hone : ∀ n ∈ runs star p, n = 1
    · have hd : ¬ ∃ n ∈ runs star p, 2 ≤ n := by
        rintro ⟨n, hn, hle⟩
        have := hone n hn
        omega
      obtain ⟨n, hn⟩ := List.exists_mem_of_ne_nil _ (mt hnil.mp (not_not.mpr hp))
      rw [if_neg hd, if_pos hone]
      exact iff_of_true rfl (hone n hn ▸ hn)
    · have hd : ∃ n ∈ runs star p, 2 ≤ n := by
        push Not at hone
        obtain ⟨n, hn, hne⟩ := hone
        have := hpos n hn
        exact ⟨n, hn, by omega⟩
      rw [if_pos hd, if_neg hone]
      split_ifs with htwo
      · refine iff_of_false (fun h => by cases h) fun h => ?_
        have := htwo 1 h
        omega
      · push Not at htwo
        obtain ⟨n, hn, hlt⟩ := htwo
        obtain rfl : n = 1 := by
          have := hpos n hn
          omega
        exact iff_of_true rfl hn
  · rw [if_pos hp, if_pos (hnil.mpr hp)]
    exact iff_of_true rfl fun h => absurd h hp

lemma compiled_type (p : CString) : (compiled p).type = patternType p := by
  simp only [compiled, extractPatternParts]
  split
  · rfl
  · rw [storeSuffix_type, storePrefix_type]
    rfl

/-- **When a compiled pattern is faithful.** -/
theorem compilePatternC_faithful_iff (p : CString) :
    (∃ c, compilePatternC .succeed (some p) = some c ∧ Faithful p c)
      ↔ (star ∈ p → IsMaximalRun star 1 p) := by
  rw [← patternType_eq_documentedType_iff, ← compiled_type]
  constructor
  · rintro ⟨c, hc, -, htype⟩
    obtain rfl : compiled p = c := Option.some.inj hc
    exact htype
  · intro htype
    exact ⟨compiled p, rfl, compiled_faithfulParts p, htype⟩

/-- `**.com` should be a pattern with `**` wildcards only, and becomes a mixed one. -/
theorem compiled_doubleStar_mixed :
    documentedType (cstr "**.com") = .multi
      ∧ ¬ ∃ c, compilePatternC .succeed (some (cstr "**.com")) = some c
          ∧ Faithful (cstr "**.com") c := by
  have hdoc : documentedType (cstr "**.com") = .multi := by decide
  refine ⟨hdoc, ?_⟩
  rintro ⟨c, hc, -, htype⟩
  obtain rfl : compiled (cstr "**.com") = c := Option.some.inj hc
  rw [hdoc, compiled_type, patternType_eq] at htype
  exact absurd htype (by decide)

end Luan
