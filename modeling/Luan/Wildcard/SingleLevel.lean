import Luan.Wildcard.Matcher

/-!
# What the single-level matcher accepts

`match_single_level_recursive` walks pattern and host with two pointers and, behind a run of
stars, tries the rest of the pattern at each position up to the next dot.
`matchSingleLevelRecursive_iff` says what comes out: the language `globLang star dot` of
`Core/Glob.lean`, in which a star stands for any dot-free text.

On top of it, the two searches that `match_multi_level_wildcard` makes:

* `matchPrefixPattern_cases` — the *shortest* beginning of the host in the language of the prefix
  pattern, as far as the copies of the host's beginnings fit their buffer;
* `matchSuffixPattern_cases` — the longest end of the host in the language of the suffix pattern.

Both return a length as an `int`, which is the length itself for hosts of fewer than `2 ^ 31`
characters.
-/

namespace Luan

/-- The language of a single-level pattern. -/
noncomputable abbrev singleLang (p : CString) : Language CChar := globLang star dot p

lemma star_ne_dot : star ≠ dot := by decide

/-! ## Case-insensitive comparison -/

lemma CChar.ext_toNat {c d : CChar} (h : c.byte.toNat = d.byte.toNat) : c = d := by
  cases c
  cases d
  simp only [CChar.mk.injEq]
  exact UInt8.toNat_inj.mp h

lemma tolower_byte (c : CChar) :
    (tolower c).byte.toNat
      = if 65 ≤ c.byte.toNat ∧ c.byte.toNat ≤ 90 then c.byte.toNat + 32 else c.byte.toNat := by
  simp only [tolower]
  split
  · simp only [UInt8.toNat_ofNat']
    omega
  · rfl

@[simp] lemma tolower_tolower (c : CChar) : tolower (tolower c) = tolower c := by
  apply CChar.ext_toNat
  rw [tolower_byte, tolower_byte]
  split_ifs <;> omega

/-- A character outside the letters is the lower case of itself only. -/
lemma tolower_eq_iff {c d : CChar} (hd : d.byte.toNat < 65) : tolower c = d ↔ c = d := by
  constructor
  · rintro rfl
    rw [tolower_byte] at hd
    simp only [tolower]
    split
    · split_ifs at hd
      omega
    · rfl
  · rintro rfl
    simp only [tolower]
    split
    · omega
    · rfl

lemma tolower_eq_star {c : CChar} : tolower c = star ↔ c = star :=
  tolower_eq_iff (by decide)

lemma tolower_eq_dot {c : CChar} : tolower c = dot ↔ c = dot :=
  tolower_eq_iff (by decide)

@[simp] lemma tolower_dot : tolower dot = dot := tolower_eq_dot.mpr rfl

@[simp] lemma toLowercase_toLowercase (s : CString) :
    toLowercase (toLowercase s) = toLowercase s := by
  simp [toLowercase]

@[simp] lemma length_toLowercase (s : CString) : (toLowercase s).length = s.length := by
  simp [toLowercase]

lemma toInt8_toInt_injective {b b' : UInt8} (h : b.toInt8.toInt = b'.toInt8.toInt) : b = b' := by
  have h' := congrArg Int8.toUInt8 (Int8.toInt_inj.mp h)
  rwa [UInt8.toUInt8_toInt8, UInt8.toUInt8_toInt8] at h'

lemma charToInt_injective : Function.Injective charToInt := by
  intro c d h
  exact CChar.ext_toNat (congrArg UInt8.toNat (toInt8_toInt_injective h))

lemma charToInt_ne_zero (c : CChar) : charToInt c ≠ 0 := by
  intro h
  have hzero : (c.byte.toInt8).toInt = (0 : UInt8).toInt8.toInt := h
  exact c.ne_zero (toInt8_toInt_injective hzero)

/-- **`strcasecmp_c` is equality up to case.** -/
lemma strcasecmpC_eq_zero {s₁ s₂ : CString} :
    strcasecmpC s₁ s₂ = 0 ↔ toLowercase s₁ = toLowercase s₂ := by
  induction s₁ generalizing s₂ with
  | nil =>
      cases s₂ with
      | nil => simp [strcasecmpC, toLowercase]
      | cons d s₂ => simp [strcasecmpC, toLowercase, charToInt_ne_zero]
  | cons c s₁ ih =>
      cases s₂ with
      | nil => simp [strcasecmpC, toLowercase, charToInt_ne_zero]
      | cons d s₂ =>
          simp only [strcasecmpC, toLowercase, List.map_cons, List.cons.injEq]
          by_cases hcd : tolower c = tolower d
          · simpa [hcd, toLowercase] using ih
          · have hne : charToInt (tolower c) - charToInt (tolower d) ≠ 0 := fun h =>
              hcd (charToInt_injective (by omega))
            simp [hne, hcd]

/-! ## The recursive matcher -/

lemma skipStars_head_ne {p rest : CString} {next : CChar} (h : skipStars p = next :: rest) :
    next ≠ star := by
  have hnot := List.head?_dropWhile_not (· == star) p
  rw [← skipStars, h] at hnot
  simpa using hnot

/-- The language behind a run of stars only depends on what the run is followed by. -/
lemma mem_singleLang_star {p h : CString} :
    h ∈ singleLang (star :: p)
      ↔ ∃ u v, dot ∉ u ∧ v ∈ singleLang (skipStars p) ∧ u ++ v = h := by
  rw [singleLang, ← globLang_star_dropWhile, mem_globLang_cons_star]
  rfl

/-- The loop behind a star, for a rest of the pattern that is matched correctly: it finds the
dot-free text that the star stands for. -/
lemma matchAfterStar_iff {next : CChar} {rest : CString} (hnext : next ≠ star)
    (hrest : ∀ h, matchSingleLevelRecursive (next :: rest) h = true
      ↔ h ∈ singleLang (next :: rest)) (h : CString) :
    matchAfterStar (next :: rest) h = true
      ↔ ∃ u v, dot ∉ u ∧ v ∈ singleLang (next :: rest) ∧ u ++ v = h := by
  induction h with
  | nil =>
      rw [matchAfterStar]
      constructor
      · intro h
        cases h
      · rintro ⟨u, v, -, hv, huv⟩
        obtain ⟨w, -, rfl⟩ := (mem_globLang_cons_letter hnext).mp hv
        simp at huv
  | cons d h ih =>
      rw [matchAfterStar]
      split_ifs with htry hdot
      · refine ⟨fun _ => ⟨[], d :: h, by simp, (hrest _).mp htry.2, rfl⟩, fun _ => rfl⟩
      · subst hdot
        refine ⟨fun hf => hf.elim, ?_⟩
        rintro ⟨u, v, hu, hv, huv⟩
        cases u with
        | nil =>
            obtain rfl : v = dot :: h := huv
            obtain ⟨w, -, hw⟩ := (mem_globLang_cons_letter hnext).mp hv
            refine absurd ⟨?_, (hrest _).mpr hv⟩ htry
            rw [(List.cons.inj hw).1]
            rfl
        | cons c u =>
            obtain ⟨rfl, -⟩ := List.cons.inj huv
            simp at hu
      · rw [ih]
        constructor
        · rintro ⟨u, v, hu, hv, rfl⟩
          exact ⟨d :: u, v, by simpa [Ne.symm hdot] using hu, hv, rfl⟩
        · rintro ⟨u, v, hu, hv, huv⟩
          cases u with
          | nil =>
              obtain rfl : v = d :: h := huv
              obtain ⟨w, -, hw⟩ := (mem_globLang_cons_letter hnext).mp hv
              refine absurd ⟨?_, (hrest _).mpr hv⟩ htry
              rw [(List.cons.inj hw).1]
              rfl
          | cons c u =>
              obtain ⟨rfl, rfl⟩ := List.cons.inj huv
              exact ⟨u, v, fun hmem => hu (List.mem_cons_of_mem _ hmem), hv, rfl⟩

/-- **What `match_single_level_recursive` accepts**: the language in which a star stands for any
dot-free text.  Induction on the pattern's length: behind a run of stars the code goes on with
what follows the run. -/
theorem matchSingleLevelRecursive_iff {p h : CString} :
    matchSingleLevelRecursive p h = true ↔ h ∈ singleLang p := by
  induction hn : p.length using Nat.strong_induction_on generalizing p h with
  | _ n ih =>
      cases p with
      | nil =>
          rw [matchSingleLevelRecursive]
          · simp [skipStars]
          · simp
      | cons c p =>
          cases h with
          | nil =>
              rw [matchSingleLevelRecursive]
              · simp [skipStars, nil_mem_globLang_iff]
              · simp
          | cons d h =>
              rw [matchSingleLevelRecursive]
              split_ifs with hstar hne
              · subst hstar
                rw [mem_singleLang_star]
                split
                · rename_i hskip
                  rw [hskip]
                  simp
                · rename_i next rest hskip
                  have hlen := length_skipStars_le p
                  rw [hskip] at hlen
                  rw [hskip]
                  refine matchAfterStar_iff (skipStars_head_ne hskip) (fun h' => ?_) _
                  refine ih _ ?_ rfl
                  rw [← hn]
                  exact Nat.lt_succ_of_le hlen
              · refine ⟨fun hf => hf.elim, fun hmem => ?_⟩
                obtain ⟨v, -, hv⟩ := (mem_globLang_cons_letter hstar).mp hmem
                exact absurd (List.cons.inj hv).1 hne
              · rw [not_not] at hne
                subst hne
                rw [ih p.length (by rw [← hn]; simp) rfl, mem_globLang_cons_letter hstar]
                simp

/-- **Soundness and completeness of `match_single_level_recursive`**, for patterns with and
without runs of stars: a maximal run stands for any dot-free text. -/
theorem matchSingleLevelRecursive_iff_runMatch (p h : CString) :
    matchSingleLevelRecursive p h = true ↔ RunMatch star dot p h := by
  rw [runMatch_iff, matchSingleLevelRecursive_iff]

/-! ## Searching for a prefix -/

lemma fitsIn_mono {size : Option ℕ} {m n : ℕ} (hmn : m ≤ n) (h : fitsIn size n = true) :
    fitsIn size m = true := by
  cases size with
  | none => rfl
  | some s =>
      simp only [fitsIn, decide_eq_true_eq] at h ⊢
      omega

/-- The `break` of the prefix loop leaves the lengths that fit the buffer. -/
lemma exists_takeWhile_fitsIn (size : Option ℕ) (s n : ℕ) :
    ∃ m ≤ n, (List.range' s n).takeWhile (fitsIn size) = List.range' s m
      ∧ ∀ i, s ≤ i → i < s + n → (i < s + m ↔ fitsIn size i = true) := by
  induction n generalizing s with
  | zero => exact ⟨0, le_refl 0, rfl, fun i h1 h2 => by omega⟩
  | succ n ih =>
      obtain ⟨m, hm, heq, hiff⟩ := ih (s + 1)
      by_cases hfit : fitsIn size s = true
      · refine ⟨m + 1, by omega, ?_, fun i h1 h2 => ?_⟩
        · rw [List.range'_succ, List.takeWhile_cons_of_pos hfit, heq, List.range'_succ]
        · by_cases his : i = s
          · subst his
            exact ⟨fun _ => hfit, fun _ => by omega⟩
          · rw [← hiff i (by omega) (by omega)]
            omega
      · refine ⟨0, by omega, ?_, fun i h1 h2 => ?_⟩
        · rw [List.range'_succ, List.takeWhile_cons_of_neg hfit, List.range'_zero]
        · refine ⟨fun h => by omega, fun h => absurd (fitsIn_mono h1 h) hfit⟩

/-- The lengths that the prefix search may return: a pattern without stars is compared in place,
one with stars only with copies that fit the buffer. -/
def PrefixFits (buf : Buffers) (p : CString) (n : ℕ) : Prop :=
  star ∈ p → fitsIn buf.maxHostLength n = true

/-- What the prefix search commits to. -/
structure IsShortestPrefix (buf : Buffers) (p h : CString) (m : ℕ) : Prop where
  le_length : m ≤ h.length
  pos : p ≠ [] → 1 ≤ m
  mem : h.take m ∈ singleLang p
  fits : PrefixFits buf p m
  shortest : ∀ n, 1 ≤ n → n < m → h.take n ∉ singleLang p

/-- Only a beginning without characters matches the empty pattern. -/
lemma IsShortestPrefix.eq_zero {buf : Buffers} {h : CString} {m : ℕ}
    (hm : IsShortestPrefix buf [] h m) : m = 0 := by
  have hlen := congrArg List.length (mem_globLang_nil.mp hm.mem)
  rw [List.length_take_of_le hm.le_length] at hlen
  exact hlen

lemma IsShortestPrefix.unique {buf buf' : Buffers} {p h : CString} {m n : ℕ}
    (hm : IsShortestPrefix buf p h m) (hn : IsShortestPrefix buf' p h n) : m = n := by
  by_cases hp : p = []
  · subst hp
    rw [hm.eq_zero, hn.eq_zero]
  · rcases Nat.lt_trichotomy m n with hlt | heq | hlt
    · exact absurd hm.mem (hn.shortest m (hm.pos hp) hlt)
    · exact heq
    · exact absurd hn.mem (hm.shortest n (hn.pos hp) hlt)

/-- If any non-empty beginning that fits is a match, there is a shortest one. -/
lemma exists_isShortestPrefix {buf : Buffers} {p h : CString} {n : ℕ} (h1 : 1 ≤ n)
    (hn : n ≤ h.length) (hfit : PrefixFits buf p n) (hmem : h.take n ∈ singleLang p) :
    ∃ m ≤ n, IsShortestPrefix buf p h m := by
  classical
  have hex : ∃ m, 1 ≤ m ∧ h.take m ∈ singleLang p := ⟨n, h1, hmem⟩
  have hle : Nat.find hex ≤ n := Nat.find_le ⟨h1, hmem⟩
  obtain ⟨hpos, hfound⟩ := Nat.find_spec hex
  exact ⟨Nat.find hex, hle, hle.trans hn, fun _ => hpos, hfound,
    fun hs => fitsIn_mono hle (hfit hs), fun k hk hlt hin => Nat.find_min hex hlt ⟨hk, hin⟩⟩

lemma take_mem_of_no_star {p h : CString} (hp : star ∉ p) {n : ℕ} (hn : n ≤ h.length) :
    h.take n ∈ singleLang p ↔ n = p.length ∧ h.take p.length = p := by
  rw [mem_globLang_of_no_star hp]
  constructor
  · intro heq
    have hlen := congrArg List.length heq
    rw [List.length_take, Nat.min_eq_left hn] at hlen
    exact ⟨hlen, hlen ▸ heq⟩
  · rintro ⟨rfl, heq⟩
    exact heq

/-- **The prefix search returns the shortest match**, as an `int`. -/
lemma matchPrefixPattern_cases (buf : Buffers) (p h : CString) :
    (∃ m, IsShortestPrefix buf p h m ∧ matchPrefixPattern buf p h = intOfSize m)
      ∨ (¬ ∃ m, IsShortestPrefix buf p h m) ∧ matchPrefixPattern buf p h = -1 := by
  simp only [matchPrefixPattern]
  split_ifs with hnil hstar hlit
  · obtain rfl := List.length_eq_zero_iff.mp hnil
    exact Or.inl ⟨0, ⟨Nat.zero_le _, fun h => absurd rfl h, by simp, fun h => by simp at h,
      fun n h1 h2 => by omega⟩, rfl⟩
  · have hfree : star ∉ p := by simpa using hstar
    obtain ⟨hle, htake⟩ := hlit
    refine Or.inl ⟨p.length, ⟨hle, fun _ => by omega, ?_, fun h => absurd h hfree, ?_⟩, rfl⟩
    · exact (take_mem_of_no_star hfree hle).mpr ⟨rfl, htake⟩
    · intro n _ hn hmem
      exact absurd ((take_mem_of_no_star hfree (by omega)).mp hmem).1 (by omega)
  · have hfree : star ∉ p := by simpa using hstar
    refine Or.inr ⟨?_, rfl⟩
    rintro ⟨m, hm⟩
    obtain ⟨rfl, htake⟩ := (take_mem_of_no_star hfree hm.le_length).mp hm.mem
    exact hlit ⟨hm.le_length, htake⟩
  · have hstarmem : star ∈ p := by simpa using hstar
    obtain ⟨k, hk, heq, hfits⟩ := exists_takeWhile_fitsIn buf.maxHostLength 1 h.length
    rw [heq]
    split
    · rename_i len hfind
      obtain ⟨hmatch, hmem, hmin⟩ := List.find?_range'_eq_some.mp hfind
      rw [List.mem_range'_1] at hmem
      refine Or.inl ⟨len, ⟨by omega, fun _ => hmem.1, matchSingleLevelRecursive_iff.mp hmatch,
        fun _ => (hfits len hmem.1 (by omega)).mp hmem.2, fun n h1 h2 hin => ?_⟩, rfl⟩
      have hno := hmin n h1 h2
      rw [matchSingleLevelRecursive_iff.mpr hin] at hno
      exact absurd hno (by decide)
    · rename_i hnone
      refine Or.inr ⟨?_, rfl⟩
      rintro ⟨m, hm⟩
      have h1 := hm.pos (List.ne_nil_of_mem hstarmem)
      have hle := hm.le_length
      have hno := List.find?_range'_eq_none.mp hnone m h1
        ((hfits m h1 (by omega)).mpr (hm.fits hstarmem))
      rw [matchSingleLevelRecursive_iff.mpr hm.mem] at hno
      exact absurd hno (by decide)

lemma IsShortestPrefix.matchPrefixPattern_eq {buf : Buffers} {p h : CString} {m : ℕ}
    (hm : IsShortestPrefix buf p h m) : matchPrefixPattern buf p h = intOfSize m := by
  rcases matchPrefixPattern_cases buf p h with ⟨n, hn, heq⟩ | ⟨hno, -⟩
  · rw [heq, hm.unique hn]
  · exact absurd ⟨m, hm⟩ hno

/-- **When the prefix search succeeds**: if there is a match, and its length is not negative as an
`int`. -/
lemma matchPrefixPattern_nonneg_iff {buf : Buffers} {p h : CString} :
    0 ≤ matchPrefixPattern buf p h ↔ ∃ m, IsShortestPrefix buf p h m ∧ 0 ≤ intOfSize m := by
  constructor
  · intro hpos
    rcases matchPrefixPattern_cases buf p h with ⟨m, hm, heq⟩ | ⟨-, heq⟩
    · exact ⟨m, hm, heq ▸ hpos⟩
    · omega
  · rintro ⟨m, hm, hpos⟩
    rwa [hm.matchPrefixPattern_eq]

/-! ## Searching for a suffix -/

/-- What the suffix search returns. -/
structure IsLongestSuffix (p h : CString) (n : ℕ) : Prop where
  le_length : n ≤ h.length
  mem : h.drop (h.length - n) ∈ singleLang p
  longest : ∀ k, n < k → k ≤ h.length → h.drop (h.length - k) ∉ singleLang p

lemma drop_mem_of_no_star {p h : CString} (hp : star ∉ p) {n : ℕ} (hn : n ≤ h.length) :
    h.drop (h.length - n) ∈ singleLang p
      ↔ n = p.length ∧ h.drop (h.length - p.length) = p := by
  rw [mem_globLang_of_no_star hp]
  constructor
  · intro heq
    have hlen := congrArg List.length heq
    rw [List.length_drop] at hlen
    obtain rfl : n = p.length := by omega
    exact ⟨rfl, heq⟩
  · rintro ⟨rfl, heq⟩
    exact heq

lemma IsLongestSuffix.unique {p h : CString} {m n : ℕ} (hm : IsLongestSuffix p h m)
    (hn : IsLongestSuffix p h n) : m = n := by
  rcases Nat.lt_trichotomy m n with hlt | heq | hlt
  · exact absurd hn.mem (hm.longest n hlt hn.le_length)
  · exact heq
  · exact absurd hm.mem (hn.longest m hlt hm.le_length)

/-- **The suffix search returns the longest match**, as an `int`. -/
lemma matchSuffixPattern_cases (p h : CString) :
    (∃ n, IsLongestSuffix p h n ∧ matchSuffixPattern p h = intOfSize n)
      ∨ (∀ n ≤ h.length, h.drop (h.length - n) ∉ singleLang p)
        ∧ matchSuffixPattern p h = -1 := by
  simp only [matchSuffixPattern]
  split_ifs with hnil hstar hlit
  · obtain rfl := List.length_eq_zero_iff.mp hnil
    refine Or.inl ⟨0, ⟨Nat.zero_le _, by simp, fun k h1 h2 hmem => ?_⟩, rfl⟩
    have hlen := congrArg List.length (mem_globLang_nil.mp hmem)
    rw [List.length_drop, List.length_nil] at hlen
    omega
  · have hfree : star ∉ p := by simpa using hstar
    obtain ⟨hle, hdrop⟩ := hlit
    refine Or.inl ⟨p.length, ⟨hle, (drop_mem_of_no_star hfree hle).mpr ⟨rfl, hdrop⟩, ?_⟩, rfl⟩
    intro k hlt hk hmem
    exact absurd ((drop_mem_of_no_star hfree hk).mp hmem).1 (by omega)
  · have hfree : star ∉ p := by simpa using hstar
    refine Or.inr ⟨fun n hn hmem => ?_, rfl⟩
    obtain ⟨rfl, hdrop⟩ := (drop_mem_of_no_star hfree hn).mp hmem
    exact hlit ⟨hn, hdrop⟩
  · split
    · rename_i start hfind
      rw [List.range_eq_range'] at hfind
      obtain ⟨hmatch, hmem, hmin⟩ := List.find?_range'_eq_some.mp hfind
      rw [List.mem_range'_1] at hmem
      refine Or.inl ⟨h.length - start, ⟨by omega, ?_, fun k h1 h2 hin => ?_⟩, rfl⟩
      · rw [Nat.sub_sub_self (by omega)]
        exact matchSingleLevelRecursive_iff.mp hmatch
      · have hno := hmin (h.length - k) (Nat.zero_le _) (by omega)
        rw [matchSingleLevelRecursive_iff.mpr hin] at hno
        exact absurd hno (by decide)
    · rename_i hnone
      refine Or.inr ⟨fun n hn hmem => ?_, rfl⟩
      have hno := List.find?_eq_none.mp hnone (h.length - n) (List.mem_range.mpr (by omega))
      rw [matchSingleLevelRecursive_iff] at hno
      exact hno hmem

lemma IsLongestSuffix.matchSuffixPattern_eq {p h : CString} {n : ℕ} (hn : IsLongestSuffix p h n) :
    matchSuffixPattern p h = intOfSize n := by
  rcases matchSuffixPattern_cases p h with ⟨m, hm, heq⟩ | ⟨hno, -⟩
  · rw [heq, hn.unique hm]
  · exact absurd hn.mem (hno n hn.le_length)

/-- **When the suffix search succeeds.** -/
lemma matchSuffixPattern_nonneg_iff {p h : CString} :
    0 ≤ matchSuffixPattern p h ↔ ∃ n, IsLongestSuffix p h n ∧ 0 ≤ intOfSize n := by
  constructor
  · intro hpos
    rcases matchSuffixPattern_cases p h with ⟨n, hn, heq⟩ | ⟨-, heq⟩
    · exact ⟨n, hn, heq ▸ hpos⟩
    · omega
  · rintro ⟨n, hn, hpos⟩
    rwa [hn.matchSuffixPattern_eq]

/-- On a host that an `int` can measure it succeeds exactly if some end of the host is a match. -/
lemma matchSuffixPattern_nonneg_iff_of_lt {p h : CString} (hlt : h.length < 2147483648) :
    0 ≤ matchSuffixPattern p h ↔ ∃ u v, v ∈ singleLang p ∧ u ++ v = h := by
  constructor
  · intro hpos
    obtain ⟨n, hn, -⟩ := matchSuffixPattern_nonneg_iff.mp hpos
    exact ⟨_, _, hn.mem, List.take_append_drop _ h⟩
  · rintro ⟨u, v, hv, rfl⟩
    rcases matchSuffixPattern_cases p (u ++ v) with ⟨n, hn, heq⟩ | ⟨hno, -⟩
    · have hle := hn.le_length
      rw [heq, intOfSize_of_lt (by omega)]
      exact Int.natCast_nonneg _
    · have hlen : (u ++ v).length - v.length = u.length := by
        rw [List.length_append, Nat.add_sub_cancel]
      exact absurd (by rwa [hlen, List.drop_left]) (hno v.length (by simp))

end Luan
