import Luan.Core.CRun
import Luan.Core.Search

/-!
# The wildcard domain matcher

`lua-apple/wildcard_matcher.c`, function by function.  A C string is the list of its characters
before the terminating NUL, so that advancing a pointer is dropping from the list and `*p == 0`
is the list being empty; `CChar` excludes the NUL, so no list is a string that C could not hold.
`int` results are `Int`s between `-2 ^ 31` and `2 ^ 31`; what does not fit goes round.

The file copies its arguments into fixed buffers of `MAX_PATTERN_LENGTH` and `MAX_HOST_LENGTH`
bytes.  The sizes are a parameter here (`Buffers`): `Buffers.fixed` is what the code has, and
`Buffers.unbounded` is the same algorithm without the copies' limits, which
`Wildcard/Truncation.lean` compares it with.
-/

namespace Luan

/-! ## Characters and strings -/

/-- A character of a C string: any byte but the terminator. -/
structure CChar where
  byte : UInt8
  ne_zero : byte ≠ 0
  deriving DecidableEq, Repr

/-- A C string, without its terminator. -/
abbrev CString : Type := List CChar

/-- A string literal. -/
def cstr (s : String) : CString :=
  s.toList.filterMap fun c =>
    if h : UInt8.ofNat c.toNat ≠ 0 then some ⟨UInt8.ofNat c.toNat, h⟩ else none

/-- `'*'` -/
def star : CChar := ⟨42, by decide⟩

/-- `'.'` -/
def dot : CChar := ⟨46, by decide⟩

/-- The string `"**"`. -/
def doubleStar : CString := [star, star]

/-- `tolower` of the C locale. -/
def tolower (c : CChar) : CChar :=
  if h : 65 ≤ c.byte.toNat ∧ c.byte.toNat ≤ 90 then
    ⟨UInt8.ofNat (c.byte.toNat + 32), fun h0 => by
      have hnat := congrArg UInt8.toNat h0
      rw [UInt8.toNat_ofNat', UInt8.toNat_zero, Nat.mod_eq_of_lt (by omega)] at hnat
      omega⟩
  else c

/-- A character as the `int` it is promoted to; `char` is signed. -/
def charToInt (c : CChar) : Int := c.byte.toInt8.toInt

/-- `for (char *p = s; *p; p++) *p = tolower(*p);` -/
def toLowercase (s : CString) : CString := s.map tolower

/-! ## Utility functions -/

/-- `(int)n`, for a `size_t` -/
def intOfSize (n : ℕ) : Int := (Int32.ofNat n).toInt

lemma intOfSize_of_lt {n : ℕ} (h : n < 2147483648) : intOfSize n = n :=
  (toInt_ofNat_eq_iff n).mpr h

/-- `strstr`: the string from the leftmost occurrence of the substring on. -/
def strstr (str substr : CString) : Option CString :=
  (str.dropInfix? substr).map fun cut => substr ++ cut.2

/-- The variables of `count_occurrences`. -/
structure CountState where
  count : Int32
  pos : CString

/-- One round of the loop: the variables behind it, or the result. -/
def countRound (substr : CString) (v : CountState) : CountState ⊕ Int32 :=
  match strstr v.pos substr with
  | some pos => .inl { count := v.count + 1, pos := pos.drop substr.length }
  | none => .inr v.count

/-- The loop of `count_occurrences`. -/
def countLoop (substr : CString) : ℕ → CountState → CRun Int32
  | 0, _ => .running
  | fuel + 1, v =>
      match countRound substr v with
      | .inl v => countLoop substr fuel v
      | .inr count => .done count

/-- `count_occurrences` -/
def countOccurrencesC (str substr : CString) (fuel : ℕ) : CRun Int32 :=
  countLoop substr fuel { count := 0, pos := str }

/-- `strcasecmp_c` -/
def strcasecmpC : CString → CString → Int
  | c₁ :: s₁, c₂ :: s₂ =>
      let diff := charToInt (tolower c₁) - charToInt (tolower c₂)
      if diff ≠ 0 then diff else strcasecmpC s₁ s₂
  | c₁ :: _, [] => charToInt (tolower c₁)
  | [], c₂ :: _ => - charToInt (tolower c₂)
  | [], [] => 0

/-- `str_ends_with` -/
def strEndsWith (str suffix : CString) : Bool :=
  if str.length < suffix.length then false
  else strcasecmpC (str.drop (str.length - suffix.length)) suffix == 0

/-! ## Single-level patterns -/

/-- `while (*p == '*') p++;` -/
def skipStars (p : CString) : CString := p.dropWhile (· == star)

lemma length_skipStars_le (p : CString) : (skipStars p).length ≤ p.length :=
  (List.dropWhile_sublist _).length_le

mutual

/-- `match_single_level_recursive` -/
def matchSingleLevelRecursive (pattern host : CString) : Bool :=
  match pattern, host with
  | c :: p, d :: h =>
      if c = star then
        match _hskip : skipStars p with
        -- the pattern ends with `*`: the rest of the host has no dots
        | [] => !(d :: h).contains dot
        | next :: rest => matchAfterStar (next :: rest) (d :: h)
      else if c ≠ d then false
      else matchSingleLevelRecursive p h
  | p, h => (skipStars p).isEmpty && h.isEmpty
termination_by (pattern.length, host.length, 0)
decreasing_by
  · have hle := length_skipStars_le p
    rw [_hskip] at hle
    exact Prod.Lex.left _ _ (by simp only [List.length_cons] at hle ⊢; omega)
  · exact Prod.Lex.left _ _ (by simp)

/-- The loop of `match_single_level_recursive` behind a run of stars: the rest of the pattern is
tried at each position of the host up to the next dot. -/
def matchAfterStar (p host : CString) : Bool :=
  match host with
  | [] => false
  | d :: h =>
      if p.head? = some d ∧ matchSingleLevelRecursive p (d :: h) then true
      else if d = dot then false
      else matchAfterStar p h
termination_by (p.length, host.length, 1)
decreasing_by
  · exact Prod.Lex.right _ (Prod.Lex.right _ (by omega))
  · exact Prod.Lex.right _ (Prod.Lex.left _ _ (by simp))

end

/-! ## The fixed buffers -/

/-- Sizes of the stack buffers, in bytes; `none` is a buffer that is never too small. -/
structure Buffers where
  /-- `MAX_PATTERN_LENGTH` -/
  maxPatternLength : Option ℕ
  /-- `MAX_HOST_LENGTH` -/
  maxHostLength : Option ℕ

/-- The buffers of the code. -/
def Buffers.fixed : Buffers := ⟨some 256, some 256⟩

/-- The same algorithm with room for everything. -/
def Buffers.unbounded : Buffers := ⟨none, none⟩

/-- `strncpy(buf, s, sizeof(buf) - 1)` with its terminator, and likewise `snprintf`: what does
not fit is dropped. -/
def copyInto (size : Option ℕ) (s : CString) : CString :=
  match size with
  | some n => s.take (n - 1)
  | none => s

/-- `len < sizeof(buf)` -/
def fitsIn (size : Option ℕ) (len : ℕ) : Bool :=
  match size with
  | some n => len < n
  | none => true

/-! ## Core wildcard matching -/

/-- `match_single_level_wildcard` -/
def matchSingleLevelWildcard (buf : Buffers) (pattern host : CString) : Bool :=
  let patternCopy := copyInto buf.maxPatternLength pattern
  let hostLower := copyInto buf.maxHostLength host
  matchSingleLevelRecursive (toLowercase patternCopy) (toLowercase hostLower)

/-- `match_prefix_pattern`: the length of the shortest match at the beginning of the host, or
`-1`.  A pattern with stars is tried on longer and longer copies of the host's beginning. -/
def matchPrefixPattern (buf : Buffers) (prefixPattern host : CString) : Int :=
  if prefixPattern.length = 0 then 0
  else if !prefixPattern.contains star then
    if prefixPattern.length ≤ host.length ∧ host.take prefixPattern.length = prefixPattern then
      intOfSize prefixPattern.length
    else -1
  else
    let lens := (List.range' 1 host.length).takeWhile (fitsIn buf.maxHostLength)
    match lens.find? fun len => matchSingleLevelRecursive prefixPattern (host.take len) with
    | some len => intOfSize len
    | none => -1

/-- `match_suffix_pattern`: the length of the longest match at the end of the host, or `-1`. -/
def matchSuffixPattern (suffixPattern host : CString) : Int :=
  if suffixPattern.length = 0 then 0
  else if !suffixPattern.contains star then
    if suffixPattern.length ≤ host.length
        ∧ host.drop (host.length - suffixPattern.length) = suffixPattern then
      intOfSize suffixPattern.length
    else -1
  else
    let starts := List.range (host.length + 1)
    match starts.find? fun start => matchSingleLevelRecursive suffixPattern (host.drop start) with
    | some start => intOfSize (host.length - start)
    | none => -1

/-- `match_multi_level_wildcard` -/
def matchMultiLevelWildcard (buf : Buffers) (pattern host : CString) : Bool :=
  let hostLower := toLowercase host
  match (toLowercase pattern).dropInfix? doubleStar with
  | none => false
  | some (pre, suffix) =>
      if pre.length = 0 then
        if suffix.length = 0 then true
        else if suffix.head? = some dot then
          let suffixNoDot := suffix.tail
          if suffixNoDot.contains star then
            matchSingleLevelRecursive suffixNoDot hostLower
              || decide (0 ≤ matchSuffixPattern suffix hostLower)
          else
            decide (hostLower = suffixNoDot) || strEndsWith hostLower suffix
        else false
      else if suffix.length = 0 then
        decide (0 ≤ matchPrefixPattern buf pre hostLower)
      else
        -- zero-level match first: `**` stands for no segment
        if suffix.head? = some dot
            ∧ matchSingleLevelRecursive
                (copyInto buf.maxPatternLength (pre ++ suffix.tail)) hostLower then true
        else
          let prefixMatched := matchPrefixPattern buf pre hostLower
          if 0 ≤ prefixMatched then
            let remaining := hostLower.drop prefixMatched.toNat
            decide (0 ≤ matchSuffixPattern suffix remaining)
          else false

/-- `wildcard_match_c` with buffers of any size; `none` is a `NULL` argument. -/
def wildcardMatch (buf : Buffers) : Option CString → Option CString → Bool
  | some pattern, some host =>
      if strcasecmpC pattern host = 0 then true
      else if !pattern.contains star then false
      else if (pattern.dropInfix? doubleStar).isSome then
        matchMultiLevelWildcard buf pattern host
      else matchSingleLevelWildcard buf pattern host
  | _, _ => false

/-- `wildcard_match_c` -/
def wildcardMatchC (pattern host : Option CString) : Bool :=
  wildcardMatch Buffers.fixed pattern host

/-! ## Scores and the best match -/

/-- `SINGLE_WILDCARD_PENALTY` -/
def singleWildcardPenalty : Int32 := 5

/-- `MULTI_WILDCARD_PENALTY` -/
def multiWildcardPenalty : Int32 := 10

/-- The scan for single stars in `calculate_pattern_score_c`; `prev` is `*(pos - 1)`, absent at
the start of the pattern. -/
def singleStarCount (prev : Option CChar) : CString → Int32
  | [] => 0
  | c :: rest =>
      if c = star then
        if prev = some star then singleStarCount (some c) rest
        else
          match rest with
          | [] => 1
          | next :: rest' =>
              -- `pos += 2`: skip the `**`
              if next = star then singleStarCount (some next) rest'
              else 1 + singleStarCount (some c) (next :: rest')
      else singleStarCount (some c) rest

/-- `count_occurrences(pattern, "**")`, which needs no more rounds than that. -/
def doubleStarCount (pattern : CString) : Int32 :=
  match countOccurrencesC pattern doubleStar (pattern.length + 1) with
  | .done count => count
  | .running | .undefined => 0

/-- Without a pair of stars the first round is the last. -/
lemma doubleStarCount_eq_zero {pattern : CString} (h : ¬ doubleStar <:+: pattern) :
    doubleStarCount pattern = 0 := by
  rw [doubleStarCount, countOccurrencesC, countLoop, countRound, strstr, dropInfix?_eq_none.mpr h]
  rfl

/-- `calculate_pattern_score_c` -/
def calculatePatternScoreC (pattern : Option CString) : Int :=
  match pattern with
  | none => 0
  | some pattern =>
      let score : Int32 := Int32.ofNat pattern.length
      let score := score - doubleStarCount pattern * multiWildcardPenalty
      let score := score - singleStarCount none pattern * singleWildcardPenalty
      score.toInt

/-- The loop of `find_best_wildcard_match_c` from index `i` on. -/
def findBestFrom (host : Option CString) (i : ℕ) (bestIndex bestScore : Int) :
    List (Option CString) → Int
  | [] => bestIndex
  | pattern :: patterns =>
      if wildcardMatchC pattern host then
        let score := calculatePatternScoreC pattern
        if score > bestScore then findBestFrom host (i + 1) i score patterns
        else findBestFrom host (i + 1) bestIndex bestScore patterns
      else findBestFrom host (i + 1) bestIndex bestScore patterns

/-- `find_best_wildcard_match_c` -/
def findBestWildcardMatchC (host : Option CString) (patterns : List (Option CString)) : Int :=
  findBestFrom host 0 (-1) (-1) patterns

end Luan
