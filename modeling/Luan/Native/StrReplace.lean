import Luan.Core.CRun
import Luan.Core.Cuts

/-!
# Replacing in a Lua string

`str_replace` of `lua-apple/utlua/caplua.c` with the search `lmemfind` it rests on.  Pointers into
a string are offsets; a `size_t` that would fall below zero counts as something undefined.  Memory
for the result is there when it is asked for.

* `lmemfind_eq` — the search finds the leftmost occurrence and reads nothing outside the string.
* `strReplace_correct_iff` — for a pattern with a byte, the result is what it should be when the
  occurrences can be counted in the `int n`, and only then.
* `strReplace_ends_iff` — the loop ends when the pattern has a byte, and only then.
-/

namespace Luan

/-! ## The search -/

/-- `memchr(s + s1, c, n)`: the offset of the first `c` among these `n` bytes. -/
def memchr (s : List UInt8) (s1 : ℕ) (c : UInt8) (n : ℕ) : CRun (Option ℕ) :=
  if s1 + n ≤ s.length then .done ((((s.drop s1).take n).idxOf? c).map (s1 + ·)) else .undefined

/-- `memcmp(a + i, b + j, n) == 0` -/
def memcmpEqual (a : List UInt8) (i : ℕ) (b : List UInt8) (j n : ℕ) : CRun Bool :=
  if i + n ≤ a.length ∧ j + n ≤ b.length then
    .done (decide ((a.drop i).take n = (b.drop j).take n))
  else .undefined

/-- The loop of `lmemfind`; `s1` is an offset in `s`, and `l2` is one less than the length of
`s2`. -/
def lmemfindLoop (s s2 : List UInt8) (l2 : ℕ) : ℕ → ℕ → ℕ → CRun (Option ℕ)
  | 0, _, _ => .running
  | fuel + 1, s1, l1 =>
      if l1 > 0 then
        match s2[0]? with
        | none => .undefined
        | some c =>
            (memchr s s1 c l1).bind fun
              | none => .done none
              | some init =>
                  let init := init + 1
                  (memcmpEqual s init s2 1 l2).bind fun equal =>
                    if equal then .done (some (init - 1))
                    else if init - s1 ≤ l1 then lmemfindLoop s s2 l2 fuel init (l1 - (init - s1))
                    else .undefined
      else .done none

/-- `lmemfind(s + s1, l1, s2, l2)`, as an offset in `s`.  Every round of the loop leaves fewer bytes
in `l1`, and the fuel is one more than these. -/
def lmemfind (s : List UInt8) (s1 l1 : ℕ) (s2 : List UInt8) (l2 : ℕ) : CRun (Option ℕ) :=
  if l2 = 0 then .done (some s1)
  else if l2 > l1 then .done none
  else lmemfindLoop s s2 (l2 - 1) (l1 - (l2 - 1) + 1) s1 (l1 - (l2 - 1))

/-! ## The loop -/

/-- The variables of `str_replace`. -/
structure ReplaceState where
  /-- What `luaL_addlstring` has put into the buffer. -/
  buffer : List UInt8
  init : ℕ
  /-- An `int`; counting goes round at `2 ^ 31`. -/
  n : Int32
  deriving DecidableEq, Repr

/-- One round of the loop: the variables behind it, or the two results. -/
def replaceRound (src p p2 : List UInt8) (v : ReplaceState) :
    CRun (ReplaceState ⊕ List UInt8 × Int32) :=
  if v.init ≤ src.length then
    (lmemfind src v.init (src.length - v.init) p p.length).bind fun
      | some s2 =>
          (bytesFromTo src v.init s2).bind fun part =>
            .done (.inl
              { buffer := v.buffer ++ part ++ p2
                init := v.init + (s2 - v.init) + p.length
                n := v.n + 1 })
      | none =>
          (bytesFromTo src v.init src.length).bind fun part =>
            .done (.inr (v.buffer ++ part, v.n))
  else .undefined

/-- The loop of `str_replace`. -/
def replaceLoop (src p p2 : List UInt8) : ℕ → ReplaceState → CRun (List UInt8 × Int32)
  | 0, _ => .running
  | fuel + 1, v =>
      (replaceRound src p p2 v).bind fun
        | .inl v => replaceLoop src p p2 fuel v
        | .inr results => .done results

/-- `str_replace`: the string and the number it returns. -/
def strReplace (src p p2 : List UInt8) (fuel : ℕ) : CRun (List UInt8 × Int32) :=
  replaceLoop src p p2 fuel { buffer := [], init := 0, n := 0 }

/-! ## What the search finds -/

/-- The index of a letter cuts a list at its first place. -/
lemma cut_of_idxOf? {l : List UInt8} {c : UInt8} {k : ℕ} (h : l.idxOf? c = some k) :
    ∃ w t, l = w ++ c :: t ∧ c ∉ w ∧ w.length = k := by
  induction l generalizing k with
  | nil => cases h
  | cons a l ih =>
      rw [List.idxOf?_cons] at h
      split_ifs at h with ha
      · obtain rfl := eq_of_beq ha
        exact ⟨[], l, rfl, List.not_mem_nil, Option.some.inj h⟩
      · obtain ⟨j, hj, rfl⟩ := Option.map_eq_some_iff.mp h
        obtain ⟨w, t, rfl, hw, rfl⟩ := ih hj
        refine ⟨a :: w, t, rfl, ?_, rfl⟩
        rw [List.mem_cons, not_or]
        exact ⟨fun hc => ha (beq_iff_eq.mpr hc.symm), hw⟩

section Search

variable {s : List UInt8} {s1 l1 : ℕ}

/-- What `memchr` finds cuts the string at the first such byte. -/
lemma memchr_cases (c : UInt8) (hfits : s1 + l1 ≤ s.length) :
    (memchr s s1 c l1 = .done none ∧ c ∉ (s.drop s1).take l1)
      ∨ ∃ w t, memchr s s1 c l1 = .done (some (s1 + w.length)) ∧ s.drop s1 = w ++ c :: t
          ∧ c ∉ w ∧ w.length < l1 := by
  rw [memchr, if_pos hfits]
  cases hidx : ((s.drop s1).take l1).idxOf? c with
  | none => exact .inl ⟨rfl, List.idxOf?_eq_none_iff.mp hidx⟩
  | some k =>
      obtain ⟨w, t, hcut, hw, rfl⟩ := cut_of_idxOf? hidx
      refine .inr ⟨w, t ++ (s.drop s1).drop l1, rfl, ?_, hw, ?_⟩
      · rw [← List.cons_append, ← List.append_assoc, ← hcut, List.take_append_drop]
      · have hlen := congrArg List.length hcut
        rw [List.length_take, List.length_append, List.length_cons] at hlen
        omega

/-- Comparing behind the first byte tells whether the rest of the pattern follows. -/
lemma memcmpEqual_eq {c : UInt8} {t rest : List UInt8} {init : ℕ} (ht : s.drop init = t)
    (hfits : init + rest.length ≤ s.length) :
    memcmpEqual s init (c :: rest) 1 rest.length = .done (decide (rest <+: t)) := by
  rw [memcmpEqual, if_pos ⟨hfits, by rw [List.length_cons, Nat.add_comm]⟩, ht,
    List.drop_one, List.tail_cons, List.take_length]
  congr 1
  rw [decide_eq_decide, List.prefix_iff_eq_take]
  exact eq_comm

/-- A pattern whose first byte does not stand where there is room for the pattern. -/
lemma dropInfix?_eq_none_of_letter {c : UInt8} {rest text : List UInt8}
    (hlen : text.length = l1 + rest.length) (hc : c ∉ text.take l1) :
    text.dropInfix? (c :: rest) = none := by
  rw [dropInfix?_eq_none]
  rintro ⟨u, v, rfl⟩
  simp only [List.length_append, List.length_cons] at hlen
  rw [List.append_assoc, List.take_append, List.cons_append] at hc
  refine hc (List.mem_append_right _ ?_)
  obtain ⟨k, hk⟩ := Nat.exists_eq_add_of_lt (show u.length < l1 by omega)
  rw [hk, Nat.add_assoc, Nat.add_sub_cancel_left, List.take_succ_cons]
  exact List.mem_cons_self

/-- **The loop finds the leftmost occurrence.**  Induction on the fuel; a round that fails goes on
behind the byte it stopped at, and no occurrence begins before that. -/
lemma lmemfindLoop_eq (c : UInt8) (rest : List UInt8) (fuel : ℕ)
    (hlen : s1 + l1 + rest.length = s.length) (hfuel : l1 < fuel) :
    lmemfindLoop s (c :: rest) rest.length fuel s1 l1
      = .done (((s.drop s1).dropInfix? (c :: rest)).map fun cut => s1 + cut.1.length) := by
  induction fuel generalizing s1 l1 with
  | zero => omega
  | succ fuel ih =>
      have hdrop : (s.drop s1).length = l1 + rest.length := by
        rw [List.length_drop]
        omega
      rw [lmemfindLoop]
      split_ifs with hpos
      · simp only [List.getElem?_cons_zero]
        rcases memchr_cases c (show s1 + l1 ≤ s.length by omega) with
          ⟨hmem, hc⟩ | ⟨w, t, hmem, hcut, hw, hlt⟩
        · rw [hmem, CRun.done_bind, dropInfix?_eq_none_of_letter hdrop hc]
          rfl
        · have ht : s.drop (s1 + w.length + 1) = t := by
            rw [Nat.add_assoc, ← List.drop_drop, hcut, ← List.drop_drop, List.drop_left]
            rfl
          rw [hmem, CRun.done_bind]
          dsimp only
          rw [memcmpEqual_eq ht (by omega), CRun.done_bind, hcut, dropInfix?_behind_letter hw]
          by_cases hprefix : rest <+: t
          · obtain ⟨v, rfl⟩ := hprefix
            rw [if_pos (by simp), ← List.cons_append, dropInfix?_append_left]
            simp
          · rw [if_neg (by simpa using hprefix), if_pos (by omega), ih (by omega) (by omega), ht,
              dropInfix?_cons (fun h => hprefix (List.cons_prefix_cons.mp h).2)]
            rw [Option.map_map, Option.map_map]
            congr 2
            funext cut
            simp only [Function.comp_apply, List.length_append, List.length_cons]
            omega
      · rw [dropInfix?_eq_none_of_length (by rw [List.length_cons]; omega)]
        rfl

end Search

/-- **`lmemfind` finds the leftmost occurrence** in the rest of the string and reads nothing behind
its end. -/
theorem lmemfind_eq (s : List UInt8) (s1 : ℕ) (p : List UInt8) (hs1 : s1 ≤ s.length) :
    lmemfind s s1 (s.length - s1) p p.length
      = .done (((s.drop s1).dropInfix? p).map fun cut => s1 + cut.1.length) := by
  rw [lmemfind]
  cases p with
  | nil => simp
  | cons c rest =>
      rw [if_neg (by simp)]
      split_ifs with hlong
      · rw [dropInfix?_eq_none_of_length (by rw [List.length_drop]; exact hlong)]
        rfl
      · rw [List.length_cons] at hlong ⊢
        rw [Nat.add_sub_cancel]
        exact lmemfindLoop_eq c rest _ (by omega) (by omega)

/-! ## What the loop returns -/

section Replace

variable {src p p2 : List UInt8} {v : ReplaceState}

/-- A round that finds nothing adds the rest of the string. -/
lemma replaceRound_none (hinit : v.init ≤ src.length)
    (h : (src.drop v.init).dropInfix? p = none) :
    replaceRound src p p2 v = .done (.inr (v.buffer ++ src.drop v.init, v.n)) := by
  rw [replaceRound, if_pos hinit, lmemfind_eq src v.init p hinit, h, Option.map_none,
    CRun.done_bind]
  dsimp only
  rw [bytesFromTo_length hinit, CRun.done_bind]

/-- A round that finds the pattern adds what is in front of it and the replacement, and goes on
behind it. -/
lemma replaceRound_some (p2 : List UInt8) {u w : List UInt8} (hinit : v.init ≤ src.length)
    (h : (src.drop v.init).dropInfix? p = some (u, w)) :
    ∃ v', replaceRound src p p2 v = .done (.inl v')
      ∧ v'.buffer = v.buffer ++ u ++ p2
      ∧ v'.init = v.init + u.length + p.length
      ∧ v'.n = v.n + 1
      ∧ v'.init ≤ src.length
      ∧ src.drop v'.init = w := by
  obtain ⟨hcut, -⟩ := dropInfix?_eq_some.mp h
  have hlen := congrArg List.length hcut
  rw [List.length_append, List.length_append, List.length_drop] at hlen
  have hpart : bytesFromTo src v.init (v.init + u.length) = .done u := by
    rw [bytesFromTo, if_pos (by omega), Nat.add_sub_cancel_left, ← hcut, List.append_assoc,
      List.take_left]
  refine ⟨⟨v.buffer ++ u ++ p2, v.init + u.length + p.length, v.n + 1⟩, ?_, rfl, rfl, rfl,
    by dsimp only; omega, ?_⟩
  · rw [replaceRound, if_pos hinit, lmemfind_eq src v.init p hinit, h, Option.map_some,
      CRun.done_bind]
    dsimp only
    rw [hpart, CRun.done_bind, Nat.add_sub_cancel_left]
  · rw [Nat.add_assoc, ← List.drop_drop, ← hcut, ← List.length_append, List.drop_left]

/-- More fuel changes nothing when the loop has ended. -/
lemma replaceLoop_more {results : List UInt8 × Int32} {fuel : ℕ} (more : ℕ)
    (h : replaceLoop src p p2 fuel v = .done results) :
    replaceLoop src p p2 (fuel + more) v = .done results := by
  induction fuel generalizing v with
  | zero => cases h
  | succ fuel ih =>
      rw [replaceLoop] at h
      rw [Nat.add_right_comm, replaceLoop]
      cases hround : replaceRound src p p2 v with
      | running => simp [hround, CRun.bind] at h
      | undefined => simp [hround, CRun.bind] at h
      | done next =>
          rw [hround, CRun.done_bind] at h
          rw [CRun.done_bind]
          cases next with
          | inl v' => exact ih h
          | inr results' => exact h

/-- Two ends of the loop are the same one. -/
lemma replaceLoop_unique {r r' : List UInt8 × Int32} {fuel fuel' : ℕ}
    (h : replaceLoop src p p2 fuel v = .done r) (h' : replaceLoop src p p2 fuel' v = .done r') :
    r = r' := by
  have hmore := replaceLoop_more fuel' h
  rw [Nat.add_comm, replaceLoop_more fuel h'] at hmore
  exact (CRun.done.inj hmore).symm

/-- **The loop returns the joined pieces and the wrapped number of occurrences.**  Induction on the
pieces of what is still to be searched. -/
lemma replaceLoop_returns (p2 : List UInt8) (hne : p ≠ []) (text : List UInt8)
    (hinit : v.init ≤ src.length) (htext : src.drop v.init = text) :
    ∃ fuel, replaceLoop src p p2 fuel v
      = .done (v.buffer ++ p2.intercalate (cutAll p hne text),
          v.n + Int32.ofNat (occurrences p hne text)) := by
  fun_induction cutAll p hne text generalizing v with
  | case1 text h =>
      subst htext
      refine ⟨1, ?_⟩
      rw [replaceLoop, replaceRound_none hinit h, CRun.done_bind, occurrences_none h]
      simp [List.intercalate]
  | case2 text u w h ih =>
      subst htext
      obtain ⟨v', hround, hbuffer, -, hn, hinit', hrest⟩ := replaceRound_some p2 hinit h
      obtain ⟨fuel, hfuel⟩ := ih hinit' hrest
      refine ⟨fuel + 1, ?_⟩
      rw [replaceLoop, hround, CRun.done_bind]
      dsimp only
      rw [hfuel, hbuffer, hn, intercalate_cons cutAll_ne_nil, occurrences_some h, Int32.ofNat_add,
        Int32.add_assoc, Int32.add_comm 1]
      simp

/-- What `str_replace` returns for a pattern with a byte. -/
lemma strReplace_returns (src p2 : List UInt8) (hne : p ≠ []) :
    ∃ fuel, strReplace src p p2 fuel
      = .done (p2.intercalate (cutAll p hne src), Int32.ofNat (occurrences p hne src)) := by
  obtain ⟨fuel, hfuel⟩ := replaceLoop_returns p2 (v := ⟨[], 0, 0⟩) hne src
    (Nat.zero_le src.length) rfl
  refine ⟨fuel, ?_⟩
  rw [strReplace, hfuel, Int32.zero_add, List.nil_append]

/-- With the empty pattern every round finds it where it stands. -/
lemma replaceLoop_empty (src p2 : List UInt8) (fuel : ℕ) (hinit : v.init ≤ src.length) :
    replaceLoop src [] p2 fuel v = .running := by
  induction fuel generalizing v with
  | zero => rfl
  | succ fuel ih =>
      obtain ⟨v', hround, -, -, -, hinit', -⟩ :=
        replaceRound_some p2 hinit (List.dropInfix?_nil (s := src.drop v.init))
      rw [replaceLoop, hround, CRun.done_bind]
      exact ih hinit'

/-- A round that finds a pattern with a byte leaves less to be searched. -/
lemma replaceRound_decreases {v' : ReplaceState} (hne : p ≠ []) (hinit : v.init ≤ src.length)
    (hround : replaceRound src p p2 v = .done (.inl v')) :
    src.length - v'.init < src.length - v.init := by
  have hpos := List.length_pos_iff.mpr hne
  cases h : (src.drop v.init).dropInfix? p with
  | none =>
      rw [replaceRound_none hinit h] at hround
      cases hround
  | some cut =>
      obtain ⟨w, hw, -, hnext, -, hle, -⟩ := replaceRound_some p2 hinit h
      rw [hw] at hround
      obtain rfl := Sum.inl.inj (CRun.done.inj hround)
      omega

end Replace

/-- **`str_replace` is right if and only if the occurrences can be counted in an `int`**: the string
is the pieces joined with the replacement and the number is that of the occurrences; no piece
contains the pattern, and replacing the pattern with itself changes nothing. -/
theorem strReplace_correct_iff (src p p2 : List UInt8) (hne : p ≠ []) :
    ((∃ fuel n, strReplace src p p2 fuel = .done (p2.intercalate (cutAll p hne src), n)
        ∧ n.toInt = occurrences p hne src)
      ∧ (∀ piece ∈ cutAll p hne src, ¬ p <:+: piece)
      ∧ ∃ fuel n, strReplace src p p fuel = .done (src, n))
    ↔ occurrences p hne src < 2147483648 := by
  obtain ⟨fuel, hfuel⟩ := strReplace_returns src p2 hne
  constructor
  · rintro ⟨⟨fuel', n, hfuel', hn⟩, -, -⟩
    have hsame := replaceLoop_unique hfuel hfuel'
    rw [← (Prod.mk.inj hsame).2] at hn
    exact (toInt_ofNat_eq_iff _).mp hn
  · intro hfew
    obtain ⟨fuel', hfuel'⟩ := strReplace_returns src p hne
    rw [intercalate_cutAll] at hfuel'
    exact ⟨⟨fuel, _, hfuel, (toInt_ofNat_eq_iff _).mpr hfew⟩,
      not_infix_of_mem_cutAll p hne src, fuel', _, hfuel'⟩

/-- Every letter of a text of one letter is an occurrence. -/
lemma occurrences_replicate (a : UInt8) (k : ℕ) :
    occurrences [a] (List.cons_ne_nil a []) (List.replicate k a) = k := by
  induction k with
  | zero => exact occurrences_none (dropInfix?_eq_none_of_length (Nat.succ_pos 0))
  | succ k ih =>
      have hfirst := dropInfix?_append_left [a] (List.replicate k a)
      rw [List.singleton_append, ← List.replicate_succ] at hfirst
      rw [occurrences_some hfirst, ih]

/-- `aaa` with `a` replaced by a zero byte. -/
theorem strReplace_correct_letters :
    ∃ fuel n, strReplace (List.replicate 3 0x61) [0x61] [0] fuel
        = .done ([0].intercalate
            (cutAll [0x61] (List.cons_ne_nil 0x61 []) (List.replicate 3 0x61)), n)
      ∧ n.toInt = 3 := by
  have hfew : occurrences [(0x61 : UInt8)] (List.cons_ne_nil 0x61 []) (List.replicate 3 0x61) = 3 :=
    occurrences_replicate 0x61 3
  obtain ⟨⟨fuel, n, hfuel, hn⟩, -, -⟩ :=
    (strReplace_correct_iff (List.replicate 3 0x61) [0x61] [0] (List.cons_ne_nil 0x61 [])).mpr
      (by rw [hfew]; omega)
  rw [hfew] at hn
  exact ⟨fuel, n, hfuel, hn⟩

/-- `2 ^ 31` letters: the number that is returned is another one. -/
theorem strReplace_count_wraps :
    occurrences [(0x61 : UInt8)] (List.cons_ne_nil 0x61 []) (List.replicate 2147483648 0x61)
        = 2147483648
      ∧ ∀ fuel text n, strReplace (List.replicate 2147483648 0x61) [0x61] [] fuel = .done (text, n)
          → n.toInt ≠ 2147483648 := by
  refine ⟨occurrences_replicate 0x61 2147483648, fun _ _ n _ hn => ?_⟩
  have hlt := n.toInt_lt
  rw [hn] at hlt
  exact Int.lt_irrefl 2147483648 hlt

/-- **The loop ends, and every round that finds the pattern leaves less to be searched, if and only
if the pattern has a byte.** -/
theorem strReplace_ends_iff (src p p2 : List UInt8) :
    ((∃ fuel results, strReplace src p p2 fuel = .done results)
      ∧ ∀ v v', v.init ≤ src.length → replaceRound src p p2 v = .done (.inl v') →
          src.length - v'.init < src.length - v.init)
    ↔ p ≠ [] := by
  constructor
  · rintro ⟨⟨fuel, results, hends⟩, -⟩ rfl
    rw [strReplace, replaceLoop_empty src p2 fuel (Nat.zero_le _)] at hends
    cases hends
  · intro hne
    obtain ⟨fuel, hfuel⟩ := strReplace_returns src p2 hne
    exact ⟨⟨fuel, _, hfuel⟩, fun v v' hinit hround => replaceRound_decreases hne hinit hround⟩

/-- `str_replace("a", "", "b")` never returns. -/
theorem strReplace_empty_pattern :
    ¬ ∃ fuel results, strReplace [0x61] [] [0x62] fuel = .done results := by
  rintro ⟨fuel, results, hends⟩
  rw [strReplace, replaceLoop_empty [0x61] [0x62] fuel (Nat.zero_le 1)] at hends
  cases hends

end Luan
