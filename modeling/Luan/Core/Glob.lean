import Mathlib.Computability.Language
import Mathlib.Data.List.Forall2
import Mathlib.Data.List.TakeWhile

/-!
# Wildcard languages over a separated alphabet

A pattern is a word over an alphabet with two distinguished letters: a *wildcard* `star`, which
stands for any word free of the *separator* `sep`, and the separator itself, which like every
other letter stands for itself.  `globLang star sep p` is the language of the pattern `p`, as a
product of letter languages in Mathlib's semiring of languages.

* `mem_globLang_append` splits a pattern anywhere, which is what every matcher does.
* `runMatch_iff` — a maximal run of wildcards may be read as one.
* `count_sep_of_mem` — a matched word has exactly as many separators as its pattern.  Everything
  about *where* a pattern can match comes from this count: `prefix_eq_of_count` says that a pattern
  that ends in a separator matches at most one prefix of a word.
* `mem_globLang_iff_labels` — matching a word is matching it label by label, the labels being
  the pieces between separators.
-/

namespace Luan

variable {α : Type*} {star sep : α}

/-! ## The language of a pattern -/

open Classical in
/-- What one letter of a pattern stands for. -/
noncomputable def letterLang (star sep c : α) : Language α :=
  if c = star then {w | sep ∉ w} else {[c]}

/-- **The language of a pattern**: the product of what its letters stand for. -/
noncomputable def globLang (star sep : α) (p : List α) : Language α :=
  (p.map (letterLang star sep)).prod

@[simp] lemma mem_globLang_nil {w : List α} : w ∈ globLang star sep [] ↔ w = [] := by
  simp [globLang, Language.mem_one]

/-- A pattern may be cut anywhere. -/
lemma mem_globLang_append {p q w : List α} :
    w ∈ globLang star sep (p ++ q)
      ↔ ∃ u ∈ globLang star sep p, ∃ v ∈ globLang star sep q, u ++ v = w := by
  simp only [globLang, List.map_append, List.prod_append, Language.mem_mul]

lemma mem_globLang_cons {c : α} {p w : List α} :
    w ∈ globLang star sep (c :: p)
      ↔ ∃ u ∈ letterLang star sep c, ∃ v ∈ globLang star sep p, u ++ v = w := by
  simp only [globLang, List.map_cons, List.prod_cons, Language.mem_mul]

/-- A letter that is not the wildcard stands for itself. -/
lemma mem_globLang_cons_letter {c : α} (hc : c ≠ star) {p w : List α} :
    w ∈ globLang star sep (c :: p) ↔ ∃ v ∈ globLang star sep p, c :: v = w := by
  have hlang : letterLang star sep c = {[c]} := if_neg hc
  rw [mem_globLang_cons, hlang]
  constructor
  · rintro ⟨u, hu, v, hv, rfl⟩
    rw [Set.mem_singleton_iff.mp hu]
    exact ⟨v, hv, rfl⟩
  · rintro ⟨v, hv, rfl⟩
    exact ⟨[c], rfl, v, hv, rfl⟩

/-- The wildcard stands for any word without separators. -/
lemma mem_globLang_cons_star {p w : List α} :
    w ∈ globLang star sep (star :: p)
      ↔ ∃ u v, sep ∉ u ∧ v ∈ globLang star sep p ∧ u ++ v = w := by
  have hlang : letterLang star sep star = {w | sep ∉ w} := if_pos rfl
  rw [mem_globLang_cons, hlang]
  constructor
  · rintro ⟨u, hu, v, hv, rfl⟩
    exact ⟨u, v, hu, hv, rfl⟩
  · rintro ⟨u, v, hu, hv, rfl⟩
    exact ⟨u, hu, v, hv, rfl⟩

/-- Two wildcards in a row stand for no more than one. -/
lemma globLang_star_star (p : List α) :
    globLang star sep (star :: star :: p) = globLang star sep (star :: p) := by
  ext w
  rw [mem_globLang_cons_star]
  constructor
  · rintro ⟨u, v, hu, hv, rfl⟩
    obtain ⟨u', v', hu', hv', rfl⟩ := mem_globLang_cons_star.mp hv
    refine mem_globLang_cons_star.mpr ⟨u ++ u', v', ?_, hv', by simp⟩
    simp [hu, hu']
  · intro hw
    exact ⟨[], w, by simp, hw, rfl⟩

/-- A pattern without wildcards matches itself and nothing else. -/
lemma mem_globLang_of_no_star {p : List α} (hp : star ∉ p) {w : List α} :
    w ∈ globLang star sep p ↔ w = p := by
  induction p generalizing w with
  | nil => simp
  | cons c p ih =>
      simp only [List.mem_cons, not_or] at hp
      rw [mem_globLang_cons_letter (Ne.symm hp.1)]
      constructor
      · rintro ⟨v, hv, rfl⟩
        rw [(ih hp.2).mp hv]
      · rintro rfl
        exact ⟨p, (ih hp.2).mpr rfl, rfl⟩

/-- Every pattern matches itself, its wildcards read as ordinary letters. -/
lemma self_mem_globLang (hs : star ≠ sep) (p : List α) : p ∈ globLang star sep p := by
  induction p with
  | nil => simp
  | cons c p ih =>
      by_cases hc : c = star
      · subst hc
        exact mem_globLang_cons_star.mpr ⟨[c], p, by simpa using hs.symm, ih, rfl⟩
      · exact (mem_globLang_cons_letter hc).mpr ⟨p, ih, rfl⟩

/-- A pattern cut at a separator matches words cut at a separator. -/
lemma mem_globLang_append_sep (hs : star ≠ sep) {p q w : List α} :
    w ∈ globLang star sep (p ++ sep :: q)
      ↔ ∃ u ∈ globLang star sep p, ∃ v ∈ globLang star sep q, u ++ sep :: v = w := by
  rw [mem_globLang_append]
  constructor
  · rintro ⟨u, hu, v', hv', rfl⟩
    obtain ⟨v, hv, rfl⟩ := (mem_globLang_cons_letter hs.symm).mp hv'
    exact ⟨u, hu, v, hv, rfl⟩
  · rintro ⟨u, hu, v, hv, rfl⟩
    exact ⟨u, hu, sep :: v, (mem_globLang_cons_letter hs.symm).mpr ⟨v, hv, rfl⟩, rfl⟩

variable [BEq α] [LawfulBEq α]

/-- Hence a whole run of wildcards stands for no more than one. -/
lemma globLang_star_dropWhile (p : List α) :
    globLang star sep (star :: p.dropWhile (· == star)) = globLang star sep (star :: p) := by
  induction p with
  | nil => rfl
  | cons c p ih =>
      by_cases hc : c = star
      · subst hc
        rw [List.dropWhile_cons_of_pos (by simp), ih, globLang_star_star]
      · rw [List.dropWhile_cons_of_neg (by simpa using hc)]

/-- The empty word is matched by runs of wildcards and by nothing else. -/
lemma nil_mem_globLang_iff {p : List α} :
    [] ∈ globLang star sep p ↔ p.dropWhile (· == star) = [] := by
  induction p with
  | nil => simp
  | cons c p ih =>
      by_cases hc : c = star
      · subst hc
        rw [List.dropWhile_cons_of_pos (by simp), ← ih, mem_globLang_cons_star]
        constructor
        · rintro ⟨u, v, -, hv, huv⟩
          rwa [(List.append_eq_nil_iff.mp huv).2] at hv
        · intro h
          exact ⟨[], [], by simp, h, rfl⟩
      · rw [List.dropWhile_cons_of_neg (by simpa using hc), mem_globLang_cons_letter hc]
        simp

/-! ## Run by run -/

omit [BEq α] [LawfulBEq α] in
/-- A run of wildcards stands for no more than one. -/
lemma globLang_replicate_star (n : ℕ) (p : List α) :
    globLang star sep (List.replicate (n + 1) star ++ p) = globLang star sep (star :: p) := by
  induction n with
  | zero => rfl
  | succ n ih =>
      rw [List.replicate_succ, List.cons_append, List.replicate_succ, List.cons_append,
        globLang_star_star, ← List.cons_append, ← List.replicate_succ, ih]

/-- A wildcard with the letters behind it is a maximal run with the letters behind that. -/
lemma exists_maximal_run (p : List α) :
    ∃ n q, star :: p = List.replicate (n + 1) star ++ q ∧ q.head? ≠ some star
      ∧ q.length ≤ p.length := by
  refine ⟨(p.takeWhile (· == star)).length, p.dropWhile (· == star), ?_, ?_, ?_⟩
  · have hrun : p.takeWhile (· == star) = List.replicate (p.takeWhile (· == star)).length star :=
      List.eq_replicate_of_mem fun c hc => by simpa using List.mem_takeWhile_imp hc
    rw [List.replicate_succ, ← hrun, List.cons_append, List.takeWhile_append_dropWhile]
  · intro hhead
    have hnot := List.head?_dropWhile_not (· == star) p
    rw [hhead] at hnot
    simp at hnot
  · exact (List.dropWhile_sublist _).length_le

/-- Matching run by run: each maximal run of wildcards stands for one word without separators,
and every other letter for itself. -/
inductive RunMatch (star sep : α) : List α → List α → Prop
  | nil : RunMatch star sep [] []
  | letter {c : α} {p w : List α} : c ≠ star → RunMatch star sep p w →
      RunMatch star sep (c :: p) (c :: w)
  | run {n : ℕ} {p u w : List α} : p.head? ≠ some star → sep ∉ u → RunMatch star sep p w →
      RunMatch star sep (List.replicate (n + 1) star ++ p) (u ++ w)

/-- **Matching letter by letter is matching run by run.**  Induction on the pattern's length: a
run takes several letters at once. -/
theorem runMatch_iff {p w : List α} : RunMatch star sep p w ↔ w ∈ globLang star sep p := by
  constructor
  · intro h
    induction h with
    | nil => simp
    | letter hc _ ih => exact (mem_globLang_cons_letter hc).mpr ⟨_, ih, rfl⟩
    | run _ hu _ ih =>
        rw [globLang_replicate_star]
        exact mem_globLang_cons_star.mpr ⟨_, _, hu, ih, rfl⟩
  · intro hw
    induction hn : p.length using Nat.strong_induction_on generalizing p w with
    | _ n ih =>
        cases p with
        | nil =>
            rw [mem_globLang_nil.mp hw]
            exact RunMatch.nil
        | cons c p =>
            rw [List.length_cons] at hn
            by_cases hc : c = star
            · subst hc
              obtain ⟨m, q, hrun, hmax, hlen⟩ := exists_maximal_run p
              rw [hrun, globLang_replicate_star] at hw
              obtain ⟨u, v, hu, hv, rfl⟩ := mem_globLang_cons_star.mp hw
              rw [hrun]
              exact RunMatch.run hmax hu (ih q.length (by omega) hv rfl)
            · obtain ⟨v, hv, rfl⟩ := (mem_globLang_cons_letter hc).mp hw
              exact RunMatch.letter hc (ih p.length (by omega) hv rfl)

/-! ## Counting separators -/

/-- **A match keeps the separators.**  No wildcard stands for one, so a matched word has exactly
as many as its pattern. -/
lemma count_sep_of_mem (hs : star ≠ sep) {p w : List α} (h : w ∈ globLang star sep p) :
    w.count sep = p.count sep := by
  induction p generalizing w with
  | nil => rw [mem_globLang_nil.mp h]
  | cons c p ih =>
      by_cases hc : c = star
      · subst hc
        obtain ⟨u, v, hu, hv, rfl⟩ := mem_globLang_cons_star.mp h
        rw [List.count_append, List.count_eq_zero_of_not_mem hu, ih hv, Nat.zero_add,
          List.count_cons_of_ne hs]
      · obtain ⟨v, hv, rfl⟩ := (mem_globLang_cons_letter hc).mp h
        rw [List.count_cons, List.count_cons, ih hv]

lemma sep_not_mem_of_mem (hs : star ≠ sep) {p w : List α} (hp : sep ∉ p)
    (h : w ∈ globLang star sep p) : sep ∉ w := by
  rw [← List.count_eq_zero] at hp ⊢
  rw [count_sep_of_mem hs h, hp]

/-- Two prefixes of one word that end in a separator and have as many of them are the same. -/
lemma prefix_eq_of_count {u u' y y' : List α}
    (h : u ++ sep :: y = u' ++ sep :: y') (hcount : u.count sep = u'.count sep) : u = u' := by
  induction u generalizing u' with
  | nil =>
      cases u' with
      | nil => rfl
      | cons d u' =>
          obtain ⟨rfl, -⟩ := List.cons.inj h
          simp at hcount
  | cons c u ih =>
      cases u' with
      | nil =>
          obtain ⟨rfl, -⟩ := List.cons.inj h
          simp at hcount
      | cons d u' =>
          obtain ⟨rfl, htail⟩ := List.cons.inj h
          rw [ih htail (by simpa [List.count_cons] using hcount)]

/-! ## Label by label

The labels of a word are its pieces between separators, `w.splitOn sep`.
-/

/-- Induction along the labels of a word: one label, or a label, a separator and the rest. -/
theorem label_induction (sep : α) {P : List α → Prop} (last : ∀ w, sep ∉ w → P w)
    (more : ∀ u v, sep ∉ u → P v → P (u ++ sep :: v)) (w : List α) : P w := by
  classical
  induction hn : w.length using Nat.strong_induction_on generalizing w with
  | _ n ih =>
      by_cases hmem : sep ∈ w
      · obtain ⟨u, v, rfl, hu⟩ := List.eq_append_cons_of_mem hmem
        refine more u v hu (ih v.length ?_ v rfl)
        rw [← hn, List.length_append, List.length_cons]
        omega
      · exact last w hmem

/-- A label is a piece of its word. -/
lemma label_infix {w l : List α} (h : l ∈ w.splitOn sep) : l <:+: w := by
  induction w using label_induction sep with
  | last w hw =>
      rw [List.splitOn_eq_singleton hw, List.mem_singleton] at h
      rw [h]
  | more u v hu ih =>
      rw [List.splitOn_append_cons_self_of_not_mem hu, List.mem_cons] at h
      rcases h with rfl | h
      · exact List.infix_append_left
      · exact (ih h).trans ⟨u ++ [sep], [], by simp⟩

/-- A word with a single label is that label. -/
lemma eq_of_splitOn_eq_singleton {w l : List α} (h : w.splitOn sep = [l]) : w = l := by
  have hw : [sep].intercalate (w.splitOn sep) = w := List.intercalate_splitOn sep
  rwa [h, List.intercalate_singleton, eq_comm] at hw

/-- A word whose labels fall into two non-empty parts is cut by a separator between them. -/
lemma splitOn_eq_append_iff {w : List α} {A B : List (List α)} (hA : A ≠ []) (hB : B ≠ []) :
    w.splitOn sep = A ++ B
      ↔ ∃ u v, u.splitOn sep = A ∧ v.splitOn sep = B ∧ u ++ sep :: v = w := by
  constructor
  · induction w using label_induction sep generalizing A with
    | last w hw =>
        intro h
        rw [List.splitOn_eq_singleton hw] at h
        have hlen := congrArg List.length h
        have hApos := List.length_pos_iff.mpr hA
        have hBpos := List.length_pos_iff.mpr hB
        simp only [List.length_singleton, List.length_append] at hlen
        omega
    | more u v hu ih =>
        intro h
        rw [List.splitOn_append_cons_self_of_not_mem hu] at h
        obtain ⟨l, A', rfl⟩ := List.exists_cons_of_ne_nil hA
        obtain ⟨rfl, htail⟩ := List.cons.inj h
        by_cases hA' : A' = []
        · subst hA'
          exact ⟨u, v, List.splitOn_eq_singleton hu, htail, rfl⟩
        · obtain ⟨u', v', rfl, hv', rfl⟩ := ih hA' htail
          refine ⟨u ++ sep :: u', v', ?_, hv', by simp⟩
          exact List.splitOn_append_cons_self_of_not_mem hu u'
  · rintro ⟨u, v, rfl, rfl, rfl⟩
    exact List.splitOn_append_cons_self u v

/-- **Matching a word is matching it label by label.** -/
theorem mem_globLang_iff_labels (hs : star ≠ sep) {p w : List α} :
    w ∈ globLang star sep p
      ↔ List.Forall₂ (fun l x => x ∈ globLang star sep l) (p.splitOn sep) (w.splitOn sep) := by
  induction p using label_induction sep generalizing w with
  | last p hp =>
      rw [List.splitOn_eq_singleton hp]
      constructor
      · intro hw
        rw [List.splitOn_eq_singleton (sep_not_mem_of_mem hs hp hw)]
        exact List.Forall₂.cons hw List.Forall₂.nil
      · intro h
        obtain ⟨x, xs, hx, hxs, hsplit⟩ := List.forall₂_cons_left_iff.mp h
        rw [List.forall₂_nil_left_iff] at hxs
        rw [hxs] at hsplit
        rwa [eq_of_splitOn_eq_singleton hsplit]
  | more p q hp ih =>
      rw [mem_globLang_append_sep hs, List.splitOn_append_cons_self_of_not_mem hp]
      constructor
      · rintro ⟨u, hu, v, hv, rfl⟩
        rw [List.splitOn_append_cons_self_of_not_mem (sep_not_mem_of_mem hs hp hu)]
        exact List.Forall₂.cons hu (ih.mp hv)
      · intro h
        obtain ⟨x, xs, hx, hxs, hsplit⟩ := List.forall₂_cons_left_iff.mp h
        have hne : xs ≠ [] := by
          rintro rfl
          exact List.splitOn_ne_nil sep q (List.forall₂_nil_right_iff.mp hxs)
        obtain ⟨u, v, hu, rfl, rfl⟩ :=
          (splitOn_eq_append_iff (A := [x]) (by simp) hne).mp hsplit
        obtain rfl := eq_of_splitOn_eq_singleton hu
        exact ⟨u, hx, v, ih.mpr hxs, rfl⟩

end Luan
