import Luan.Core.Glob
import Mathlib.Data.List.Infix

/-!
# Inclusion of wildcard languages

When does one pattern match everything that another one matches?  The letters of a pattern, its
wildcards left out, are the shortest word that it matches, and they are in order in every word that
it matches.  So a pattern with the larger language has fewer letters, or the same
(`letters_sublist_of_le`).

If it has the same letters, it has all the wildcards of the other pattern and possibly more
(`sublist_of_le`).  For that a wildcard is made to stand for one letter that differs from both
neighbours: the larger language can only match the word with a wildcard in the same place.
-/

namespace Luan

variable {α : Type*} [DecidableEq α] {star sep : α}

/-! ## Letters -/

/-- A pattern without its wildcards. -/
def letters (star : α) (p : List α) : List α := p.filter (· ≠ star)

@[simp] lemma letters_nil : letters star [] = [] := rfl

@[simp] lemma letters_cons_star (p : List α) : letters star (star :: p) = letters star p := by
  simp [letters]

lemma letters_cons_of_ne {c : α} (hc : c ≠ star) (p : List α) :
    letters star (c :: p) = c :: letters star p := by
  simp [letters, hc]

@[simp] lemma letters_append (p q : List α) :
    letters star (p ++ q) = letters star p ++ letters star q :=
  List.filter_append ..

lemma length_letters_add_count (star : α) (p : List α) :
    (letters star p).length + p.count star = p.length := by
  induction p with
  | nil => rfl
  | cons c p ih =>
      by_cases hc : c = star
      · subst hc
        rw [letters_cons_star, List.count_cons_self, List.length_cons]
        omega
      · rw [letters_cons_of_ne hc, List.count_cons_of_ne hc, List.length_cons, List.length_cons]
        omega

/-- With every wildcard empty. -/
lemma letters_mem (p : List α) : letters star p ∈ globLang star sep p := by
  induction p with
  | nil => simp
  | cons c p ih =>
      by_cases hc : c = star
      · subst hc
        rw [letters_cons_star]
        exact mem_globLang_cons_star.mpr ⟨[], _, by simp, ih, rfl⟩
      · rw [letters_cons_of_ne hc]
        exact (mem_globLang_cons_letter hc).mpr ⟨_, ih, rfl⟩

/-- With every wildcard empty but one. -/
lemma insert_mem {c : α} (hc : c ≠ sep) (p q : List α) :
    letters star p ++ c :: letters star q ∈ globLang star sep (p ++ star :: q) := by
  refine mem_globLang_append.mpr ⟨_, letters_mem p, _, ?_, rfl⟩
  exact mem_globLang_cons_star.mpr ⟨[c], _, by simpa using hc.symm, letters_mem q, rfl⟩

/-- The letters of a pattern are in every word that it matches. -/
lemma letters_sublist {p w : List α} (h : w ∈ globLang star sep p) :
    (letters star p).Sublist w := by
  induction p generalizing w with
  | nil => exact List.nil_sublist w
  | cons c p ih =>
      by_cases hc : c = star
      · subst hc
        obtain ⟨u, v, -, hv, rfl⟩ := mem_globLang_cons_star.mp h
        rw [letters_cons_star]
        exact (ih hv).trans (List.sublist_append_right u v)
      · obtain ⟨v, hv, rfl⟩ := (mem_globLang_cons_letter hc).mp h
        rw [letters_cons_of_ne hc]
        exact (ih hv).cons_cons c

/-- A matched word with one letter too many has it in the place of a wildcard. -/
lemma exists_place {p w : List α} (h : w ∈ globLang star sep p)
    (hlen : w.length = (letters star p).length + 1) :
    ∃ p₁ d p₂, p = p₁ ++ star :: p₂ ∧ w = letters star p₁ ++ d :: letters star p₂ := by
  induction p generalizing w with
  | nil =>
      rw [mem_globLang_nil.mp h] at hlen
      simp at hlen
  | cons c p ih =>
      by_cases hc : c = star
      · subst hc
        obtain ⟨u, v, -, hv, rfl⟩ := mem_globLang_cons_star.mp h
        rw [letters_cons_star] at hlen
        have hle := (letters_sublist hv).length_le
        rw [List.length_append] at hlen
        cases u with
        | nil =>
            rw [List.length_nil, Nat.zero_add] at hlen
            obtain ⟨p₁, d, p₂, rfl, rfl⟩ := ih hv hlen
            exact ⟨c :: p₁, d, p₂, rfl, by simp⟩
        | cons d u =>
            rw [List.length_cons] at hlen
            obtain rfl : u = [] := List.length_eq_zero_iff.mp (by omega)
            rw [← (letters_sublist hv).eq_of_length (by simp at hlen; omega)]
            exact ⟨[], d, p, rfl, rfl⟩
      · obtain ⟨v, hv, rfl⟩ := (mem_globLang_cons_letter hc).mp h
        rw [letters_cons_of_ne hc, List.length_cons, List.length_cons] at hlen
        obtain ⟨p₁, d, p₂, rfl, rfl⟩ := ih hv (by omega)
        exact ⟨c :: p₁, d, p₂, rfl, by rw [letters_cons_of_ne hc, List.cons_append]⟩

/-! ## Inclusion -/

/-- **The larger language has the fewer letters.** -/
lemma letters_sublist_of_le {p q : List α}
    (h : ∀ w ∈ globLang star sep p, w ∈ globLang star sep q) :
    (letters star q).Sublist (letters star p) :=
  letters_sublist (h _ (letters_mem p))

omit [DecidableEq α] in
/-- A letter that differs from its neighbours was inserted in one place only. -/
lemma insert_place_unique {c d : α} {u v u' v' : List α} (h : u ++ c :: v = u' ++ d :: v')
    (hrest : u ++ v = u' ++ v') (hu : u.getLast? ≠ some c) (hv : v.head? ≠ some c) : u = u' := by
  rcases List.append_eq_append_iff.mp hrest with ⟨a, rfl, rfl⟩ | ⟨a, rfl, rfl⟩
  · cases a with
    | nil => rw [List.append_nil]
    | cons x a =>
        rw [List.append_assoc, List.append_cancel_left_eq, List.cons_append] at h
        exact absurd (congrArg some (List.cons.inj h).1.symm) hv
  · rw [List.append_assoc, List.append_cancel_left_eq, List.append_cons, ← List.cons_append] at h
    have hshift := List.append_cancel_right h
    cases a with
    | nil => rw [List.append_nil]
    | cons x a =>
        have hlast := congrArg List.getLast? hshift
        rw [List.getLast?_append_cons, List.getLast?_cons_cons] at hlast
        rw [List.getLast?_append_cons] at hu
        exact absurd hlast.symm hu

/-- There is always a letter besides any two and the separator. -/
def HasRoom (sep : α) : Prop := ∀ a b : α, ∃ c, c ≠ a ∧ c ≠ b ∧ c ≠ sep

omit [DecidableEq α] in
lemma HasRoom.exists_between (hroom : HasRoom sep) (u v : List α) :
    ∃ c, u.getLast? ≠ some c ∧ v.head? ≠ some c ∧ c ≠ sep := by
  obtain ⟨c, ha, hb, hsep⟩ := hroom (u.getLast?.getD sep) (v.head?.getD sep)
  refine ⟨c, fun h => ha ?_, fun h => hb ?_, hsep⟩
  · rw [h, Option.getD_some]
  · rw [h, Option.getD_some]

/-- Behind the same letters as in `p`, the pattern `q` has all the wildcards of `p`. -/
def StarsWithin (star : α) (p q : List α) : Prop :=
  ∀ p₁ p₂, p = p₁ ++ star :: p₂ →
    ∃ q₁ q₂, q = q₁ ++ star :: q₂ ∧ letters star q₁ = letters star p₁

/-- With the same letters, the larger language has a wildcard wherever the smaller one has. -/
lemma starsWithin_of_le (hroom : HasRoom sep) {p q : List α}
    (h : ∀ w ∈ globLang star sep p, w ∈ globLang star sep q)
    (hletters : letters star p = letters star q) : StarsWithin star p q := by
  rintro p₁ p₂ rfl
  obtain ⟨c, hlast, hhead, hsep⟩ := hroom.exists_between (letters star p₁) (letters star p₂)
  have hmem := h _ (insert_mem hsep p₁ p₂)
  rw [letters_append, letters_cons_star] at hletters
  obtain ⟨q₁, d, q₂, rfl, hw⟩ := exists_place hmem (by
    rw [← hletters]
    simp [Nat.add_assoc])
  rw [letters_append, letters_cons_star] at hletters
  exact ⟨q₁, q₂, rfl, (insert_place_unique hw hletters hlast hhead).symm⟩

/-- Wildcards in front of the first letter. -/
lemma StarsWithin.exists_cons {p q : List α} (h : StarsWithin star (star :: p) q) :
    ∃ q', q = star :: q' := by
  obtain ⟨q₁, q₂, rfl, hq₁⟩ := h [] p rfl
  cases q₁ with
  | nil => exact ⟨q₂, rfl⟩
  | cons x q₁ =>
      by_cases hx : x = star
      · exact ⟨q₁ ++ star :: q₂, by rw [hx, List.cons_append]⟩
      · rw [letters_cons_of_ne hx] at hq₁
        cases hq₁

lemma StarsWithin.tail_star {p q : List α} (hruns : ¬ [star, star] <:+: star :: p)
    (h : StarsWithin star (star :: p) (star :: q)) : StarsWithin star p q := by
  rintro p₁ p₂ rfl
  obtain ⟨q₁, q₂, hq, hq₁⟩ := h (star :: p₁) p₂ rfl
  rw [letters_cons_star] at hq₁
  cases q₁ with
  | nil =>
      -- then `p` starts with a wildcard, and the pattern with two
      cases p₁ with
      | nil => exact absurd ⟨[], p₂, rfl⟩ hruns
      | cons x p₁ =>
          by_cases hx : x = star
          · subst hx
            exact absurd ⟨[], p₁ ++ x :: p₂, rfl⟩ hruns
          · rw [letters_cons_of_ne hx] at hq₁
            cases hq₁
  | cons x q₁ =>
      obtain ⟨rfl, rfl⟩ := List.cons.inj hq
      rw [letters_cons_star] at hq₁
      exact ⟨q₁, q₂, rfl, hq₁⟩

/-- A wildcard in front of a letter is of no use to a pattern that starts with the letter. -/
lemma StarsWithin.drop_star {c : α} (hc : c ≠ star) {p q : List α}
    (h : StarsWithin star (c :: p) (star :: q)) : StarsWithin star (c :: p) q := by
  intro p₁ p₂ hp
  obtain ⟨q₁, q₂, hq, hq₁⟩ := h p₁ p₂ hp
  cases p₁ with
  | nil => exact absurd (List.cons.inj hp).1 hc
  | cons x p₁ =>
      obtain ⟨rfl, -⟩ := List.cons.inj hp
      cases q₁ with
      | nil =>
          rw [letters_cons_of_ne hc] at hq₁
          cases hq₁
      | cons y q₁ =>
          obtain ⟨rfl, rfl⟩ := List.cons.inj hq
          rw [letters_cons_star] at hq₁
          exact ⟨q₁, q₂, rfl, hq₁⟩

lemma StarsWithin.tail_letter {c : α} (hc : c ≠ star) {p q : List α}
    (h : StarsWithin star (c :: p) (c :: q)) : StarsWithin star p q := by
  rintro p₁ p₂ rfl
  obtain ⟨q₁, q₂, hq, hq₁⟩ := h (c :: p₁) p₂ rfl
  cases q₁ with
  | nil => exact absurd (List.cons.inj hq).1 hc
  | cons x q₁ =>
      obtain ⟨rfl, rfl⟩ := List.cons.inj hq
      rw [letters_cons_of_ne hc, letters_cons_of_ne hc] at hq₁
      exact ⟨q₁, q₂, rfl, (List.cons.inj hq₁).2⟩

/-- A pattern without runs of wildcards is contained in every pattern with the same letters that
has a wildcard wherever it has one.  Induction on the smaller pattern: in front of a letter, the
larger pattern may have wildcards that it has not. -/
lemma StarsWithin.sublist {p q : List α} (hruns : ¬ [star, star] <:+: p)
    (hletters : letters star p = letters star q) (h : StarsWithin star p q) : p.Sublist q := by
  induction p generalizing q with
  | nil => exact List.nil_sublist q
  | cons c p ih =>
      have htail : ¬ [star, star] <:+: p := fun hin =>
        hruns (List.infix_cons_iff.mpr (Or.inr hin))
      by_cases hc : c = star
      · subst hc
        obtain ⟨q, rfl⟩ := h.exists_cons
        rw [letters_cons_star, letters_cons_star] at hletters
        exact (ih htail hletters (h.tail_star hruns)).cons_cons c
      · induction q with
        | nil =>
            rw [letters_cons_of_ne hc] at hletters
            cases hletters
        | cons d q ihq =>
            by_cases hd : d = star
            · subst hd
              rw [letters_cons_star] at hletters
              exact (ihq hletters (h.drop_star hc)).cons d
            · rw [letters_cons_of_ne hc, letters_cons_of_ne hd] at hletters
              obtain ⟨rfl, hrest⟩ := List.cons.inj hletters
              exact (ih htail hrest (h.tail_letter hc)).cons_cons c

/-- **Of two patterns with the same letters, the larger language has the more wildcards**, unless
the patterns are the same. -/
theorem eq_of_le_of_count_le (hroom : HasRoom sep) {p q : List α}
    (hruns : ¬ [star, star] <:+: p) (h : ∀ w ∈ globLang star sep p, w ∈ globLang star sep q)
    (hletters : (letters star p).length ≤ (letters star q).length)
    (hcount : q.count star ≤ p.count star) : p = q := by
  have heq : letters star q = letters star p := (letters_sublist_of_le h).eq_of_length_le hletters
  have hsub := (starsWithin_of_le hroom h heq.symm).sublist hruns heq.symm
  refine hsub.eq_of_length_le ?_
  rw [← length_letters_add_count star p, ← length_letters_add_count star q, heq]
  omega

end Luan
