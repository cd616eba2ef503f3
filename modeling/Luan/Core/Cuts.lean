import Luan.Core.Search

/-!
# Cutting a text at all occurrences of a word

`cutAll needle text` cuts the text at the leftmost occurrence of the needle, then what is behind it
at its leftmost occurrence, and so on.

* `intercalate_cutAll` — joined with the needle, the pieces are the text.
* `not_infix_of_mem_cutAll` — no piece contains the needle.
* `dropInfix?_behind_letter` — the search may skip to the next place where the needle's first letter
  stands.
-/

namespace Luan

variable {α : Type*} [BEq α] [LawfulBEq α]

/-! ## Where to look -/

/-- A text that begins with the needle. -/
lemma dropInfix?_append_left (needle v : List α) :
    (needle ++ v).dropInfix? needle = some ([], v) :=
  dropInfix?_eq_some.mpr ⟨rfl, fun u' _ _ => Nat.zero_le u'.length⟩

/-- A text shorter than the needle. -/
lemma dropInfix?_eq_none_of_length {text needle : List α} (h : text.length < needle.length) :
    text.dropInfix? needle = none := by
  rw [dropInfix?_eq_none]
  intro hinfix
  exact absurd hinfix.length_le (Nat.not_le.mpr h)

/-- A text that does not begin with the needle: the search goes on behind its first letter. -/
lemma dropInfix?_cons {a : α} {t needle : List α} (h : ¬ needle <+: a :: t) :
    (a :: t).dropInfix? needle = (t.dropInfix? needle).map fun cut => (a :: cut.1, cut.2) := by
  have hbehind : ∀ u' v', u' ++ needle ++ v' = a :: t →
      ∃ u'', u' = a :: u'' ∧ u'' ++ needle ++ v' = t := by
    intro u' v' hcut
    cases u' with
    | nil => exact absurd ⟨v', hcut⟩ h
    | cons b u' =>
        obtain ⟨rfl, hrest⟩ := List.cons.inj hcut
        exact ⟨u', rfl, hrest⟩
  cases ht : t.dropInfix? needle with
  | none =>
      rw [Option.map_none, dropInfix?_eq_none]
      rintro ⟨u', v', hcut⟩
      obtain ⟨u'', -, hrest⟩ := hbehind u' v' hcut
      exact dropInfix?_eq_none.mp ht ⟨u'', v', hrest⟩
  | some cut =>
      obtain ⟨hcut, hmin⟩ := dropInfix?_eq_some.mp ht
      refine dropInfix?_eq_some.mpr ⟨congrArg (a :: ·) hcut, fun u' v' hcut' => ?_⟩
      obtain ⟨u'', rfl, hrest⟩ := hbehind u' v' hcut'
      exact Nat.succ_le_succ (hmin u'' v' hrest)

/-- **A needle is not found before its first letter.** -/
lemma dropInfix?_behind_letter {c : α} {w t rest : List α} (hw : c ∉ w) :
    (w ++ t).dropInfix? (c :: rest)
      = (t.dropInfix? (c :: rest)).map fun cut => (w ++ cut.1, cut.2) := by
  induction w with
  | nil => simp
  | cons a w ih =>
      obtain ⟨hne, hw⟩ := not_or.mp (mt List.mem_cons.mpr hw)
      have hbegin : ¬ c :: rest <+: a :: (w ++ t) := by
        rintro ⟨v, hv⟩
        exact hne (List.cons.inj hv).1
      rw [List.cons_append, dropInfix?_cons hbegin, ih hw, Option.map_map]
      rfl

/-! ## All cuts -/

lemma length_of_dropInfix? {needle text u v : List α} (hne : needle ≠ [])
    (h : text.dropInfix? needle = some (u, v)) : v.length < text.length := by
  obtain ⟨hcut, -⟩ := dropInfix?_eq_some.mp h
  have hpos := List.length_pos_iff.mpr hne
  rw [← hcut, List.length_append, List.length_append]
  omega

/-- **The pieces of a text between the leftmost occurrences of a needle, found one behind the
other.** -/
def cutAll {α : Type*} [BEq α] [LawfulBEq α] (needle : List α) (hne : needle ≠ [])
    (text : List α) : List (List α) :=
  match _h : text.dropInfix? needle with
  | none => [text]
  | some (u, v) => u :: cutAll needle hne v
termination_by text.length
decreasing_by exact length_of_dropInfix? hne ‹_›

/-- The number of these occurrences: there is one between every two pieces. -/
def occurrences {α : Type*} [BEq α] [LawfulBEq α] (needle : List α) (hne : needle ≠ [])
    (text : List α) : ℕ :=
  (cutAll needle hne text).length - 1

variable {needle text u v : List α} {hne : needle ≠ []}

lemma cutAll_none (h : text.dropInfix? needle = none) : cutAll needle hne text = [text] := by
  rw [cutAll]
  split
  · rfl
  · rename_i hsome
    cases h.symm.trans hsome

lemma cutAll_some (h : text.dropInfix? needle = some (u, v)) :
    cutAll needle hne text = u :: cutAll needle hne v := by
  rw [cutAll]
  split
  · rename_i hnone
    cases h.symm.trans hnone
  · rename_i hsome
    obtain ⟨rfl, rfl⟩ := Prod.mk.inj (Option.some.inj (h.symm.trans hsome))
    rfl

lemma cutAll_ne_nil : cutAll needle hne text ≠ [] := by
  cases h : text.dropInfix? needle with
  | none =>
      rw [cutAll_none h]
      exact List.cons_ne_nil _ _
  | some cut =>
      rw [cutAll_some h]
      exact List.cons_ne_nil _ _

lemma occurrences_none (h : text.dropInfix? needle = none) : occurrences needle hne text = 0 := by
  rw [occurrences, cutAll_none h]
  rfl

lemma occurrences_some (h : text.dropInfix? needle = some (u, v)) :
    occurrences needle hne text = occurrences needle hne v + 1 := by
  have hpos : 0 < (cutAll needle hne v).length := List.length_pos_iff.mpr cutAll_ne_nil
  rw [occurrences, occurrences, cutAll_some h, List.length_cons]
  omega

/-- Where the needle does not begin, the first letter does not count. -/
lemma occurrences_cons {a : α} (h : ¬ needle <+: a :: text) :
    occurrences needle hne (a :: text) = occurrences needle hne text := by
  cases ht : text.dropInfix? needle with
  | none => rw [occurrences_none ht, occurrences_none (by rw [dropInfix?_cons h, ht]; rfl)]
  | some cut =>
      obtain ⟨u, v⟩ := cut
      have hmore : (a :: text).dropInfix? needle = some (a :: u, v) := by
        rw [dropInfix?_cons h, ht]
        rfl
      rw [occurrences_some ht, occurrences_some hmore]

omit [BEq α] [LawfulBEq α] in
/-- One piece more in front. -/
lemma intercalate_cons {sep piece : List α} {pieces : List (List α)} (h : pieces ≠ []) :
    sep.intercalate (piece :: pieces) = piece ++ sep ++ sep.intercalate pieces := by
  obtain ⟨next, pieces, rfl⟩ := List.exists_cons_of_ne_nil h
  simp [List.intercalate]

/-- **Joined with the needle, the pieces are the text.** -/
theorem intercalate_cutAll (needle : List α) (hne : needle ≠ []) (text : List α) :
    needle.intercalate (cutAll needle hne text) = text := by
  fun_induction cutAll needle hne text with
  | case1 text h => simp [List.intercalate]
  | case2 text u v h ih =>
      rw [intercalate_cons cutAll_ne_nil, ih]
      exact (dropInfix?_eq_some.mp h).1

/-- In front of the leftmost occurrence there is none. -/
lemma not_infix_front (hne : needle ≠ []) (h : text.dropInfix? needle = some (u, v)) :
    ¬ needle <:+: u := by
  obtain ⟨hcut, hmin⟩ := dropInfix?_eq_some.mp h
  rintro ⟨u', v', rfl⟩
  have hpos := List.length_pos_iff.mpr hne
  have hle := hmin u' (v' ++ needle ++ v) (by rw [← hcut]; simp)
  rw [List.length_append, List.length_append] at hle
  omega

/-- **No piece contains the needle.** -/
theorem not_infix_of_mem_cutAll (needle : List α) (hne : needle ≠ []) (text : List α) :
    ∀ piece ∈ cutAll needle hne text, ¬ needle <:+: piece := by
  fun_induction cutAll needle hne text with
  | case1 text h =>
      intro piece hpiece
      rw [List.mem_singleton.mp hpiece]
      exact dropInfix?_eq_none.mp h
  | case2 text u v h ih =>
      intro piece hpiece
      rcases List.mem_cons.mp hpiece with rfl | hrest
      · exact not_infix_front hne h
      · exact ih piece hrest

end Luan
