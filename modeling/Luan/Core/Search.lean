import Luan.Core.Glob
import Mathlib.Data.List.Infix
import Mathlib.Data.Nat.Find

/-!
# The first occurrence of a word

`strstr`, `Data.range(of:)` and their relatives all find the *leftmost* occurrence of a needle.
Batteries has that search as `List.dropInfix?`, which returns what stands before and behind it.
Here are the facts the development needs of it, for lawful equality.

* `dropInfix?_append_right` — the leftmost occurrence stays where it is when the text grows.
* `dropInfix?_eq_none_of_short` — and it is not seen before its last letter has arrived.
* `dropInfix?_behind_sep` — an occurrence right behind a separator is the leftmost one if the
  text before the separator has none.
-/

namespace Luan

variable {α : Type*} [BEq α] [LawfulBEq α]

/-- The search returns the leftmost cut of the text around the needle. -/
lemma dropInfix?_eq_some {hay needle u v : List α} :
    hay.dropInfix? needle = some (u, v)
      ↔ u ++ needle ++ v = hay
        ∧ ∀ u' v', u' ++ needle ++ v' = hay → u.length ≤ u'.length := by
  rw [List.dropInfix?_eq_some_iff]
  constructor
  · rintro ⟨⟨i, rfl, hi⟩, hmin⟩
    rw [eq_of_beq hi] at hmin ⊢
    exact ⟨rfl, fun u' v' h => hmin u' needle v' h.symm BEq.rfl⟩
  · rintro ⟨rfl, hmin⟩
    refine ⟨⟨needle, rfl, BEq.rfl⟩, ?_⟩
    intro u' i v' h hi
    rw [eq_of_beq hi] at h
    exact hmin u' v' h.symm

/-- The search finds something exactly when there is something to find: of all cuts around the
needle it would return the one with the shortest front. -/
lemma dropInfix?_eq_none {hay needle : List α} :
    hay.dropInfix? needle = none ↔ ¬ needle <:+: hay := by
  classical
  constructor
  · rintro hnone ⟨u, v, huv⟩
    have hex : ∃ n u' v', u' ++ needle ++ v' = hay ∧ u'.length = n := ⟨_, u, v, huv, rfl⟩
    obtain ⟨u₀, v₀, hcut, hlen⟩ := Nat.find_spec hex
    have hfound : hay.dropInfix? needle = some (u₀, v₀) := by
      refine dropInfix?_eq_some.mpr ⟨hcut, fun u' v' h => ?_⟩
      rw [hlen]
      exact Nat.find_min' hex ⟨u', v', h, rfl⟩
    simp [hnone] at hfound
  · intro hno
    cases h : hay.dropInfix? needle with
    | none => rfl
    | some r =>
        obtain ⟨hcut, -⟩ := dropInfix?_eq_some.mp h
        exact absurd ⟨r.1, r.2, hcut⟩ hno

lemma infix_of_dropInfix? {hay needle : List α} {cut : List α × List α}
    (h : hay.dropInfix? needle = some cut) : needle <:+: hay := by
  obtain ⟨hcut, -⟩ := dropInfix?_eq_some.mp h
  exact ⟨cut.1, cut.2, hcut⟩

lemma exists_dropInfix? {hay needle : List α} (h : needle <:+: hay) :
    ∃ cut, hay.dropInfix? needle = some cut := by
  rwa [← Option.isSome_iff_exists, Option.isSome_iff_ne_none, ne_eq, dropInfix?_eq_none, not_not]

/-- Searching for a single letter. -/
lemma dropInfix?_singleton {a : α} {u v : List α} (h : a ∉ u) :
    (u ++ a :: v).dropInfix? [a] = some (u, v) := by
  refine dropInfix?_eq_some.mpr ⟨by simp, fun u' v' hcut => ?_⟩
  by_contra hlt
  have hpre : u' ++ [a] <+: u := by
    refine List.prefix_of_prefix_length_le ⟨v', hcut⟩ (List.prefix_append u (a :: v)) ?_
    rw [List.length_append, List.length_singleton]
    omega
  exact h (hpre.subset (by simp))

/-! ## A text that grows -/

omit [BEq α] [LawfulBEq α] in
/-- A cut of a long text whose needle ends inside a front part is a cut of that part. -/
lemma cut_of_append {hay ext needle u v : List α} (h : u ++ needle ++ v = hay ++ ext)
    (hlen : u.length + needle.length ≤ hay.length) :
    ∃ v', u ++ needle ++ v' = hay ∧ v = v' ++ ext := by
  have hfront : u ++ needle <+: hay := by
    refine List.prefix_of_prefix_length_le ⟨v, h⟩ (List.prefix_append hay ext) ?_
    rwa [List.length_append]
  obtain ⟨v', hv'⟩ := hfront
  refine ⟨v', hv', ?_⟩
  rw [← hv', List.append_assoc (u ++ needle)] at h
  exact List.append_cancel_left h

/-- **The leftmost occurrence stays where it is when the text grows.**  An earlier one in the
longer text would end earlier too, so inside the shorter text. -/
lemma dropInfix?_append_right {hay needle u v : List α} (ext : List α)
    (h : hay.dropInfix? needle = some (u, v)) :
    (hay ++ ext).dropInfix? needle = some (u, v ++ ext) := by
  obtain ⟨hcut, hmin⟩ := dropInfix?_eq_some.mp h
  refine dropInfix?_eq_some.mpr ⟨by rw [← List.append_assoc, hcut], fun u' v' h' => ?_⟩
  by_contra hlt
  have hlen : u'.length + needle.length ≤ hay.length := by
    rw [← hcut, List.length_append, List.length_append]
    omega
  obtain ⟨v'', hcut', -⟩ := cut_of_append h' hlen
  exact hlt (hmin u' v'' hcut')

/-- **A needle is not seen before its last letter has arrived.** -/
lemma dropInfix?_eq_none_of_short {hay ext needle u v : List α}
    (h : (hay ++ ext).dropInfix? needle = some (u, v))
    (hlen : hay.length < u.length + needle.length) : hay.dropInfix? needle = none := by
  cases hs : hay.dropInfix? needle with
  | none => rfl
  | some r =>
      have hgrown := dropInfix?_append_right ext hs
      rw [h, Option.some.injEq, Prod.mk.injEq] at hgrown
      obtain ⟨hcut, -⟩ := dropInfix?_eq_some.mp hs
      rw [hgrown.1, ← hcut, List.length_append, List.length_append] at hlen
      omega

/-! ## Occurrences and separators -/

omit [BEq α] [LawfulBEq α] in
/-- A needle without separators that starts no later than a separator ends before it. -/
lemma infix_of_cut_before_sep {sep : α} {needle x y u v : List α} (hsep : sep ∉ needle)
    (h : u ++ needle ++ v = x ++ sep :: y) (hlen : u.length ≤ x.length) : needle <:+: x := by
  have hend : u.length + needle.length ≤ x.length := by
    by_contra hlong
    -- the separator would be a letter of the needle
    have hget := congrArg (fun l => l[x.length]?) h
    simp only [List.append_assoc, List.getElem?_append_right (Nat.le_refl _), Nat.sub_self,
      List.getElem?_cons_zero] at hget
    rw [List.getElem?_append_right hlen, List.getElem?_append_left (by omega)] at hget
    exact hsep (List.mem_of_getElem? hget)
  obtain ⟨v', hcut, -⟩ := cut_of_append h hend
  exact ⟨u, v', hcut⟩

/-- **An occurrence right behind a separator is the leftmost one** if there is none before it. -/
lemma dropInfix?_behind_sep {sep : α} {needle x v : List α} (hsep : sep ∉ needle)
    (hx : ¬ needle <:+: x) :
    (x ++ sep :: (needle ++ v)).dropInfix? needle = some (x ++ [sep], v) := by
  refine dropInfix?_eq_some.mpr ⟨by simp, fun u' v' h => ?_⟩
  by_contra hlt
  rw [List.length_append, List.length_singleton] at hlt
  exact hx (infix_of_cut_before_sep hsep h (by omega))

/-- A needle without separators occurs in a word only inside one of its labels. -/
lemma exists_label_of_infix {sep : α} {needle w : List α} (hsep : sep ∉ needle)
    (h : needle <:+: w) : ∃ l ∈ w.splitOn sep, needle <:+: l := by
  induction w using label_induction sep with
  | last w hw =>
      rw [List.splitOn_eq_singleton hw]
      exact ⟨w, List.mem_singleton_self w, h⟩
  | more x y hx ih =>
      rw [List.splitOn_append_cons_self_of_not_mem hx]
      obtain ⟨u, v, hcut⟩ := h
      by_cases hlen : u.length ≤ x.length
      · exact ⟨x, List.mem_cons_self, infix_of_cut_before_sep hsep hcut hlen⟩
      · have hfront : x ++ [sep] <+: u := by
          have hwhole : x ++ [sep] <+: x ++ sep :: y := ⟨y, by simp⟩
          refine List.prefix_of_prefix_length_le hwhole ?_ ?_
          · exact ⟨needle ++ v, by rw [← List.append_assoc, hcut]⟩
          · rw [List.length_append, List.length_singleton]
            omega
        obtain ⟨u', rfl⟩ := hfront
        have hy : u' ++ needle ++ v = y := by
          have hcut' : (x ++ [sep]) ++ (u' ++ needle ++ v) = (x ++ [sep]) ++ y := by
            simpa using hcut
          exact List.append_cancel_left hcut'
        obtain ⟨l, hl, hin⟩ := ih ⟨u', v, hy⟩
        exact ⟨l, List.mem_cons_of_mem x hl, hin⟩

end Luan
