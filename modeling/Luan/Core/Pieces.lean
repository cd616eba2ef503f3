import Mathlib.Data.List.Basic
import Mathlib.Data.List.Induction
import Mathlib.Data.List.ReduceOption

/-!
# Pieces between separators

A text whose separators are marked: `some a` is an element of it, `none` is a separator.  Its
`pieces` are the nonempty runs of elements between the separators.

* `pieces_append` — where a division lies next to a separator, the pieces of the two parts are the
  pieces of the whole.
* `bonds_segments_append` — every other division takes apart two neighbours of one piece.
* `flatMap_eq_iff` — a function of lists that is used on the parts of a list one by one, and when
  that makes no difference.
-/

namespace Luan

variable {α β : Type}

/-! ## Pieces -/

/-- The runs between the separators, also the empty ones. -/
def segments : List (Option α) → List (List α)
  | [] => [[]]
  | none :: l => [] :: segments l
  | some a :: l => (segments l).modifyHead (a :: ·)

/-- The nonempty runs between the separators. -/
def pieces (l : List (Option α)) : List (List α) := (segments l).filter fun run => !run.isEmpty

/-- No piece goes across the cut between two parts. -/
def Apart (u v : List (Option α)) : Prop := u.getLast?.join = none ∨ v.head?.join = none

instance [DecidableEq α] (u v : List (Option α)) : Decidable (Apart u v) :=
  inferInstanceAs (Decidable (_ ∨ _))

lemma segments_eq_cons (l : List (Option α)) : ∃ run runs, segments l = run :: runs := by
  induction l with
  | nil => exact ⟨[], [], rfl⟩
  | cons x l ih =>
      obtain ⟨run, runs, hl⟩ := ih
      cases x with
      | none => exact ⟨[], segments l, rfl⟩
      | some a => exact ⟨a :: run, runs, by rw [segments, hl]; rfl⟩

lemma segments_append_none (u v : List (Option α)) :
    segments (u ++ none :: v) = segments u ++ segments v := by
  induction u with
  | nil => rfl
  | cons x u ih =>
      obtain ⟨run, runs, hu⟩ := segments_eq_cons u
      cases x with
      | none =>
          show [] :: segments (u ++ none :: v) = [] :: (segments u ++ segments v)
          rw [ih]
      | some a =>
          show (segments (u ++ none :: v)).modifyHead _ = (segments u).modifyHead _ ++ segments v
          rw [ih, hu]
          rfl

lemma flatten_pieces (l : List (Option α)) : (pieces l).flatten = l.reduceOption := by
  have hsegments : (segments l).flatten = l.reduceOption := by
    induction l with
    | nil => rfl
    | cons x l ih =>
        obtain ⟨run, runs, hl⟩ := segments_eq_cons l
        rw [hl] at ih
        cases x with
        | none =>
            rw [segments, hl, List.reduceOption_cons_of_none, ← ih]
            rfl
        | some a =>
            rw [segments, hl, List.reduceOption_cons_of_some, ← ih]
            rfl
  rw [pieces, List.flatten_filter_not_isEmpty, hsegments]

/-- The two forms of a part without an unfinished piece at its end. -/
lemma getLast?_join_eq_none {u : List (Option α)} (h : u.getLast?.join = none) :
    u = [] ∨ ∃ front, u = front ++ [none] := by
  induction u using List.reverseRecOn with
  | nil => exact .inl rfl
  | append_singleton front x =>
      rw [List.getLast?_concat] at h
      cases x with
      | none => exact .inr ⟨front, rfl⟩
      | some a => cases h

/-- **A division next to a separator keeps the pieces.** -/
lemma pieces_append {u v : List (Option α)} (h : Apart u v) :
    pieces (u ++ v) = pieces u ++ pieces v := by
  rcases h with hu | hv
  · rcases getLast?_join_eq_none hu with rfl | ⟨front, rfl⟩
    · rfl
    · rw [List.append_assoc, List.singleton_append, pieces, pieces, pieces, segments_append_none,
        segments_append_none]
      simp [segments]
  · cases v with
    | nil => simp [pieces, segments]
    | cons x v =>
        cases x with
        | none => simp [pieces, segments_append_none, segments]
        | some a => cases hv

/-! ## Neighbours in a piece -/

/-- How often two elements are neighbours in one of the runs. -/
def bonds : List (List α) → ℕ
  | [] => 0
  | run :: runs => (run.length - 1) + bonds runs

lemma bonds_append (x y : List (List α)) : bonds (x ++ y) = bonds x + bonds y := by
  induction x with
  | nil => rw [List.nil_append, bonds, Nat.zero_add]
  | cons run x ih => rw [List.cons_append, bonds, bonds, ih, Nat.add_assoc]

lemma bonds_pieces (l : List (Option α)) : bonds (pieces l) = bonds (segments l) := by
  rw [pieces]
  induction segments l with
  | nil => rfl
  | cons run runs ih =>
      cases run with
      | nil => simpa [bonds] using ih
      | cons a run => simpa [bonds] using ih

lemma bonds_segments_none (l : List (Option α)) :
    bonds (segments (none :: l)) = bonds (segments l) := by
  rw [segments, bonds, List.length_nil, Nat.zero_sub, Nat.zero_add]

/-- An element is bound to the next one, if that is no separator. -/
lemma bonds_segments_some (a : α) (l : List (Option α)) :
    bonds (segments (some a :: l))
      = bonds (segments l) + l.head?.join.isSome.toNat := by
  cases l with
  | nil => rfl
  | cons x l =>
      obtain ⟨run, runs, hl⟩ := segments_eq_cons l
      cases x with
      | none => simp [segments, bonds]
      | some b =>
          simp [segments, hl, bonds]
          omega

/-- **A division takes two neighbours apart, unless it lies next to a separator.** -/
lemma bonds_segments_append [DecidableEq α] (u v : List (Option α)) :
    bonds (segments (u ++ v))
      = bonds (segments u) + bonds (segments v) + if Apart u v then 0 else 1 := by
  induction u with
  | nil =>
      have hapart : Apart [] v := .inl rfl
      rw [if_pos hapart, List.nil_append, segments, bonds, bonds]
      simp
  | cons x u ih =>
      cases x with
      | none =>
          have hiff : Apart (none :: u) v ↔ Apart u v := by
            cases u with
            | nil => simp [Apart]
            | cons y u => rw [Apart, List.getLast?_cons_cons, Apart]
          rw [List.cons_append, bonds_segments_none, bonds_segments_none, ih]
          simp only [hiff]
      | some a =>
          rw [List.cons_append, bonds_segments_some, bonds_segments_some, ih]
          cases u with
          | nil =>
              rcases v with _ | ⟨_ | b, v⟩ <;> simp [Apart, segments, bonds]
          | cons y u =>
              have hiff : Apart (some a :: y :: u) v ↔ Apart (y :: u) v := by
                rw [Apart, List.getLast?_cons_cons, Apart]
              simp only [hiff, List.cons_append, List.head?_cons]
              omega

/-! ## Part by part -/

/-- **When a function of lists may be used part by part.**  The divisions in `Clean` make no
difference, and the others lower a measure.  Then a list may be divided exactly where the two
sides are clean of each other. -/
lemma flatMap_eq_iff {f : List α → List β} {m : List β → ℕ} {Clean : List α → List α → Prop}
    (hnil : f [] = []) (hm : ∀ x y, m (x ++ y) = m x + m y)
    (hclean : ∀ s t, Clean s t → f (s ++ t) = f s ++ f t)
    (hcut : ∀ s t, ¬ Clean s t → m (f s) + m (f t) < m (f (s ++ t)))
    (hrest : ∀ s t u, Clean (s ++ t) u → Clean t u) (parts : List (List α)) :
    parts.flatMap f = f parts.flatten
      ↔ ∀ before behind, parts = before ++ behind → Clean before.flatten behind.flatten := by
  have hle : ∀ s t, m (f s) + m (f t) ≤ m (f (s ++ t)) := by
    intro s t
    by_cases h : Clean s t
    · exact Nat.le_of_eq (by rw [hclean s t h, hm])
    · exact Nat.le_of_lt (hcut s t h)
  have hflat : ∀ parts : List (List α), m (parts.flatMap f) ≤ m (f parts.flatten) := by
    intro parts
    induction parts with
    | nil => exact Nat.le_of_eq (by rw [List.flatMap_nil, List.flatten_nil, hnil])
    | cons part parts ih =>
        rw [List.flatMap_cons, List.flatten_cons, hm]
        exact Nat.le_trans (Nat.add_le_add_left ih _) (hle part parts.flatten)
  constructor
  · rintro heq before behind rfl
    by_contra h
    have hlt := hcut _ _ h
    have hbefore := hflat before
    have hbehind := hflat behind
    rw [← List.flatten_append, ← heq, List.flatMap_append, hm] at hlt
    omega
  · intro h
    induction parts with
    | nil => exact hnil.symm
    | cons part parts ih =>
        have hfirst : Clean part parts.flatten := by
          simpa using h [part] parts rfl
        have hparts : ∀ before behind, parts = before ++ behind →
            Clean before.flatten behind.flatten := by
          rintro before behind rfl
          exact hrest part _ _ (h (part :: before) behind rfl)
        rw [List.flatMap_cons, List.flatten_cons, hclean _ _ hfirst, ih hparts]

end Luan
