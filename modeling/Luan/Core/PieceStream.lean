import Mathlib.Data.List.Basic

/-!
# Sources that emit a stream in pieces

A source is asked for the next piece of its stream and told how much room there is.  How much of
the room it uses is up to the source, so that the same stream can arrive in many ways.

`Emits pull s stream` says that a source in state `s` emits the rest `stream`: every piece is the
beginning of what is still to come and fits the room, the last piece ends the stream, and a last
piece comes.  The definition is inductive, so that a loop that asks for pieces until the last one
is an induction on it.
-/

namespace Luan

/-- An answer of a source. -/
structure Pulled (σ α : Type*) where
  next : σ
  piece : List α
  /-- There are no pieces behind this one. -/
  last : Bool

variable {σ α : Type*}

/-- **A source that emits a stream**, whatever room it is given; `pull` is `none` where it fails. -/
inductive Emits (pull : σ → ℕ → Option (Pulled σ α)) : σ → List α → Prop
  | intro {s : σ} {stream : List α}
      (answers : ∀ room, 0 < room → (pull s room).isSome)
      (fits : ∀ room r, 0 < room → pull s room = some r → r.piece.length ≤ room)
      (inOrder : ∀ room r, 0 < room → pull s room = some r → r.piece <+: stream)
      (ends : ∀ room r, 0 < room → pull s room = some r → r.last = true → r.piece = stream)
      (goesOn : ∀ room r, 0 < room → pull s room = some r → r.last = false →
        Emits pull r.next (stream.drop r.piece.length)) : Emits pull s stream

/-- **A source that always fills the room emits what it has left.**  Strong induction on the length
of that. -/
lemma Emits.of_fills {pull : σ → ℕ → Option (Pulled σ α)} {I : σ → Prop} (left : σ → List α)
    (hpull : ∀ s room, I s → 0 < room → ∃ next,
      pull s room = some ⟨next, (left s).take room, decide ((left s).length ≤ room)⟩
        ∧ I next ∧ left next = (left s).drop room) {s : σ} (hs : I s) :
    Emits pull s (left s) := by
  induction hlength : (left s).length using Nat.strongRecOn generalizing s with
  | ind n ih =>
      have hanswer : ∀ room r, 0 < room → pull s room = some r → ∃ next,
          r = ⟨next, (left s).take room, decide ((left s).length ≤ room)⟩
            ∧ I next ∧ left next = (left s).drop room := by
        intro room r hroom hr
        obtain ⟨next, hnext, hI, hleft⟩ := hpull s room hs hroom
        exact ⟨next, Option.some.inj (hr.symm.trans hnext), hI, hleft⟩
      refine Emits.intro (fun room hroom => ?_) ?_ ?_ ?_ ?_
      · obtain ⟨next, hnext, -⟩ := hpull s room hs hroom
        rw [hnext]
        rfl
      · intro room r hroom hr
        obtain ⟨next, rfl, -⟩ := hanswer room r hroom hr
        exact List.length_take_le room (left s)
      · intro room r hroom hr
        obtain ⟨next, rfl, -⟩ := hanswer room r hroom hr
        exact List.take_prefix room (left s)
      · intro room r hroom hr hlast
        obtain ⟨next, rfl, -⟩ := hanswer room r hroom hr
        exact List.take_of_length_le (of_decide_eq_true hlast)
      · intro room r hroom hr hmore
        obtain ⟨next, rfl, hI, hleft⟩ := hanswer room r hroom hr
        have hlong : room < (left s).length := Nat.not_le.mp (of_decide_eq_false hmore)
        have hpiece : ((left s).take room).length = room :=
          List.length_take_of_le (Nat.le_of_lt hlong)
        show Emits pull next ((left s).drop ((left s).take room).length)
        rw [hpiece, ← hleft]
        refine ih (left next).length ?_ hI rfl
        rw [hleft, List.length_drop]
        omega

end Luan
