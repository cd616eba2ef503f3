import Mathlib.Tactic.Common

/-!
# State machines and their runs

A program that reacts to events, one atomic step after the other.  `step` is a partial function:
it is undefined where the event cannot happen.

* `Machine.run` — the state after a list of events.
* `Machine.invariant` — what holds at the start and is kept by every step holds in every state
  that is reached.
* `Machine.Along` and `Machine.Meets` — a property of every transition of a run, and a condition
  on every event in the state it happens in.
* `Machine.invariant_of_meets` — an invariant of the runs that meet a condition.
* `Machine.along_iff_meets` — where an invariant makes a property of single transitions equivalent
  to the condition, the runs along which the property holds are exactly those that meet it.  In
  `Machine.along_iff_meets_within` the runs meet another condition anyway.
-/

namespace Luan

/-- A machine with states `σ` that is driven by events `ε`. -/
structure Machine (σ ε : Type*) where
  init : σ
  step : σ → ε → Option σ

namespace Machine

variable {σ ε : Type*} (M : Machine σ ε)

/-! ## Runs -/

/-- The state after the events, if all of them can happen. -/
def runFrom : σ → List ε → Option σ
  | s, [] => some s
  | s, e :: es =>
      match M.step s e with
      | some s' => runFrom s' es
      | none => none

/-- A run from the initial state. -/
def run (es : List ε) : Option σ := M.runFrom M.init es

/-- Every transition has the property.  A list of events stands for the run up to the first
event that cannot happen. -/
def AlongFrom (P : σ → ε → σ → Prop) : σ → List ε → Prop
  | _, [] => True
  | s, e :: es =>
      match M.step s e with
      | some s' => P s e s' ∧ AlongFrom P s' es
      | none => True

/-- Every transition of the run has the property. -/
def Along (P : σ → ε → σ → Prop) (es : List ε) : Prop := M.AlongFrom P M.init es

/-- Every event of the run meets the condition in the state in which it happens. -/
def Meets (C : σ → ε → Prop) (es : List ε) : Prop := M.Along (fun s e _ => C s e) es

variable {M} {I : σ → Prop} {C : σ → ε → Prop} {P : σ → ε → σ → Prop}

/-- A run begins with a step. -/
lemma runFrom_cons {s s' : σ} {e : ε} {es : List ε} (h : M.runFrom s (e :: es) = some s') :
    ∃ mid, M.step s e = some mid ∧ M.runFrom mid es = some s' := by
  rw [runFrom] at h
  cases hstep : M.step s e with
  | none =>
      rw [hstep] at h
      cases h
  | some mid =>
      rw [hstep] at h
      exact ⟨mid, rfl, h⟩

lemma alongFrom_cons {s mid : σ} {e : ε} {es : List ε} (hstep : M.step s e = some mid) :
    M.AlongFrom P s (e :: es) ↔ P s e mid ∧ M.AlongFrom P mid es := by
  rw [AlongFrom, hstep]

/-- A run that goes on. -/
lemma runFrom_append {es : List ε} {s s' : σ} (h : M.runFrom s es = some s') (es' : List ε) :
    M.runFrom s (es ++ es') = M.runFrom s' es' := by
  induction es generalizing s with
  | nil =>
      obtain rfl := Option.some.inj h
      rfl
  | cons e es ih =>
      obtain ⟨mid, hstep, hrun⟩ := runFrom_cons h
      rw [List.cons_append, runFrom, hstep]
      exact ih hrun

lemma run_append {es : List ε} {s : σ} (h : M.run es = some s) (es' : List ε) :
    M.run (es ++ es') = M.runFrom s es' :=
  runFrom_append h es'

/-! ## Invariants -/

/-- **An invariant of the runs that meet a condition**, from any state on.  Induction on the
events. -/
theorem runFrom_invariant_of_meets (hkeep : ∀ s e s', I s → M.step s e = some s' → C s e → I s')
    {es : List ε} {s s' : σ} (hs : I s) (hrun : M.runFrom s es = some s')
    (hmeets : M.AlongFrom (fun s e _ => C s e) s es) : I s' := by
  induction es generalizing s with
  | nil => exact Option.some.inj hrun ▸ hs
  | cons e es ih =>
      obtain ⟨mid, hstep, hrest⟩ := runFrom_cons hrun
      obtain ⟨hC, hmeets'⟩ := (alongFrom_cons hstep).mp hmeets
      exact ih (hkeep s e mid hs hstep hC) hrest hmeets'

/-- **An invariant of the runs that meet a condition.** -/
theorem invariant_of_meets (hinit : I M.init)
    (hkeep : ∀ s e s', I s → M.step s e = some s' → C s e → I s') {es : List ε} {s : σ}
    (hrun : M.run es = some s) (hmeets : M.Meets C es) : I s :=
  runFrom_invariant_of_meets hkeep hinit hrun hmeets

lemma meets_true (es : List ε) : M.Meets (fun _ _ => True) es := by
  have hgen : ∀ (es : List ε) (t : σ), M.AlongFrom (fun _ _ _ => True) t es := by
    intro es
    induction es with
    | nil => exact fun _ => trivial
    | cons e es ih =>
        intro t
        rw [AlongFrom]
        split
        · exact ⟨trivial, ih _⟩
        · trivial
  exact hgen es M.init

/-- **An invariant of all runs.** -/
theorem invariant (hinit : I M.init) (hkeep : ∀ s e s', I s → M.step s e = some s' → I s')
    {es : List ε} {s : σ} (hrun : M.run es = some s) : I s :=
  invariant_of_meets hinit (fun s e s' hs hstep _ => hkeep s e s' hs hstep) hrun (meets_true es)

/-- **What the events of a run keep up**, from any state on. -/
theorem runFrom_invariant {Q : ε → Prop}
    (hkeep : ∀ s e s', I s → Q e → M.step s e = some s' → I s') {es : List ε} {s s' : σ}
    (hs : I s) (hes : ∀ e ∈ es, Q e) (hrun : M.runFrom s es = some s') : I s' := by
  induction es generalizing s with
  | nil => exact Option.some.inj hrun ▸ hs
  | cons e es ih =>
      obtain ⟨mid, hstep, hrest⟩ := runFrom_cons hrun
      exact ih (hkeep s e mid hs (hes e List.mem_cons_self) hstep)
        (fun d hd => hes d (List.mem_cons_of_mem e hd)) hrest

/-! ## Properties of transitions -/

lemma along_mono {Q : σ → ε → σ → Prop} (h : ∀ s e s', P s e s' → Q s e s') {es : List ε}
    (halong : M.Along P es) : M.Along Q es := by
  have hgen : ∀ (es : List ε) (t : σ), M.AlongFrom P t es → M.AlongFrom Q t es := by
    intro es
    induction es with
    | nil => exact fun _ _ => trivial
    | cons e es ih =>
        intro t halong
        rw [AlongFrom] at halong ⊢
        cases hstep : M.step t e with
        | none => trivial
        | some t' =>
            rw [hstep] at halong
            exact ⟨h t e t' halong.1, ih t' halong.2⟩
  exact hgen es M.init halong

/-- **An exact condition for a property of runs** of which something else is known.  The invariant
needs the condition to be kept up; as long as all events meet it, property and condition say the
same of the next transition. -/
theorem along_iff_meets_within {W : σ → ε → Prop} (hinit : I M.init)
    (hkeep : ∀ s e s', I s → W s e → M.step s e = some s' → C s e → I s')
    (hiff : ∀ s e s', I s → W s e → M.step s e = some s' → (P s e s' ↔ C s e)) {es : List ε}
    (hwithin : M.Meets W es) : M.Along P es ↔ M.Meets C es := by
  have hgen : ∀ (es : List ε) (t : σ), I t → M.AlongFrom (fun s e _ => W s e) t es →
      (M.AlongFrom P t es ↔ M.AlongFrom (fun s e _ => C s e) t es) := by
    intro es
    induction es with
    | nil => exact fun _ _ _ => Iff.rfl
    | cons e es ih =>
        intro t ht hwithin
        rw [AlongFrom] at hwithin
        rw [AlongFrom, AlongFrom]
        cases hstep : M.step t e with
        | none => exact Iff.rfl
        | some t' =>
            rw [hstep] at hwithin
            have hsame := hiff t e t' ht hwithin.1 hstep
            have hnext := fun hC => ih t' (hkeep t e t' ht hwithin.1 hstep hC) hwithin.2
            constructor
            · rintro ⟨hP, halong⟩
              have hC := hsame.mp hP
              exact ⟨hC, (hnext hC).mp halong⟩
            · rintro ⟨hC, hmeets⟩
              exact ⟨hsame.mpr hC, (hnext hC).mpr hmeets⟩
  exact hgen es M.init hinit hwithin

/-- **An exact condition for a property of runs.** -/
theorem along_iff_meets (hinit : I M.init)
    (hkeep : ∀ s e s', I s → M.step s e = some s' → C s e → I s')
    (hiff : ∀ s e s', I s → M.step s e = some s' → (P s e s' ↔ C s e)) (es : List ε) :
    M.Along P es ↔ M.Meets C es :=
  along_iff_meets_within hinit (fun s e s' hs _ hstep hC => hkeep s e s' hs hstep hC)
    (fun s e s' hs _ hstep => hiff s e s' hs hstep) (meets_true es)

/-- A property that the invariant and the condition give for each transition. -/
theorem along_of_meets (hinit : I M.init)
    (hkeep : ∀ s e s', I s → M.step s e = some s' → C s e → I s')
    (hstep : ∀ s e s', I s → M.step s e = some s' → C s e → P s e s') {es : List ε}
    (hmeets : M.Meets C es) : M.Along P es := by
  have hboth := (along_iff_meets (P := fun s e s' => C s e ∧ P s e s') hinit hkeep
    (fun s e s' hs hse => ⟨fun h => h.1, fun h => ⟨h, hstep s e s' hs hse h⟩⟩) es).mpr hmeets
  exact along_mono (fun _ _ _ h => h.2) hboth

/-- The rest of a run along which a property holds. -/
lemma alongFrom_of_append {es es' : List ε} {s : σ} (halong : M.Along P (es ++ es'))
    (hrun : M.run es = some s) : M.AlongFrom P s es' := by
  have hgen : ∀ (es : List ε) (t : σ), M.AlongFrom P t (es ++ es') →
      M.runFrom t es = some s → M.AlongFrom P s es' := by
    intro es
    induction es with
    | nil =>
        intro t halong hrun
        obtain rfl := Option.some.inj hrun
        exact halong
    | cons d es ih =>
        intro t halong hrun
        obtain ⟨t', hd, hrest⟩ := runFrom_cons hrun
        exact ih t' ((alongFrom_cons hd).mp halong).2 hrest
  exact hgen es M.init halong hrun

/-- **What a property along runs says**: it holds of each transition that a run takes. -/
theorem along_concat {es : List ε} {e : ε} {s s' : σ} (halong : M.Along P (es ++ [e]))
    (hrun : M.run es = some s) (hstep : M.step s e = some s') : P s e s' :=
  ((alongFrom_cons hstep).mp (alongFrom_of_append halong hrun)).1

end Machine

end Luan
