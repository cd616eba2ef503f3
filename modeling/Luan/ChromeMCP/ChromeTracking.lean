import Luan.ChromeMCP.Manager

/-!
# The Chrome processes of the manager

`ensureChrome` looks whether the debug port answers and, if it does not, spawns a Chrome and stores
it.  Between the look and the spawn, and all through the poll loop, other calls may do the same.

A Chrome counts as still running until it has exited or has been sent the SIGTERM on which it
exits.

* `TrackInv` — every Chrome still running is the one that is stored.
* `chrome_tracked_iff` — that is so in exactly the runs in which no call spawns a Chrome while the
  stored one is still running (`SpawnsAlone`).
* `two_callers_two_chromes` — two calls that both find the port silent.
-/

namespace Luan

open NativeChromeMCP

/-! ## The contract -/

/-- The Chrome has neither exited nor been told to. -/
def StillRunning (s : NativeChromeMCP) (p : ℕ) : Prop :=
  ∃ x, s.processes p = some x ∧ x.exited = false ∧ x.terminated = false

/-- **The manager knows its Chrome**: there is at most one, it is stored, and `stop` ends it. -/
structure ChromeTracked (s : NativeChromeMCP) : Prop where
  unique : ∀ p q, StillRunning s p → StillRunning s q → p = q
  stored : ∀ p, StillRunning s p → s.chromeProcess = some p
  stopped : ∀ p, ¬ StillRunning (s.stop true) p

/-- **A call spawns a Chrome only if the stored one, if any, is no longer running.** -/
def SpawnsAlone (s : NativeChromeMCP) : MCPEvent → Prop
  | .probed _ .launched => ∀ p, s.chromeProcess = some p → ¬ StillRunning s p
  | _ => True

/-! ## The invariant -/

/-- What holds as long as Chromes are spawned one at a time. -/
structure TrackInv (s : NativeChromeMCP) : Prop where
  stored : ∀ p, StillRunning s p → s.chromeProcess = some p
  spawned_lt : ∀ p x, s.processes p = some x → p < s.nextProcess

/-- No Chrome has been spawned and none has come back to life. -/
lemma TrackInv.of_le {s s' : NativeChromeMCP} (hs : TrackInv s)
    (hrunning : ∀ p, StillRunning s' p → StillRunning s p)
    (hstored : ∀ p, s.chromeProcess = some p → StillRunning s' p → s'.chromeProcess = some p)
    (hspawned : ∀ p x', s'.processes p = some x' → ∃ x, s.processes p = some x)
    (hnext : s'.nextProcess = s.nextProcess) : TrackInv s' where
  stored p hp := hstored p (hs.stored p (hrunning p hp)) hp
  spawned_lt p x' hx' := by
    obtain ⟨x, hx⟩ := hspawned p x' hx'
    exact hnext ▸ hs.spawned_lt p x hx

/-- Steps that leave the processes alone. -/
lemma TrackInv.congr {s s' : NativeChromeMCP} (hs : TrackInv s)
    (hchrome : s'.chromeProcess = s.chromeProcess) (hprocesses : s'.processes = s.processes)
    (hnext : s'.nextProcess = s.nextProcess) : TrackInv s' := by
  have hrunning : ∀ p, StillRunning s' p ↔ StillRunning s p := by
    intro p
    rw [StillRunning, StillRunning, hprocesses]
  exact hs.of_le (fun p => (hrunning p).mp) (fun p hp _ => hchrome ▸ hp)
    (fun p x' hx' => ⟨x', hprocesses ▸ hx'⟩) hnext

lemma StillRunning.isProcRunning {s : NativeChromeMCP} {p : ℕ} (hp : StillRunning s p) :
    s.isProcRunning p = true := by
  obtain ⟨x, hx, hexited, -⟩ := hp
  simp [NativeChromeMCP.isProcRunning, hx, hexited]

/-! ## Stopping -/

/-- After SIGTERM the stored Chrome does not count as running, and the others are as before. -/
lemma stillRunning_terminateChrome {s : NativeChromeMCP} {p : ℕ} :
    StillRunning s.terminateChrome p ↔ StillRunning s p ∧ s.chromeProcess ≠ some p := by
  simp only [terminateChrome]
  split
  · rename_i hnone
    simp [hnone]
  · rename_i q hq
    split_ifs with hrunning
    · constructor
      · rintro ⟨x, hx, hexited, hterminated⟩
        by_cases hpq : p = q
        · subst hpq
          simp only [Function.update_self, Option.map_eq_some_iff] at hx
          obtain ⟨y, -, rfl⟩ := hx
          cases hterminated
        · simp only [Function.update_of_ne hpq] at hx
          exact ⟨⟨x, hx, hexited, hterminated⟩, by simpa [hq] using Ne.symm hpq⟩
      · rintro ⟨⟨x, hx, hexited, hterminated⟩, hne⟩
        have hpq : p ≠ q := by
          rintro rfl
          exact hne hq
        exact ⟨x, by simpa [Function.update_of_ne hpq] using hx, hexited, hterminated⟩
    · constructor
      · intro hp
        refine ⟨hp, fun heq => ?_⟩
        obtain rfl := Option.some.inj (hq.symm.trans heq)
        exact hrunning (StillRunning.isProcRunning (s := s) hp)
      · rintro ⟨hp, -⟩
        exact hp

lemma stillRunning_stop {s : NativeChromeMCP} {p : ℕ} (killChrome : Bool) :
    StillRunning (s.stop killChrome) p
      ↔ StillRunning s p ∧ (killChrome = true → s.chromeProcess ≠ some p) := by
  have hcancel : s.cancelListener.processes = s.processes
      ∧ s.cancelListener.chromeProcess = s.chromeProcess := by
    simp only [cancelListener]
    split <;> exact ⟨rfl, rfl⟩
  rw [NativeChromeMCP.stop]
  dsimp only
  split_ifs with hkill
  · rw [stillRunning_terminateChrome, StillRunning, StillRunning]
    simp only [hcancel.1, hcancel.2, hkill, forall_const]
  · rw [StillRunning, StillRunning]
    simp only [hcancel.1, hkill]
    simp

lemma TrackInv.tracked {s : NativeChromeMCP} (hs : TrackInv s) : ChromeTracked s where
  unique p q hp hq := Option.some.inj ((hs.stored p hp).symm.trans (hs.stored q hq))
  stored := hs.stored
  stopped p hp := by
    obtain ⟨hrunning, hother⟩ := (stillRunning_stop true).mp hp
    exact hother rfl (hs.stored p hrunning)

/-- Terminating keeps what is known. -/
lemma TrackInv.terminateChrome {s : NativeChromeMCP} (hs : TrackInv s) :
    TrackInv s.terminateChrome := by
  refine hs.of_le (fun p hp => (stillRunning_terminateChrome.mp hp).1) (fun p hp hp' => ?_)
    (fun p x' hx' => ?_) ?_
  · exact absurd hp (stillRunning_terminateChrome.mp hp').2
  · simp only [NativeChromeMCP.terminateChrome] at hx'
    split at hx'
    · exact ⟨x', hx'⟩
    · rename_i q _
      split_ifs at hx'
      · by_cases hpq : p = q
        · subst hpq
          simp only [Function.update_self, Option.map_eq_some_iff] at hx'
          obtain ⟨x, hx, -⟩ := hx'
          exact ⟨x, hx⟩
        · exact ⟨x', by simpa [Function.update_of_ne hpq] using hx'⟩
      · exact ⟨x', hx'⟩
  · simp only [NativeChromeMCP.terminateChrome]
    split
    · rfl
    · split_ifs <;> rfl

lemma TrackInv.stop {s : NativeChromeMCP} (hs : TrackInv s) (killChrome : Bool) :
    TrackInv (s.stop killChrome) := by
  have hbare : TrackInv
      { s.cancelListener with listener := none, isRunning := false, currentPort := 0 } := by
    refine hs.congr ?_ ?_ ?_ <;>
      · dsimp only [cancelListener]
        split <;> rfl
  rw [NativeChromeMCP.stop]
  dsimp only
  split_ifs
  · exact hbare.terminateChrome
  · exact hbare

/-! ## Steps -/

/-- A new Chrome, and no other one still running. -/
lemma TrackInv.spawn {s : NativeChromeMCP} (hs : TrackInv s)
    (halone : ∀ p, s.chromeProcess = some p → ¬ StillRunning s p) : TrackInv s.spawn where
  stored p hp := by
    by_cases hnew : p = s.nextProcess
    · exact hnew ▸ rfl
    · obtain ⟨x, hx, hrunning⟩ := hp
      rw [NativeChromeMCP.spawn] at hx
      simp only [Function.update_of_ne hnew] at hx
      have hp : StillRunning s p := ⟨x, hx, hrunning⟩
      exact absurd hp (halone p (hs.stored p hp))
  spawned_lt p x hx := by
    by_cases hnew : p = s.nextProcess
    · exact hnew ▸ Nat.lt_succ_self _
    · rw [NativeChromeMCP.spawn] at hx
      simp only [Function.update_of_ne hnew] at hx
      exact Nat.lt_succ_of_lt (hs.spawned_lt p x hx)

/-- A process is over. -/
lemma TrackInv.setProc {s : NativeChromeMCP} (hs : TrackInv s) {p : ℕ} {x y : ChromeProc}
    (hx : s.processes p = some x) (hy : y.exited = true) : TrackInv (s.setProc p y) := by
  have hother : ∀ {q z}, (s.setProc p y).processes q = some z → z.exited = false →
      s.processes q = some z := by
    intro q z hz hexited
    by_cases hq : q = p
    · subst hq
      simp only [NativeChromeMCP.setProc, Function.update_self, Option.some.injEq] at hz
      rw [← hz, hy] at hexited
      cases hexited
    · simpa [NativeChromeMCP.setProc, Function.update_of_ne hq] using hz
  refine hs.of_le (fun q => ?_) (fun q hq _ => hq) (fun q z hz => ?_) rfl
  · rintro ⟨z, hz, hexited, hterminated⟩
    exact ⟨z, hother hz hexited, hexited, hterminated⟩
  · by_cases hq : q = p
    · exact ⟨x, hq ▸ hx⟩
    · exact ⟨z, by simpa [NativeChromeMCP.setProc, Function.update_of_ne hq] using hz⟩

/-- The handler of a Chrome that has exited forgets no Chrome still running. -/
lemma TrackInv.chromeExited {s : NativeChromeMCP} (hs : TrackInv s) {p : ℕ} {x : ChromeProc}
    (hx : s.processes p = some x) (hexited : x.exited = true) : TrackInv (s.chromeExited p) := by
  simp only [NativeChromeMCP.chromeExited]
  split_ifs with hp
  · refine hs.of_le (fun q hq => hq) (fun q hq hrunning => ?_) (fun q z hz => ⟨z, hz⟩) rfl
    obtain rfl := Option.some.inj (hp.symm.trans hq)
    obtain ⟨z, hz, hno, -⟩ := hrunning
    obtain rfl := Option.some.inj (hx.symm.trans hz)
    rw [hexited] at hno
    cases hno
  · exact hs

lemma TrackInv.start {s : NativeChromeMCP} (hs : TrackInv s) (port : Int) (token : String)
    (outcome : CreateOutcome) : TrackInv (s.start port token outcome) := by
  have hends := s.start_ends port token outcome
  generalize s.start port token outcome = s' at hends ⊢
  cases hends with
  | noToken => exact hs.congr rfl rfl rfl
  | same => exact hs
  | failed | installed => exact (hs.stop false).congr rfl rfl rfl

/-- **Chromes spawned one at a time are known.** -/
lemma TrackInv.step {s s' : NativeChromeMCP} {e : MCPEvent} (hs : TrackInv s)
    (h : s.step e = some s') (halone : SpawnsAlone s e) : TrackInv s' := by
  cases step_reaction h with
  | start => exact hs.start _ _ _
  | stop => exact hs.stop _
  | notify | ensureChrome => exact hs.congr rfl rfl rfl
  | deliver =>
      refine hs.congr ?_ ?_ ?_ <;>
        · dsimp only [listenerStateChanged]
          split <;> rfl
  | @probed c outcome =>
      cases outcome with
      | launched => exact (hs.spawn halone).congr rfl rfl rfl
      | _ => exact hs.congr rfl rfl rfl
  | polled =>
      refine hs.congr ?_ ?_ ?_ <;>
        · dsimp only [NativeChromeMCP.polled]
          split_ifs <;> rfl
  | exited hp => exact hs.setProc hp rfl
  | @exitHandled p terminated hp =>
      have hset := hs.setProc (y := ⟨terminated, true, true⟩) hp rfl
      exact hset.chromeExited (Function.update_self _ _ _) rfl

/-- A second Chrome next to one that is still running is one too many. -/
lemma TrackInv.spawnsAlone_of_tracked {s s' : NativeChromeMCP} {e : MCPEvent} (hs : TrackInv s)
    (h : s.step e = some s') (htracked : ChromeTracked s') : SpawnsAlone s e := by
  cases step_reaction h with
  | @probed c outcome =>
      cases outcome with
      | launched =>
          intro p hstored hp
          obtain ⟨x, hx, hrunning⟩ := hp
          have hne : p ≠ s.nextProcess := Nat.ne_of_lt (hs.spawned_lt p x hx)
          have hold : StillRunning (s.probed c .launched) p :=
            ⟨x, (Function.update_of_ne hne _ _).trans hx, hrunning⟩
          have hnew : StillRunning (s.probed c .launched) s.nextProcess :=
            ⟨⟨false, false, false⟩, Function.update_self _ _ _, rfl, rfl⟩
          exact hne (htracked.unique _ _ hold hnew)
      | _ => trivial
  | _ => trivial

lemma trackInv_init : TrackInv nativeChromeMCP.init where
  stored p hp := by
    obtain ⟨x, hx, -⟩ := hp
    cases hx
  spawned_lt p x hx := by cases hx

/-- **When the manager knows its Chrome**: in exactly the runs in which no call spawns one while the
stored one is still running. -/
theorem chrome_tracked_iff (es : List MCPEvent) :
    nativeChromeMCP.Along (fun _ _ s' => ChromeTracked s') es
      ↔ nativeChromeMCP.Meets SpawnsAlone es :=
  Machine.along_iff_meets (I := TrackInv) trackInv_init
    (fun _ _ _ hs h halone => hs.step h halone)
    (fun _ _ _ hs h =>
      ⟨hs.spawnsAlone_of_tracked h, fun halone => (hs.step h halone).tracked⟩) es

/-- Two calls of `ensureChrome` look for Chrome before either of them has spawned one. -/
def twoCallers : List MCPEvent :=
  [.ensureChrome, .ensureChrome, .probed 0 .launched, .probed 1 .launched]

/-- Two Chromes are running, and `stop` leaves the first one alone. -/
theorem two_callers_two_chromes :
    ∃ s, nativeChromeMCP.run twoCallers = some s ∧ StillRunning s 0 ∧ StillRunning s 1
      ∧ s.chromeProcess = some 1 ∧ StillRunning (s.stop true) 0 ∧ ¬ ChromeTracked s := by
  have h0 : ∃ s, nativeChromeMCP.run twoCallers = some s ∧ StillRunning s 0 ∧ StillRunning s 1
      ∧ s.chromeProcess = some 1 :=
    ⟨_, rfl, ⟨_, rfl, rfl, rfl⟩, ⟨_, rfl, rfl, rfl⟩, rfl⟩
  obtain ⟨s, hrun, hfirst, hsecond, hstored⟩ := h0
  refine ⟨s, hrun, hfirst, hsecond, hstored, ?_, fun h => ?_⟩
  · exact (stillRunning_stop true).mpr ⟨hfirst, fun _ heq => by simp [hstored] at heq⟩
  · exact absurd (h.unique 0 1 hfirst hsecond) (by decide)

end Luan
