import Luan.LuaRunner.Lifecycle

/-!
# The stop button

`ContentView` shows one button for `start` and `stop`.  It offers Stop while the service is running
and while it is starting; `LuaRunner.stop` turns back unless it is running.

* `LuaRunner.StopWorks` — what Stop is for: it stops the stored child, and every living child is
  within its reach.
* `StopInv` — a living child of a stopping service has been asked to terminate, and SIGKILL has
  been sent to it or is scheduled.
* `stopWorks_iff` — in a reachable state Stop works exactly if the service is not starting.
* `starting_for_good` — a service that is started without a usable port stays there whatever the
  user does, and its child is never asked.
-/

namespace Luan

/-- The child's end is handled, or the app's end is near. -/
def RunnerEvent.endsStart : RunnerEvent → Bool
  | .childDidTerminate _ | .terminateForAppExit _ => true
  | _ => false

namespace LuaRunner

/-- `isStopState`: the button offers Stop. -/
def isStopState (s : LuaRunner) : Bool := s.isRunning || s.state = .starting

/-- The child has been asked to terminate. -/
def Asked (s : LuaRunner) (child : ℕ) : Prop :=
  ∃ c, s.children child = some c ∧ c.terminated = true

/-- SIGKILL for the child is scheduled. -/
def KillPending (s : LuaRunner) (child : ℕ) : Prop :=
  ∃ n, s.stopTimeoutTask = some n ∧ s.timeouts n = some ⟨child, false, false⟩

/-- SIGKILL has been sent to the child. -/
def Killed (s : LuaRunner) (child : ℕ) : Prop :=
  ∃ c, s.children child = some c ∧ c.killed = true

/-- The child is not left alone any more. -/
def Ending (s : LuaRunner) (child : ℕ) : Prop :=
  s.Asked child ∧ (s.Killed child ∨ s.KillPending child)

/-- What Stop is for. -/
structure StopWorks (s : LuaRunner) : Prop where
  /-- where it is offered, it stops the stored child -/
  stops : s.isStopState = true → ∀ child, s.process = some child →
    s.stop.state = .stopping ∧ s.stop.Asked child ∧ s.stop.KillPending child
  /-- and no child stays alive beyond the user's reach -/
  reach : ∀ child, s.isChildRunning child = true → s.stop.Ending child

/-! ## Children and what happens to them -/

lemma children_updateChild_self {s : LuaRunner} {n : ℕ} {f : Child → Child} {c : Child}
    (hc : s.children n = some c) : (s.updateChild n f).children n = some (f c) := by
  simp [updateChild, hc]

lemma children_updateChild_of_ne {s : LuaRunner} {n m : ℕ} (f : Child → Child) (hm : m ≠ n) :
    (s.updateChild n f).children m = s.children m := by
  simp [updateChild, hm]

/-- A signal does not end a child by itself. -/
lemma isChildRunning_updateChild (s : LuaRunner) (n m : ℕ) {f : Child → Child}
    (hf : ∀ c, (f c).status = c.status) :
    (s.updateChild n f).isChildRunning m = s.isChildRunning m := by
  by_cases hm : m = n
  · subst hm
    cases hc : s.children m with
    | none => simp [isChildRunning, updateChild, hc]
    | some c => simp [isChildRunning, updateChild, hc, hf]
  · simp only [isChildRunning, children_updateChild_of_ne f hm]

lemma isChildRunning_exitChild (s : LuaRunner) (n : ℕ) (status : Int) :
    (s.exitChild n status).isChildRunning n = false := by
  cases hc : s.children n with
  | none => simp [isChildRunning, exitChild, updateChild, hc]
  | some c => simp [isChildRunning, exitChild, updateChild, hc]

/-- What makes a child's end near depends on little of the state. -/
lemma Ending.congr {s s' : LuaRunner} {child : ℕ} (h : s.Ending child)
    (hchild : s'.children child = s.children child)
    (htask : s'.stopTimeoutTask = s.stopTimeoutTask) (htimeouts : s'.timeouts = s.timeouts) :
    s'.Ending child := by
  simpa only [Ending, Asked, Killed, KillPending, hchild, htask, htimeouts] using h

/-- A child whose end has been handled has exited. -/
def HandledExited (children : ℕ → Option Child) : Prop :=
  ∀ n c, children n = some c → c.handled = true → c.status ≠ none

lemma HandledExited.update {children : ℕ → Option Child} (h : HandledExited children) {n : ℕ}
    {c : Option Child} (hc : ∀ d, c = some d → d.handled = true → d.status ≠ none) :
    HandledExited (Function.update children n c) := by
  intro m d hd
  by_cases hm : m = n
  · subst hm
    rw [Function.update_self] at hd
    exact hc d hd
  · rw [Function.update_of_ne hm] at hd
    exact h m d hd

lemma HandledExited.updateChild {s : LuaRunner} (h : HandledExited s.children) {n : ℕ}
    {f : Child → Child}
    (hf : ∀ c, s.children n = some c → (f c).handled = true → (f c).status ≠ none) :
    HandledExited (s.updateChild n f).children := by
  refine h.update fun d hd => ?_
  obtain ⟨c, hc, rfl⟩ := Option.map_eq_some_iff.mp hd
  exact hf c hc

/-- A signal reaches a child. -/
lemma HandledExited.signal {s : LuaRunner} (h : HandledExited s.children) (n : ℕ)
    {f : Child → Child} (hstatus : ∀ c, (f c).status = c.status)
    (hhandled : ∀ c, (f c).handled = c.handled) : HandledExited (s.updateChild n f).children := by
  refine h.updateChild fun c hc => ?_
  rw [hstatus, hhandled]
  exact h n c hc

/-- A living child is the stored one. -/
lemma stored_of_running {s : LuaRunner} (hlife : s.lifecycle.Inv)
    (hexited : HandledExited s.children) {child : ℕ} (hrunning : s.isChildRunning child = true) :
    s.process = some child := by
  rw [isChildRunning] at hrunning
  split at hrunning
  case h_1 c hc =>
    refine (hlife.unhandled child).mp ⟨c, hc, ?_⟩
    by_contra hhandled
    have hstatus := hexited child c hc (Bool.not_eq_false _ ▸ hhandled)
    rw [Option.isNone_iff_eq_none] at hrunning
    exact hstatus hrunning
  case h_2 => cases hrunning

/-! ## What Stop does -/

/-- **While the service is running, Stop does its work.** -/
lemma stop_stops {s : LuaRunner} (hlife : s.lifecycle.Inv) {child : ℕ}
    (hstate : s.state = .running) (hchild : s.process = some child) :
    s.stop.state = .stopping ∧ s.stop.Asked child ∧ s.stop.KillPending child := by
  obtain ⟨c, hc, -⟩ := (hlife.unhandled child).mpr hchild
  refine ⟨stop_of_running hstate hchild, ?_⟩
  have hstop : s.canStop = true := by rw [canStop, hstate]
  rw [stop, hstop, hchild]
  refine ⟨⟨_, children_updateChild_self hc, rfl⟩, s.nextTimeout, rfl, ?_⟩
  exact Function.update_self ..

lemma stopTimedOut_kills {s : LuaRunner} {child : ℕ} (n : ℕ)
    (hrunning : s.isChildRunning child = true) :
    (s.stopTimedOut n ⟨child, false, false⟩).Killed child := by
  have hspawned : ∃ c, s.children child = some c := by
    rw [isChildRunning] at hrunning
    split at hrunning
    case h_1 c hc => exact ⟨c, hc⟩
    case h_2 => cases hrunning
  obtain ⟨c, hc⟩ := hspawned
  have hfires : isChildRunning { s with
      timeouts := Function.update s.timeouts n (some ⟨child, false, true⟩) } child = true :=
    hrunning
  simp only [stopTimedOut, hfires, Bool.not_false, Bool.and_self, if_true]
  exact ⟨_, children_updateChild_self hc, rfl⟩

/-- **A scheduled SIGKILL can go off, and it reaches its child.** -/
lemma KillPending.fires {s : LuaRunner} {child : ℕ} (h : s.KillPending child)
    (hrunning : s.isChildRunning child = true) (P : Platform) :
    ∃ n s', s.step P (.stopTimeout n) = some s' ∧ s'.Killed child := by
  obtain ⟨n, -, htask⟩ := h
  refine ⟨n, s.stopTimedOut n ⟨child, false, false⟩, ?_, stopTimedOut_kills n hrunning⟩
  rw [step, htask]
  rfl

/-! ## Every living child of a stopping service is near its end -/

/-- **The invariant of stopping.** -/
structure StopInv (s : LuaRunner) : Prop where
  lifecycle : s.lifecycle.Inv
  exited : HandledExited s.children
  ending : s.state = .stopping → ∀ child, s.isChildRunning child = true → s.Ending child

/-- A new child is not handled. -/
lemma HandledExited.start {s : LuaRunner} (hs : HandledExited s.children) (P : Platform)
    (documentRoot : String) (env : String → Option String) (o : StartOutcome) :
    HandledExited (s.start P documentRoot env o).children := by
  rcases start_cases P s documentRoot env o rfl rfl rfl with
    heq | ⟨-, ⟨message, heq⟩ | ⟨message, heq⟩ | ⟨s₂, token, rfl, heq⟩⟩
  · rwa [heq]
  · rwa [heq]
  · rwa [heq]
  · have hchildren := congrArg (fun s => Lifecycle.children s.lifecycle) heq
    simp only [lifecycle_startMetricsSampling, lifecycle_startHealthcheck] at hchildren
    change HandledExited (Lifecycle.children (lifecycle _))
    rw [hchildren]
    refine HandledExited.update hs fun d hd hhandled => ?_
    obtain rfl := Option.some.inj hd
    cases hhandled

lemma HandledExited.terminateForAppExit {s : LuaRunner} (hs : HandledExited s.children)
    (exit : Option Int) : HandledExited (s.terminateForAppExit exit).children := by
  simp only [LuaRunner.terminateForAppExit]
  split
  · rename_i child hchild
    have hasked : HandledExited (s.terminate child).children :=
      hs.signal _ (fun _ => rfl) fun _ => rfl
    split_ifs
    · cases exit with
      | some status => exact hasked.updateChild fun _ _ _ => Option.some_ne_none status
      | none => exact hasked.signal _ (fun _ => rfl) fun _ => rfl
    · exact hs
  · exact hs

/-- **Only a child that has exited is handled**, behind every step. -/
lemma HandledExited.step {P : Platform} {s s' : LuaRunner} {e : RunnerEvent}
    (hs : HandledExited s.children) (h : s.step P e = some s') : HandledExited s'.children := by
  cases step_reaction h with
  | start => exact hs.start P _ _ _
  | stop =>
      simp only [stop]
      split
      · exact HandledExited.signal hs _ (fun _ => rfl) fun _ => rfl
      · exact hs
  | terminateForAppExit => exact hs.terminateForAppExit _
  | @output chunk clock =>
      obtain ⟨diag, deadline, hframe⟩ := consumeChildOutput_frame P.unicode s chunk clock
      rwa [hframe]
  | @childExited n status => exact hs.updateChild fun _ _ _ => Option.some_ne_none status
  | @childDidTerminate n c status hchild hstatus =>
      refine HandledExited.updateChild (s := s) hs fun d hd _ => ?_
      obtain rfl := Option.some.inj (hchild.symm.trans hd)
      rw [hstatus]
      exact Option.some_ne_none status
  | healthReply | metricsReply => exact hs
  | healthHop =>
      simp only [healthHop]
      split <;> exact hs
  | @metricsHop _ _ object => cases object <;> exact hs
  | stopTimeout =>
      simp only [stopTimedOut]
      split_ifs
      · exact HandledExited.signal hs _ (fun _ => rfl) fun _ => rfl
      · exact hs

/-- A new service is not stopping. -/
lemma start_not_stopping {P : Platform} {s : LuaRunner} {documentRoot : String}
    {env : String → Option String} {o : StartOutcome}
    (h : (s.start P documentRoot env o).state = .stopping) : s.start P documentRoot env o = s := by
  rcases start_cases P s documentRoot env o rfl rfl rfl with
    heq | ⟨-, ⟨message, heq⟩ | ⟨message, heq⟩ | ⟨s₂, token, rfl, heq⟩⟩
  · exact heq
  · rw [heq] at h
    cases h
  · rw [heq] at h
    cases h
  · have hstate := congrArg (fun s => Lifecycle.state s.lifecycle) heq
    simp only [lifecycle_startMetricsSampling, lifecycle_startHealthcheck] at hstate
    cases hstate.symm.trans h

/-- The end of the app leaves no child alone. -/
lemma terminateForAppExit_cases {s : LuaRunner} (hlife : s.lifecycle.Inv) (exit : Option Int) :
    s.terminateForAppExit exit = s
      ∨ ∃ child, (s.terminateForAppExit exit).process = some child
        ∧ ((s.terminateForAppExit exit).isChildRunning child = false
          ∨ (s.terminateForAppExit exit).Ending child) := by
  cases hprocess : s.process with
  | none =>
      left
      rw [terminateForAppExit, hprocess]
  | some child =>
      by_cases hrunning : s.isChildRunning child = true
      · right
        obtain ⟨c, hc, -⟩ := (hlife.unhandled child).mpr hprocess
        rw [terminateForAppExit, hprocess]
        dsimp only
        rw [if_pos hrunning]
        cases exit with
        | some status => exact ⟨child, rfl, .inl (isChildRunning_exitChild _ child status)⟩
        | none =>
            have hasked : (s.terminate child).children child
                = some { c with terminated := true } := children_updateChild_self hc
            have hkilled := children_updateChild_self
              (f := fun c => { c with killed := true }) hasked
            exact ⟨child, rfl, .inr ⟨⟨_, hkilled, rfl⟩, .inl ⟨_, hkilled, rfl⟩⟩⟩
      · left
        rw [terminateForAppExit, hprocess]
        exact if_neg hrunning

lemma healthHop_cases (s : LuaRunner) (task : Healthcheck) :
    s.healthHop task = s ∨ (s.healthHop task).state = .running := by
  rw [healthHop]
  split
  · exact .inr rfl
  · exact .inl rfl

lemma state_stopTimedOut (s : LuaRunner) (n : ℕ) (task : StopTimeout) :
    (s.stopTimedOut n task).state = s.state := by
  simp only [stopTimedOut]
  split_ifs <;> rfl

/-- SIGKILL does not end a child by itself. -/
lemma isChildRunning_stopTimedOut (s : LuaRunner) (n child : ℕ) (task : StopTimeout) :
    (s.stopTimedOut n task).isChildRunning child = s.isChildRunning child := by
  simp only [stopTimedOut]
  split_ifs
  · exact isChildRunning_updateChild s task.child child
      (f := fun c => { c with killed := true }) fun _ => rfl
  · rfl

/-- The task of an earlier `stop` leaves the child alone, or it kills it. -/
lemma Ending.stopTimedOut {s : LuaRunner} {child : ℕ} (h : s.Ending child) (hs : StopInv s) {n : ℕ}
    {task : StopTimeout} (htask : s.timeouts n = some task)
    (hrunning : s.isChildRunning child = true) : (s.stopTimedOut n task).Ending child := by
  obtain ⟨⟨c, hc, hasked⟩, hend⟩ := h
  rw [LuaRunner.stopTimedOut]
  dsimp only
  split_ifs with hfires
  · -- it is a living child that is killed, so it is the stored one
    obtain ⟨-, htarget⟩ := (Bool.and_eq_true _ _).mp hfires
    have hsame : task.child = child := Option.some.inj
      ((stored_of_running hs.lifecycle hs.exited htarget).symm.trans
        (stored_of_running hs.lifecycle hs.exited hrunning))
    subst hsame
    exact ⟨⟨_, children_updateChild_self hc, hasked⟩, .inl ⟨_, children_updateChild_self hc, rfl⟩⟩
  · refine ⟨⟨c, hc, hasked⟩, hend.imp id ?_⟩
    rintro ⟨m, hm, hpending⟩
    refine ⟨m, hm, ?_⟩
    by_cases hmn : m = n
    · subst hmn
      obtain rfl := Option.some.inj (hpending.symm.trans htask)
      exact absurd ((Bool.and_eq_true _ _).mpr ⟨rfl, hrunning⟩) hfires
    · exact (Function.update_of_ne hmn ..).trans hpending

/-- **Every step keeps the invariant.** -/
lemma StopInv.step {P : Platform} {s s' : LuaRunner} {e : RunnerEvent} (hs : StopInv s)
    (h : s.step P e = some s') : StopInv s' := by
  have hlife := hs.lifecycle.moves (step_moves h)
  refine ⟨hlife, hs.exited.step h, fun hstopping child hrunning => ?_⟩
  have hstored := stored_of_running hlife (hs.exited.step h) hrunning
  cases step_reaction h with
  | start =>
      have hsame := start_not_stopping hstopping
      rw [hsame] at hstopping hrunning ⊢
      exact hs.ending hstopping child hrunning
  | stop =>
      by_cases hstate : s.state = .running
      · have hchild : s.process = some child := by
          revert hstored
          simp only [stop]
          split <;> exact id
        have hstop := stop_stops hs.lifecycle hstate hchild
        exact ⟨hstop.2.1, .inr hstop.2.2⟩
      · rw [stop_of_not_running hstate] at hstopping hrunning ⊢
        exact hs.ending hstopping child hrunning
  | @terminateForAppExit exit =>
      rcases terminateForAppExit_cases hs.lifecycle exit with hsame | ⟨asked, hasked, hend⟩
      · rw [hsame] at hstopping hrunning ⊢
        exact hs.ending hstopping child hrunning
      · have hchild : asked = child := Option.some.inj (hasked.symm.trans hstored)
        subst hchild
        exact hend.resolve_left (by simp [hrunning])
  | @output chunk clock =>
      obtain ⟨diag, deadline, hframe⟩ := consumeChildOutput_frame P.unicode s chunk clock
      rw [hframe] at hstopping hrunning ⊢
      exact (hs.ending hstopping child hrunning).congr rfl rfl rfl
  | @childExited n status =>
      have hne : child ≠ n := by
        rintro rfl
        rw [isChildRunning_exitChild] at hrunning
        cases hrunning
      have hsame := children_updateChild_of_ne (s := s)
        (fun c => { c with status := some status }) hne
      refine (hs.ending hstopping child ?_).congr hsame rfl rfl
      rw [isChildRunning, ← hsame]
      exact hrunning
  | childDidTerminate =>
      have hactive := congrArg ServiceState.isActive hstopping
      cases (settle_isActive P _ _ _).symm.trans hactive
  | healthReply | metricsReply => exact (hs.ending hstopping child hrunning).congr rfl rfl rfl
  | healthHop =>
      rcases healthHop_cases _ _ with hsame | hstate
      · rw [hsame] at hstopping hrunning ⊢
        exact (hs.ending hstopping child hrunning).congr rfl rfl rfl
      · cases hstate.symm.trans hstopping
  | @metricsHop _ _ object =>
      cases object <;> exact (hs.ending hstopping child hrunning).congr rfl rfl rfl
  | @stopTimeout n task htask =>
      rw [isChildRunning_stopTimedOut] at hrunning
      rw [state_stopTimedOut] at hstopping
      exact (hs.ending hstopping child hrunning).stopTimedOut hs htask hrunning

lemma stopInv_init (P : Platform) : StopInv (luaRunner P).init where
  lifecycle := lifecycle_init P
  exited n c hc := by cases hc
  ending h := by cases h

lemma stopInv_of_run {P : Platform} {es : List RunnerEvent} {s : LuaRunner}
    (hrun : (luaRunner P).run es = some s) : StopInv s :=
  Machine.invariant (stopInv_init P) (fun _ _ _ hs hstep => hs.step hstep) hrun

lemma isStopState_iff {s : LuaRunner} :
    s.isStopState = true ↔ s.state = .running ∨ s.state = .starting := by
  rw [isStopState, Bool.or_eq_true, isRunning_iff, decide_eq_true_iff]

end LuaRunner

/-- **When Stop works**: in exactly the reachable states in which the service is not starting. -/
theorem stopWorks_iff (P : Platform) (es : List RunnerEvent) (s : LuaRunner)
    (hrun : (luaRunner P).run es = some s) : s.StopWorks ↔ s.state ≠ .starting := by
  have hinv := LuaRunner.stopInv_of_run hrun
  constructor
  · intro hworks hstarting
    have hactive : s.process ≠ none := hinv.lifecycle.active.mpr (by
      change s.state.isActive = true
      rw [hstarting]
      rfl)
    obtain ⟨child, hchild⟩ := Option.ne_none_iff_exists'.mp hactive
    have hstop := hworks.stops (LuaRunner.isStopState_iff.mpr (.inr hstarting)) child hchild
    rw [LuaRunner.stop_of_not_running (by simp [hstarting]), hstarting] at hstop
    cases hstop.1
  · intro hne
    constructor
    · intro hoffered child hchild
      have hrunning := (LuaRunner.isStopState_iff.mp hoffered).resolve_right hne
      exact LuaRunner.stop_stops hinv.lifecycle hrunning hchild
    · intro child halive
      have hstored := LuaRunner.stored_of_running hinv.lifecycle hinv.exited halive
      by_cases hrunning : s.state = .running
      · have hstop := LuaRunner.stop_stops hinv.lifecycle hrunning hstored
        exact ⟨hstop.2.1, .inr hstop.2.2⟩
      · have hactive : s.state.isActive = true := hinv.lifecycle.active.mp (by
          change s.process ≠ none
          simp [hstored])
        have hstopping : s.state = .stopping := by
          revert hactive hne hrunning
          cases s.state <;> simp [ServiceState.isActive]
        rw [LuaRunner.stop_of_not_running hrunning]
        exact hinv.ending hstopping child halive

/-- A service that has answered. -/
def answeredRun : List RunnerEvent := [launchAt "8080", .healthReply 1, .healthHop 1]

/-- Stop works once the service has answered. -/
theorem stopWorks_answered :
    ∃ s, (luaRunner .plain).run answeredRun = some s ∧ s.process = some 1 ∧ s.StopWorks := by
  refine ⟨_, rfl, rfl, ?_⟩
  exact (stopWorks_iff .plain answeredRun _ rfl).mpr nofun

/-- With the port 0 nobody asks the service whether it is alive: Stop is offered and does nothing,
and the child lives on. -/
theorem stop_without_port :
    ∃ s, (luaRunner .plain).run [launchAt "0"] = some s ∧ s.isStopState = true
      ∧ s.process = some 1 ∧ s.isChildRunning 1 = true ∧ s.stop.state = .starting
      ∧ ¬ s.stop.Asked 1 ∧ ¬ s.StopWorks := by
  refine ⟨_, rfl, rfl, rfl, rfl, rfl, ?_, fun hworks => ?_⟩
  · rintro ⟨c, hc, hasked⟩
    obtain rfl := Option.some.inj hc
    cases hasked
  · cases (hworks.stops rfl 1 rfl).1

/-! ## The child that is never asked -/

namespace LuaRunner

/-- No healthcheck has an answer, and none can get one. -/
def NoAnswer (s : LuaRunner) : Prop :=
  ∀ n task, s.healthchecks n = some task →
    task.phase = .returned ∨ (task.phase = .polling ∧ task.cancelled = true)

/-- A starting service that nobody finds alive. -/
structure Stuck (s : LuaRunner) (child : ℕ) : Prop where
  starting : s.state = .starting
  stored : s.process = some child
  notAsked : ¬ s.Asked child
  noAnswer : s.NoAnswer

lemma asked_updateChild {s : LuaRunner} {n child : ℕ} {f : Child → Child}
    (hf : ∀ c, (f c).terminated = c.terminated) :
    (s.updateChild n f).Asked child ↔ s.Asked child := by
  by_cases hn : child = n
  · subst hn
    cases hc : s.children child with
    | none => simp [Asked, updateChild, hc]
    | some c => simp [Asked, updateChild, hc, hf]
  · simp only [Asked, children_updateChild_of_ne f hn]

/-- The steps that do not see the child. -/
lemma Stuck.congr {s s' : LuaRunner} {child : ℕ} (hs : Stuck s child)
    (hlife : s'.lifecycle = s.lifecycle) (hhealth : s'.healthchecks = s.healthchecks) :
    Stuck s' child := by
  have hstate : s'.state = s.state := congrArg Lifecycle.state hlife
  have hprocess : s'.process = s.process := congrArg Lifecycle.process hlife
  have hchildren : s'.children = s.children := congrArg Lifecycle.children hlife
  refine ⟨hstate.trans hs.starting, hprocess.trans hs.stored, ?_, ?_⟩
  · simpa only [Asked, hchildren] using hs.notAsked
  · simpa only [NoAnswer, hhealth] using hs.noAnswer

/-- A signal, or the end of a child. -/
lemma Stuck.updateChild {s : LuaRunner} {child : ℕ} (hs : Stuck s child) (n : ℕ)
    {f : Child → Child} (hf : ∀ c, (f c).terminated = c.terminated) :
    Stuck (s.updateChild n f) child :=
  ⟨hs.starting, hs.stored, (asked_updateChild hf).not.mpr hs.notAsked, hs.noAnswer⟩

/-- **No other step leads out.** -/
lemma Stuck.step {P : Platform} {s s' : LuaRunner} {e : RunnerEvent} {child : ℕ}
    (hs : Stuck s child) (h : s.step P e = some s') (he : e.endsStart = false) :
    Stuck s' child := by
  cases step_reaction h with
  | start =>
      rw [start, if_neg (by simp [hs.stored])]
      exact hs
  | stop =>
      rw [stop_of_not_running (by simp [hs.starting])]
      exact hs
  | terminateForAppExit | childDidTerminate => cases he
  | @output chunk clock =>
      obtain ⟨diag, deadline, hframe⟩ := consumeChildOutput_frame P.unicode s chunk clock
      rw [hframe]
      exact hs.congr rfl rfl
  | childExited => exact hs.updateChild _ fun _ => rfl
  | healthReply htask =>
      rcases hs.noAnswer _ _ htask with hphase | ⟨-, hcancelled⟩
      · cases hphase
      · cases hcancelled
  | healthHop htask =>
      rcases hs.noAnswer _ _ htask with hphase | ⟨hphase, -⟩
      · cases hphase
      · cases hphase
  | metricsReply => exact hs.congr rfl rfl
  | @metricsHop _ _ object => cases object <;> exact hs.congr rfl rfl
  | @stopTimeout n task =>
      have hkilled : Stuck (s.kill task.child) child := hs.updateChild _ fun _ => rfl
      simp only [stopTimedOut]
      split_ifs
      · exact hkilled.congr rfl rfl
      · exact hs.congr rfl rfl

/-- The same for a run, by induction on its events. -/
lemma Stuck.runFrom {P : Platform} {s s' : LuaRunner} {child : ℕ} {es : List RunnerEvent}
    (hs : Stuck s child) (hrun : (luaRunner P).runFrom s es = some s')
    (hes : ∀ e ∈ es, e.endsStart = false) : Stuck s' child := by
  induction es generalizing s with
  | nil =>
      obtain rfl := Option.some.inj hrun
      exact hs
  | cons e es ih =>
      obtain ⟨mid, hstep, hrest⟩ := Machine.runFrom_cons hrun
      exact ih (hs.step hstep (hes e List.mem_cons_self)) hrest
        fun d hd => hes d (List.mem_cons_of_mem e hd)

/-- A start without a usable port has no healthcheck. -/
lemma stuck_start {P : Platform} {documentRoot : String} {env : String → Option String}
    {o : StartOutcome} (hport : (launch P documentRoot env).port ≤ 0) (hlock : o.lock = .acquired)
    (hexecutable : o.hasExecutable = true) (hrun : o.runError = none) :
    Stuck ((luaRunner P).init.start P documentRoot env o) 1 := by
  have hstart : (luaRunner P).init.canStart = true ∧ (luaRunner P).init.process = none :=
    ⟨rfl, rfl⟩
  rw [start, if_pos hstart, hlock]
  dsimp only
  rw [if_pos hexecutable, hrun, startHealthcheck, startMetricsSampling]
  dsimp only
  rw [if_neg fun h => absurd h.1 (by omega), if_neg fun h => absurd h.1 (by omega)]
  refine ⟨rfl, rfl, ?_, fun n task htask => ?_⟩
  · rintro ⟨c, hc, hasked⟩
    obtain rfl := Option.some.inj hc
    cases hasked
  · cases htask

end LuaRunner

/-- **The child that is never asked.**  A service that is started without a usable port stays
starting, whatever happens before its child's end is handled or the app ends: however often the
user presses Stop, its child is not asked to terminate. -/
theorem starting_for_good (P : Platform) (documentRoot : String) (env : String → Option String)
    (o : LuaRunner.StartOutcome) (hport : (LuaRunner.launch P documentRoot env).port ≤ 0)
    (hlock : o.lock = .acquired) (hexecutable : o.hasExecutable = true) (hrun : o.runError = none)
    (es : List RunnerEvent) (hes : ∀ e ∈ es, e.endsStart = false) (s : LuaRunner)
    (h : (luaRunner P).run (.start documentRoot env o :: es) = some s) :
    s.state = .starting ∧ s.process = some 1 ∧ ¬ s.Asked 1 := by
  obtain ⟨mid, hstep, hrest⟩ := Machine.runFrom_cons h
  obtain rfl := Option.some.inj hstep
  have hstuck := (LuaRunner.stuck_start hport hlock hexecutable hrun).runFrom hrest hes
  exact ⟨hstuck.starting, hstuck.stored, hstuck.notAsked⟩

end Luan
