import Luan.LuaRunner.ResetPassword
import Luan.LuaRunner.Responses

/-!
# Leaving reset mode

Does a child that was started with `ALLOW_RESET_ROOT=1` outlive the task that has started it?  The
task stops only a service that runs, so what matters is where such a child can be at each of its
places.

* `Fades` — a step of the runner that starts nothing: it adds no child, and the state moves on.
* `Passes` — what any step, a start too, does to the children that there were.
* `ResetTask.Inv` — behind the response the task's own child in reset mode does not start any more,
  behind the second `stop` it is stopping, and behind the second start it is gone.
* `reset_mode_left_iff` — all tasks end out of reset mode exactly if no such child is alive where
  a task returns early, and no other task has left its own where a task finishes.
* `slow_child_stays_in_reset_mode` — it is, if the service needs more time than the task has.
-/

namespace Luan

open LuaRunner

/-! ## Living children -/

/-- The child has not exited. -/
def LuaRunner.Alive (s : LuaRunner) (n : ℕ) (c : Child) : Prop :=
  s.children n = some c ∧ c.status = none

/-- A child is alive. -/
def LuaRunner.ServiceAlive (s : LuaRunner) : Prop := ∃ n c, s.Alive n c

/-- A child is alive that was started with `ALLOW_RESET_ROOT=1`. -/
def LuaRunner.ResetModeOn (s : LuaRunner) : Prop :=
  ∃ n c, s.Alive n c ∧ c.environment "ALLOW_RESET_ROOT" = some "1"

/-- No child is added, and with a living child the state is as it was or has moved on. -/
structure Fades (s s' : LuaRunner) : Prop where
  alive : ∀ n c', s'.Alive n c' →
    ∃ c, s.Alive n c ∧ c.handled = c'.handled ∧ c.environment = c'.environment
  state : s'.ServiceAlive →
    s'.state = s.state ∨ s'.state = .stopping ∨ (s.state = .starting ∧ s'.state = .running)

namespace Fades

variable {s s' s'' : LuaRunner}

lemma refl (s : LuaRunner) : Fades s s := ⟨fun _ c h => ⟨c, h, rfl, rfl⟩, fun _ => Or.inl rfl⟩

lemma serviceAlive (h : Fades s s') (halive : s'.ServiceAlive) : s.ServiceAlive := by
  obtain ⟨n, c', hc'⟩ := halive
  obtain ⟨c, hc, -⟩ := h.alive n c' hc'
  exact ⟨n, c, hc⟩

lemma resetModeOn (h : Fades s s') (hon : s'.ResetModeOn) : s.ResetModeOn := by
  obtain ⟨n, c', hc', hreset⟩ := hon
  obtain ⟨c, hc, -, henv⟩ := h.alive n c' hc'
  exact ⟨n, c, hc, henv ▸ hreset⟩

lemma trans (h : Fades s s') (h' : Fades s' s'') : Fades s s'' := by
  refine ⟨fun n c'' hc'' => ?_, fun halive => ?_⟩
  · obtain ⟨c', hc', hhandled', henv'⟩ := h'.alive n c'' hc''
    obtain ⟨c, hc, hhandled, henv⟩ := h.alive n c' hc'
    exact ⟨c, hc, hhandled.trans hhandled', henv.trans henv'⟩
  · have hfirst := h.state (h'.serviceAlive halive)
    have hsecond := h'.state halive
    grind

/-- Nothing happens to the children. -/
lemma of_children (hchildren : s'.children = s.children)
    (hstate : s'.state = s.state ∨ s'.state = .stopping
      ∨ (s.state = .starting ∧ s'.state = .running)) : Fades s s' := by
  refine ⟨fun n c h => ?_, fun _ => hstate⟩
  rw [Alive, hchildren] at h
  exact ⟨c, h, rfl, rfl⟩

/-- Something happens to one child, but it does not come back to life. -/
lemma of_update {n : ℕ} {f : Child → Child}
    (hchildren : s'.children = Function.update s.children n ((s.children n).map f))
    (hf : ∀ c, (f c).handled = c.handled ∧ (f c).environment = c.environment
      ∧ ((f c).status = none → c.status = none))
    (hstate : s'.state = s.state ∨ s'.state = .stopping) : Fades s s' := by
  refine ⟨fun m c' h => ?_, fun _ => hstate.imp_right Or.inl⟩
  obtain ⟨hc', halive⟩ := h
  rw [hchildren] at hc'
  by_cases hm : m = n
  · subst hm
    rw [Function.update_self] at hc'
    obtain ⟨c, hc, rfl⟩ := Option.map_eq_some_iff.mp hc'
    exact ⟨c, ⟨hc, (hf c).2.2 halive⟩, (hf c).1.symm, (hf c).2.1.symm⟩
  · rw [Function.update_of_ne hm] at hc'
    exact ⟨c', ⟨hc', halive⟩, rfl, rfl⟩

end Fades

/-- What becomes of the children that there were, at a start too: none comes back to life, and as
long as one is alive the state is as it was or has moved on. -/
structure Passes (s s' : LuaRunner) : Prop where
  starts : s.starts ≤ s'.starts
  alive : ∀ n c', n ≤ s.starts → s'.Alive n c' →
    ∃ c, s.Alive n c ∧ c.environment = c'.environment
  state : ∀ n c', n ≤ s.starts → s'.Alive n c' →
    s'.state = s.state ∨ s'.state = .stopping ∨ (s.state = .starting ∧ s'.state = .running)

namespace Passes

variable {s s' s'' : LuaRunner}

lemma refl (s : LuaRunner) : Passes s s :=
  ⟨le_rfl, fun _ c _ h => ⟨c, h, rfl⟩, fun _ _ _ _ => Or.inl rfl⟩

lemma trans (h : Passes s s') (h' : Passes s' s'') : Passes s s'' := by
  refine ⟨h.starts.trans h'.starts, fun n c'' hn hc'' => ?_, fun n c'' hn hc'' => ?_⟩
  · obtain ⟨c', hc', henv'⟩ := h'.alive n c'' (hn.trans h.starts) hc''
    obtain ⟨c, hc, henv⟩ := h.alive n c' hn hc'
    exact ⟨c, hc, henv.trans henv'⟩
  · obtain ⟨c', hc', -⟩ := h'.alive n c'' (hn.trans h.starts) hc''
    have hfirst := h.state n c' hn hc'
    have hsecond := h'.state n c'' (hn.trans h.starts) hc''
    grind

end Passes

lemma Fades.passes {s s' : LuaRunner} (h : Fades s s')
    (hmoves : Relation.ReflTransGen Lifecycle.Move s.lifecycle s'.lifecycle) : Passes s s' where
  starts := Lifecycle.starts_le_of_moves hmoves
  alive n c' _ hc' := by
    obtain ⟨c, hc, -, henv⟩ := h.alive n c' hc'
    exact ⟨c, hc, henv⟩
  state n c' _ hc' := h.state ⟨n, c', hc'⟩

/-- What is known of the children in every reachable state: the living ones are unhandled, and
have the variable from a start of the app or from the app itself. -/
structure ChildrenInv (P : Platform) (s : LuaRunner) : Prop where
  life : s.lifecycle.Inv
  unhandled : ∀ n c, s.Alive n c → c.handled = false
  environment : ∀ n c, s.Alive n c → c.environment "ALLOW_RESET_ROOT" = some "1"
    ∨ c.environment "ALLOW_RESET_ROOT" = P.environment "ALLOW_RESET_ROOT"

namespace ChildrenInv

variable {P : Platform} {s s' : LuaRunner}

/-- A living child is the stored one. -/
lemma process (hs : ChildrenInv P s) {n : ℕ} {c : Child} (h : s.Alive n c) :
    s.process = some n :=
  (hs.life.unhandled n).mp ⟨c, h.1, hs.unhandled n c h⟩

lemma state (hs : ChildrenInv P s) (h : s.ServiceAlive) :
    s.state = .starting ∨ s.state = .running ∨ s.state = .stopping := by
  obtain ⟨n, c, hc⟩ := h
  have hactive : s.state.isActive = true := by
    refine hs.life.active.mp ?_
    show s.process ≠ none
    simp [hs.process hc]
  cases hstate : s.state with
  | starting => exact Or.inl rfl
  | running => exact Or.inr (Or.inl rfl)
  | stopping => exact Or.inr (Or.inr rfl)
  | _ => simp [hstate, ServiceState.isActive] at hactive

lemma fades (hs : ChildrenInv P s) (hlife : s'.lifecycle.Inv) (h : Fades s s') :
    ChildrenInv P s' where
  life := hlife
  unhandled n c' hc' := by
    obtain ⟨c, hc, hhandled, -⟩ := h.alive n c' hc'
    rw [← hhandled]
    exact hs.unhandled n c hc
  environment n c' hc' := by
    obtain ⟨c, hc, -, henv⟩ := h.alive n c' hc'
    rw [← henv]
    exact hs.environment n c hc

end ChildrenInv

/-! ## The steps of the runner -/

section Runner

variable {P : Platform} {s s' : LuaRunner}

lemma stop_fades (s : LuaRunner) : Fades s s.stop := by
  simp only [stop]
  split
  case h_1 child _ _ =>
      refine Fades.of_update (n := child) (f := fun c => { c with terminated := true }) rfl ?_
        (Or.inr rfl)
      exact fun c => ⟨rfl, rfl, id⟩
  case h_2 => exact Fades.refl s

lemma terminateForAppExit_fades (s : LuaRunner) (exit : Option Int) :
    Fades s (s.terminateForAppExit exit) := by
  simp only [terminateForAppExit]
  split
  case h_1 child _ =>
      split_ifs
      · have hasked : Fades s (({ s with
            state := .stopping }.stopHealthcheck.stopMetricsSampling.closeCaptureWindow
              ).closeParentPipe.terminate child) := by
          refine Fades.of_update (n := child) (f := fun c => { c with terminated := true }) rfl ?_
            (Or.inr rfl)
          exact fun c => ⟨rfl, rfl, id⟩
        cases exit with
        | some status =>
            refine hasked.trans (Fades.of_update (n := child)
              (f := fun c => { c with status := some status }) rfl ?_ (Or.inl rfl))
            exact fun c => ⟨rfl, rfl, fun h => by cases h⟩
        | none =>
            refine hasked.trans (Fades.of_update (n := child)
              (f := fun c => { c with killed := true }) rfl ?_ (Or.inl rfl))
            exact fun c => ⟨rfl, rfl, id⟩
      · exact Fades.refl s
  case h_2 => exact Fades.refl s

lemma stopTimedOut_fades (s : LuaRunner) (n : ℕ) (task : StopTimeout) :
    Fades s (s.stopTimedOut n task) := by
  simp only [stopTimedOut]
  split_ifs
  · refine Fades.of_update (n := task.child) (f := fun c => { c with killed := true }) rfl ?_
      (Or.inl rfl)
    exact fun c => ⟨rfl, rfl, id⟩
  · exact Fades.of_children rfl (Or.inl rfl)

/-- Behind the termination of the stored child no child is alive. -/
lemma childDidTerminate_fades (hs : ChildrenInv P s) {n : ℕ} {c : Child} {status : Int}
    (hchild : s.children n = some c) (hstatus : c.status ≠ none) (hopen : c.handled = false) :
    Fades s ((s.updateChild n fun c => { c with handled := true }).childDidTerminate P status) := by
  have hstored : s.process = some n := (hs.life.unhandled n).mp ⟨c, hchild, hopen⟩
  have hdead : ∀ m c', ¬ ((s.updateChild n fun c => { c with handled := true }).childDidTerminate P
      status).Alive m c' := by
    rintro m c' ⟨hc', halive⟩
    have hchildren : Function.update s.children n
        ((s.children n).map fun c => { c with handled := true }) m = some c' := hc'
    by_cases hm : m = n
    · subst hm
      rw [Function.update_self, hchild] at hchildren
      obtain rfl := Option.some.inj hchildren
      exact hstatus halive
    · rw [Function.update_of_ne hm] at hchildren
      exact hm (Option.some.inj ((hs.process ⟨hchildren, halive⟩).symm.trans hstored))
  exact ⟨fun m c' h => absurd h (hdead m c'), fun ⟨m, c', h⟩ => absurd h (hdead m c')⟩

/-- **Every step that is no start fades.** -/
lemma step_fades (hs : ChildrenInv P s) {e : RunnerEvent} (h : s.step P e = some s')
    (hstart : ∀ documentRoot env o, e ≠ .start documentRoot env o) : Fades s s' := by
  cases step_reaction h with
  | @start documentRoot env outcome => exact absurd rfl (hstart documentRoot env outcome)
  | stop => exact stop_fades s
  | terminateForAppExit => exact terminateForAppExit_fades s _
  | @output chunk clock =>
      obtain ⟨diag, deadline, hframe⟩ := consumeChildOutput_frame P.unicode s chunk clock
      rw [hframe]
      exact Fades.of_children rfl (Or.inl rfl)
  | @childExited n status =>
      refine Fades.of_update (n := n) (f := fun c => { c with status := some status }) rfl ?_
        (Or.inl rfl)
      exact fun c => ⟨rfl, rfl, fun h => by cases h⟩
  | childDidTerminate hchild hstatus hopen =>
      exact childDidTerminate_fades hs hchild (by simp [hstatus]) hopen
  | healthReply | metricsReply => exact Fades.of_children rfl (Or.inl rfl)
  | healthHop =>
      simp only [healthHop]
      split
      case h_1 hstate => exact Fades.of_children rfl (Or.inr (Or.inr ⟨hstate, rfl⟩))
      case h_2 => exact Fades.of_children rfl (Or.inl rfl)
  | @metricsHop n cancelled object =>
      cases object <;> exact Fades.of_children rfl (Or.inl rfl)
  | stopTimeout => exact stopTimedOut_fades s _ _

lemma spawn_child (P : Platform) (s : LuaRunner) (l : Launch) (env : Environment) :
    ∃ child : Child, child.handled = false
      ∧ child.environment "ALLOW_RESET_ROOT"
        = (env "ALLOW_RESET_ROOT").or (P.environment "ALLOW_RESET_ROOT")
      ∧ (s.spawn P l env).children = Function.update s.children s.starts (some child) := by
  refine ⟨⟨l, l.arguments, fun key => if key = "LUAN_PARENT_PIPE" then some "1"
    else (env key).or (P.environment key), none, false, false, false⟩, rfl, ?_, rfl⟩
  simp

/-- **A start**: it is turned away, or no child was alive, and the living child is the new one. -/
lemma start_children (hs : ChildrenInv P s) (documentRoot : String) (env : Environment)
    (o : StartOutcome) :
    s.start P documentRoot env o = s
      ∨ ¬ s.ServiceAlive ∧ (s.start P documentRoot env o).starts = s.starts + 1
        ∧ ∀ n c, (s.start P documentRoot env o).Alive n c → n = s.starts + 1
          ∧ c.handled = false ∧ c.environment "ALLOW_RESET_ROOT"
            = (env "ALLOW_RESET_ROOT").or (P.environment "ALLOW_RESET_ROOT") := by
  have hnone : s.process = none → ∀ n c, ¬ s.Alive n c := by
    intro hprocess n c hc
    rw [hs.process hc] at hprocess
    cases hprocess
  rcases start_cases P s documentRoot env o rfl rfl rfl with heq | ⟨hprocess, hstarted⟩
  · exact Or.inl heq
  refine Or.inr ⟨fun ⟨n, c, hc⟩ => hnone hprocess n c hc, ?_⟩
  rcases hstarted with ⟨message, heq⟩ | ⟨message, heq⟩ | ⟨s₂, token, rfl, heq⟩
  · rw [heq]
    exact ⟨rfl, fun n c hc => absurd hc (hnone hprocess n c)⟩
  · rw [heq]
    exact ⟨rfl, fun n c hc => absurd hc (hnone hprocess n c)⟩
  · -- the new child is the only one that can be alive
    have hlife : (s.start P documentRoot env o).lifecycle
        = ((s.enterStarting (launch P documentRoot env) o.now).makePipes.spawn P
          (launch P documentRoot env) env).lifecycle := by
      rw [heq, lifecycle_startMetricsSampling, lifecycle_startHealthcheck]
    obtain ⟨child, hhandled, henv, hspawned⟩ := spawn_child P
      (s.enterStarting (launch P documentRoot env) o.now).makePipes (launch P documentRoot env) env
    refine ⟨congrArg Lifecycle.starts hlife, fun n c hc => ?_⟩
    obtain ⟨hc, halive⟩ := hc
    have hchildren := congrFun ((congrArg Lifecycle.children hlife).trans hspawned) n
    have hupdate : Function.update s.children (s.starts + 1) (some child) n = some c :=
      hchildren.symm.trans hc
    by_cases hn : n = s.starts + 1
    · subst hn
      rw [Function.update_self] at hupdate
      exact ⟨rfl, Option.some.inj hupdate ▸ ⟨hhandled, henv⟩⟩
    · rw [Function.update_of_ne hn] at hupdate
      exact absurd ⟨hupdate, halive⟩ (hnone hprocess n c)

lemma start_passes (hs : ChildrenInv P s) (documentRoot : String) (env : Environment)
    (o : StartOutcome) : Passes s (s.start P documentRoot env o) := by
  rcases start_children hs documentRoot env o with heq | ⟨-, hstarts, hnew⟩
  · rw [heq]
    exact Passes.refl s
  · have hold : ∀ n c, n ≤ s.starts → ¬ (s.start P documentRoot env o).Alive n c := by
      intro n c hn hc
      rw [(hnew n c hc).1] at hn
      exact Nat.not_succ_le_self _ hn
    exact ⟨by omega, fun n c hn hc => absurd hc (hold n c hn),
      fun n c hn hc => absurd hc (hold n c hn)⟩

end Runner

namespace ChildrenInv

variable {P : Platform} {s : LuaRunner}

lemma start (hs : ChildrenInv P s) {env : Environment} (documentRoot : String) (o : StartOutcome)
    (henv : env "ALLOW_RESET_ROOT" = none ∨ env "ALLOW_RESET_ROOT" = some "1") :
    ChildrenInv P (s.start P documentRoot env o) := by
  rcases start_children hs documentRoot env o with heq | ⟨-, -, hnew⟩
  · rw [heq]
    exact hs
  · refine ⟨hs.life.moves (start_moves P s documentRoot env o), fun n c hc => (hnew n c hc).2.1,
      fun n c hc => ?_⟩
    rw [(hnew n c hc).2.2]
    rcases henv with hnone | hone
    · exact Or.inr (by rw [hnone, Option.none_or])
    · exact Or.inl (by rw [hone, Option.some_or])

/-- Behind a start without the variable, a child in reset mode is one that there was. -/
lemma start_normal (hs : ChildrenInv P s) {env : Environment} (documentRoot : String)
    (o : StartOutcome) (henv : env "ALLOW_RESET_ROOT" = none)
    (happ : P.environment "ALLOW_RESET_ROOT" ≠ some "1") {n : ℕ} {c : Child}
    (hc : (s.start P documentRoot env o).Alive n c)
    (hreset : c.environment "ALLOW_RESET_ROOT" = some "1") : s.Alive n c := by
  rcases start_children hs documentRoot env o with heq | ⟨-, -, hnew⟩
  · exact heq ▸ hc
  · rw [(hnew n c hc).2.2, henv, Option.none_or] at hreset
    exact absurd hreset happ

lemma stop (hs : ChildrenInv P s) : ChildrenInv P s.stop :=
  hs.fades (hs.life.moves s.stop_moves) (stop_fades s)

/-- Behind `stop` a service that was not starting is stopping. -/
lemma state_stop (hs : ChildrenInv P s) (hstarting : s.state ≠ .starting)
    (halive : s.stop.ServiceAlive) : s.stop.state = .stopping := by
  have hbefore := (stop_fades s).serviceAlive halive
  rcases hs.state hbefore with hstate | hstate | hstate
  · exact absurd hstate hstarting
  · obtain ⟨n, c, hc⟩ := hbefore
    exact stop_of_running hstate (hs.process hc)
  · rw [stop_of_not_running (by simp [hstate])]
    exact hstate

/-- Behind `stop` no service runs. -/
lemma not_isRunning_stop (hs : ChildrenInv P s) : s.stop.isRunning = false := by
  rw [Bool.eq_false_iff, Ne, isRunning_iff]
  by_cases hrunning : s.state = .running
  · have hprocess : s.process ≠ none := by
      refine hs.life.active.mpr ?_
      show s.state.isActive = true
      simp [hrunning, ServiceState.isActive]
    obtain ⟨n, hn⟩ := Option.ne_none_iff_exists'.mp hprocess
    simp [stop_of_running hrunning hn]
  · rw [stop_of_not_running hrunning]
    exact hrunning

end ChildrenInv

/-! ## The settings -/

namespace AppSettings

variable (settings : AppSettings) (uiLanguage : String) (status native : Vector UInt8 32)

/-- The settings never ask for reset mode. -/
lemma envDict_allowResetRoot :
    (settings.envDict uiLanguage status native).1 "ALLOW_RESET_ROOT" = none := by
  simp only [envDict]
  split_ifs <;> simp [Environment.set_apply]

lemma envDict_address :
    (settings.envDict uiLanguage status native).2.host = settings.host
      ∧ (settings.envDict uiLanguage status native).2.port = settings.port := by
  simp only [envDict, ensureStatusToken, ensureNativeChromeMCPToken]
  split_ifs <;> exact ⟨rfl, rfl⟩

lemma ensureSecrets_address (jwt : Vector UInt8 32) (activation : Vector UInt8 16) :
    (settings.ensureSecrets jwt activation).host = settings.host
      ∧ (settings.ensureSecrets jwt activation).port = settings.port := by
  simp only [ensureSecrets]
  split_ifs <;> exact ⟨rfl, rfl⟩

end AppSettings

/-! ## The invariant of a task -/

/-- The state of the runner at each place of a task, while a child is alive that the task has
started in reset mode. -/
def ResetPlace.Allows : ResetPlace → ServiceState → Prop
  | .starting .., _ | .ended, _ => True
  | .requesting _, state => state ≠ .starting
  | .restarting _, state => state = .stopping
  | .created _, _ | .stopping _, _ | .refreshing _, _ => False

/-- A child is alive that the task has started in reset mode. -/
def ResetTask.ChildAlive (task : ResetTask) (s : LuaRunner) : Prop :=
  ∃ k c, task.resetStart = some k ∧ s.Alive k c

/-- **The invariant of a task.** -/
structure ResetTask.Inv (task : ResetTask) (s : LuaRunner) : Prop where
  le : ∀ k, task.resetStart = some k → k ≤ s.starts
  environment : ∀ k c, task.resetStart = some k → s.Alive k c →
    c.environment "ALLOW_RESET_ROOT" = some "1"
  place : task.ChildAlive s → task.place.Allows s.state

lemma LuaRunner.ResetModeOn.serviceAlive {s : LuaRunner} (h : s.ResetModeOn) :
    s.ServiceAlive := by
  obtain ⟨n, c, hc, -⟩ := h
  exact ⟨n, c, hc⟩

lemma ResetPlace.Allows.passes {place : ResetPlace} {state state' : ServiceState}
    (h : place.Allows state) (hstate : state' = state ∨ state' = .stopping
      ∨ (state = .starting ∧ state' = .running)) : place.Allows state' := by
  cases place with
  | requesting request =>
      have hbefore : state ≠ .starting := h
      rcases hstate with rfl | rfl | ⟨hstarting, -⟩
      · exact hbefore
      · exact ServiceState.noConfusion
      · exact absurd hstarting hbefore
  | restarting result =>
      have hbefore : state = .stopping := h
      rcases hstate with rfl | rfl | ⟨hstarting, -⟩
      · exact hbefore
      · rfl
      · rw [hbefore] at hstarting
        cases hstarting
  | starting | ended => trivial
  | created | stopping | refreshing => exact h.elim

namespace ResetTask.Inv

variable {P : Platform} {s s' : LuaRunner} {task : ResetTask}

/-- Whatever happens to the runner, the other tasks keep their invariants. -/
lemma passes (h : task.Inv s) (hs : Passes s s') : task.Inv s' where
  le k hk := (h.le k hk).trans hs.starts
  environment k c' hk hc' := by
    obtain ⟨c, hc, henv⟩ := hs.alive k c' (h.le k hk) hc'
    rw [← henv]
    exact h.environment k c hk hc
  place := by
    rintro ⟨k, c', hk, hc'⟩
    obtain ⟨c, hc, -⟩ := hs.alive k c' (h.le k hk) hc'
    exact (h.place ⟨k, c, hk, hc⟩).passes (hs.state k c' (h.le k hk) hc')

lemma resetModeOn (h : task.Inv s) (hchild : task.ChildAlive s) : s.ResetModeOn := by
  obtain ⟨k, c, hk, hc⟩ := hchild
  exact ⟨k, c, hc, h.environment k c hk hc⟩

/-- The task goes on to another place. -/
lemma moveTo (h : task.Inv s) {place : ResetPlace}
    (hplace : task.ChildAlive s → place.Allows s.state) : { task with place := place }.Inv s :=
  ⟨h.le, h.environment, hplace⟩

end ResetTask.Inv

/-! ## What the task does between its waits -/

namespace SettingsSheets

variable {P : Platform} {v : SettingsSheets} {task : ResetTask}

lemma startService_runner (v : SettingsSheets) (start : ServiceStart) :
    ∃ env : Environment, env "ALLOW_RESET_ROOT" = none
      ∧ (v.startService P start).runner
        = v.runner.start P start.expandedRoot env start.outcome :=
  ⟨_, AppSettings.envDict_allowResetRoot _ _ _ _, rfl⟩

lemma startReset_runner (v : SettingsSheets) (start : ServiceStart) :
    ∃ env : Environment, env "ALLOW_RESET_ROOT" = some "1"
      ∧ (v.startReset P start).runner
        = v.runner.start P start.expandedRoot env start.outcome :=
  ⟨_, Environment.set_self _ _ _, rfl⟩

/-- A start that is turned away leaves the address of the service as it was. -/
lemma startReset_resetURL {start : ServiceStart} (h : (v.startReset P start).runner = v.runner) :
    (v.startReset P start).resetURL = v.resetURL := by
  have hsettings : (v.startReset P start).settings.host = v.settings.host
      ∧ (v.startReset P start).settings.port = v.settings.port := by
    have henv := AppSettings.envDict_address v.settings start.uiLanguage start.status start.native
    have hsecrets := AppSettings.ensureSecrets_address
      (v.settings.envDict start.uiLanguage start.status start.native).2 start.jwt start.activation
    exact ⟨hsecrets.1.trans henv.1, hsecrets.2.trans henv.2⟩
  simp only [resetURL, serviceBaseURL, h, hsettings.1, hsettings.2]

/-- A service that runs is not started, and no start leads straight to a service that runs. -/
lemma start_isRunning (s : LuaRunner) (documentRoot : String) (env : Environment)
    (o : StartOutcome) :
    s.start P documentRoot env o = s
      ∨ (s.start P documentRoot env o).isRunning = false ∧ s.isRunning = false := by
  by_cases hrunning : s.state = .running
  · exact Or.inl (if_neg (by simp [canStart, hrunning]))
  · rcases start_state (s := s) rfl with hsame | ⟨hstate, -⟩
    · exact Or.inl hsame
    · refine Or.inr ⟨?_, ?_⟩ <;> rw [Bool.eq_false_iff, Ne, isRunning_iff] <;> assumption

lemma request_cases (P : Platform) (v : SettingsSheets) (task : ResetTask) (password : String) :
    P.isURL v.resetURL = true
        ∧ (∃ request, v.request P task password
          = (v, { task with place := .requesting request }))
      ∨ P.isURL v.resetURL = false
        ∧ ∃ resetStatus, v.request P task password = v.giveUp task resetStatus := by
  rw [request]
  cases hurl : P.isURL v.resetURL with
  | true => exact Or.inl ⟨rfl, _, rfl⟩
  | false => exact Or.inr ⟨rfl, _, rfl⟩

/-- **A look at the service in reset mode**: the task gives up, goes on to its request with a
service that runs, or waits. -/
lemma awaitReset_cases (P : Platform) (v : SettingsSheets) (task : ResetTask) (password : String)
    (polls : ℕ) :
    ((if v.runner.isRunning = true then P.isURL v.resetURL = false else polls = 0)
        ∧ ∃ resetStatus, v.awaitReset P task password polls = v.giveUp task resetStatus)
      ∨ (v.runner.isRunning = true ∧ P.isURL v.resetURL = true
        ∧ ∃ request, v.awaitReset P task password polls
          = (v, { task with place := .requesting request }))
      ∨ (v.runner.isRunning = false ∧ ∃ n, polls = n + 1
        ∧ v.awaitReset P task password polls
          = (v, { task with place := .starting password n })) := by
  rw [awaitReset.eq_def]
  cases hrunning : v.runner.isRunning with
  | true =>
      rw [if_pos rfl, if_pos rfl]
      rcases request_cases P v task password with ⟨hurl, hrequest⟩ | ⟨hurl, hgiveUp⟩
      · exact Or.inr (Or.inl ⟨rfl, hurl, hrequest⟩)
      · exact Or.inl ⟨hurl, hgiveUp⟩
  | false =>
      cases polls with
      | zero => exact Or.inl ⟨rfl, _, rfl⟩
      | succ n => exact Or.inr (Or.inr ⟨rfl, n, rfl, rfl⟩)

/-- **A look at the restarted service.** -/
lemma awaitRestart_cases (v : SettingsSheets) (task : ResetTask) (polls : ℕ) :
    ((polls = 0 ∨ v.runner.isRunning = true)
        ∧ v.awaitRestart task polls = (v, { task with place := .ended }))
      ∨ (v.runner.isRunning = false ∧ ∃ n, polls = n + 1
        ∧ v.awaitRestart task polls = (v, { task with place := .refreshing n })) := by
  cases polls with
  | zero => exact Or.inl ⟨Or.inl rfl, rfl⟩
  | succ n =>
      rw [awaitRestart]
      cases hrunning : v.runner.isRunning with
      | true => exact Or.inl ⟨Or.inr rfl, rfl⟩
      | false => exact Or.inr ⟨rfl, n, rfl, rfl⟩

/-! ## Steps of a task -/

/-- The runner stays as it is.  It does not matter where the task has been. -/
lemma awaitReset_inv (task : ResetTask) (h : { task with place := .ended }.Inv v.runner)
    (password : String) (polls : ℕ) :
    (v.awaitReset P task password polls).1.runner = v.runner
      ∧ (v.awaitReset P task password polls).2.resetStart = task.resetStart
      ∧ (v.awaitReset P task password polls).2.Inv v.runner := by
  rcases awaitReset_cases P v task password polls with
    ⟨-, resetStatus, heq⟩ | ⟨hrunning, -, request, heq⟩ | ⟨-, n, -, heq⟩
  · rw [heq]
    exact ⟨rfl, rfl, h.moveTo fun _ => trivial⟩
  · rw [heq]
    refine ⟨rfl, rfl, h.moveTo fun _ => ?_⟩
    have hstate : v.runner.state = .running := isRunning_iff.mp hrunning
    rw [hstate]
    exact ServiceState.noConfusion
  · rw [heq]
    exact ⟨rfl, rfl, h.moveTo fun _ => trivial⟩

lemma awaitRestart_inv (h : { task with place := .ended }.Inv v.runner)
    (hgone : ¬ task.ChildAlive v.runner) (polls : ℕ) :
    (v.awaitRestart task polls).1.runner = v.runner
      ∧ (v.awaitRestart task polls).2.resetStart = task.resetStart
      ∧ (v.awaitRestart task polls).2.Inv v.runner := by
  rcases awaitRestart_cases v task polls with ⟨-, heq⟩ | ⟨-, n, -, heq⟩
  · rw [heq]
    exact ⟨rfl, rfl, h.moveTo fun _ => trivial⟩
  · rw [heq]
    exact ⟨rfl, rfl, h.moveTo fun hchild => absurd hchild hgone⟩

end SettingsSheets

/-- **What a step of a task does** to the runner, to the task itself, and to reset mode: a child in
reset mode is its own, or was there and was another's. -/
structure TaskStep (P : Platform) (s : LuaRunner) (task : ResetTask) (s' : LuaRunner)
    (task' : ResetTask) : Prop where
  children : ChildrenInv P s'
  passes : Passes s s'
  inv : task'.Inv s'
  reset : P.environment "ALLOW_RESET_ROOT" ≠ some "1" → ∀ k c', s'.Alive k c' →
    c'.environment "ALLOW_RESET_ROOT" = some "1" → task'.resetStart = some k
      ∨ task.resetStart ≠ some k
        ∧ ∃ c, s.Alive k c ∧ c.environment "ALLOW_RESET_ROOT" = some "1"

namespace TaskStep

variable {P : Platform} {s s₁ s' : LuaRunner} {task task' : ResetTask}

/-- A step in which the task starts nothing in reset mode. -/
lemma mk_same (children : ChildrenInv P s') (passes : Passes s s') (inv : task'.Inv s')
    (hsame : task'.resetStart = task.resetStart)
    (hold : P.environment "ALLOW_RESET_ROOT" ≠ some "1" → ∀ k c', s'.Alive k c' →
      c'.environment "ALLOW_RESET_ROOT" = some "1" →
        ∃ c, s.Alive k c ∧ c.environment "ALLOW_RESET_ROOT" = some "1") :
    TaskStep P s task s' task' := by
  refine ⟨children, passes, inv, fun happ k c' hc' hreset => ?_⟩
  by_cases hown : task.resetStart = some k
  · exact Or.inl (hsame.trans hown)
  · exact Or.inr ⟨hown, hold happ k c' hc' hreset⟩

/-- The runner stays as it is. -/
lemma stay (hs : ChildrenInv P s) (inv : task'.Inv s)
    (hsame : task'.resetStart = task.resetStart) : TaskStep P s task s task' :=
  mk_same hs (Passes.refl s) inv hsame fun _ _ c' hc' hreset => ⟨c', hc', hreset⟩

/-- A step that begins with a call of `stop`. -/
lemma of_stop (h : TaskStep P s.stop task s' task') : TaskStep P s task s' task' := by
  refine ⟨h.children, ((stop_fades s).passes s.stop_moves).trans h.passes, h.inv,
    fun happ k c' hc' hreset => (h.reset happ k c' hc' hreset).imp_right ?_⟩
  rintro ⟨hown, c₁, hc₁, hreset₁⟩
  obtain ⟨c, hc, -, henv⟩ := (stop_fades s).alive k c₁ hc₁
  exact ⟨hown, c, hc, henv ▸ hreset₁⟩

end TaskStep

namespace SettingsSheets

variable {P : Platform} {v : SettingsSheets} {task : ResetTask}

/-- **The first start**, by a task that has not started anything that is alive. -/
lemma enterReset_step (hv : ChildrenInv P v.runner) (h : task.Inv v.runner)
    (hgone : ¬ task.ChildAlive v.runner) (password : String) (start : ServiceStart) :
    TaskStep P v.runner task (v.enterReset P task password start).1.runner
      (v.enterReset P task password start).2 := by
  rw [enterReset]
  split_ifs with hstopping
  · exact TaskStep.stay hv (h.moveTo fun hchild => absurd hchild hgone) rfl
  dsimp only
  obtain ⟨env, henv, hrunner⟩ := startReset_runner (P := P) v start
  have hchildren := hv.start start.expandedRoot start.outcome (Or.inr henv)
  have hpasses := start_passes hv start.expandedRoot env start.outcome
  rw [← hrunner] at hchildren hpasses
  rcases start_children hv start.expandedRoot env start.outcome with haway | ⟨-, hstarts, hnew⟩
  · -- turned away: the task has no child of its own
    rw [← hrunner] at haway
    rw [if_pos (by rw [haway])]
    have hnone : (⟨task.sheet, .ended, none⟩ : ResetTask).Inv (v.startReset P start).runner :=
      ⟨fun k hk => (by cases hk), fun k c hk => (by cases hk), fun _ => trivial⟩
    obtain ⟨hsame, -, hinv⟩ := awaitReset_inv (P := P)
      { task with resetStart := none } hnone password 50
    rw [hsame]
    refine ⟨hchildren, hpasses, hinv, fun _ k c' hc' hreset => Or.inr ⟨fun hown => ?_, c', ?_⟩⟩
    · exact hgone ⟨k, c', hown, haway ▸ hc'⟩
    · exact ⟨haway ▸ hc', hreset⟩
  · rw [← hrunner] at hstarts hnew
    rw [if_neg (by omega)]
    have hown : (⟨task.sheet, .ended, some (v.startReset P start).runner.starts⟩ : ResetTask).Inv
        (v.startReset P start).runner := by
      refine ⟨fun k hk => (Option.some.inj hk).ge, fun k c _ hc => ?_, fun _ => trivial⟩
      rw [(hnew k c hc).2.2, henv, Option.some_or]
    obtain ⟨hsame, hresetStart, hinv⟩ := awaitReset_inv (P := P)
      { task with resetStart := some (v.startReset P start).runner.starts } hown password 50
    rw [hsame]
    refine ⟨hchildren, hpasses, hinv, fun _ k c' hc' _ => Or.inl ?_⟩
    rw [hresetStart, (hnew k c' hc').1, hstarts]

/-- **The second start ends reset mode**, since it comes behind `stopping`. -/
lemma restart_step (hv : ChildrenInv P v.runner) (h : { task with place := .ended }.Inv v.runner)
    (hstopping : task.ChildAlive v.runner → v.runner.state = .stopping) (result : String)
    (start : ServiceStart) :
    TaskStep P v.runner task (v.restart P task result start).1.runner
      (v.restart P task result start).2 := by
  rw [restart]
  split_ifs with hstate
  · exact TaskStep.stay hv (h.moveTo fun _ => hstate) rfl
  obtain ⟨env, henv, hrunner⟩ := startService_runner (P := P) v start
  have hpasses := start_passes hv start.expandedRoot env start.outcome
  have hgone : ¬ task.ChildAlive (v.startService P start).runner := by
    rintro ⟨k, c', hk, hc'⟩
    obtain ⟨c, hc, -⟩ := hpasses.alive k c' (h.le k hk) (hrunner ▸ hc')
    exact hstate (hstopping ⟨k, c, hk, hc⟩)
  have hstarted : { task with place := .ended }.Inv
      ((v.startService P start).showResult task.sheet result).runner := by
    show { task with place := .ended }.Inv (v.startService P start).runner
    exact hrunner ▸ h.passes hpasses
  obtain ⟨hsame, hresetStart, hinv⟩ := awaitRestart_inv hstarted hgone 50
  rw [show ((v.startService P start).showResult task.sheet result).runner
    = v.runner.start P start.expandedRoot env start.outcome from hrunner] at hsame hinv
  rw [hsame]
  refine TaskStep.mk_same (hv.start _ _ (Or.inl henv)) hpasses hinv hresetStart ?_
  exact fun happ k c' hc' hreset => ⟨c', hv.start_normal _ _ henv happ hc' hreset, hreset⟩

lemma resume_step (hv : ChildrenInv P v.runner) (h : task.Inv v.runner) {start : ServiceStart}
    {r : SettingsSheets × ResetTask} (hstep : v.resume P task start = some r) :
    TaskStep P v.runner task r.1.runner r.2 := by
  have hended : { task with place := .ended }.Inv v.runner := h.moveTo fun _ => trivial
  rw [resume] at hstep
  cases hplace : task.place with
  | created password =>
      rw [hplace] at hstep
      have hgone : ∀ {s : LuaRunner}, task.Inv s → ¬ task.ChildAlive s := by
        intro s hs hchild
        have hnot := hs.place hchild
        rw [hplace] at hnot
        exact hnot
      obtain rfl := Option.some.inj hstep
      by_cases hcan : v.runner.canStop = true
      · have hstop := h.passes ((stop_fades v.runner).passes v.runner.stop_moves)
        simp only [hcan, if_true]
        exact (enterReset_step (v := { v with runner := v.runner.stop }) hv.stop hstop
          (hgone hstop) password start).of_stop
      · simp only [hcan]
        exact enterReset_step hv h (hgone h) password start
  | stopping password =>
      rw [hplace] at hstep
      obtain rfl := Option.some.inj hstep
      refine enterReset_step hv h (fun hchild => ?_) password start
      have hnot := h.place hchild
      rw [hplace] at hnot
      exact hnot
  | starting password polls =>
      rw [hplace] at hstep
      obtain rfl := Option.some.inj hstep
      obtain ⟨hsame, hresetStart, hinv⟩ := awaitReset_inv (P := P) task hended password polls
      rw [hsame]
      exact TaskStep.stay hv hinv hresetStart
  | restarting result =>
      rw [hplace] at hstep
      obtain rfl := Option.some.inj hstep
      refine restart_step hv hended (fun hchild => ?_) result start
      have hstopping := h.place hchild
      rw [hplace] at hstopping
      exact hstopping
  | refreshing polls =>
      rw [hplace] at hstep
      obtain rfl := Option.some.inj hstep
      have hgone : ¬ task.ChildAlive v.runner := by
        intro hchild
        have hnot := h.place hchild
        rw [hplace] at hnot
        exact hnot
      obtain ⟨hsame, hresetStart, hinv⟩ := awaitRestart_inv hended hgone polls
      rw [hsame]
      exact TaskStep.stay hv hinv hresetStart
  | _ =>
      rw [hplace] at hstep
      cases hstep

lemma respond_step (hv : ChildrenInv P v.runner) (h : task.Inv v.runner)
    {response : ResetResponse} {start : ServiceStart} {r : SettingsSheets × ResetTask}
    (hstep : v.respond P task response start = some r) :
    TaskStep P v.runner task r.1.runner r.2 := by
  rw [respond] at hstep
  cases hplace : task.place with
  | requesting request =>
      rw [hplace] at hstep
      obtain rfl := Option.some.inj hstep
      have hpasses := (stop_fades v.runner).passes v.runner.stop_moves
      have hended : { task with place := .ended }.Inv v.runner.stop :=
        (h.passes hpasses).moveTo fun _ => trivial
      refine (restart_step (v := { v with runner := v.runner.stop }) hv.stop hended ?_
        response.result start).of_stop
      rintro ⟨k, c', hk, hc'⟩
      obtain ⟨c, hc, -⟩ := hpasses.alive k c' (h.le k hk) hc'
      have hbefore := h.place ⟨k, c, hk, hc⟩
      rw [hplace] at hbefore
      exact hv.state_stop hbefore ⟨k, c', hc'⟩
  | _ =>
      rw [hplace] at hstep
      cases hstep

end SettingsSheets

/-! ## The invariant -/

namespace ResetSystem

variable {P : Platform} {s s' : ResetSystem}

/-- Starts of the runner come from the app. -/
lemma step_runner {e : RunnerEvent} (h : s.step P (.runner e) = some s') :
    (∀ documentRoot env o, e ≠ .start documentRoot env o)
      ∧ ∃ r, s.runner.step P e = some r ∧ s' = { s with runner := r } := by
  cases e with
  | start documentRoot env o => cases h
  | _ =>
      simp only [step, Option.map_eq_some_iff] at h
      obtain ⟨r, hr, rfl⟩ := h
      exact ⟨fun _ _ _ => RunnerEvent.noConfusion, r, hr, rfl⟩

lemma step_resume {n : ℕ} {start : ServiceStart} (h : s.step P (.resume n start) = some s') :
    ∃ task, s.tasks n = some task
      ∧ ∃ r, s.toSettingsSheets.resume P task start = some r ∧ s' = s.store n r := by
  simp only [step, Option.bind_eq_some_iff, Option.map_eq_some_iff] at h
  obtain ⟨task, htask, r, hr, rfl⟩ := h
  exact ⟨task, htask, r, hr, rfl⟩

lemma step_respond {n : ℕ} {response : ResetResponse} {start : ServiceStart}
    (h : s.step P (.respond n response start) = some s') :
    ∃ task, s.tasks n = some task
      ∧ ∃ r, s.toSettingsSheets.respond P task response start = some r ∧ s' = s.store n r := by
  simp only [step, Option.bind_eq_some_iff, Option.map_eq_some_iff] at h
  obtain ⟨task, htask, r, hr, rfl⟩ := h
  exact ⟨task, htask, r, hr, rfl⟩

end ResetSystem

/-- **The invariant.**  A child in reset mode was started by one of the tasks, except in an app
that has been started with the variable: there all children have it. -/
structure ResetInv (P : Platform) (s : ResetSystem) : Prop where
  children : ChildrenInv P s.runner
  tasks : ∀ n task, s.tasks n = some task → task.Inv s.runner
  begun_lt : ∀ n task, s.tasks n = some task → n < s.begun
  reset : P.environment "ALLOW_RESET_ROOT" ≠ some "1" → ∀ k c, s.runner.Alive k c →
    c.environment "ALLOW_RESET_ROOT" = some "1" →
      ∃ n task, s.tasks n = some task ∧ task.resetStart = some k

namespace ResetInv

variable {P : Platform} {s : ResetSystem}

/-- Something happens to the runner that starts nothing in reset mode. -/
lemma runner (h : ResetInv P s) {v : SettingsSheets} (hchildren : ChildrenInv P v.runner)
    (hpasses : Passes s.runner v.runner)
    (hold : P.environment "ALLOW_RESET_ROOT" ≠ some "1" → ∀ k c', v.runner.Alive k c' →
      c'.environment "ALLOW_RESET_ROOT" = some "1" →
        ∃ c, s.runner.Alive k c ∧ c.environment "ALLOW_RESET_ROOT" = some "1") :
    ResetInv P { s with toSettingsSheets := v } := by
  refine ⟨hchildren, fun n task hn => (h.tasks n task hn).passes hpasses, h.begun_lt,
    fun happ k c' hc' hreset => ?_⟩
  obtain ⟨c, hc, hreset'⟩ := hold happ k c' hc' hreset
  exact h.reset happ k c hc hreset'

/-- A new task changes nothing for the others. -/
lemma begin (h : ResetInv P s) {v : SettingsSheets} (hv : v.runner = s.runner) {task : ResetTask}
    (hnew : task.resetStart = none) : ResetInv P (s.begin (v, some task)) where
  children := hv ▸ h.children
  tasks n task' hn := by
    show task'.Inv v.runner
    rw [hv]
    by_cases hlast : n = s.begun
    · subst hlast
      obtain rfl : task = task' := by simpa [ResetSystem.begin] using hn
      exact ⟨fun k hk => by simp [hnew] at hk, fun k c hk => by simp [hnew] at hk,
        fun ⟨k, c, hk, _⟩ => by simp [hnew] at hk⟩
    · refine h.tasks n task' ?_
      simpa [ResetSystem.begin, hlast] using hn
  begun_lt n task' hn := by
    show n < s.begun + 1
    by_cases hlast : n = s.begun
    · omega
    · have hold : s.tasks n = some task' := by simpa [ResetSystem.begin, hlast] using hn
      exact (h.begun_lt n task' hold).trans (Nat.lt_succ_self _)
  reset happ k c hc hreset := by
    obtain ⟨n, task', hn, hk⟩ := h.reset happ k c (hv ▸ hc) hreset
    refine ⟨n, task', ?_, hk⟩
    simpa [ResetSystem.begin, (h.begun_lt n task' hn).ne] using hn

/-- **A task goes on.** -/
lemma store (h : ResetInv P s) {n : ℕ} {task : ResetTask} {r : SettingsSheets × ResetTask}
    (htask : s.tasks n = some task) (hstep : TaskStep P s.runner task r.1.runner r.2) :
    ResetInv P (s.store n r) where
  children := hstep.children
  tasks m other hm := by
    show other.Inv r.1.runner
    by_cases hmn : m = n
    · subst hmn
      obtain rfl : r.2 = other := by simpa [ResetSystem.store] using hm
      exact hstep.inv
    · refine (h.tasks m other ?_).passes hstep.passes
      simpa [ResetSystem.store, hmn] using hm
  begun_lt m other hm := by
    show m < s.begun
    by_cases hmn : m = n
    · exact hmn ▸ h.begun_lt n task htask
    · refine h.begun_lt m other ?_
      simpa [ResetSystem.store, hmn] using hm
  reset happ k c' hc' hreset := by
    rcases hstep.reset happ k c' hc' hreset with hown | ⟨hother, c, hc, hreset'⟩
    · exact ⟨n, r.2, Function.update_self _ _ _, hown⟩
    · obtain ⟨m, other, hm, hk⟩ := h.reset happ k c hc hreset'
      have hmn : m ≠ n := by
        rintro rfl
        obtain rfl := Option.some.inj (htask.symm.trans hm)
        exact hother hk
      refine ⟨m, other, ?_, hk⟩
      simpa [ResetSystem.store, hmn] using hm

/-- **Every step keeps the invariant.** -/
theorem step (h : ResetInv P s) {e : SheetEvent} {s' : ResetSystem}
    (hstep : s.step P e = some s') : ResetInv P s' := by
  cases e with
  | edit settings file =>
      obtain rfl := Option.some.inj hstep
      exact ⟨h.children, h.tasks, h.begun_lt, h.reset⟩
  | startService start =>
      obtain rfl := Option.some.inj hstep
      obtain ⟨env, henv, hrunner⟩ :=
        SettingsSheets.startService_runner (P := P) s.toSettingsSheets start
      refine h.runner ?_ ?_ ?_
      · exact hrunner ▸ h.children.start _ _ (Or.inl henv)
      · exact hrunner ▸ start_passes h.children _ _ _
      · rw [hrunner]
        exact fun happ k c' hc' hreset =>
          ⟨c', h.children.start_normal _ _ henv happ hc' hreset, hreset⟩
  | runner e =>
      obtain ⟨hstart, r, hr, rfl⟩ := ResetSystem.step_runner hstep
      have hfades := step_fades h.children hr hstart
      refine h.runner (h.children.fades (h.children.life.moves (step_moves hr)) hfades)
        (hfades.passes (step_moves hr)) fun _ k c' hc' hreset => ?_
      obtain ⟨c, hc, -, henv⟩ := hfades.alive k c' hc'
      exact ⟨c, hc, henv ▸ hreset⟩
  | performResetPassword sheet newPassword =>
      rw [ResetSystem.step] at hstep
      split_ifs at hstep
      obtain rfl := Option.some.inj hstep
      rw [SettingsSheets.performResetPassword]
      split_ifs
      · refine h.begin ?_ ?_
        · rfl
        · rfl
      · exact h
  | resume n start =>
      obtain ⟨task, htask, r, hresume, rfl⟩ := ResetSystem.step_resume hstep
      exact h.store htask
        (SettingsSheets.resume_step h.children (h.tasks n task htask) hresume)
  | respond n response start =>
      obtain ⟨task, htask, r, hrespond, rfl⟩ := ResetSystem.step_respond hstep
      exact h.store htask
        (SettingsSheets.respond_step h.children (h.tasks n task htask) hrespond)

end ResetInv

/-! ## The end of a task -/

/-- **When a task ends, no living child was started with `ALLOW_RESET_ROOT=1`.** -/
def EndsOutOfResetMode (s : ResetSystem) (_ : SheetEvent) (s' : ResetSystem) : Prop :=
  ∀ n task task', s.tasks n = some task → s'.tasks n = some task' → task.place ≠ .ended →
    task'.place = .ended → ¬ s'.runner.ResetModeOn

/-- The task is about to return early: the service has not come up in time, or the URL is none. -/
def ResetTask.ReturnsEarly (P : Platform) (task : ResetTask) (v : SettingsSheets) : Prop :=
  match task.place with
  | .stopping _ => v.runner.isRunning = true ∧ P.isURL v.resetURL = false
  | .starting _ polls =>
      if v.runner.isRunning = true then P.isURL v.resetURL = false else polls = 0
  | _ => False

/-- The task is about to end behind its second start. -/
def ResetTask.Finishes (task : ResetTask) (v : SettingsSheets) : Prop :=
  match task.place with
  | .restarting _ => v.runner.isRunning = true
  | .refreshing polls => polls = 0 ∨ v.runner.isRunning = true
  | _ => False

/-- **The condition**: where a task returns early, no child in reset mode is alive; and where it
finishes, none that another task has started in reset mode, and no child at all if the app itself
has been started with the variable. -/
def LeavesResetMode (P : Platform) (s : ResetSystem) (e : SheetEvent) : Prop :=
  ∀ n start task, e = .resume n start → s.tasks n = some task →
    (task.ReturnsEarly P s.toSettingsSheets → ¬ s.runner.ResetModeOn)
      ∧ (task.Finishes s.toSettingsSheets →
        (∀ m other, m ≠ n → s.tasks m = some other → ¬ other.ChildAlive s.runner)
          ∧ (P.environment "ALLOW_RESET_ROOT" = some "1" → ¬ s.runner.ServiceAlive))

section End

variable {P : Platform} {v : SettingsSheets} {task : ResetTask}

lemma awaitReset_ended (P : Platform) (v : SettingsSheets) (task : ResetTask) (password : String)
    (polls : ℕ) :
    ((v.awaitReset P task password polls).2.place = .ended
        ↔ if v.runner.isRunning = true then P.isURL v.resetURL = false else polls = 0)
      ∧ (v.awaitReset P task password polls).1.runner = v.runner := by
  rcases SettingsSheets.awaitReset_cases P v task password polls with
    ⟨hearly, resetStatus, heq⟩ | ⟨hrunning, hurl, request, heq⟩ | ⟨hrunning, n, rfl, heq⟩
  · rw [heq]
    exact ⟨iff_of_true rfl hearly, rfl⟩
  · rw [heq, if_pos hrunning]
    exact ⟨iff_of_false ResetPlace.noConfusion (by simp [hurl]), rfl⟩
  · rw [heq, hrunning, if_neg (by simp)]
    exact ⟨iff_of_false ResetPlace.noConfusion (Nat.succ_ne_zero n), rfl⟩

lemma awaitRestart_ended (v : SettingsSheets) (task : ResetTask) (polls : ℕ) :
    ((v.awaitRestart task polls).2.place = .ended ↔ polls = 0 ∨ v.runner.isRunning = true)
      ∧ (v.awaitRestart task polls).1.runner = v.runner := by
  rcases SettingsSheets.awaitRestart_cases v task polls with ⟨hdone, heq⟩ | ⟨hrunning, n, rfl, heq⟩
  · rw [heq]
    exact ⟨iff_of_true rfl hdone, rfl⟩
  · rw [heq]
    exact ⟨iff_of_false ResetPlace.noConfusion (by simp [hrunning]), rfl⟩

/-- The first start can only be turned away in front of an early return. -/
lemma enterReset_ended (P : Platform) (v : SettingsSheets) (task : ResetTask) (password : String)
    (start : ServiceStart) :
    ((v.enterReset P task password start).2.place = .ended
        ↔ v.runner.isRunning = true ∧ P.isURL v.resetURL = false)
      ∧ ((v.enterReset P task password start).2.place = .ended →
          (v.enterReset P task password start).1.runner = v.runner) := by
  rw [SettingsSheets.enterReset]
  by_cases hstate : v.runner.state = .stopping
  · rw [if_pos hstate]
    have hrunning : ¬ v.runner.isRunning = true := by simp [isRunning_iff, hstate]
    exact ⟨iff_of_false ResetPlace.noConfusion fun h => hrunning h.1, fun _ => rfl⟩
  · rw [if_neg hstate]
    dsimp only
    obtain ⟨env, -, hrunner⟩ := SettingsSheets.startReset_runner (P := P) v start
    generalize (if (v.startReset P start).runner.starts = v.runner.starts then none
      else some (v.startReset P start).runner.starts) = resetStart
    obtain ⟨hended, hsame⟩ := awaitReset_ended P (v.startReset P start)
      { task with resetStart := resetStart } password 50
    rcases SettingsSheets.start_isRunning (P := P) v.runner start.expandedRoot env
      start.outcome with haway | ⟨hnew, hold⟩
    · rw [haway] at hrunner
      refine ⟨hended.trans ?_, fun _ => hsame.trans hrunner⟩
      rw [hrunner, SettingsSheets.startReset_resetURL hrunner]
      by_cases hrunning : v.runner.isRunning = true
      · simp [hrunning]
      · simp [hrunning]
    · rw [← hrunner] at hnew
      rw [hnew, if_neg (by simp)] at hended
      have hnot : ¬ _ := fun h => absurd (hended.mp h) (by decide)
      exact ⟨iff_of_false hnot (by simp [hold]), fun h => absurd h hnot⟩

/-- The second start can only be turned away where the task finishes at once. -/
lemma restart_ended (P : Platform) (v : SettingsSheets) (task : ResetTask) (result : String)
    (start : ServiceStart) :
    ((v.restart P task result start).2.place = .ended ↔ v.runner.isRunning = true)
      ∧ ((v.restart P task result start).2.place = .ended →
          (v.restart P task result start).1.runner = v.runner) := by
  rw [SettingsSheets.restart]
  by_cases hstate : v.runner.state = .stopping
  · rw [if_pos hstate]
    have hrunning : ¬ v.runner.isRunning = true := by simp [isRunning_iff, hstate]
    exact ⟨iff_of_false ResetPlace.noConfusion hrunning, fun _ => rfl⟩
  · rw [if_neg hstate]
    obtain ⟨env, -, hrunner⟩ := SettingsSheets.startService_runner (P := P) v start
    obtain ⟨hended, hsame⟩ :=
      awaitRestart_ended ((v.startService P start).showResult task.sheet result) task 50
    have hshown : ((v.startService P start).showResult task.sheet result).runner
        = v.runner.start P start.expandedRoot env start.outcome := hrunner
    rw [hshown] at hended hsame
    rcases SettingsSheets.start_isRunning (P := P) v.runner start.expandedRoot env
      start.outcome with haway | ⟨hnew, hold⟩
    · rw [haway] at hended hsame
      exact ⟨hended.trans (by simp), fun _ => hsame⟩
    · rw [hnew] at hended
      have hnot : ¬ _ := fun h => absurd (hended.mp h) (by simp)
      exact ⟨iff_of_false hnot (by simp [hold]), fun h => absurd h hnot⟩

/-- **Where a task ends**, the runner is left as it is. -/
lemma resume_ended (hv : ChildrenInv P v.runner) {start : ServiceStart}
    {r : SettingsSheets × ResetTask} (hstep : v.resume P task start = some r) :
    (r.2.place = .ended ↔ task.ReturnsEarly P v ∨ task.Finishes v)
      ∧ (r.2.place = .ended → r.1.runner = v.runner) := by
  rw [SettingsSheets.resume] at hstep
  simp only [ResetTask.ReturnsEarly, ResetTask.Finishes]
  cases hplace : task.place with
  | created password =>
      rw [hplace] at hstep
      obtain rfl := Option.some.inj hstep
      -- behind its first step the service does not run
      have hrunning : (if v.runner.canStop then v.runner.stop else v.runner).isRunning = false := by
        split_ifs with hcan
        · exact hv.not_isRunning_stop
        · rw [Bool.eq_false_iff, Ne, isRunning_iff]
          intro hstate
          exact hcan (by simp [canStop, hstate])
      have hnot : ¬ (SettingsSheets.enterReset P
          { v with runner := if v.runner.canStop then v.runner.stop else v.runner } task password
          start).2.place = .ended := by
        rw [(enterReset_ended P _ task password start).1]
        simp [hrunning]
      exact ⟨iff_of_false hnot (by simp), fun hended => absurd hended hnot⟩
  | stopping password =>
      rw [hplace] at hstep
      obtain rfl := Option.some.inj hstep
      simpa using enterReset_ended P v task password start
  | starting password polls =>
      rw [hplace] at hstep
      obtain rfl := Option.some.inj hstep
      obtain ⟨hended, hsame⟩ := awaitReset_ended P v task password polls
      exact ⟨by simpa using hended, fun _ => hsame⟩
  | restarting result =>
      rw [hplace] at hstep
      obtain rfl := Option.some.inj hstep
      simpa using restart_ended P v task result start
  | refreshing polls =>
      rw [hplace] at hstep
      obtain rfl := Option.some.inj hstep
      obtain ⟨hended, hsame⟩ := awaitRestart_ended v task polls
      exact ⟨by simpa using hended, fun _ => hsame⟩
  | _ =>
      rw [hplace] at hstep
      cases hstep

/-- A task does not end behind its request: the service does not run there. -/
lemma respond_not_ended (hv : ChildrenInv P v.runner) {response : ResetResponse}
    {start : ServiceStart} {r : SettingsSheets × ResetTask}
    (hstep : v.respond P task response start = some r) : r.2.place ≠ .ended := by
  rw [SettingsSheets.respond] at hstep
  split at hstep
  · obtain rfl := Option.some.inj hstep
    intro hended
    have hrunning := (restart_ended P { v with runner := v.runner.stop } task response.result
      start).1.mp hended
    have hstopped := hv.not_isRunning_stop
    simp only at hrunning
    rw [hrunning] at hstopped
    cases hstopped
  · cases hstep

end End

section System

variable {P : Platform} {s s' : ResetSystem}

lemma ResetSystem.store_self (s : ResetSystem) (n : ℕ) (r : SettingsSheets × ResetTask) :
    (s.store n r).tasks n = some r.2 := by
  simp [store]

/-- What is stored of one task leaves the others as they are. -/
lemma ResetSystem.store_tasks {n m : ℕ} {r : SettingsSheets × ResetTask} {task task' : ResetTask}
    (hm : s.tasks m = some task) (hm' : (s.store n r).tasks m = some task')
    (hopen : task.place ≠ .ended) (hended : task'.place = .ended) : m = n ∧ task' = r.2 := by
  by_cases hmn : m = n
  · subst hmn
    refine ⟨rfl, ?_⟩
    simpa [store, eq_comm] using hm'
  · have hsame : s.tasks m = some task' := by simpa [store, hmn] using hm'
    obtain rfl := Option.some.inj (hm.symm.trans hsame)
    exact absurd hended hopen

/-- Only a step of the task itself ends it. -/
lemma task_ended (h : ResetInv P s) {e : SheetEvent} (hstep : s.step P e = some s') {n : ℕ}
    {task task' : ResetTask} (hn : s.tasks n = some task) (hn' : s'.tasks n = some task')
    (hopen : task.place ≠ .ended) (hended : task'.place = .ended) :
    ∃ start r, e = .resume n start ∧ s.toSettingsSheets.resume P task start = some r
      ∧ s' = s.store n r ∧ task' = r.2 := by
  have hkept : s'.tasks n ≠ s.tasks n := by
    intro hsame
    obtain rfl := Option.some.inj (hn'.symm.trans (hsame.trans hn))
    exact hopen hended
  cases e with
  | resume m start =>
      obtain ⟨other, hother, r, hresume, rfl⟩ := ResetSystem.step_resume hstep
      obtain ⟨rfl, rfl⟩ := ResetSystem.store_tasks hn hn' hopen hended
      obtain rfl := Option.some.inj (hn.symm.trans hother)
      exact ⟨start, r, rfl, hresume, rfl, rfl⟩
  | respond m response start =>
      obtain ⟨other, -, r, hrespond, rfl⟩ := ResetSystem.step_respond hstep
      obtain ⟨rfl, rfl⟩ := ResetSystem.store_tasks hn hn' hopen hended
      exact absurd hended (respond_not_ended h.children hrespond)
  | edit settings file =>
      obtain rfl := Option.some.inj hstep
      exact absurd rfl hkept
  | startService start =>
      obtain rfl := Option.some.inj hstep
      exact absurd rfl hkept
  | runner e =>
      obtain ⟨-, r, -, rfl⟩ := ResetSystem.step_runner hstep
      exact absurd rfl hkept
  | performResetPassword sheet newPassword =>
      rw [ResetSystem.step] at hstep
      split_ifs at hstep
      obtain rfl := Option.some.inj hstep
      refine absurd ?_ hkept
      rw [SettingsSheets.performResetPassword]
      split_ifs
      · exact Function.update_of_ne (h.begun_lt n task hn).ne _ _
      · rfl

/-- In an app with the variable every child is in reset mode. -/
lemma ChildrenInv.resetModeOn {s : LuaRunner} (hs : ChildrenInv P s)
    (happ : P.environment "ALLOW_RESET_ROOT" = some "1") (halive : s.ServiceAlive) :
    s.ResetModeOn := by
  obtain ⟨n, c, hc⟩ := halive
  rcases hs.environment n c hc with hreset | hinherited
  · exact ⟨n, c, hc, hreset⟩
  · exact ⟨n, c, hc, hinherited.trans happ⟩

/-- Where a task finishes, its own child in reset mode is gone. -/
lemma ResetTask.Inv.not_childAlive {v : SettingsSheets} {task : ResetTask} (h : task.Inv v.runner)
    (hfinishes : task.Finishes v) : ¬ task.ChildAlive v.runner := by
  intro hchild
  have hplace := h.place hchild
  rw [ResetTask.Finishes] at hfinishes
  cases htask : task.place with
  | restarting result =>
      rw [htask] at hplace hfinishes
      have hstopping : v.runner.state = .stopping := hplace
      rw [isRunning_iff, hstopping] at hfinishes
      cases hfinishes
  | refreshing polls =>
      rw [htask] at hplace
      exact hplace
  | _ =>
      rw [htask] at hfinishes
      exact hfinishes

/-- In any other app, the task finishes in reset mode only through the child of another task. -/
lemma ResetInv.not_resetModeOn (h : ResetInv P s) {n : ℕ} {task : ResetTask}
    (hn : s.tasks n = some task) (hfinishes : task.Finishes s.toSettingsSheets)
    (hothers : ∀ m other, m ≠ n → s.tasks m = some other → ¬ other.ChildAlive s.runner)
    (happ : P.environment "ALLOW_RESET_ROOT" ≠ some "1") : ¬ s.runner.ResetModeOn := by
  rintro ⟨k, c, hc, hreset⟩
  obtain ⟨m, other, hm, hk⟩ := h.reset happ k c hc hreset
  by_cases hmn : m = n
  · subst hmn
    obtain rfl := Option.some.inj (hn.symm.trans hm)
    exact (h.tasks m task hn).not_childAlive hfinishes ⟨k, c, hk, hc⟩
  · exact hothers m other hmn hm ⟨k, c, hk, hc⟩

/-- **Property and condition say the same of each transition.** -/
lemma ResetInv.ends_iff (h : ResetInv P s) {e : SheetEvent} (hstep : s.step P e = some s') :
    EndsOutOfResetMode s e s' ↔ LeavesResetMode P s e := by
  constructor
  · rintro hout n start task rfl hn
    obtain ⟨other, hother, r, hresume, rfl⟩ := ResetSystem.step_resume hstep
    obtain rfl := Option.some.inj (hn.symm.trans hother)
    obtain ⟨hended, hsame⟩ := resume_ended h.children hresume
    have hopen : task.place ≠ .ended := by
      intro hplace
      rw [SettingsSheets.resume, hplace] at hresume
      cases hresume
    have hoff : r.2.place = .ended → ¬ s.runner.ResetModeOn := fun hend =>
      hsame hend ▸ hout n task r.2 hn (s.store_self n r) hopen hend
    refine ⟨fun hearly => hoff (hended.mpr (Or.inl hearly)), fun hfinishes => ⟨?_, ?_⟩⟩
    · intro m other _ hm hchild
      exact hoff (hended.mpr (Or.inr hfinishes)) ((h.tasks m other hm).resetModeOn hchild)
    · intro happ halive
      exact hoff (hended.mpr (Or.inr hfinishes)) (h.children.resetModeOn happ halive)
  · intro hleaves n task task' hn hn' hopen hend hon
    obtain ⟨start, r, rfl, hresume, rfl, rfl⟩ := task_ended h hstep hn hn' hopen hend
    obtain ⟨hended, hsame⟩ := resume_ended h.children hresume
    obtain ⟨hearly, hfinishes⟩ := hleaves n start task rfl hn
    have hbefore : s.runner.ResetModeOn := hsame hend ▸ hon
    rcases hended.mp hend with hwhere | hwhere
    · exact hearly hwhere hbefore
    · obtain ⟨hothers, hservice⟩ := hfinishes hwhere
      by_cases happ : P.environment "ALLOW_RESET_ROOT" = some "1"
      · exact hservice happ hbefore.serviceAlive
      · exact h.not_resetModeOn hn hwhere hothers happ hbefore

end System

lemma resetInv_init (P : Platform) : ResetInv P (resetSystem P).init where
  children :=
    { life := lifecycle_init P
      unhandled := fun n c hc => by cases hc.1
      environment := fun n c hc => by cases hc.1 }
  tasks n task hn := by cases hn
  begun_lt n task hn := by cases hn
  reset _ k c hc := by cases hc.1

/-- **When reset mode is left.**  In every run, with any number of tasks of `performResetPassword`
and any other use of the runner in between: each task ends without a living child that was started
with `ALLOW_RESET_ROOT=1`, exactly if no such child is alive wherever a task returns early, and
where a task finishes, none that another task has started, and none at all in an app that has been
started with the variable itself. -/
theorem reset_mode_left_iff (P : Platform) (es : List SheetEvent) :
    (resetSystem P).Along EndsOutOfResetMode es
      ↔ (resetSystem P).Meets (LeavesResetMode P) es := by
  refine Machine.along_iff_meets (resetInv_init P) ?_ ?_ es
  · intro s e s' hs hstep _
    exact hs.step hstep
  · intro s e s' hs hstep
    exact hs.ends_iff hstep

/-- A task looks again and again at a service that does not come up. -/
lemma polls_run (P : Platform) (start : ServiceStart) {s : ResetSystem} {n : ℕ} {task : ResetTask}
    {password : String} {polls : ℕ} (htask : s.tasks n = some task)
    (hplace : task.place = .starting password polls) (hrunning : s.runner.isRunning = false) :
    ∃ s' task', (resetSystem P).runFrom s (List.replicate polls (.resume n start)) = some s'
      ∧ s'.runner = s.runner ∧ s'.tasks n = some task' ∧ task'.place = .starting password 0 := by
  induction polls generalizing s task with
  | zero => exact ⟨s, task, rfl, rfl, htask, hplace⟩
  | succ polls ih =>
      let next : ResetTask := { task with place := .starting password polls }
      have hstep : (resetSystem P).step s (.resume n start)
          = some (s.store n (s.toSettingsSheets, next)) := by
        show s.step P (.resume n start) = _
        simp [ResetSystem.step, htask, SettingsSheets.resume, hplace, SettingsSheets.awaitReset,
          hrunning, next]
      rw [List.replicate_succ, Machine.runFrom, hstep]
      exact ih (s.store_self n (s.toSettingsSheets, next)) rfl hrunning

/-- A start of the service at which nothing fails. -/
def serviceStart : ServiceStart :=
  ⟨"/srv", "system", .replicate 32 0, .replicate 16 0, .replicate 32 0, .replicate 32 0,
    ⟨0, .acquired, true, none⟩⟩

/-- **Reset mode is left switched on.**  The service in reset mode needs more than ten seconds to
come up, and the task has returned by then. -/
theorem slow_child_stays_in_reset_mode :
    ¬ ∀ (P : Platform) (es : List SheetEvent), (resetSystem P).Along EndsOutOfResetMode es := by
  intro h
  let begun : List SheetEvent := [.performResetPassword 0 "pass", .resume 0 serviceStart]
  let polls : List SheetEvent := .replicate 49 (.resume 0 serviceStart)
  obtain ⟨s, task, hrun, htask, hplace, hrunning, hon⟩ : ∃ s task,
      (resetSystem .plain).run begun = some s ∧ s.tasks 0 = some task
      ∧ task.place = .starting "pass" 49 ∧ s.runner.isRunning = false ∧ s.runner.ResetModeOn :=
    ⟨_, _, rfl, rfl, rfl, rfl, 1, _, ⟨rfl, rfl⟩, rfl⟩
  obtain ⟨s', task', hpolls, hrunner, htask', hplace'⟩ :=
    polls_run .plain serviceStart htask hplace hrunning
  have hbefore : (resetSystem .plain).run (begun ++ polls) = some s' :=
    (Machine.run_append hrun polls).trans hpolls
  let r := s'.toSettingsSheets.giveUp task' "✗ Service failed to start"
  have hstep : s'.step .plain (.resume 0 serviceStart) = some (s'.store 0 r) := by
    simp [ResetSystem.step, htask', SettingsSheets.resume, hplace', SettingsSheets.awaitReset,
      hrunner, hrunning, r]
  have halong := h .plain (begun ++ polls ++ [.resume 0 serviceStart])
  refine Machine.along_concat halong hbefore hstep 0 task' r.2 htask'
    (s'.store_self 0 r) (by simp [hplace']) rfl ?_
  show s'.runner.ResetModeOn
  exact hrunner ▸ hon

end Luan
