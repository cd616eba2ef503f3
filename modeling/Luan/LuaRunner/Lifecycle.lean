import Luan.LuaRunner.Runner
import Mathlib.Logic.Relation

/-!
# The life of the child

Many kinds of events change the runner's variables, and `childDidTerminate` does not ask whose
termination it is told about.  That it can only be the stored child's is a matter of all runs.

* `Lifecycle` — the variables that belong to the child, and `Lifecycle.Move`, what can be done to
  them.  There is one move for the failures of `start`, one for its success, and so on.
* `LuaRunner.step_moves` — every step of the runner consists of such moves.
* `Lifecycle.Inv` — the invariant that the moves keep.
* `runner_lifecycle` — in every reachable state a process is stored exactly while the service is
  active, it is the only child whose end has not been handled, and without it no pipe is open.
-/

namespace Luan

/-- The service is starting, running or stopping. -/
def ServiceState.isActive : ServiceState → Bool
  | .starting | .running | .stopping => true
  | _ => false

/-! ## Lifecycles and their moves -/

/-- The part of the runner that belongs to its child. -/
structure Lifecycle where
  state : ServiceState
  process : Option ℕ
  parentPipe : Option ℕ
  starts : ℕ
  children : ℕ → Option Child

namespace Lifecycle

/-- The child was spawned, and its termination has not been handled. -/
def Unhandled (l : Lifecycle) (n : ℕ) : Prop :=
  ∃ c, l.children n = some c ∧ c.handled = false

/-- What can be done to a lifecycle. -/
inductive Move : Lifecycle → Lifecycle → Prop
  /-- a start fails: no process, and the pipe is as it was or closed -/
  | fail {l : Lifecycle} (hnone : l.process = none) (message : String) {pipe : Option ℕ}
      (hpipe : pipe = l.parentPipe ∨ pipe = none) :
      Move l { l with
        state := .failed message
        parentPipe := pipe
        starts := l.starts + 1 }
  /-- a start succeeds -/
  | spawn {l : Lifecycle} (hnone : l.process = none) {c : Child} (hc : c.handled = false) :
      Move l
        { state := .starting
          process := some (l.starts + 1)
          parentPipe := some (l.starts + 1)
          starts := l.starts + 1
          children := Function.update l.children (l.starts + 1) (some c) }
  /-- the service answers -/
  | answer {l : Lifecycle} (hstate : l.state = .starting) : Move l { l with state := .running }
  /-- the child is asked to stop -/
  | stopping {l : Lifecycle} {n : ℕ} (hprocess : l.process = some n) :
      Move l { l with
        state := .stopping
        parentPipe := none }
  /-- a signal reaches a child, or it exits -/
  | touch {l : Lifecycle} (n : ℕ) {f : Child → Child} (hf : ∀ c, (f c).handled = c.handled) :
      Move l { l with children := Function.update l.children n ((l.children n).map f) }
  /-- the termination of a child is handled -/
  | terminated {l : Lifecycle} {n : ℕ} (hn : l.Unhandled n) {f : Child → Child}
      (hf : ∀ c, (f c).handled = true) {state : ServiceState}
      (hstate : l.state.isActive = true → state.isActive = false) :
      Move l { l with
        state := state
        process := none
        parentPipe := none
        children := Function.update l.children n ((l.children n).map f) }

/-- **The invariant of a lifecycle.** -/
structure Inv (l : Lifecycle) : Prop where
  active : l.process ≠ none ↔ l.state.isActive = true
  unhandled : ∀ n, l.Unhandled n ↔ l.process = some n
  pipe : l.process = none → l.parentPipe = none
  spawned_le : ∀ n c, l.children n = some c → n ≤ l.starts

/-! ## The moves keep the invariant -/

/-- A child is unhandled after an update of children if the updated one is, or another one was. -/
lemma unhandled_update {l : Lifecycle} {n m : ℕ} {c : Option Child}
    (children : ℕ → Option Child) (hchildren : children = Function.update l.children n c) :
    (∃ d, children m = some d ∧ d.handled = false)
      ↔ (m = n ∧ ∃ d, c = some d ∧ d.handled = false) ∨ (m ≠ n ∧ l.Unhandled m) := by
  subst hchildren
  by_cases hm : m = n
  · subst hm
    simp
  · rw [Function.update_of_ne hm]
    simp [hm, Unhandled]

lemma Inv.inactive {l : Lifecycle} (hl : l.Inv) (hnone : l.process = none) (n : ℕ) :
    ¬ l.Unhandled n := by
  rw [hl.unhandled, hnone]
  rintro ⟨⟩

lemma spawned_le_update {l : Lifecycle} (hl : l.Inv) {n k : ℕ} {c : Option Child}
    (hn : c ≠ none → n ≤ k) (hk : l.starts ≤ k) (m : ℕ) (d : Child)
    (hd : Function.update l.children n c m = some d) : m ≤ k := by
  by_cases hm : m = n
  · subst hm
    rw [Function.update_self] at hd
    exact hn (by simp [hd])
  · rw [Function.update_of_ne hm] at hd
    exact (hl.spawned_le m d hd).trans hk

/-- **Every move keeps the invariant.** -/
lemma Inv.move {l l' : Lifecycle} (hl : l.Inv) (h : Move l l') : l'.Inv := by
  cases h with
  | fail hnone message hpipe =>
      refine ⟨?_, hl.unhandled, fun _ => ?_, fun n c hc => (hl.spawned_le n c hc).trans ?_⟩
      · simp [hnone, ServiceState.isActive]
      · rcases hpipe with rfl | rfl
        · exact hl.pipe hnone
        · rfl
      · exact Nat.le_succ _
  | spawn hnone hc =>
      refine ⟨?_, fun m => ?_, fun h => ?_, spawned_le_update hl (fun _ => le_rfl) (Nat.le_succ _)⟩
      · simp [ServiceState.isActive]
      · rw [Unhandled, unhandled_update _ rfl]
        constructor
        · rintro (⟨rfl, -⟩ | ⟨-, hold⟩)
          · rfl
          · exact absurd hold (hl.inactive hnone m)
        · rintro h
          exact .inl ⟨(Option.some.inj h).symm, _, rfl, hc⟩
      · cases h
  | answer hstate =>
      refine ⟨?_, hl.unhandled, hl.pipe, hl.spawned_le⟩
      have hactive := hl.active
      rw [hstate] at hactive
      exact hactive
  | stopping hprocess =>
      refine ⟨?_, hl.unhandled, fun _ => rfl, hl.spawned_le⟩
      simp [hprocess, ServiceState.isActive]
  | touch n hf =>
      refine ⟨hl.active, fun m => ?_, hl.pipe, spawned_le_update hl (fun hne => ?_) le_rfl⟩
      · rw [← hl.unhandled, Unhandled, unhandled_update _ rfl]
        by_cases hm : m = n
        · subst hm
          simp [Unhandled, hf]
        · simp [hm]
      · obtain ⟨c, hc⟩ := Option.ne_none_iff_exists'.mp hne
        obtain ⟨d, hd, -⟩ := Option.map_eq_some_iff.mp hc
        exact hl.spawned_le n d hd
  | @terminated n hn f hf state hstate =>
      have hstored := (hl.unhandled n).mp hn
      have hactive : l.state.isActive = true := hl.active.mp (by simp [hstored])
      refine ⟨by simp [hstate hactive], fun m => ?_, fun _ => rfl,
        spawned_le_update hl (fun _ => ?_) le_rfl⟩
      · rw [Unhandled, unhandled_update _ rfl]
        constructor
        · rintro (⟨-, d, hd, hopen⟩ | ⟨hm, hm'⟩)
          · obtain ⟨c, -, rfl⟩ := Option.map_eq_some_iff.mp hd
            rw [hf] at hopen
            cases hopen
          · have hsame := hstored.symm.trans ((hl.unhandled m).mp hm')
            exact absurd (Option.some.inj hsame).symm hm
        · rintro ⟨⟩
      · obtain ⟨c, hc, -⟩ := hn
        exact hl.spawned_le n c hc

lemma Inv.moves {l l' : Lifecycle} (hl : l.Inv) (h : Relation.ReflTransGen Move l l') :
    l'.Inv := by
  induction h with
  | refl => exact hl
  | tail _ hmove ih => exact ih.move hmove

/-- The starts are counted, and nothing takes one back. -/
lemma starts_le_of_moves {l l' : Lifecycle} (h : Relation.ReflTransGen Move l l') :
    l.starts ≤ l'.starts := by
  induction h with
  | refl => exact le_rfl
  | tail _ hmove ih =>
      refine ih.trans ?_
      cases hmove <;> simp

end Lifecycle

/-! ## The steps of the runner are moves -/

/-- The lifecycle in the state of the runner. -/
def LuaRunner.lifecycle (s : LuaRunner) : Lifecycle :=
  ⟨s.state, s.process, s.parentPipe, s.starts, s.children⟩

namespace LuaRunner

open Lifecycle (Move)
open Relation (ReflTransGen)

@[simp] lemma lifecycle_startHealthcheck (P : Platform) (s : LuaRunner) (host : String)
    (port : Int) : (s.startHealthcheck P host port).lifecycle = s.lifecycle := by
  rw [startHealthcheck]
  split_ifs <;> rfl

@[simp] lemma lifecycle_startMetricsSampling (P : Platform) (s : LuaRunner) (host : String)
    (port : Int) (token : String) :
    (s.startMetricsSampling P host port token).lifecycle = s.lifecycle := by
  rw [startMetricsSampling]
  split_ifs <;> rfl

/-- Output of the child changes the startup diagnostics and nothing else. -/
lemma captureStartupDiag_frame (U : UnicodeData) (s : LuaRunner) (chunk : List Char)
    (now : UInt64) : ∃ diag deadline, s.captureStartupDiag U chunk now
      = { s with
        startupDiag := diag
        captureDeadline := deadline } := by
  rw [captureStartupDiag]
  split_ifs
  · exact ⟨s.startupDiag, s.captureDeadline, rfl⟩
  · exact ⟨s.startupDiag, 0, rfl⟩
  · exact ⟨_, s.captureDeadline, rfl⟩

lemma consumeChildOutput_frame (U : UnicodeData) (s : LuaRunner) (chunk : List Char)
    (clock : ℕ → UInt64) : ∃ diag deadline, s.consumeChildOutput U chunk clock
      = { s with
        startupDiag := diag
        captureDeadline := deadline } := by
  rw [consumeChildOutput]
  generalize (splitOnNewlines U chunk).zipIdx = lines
  induction lines generalizing s with
  | nil => exact ⟨s.startupDiag, s.captureDeadline, rfl⟩
  | cons line lines ih =>
      obtain ⟨diag, deadline, hline⟩ := captureStartupDiag_frame U s line.1 (clock line.2)
      rw [List.foldl_cons, hline]
      exact ih _

@[simp] lemma lifecycle_parseMetrics (s : LuaRunner) (object : Option StatusReport) :
    (s.parseMetrics object).lifecycle = s.lifecycle := by
  cases object <;> rfl

/-- **What a call of `start` can do**: it is turned away, it fails before or after the pipes are
made, or it has a child and starts its two tasks. -/
lemma start_cases (P : Platform) (s : LuaRunner) (documentRoot : String)
    (env : String → Option String) (o : StartOutcome) {s₁ s' : LuaRunner} {l : Launch}
    (hl : l = launch P documentRoot env) (hs₁ : s₁ = s.enterStarting l o.now)
    (h : s.start P documentRoot env o = s') :
    s' = s
      ∨ s.process = none
        ∧ ((∃ message, s' = s₁.failStart message)
          ∨ (∃ message, s' = s₁.makePipes.dropPipes.failStart message)
          ∨ ∃ s₂ token, s₂ = s₁.makePipes.spawn P l env
            ∧ s' = (s₂.startHealthcheck P l.host l.port).startMetricsSampling P l.host l.port
              token) := by
  subst hl hs₁ h
  by_cases hguard : s.canStart = true ∧ s.process = none
  · refine .inr ⟨hguard.2, ?_⟩
    rw [start, if_pos hguard]
    obtain ⟨now, lock, hasExecutable, runError⟩ := o
    cases lock with
    | alreadyRunning => exact .inl ⟨_, rfl⟩
    | failed message => exact .inl ⟨_, rfl⟩
    | acquired =>
        cases hasExecutable with
        | false => exact .inl ⟨_, rfl⟩
        | true =>
            cases runError with
            | some error => exact .inr (.inl ⟨_, rfl⟩)
            | none => exact .inr (.inr ⟨_, _, rfl, rfl⟩)
  · exact .inl (if_neg hguard)

lemma start_moves (P : Platform) (s : LuaRunner) (documentRoot : String)
    (env : String → Option String) (o : StartOutcome) :
    ReflTransGen Move s.lifecycle (s.start P documentRoot env o).lifecycle := by
  rcases start_cases P s documentRoot env o rfl rfl rfl with
    heq | ⟨hnone, ⟨message, heq⟩ | ⟨message, heq⟩ | ⟨s₂, token, rfl, heq⟩⟩
  · rw [heq]
  · rw [heq]
    exact .single (.fail hnone message (.inl rfl))
  · rw [heq]
    exact .single (.fail hnone message (.inr rfl))
  · rw [heq, lifecycle_startMetricsSampling, lifecycle_startHealthcheck]
    exact .single (.spawn hnone rfl)

lemma isRunning_iff {s : LuaRunner} : s.isRunning = true ↔ s.state = .running := by
  cases h : s.state <;> simp [isRunning, h]

lemma stop_of_running {s : LuaRunner} {n : ℕ} (hstate : s.state = .running)
    (hprocess : s.process = some n) : s.stop.state = .stopping := by
  simp only [stop, canStop, hstate, hprocess]
  rfl

lemma stop_of_not_running {s : LuaRunner} (hstate : s.state ≠ .running) : s.stop = s := by
  have hcan : s.canStop = false := by
    cases h : s.state <;> simp_all [canStop]
  simp only [stop, hcan]

lemma stop_moves (s : LuaRunner) : ReflTransGen Move s.lifecycle s.stop.lifecycle := by
  simp only [stop]
  split
  · rename_i child _ hprocess
    exact .tail (.single (.stopping hprocess)) (.touch child fun _ => rfl)
  · exact .refl

lemma terminateForAppExit_moves (s : LuaRunner) (exit : Option Int) :
    ReflTransGen Move s.lifecycle (s.terminateForAppExit exit).lifecycle := by
  simp only [terminateForAppExit]
  split
  · rename_i child hprocess
    split_ifs
    · have hasked := ReflTransGen.tail (.single (Move.stopping (l := s.lifecycle) hprocess))
        (Move.touch child (f := fun c => { c with terminated := true }) fun _ => rfl)
      cases exit with
      | some status => exact hasked.tail (.touch child fun _ => rfl)
      | none => exact hasked.tail (.touch child fun _ => rfl)
    · exact .refl
  · exact .refl

lemma stopTimedOut_moves (s : LuaRunner) (n : ℕ) (task : StopTimeout) :
    ReflTransGen Move s.lifecycle (s.stopTimedOut n task).lifecycle := by
  rw [stopTimedOut]
  dsimp only
  split_ifs
  · exact .single (.touch task.child fun _ => rfl)
  · exact .refl

/-- No child outlives the state that `childDidTerminate` sets. -/
lemma settle_isActive (P : Platform) (state : ServiceState) (status : Int)
    (diag : Option (List Char)) : (settle P state status diag).isActive = false := by
  simp only [settle]
  cases state with
  | starting =>
      dsimp only
      split_ifs <;> rfl
  | running =>
      dsimp only
      split_ifs <;> rfl
  | _ => rfl

/-- **Every step of the runner consists of moves.** -/
theorem step_moves {P : Platform} {s s' : LuaRunner} {e : RunnerEvent}
    (h : s.step P e = some s') : ReflTransGen Move s.lifecycle s'.lifecycle := by
  cases step_reaction h with
  | start => exact start_moves P s _ _ _
  | stop => exact s.stop_moves
  | terminateForAppExit => exact s.terminateForAppExit_moves _
  | @output chunk clock =>
      obtain ⟨diag, deadline, hframe⟩ := consumeChildOutput_frame P.unicode s chunk clock
      rw [hframe]
      exact .refl
  | @childExited n => exact .single (.touch n fun _ => rfl)
  | childDidTerminate hchild _ hopen =>
      exact .single (.terminated ⟨_, hchild, hopen⟩ (fun _ => rfl) fun _ => settle_isActive P _ _ _)
  | healthReply | metricsReply => exact .refl
  | healthHop =>
      simp only [healthHop]
      split
      case h_1 hstate => exact .single (.answer hstate)
      case h_2 => exact .refl
  | metricsHop =>
      rw [lifecycle_parseMetrics]
      exact .refl
  | stopTimeout => exact s.stopTimedOut_moves _ _

end LuaRunner

/-! ## Every run -/

lemma lifecycle_init (P : Platform) : (luaRunner P).init.lifecycle.Inv where
  active := by simp [luaRunner, LuaRunner.lifecycle, ServiceState.isActive]
  unhandled n := by simp [luaRunner, LuaRunner.lifecycle, Lifecycle.Unhandled]
  pipe _ := rfl
  spawned_le n c hc := by cases hc

lemma lifecycle_of_run {P : Platform} {es : List RunnerEvent} {s : LuaRunner}
    (hrun : (luaRunner P).run es = some s) : s.lifecycle.Inv :=
  Machine.invariant (I := fun s => s.lifecycle.Inv) (lifecycle_init P)
    (fun _ _ _ hs hstep => hs.moves (LuaRunner.step_moves hstep)) hrun

/-- **One child at a time.**  In every reachable state a process is stored exactly while the
service is starting, running or stopping; every child whose termination has not been handled is
the stored one, so there is at most one; and without a process the pipe to it is closed. -/
theorem runner_lifecycle (P : Platform) (es : List RunnerEvent) (s : LuaRunner)
    (hrun : (luaRunner P).run es = some s) :
    (s.process ≠ none ↔ s.state = .starting ∨ s.state = .running ∨ s.state = .stopping)
      ∧ (∀ n c, s.children n = some c → c.handled = false → s.process = some n)
      ∧ (∀ n m c d, s.children n = some c → s.children m = some d → c.handled = false →
          d.handled = false → n = m)
      ∧ (s.process = none → s.parentPipe = none) := by
  have hinv := lifecycle_of_run hrun
  have hstored : ∀ n c, s.children n = some c → c.handled = false → s.process = some n :=
    fun n c hc hopen => (hinv.unhandled n).mp ⟨c, hc, hopen⟩
  refine ⟨?_, hstored, fun n m c d hc hd hopen hopen' => ?_, hinv.pipe⟩
  · refine hinv.active.trans ?_
    change s.state.isActive = true ↔ _
    cases s.state <;> simp [ServiceState.isActive]
  · exact Option.some.inj ((hstored n c hc hopen).symm.trans (hstored m d hd hopen'))

/-- A platform with ASCII text and without translations. -/
def Platform.plain : Platform where
  unicode := .ascii
  localized key := key
  expandingTilde path := path
  environment _ := none
  isURL _ := true

/-- The settings of a service on a port. -/
def portSettings (port : String) : String → Option String
  | "SERVICE_PORT" => some port
  | "STATUS_TOKEN" => some "token"
  | _ => none

/-- A `start` at which nothing fails. -/
def launchAt (port : String) : RunnerEvent :=
  .start "/srv" (portSettings port) ⟨0, .acquired, true, none⟩

/-- A service that is started, found alive and asked to stop. -/
def stoppingRun : List RunnerEvent :=
  [launchAt "8080", .healthReply 1, .healthHop 1, .stop]

/-- It is stopping, its process is still stored, and there is no other child. -/
theorem stopping_service_has_one_child :
    ∃ s, (luaRunner .plain).run stoppingRun = some s ∧ s.state = .stopping ∧ s.process ≠ none
      ∧ (∀ n c, s.children n = some c → c.handled = false → s.process = some n) := by
  refine ⟨_, rfl, rfl, ?_, ?_⟩
  · exact (runner_lifecycle .plain stoppingRun _ rfl).1.mpr (.inr (.inr rfl))
  · exact (runner_lifecycle .plain stoppingRun _ rfl).2.1

end Luan
