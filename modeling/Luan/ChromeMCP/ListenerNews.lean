import Luan.ChromeMCP.Manager

/-!
# Late news of a listener

The state of a listener reaches the main actor in a task of its own.  When it arrives, the listener
may have been cancelled or replaced, and the handler does not look.

* `ListenerInv` — the listener that is stored is installed on `currentPort`, and without a listener
  the endpoint is not running.
* `listener_contract_iff` — which news do no harm (`HarmlessNews`), exactly.
* `late_ready_runs_without_listener` — a late `ready` after `stop`.
-/

namespace Luan

open NativeChromeMCP

/-! ## The contract -/

/-- A running endpoint has a listener, on the port it shows. -/
def RunsOnListener (s : NativeChromeMCP) : Prop :=
  s.isRunning = true →
    ∃ l x, s.listener = some l ∧ s.listeners l = some x ∧ s.currentPort = x.port

/-- News of any other listener than the current one change none of the three variables. -/
def IgnoresOtherListeners (s : NativeChromeMCP) (e : MCPEvent) (s' : NativeChromeMCP) : Prop :=
  ∀ n, e = .deliver n → s.listener ≠ some n.listener →
    s'.listener = s.listener ∧ s'.currentPort = s.currentPort ∧ s'.isRunning = s.isRunning

/-- **News that do no harm**: of the current listener, or not about `ready` and `failed`, or
`ready` while the endpoint is running anyway, or `failed` while there is no listener anyway. -/
def HarmlessNews (s : NativeChromeMCP) : MCPEvent → Prop
  | .deliver n =>
      s.listener = some n.listener
        ∨ match n.state with
          | .ready => s.isRunning = true
          | .failed _ => s.listener = none
          | .other => True
  | _ => True

/-! ## The invariant -/

/-- What holds as long as no harmful news arrive. -/
structure ListenerInv (s : NativeChromeMCP) : Prop where
  installed : ∀ l, s.listener = some l → ∃ x, s.listeners l = some x ∧ s.currentPort = x.port
  absent : s.listener = none → s.isRunning = false ∧ s.currentPort = 0

lemma ListenerInv.runsOnListener {s : NativeChromeMCP} (hs : ListenerInv s) :
    RunsOnListener s := by
  intro hrun
  cases hl : s.listener with
  | none =>
      rw [(hs.absent hl).1] at hrun
      cases hrun
  | some l =>
      obtain ⟨x, hx, hport⟩ := hs.installed l hl
      exact ⟨l, x, rfl, hx, hport⟩

/-- The variables of the endpoint; steps that leave them alone keep the invariant. -/
structure SameEndpoint (s s' : NativeChromeMCP) : Prop where
  listener : s'.listener = s.listener
  currentPort : s'.currentPort = s.currentPort
  isRunning : s'.isRunning = s.isRunning
  listeners : s'.listeners = s.listeners

lemma SameEndpoint.refl (s : NativeChromeMCP) : SameEndpoint s s := ⟨rfl, rfl, rfl, rfl⟩

lemma SameEndpoint.inv {s s' : NativeChromeMCP} (h : SameEndpoint s s') (hs : ListenerInv s) :
    ListenerInv s' where
  installed l hl := by
    rw [h.listeners, h.currentPort]
    exact hs.installed l (h.listener ▸ hl)
  absent hl := by
    rw [h.isRunning, h.currentPort]
    exact hs.absent (h.listener ▸ hl)

lemma sameEndpoint_terminateChrome (s : NativeChromeMCP) : SameEndpoint s s.terminateChrome := by
  simp only [terminateChrome]
  split
  · exact SameEndpoint.refl s
  · split_ifs
    · exact ⟨rfl, rfl, rfl, rfl⟩
    · exact ⟨rfl, rfl, rfl, rfl⟩

lemma stop_listener (s : NativeChromeMCP) (killChrome : Bool) :
    (s.stop killChrome).listener = none ∧ (s.stop killChrome).currentPort = 0
      ∧ (s.stop killChrome).isRunning = false := by
  rw [NativeChromeMCP.stop]
  dsimp only
  split_ifs
  · have hsame := sameEndpoint_terminateChrome
      { s.cancelListener with listener := none, isRunning := false, currentPort := 0 }
    exact ⟨hsame.listener, hsame.currentPort, hsame.isRunning⟩
  · exact ⟨rfl, rfl, rfl⟩

/-- Without a listener, not running, on no port. -/
lemma listenerInv_of_none {s : NativeChromeMCP}
    (h : s.listener = none ∧ s.currentPort = 0 ∧ s.isRunning = false) : ListenerInv s where
  installed l hl := by
    rw [h.1] at hl
    cases hl
  absent _ := ⟨h.2.2, h.2.1⟩

lemma listenerInv_install (s : NativeChromeMCP) (port : ℕ) : ListenerInv (s.install port) where
  installed l hl := by
    obtain rfl := Option.some.inj hl
    exact ⟨⟨port, false⟩, Function.update_self _ _ _, rfl⟩
  absent hl := by cases hl

lemma ListenerInv.start {s : NativeChromeMCP} (hs : ListenerInv s) (port : Int) (token : String)
    (outcome : CreateOutcome) : ListenerInv (s.start port token outcome) := by
  have hends := s.start_ends port token outcome
  generalize s.start port token outcome = s' at hends ⊢
  cases hends with
  | noToken => exact SameEndpoint.inv (s := s) ⟨rfl, rfl, rfl, rfl⟩ hs
  | same => exact hs
  | failed => exact listenerInv_of_none (stop_listener s false)
  | installed => exact listenerInv_install _ _

/-- News that do no harm keep the invariant. -/
lemma ListenerInv.stateChanged {s : NativeChromeMCP} (hs : ListenerInv s) {n : Notification}
    (hnews : HarmlessNews s (.deliver n)) : ListenerInv (s.listenerStateChanged n.state) := by
  cases hn : n.state with
  | ready =>
      simp only [HarmlessNews, hn] at hnews
      refine ⟨hs.installed, fun hl => ?_⟩
      have hl' : s.listener = none := hl
      rcases hnews with hcur | hrun
      · rw [hl'] at hcur
        cases hcur
      · rw [(hs.absent hl').1] at hrun
        cases hrun
  | failed description => exact listenerInv_of_none ⟨rfl, rfl, rfl⟩
  | other => exact hs

/-! ## Steps -/

/-- The steps of the listener and those that have nothing to do with it. -/
lemma step_endpoint {s s' : NativeChromeMCP} {e : MCPEvent} (h : s.step e = some s') :
    (∃ port token outcome, e = .start port token outcome ∧ s' = s.start port token outcome)
      ∨ (∃ killChrome, e = .stop killChrome ∧ s' = s.stop killChrome)
      ∨ (∃ n, e = .deliver n
          ∧ s' = { s.listenerStateChanged n.state with pending := s.pending.erase n })
      ∨ ((∀ n, e ≠ .deliver n) ∧ SameEndpoint s s') := by
  cases step_reaction h with
  | start => exact Or.inl ⟨_, _, _, rfl, rfl⟩
  | stop => exact Or.inr (Or.inl ⟨_, rfl, rfl⟩)
  | @deliver n => exact Or.inr (Or.inr (Or.inl ⟨n, rfl, rfl⟩))
  | notify | ensureChrome | exited =>
      exact Or.inr (Or.inr (Or.inr ⟨by simp, rfl, rfl, rfl, rfl⟩))
  | @probed c outcome =>
      refine Or.inr (Or.inr (Or.inr ⟨by simp, ?_⟩))
      cases outcome <;> exact ⟨rfl, rfl, rfl, rfl⟩
  | polled =>
      refine Or.inr (Or.inr (Or.inr ⟨by simp, ?_⟩))
      simp only [NativeChromeMCP.polled]
      split_ifs <;> exact ⟨rfl, rfl, rfl, rfl⟩
  | exitHandled =>
      refine Or.inr (Or.inr (Or.inr ⟨by simp, ?_⟩))
      simp only [chromeExited]
      split_ifs <;> exact ⟨rfl, rfl, rfl, rfl⟩

lemma ListenerInv.step {s s' : NativeChromeMCP} {e : MCPEvent} (hs : ListenerInv s)
    (h : s.step e = some s') (hnews : HarmlessNews s e) : ListenerInv s' := by
  rcases step_endpoint h with ⟨port, token, outcome, rfl, rfl⟩ | ⟨killChrome, rfl, rfl⟩ |
    ⟨n, rfl, rfl⟩ | ⟨-, hsame⟩
  · exact hs.start port token outcome
  · exact listenerInv_of_none (stop_listener s killChrome)
  · have hchanged := hs.stateChanged hnews
    exact ⟨hchanged.installed, hchanged.absent⟩
  · exact hsame.inv hs

/-- On the invariant, ignoring the news of other listeners and harmless news are the same. -/
lemma ListenerInv.ignores_iff {s s' : NativeChromeMCP} {e : MCPEvent} (hs : ListenerInv s)
    (h : s.step e = some s') : IgnoresOtherListeners s e s' ↔ HarmlessNews s e := by
  by_cases hdeliver : ∃ n, e = .deliver n
  · obtain ⟨n, rfl⟩ := hdeliver
    cases step_reaction h
    constructor
    · intro hignores
      by_cases hcur : s.listener = some n.listener
      · exact Or.inl hcur
      · obtain ⟨hl, -, hrun⟩ := hignores n rfl hcur
        refine Or.inr ?_
        cases hn : n.state with
        | ready =>
            rw [hn] at hrun
            exact hrun.symm
        | failed description =>
            rw [hn] at hl
            exact hl.symm
        | other => trivial
    · rintro (hcur | hnews) n' hn' hother
      · obtain rfl := MCPEvent.deliver.inj hn'
        exact absurd hcur hother
      · cases hn : n.state with
        | ready =>
            rw [hn] at hnews
            exact ⟨rfl, rfl, hnews.symm⟩
        | failed description =>
            rw [hn] at hnews
            obtain ⟨hrun, hport⟩ := hs.absent hnews
            exact ⟨hnews.symm, hport.symm, hrun.symm⟩
        | other => exact ⟨rfl, rfl, rfl⟩
  · push Not at hdeliver
    refine iff_of_true (fun n hn => absurd hn (hdeliver n)) ?_
    cases e with
    | deliver n => exact absurd rfl (hdeliver n)
    | _ => trivial

/-- **When late news do no harm.**  The endpoint runs only on its listener, and ignores all others,
in exactly the runs in which every notification delivered is harmless. -/
theorem listener_contract_iff (es : List MCPEvent) :
    nativeChromeMCP.Along (fun s e s' => RunsOnListener s' ∧ IgnoresOtherListeners s e s') es
      ↔ nativeChromeMCP.Meets HarmlessNews es :=
  Machine.along_iff_meets (I := ListenerInv) (listenerInv_of_none ⟨rfl, rfl, rfl⟩)
    (fun _ _ _ hs h hnews => hs.step h hnews)
    (fun _ _ _ hs h => ⟨fun hcontract => (hs.ignores_iff h).mp hcontract.2,
      fun hnews => ⟨(hs.step h hnews).runsOnListener, (hs.ignores_iff h).mpr hnews⟩⟩) es

/-- The endpoint is stopped while the news that its listener is ready are under way. -/
def stopBeforeReady : List MCPEvent :=
  [.start 9323 "token" .created, .notify ⟨0, .ready⟩, .stop true, .deliver ⟨0, .ready⟩]

/-- It then counts as running, without a listener. -/
theorem late_ready_runs_without_listener :
    ∃ s, nativeChromeMCP.run stopBeforeReady = some s
      ∧ s.isRunning = true ∧ s.listener = none ∧ ¬ RunsOnListener s := by
  refine ⟨_, rfl, rfl, rfl, fun h => ?_⟩
  obtain ⟨l, x, hl, -⟩ := h rfl
  cases hl

end Luan
