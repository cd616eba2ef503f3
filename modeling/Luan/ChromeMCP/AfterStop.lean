import Luan.ChromeMCP.Endpoint

/-!
# Clients and `stop`

A request should be handed to `handleRequest` only while a listener is installed, and no tool call
should run between a `stop` and the next `start`.  Nothing in `process` or behind it asks for the
listener, so this depends on when `stop` is called and when the rest of a request comes in.

* `Permitted` — the contract for one step; `EnabledOnly` — it holds of whatever comes next.
* `QuietAtStop` — the condition on the events of a run.
* `enabled_only_iff` — the contract holds in exactly the runs that meet the condition.
* `chrome_launched_after_stop` — a request that is half received when the endpoint is stopped.
-/

namespace Luan

open MCPEndpoint NativeChromeMCP

/-! ## The contract -/

/-- A client's request waits for its task with `handleRequest`. -/
def Handing (s : MCPEndpoint) (i : ℕ) : Prop := ∃ object, s.clients i = some (.handing object)

/-- A tool call of a client is under way. -/
def InToolCall (s : MCPEndpoint) (i : ℕ) : Prop :=
  ∃ call, s.clients i = some (.calling call) ∨ s.clients i = some (.commanding call)

/-- The step runs code of a client's tool call. -/
inductive RunsToolCall (P : EndpointPlatform) (s : MCPEndpoint) : EndpointEvent → Prop
  | begun {i : ℕ} {object arguments : JsonObject} {id : Json} {name : String}
      (hi : s.clients i = some (.handing object))
      (hcall : handleRequest P object = .callTool id name arguments) : RunsToolCall P s (.handle i)
  | probed {i : ℕ} {call : ToolCall} {outcome : NativeChromeMCP.ProbeOutcome}
      (hi : s.clients i = some (.calling call)) :
      RunsToolCall P s (.app (.probed call.ensure outcome))
  | polled {i : ℕ} {call : ToolCall} {reachable : Bool}
      (hi : s.clients i = some (.calling call)) :
      RunsToolCall P s (.app (.polled call.ensure reachable))
  | resumed {i : ℕ} {call : ToolCall} (hi : s.clients i = some (.calling call)) :
      RunsToolCall P s (.resume i)
  | exchanged {i : ℕ} {call : ToolCall} {result : Option Json}
      (hi : s.clients i = some (.commanding call)) : RunsToolCall P s (.exchange i result)

/-- The step launches a Chrome for a client. -/
def LaunchesForClient (s : MCPEndpoint) (e : EndpointEvent) : Prop :=
  ∃ i call, s.clients i = some (.calling call) ∧ e = .app (.probed call.ensure .launched)

/-- **The contract for one step.** -/
structure Permitted (P : EndpointPlatform) (s : MCPEndpoint) (e : EndpointEvent) : Prop where
  handed : ∀ i, e = .handle i → s.manager.listener ≠ none
  executed : s.stopped = true → ¬ RunsToolCall P s e
  launched : s.stopped = true → ¬ LaunchesForClient s e

/-- Whatever comes next is permitted. -/
def EnabledOnly (P : EndpointPlatform) (s : MCPEndpoint) : Prop :=
  ∀ e s', s.step P e = some s' → Permitted P s e

/-- The data complete a request that passes the checks of `process`. -/
def CompletesRequest (P : EndpointPlatform) (token : String) (conn : Connection) (r : Receive) :
    Prop :=
  ∃ req, parseHTTP P.unicode (conn.buffer ++ r.data) = .ok (some req)
    ∧ sameText P.unicode (String.ofList req.method) "POST" = true
    ∧ isAuthorized P.unicode token req = true ∧ (P.jsonObject req.body).isSome = true

/-- The event takes the listener away: `stop`, a `start` that fails, news of a failure. -/
def ClosesEndpoint (s : NativeChromeMCP) : MCPEvent → Prop
  | .stop _ => True
  | .start port token outcome =>
      token.isEmpty = false
        ∧ ¬ (s.listener ≠ none ∧ s.currentPort = NativeChromeMCP.clampPort port ∧ s.token = token)
        ∧ match outcome with
          | .created => False
          | _ => True
  | .deliver n =>
      match n.state with
      | .failed _ => True
      | _ => False
  | _ => False

/-- **The condition**: the listener goes only while no request waits for its task, `stop` is
called only while no tool call is under way, and without a listener no request is completed. -/
def QuietAtStop (P : EndpointPlatform) (s : MCPEndpoint) : EndpointEvent → Prop
  | .app e =>
      (ClosesEndpoint s.manager e → ∀ i, ¬ Handing s i)
        ∧ ((∃ killChrome, e = .stop killChrome) → ∀ i, ¬ InToolCall s i)
  | .receive i r =>
      s.manager.listener = none → ∀ conn, s.clients i = some (.connected conn) →
        ¬ CompletesRequest P s.manager.token conn r
  | _ => True

/-! ## The listener and the calls of the manager -/

lemma start_listener (s : NativeChromeMCP) (port : Int) (token : String)
    (outcome : NativeChromeMCP.CreateOutcome) :
    (s.start port token outcome).listener = none
      ↔ ClosesEndpoint s (.start port token outcome)
        ∨ s.listener = none ∧ token.isEmpty = true := by
  have hends := s.start_ends port token outcome
  generalize s.start port token outcome = s' at hends ⊢
  cases hends with
  | noToken htoken => simp [ClosesEndpoint, htoken]
  | same htoken hsame => simp [ClosesEndpoint, htoken, hsame]
  | failed htoken hsame hfailed =>
      have hstop := (stop_listener s false).1
      cases outcome with
      | invalidPort | createFailed => simp [ClosesEndpoint, htoken, hsame, hstop]
      | created => exact absurd rfl hfailed
  | installed htoken hsame hcreated =>
      simp [ClosesEndpoint, htoken, hcreated, NativeChromeMCP.install]

/-- **When there is no listener behind a step.** -/
lemma listener_step {s s' : NativeChromeMCP} {e : MCPEvent} (hstep : s.step e = some s') :
    s'.listener = none
      ↔ ClosesEndpoint s e
        ∨ s.listener = none ∧ ∀ port token outcome, e = .start port token outcome →
            token.isEmpty = true := by
  cases NativeChromeMCP.step_reaction hstep with
  | @start port token outcome => simp [start_listener s port token outcome]
  | @stop killChrome => simp [ClosesEndpoint, (stop_listener s killChrome).1]
  | @deliver n hn =>
      cases hstate : n.state with
      | ready => simp [ClosesEndpoint, hstate, NativeChromeMCP.listenerStateChanged]
      | failed description => simp [ClosesEndpoint, hstate, NativeChromeMCP.listenerStateChanged]
      | other => simp [ClosesEndpoint, hstate, NativeChromeMCP.listenerStateChanged]
  | notify | ensureChrome | exited => simp [ClosesEndpoint, setCall, setProc]
  | @probed c outcome =>
      cases outcome <;> simp [ClosesEndpoint, NativeChromeMCP.probed, setCall, spawn]
  | polled =>
      rw [NativeChromeMCP.polled]
      split_ifs <;> simp [ClosesEndpoint, setCall]
  | exitHandled =>
      rw [chromeExited]
      split_ifs <;> simp [ClosesEndpoint, setProc]

lemma terminateChrome_calls (s : NativeChromeMCP) : s.terminateChrome.calls = s.calls := by
  rw [terminateChrome]
  split
  · rfl
  · split_ifs
    · rfl
    · rfl

lemma cancelListener_calls (s : NativeChromeMCP) : s.cancelListener.calls = s.calls := by
  rw [cancelListener]
  split
  · rfl
  · rfl

lemma stop_calls (s : NativeChromeMCP) (killChrome : Bool) :
    (s.stop killChrome).calls = s.calls := by
  rw [NativeChromeMCP.stop]
  dsimp only
  split_ifs
  · rw [terminateChrome_calls]
    exact cancelListener_calls s
  · exact cancelListener_calls s

lemma start_calls (s : NativeChromeMCP) (port : Int) (token : String)
    (outcome : CreateOutcome) : (s.start port token outcome).calls = s.calls := by
  have hends := s.start_ends port token outcome
  generalize s.start port token outcome = s' at hends ⊢
  cases hends with
  | noToken | same => rfl
  | failed | installed => exact stop_calls s false

/-- The call is on record. -/
def OnRecord (s : NativeChromeMCP) (c : ℕ) : Prop := ∃ phase, s.calls c = some phase

lemma OnRecord.setCall {s : NativeChromeMCP} {c : ℕ} (hc : OnRecord s c) (c' : ℕ)
    (phase : EnsurePhase) : OnRecord (s.setCall c' phase) c := by
  by_cases heq : c = c'
  · subst heq
    exact ⟨phase, Function.update_self _ _ _⟩
  · obtain ⟨phase', hphase⟩ := hc
    refine ⟨phase', ?_⟩
    show Function.update s.calls c' (some phase) c = some phase'
    rw [Function.update_of_ne heq, hphase]

/-- **A call of `ensureChrome` stays on record.** -/
lemma OnRecord.step {s s' : NativeChromeMCP} {e : MCPEvent} {c : ℕ} (hc : OnRecord s c)
    (hstep : s.step e = some s') : OnRecord s' c := by
  cases NativeChromeMCP.step_reaction hstep with
  | start =>
      rw [OnRecord, start_calls]
      exact hc
  | stop =>
      rw [OnRecord, stop_calls]
      exact hc
  | @deliver n hn =>
      cases hstate : n.state with
      | ready | failed | other => exact hc
  | notify | exited => exact hc
  | ensureChrome => exact hc.setCall _ _
  | @probed c' outcome =>
      cases outcome with
      | reachable | noExecutable | launchFailed => exact hc.setCall _ _
      | launched => exact OnRecord.setCall (s := s.spawn) hc _ _
  | polled =>
      rw [NativeChromeMCP.polled]
      split_ifs
      · exact hc.setCall _ _
      · exact hc.setCall _ _
      · exact hc.setCall _ _
  | exitHandled =>
      rw [chromeExited]
      split_ifs
      · exact hc
      · exact hc

/-! ## Receiving -/

/-- What the handler of `pump` makes of the data. -/
lemma received_eq {P : EndpointPlatform} {token : String} {conn : Connection} {r : Receive}
    {client : Client} (hconn : conn.phase = .receiving)
    (h : received P token conn r = some client) :
    (∃ req, parseHTTP P.unicode (conn.buffer ++ r.data) = .ok (some req)
        ∧ client = behindProcess (process P token req))
      ∨ parseHTTP P.unicode (conn.buffer ++ r.data) = .ok none
        ∧ (client = .closed none
          ∨ ∃ conn', client = .connected conn' ∧ conn'.phase = .receiving) := by
  rw [received, pump, hconn] at h
  cases hparse : parseHTTP P.unicode (conn.buffer ++ r.data) with
  | error trap => simp [hparse] at h
  | ok parsed =>
      cases parsed with
      | none =>
          refine .inr ⟨rfl, ?_⟩
          simp only [hparse] at h
          split_ifs at h
          · exact .inl (Option.some.inj h).symm
          · exact .inr ⟨_, (Option.some.inj h).symm, rfl⟩
      | some req =>
          refine .inl ⟨req, rfl, ?_⟩
          simpa [hparse] using h.symm

/-- Data that complete a request bring the client on its way to `handleRequest`, and no other
data do. -/
lemma received_handing_iff {P : EndpointPlatform} {token : String} {conn : Connection}
    {r : Receive} {client : Client} (hconn : conn.phase = .receiving)
    (h : received P token conn r = some client) :
    (∃ object, client = .handing object) ↔ CompletesRequest P token conn r := by
  rcases received_eq hconn h with ⟨req, hparse, rfl⟩ | ⟨hparse, hopen⟩
  · have hcompletes : CompletesRequest P token conn r
        ↔ ∃ object, process P token req = .handle object := by
      constructor
      · rintro ⟨req', hparse', hmethod, htoken, hbody⟩
        rw [hparse] at hparse'
        cases hparse'
        obtain ⟨object, hobject⟩ := Option.isSome_iff_exists.mp hbody
        exact ⟨object, process_eq_handle_iff.mpr ⟨hmethod, htoken, hobject⟩⟩
      · rintro ⟨object, hprocess⟩
        obtain ⟨hmethod, htoken, hobject⟩ := process_eq_handle_iff.mp hprocess
        exact ⟨req, hparse, hmethod, htoken, by rw [hobject]; rfl⟩
    rw [hcompletes]
    cases process P token req with
    | reply reply => simp [behindProcess]
    | handle object => simp [behindProcess]
  · refine iff_of_false ?_ ?_
    · rcases hopen with rfl | ⟨conn', rfl, -⟩
      · simp
      · simp
    · rintro ⟨req, hparse', -⟩
      rw [hparse] at hparse'
      cases hparse'

lemma received_ne_call {P : EndpointPlatform} {token : String} {conn : Connection}
    {r : Receive} {client : Client} (hconn : conn.phase = .receiving)
    (h : received P token conn r = some client) (call : ToolCall) :
    client ≠ .calling call ∧ client ≠ .commanding call := by
  rcases received_eq hconn h with ⟨req, -, rfl⟩ | ⟨-, rfl | ⟨conn', rfl, -⟩⟩
  · cases process P token req with
    | reply reply => simp [behindProcess]
    | handle object => simp [behindProcess]
  · simp
  · simp

/-! ## The invariant -/

/-- What holds in every state. -/
structure EndpointInv (s : MCPEndpoint) : Prop where
  stopped_none : s.stopped = true → s.manager.listener = none
  called : ∀ i call, s.clients i = some (.calling call) → OnRecord s.manager call.ensure
  receiving : ∀ i conn, s.clients i = some (.connected conn) → conn.phase = .receiving

/-- What holds as long as the condition is met. -/
structure Quiet (s : MCPEndpoint) : Prop where
  handing : s.manager.listener = none → ∀ i, ¬ Handing s i
  calling : s.stopped = true → ∀ i, ¬ InToolCall s i

variable {P : EndpointPlatform}

lemma Quiet.enabledOnly {s : MCPEndpoint} (hs : EndpointInv s) (hquiet : Quiet s) :
    EnabledOnly P s := by
  intro e s' hstep
  refine ⟨?_, ?_, ?_⟩
  · rintro i rfl hl
    cases step_reaction hstep with
    | handle hi => exact hquiet.handing hl i ⟨_, hi⟩
  · intro hstopped hruns
    cases hruns with
    | begun hi _ => exact hquiet.handing (hs.stopped_none hstopped) _ ⟨_, hi⟩
    | probed hi | polled hi | resumed hi => exact hquiet.calling hstopped _ ⟨_, .inl hi⟩
    | exchanged hi => exact hquiet.calling hstopped _ ⟨_, .inr hi⟩
  · rintro hstopped ⟨i, call, hi, -⟩
    exact hquiet.calling hstopped i ⟨call, .inl hi⟩

lemma step_resume {s : MCPEndpoint} {i : ℕ} {call : ToolCall} {phase : EnsurePhase}
    (hi : s.clients i = some (.calling call)) (hphase : s.manager.calls call.ensure = some phase)
    (hdone : isDone phase = true) :
    s.step P (.resume i) = some (s.setClient i (resumed P call phase)) := by
  rw [MCPEndpoint.step, hi]
  dsimp only
  rw [hphase]
  exact if_pos hdone

/-- A tool call that is under way can go on. -/
lemma InToolCall.goes_on {s : MCPEndpoint} {i : ℕ} (hs : EndpointInv s) (hi : InToolCall s i) :
    ∃ e s', s.step P e = some s' ∧ RunsToolCall P s e := by
  obtain ⟨call, hi | hi⟩ := hi
  · obtain ⟨phase, hphase⟩ := hs.called i call hi
    cases phase with
    | probing =>
        have hstep : s.manager.step (.probed call.ensure .reachable)
            = some (s.manager.probed call.ensure .reachable) := by
          rw [NativeChromeMCP.step, hphase]
        exact ⟨.app (.probed call.ensure .reachable), _, by rw [MCPEndpoint.step, hstep],
          .probed hi⟩
    | polling rounds =>
        have hstep : s.manager.step (.polled call.ensure true)
            = some (s.manager.polled call.ensure rounds true) := by
          rw [NativeChromeMCP.step, hphase]
        exact ⟨.app (.polled call.ensure true), _, by rw [MCPEndpoint.step, hstep], .polled hi⟩
    | returned | threw | failed =>
        exact ⟨.resume i, _, step_resume hi hphase rfl, .resumed hi⟩
  · refine ⟨.exchange i none, s, ?_, .exchanged hi⟩
    rw [MCPEndpoint.step, hi]

lemma EnabledOnly.quiet {s : MCPEndpoint} (hs : EndpointInv s) (henabled : EnabledOnly P s) :
    Quiet s := by
  constructor
  · rintro hl i ⟨object, hi⟩
    have hstep : s.step P (.handle i) = some (s.handle P i object) := by
      rw [MCPEndpoint.step, hi]
    exact (henabled _ _ hstep).handed i rfl hl
  · intro hstopped i hi
    obtain ⟨e, s', hstep, hruns⟩ := hi.goes_on (P := P) hs
    exact (henabled e s' hstep).executed hstopped hruns

/-! ## Steps -/

lemma EndpointInv.setClient {s : MCPEndpoint} (hs : EndpointInv s) (i : ℕ) {client : Client}
    (hcalled : ∀ call, client = .calling call → OnRecord s.manager call.ensure)
    (hreceiving : ∀ conn, client = .connected conn → conn.phase = .receiving) :
    EndpointInv (s.setClient i client) where
  stopped_none := hs.stopped_none
  called j call hj := by
    rw [setClient_clients] at hj
    split_ifs at hj
    · exact hcalled call (Option.some.inj hj)
    · exact hs.called j call hj
  receiving j conn hj := by
    rw [setClient_clients] at hj
    split_ifs at hj
    · exact hreceiving conn (Option.some.inj hj)
    · exact hs.receiving j conn hj

lemma Quiet.setClient {s : MCPEndpoint} (hs : Quiet s) (i : ℕ) {client : Client}
    (hhanding : s.manager.listener = none → ∀ object, client ≠ .handing object)
    (hcalling : s.stopped = true → ∀ call, client ≠ .calling call ∧ client ≠ .commanding call) :
    Quiet (s.setClient i client) where
  handing hl j := by
    rintro ⟨object, hj⟩
    rw [setClient_clients] at hj
    split_ifs at hj
    · exact hhanding hl object (Option.some.inj hj)
    · exact hs.handing hl j ⟨object, hj⟩
  calling hstopped j := by
    rintro ⟨call, hj⟩
    rw [setClient_clients] at hj
    split_ifs at hj
    · rcases hj with hj | hj
      · exact (hcalling hstopped call).1 (Option.some.inj hj)
      · exact (hcalling hstopped call).2 (Option.some.inj hj)
    · exact hs.calling hstopped j ⟨call, hj⟩

lemma EndpointInv.app {s : MCPEndpoint} (hs : EndpointInv s) {e : MCPEvent}
    {manager : NativeChromeMCP} (hstep : s.manager.step e = some manager) :
    EndpointInv { s with manager := manager, stopped := stoppedBy s.stopped e } where
  stopped_none hstopped := by
    refine (listener_step hstep).mpr ?_
    cases e with
    | start => cases hstopped
    | stop => exact .inl trivial
    | _ => exact .inr ⟨hs.stopped_none hstopped, by simp⟩
  called i call hi := (hs.called i call hi).step hstep
  receiving := hs.receiving

lemma EndpointInv.step {s s' : MCPEndpoint} {e : EndpointEvent} (hs : EndpointInv s)
    (hstep : s.step P e = some s') : EndpointInv s' := by
  cases step_reaction hstep with
  | app happ => exact hs.app happ
  | arrive hl =>
      have h : EndpointInv (s.setClient s.nextClient .arriving) :=
        hs.setClient s.nextClient (by simp) (by simp)
      exact ⟨h.stopped_none, h.called, h.receiving⟩
  | accept hi =>
      refine hs.setClient _ (by simp) fun conn hconn => ?_
      cases hconn
      rfl
  | @receive i r conn client hi hclient =>
      rcases received_eq (hs.receiving _ _ hi) hclient with ⟨req, -, rfl⟩ |
        ⟨-, rfl | ⟨conn', rfl, hconn'⟩⟩
      · cases process P s.manager.token req with
        | reply | handle =>
            exact hs.setClient i (fun _ h => by cases h) (fun _ h => by cases h)
      · exact hs.setClient i (by simp) (by simp)
      · refine hs.setClient i (by simp) fun conn hconn => ?_
        cases hconn
        exact hconn'
  | @handle i object hi =>
      rcases handle_cases P s i object with ⟨reply, heq⟩ | ⟨call, hcall, heq⟩
      · rw [heq]
        exact hs.setClient i (by simp) (by simp)
      · rw [heq]
        have hbegin : EndpointInv { s with manager := s.manager.beginEnsure } :=
          ⟨hs.stopped_none, fun j call' hj => (hs.called j call' hj).setCall _ _, hs.receiving⟩
        refine hbegin.setClient i (fun call' hcall' => ?_) (by simp)
        cases hcall'
        rw [hcall]
        exact ⟨.probing, Function.update_self _ _ _⟩
  | @resume i call phase hi hphase hdone =>
      rcases resumed_cases P call phase with ⟨reply, heq⟩ | heq
      · rw [heq]
        exact hs.setClient i (by simp) (by simp)
      · rw [heq]
        exact hs.setClient i (by simp) (by simp)
  | exchange hi => exact hs
  | finish hi => exact hs.setClient _ (by simp) (by simp)

/-- Events of the manager leave the clients alone. -/
lemma quiet_app_iff {s : MCPEndpoint} (hquiet : Quiet s) {e : MCPEvent}
    {manager : NativeChromeMCP} (hstep : s.manager.step e = some manager) :
    Quiet { s with manager := manager, stopped := stoppedBy s.stopped e }
      ↔ QuietAtStop P s (.app e) := by
  constructor
  · intro h
    refine ⟨fun hclose => h.handing ((listener_step hstep).mpr (.inl hclose)), ?_⟩
    rintro ⟨killChrome, rfl⟩
    exact h.calling rfl
  · rintro ⟨hhanding, hcalling⟩
    refine ⟨fun hl => ?_, fun hstopped => ?_⟩
    · rcases (listener_step hstep).mp hl with hclose | ⟨hnone, -⟩
      · exact hhanding hclose
      · exact hquiet.handing hnone
    · cases e with
      | start => cases hstopped
      | stop killChrome => exact hcalling ⟨killChrome, rfl⟩
      | _ => exact hquiet.calling hstopped

/-- **One step keeps the endpoint quiet exactly if it meets the condition.** -/
lemma quiet_iff {s s' : MCPEndpoint} {e : EndpointEvent} (hs : EndpointInv s) (hquiet : Quiet s)
    (hstep : s.step P e = some s') : Quiet s' ↔ QuietAtStop P s e := by
  cases step_reaction hstep with
  | app happ => exact quiet_app_iff hquiet happ
  | arrive hl =>
      have h : Quiet (s.setClient s.nextClient .arriving) :=
        hquiet.setClient s.nextClient (by simp) (by simp)
      exact iff_of_true ⟨h.handing, h.calling⟩ trivial
  | accept hi => exact iff_of_true (hquiet.setClient _ (by simp) (by simp)) trivial
  | @receive i r conn client hi hclient =>
      have hconn : QuietAtStop P s (.receive i r)
          ↔ (s.manager.listener = none → ¬ CompletesRequest P s.manager.token conn r) := by
        constructor
        · exact fun h hl => h hl conn hi
        · intro h hl conn' hi'
          rw [hi] at hi'
          cases hi'
          exact h hl
      have hnew : (∃ object, client = .handing object)
          ↔ CompletesRequest P s.manager.token conn r :=
        received_handing_iff (hs.receiving _ _ hi) hclient
      rw [hconn, ← hnew]
      constructor
      · rintro h hl ⟨object, rfl⟩
        exact h.handing hl i ⟨object, by rw [setClient_clients, if_pos rfl]⟩
      · intro h
        refine hquiet.setClient i (fun hl object heq => h hl ⟨object, heq⟩) fun _ call => ?_
        exact received_ne_call (hs.receiving _ _ hi) hclient call
  | @handle i object hi =>
      -- the request was waiting, so there is a listener, and `stop` was not the last call
      have hl : s.manager.listener ≠ none := fun hl => hquiet.handing hl i ⟨object, hi⟩
      have hstopped : s.stopped ≠ true := fun hstopped => hl (hs.stopped_none hstopped)
      refine iff_of_true ?_ trivial
      rcases handle_cases P s i object with ⟨reply, heq⟩ | ⟨call, -, heq⟩
      · rw [heq]
        exact hquiet.setClient i (by simp) (by simp)
      · rw [heq]
        have hbegin : Quiet { s with manager := s.manager.beginEnsure } :=
          ⟨hquiet.handing, hquiet.calling⟩
        exact hbegin.setClient i (by simp) fun h => absurd h hstopped
  | @resume i call phase hi hphase hdone =>
      have hstopped : s.stopped ≠ true := fun h => hquiet.calling h i ⟨call, .inl hi⟩
      refine iff_of_true ?_ trivial
      rcases resumed_cases P call phase with ⟨reply, heq⟩ | heq
      · rw [heq]
        exact hquiet.setClient i (by simp) (by simp)
      · rw [heq]
        exact hquiet.setClient i (by simp) fun h => absurd h hstopped
  | exchange hi => exact iff_of_true hquiet trivial
  | finish hi => exact iff_of_true (hquiet.setClient _ (by simp) (by simp)) trivial

lemma endpointInv_init : EndpointInv (mcpEndpoint P).init where
  stopped_none h := by cases h
  called _ _ h := by cases h
  receiving _ _ h := by cases h

lemma quiet_init : Quiet (mcpEndpoint P).init where
  handing := by
    rintro - i ⟨object, h⟩
    cases h
  calling h := by cases h

/-- **When the endpoint serves only while it is enabled.** -/
theorem enabled_only_iff (P : EndpointPlatform) (es : List EndpointEvent) :
    (mcpEndpoint P).Along (fun s e s' => Permitted P s e ∧ EnabledOnly P s') es
      ↔ (mcpEndpoint P).Meets (QuietAtStop P) es := by
  refine Machine.along_iff_meets (I := fun s => EndpointInv s ∧ Quiet s) ?_ ?_ ?_ es
  · exact ⟨endpointInv_init, quiet_init⟩
  · rintro s e s' ⟨hs, hquiet⟩ hstep hcond
    exact ⟨hs.step hstep, (quiet_iff hs hquiet hstep).mpr hcond⟩
  · rintro s e s' ⟨hs, hquiet⟩ hstep
    constructor
    · rintro ⟨-, henabled⟩
      exact (quiet_iff hs hquiet hstep).mp (henabled.quiet (hs.step hstep))
    · intro hcond
      have hquiet' := (quiet_iff hs hquiet hstep).mpr hcond
      exact ⟨hquiet.enabledOnly hs e s' hstep, hquiet'.enabledOnly (hs.step hstep)⟩

/-! ## A request that is half received -/

/-- The body of a call of a tool. -/
def toolsCallBody : List UInt8 :=
  asciiBytes ("\x7b\"method\":\"tools/call\","
    ++ "\"params\":\x7b\"name\":\"http_command\"\x7d\x7d").toList

/-- The object in it. -/
def toolsCallObject : JsonObject := fun key =>
  [("method", Json.string "tools/call"),
    ("params", .object [("name", .string "http_command")])].lookup key

/-- Libraries that know this body. -/
def toolsCallPlatform : EndpointPlatform where
  unicode := .ascii
  jsonObject body := if body = toolsCallBody then some toolsCallObject else none
  jsonData _ := asciiBytes "\x7b\x7d".toList
  describing _ := "unreachable"

/-- The request, with a token. -/
def toolsCallBytes : List UInt8 :=
  asciiBytes ("POST / HTTP/1.1\r\nAuthorization: Bearer secret\r\n"
    ++ "Content-Length: 56\r\n\r\n").toList ++ toolsCallBody

/-- The endpoint is stopped between the two halves of the request. -/
def stoppedBetweenHalves : List EndpointEvent :=
  [.app (.start 9323 "secret" .created), .arrive 0, .accept 0,
    .receive 0 ⟨toolsCallBytes.take 30, false, false⟩, .app (.stop true),
    .receive 0 ⟨toolsCallBytes.drop 30, false, false⟩]

set_option maxRecDepth 20000 in
/-- The rest of the request comes in after `stop`.  It is handed to `handleRequest`, and the tool
call launches a Chrome. -/
theorem chrome_launched_after_stop :
    ¬ (mcpEndpoint toolsCallPlatform).Along (fun s e _ => Permitted toolsCallPlatform s e)
        (stoppedBetweenHalves ++ [.handle 0])
      ∧ ∃ s, (mcpEndpoint toolsCallPlatform).run
            (stoppedBetweenHalves ++ [.handle 0, .app (.probed 0 .launched)]) = some s
          ∧ s.stopped = true ∧ s.manager.listener = none ∧ s.manager.chromeProcess = some 0 := by
  constructor
  · intro halong
    obtain ⟨s, s', hrun, hstep, hl⟩ : ∃ s s',
        (mcpEndpoint toolsCallPlatform).run stoppedBetweenHalves = some s
          ∧ (mcpEndpoint toolsCallPlatform).step s (.handle 0) = some s'
          ∧ s.manager.listener = none := ⟨_, _, rfl, rfl, rfl⟩
    exact (Machine.along_concat halong hrun hstep).handed 0 rfl hl
  · exact ⟨_, rfl, rfl, rfl, rfl⟩

end Luan
