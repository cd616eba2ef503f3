import Luan.ChromeMCP.ListenerNews
import Luan.ChromeMCP.Requests

/-!
# The endpoint and its clients

The manager of `ChromeMCP/Manager.lean` together with the connections that its listeners accept.
A connection lives in the closures of `accept` and `process`, outside of the object: `stop` cancels
the listener and does not know of the connections.  A client goes through these phases:

* `arriving` — the connection has come in, its task with `accept` is under way;
* `connected` — `pump` waits for data;
* `handing` — `process` has let the request through and created a task with `handleRequest`;
* `calling` — a tool call waits in `ensureChrome`;
* `commanding` — it waits for Chrome;
* `closed` — it has its reply, or the connection is cancelled.

A trap of the parser ends the process, so the step that would lead there is undefined.  Calls of
`ensureChrome` by clients are calls of the manager, and go on by the manager's own events.
-/

namespace Luan

open NativeChromeMCP

/-! ## The state -/

/-- A call of `callTool` with one of the tools. -/
structure ToolCall where
  /-- the `id` of the request -/
  id : Json
  tool : Tool
  arguments : JsonObject
  /-- the number of its call of `ensureChrome` -/
  ensure : ℕ

/-- Where a client stands. -/
inductive Client
  | arriving
  | connected (conn : Connection)
  | handing (object : JsonObject)
  | calling (call : ToolCall)
  | commanding (call : ToolCall)
  | closed (reply : Option HTTPReply)

/-- The manager and its clients. -/
structure MCPEndpoint where
  manager : NativeChromeMCP
  /-- of the calls of `start` and `stop`, the last one was a call of `stop` -/
  stopped : Bool
  nextClient : ℕ
  clients : ℕ → Option Client

/-- What can happen. -/
inductive EndpointEvent
  /-- the manager goes on, or the app calls it -/
  | app (e : MCPEvent)
  /-- a listener has a new connection; it has none after `cancel()` -/
  | arrive (listener : ℕ)
  /-- the task of `newConnectionHandler` -/
  | accept (i : ℕ)
  /-- data, the end or an error of a connection -/
  | receive (i : ℕ) (r : Receive)
  /-- the task of `process` -/
  | handle (i : ℕ)
  /-- a tool call goes on behind `await ensureChrome()` -/
  | resume (i : ℕ)
  /-- a tool call goes on behind an answer of Chrome, which may give it its result -/
  | exchange (i : ℕ) (result : Option Json)

/-- `ensureChrome` up to its first `await`, as the manager's step `ensureChrome` has it. -/
def NativeChromeMCP.beginEnsure (s : NativeChromeMCP) : NativeChromeMCP :=
  { s.setCall s.nextCall .probing with nextCall := s.nextCall + 1 }

lemma NativeChromeMCP.step_ensureChrome (s : NativeChromeMCP) :
    s.step .ensureChrome = some s.beginEnsure := rfl

namespace MCPEndpoint

/-! ## Steps -/

/-- A client goes on to another phase. -/
def setClient (s : MCPEndpoint) (i : ℕ) (client : Client) : MCPEndpoint :=
  { s with clients := Function.update s.clients i (some client) }

/-- Whether the last of `start` and `stop` was `stop`. -/
def stoppedBy (stopped : Bool) : MCPEvent → Bool
  | .start _ _ _ => false
  | .stop _ => true
  | _ => stopped

/-- A client behind `process`. -/
def behindProcess : Processed → Client
  | .reply reply => .closed (some reply)
  | .handle object => .handing object

/-- The handler in `pump`, with the call of `process`. -/
def received (P : EndpointPlatform) (token : String) (conn : Connection) (r : Receive) :
    Option Client :=
  let conn := pump P.unicode conn r
  match conn.phase with
  | .trapped => none
  | .cancelled => some (.closed none)
  | .receiving => some (.connected conn)
  | .processing =>
      conn.processed.getLast?.map fun req => behindProcess (process P token req)

/-- The task of `process`: `handleRequest`, and `callTool` up to the first `await` of
`ensureChrome`. -/
def handle (P : EndpointPlatform) (s : MCPEndpoint) (i : ℕ) (object : JsonObject) : MCPEndpoint :=
  match handleRequest P object with
  | .reply reply => s.setClient i (.closed (some reply))
  | .callTool id name arguments =>
      match Tool.named? P.unicode name with
      | none =>
          s.setClient i (.closed (some (toolReply P id (toolError ("unknown tool: " ++ name)))))
      | some tool =>
          { s with manager := s.manager.beginEnsure }.setClient i
            (.calling ⟨id, tool, arguments, s.manager.nextCall⟩)

/-- A tool call behind `ensureChrome`, which has returned or thrown. -/
def resumed (P : EndpointPlatform) (call : ToolCall) (phase : EnsurePhase) : Client :=
  match phase with
  | .returned =>
      match call.tool.missing? call.arguments with
      | none => .commanding call
      | some message => .closed (some (toolReply P call.id (toolError message)))
  | error => .closed (some (toolReply P call.id (toolError (P.describing error))))

/-- `ensureChrome` has come to its end. -/
def isDone : EnsurePhase → Bool
  | .probing | .polling _ => false
  | .returned | .threw _ | .failed => true

/-- One step. -/
def step (P : EndpointPlatform) (s : MCPEndpoint) : EndpointEvent → Option MCPEndpoint
  | .app e =>
      match s.manager.step e with
      | some manager => some { s with manager := manager, stopped := stoppedBy s.stopped e }
      | none => none
  | .arrive l =>
      match s.manager.listeners l with
      | some ⟨_, false⟩ =>
          some { s.setClient s.nextClient .arriving with nextClient := s.nextClient + 1 }
      | _ => none
  | .accept i =>
      match s.clients i with
      | some .arriving => some (s.setClient i (.connected Connection.fresh))
      | _ => none
  | .receive i r =>
      match s.clients i with
      | some (.connected conn) => (received P s.manager.token conn r).map (s.setClient i)
      | _ => none
  | .handle i =>
      match s.clients i with
      | some (.handing object) => some (s.handle P i object)
      | _ => none
  | .resume i =>
      match s.clients i with
      | some (.calling call) =>
          match s.manager.calls call.ensure with
          | some phase =>
              if isDone phase then some (s.setClient i (resumed P call phase)) else none
          | none => none
      | _ => none
  | .exchange i result =>
      match s.clients i with
      | some (.commanding call) =>
          match result with
          | none => some s
          | some result => some (s.setClient i (.closed (some (toolReply P call.id result))))
      | _ => none

/-- What each event leads to, and what it needs to happen. -/
inductive Reaction (P : EndpointPlatform) (s : MCPEndpoint) :
    EndpointEvent → MCPEndpoint → Prop
  | app {e : MCPEvent} {manager : NativeChromeMCP} (hstep : s.manager.step e = some manager) :
      Reaction P s (.app e) { s with manager := manager, stopped := stoppedBy s.stopped e }
  | arrive {l port : ℕ} (hl : s.manager.listeners l = some ⟨port, false⟩) :
      Reaction P s (.arrive l)
        { s.setClient s.nextClient .arriving with nextClient := s.nextClient + 1 }
  | accept {i : ℕ} (hi : s.clients i = some .arriving) :
      Reaction P s (.accept i) (s.setClient i (.connected Connection.fresh))
  | receive {i : ℕ} {r : Receive} {conn : Connection} {client : Client}
      (hi : s.clients i = some (.connected conn))
      (hclient : received P s.manager.token conn r = some client) :
      Reaction P s (.receive i r) (s.setClient i client)
  | handle {i : ℕ} {object : JsonObject} (hi : s.clients i = some (.handing object)) :
      Reaction P s (.handle i) (s.handle P i object)
  | resume {i : ℕ} {call : ToolCall} {phase : EnsurePhase}
      (hi : s.clients i = some (.calling call)) (hphase : s.manager.calls call.ensure = some phase)
      (hdone : isDone phase = true) :
      Reaction P s (.resume i) (s.setClient i (resumed P call phase))
  | exchange {i : ℕ} {call : ToolCall} (hi : s.clients i = some (.commanding call)) :
      Reaction P s (.exchange i none) s
  | finish {i : ℕ} {call : ToolCall} {result : Json} (hi : s.clients i = some (.commanding call)) :
      Reaction P s (.exchange i (some result))
        (s.setClient i (.closed (some (toolReply P call.id result))))

/-- **Every step is one of these reactions.** -/
lemma step_reaction {P : EndpointPlatform} {s s' : MCPEndpoint} {e : EndpointEvent}
    (h : s.step P e = some s') : Reaction P s e s' := by
  cases e with
  | app e =>
      rw [step] at h
      split at h
      case h_1 hstep => exact Option.some.inj h ▸ .app hstep
      case h_2 => cases h
  | arrive l =>
      rw [step] at h
      split at h
      case h_1 hl => exact Option.some.inj h ▸ .arrive hl
      case h_2 => cases h
  | accept i =>
      rw [step] at h
      split at h
      case h_1 hi => exact Option.some.inj h ▸ .accept hi
      case h_2 => cases h
  | receive i r =>
      rw [step] at h
      split at h
      case h_1 hi =>
        obtain ⟨client, hclient, rfl⟩ := Option.map_eq_some_iff.mp h
        exact .receive hi hclient
      case h_2 => cases h
  | handle i =>
      rw [step] at h
      split at h
      case h_1 hi => exact Option.some.inj h ▸ .handle hi
      case h_2 => cases h
  | resume i =>
      rw [step] at h
      split at h
      case h_1 hi =>
        split at h
        case h_1 hphase =>
          split_ifs at h with hdone
          exact Option.some.inj h ▸ .resume hi hphase hdone
        case h_2 => cases h
      case h_2 => cases h
  | exchange i result =>
      rw [step] at h
      split at h
      case h_1 hi =>
        cases result with
        | none => exact Option.some.inj h ▸ .exchange hi
        | some result => exact Option.some.inj h ▸ .finish hi
      case h_2 => cases h

/-! ## What the steps change -/

lemma setClient_clients (s : MCPEndpoint) (i j : ℕ) (client : Client) :
    (s.setClient i client).clients j = if j = i then some client else s.clients j := by
  show Function.update s.clients i (some client) j = _
  rw [Function.update_apply]

/-- The outcomes of the task with `handleRequest`. -/
lemma handle_cases (P : EndpointPlatform) (s : MCPEndpoint) (i : ℕ) (object : JsonObject) :
    (∃ reply, s.handle P i object = s.setClient i (.closed reply))
      ∨ ∃ call, call.ensure = s.manager.nextCall
          ∧ s.handle P i object
              = setClient { s with manager := s.manager.beginEnsure } i (.calling call) := by
  rw [handle]
  split
  · exact .inl ⟨_, rfl⟩
  · split
    · exact .inl ⟨_, rfl⟩
    · exact .inr ⟨_, rfl, rfl⟩

lemma resumed_cases (P : EndpointPlatform) (call : ToolCall) (phase : EnsurePhase) :
    (∃ reply, resumed P call phase = .closed reply) ∨ resumed P call phase = .commanding call := by
  cases phase with
  | returned =>
      rw [resumed]
      split
      · exact .inr rfl
      · exact .inl ⟨_, rfl⟩
  | probing | polling | threw | failed => exact .inl ⟨_, rfl⟩

/-- A step of the endpoint is none of the manager, or one of its own. -/
lemma step_manager {P : EndpointPlatform} {s s' : MCPEndpoint} {e : EndpointEvent}
    (h : s.step P e = some s') :
    s'.manager = s.manager ∨ ∃ e', s.manager.step e' = some s'.manager := by
  cases step_reaction h with
  | app hstep => exact .inr ⟨_, hstep⟩
  | @handle i object hi =>
      rcases handle_cases P s i object with ⟨reply, heq⟩ | ⟨call, -, heq⟩
      · rw [heq]
        exact .inl rfl
      · rw [heq]
        exact .inr ⟨.ensureChrome, s.manager.step_ensureChrome⟩
  | arrive | accept | receive | resume | exchange | finish => exact .inl rfl

end MCPEndpoint

/-- The endpoint from the start of the app. -/
def mcpEndpoint (P : EndpointPlatform) : Machine MCPEndpoint EndpointEvent where
  init := ⟨nativeChromeMCP.init, false, 0, fun _ => none⟩
  step := MCPEndpoint.step P

/-- **The manager does not know that it has clients**: in every run of the endpoint it goes through
a run of its own. -/
theorem manager_run (P : EndpointPlatform) {es : List EndpointEvent} {s : MCPEndpoint}
    (hrun : (mcpEndpoint P).run es = some s) : ∃ es', nativeChromeMCP.run es' = some s.manager := by
  refine Machine.invariant (I := fun s => ∃ es', nativeChromeMCP.run es' = some s.manager)
    ⟨[], rfl⟩ ?_ hrun
  rintro s e s' ⟨es', hes'⟩ hstep
  rcases MCPEndpoint.step_manager hstep with heq | ⟨e', he'⟩
  · exact ⟨es', heq ▸ hes'⟩
  · refine ⟨es' ++ [e'], ?_⟩
    have hmachine : nativeChromeMCP.step s.manager e' = some s'.manager := he'
    rw [Machine.run_append hes', Machine.runFrom, hmachine]
    rfl

end Luan
