import Luan.ChromeMCP.BrowserWSPool

/-!
# The manager of the Chrome endpoint

`NativeChromeMCP` in `LuanMac/NativeChromeMCP.swift`: the loopback listener and the Chrome process
that belong to the app.  Everything runs on the main actor, but two kinds of news arrive there late:
the states of a listener and the exit of a process hop through a task of their own, and
`ensureChrome` is suspended while it waits for the debug port.

The listeners and processes outside the object are part of the state.  The connections that a
listener accepts are `Connection`s of `ChromeMCP/HTTP.lean` and are left out here;
`ChromeMCP/Endpoint.lean` has the manager together with them.

`Reaction` and `StartEnds` list what each event and each call of `start` lead to; statements about
all steps go through their cases.
-/

namespace Luan

/-! ## The world of the manager -/

/-- `NWListener.State`; the manager only looks at two of its cases. -/
inductive ListenerState
  | ready
  | failed (description : String)
  | other
  deriving DecidableEq, Repr

/-- A listener: its port, and whether `cancel()` was called. -/
structure Listener where
  port : ℕ
  cancelled : Bool

/-- A call of `stateUpdateHandler`, on its way to the main actor. -/
structure Notification where
  listener : ℕ
  state : ListenerState
  deriving DecidableEq

/-- A Chrome that `ensureChrome` has spawned. -/
structure ChromeProc where
  /-- `terminate()` was called: SIGTERM; Chrome exits on it -/
  terminated : Bool
  exited : Bool
  /-- its `terminationHandler` has been on the main actor -/
  handled : Bool

/-- Where a call of `ensureChrome` stands. -/
inductive EnsurePhase
  /-- waiting for the first answer of the debug port -/
  | probing
  /-- waiting for it in the poll loop, after so many rounds -/
  | polling (rounds : ℕ)
  | returned
  | threw (error : ChromeError)
  /-- `createDirectory` or `run()` threw -/
  | failed
  deriving DecidableEq

/-- The object's variables, and what it has created. -/
structure NativeChromeMCP where
  isRunning : Bool
  currentPort : ℕ
  lastError : Option String
  listener : Option ℕ
  chromeProcess : Option ℕ
  token : String
  nextListener : ℕ
  listeners : ℕ → Option Listener
  /-- the notifications under way -/
  pending : List Notification
  nextProcess : ℕ
  processes : ℕ → Option ChromeProc
  nextCall : ℕ
  calls : ℕ → Option EnsurePhase

namespace NativeChromeMCP

/-! ## Starting and stopping -/

/-- `listener?.cancel()` -/
def cancelListener (s : NativeChromeMCP) : NativeChromeMCP :=
  match s.listener with
  | some l =>
      { s with
        listeners := Function.update s.listeners l
          ((s.listeners l).map fun x => { x with cancelled := true }) }
  | none => s

/-- `proc.isRunning` -/
def isProcRunning (s : NativeChromeMCP) (p : ℕ) : Bool :=
  match s.processes p with
  | some x => !x.exited
  | none => false

/-- `terminateChrome` -/
def terminateChrome (s : NativeChromeMCP) : NativeChromeMCP :=
  match s.chromeProcess with
  | none => s
  | some p =>
      if s.isProcRunning p then
        { s with
          chromeProcess := none
          processes := Function.update s.processes p
            ((s.processes p).map fun x => { x with terminated := true }) }
      else { s with chromeProcess := none }

/-- `stop` -/
def stop (s : NativeChromeMCP) (killChrome : Bool) : NativeChromeMCP :=
  let s' := { s.cancelListener with listener := none, isRunning := false, currentPort := 0 }
  if killChrome then s'.terminateChrome else s'

/-- `min(max(port, 1024), 65535)` -/
def clampPort (port : Int) : ℕ := (min (max port 1024) 65535).toNat

/-- What `NWEndpoint.Port` and `NWListener` say to a port. -/
inductive CreateOutcome
  | invalidPort
  | createFailed
  | created

/-- The end of `start`: a new listener becomes the current one. -/
def install (s : NativeChromeMCP) (port : ℕ) : NativeChromeMCP :=
  { s with
    currentPort := port
    listener := some s.nextListener
    nextListener := s.nextListener + 1
    listeners := Function.update s.listeners s.nextListener (some ⟨port, false⟩) }

/-- `start` -/
def start (s : NativeChromeMCP) (port : Int) (token : String) (outcome : CreateOutcome) :
    NativeChromeMCP :=
  let clamped := clampPort port
  if token.isEmpty then { s with lastError := some "MCP requires an auth token" }
  else if s.listener ≠ none ∧ s.currentPort = clamped ∧ s.token = token then s
  else
    let s' := { s.stop false with token := token }
    match outcome with
    | .invalidPort => { s' with lastError := some ("invalid MCP port: " ++ toString clamped) }
    | .createFailed =>
        { s' with
          lastError := some ("failed to create MCP listener on port " ++ toString clamped) }
    | .created => s'.install clamped

/-- What `start` leads to: it is turned away, it finds the endpoint as it should be, or it stops
the endpoint and begins anew. -/
inductive StartEnds (s : NativeChromeMCP) (port : Int) (token : String) (outcome : CreateOutcome) :
    NativeChromeMCP → Prop
  | noToken {error : Option String} (htoken : token.isEmpty = true) :
      StartEnds s port token outcome { s with lastError := error }
  | same (htoken : token.isEmpty = false)
      (hsame : s.listener ≠ none ∧ s.currentPort = clampPort port ∧ s.token = token) :
      StartEnds s port token outcome s
  | failed {error : Option String} (htoken : token.isEmpty = false)
      (hsame : ¬ (s.listener ≠ none ∧ s.currentPort = clampPort port ∧ s.token = token))
      (hfailed : outcome ≠ .created) :
      StartEnds s port token outcome { s.stop false with token := token, lastError := error }
  | installed (htoken : token.isEmpty = false)
      (hsame : ¬ (s.listener ≠ none ∧ s.currentPort = clampPort port ∧ s.token = token))
      (hcreated : outcome = .created) :
      StartEnds s port token outcome ({ s.stop false with token := token }.install (clampPort port))

/-- **Every call of `start` ends in one of these ways.** -/
lemma start_ends (s : NativeChromeMCP) (port : Int) (token : String) (outcome : CreateOutcome) :
    StartEnds s port token outcome (s.start port token outcome) := by
  rw [start]
  dsimp only
  split_ifs with htoken hsame
  · exact .noToken htoken
  · exact .same (Bool.eq_false_iff.mpr htoken) hsame
  · have htoken' := Bool.eq_false_iff.mpr htoken
    cases outcome with
    | invalidPort => exact .failed htoken' hsame (by simp)
    | createFailed => exact .failed htoken' hsame (by simp)
    | created => exact .installed htoken' hsame rfl

/-- The `stateUpdateHandler` on the main actor.  It does not ask which listener it is about. -/
def listenerStateChanged (s : NativeChromeMCP) : ListenerState → NativeChromeMCP
  | .ready => { s with isRunning := true, lastError := none }
  | .failed description =>
      { s with
        isRunning := false
        currentPort := 0
        lastError := some ("MCP listener failed: " ++ description)
        listener := none }
  | .other => s

/-! ## The pieces of `ensureChrome` -/

/-- What `ensureChrome` meets after its first probe. -/
inductive ProbeOutcome
  | reachable
  | noExecutable
  /-- the data directory or the process cannot be created -/
  | launchFailed
  | launched

/-- `try proc.run(); chromeProcess = proc` -/
def spawn (s : NativeChromeMCP) : NativeChromeMCP :=
  { s with
    chromeProcess := some s.nextProcess
    nextProcess := s.nextProcess + 1
    processes := Function.update s.processes s.nextProcess (some ⟨false, false, false⟩) }

/-- A call of `ensureChrome` goes on to another phase. -/
def setCall (s : NativeChromeMCP) (c : ℕ) (phase : EnsurePhase) : NativeChromeMCP :=
  { s with calls := Function.update s.calls c (some phase) }

/-- From the first probe to the poll loop. -/
def probed (s : NativeChromeMCP) (c : ℕ) : ProbeOutcome → NativeChromeMCP
  | .reachable => s.setCall c .returned
  | .noExecutable => s.setCall c (.threw .noExecutable)
  | .launchFailed => s.setCall c .failed
  | .launched => s.spawn.setCall c (.polling 0)

/-- One round of the poll loop; there are 60. -/
def polled (s : NativeChromeMCP) (c rounds : ℕ) (reachable : Bool) : NativeChromeMCP :=
  if reachable then s.setCall c .returned
  else if rounds + 1 < 60 then s.setCall c (.polling (rounds + 1))
  else s.setCall c (.threw .unreachable)

/-- The `terminationHandler` on the main actor. -/
def chromeExited (s : NativeChromeMCP) (p : ℕ) : NativeChromeMCP :=
  if s.chromeProcess = some p then { s with chromeProcess := none } else s

/-- A process changes. -/
def setProc (s : NativeChromeMCP) (p : ℕ) (x : ChromeProc) : NativeChromeMCP :=
  { s with processes := Function.update s.processes p (some x) }

end NativeChromeMCP

/-! ## Steps -/

/-- What can happen on the main actor, and around it. -/
inductive MCPEvent
  | start (port : Int) (token : String) (outcome : NativeChromeMCP.CreateOutcome)
  | stop (killChrome : Bool)
  /-- a listener changes its state; it does not after `cancel()` -/
  | notify (n : Notification)
  /-- the news of it reaches the main actor -/
  | deliver (n : Notification)
  | ensureChrome
  | probed (c : ℕ) (outcome : NativeChromeMCP.ProbeOutcome)
  | polled (c : ℕ) (reachable : Bool)
  | exited (p : ℕ)
  /-- the news of the exit reaches the main actor -/
  | exitHandled (p : ℕ)

/-- One step. -/
def NativeChromeMCP.step (s : NativeChromeMCP) : MCPEvent → Option NativeChromeMCP
  | .start port token outcome => some (s.start port token outcome)
  | .stop killChrome => some (s.stop killChrome)
  | .notify n =>
      match s.listeners n.listener with
      | some ⟨_, false⟩ => some { s with pending := s.pending ++ [n] }
      | _ => none
  | .deliver n =>
      if n ∈ s.pending then
        some { s.listenerStateChanged n.state with pending := s.pending.erase n }
      else none
  | .ensureChrome => some { s.setCall s.nextCall .probing with nextCall := s.nextCall + 1 }
  | .probed c outcome =>
      match s.calls c with
      | some .probing => some (s.probed c outcome)
      | _ => none
  | .polled c reachable =>
      match s.calls c with
      | some (.polling rounds) => some (s.polled c rounds reachable)
      | _ => none
  | .exited p =>
      match s.processes p with
      | some ⟨terminated, false, _⟩ => some (s.setProc p ⟨terminated, true, false⟩)
      | _ => none
  | .exitHandled p =>
      match s.processes p with
      | some ⟨terminated, true, false⟩ =>
          some ((s.setProc p ⟨terminated, true, true⟩).chromeExited p)
      | _ => none

/-- What each event leads to, and what it needs to happen. -/
inductive NativeChromeMCP.Reaction (s : NativeChromeMCP) : MCPEvent → NativeChromeMCP → Prop
  | start {port : Int} {token : String} {outcome : CreateOutcome} :
      Reaction s (.start port token outcome) (s.start port token outcome)
  | stop {killChrome : Bool} : Reaction s (.stop killChrome) (s.stop killChrome)
  | notify {n : Notification} {port : ℕ}
      (hlistener : s.listeners n.listener = some ⟨port, false⟩) :
      Reaction s (.notify n) { s with pending := s.pending ++ [n] }
  | deliver {n : Notification} (hn : n ∈ s.pending) :
      Reaction s (.deliver n)
        { s.listenerStateChanged n.state with pending := s.pending.erase n }
  | ensureChrome :
      Reaction s .ensureChrome { s.setCall s.nextCall .probing with nextCall := s.nextCall + 1 }
  | probed {c : ℕ} {outcome : ProbeOutcome} (hcall : s.calls c = some .probing) :
      Reaction s (.probed c outcome) (s.probed c outcome)
  | polled {c rounds : ℕ} {reachable : Bool} (hcall : s.calls c = some (.polling rounds)) :
      Reaction s (.polled c reachable) (s.polled c rounds reachable)
  | exited {p : ℕ} {terminated handled : Bool}
      (hp : s.processes p = some ⟨terminated, false, handled⟩) :
      Reaction s (.exited p) (s.setProc p ⟨terminated, true, false⟩)
  | exitHandled {p : ℕ} {terminated : Bool}
      (hp : s.processes p = some ⟨terminated, true, false⟩) :
      Reaction s (.exitHandled p) ((s.setProc p ⟨terminated, true, true⟩).chromeExited p)

/-- **Every step is one of these reactions.** -/
lemma NativeChromeMCP.step_reaction {s s' : NativeChromeMCP} {e : MCPEvent}
    (h : s.step e = some s') : Reaction s e s' := by
  cases e with
  | start port token outcome => exact Option.some.inj h ▸ .start
  | stop killChrome => exact Option.some.inj h ▸ .stop
  | notify n =>
      rw [step] at h
      split at h
      case h_1 hlistener => exact Option.some.inj h ▸ .notify hlistener
      case h_2 => cases h
  | deliver n =>
      rw [step] at h
      split_ifs at h with hn
      exact Option.some.inj h ▸ .deliver hn
  | ensureChrome => exact Option.some.inj h ▸ .ensureChrome
  | probed c outcome =>
      rw [step] at h
      split at h
      case h_1 hcall => exact Option.some.inj h ▸ .probed hcall
      case h_2 => cases h
  | polled c reachable =>
      rw [step] at h
      split at h
      case h_1 hcall => exact Option.some.inj h ▸ .polled hcall
      case h_2 => cases h
  | exited p =>
      rw [step] at h
      split at h
      case h_1 hp => exact Option.some.inj h ▸ .exited hp
      case h_2 => cases h
  | exitHandled p =>
      rw [step] at h
      split at h
      case h_1 hp => exact Option.some.inj h ▸ .exitHandled hp
      case h_2 => cases h

/-- The manager from the start of the app. -/
def nativeChromeMCP : Machine NativeChromeMCP MCPEvent where
  init := ⟨false, 0, none, none, none, "", 0, fun _ => none, [], 0, fun _ => none, 0, fun _ => none⟩
  step := NativeChromeMCP.step

end Luan
