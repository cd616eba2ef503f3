import Luan.Core.Machine
import Mathlib.Logic.Function.Basic

/-!
# The shared browser connection

`BrowserWSPool` of `LuanMac/NativeChromeMCP.swift`: an actor that runs CDP commands over one
WebSocket.  An actor executes one piece of code at a time, but it is free for other calls at every
`await`; a call of `run` is therefore cut at `send` and at `receive`, and the pieces of different
calls interleave.

The state holds the actor's variables, the connections, and the calls with what they wait for.
`arrived` is a record for the statements only.
-/

namespace Luan

/-- `ChromeError` -/
inductive ChromeError
  | unreachable
  | noExecutable
  | invalidTarget
  | cdpFailed
  | wsFailed
  | timeout
  | cdpError (message : String)
  deriving DecidableEq, Repr

/-! ## Messages, connections, calls -/

/-- A reply: the command's id, an `error` object with or without a message, a `result`. -/
structure Reply (R : Type) where
  id : ℕ
  error : Option (Option String)
  result : Option R

/-- What Chrome sends. -/
inductive WSMessage (R : Type)
  | reply (r : Reply R)
  /-- an event, or anything else without the id of a command -/
  | other

/-- The id of the command that a message answers. -/
def WSMessage.replyId {R : Type} : WSMessage R → Option ℕ
  | .reply r => some r.id
  | .other => none

@[simp] lemma replyId_reply {R : Type} (r : Reply R) :
    (WSMessage.reply r).replyId = some r.id := rfl

@[simp] lemma replyId_other {R : Type} : (WSMessage.other : WSMessage R).replyId = none := rfl

/-- Where a call of `run` stands. -/
inductive RunPhase (R : Type)
  | sending
  | receiving
  | returned (result : R)
  | threw (error : ChromeError)
  /-- `JSONSerialization` threw -/
  | notEncodable

/-- The call is suspended at `send` or at `receive`. -/
def RunPhase.pending {R : Type} : RunPhase R → Bool
  | .sending => true
  | .receiving => true
  | _ => false

/-- How a call ends that has been handed the reply to its command. -/
def Reply.outcome {R : Type} [EmptyCollection R] (r : Reply R) : RunPhase R :=
  match r.error with
  | some message => .threw (.cdpError (message.getD "CDP error"))
  | none => .returned (r.result.getD ∅)

/-- A call of `run` that was assigned an id: the connection in its variable `task`. -/
structure RunCall (R : Type) where
  conn : ℕ
  phase : RunPhase R

/-- A `URLSessionWebSocketTask`: `inbox` holds what no `receive` has been handed yet. -/
structure WSConn (R : Type) where
  url : String
  cancelled : Bool
  arrived : List (WSMessage R)
  inbox : List (WSMessage R)

/-- The actor, the connections it has opened and the calls by their ids. -/
structure BrowserWSPool (R : Type) where
  task : Option ℕ
  wsURL : String
  nextID : ℕ
  nextConn : ℕ
  conns : ℕ → Option (WSConn R)
  calls : ℕ → Option (RunCall R)

namespace BrowserWSPool

variable {R : Type}

/-! ## The pieces of `run` -/

/-- `task.cancel(with: .goingAway, reason: nil)` -/
def cancel (s : BrowserWSPool R) (c : ℕ) : BrowserWSPool R :=
  { s with
    conns := Function.update s.conns c ((s.conns c).map fun w => { w with cancelled := true }) }

/-- A new WebSocket task for a URL, which becomes the actor's. -/
def connect (s : BrowserWSPool R) (url : String) : BrowserWSPool R :=
  { s with
    task := some s.nextConn
    wsURL := url
    nextConn := s.nextConn + 1
    conns := Function.update s.conns s.nextConn (some ⟨url, false, [], []⟩) }

/-- `nextID += 1`, and the command up to its `send`. -/
def issue (s : BrowserWSPool R) (c : ℕ) (encodes : Bool) : BrowserWSPool R :=
  { s with
    nextID := s.nextID + 1
    calls := Function.update s.calls (s.nextID + 1)
      (some ⟨c, if encodes then .sending else .notEncodable⟩) }

/-- `run` up to its first `await`.  A URL that is none throws only after the old connection has
been cancelled, and leaves it in `task`. -/
def enter (s : BrowserWSPool R) (url : String) (validURL encodes : Bool) : BrowserWSPool R :=
  match s.task with
  | some c =>
      if s.wsURL = url then s.issue c encodes
      else if validURL then ((s.cancel c).connect url).issue s.nextConn encodes
      else s.cancel c
  | none => if validURL then (s.connect url).issue s.nextConn encodes else s

/-- The call goes on to another phase. -/
def setPhase (s : BrowserWSPool R) (id : ℕ) (phase : RunPhase R) : BrowserWSPool R :=
  { s with
    calls := Function.update s.calls id ((s.calls id).map fun call =>
      { call with phase := phase }) }

/-- A message arrives on a connection. -/
def deliver (s : BrowserWSPool R) (c : ℕ) (w : WSConn R) (m : WSMessage R) : BrowserWSPool R :=
  { s with
    conns := Function.update s.conns c
      (some { w with arrived := w.arrived ++ [m], inbox := w.inbox ++ [m] }) }

/-- The first message of a connection is taken from it. -/
def take (s : BrowserWSPool R) (c : ℕ) (w : WSConn R) (rest : List (WSMessage R)) :
    BrowserWSPool R :=
  { s with conns := Function.update s.conns c (some { w with inbox := rest }) }

/-- A failed `send` or `receive`: the connection is dropped and the call throws. -/
def fail (s : BrowserWSPool R) (id c : ℕ) (error : ChromeError) : BrowserWSPool R :=
  { (s.cancel c).setPhase id (.threw error) with task := none }

/-- What the loop of `run` does with a message: everything but the reply to the own command is
skipped. -/
def handle [EmptyCollection R] (s : BrowserWSPool R) (id : ℕ) : WSMessage R → BrowserWSPool R
  | .reply r => if r.id = id then s.setPhase id r.outcome else s
  | .other => s

/-- Chrome answers a command that it was sent on the connection, once. -/
def mayArrive (s : BrowserWSPool R) (c : ℕ) (w : WSConn R) : WSMessage R → Bool
  | .reply r =>
      (match s.calls r.id with
        | some call => call.conn == c && call.phase.pending
        | none => false)
      && !(w.arrived.filterMap WSMessage.replyId).contains r.id
  | .other => true

/-! ## What the pieces change -/

@[simp] lemma conns_cancel (s : BrowserWSPool R) (c : ℕ) :
    (s.cancel c).conns
      = Function.update s.conns c ((s.conns c).map fun w => { w with cancelled := true }) := rfl

@[simp] lemma conns_connect (s : BrowserWSPool R) (url : String) :
    (s.connect url).conns = Function.update s.conns s.nextConn (some ⟨url, false, [], []⟩) := rfl

@[simp] lemma calls_issue (s : BrowserWSPool R) (c : ℕ) (encodes : Bool) :
    (s.issue c encodes).calls
      = Function.update s.calls (s.nextID + 1)
          (some ⟨c, if encodes then .sending else .notEncodable⟩) := rfl

lemma calls_setPhase {s : BrowserWSPool R} {id : ℕ} {call : RunCall R}
    (hcall : s.calls id = some call) (phase : RunPhase R) :
    (s.setPhase id phase).calls = Function.update s.calls id (some ⟨call.conn, phase⟩) := by
  rw [setPhase, hcall]
  rfl

end BrowserWSPool

/-! ## Steps -/

/-- What can happen between two pieces of code. -/
inductive PoolEvent (R : Type)
  /-- a call of `run`; `validURL` and `encodes` are what `URL(string:)` and `JSONSerialization`
  say to its arguments -/
  | run (wsURL : String) (validURL encodes : Bool)
  | sent (id : ℕ)
  | sendFailed (id : ℕ)
  | arrive (c : ℕ) (m : WSMessage R)
  /-- the `receive` of a call is handed the next message -/
  | receive (id : ℕ)
  | timeout (id : ℕ)
  | receiveFailed (id : ℕ)

namespace BrowserWSPool

variable {R : Type} [EmptyCollection R]

/-- One step of the pool. -/
def step (s : BrowserWSPool R) : PoolEvent R → Option (BrowserWSPool R)
  | .run wsURL validURL encodes => some (s.enter wsURL validURL encodes)
  | .sent id =>
      match s.calls id with
      | some ⟨_, .sending⟩ => some (s.setPhase id .receiving)
      | _ => none
  | .sendFailed id =>
      match s.calls id with
      | some ⟨c, .sending⟩ => some (s.fail id c .wsFailed)
      | _ => none
  | .arrive c m =>
      match s.conns c with
      | some w =>
          if w.cancelled = false ∧ s.mayArrive c w m = true then some (s.deliver c w m) else none
      | none => none
  | .receive id =>
      match s.calls id with
      | some ⟨c, .receiving⟩ =>
          match s.conns c with
          | some ⟨url, false, arrived, m :: rest⟩ =>
              some ((s.take c ⟨url, false, arrived, m :: rest⟩ rest).handle id m)
          | _ => none
      | _ => none
  | .timeout id =>
      match s.calls id with
      | some ⟨c, .receiving⟩ => some { s.fail id c .timeout with wsURL := "" }
      | _ => none
  | .receiveFailed id =>
      match s.calls id with
      | some ⟨c, .receiving⟩ => some (s.fail id c .wsFailed)
      | _ => none

/-- What each event leads to, and what it needs to happen. -/
inductive Reaction (s : BrowserWSPool R) : PoolEvent R → BrowserWSPool R → Prop
  | run {wsURL : String} {validURL encodes : Bool} :
      Reaction s (.run wsURL validURL encodes) (s.enter wsURL validURL encodes)
  | sent {id c : ℕ} (hcall : s.calls id = some ⟨c, .sending⟩) :
      Reaction s (.sent id) (s.setPhase id .receiving)
  | sendFailed {id c : ℕ} (hcall : s.calls id = some ⟨c, .sending⟩) :
      Reaction s (.sendFailed id) (s.fail id c .wsFailed)
  | arrive {c : ℕ} {m : WSMessage R} {w : WSConn R} (hw : s.conns c = some w)
      (hopen : w.cancelled = false) (hm : s.mayArrive c w m = true) :
      Reaction s (.arrive c m) (s.deliver c w m)
  | receive {id c : ℕ} {w : WSConn R} {m : WSMessage R} {rest : List (WSMessage R)}
      (hcall : s.calls id = some ⟨c, .receiving⟩) (hw : s.conns c = some w)
      (hopen : w.cancelled = false) (hinbox : w.inbox = m :: rest) :
      Reaction s (.receive id) ((s.take c w rest).handle id m)
  | timeout {id c : ℕ} (hcall : s.calls id = some ⟨c, .receiving⟩) :
      Reaction s (.timeout id) { s.fail id c .timeout with wsURL := "" }
  | receiveFailed {id c : ℕ} (hcall : s.calls id = some ⟨c, .receiving⟩) :
      Reaction s (.receiveFailed id) (s.fail id c .wsFailed)

/-- **Every step is one of these reactions.** -/
lemma step_reaction {s s' : BrowserWSPool R} {e : PoolEvent R} (h : s.step e = some s') :
    Reaction s e s' := by
  cases e with
  | run wsURL validURL encodes => exact Option.some.inj h ▸ .run
  | sent id =>
      rw [step] at h
      split at h
      case h_1 hcall => exact Option.some.inj h ▸ .sent hcall
      case h_2 => cases h
  | sendFailed id =>
      rw [step] at h
      split at h
      case h_1 hcall => exact Option.some.inj h ▸ .sendFailed hcall
      case h_2 => cases h
  | arrive c m =>
      rw [step] at h
      split at h
      case h_1 w hw =>
          split_ifs at h with hm
          exact Option.some.inj h ▸ .arrive hw hm.1 hm.2
      case h_2 => cases h
  | receive id =>
      rw [step] at h
      split at h
      case h_1 hcall =>
          split at h
          case h_1 hw => exact Option.some.inj h ▸ .receive hcall hw rfl rfl
          case h_2 => cases h
      case h_2 => cases h
  | timeout id =>
      rw [step] at h
      split at h
      case h_1 hcall => exact Option.some.inj h ▸ .timeout hcall
      case h_2 => cases h
  | receiveFailed id =>
      rw [step] at h
      split at h
      case h_1 hcall => exact Option.some.inj h ▸ .receiveFailed hcall
      case h_2 => cases h

end BrowserWSPool

/-- The pool from the start. -/
def browserWSPool (R : Type) [EmptyCollection R] : Machine (BrowserWSPool R) (PoolEvent R) where
  init := ⟨none, "", 0, 0, fun _ => none, fun _ => none⟩
  step := BrowserWSPool.step

end Luan
