import Luan.Core.Machine
import Luan.Core.SwiftText
import Mathlib.Data.Rat.Init
import Mathlib.Logic.Function.Basic

/-!
# The service runner

`LuaRunner` in `LuanMac/LuaRunner.swift`: it starts the `luan` program as a child process, waits
until the service answers, samples its resource use and stops it.  Everything runs on the main
actor, one step after the other, and the model has one step for each thing that happens there:

* `start`, `stop`, `terminateForAppExit` — calls by the app;
* `output` — a piece of the child's output, `consumeChildOutput`;
* `childDidTerminate` — the termination handler of a child, once for every child that has exited;
* `healthHop`, `metricsHop` — the part of a task behind its `await MainActor.run`;
* `stopTimeout` — the task of `stop` behind its sleep.

Three more steps happen elsewhere: a child exits, and a response of the service comes back to a
task (`healthReply`, `metricsReply`).  A request is cancelled with its task, so a cancelled task
obtains no response; one that has its response already does not look at the cancellation again.
Requests without a usable response change nothing and are left out.  The contents of the log file
are in `LuaRunner/ChildOutput.lean`.

A start is known by its number.  It has at most one child, one healthcheck task and one metrics
task, and they go by the number of their start.

`LuaRunner.Reaction` lists what each event needs and what it leads to; statements about all steps
go through its cases.
-/

namespace Luan

/-! ## The data -/

/-- `ServiceState` -/
inductive ServiceState
  | idle
  | starting
  | running
  | stopping
  | failed (message : String)
  deriving DecidableEq, Repr

/-- `DocumentRootLockResult` -/
inductive DocumentRootLockResult
  | acquired
  | alreadyRunning
  | failed (message : String)
  deriving DecidableEq, Repr

/-- What the runner takes from the system it runs on. -/
structure Platform where
  unicode : UnicodeData
  /-- `String(localized:)` -/
  localized : String → String
  /-- `expandingTildeInPath` -/
  expandingTilde : String → String
  /-- `ProcessInfo.processInfo.environment` -/
  environment : String → Option String
  /-- `URL(string:)` is not nil -/
  isURL : String → Bool

/-- What a start tells its child. -/
structure Launch where
  documentRoot : String
  host : String
  port : Int
  sqliteSoftHeapMB : String

/-- `child.arguments` -/
def Launch.arguments (l : Launch) : List String :=
  ["--document-root", l.documentRoot, "--host", l.host, "--port", toString l.port,
    "--sqlite-soft-heap-mb", l.sqliteSoftHeapMB]

/-- A `Process` that has been run. -/
structure Child where
  launch : Launch
  arguments : List String
  environment : String → Option String
  /-- `terminationStatus`, once it has exited -/
  status : Option Int
  terminated : Bool
  killed : Bool
  /-- its termination handler has been on the main actor -/
  handled : Bool

inductive HealthcheckPhase
  | polling
  /-- it has a response and waits for the main actor -/
  | answered
  | returned
  deriving DecidableEq

/-- The task of `startHealthcheck`. -/
structure Healthcheck where
  pingHost : String
  port : Int
  cancelled : Bool
  phase : HealthcheckPhase

/-- The numbers in an answer of the status API. -/
structure StatusReport where
  cpuPercent : Option ℚ
  rssBytes : Option ℚ
  luaMemoryKB : Option ℚ

inductive SamplerPhase
  | waiting
  /-- it has a response, which may be no JSON object, and waits for the main actor -/
  | answered (object : Option StatusReport)

/-- The task of `startMetricsSampling`. -/
structure Sampler where
  cancelled : Bool
  phase : SamplerPhase

/-- The task of `stop`. -/
structure StopTimeout where
  child : ℕ
  cancelled : Bool
  slept : Bool

/-- The `@Published` variables. -/
structure Published where
  state : ServiceState
  boundHost : String
  boundPort : Int
  logPath : String
  cpuNow : Option ℚ
  rssNowMB : Option ℚ
  luaNowMB : Option ℚ
  refCount : Int

/-- The object's variables, and what it has created. -/
structure LuaRunner extends Published where
  process : Option ℕ
  parentPipe : Option ℕ
  outputPipe : Option ℕ
  errorPipe : Option ℕ
  healthcheckTask : Option ℕ
  metricsTask : Option ℕ
  stopTimeoutTask : Option ℕ
  startupDiag : List (List Char)
  /-- in nanoseconds of the system clock; 0 = disabled -/
  captureDeadline : UInt64
  /-- how many calls of `start` were not turned away -/
  starts : ℕ
  children : ℕ → Option Child
  healthchecks : ℕ → Option Healthcheck
  samplers : ℕ → Option Sampler
  nextTimeout : ℕ
  timeouts : ℕ → Option StopTimeout

/-- `task?.cancel()` -/
def cancelTask {α : Type} (cancel : α → α) (tasks : ℕ → Option α) : Option ℕ → ℕ → Option α
  | none => tasks
  | some n => Function.update tasks n ((tasks n).map cancel)

namespace LuaRunner

/-- `isRunning` -/
def isRunning (s : LuaRunner) : Bool :=
  match s.state with
  | .running => true
  | _ => false

/-- `canStart` -/
def canStart (s : LuaRunner) : Bool :=
  match s.state with
  | .idle | .failed _ => true
  | _ => false

/-- `canStop` -/
def canStop (s : LuaRunner) : Bool :=
  match s.state with
  | .running => true
  | _ => false

/-! ## Children -/

/-- `child.isRunning` -/
def isChildRunning (s : LuaRunner) (n : ℕ) : Bool :=
  match s.children n with
  | some c => c.status.isNone
  | none => false

/-- Something happens to a child. -/
def updateChild (s : LuaRunner) (n : ℕ) (f : Child → Child) : LuaRunner :=
  { s with children := Function.update s.children n ((s.children n).map f) }

/-- `child.terminate()` -/
def terminate (s : LuaRunner) (n : ℕ) : LuaRunner :=
  s.updateChild n fun c => { c with terminated := true }

/-- `Darwin.kill(child.processIdentifier, SIGKILL)` -/
def kill (s : LuaRunner) (n : ℕ) : LuaRunner :=
  s.updateChild n fun c => { c with killed := true }

/-- The child exits. -/
def exitChild (s : LuaRunner) (n : ℕ) (status : Int) : LuaRunner :=
  s.updateChild n fun c => { c with status := some status }

/-! ## Startup diagnostics capture -/

/-- `closeParentPipe` -/
def closeParentPipe (s : LuaRunner) : LuaRunner := { s with parentPipe := none }

/-- `openCaptureWindow`, with `defaultCaptureWindowSec` -/
def openCaptureWindow (s : LuaRunner) (now : UInt64) : LuaRunner :=
  { s with captureDeadline := now + 10000000000 }

/-- `closeCaptureWindow` -/
def closeCaptureWindow (s : LuaRunner) : LuaRunner := { s with captureDeadline := 0 }

/-- The lines that look like errors. -/
def isDiag (U : UnicodeData) (line : List Char) : Bool :=
  hasPrefix U line "!! ".toList || hasPrefix U line "LuaError".toList
    || containsText U line ": attempt to ".toList || containsText U line "httpd.bind failed".toList

/-- `captureStartupDiag` -/
def captureStartupDiag (U : UnicodeData) (s : LuaRunner) (chunk : List Char) (now : UInt64) :
    LuaRunner :=
  if s.captureDeadline = 0 then s
  else if s.captureDeadline ≤ now then { s with captureDeadline := 0 }
  else
    let lines := ((splitOnNewlines U chunk).map trimWhitespace).filter fun line =>
      !line.isEmpty && isDiag U line
    { s with
      startupDiag := lines.foldl
        (fun diag line => if diag.length < 20 then diag ++ [line] else diag) s.startupDiag }

/-- `consumeChildOutput`; the clock is read for every line. -/
def consumeChildOutput (U : UnicodeData) (s : LuaRunner) (chunk : List Char)
    (clock : ℕ → UInt64) : LuaRunner :=
  (splitOnNewlines U chunk).zipIdx.foldl
    (fun s line => s.captureStartupDiag U line.1 (clock line.2)) s

/-- The message of `consumeStartupDiag`: the first six different lines. -/
def startupMessage (U : UnicodeData) (lines : List (List Char)) : Option (List Char) :=
  if lines.isEmpty then none
  else
    let out := lines.foldl
      (fun (out : List (List Char)) l =>
        if out.length < 6 ∧ ¬ out.any (fun o => U.nfc o = U.nfc l) then out ++ [l] else out) []
    some (['\n'].intercalate out)

/-! ## Healthcheck -/

/-- The address for a request to a bind address. -/
def pingHost (host : String) : String :=
  if host = "" ∨ host = "0.0.0.0" ∨ host = "::" then "127.0.0.1" else host

/-- `stopHealthcheck` -/
def stopHealthcheck (s : LuaRunner) : LuaRunner :=
  { s with
    healthchecks := cancelTask (fun t => { t with cancelled := true }) s.healthchecks
      s.healthcheckTask
    healthcheckTask := none }

/-- `startHealthcheck` -/
def startHealthcheck (P : Platform) (s : LuaRunner) (host : String) (port : Int) : LuaRunner :=
  let s := s.stopHealthcheck
  if port > 0 ∧ P.isURL ("http://" ++ pingHost host ++ ":" ++ toString port ++ "/") then
    { s with
      healthcheckTask := some s.starts
      healthchecks := Function.update s.healthchecks s.starts
        (some ⟨pingHost host, port, false, .polling⟩) }
  else s

/-- The healthcheck on the main actor, behind `await MainActor.run`. -/
def healthHop (s : LuaRunner) (task : Healthcheck) : LuaRunner :=
  match s.state with
  | .starting =>
      { s with
        boundHost := task.pingHost
        boundPort := task.port
        state := .running }.closeCaptureWindow
  | _ => s

/-- A healthcheck goes on to another phase. -/
def setHealthcheck (s : LuaRunner) (n : ℕ) (task : Healthcheck) : LuaRunner :=
  { s with healthchecks := Function.update s.healthchecks n (some task) }

/-! ## Metrics sampling -/

/-- `stopMetricsSampling` -/
def stopMetricsSampling (s : LuaRunner) : LuaRunner :=
  { s with
    samplers := cancelTask (fun t => { t with cancelled := true }) s.samplers s.metricsTask
    metricsTask := none
    cpuNow := none
    rssNowMB := none
    luaNowMB := none
    refCount := 0 }

/-- `startMetricsSampling` -/
def startMetricsSampling (P : Platform) (s : LuaRunner) (host : String) (port : Int)
    (token : String) : LuaRunner :=
  let s := s.stopMetricsSampling
  if port > 0 ∧ token ≠ ""
      ∧ P.isURL ("http://" ++ pingHost host ++ ":" ++ toString port ++ "/_status") then
    { s with
      metricsTask := some s.starts
      samplers := Function.update s.samplers s.starts (some ⟨false, .waiting⟩) }
  else s

/-- `parseMetrics`, behind the JSON decoder -/
def parseMetrics (s : LuaRunner) : Option StatusReport → LuaRunner
  | none => s
  | some object =>
      { s with
        cpuNow := object.cpuPercent.or s.cpuNow
        rssNowMB := (object.rssBytes.map (· / (1024 * 1024))).or s.rssNowMB
        luaNowMB := ((object.luaMemoryKB.filter (0 < ·)).map (· / 1024)).or s.luaNowMB }

/-- A sampler goes on to another phase. -/
def setSampler (s : LuaRunner) (n : ℕ) (task : Sampler) : LuaRunner :=
  { s with samplers := Function.update s.samplers n (some task) }

/-! ## Starting and stopping -/

/-- What a call of `start` meets. -/
structure StartOutcome where
  now : UInt64
  lock : DocumentRootLockResult
  hasExecutable : Bool
  /-- the description of what `child.run()` throws -/
  runError : Option String

/-- What is read from the arguments of `start`. -/
def launch (P : Platform) (documentRoot : String) (env : String → Option String) : Launch where
  documentRoot := P.expandingTilde documentRoot
  host := (env "SERVICE_HOST").getD "127.0.0.1"
  port := (swiftInt? ((env "SERVICE_PORT").getD "").toList).getD 0
  sqliteSoftHeapMB := (env "SQLITE_SOFT_HEAP_MB").getD "0"

/-- The start of `start`. -/
def enterStarting (s : LuaRunner) (l : Launch) (now : UInt64) : LuaRunner :=
  { s with
    starts := s.starts + 1
    state := .starting
    boundHost := ""
    boundPort := 0
    refCount := 0
    cpuNow := none
    rssNowMB := none
    luaNowMB := none
    startupDiag := []
    logPath := l.documentRoot ++ "/luan.log" }.openCaptureWindow now

/-- An exit of `start`. -/
def failStart (s : LuaRunner) (message : String) : LuaRunner :=
  { s with state := .failed message }.closeCaptureWindow

/-- The pipes of a new child. -/
def makePipes (s : LuaRunner) : LuaRunner :=
  { s with
    parentPipe := some s.starts
    outputPipe := some s.starts
    errorPipe := some s.starts }

/-- `outputPipe = nil; errorPipe = nil; closeParentPipe()` -/
def dropPipes (s : LuaRunner) : LuaRunner :=
  { s with
    outputPipe := none
    errorPipe := none }.closeParentPipe

/-- `try child.run(); process = child` -/
def spawn (P : Platform) (s : LuaRunner) (l : Launch) (env : String → Option String) : LuaRunner :=
  let childEnv := fun key =>
    if key = "LUAN_PARENT_PIPE" then some "1" else (env key).or (P.environment key)
  { s with
    process := some s.starts
    children := Function.update s.children s.starts
      (some ⟨l, l.arguments, childEnv, none, false, false, false⟩) }

/-- `start` -/
def start (P : Platform) (s : LuaRunner) (documentRoot : String) (env : String → Option String)
    (o : StartOutcome) : LuaRunner :=
  if s.canStart = true ∧ s.process = none then
    let l := launch P documentRoot env
    let s := s.enterStarting l o.now
    match o.lock with
    | .alreadyRunning => s.failStart (P.localized "native.status.alreadyRunning")
    | .failed message =>
        s.failStart (P.localized "native.status.lockFailed" ++ ": " ++ message)
    | .acquired =>
        if o.hasExecutable then
          let s := s.makePipes
          match o.runError with
          | some error => s.dropPipes.failStart ("failed to start luan CLI: " ++ error)
          | none =>
              ((s.spawn P l env).startHealthcheck P l.host l.port).startMetricsSampling P l.host
                l.port ((env "STATUS_TOKEN").getD "")
        else s.failStart "luan CLI executable not found in the app bundle"
  else s

/-- The task that `stop` leaves behind; it takes the place of an older one. -/
def startStopTimeout (s : LuaRunner) (child : ℕ) : LuaRunner :=
  { s with
    stopTimeoutTask := some s.nextTimeout
    nextTimeout := s.nextTimeout + 1
    timeouts := Function.update
      (cancelTask (fun t => { t with cancelled := true }) s.timeouts s.stopTimeoutTask)
      s.nextTimeout (some ⟨child, false, false⟩) }

/-- `stop` -/
def stop (s : LuaRunner) : LuaRunner :=
  match s.canStop, s.process with
  | true, some child =>
      ({ s with state := .stopping }.stopHealthcheck.closeCaptureWindow.closeParentPipe.terminate
        child).startStopTimeout child
  | _, _ => s

/-- `terminateForAppExit`; the child may exit while it waits. -/
def terminateForAppExit (s : LuaRunner) (exit : Option Int) : LuaRunner :=
  match s.process with
  | some child =>
      if s.isChildRunning child then
        let s := { s with
          state := .stopping }.stopHealthcheck.stopMetricsSampling.closeCaptureWindow
        let s := s.closeParentPipe.terminate child
        match exit with
        | some status => s.exitChild child status
        | none => s.kill child
      else s
  | none => s

/-- The task of `stop` behind its sleep. -/
def stopTimedOut (s : LuaRunner) (n : ℕ) (task : StopTimeout) : LuaRunner :=
  let s := { s with
    timeouts := Function.update s.timeouts n (some { task with slept := true }) }
  if !task.cancelled && s.isChildRunning task.child then
    { s.kill task.child with stopTimeoutTask := none }
  else s

/-- The `switch` at the end of `childDidTerminate`. -/
def settle (P : Platform) (state : ServiceState) (status : Int) (diag : Option (List Char)) :
    ServiceState :=
  match state with
  | .stopping => .idle
  | .starting =>
      if status = 73
          ∨ diag.any (fun text => containsText P.unicode text "LUAN_ALREADY_RUNNING".toList) then
        .failed (P.localized "native.status.alreadyRunning")
      else .failed ((diag.map String.ofList).getD (P.localized "native.status.startFailed"))
  | .running =>
      if status = 0 then .idle
      else .failed ((diag.map String.ofList).getD ("luan exited with status " ++ toString status))
  | state => state

/-- `childDidTerminate` -/
def childDidTerminate (P : Platform) (s : LuaRunner) (status : Int) : LuaRunner :=
  let s := s.dropPipes
  let s := { s with
    process := none
    timeouts := cancelTask (fun t => { t with cancelled := true }) s.timeouts s.stopTimeoutTask
    stopTimeoutTask := none }.stopHealthcheck.stopMetricsSampling
  let diag := startupMessage P.unicode s.startupDiag
  { s with
    startupDiag := []
    state := settle P s.state status diag }

end LuaRunner

/-! ## Steps -/

/-- What can happen on the main actor, and around it. -/
inductive RunnerEvent
  | start (documentRoot : String) (env : String → Option String) (outcome : LuaRunner.StartOutcome)
  | stop
  | terminateForAppExit (exit : Option Int)
  | output (chunk : List Char) (clock : ℕ → UInt64)
  | childExited (n : ℕ) (status : Int)
  | childDidTerminate (n : ℕ)
  | healthReply (n : ℕ)
  | healthHop (n : ℕ)
  | metricsReply (n : ℕ) (object : Option StatusReport)
  | metricsHop (n : ℕ)
  | stopTimeout (n : ℕ)

/-- One step. -/
def LuaRunner.step (P : Platform) (s : LuaRunner) : RunnerEvent → Option LuaRunner
  | .start documentRoot env outcome => some (s.start P documentRoot env outcome)
  | .stop => some s.stop
  | .terminateForAppExit exit => some (s.terminateForAppExit exit)
  | .output chunk clock => some (s.consumeChildOutput P.unicode chunk clock)
  | .childExited n status =>
      if s.isChildRunning n then some (s.exitChild n status) else none
  | .childDidTerminate n =>
      match s.children n with
      | some ⟨_, _, _, some status, _, _, false⟩ =>
          some ((s.updateChild n fun c => { c with handled := true }).childDidTerminate P status)
      | _ => none
  | .healthReply n =>
      match s.healthchecks n with
      | some ⟨pingHost, port, false, .polling⟩ =>
          some (s.setHealthcheck n ⟨pingHost, port, false, .answered⟩)
      | _ => none
  | .healthHop n =>
      match s.healthchecks n with
      | some ⟨pingHost, port, cancelled, .answered⟩ =>
          let task : Healthcheck := ⟨pingHost, port, cancelled, .returned⟩
          some ((s.setHealthcheck n task).healthHop task)
      | _ => none
  | .metricsReply n object =>
      match s.samplers n with
      | some ⟨false, .waiting⟩ => some (s.setSampler n ⟨false, .answered object⟩)
      | _ => none
  | .metricsHop n =>
      match s.samplers n with
      | some ⟨cancelled, .answered object⟩ =>
          some ((s.setSampler n ⟨cancelled, .waiting⟩).parseMetrics object)
      | _ => none
  | .stopTimeout n =>
      match s.timeouts n with
      | some task => if task.slept then none else some (s.stopTimedOut n task)
      | none => none

/-- What each event leads to, and what it needs to happen. -/
inductive LuaRunner.Reaction (P : Platform) (s : LuaRunner) : RunnerEvent → LuaRunner → Prop
  | start {documentRoot : String} {env : String → Option String} {outcome : StartOutcome} :
      Reaction P s (.start documentRoot env outcome) (s.start P documentRoot env outcome)
  | stop : Reaction P s .stop s.stop
  | terminateForAppExit {exit : Option Int} :
      Reaction P s (.terminateForAppExit exit) (s.terminateForAppExit exit)
  | output {chunk : List Char} {clock : ℕ → UInt64} :
      Reaction P s (.output chunk clock) (s.consumeChildOutput P.unicode chunk clock)
  | childExited {n : ℕ} {status : Int} (hrunning : s.isChildRunning n = true) :
      Reaction P s (.childExited n status) (s.exitChild n status)
  | childDidTerminate {n : ℕ} {c : Child} {status : Int} (hchild : s.children n = some c)
      (hstatus : c.status = some status) (hopen : c.handled = false) :
      Reaction P s (.childDidTerminate n)
        ((s.updateChild n fun c => { c with handled := true }).childDidTerminate P status)
  | healthReply {n : ℕ} {pingHost : String} {port : Int}
      (htask : s.healthchecks n = some ⟨pingHost, port, false, .polling⟩) :
      Reaction P s (.healthReply n) (s.setHealthcheck n ⟨pingHost, port, false, .answered⟩)
  | healthHop {n : ℕ} {pingHost : String} {port : Int} {cancelled : Bool}
      (htask : s.healthchecks n = some ⟨pingHost, port, cancelled, .answered⟩) :
      Reaction P s (.healthHop n)
        ((s.setHealthcheck n ⟨pingHost, port, cancelled, .returned⟩).healthHop
          ⟨pingHost, port, cancelled, .returned⟩)
  | metricsReply {n : ℕ} {object : Option StatusReport}
      (hsampler : s.samplers n = some ⟨false, .waiting⟩) :
      Reaction P s (.metricsReply n object) (s.setSampler n ⟨false, .answered object⟩)
  | metricsHop {n : ℕ} {cancelled : Bool} {object : Option StatusReport}
      (hsampler : s.samplers n = some ⟨cancelled, .answered object⟩) :
      Reaction P s (.metricsHop n) ((s.setSampler n ⟨cancelled, .waiting⟩).parseMetrics object)
  | stopTimeout {n : ℕ} {task : StopTimeout} (htask : s.timeouts n = some task)
      (hslept : task.slept = false) : Reaction P s (.stopTimeout n) (s.stopTimedOut n task)

/-- **Every step is one of these reactions.** -/
lemma LuaRunner.step_reaction {P : Platform} {s s' : LuaRunner} {e : RunnerEvent}
    (h : s.step P e = some s') : Reaction P s e s' := by
  cases e with
  | start documentRoot env outcome => exact Option.some.inj h ▸ .start
  | stop => exact Option.some.inj h ▸ .stop
  | terminateForAppExit exit => exact Option.some.inj h ▸ .terminateForAppExit
  | output chunk clock => exact Option.some.inj h ▸ .output
  | childExited n status =>
      rw [step] at h
      split_ifs at h with hrunning
      exact Option.some.inj h ▸ .childExited hrunning
  | childDidTerminate n =>
      rw [step] at h
      split at h
      case h_1 hchild => exact Option.some.inj h ▸ .childDidTerminate hchild rfl rfl
      case h_2 => cases h
  | healthReply n =>
      rw [step] at h
      split at h
      case h_1 htask => exact Option.some.inj h ▸ .healthReply htask
      case h_2 => cases h
  | healthHop n =>
      rw [step] at h
      split at h
      case h_1 htask => exact Option.some.inj h ▸ .healthHop htask
      case h_2 => cases h
  | metricsReply n object =>
      rw [step] at h
      split at h
      case h_1 hsampler => exact Option.some.inj h ▸ .metricsReply hsampler
      case h_2 => cases h
  | metricsHop n =>
      rw [step] at h
      split at h
      case h_1 hsampler => exact Option.some.inj h ▸ .metricsHop hsampler
      case h_2 => cases h
  | stopTimeout n =>
      rw [step] at h
      split at h
      case h_1 task htask =>
          split_ifs at h with hslept
          exact Option.some.inj h ▸ .stopTimeout htask (Bool.eq_false_iff.mpr hslept)
      case h_2 => cases h

/-- The runner from the start of the app. -/
def luaRunner (P : Platform) : Machine LuaRunner RunnerEvent where
  init :=
    { state := .idle
      boundHost := ""
      boundPort := 0
      logPath := ""
      cpuNow := none
      rssNowMB := none
      luaNowMB := none
      refCount := 0
      process := none
      parentPipe := none
      outputPipe := none
      errorPipe := none
      healthcheckTask := none
      metricsTask := none
      stopTimeoutTask := none
      startupDiag := []
      captureDeadline := 0
      starts := 0
      children := fun _ => none
      healthchecks := fun _ => none
      samplers := fun _ => none
      nextTimeout := 0
      timeouts := fun _ => none }
  step := LuaRunner.step P

end Luan
