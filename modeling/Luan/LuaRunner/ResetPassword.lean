import Luan.LuaRunner.Runner
import Luan.Settings.AppSettings

/-!
# Resetting the root password

`performResetPassword` in `LuanMac/ContentView.swift`.  Its task restarts the service with
`ALLOW_RESET_ROOT=1`, sends it the new password, and restarts it normally.  The task runs on the
main actor like the runner, and gives way to it where it sleeps or waits for the response.

* `ResetPlace` — the places where a task gives way.
* `enterReset`, `awaitReset`, `request`, `restart`, `awaitRestart` — what it does between them, in
  the order of the source.
* `resetSystem` — any number of tasks with everything that can happen meanwhile: steps of the
  runner, the buttons of the app, changes of the settings.

The button is disabled as long as `isResetting` is set in its own sheet.  The task clears it in
front of its last loop, and a sheet that is opened anew has an `isResetting` of its own, so that
tasks overlap.  The name of the root user, which is asked for at the end, is left out.
-/

namespace Luan

/-- What the app gives to a start of the service, and what the start meets. -/
structure ServiceStart where
  expandedRoot : String
  uiLanguage : String
  jwt : Vector UInt8 32
  activation : Vector UInt8 16
  status : Vector UInt8 32
  native : Vector UInt8 32
  outcome : LuaRunner.StartOutcome

structure ResetRequest where
  url : String
  activationKey : String
  newPassword : String

inductive ResetResponse
  /-- `URLSession` throws -/
  | failed (localizedDescription : String)
  /-- the status, 0 if it is no HTTP response, and the object in it -/
  | answered (status : ℤ) (object : Option JsonObject)

/-- `result` -/
def ResetResponse.result : ResetResponse → String
  | .failed localizedDescription => "✗ " ++ localizedDescription
  | .answered status object =>
      if status = 200 then
        match (object.bind fun o => o "username").bind Json.string? with
        | some username => "✓ Password reset for \"" ++ username ++ "\""
        | none => "✓ Password reset successfully"
      else
        "✗ " ++ ((object.bind fun o => o "error").bind Json.string?).getD
          ("HTTP " ++ toString status)

/-- Where the task of `performResetPassword` is. -/
inductive ResetPlace
  /-- it has not run yet -/
  | created (password : String)
  /-- it waits until the service has stopped -/
  | stopping (password : String)
  /-- it waits for the service in reset mode, and will sleep that many times more -/
  | starting (password : String) (polls : ℕ)
  | requesting (request : ResetRequest)
  /-- it waits until the service in reset mode has stopped -/
  | restarting (result : String)
  /-- it waits for the service, and will sleep that many times more -/
  | refreshing (polls : ℕ)
  | ended

/-- The task of one call of `performResetPassword`. -/
structure ResetTask where
  /-- the sheet whose button was pressed -/
  sheet : ℕ
  place : ResetPlace
  /-- Its start with `ALLOW_RESET_ROOT=1`, if that was not turned away.  The source does not keep
  it, and no step reads it. -/
  resetStart : Option ℕ

/-- What `@State` keeps of one sheet on the screen. -/
structure SheetState where
  isResetting : Bool
  resetStatus : String

/-- The sheets, with what they share with the rest of the app.  Each time that a sheet is opened it
has a number of its own, and a sheet that was closed never comes back.  The settings are those of
the window that is about to do something. -/
structure SettingsSheets where
  runner : LuaRunner
  settings : AppSettings
  file : Option JsonObject
  sheets : ℕ → SheetState

namespace SettingsSheets

/-! ## Starting the service -/

/-- `startService`, also in the task: `ensureSecretsAndSave` and a start -/
def startService (P : Platform) (v : SettingsSheets) (start : ServiceStart) : SettingsSheets :=
  let (settings, file) := v.settings.ensureSecretsAndSave start.jwt start.activation v.file
  let (env, settings) := settings.envDict start.uiLanguage start.status start.native
  { v with
    settings := settings
    file := file
    runner := v.runner.start P start.expandedRoot env start.outcome }

/-- The start with `ALLOW_RESET_ROOT=1`; its environment is that of the settings before. -/
def startReset (P : Platform) (v : SettingsSheets) (start : ServiceStart) : SettingsSheets :=
  let (env, settings) := v.settings.envDict start.uiLanguage start.status start.native
  let env := env.set "ALLOW_RESET_ROOT" "1"
  let (settings, file) := settings.ensureSecretsAndSave start.jwt start.activation v.file
  { v with
    settings := settings
    file := file
    runner := v.runner.start P start.expandedRoot env start.outcome }

/-! ## The task -/

/-- `serviceBaseURL` -/
def serviceBaseURL (v : SettingsSheets) : String :=
  let h := if v.runner.boundHost = "" then v.settings.host else v.runner.boundHost
  let p := if v.runner.boundPort > 0 then v.runner.boundPort else v.settings.port.1
  "http://" ++ h ++ ":" ++ toString p

def resetURL (v : SettingsSheets) : String := v.serviceBaseURL ++ "/_api/auth/root-info"

/-- `performResetPassword`; there is a task behind its `guard`. -/
def performResetPassword (U : UnicodeData) (v : SettingsSheets) (sheet : ℕ) (newPassword : String) :
    SettingsSheets × Option ResetTask :=
  if 4 ≤ (U.graphemes newPassword.toList).length then
    ({ v with sheets := Function.update v.sheets sheet ⟨true, ""⟩ },
      some ⟨sheet, .created newPassword, none⟩)
  else (v, none)

/-- What the sheet shows at the end. -/
def showResult (v : SettingsSheets) (sheet : ℕ) (result : String) : SettingsSheets :=
  { v with sheets := Function.update v.sheets sheet ⟨false, result⟩ }

/-- An early `return`. -/
def giveUp (v : SettingsSheets) (task : ResetTask) (resetStatus : String) :
    SettingsSheets × ResetTask :=
  (v.showResult task.sheet resetStatus, { task with place := .ended })

/-- 3. The request. -/
def request (P : Platform) (v : SettingsSheets) (task : ResetTask) (password : String) :
    SettingsSheets × ResetTask :=
  if P.isURL v.resetURL then
    (v, { task with place := .requesting ⟨v.resetURL, v.settings.activationKey, password⟩ })
  else v.giveUp task "✗ Invalid URL"

/-- The loop behind the first start, and the `guard` behind the loop. -/
def awaitReset (P : Platform) (v : SettingsSheets) (task : ResetTask) (password : String)
    (polls : ℕ) : SettingsSheets × ResetTask :=
  if v.runner.isRunning then v.request P task password
  else
    match polls with
    | 0 => v.giveUp task "✗ Service failed to start"
    | polls + 1 => (v, { task with place := .starting password polls })

/-- The first loop on `stopping`, and 2. the start behind it. -/
def enterReset (P : Platform) (v : SettingsSheets) (task : ResetTask) (password : String)
    (start : ServiceStart) : SettingsSheets × ResetTask :=
  if v.runner.state = .stopping then (v, { task with place := .stopping password })
  else
    let v' := v.startReset P start
    let resetStart := if v'.runner.starts = v.runner.starts then none else some v'.runner.starts
    v'.awaitReset P { task with resetStart := resetStart } password 50

/-- The loop behind the second start. -/
def awaitRestart (v : SettingsSheets) (task : ResetTask) (polls : ℕ) :
    SettingsSheets × ResetTask :=
  match polls with
  | 0 => (v, { task with place := .ended })
  | polls + 1 =>
      if v.runner.isRunning then (v, { task with place := .ended })
      else (v, { task with place := .refreshing polls })

/-- The second loop on `stopping`, and 5. the start behind it. -/
def restart (P : Platform) (v : SettingsSheets) (task : ResetTask) (result : String)
    (start : ServiceStart) : SettingsSheets × ResetTask :=
  if v.runner.state = .stopping then (v, { task with place := .restarting result })
  else ((v.startService P start).showResult task.sheet result).awaitRestart task 50

/-- The task goes on, behind a sleep or for the first time. -/
def resume (P : Platform) (v : SettingsSheets) (task : ResetTask) (start : ServiceStart) :
    Option (SettingsSheets × ResetTask) :=
  match task.place with
  | .created password =>
      let runner := if v.runner.canStop then v.runner.stop else v.runner
      some ({ v with runner := runner }.enterReset P task password start)
  | .stopping password => some (v.enterReset P task password start)
  | .starting password polls => some (v.awaitReset P task password polls)
  | .restarting result => some (v.restart P task result start)
  | .refreshing polls => some (v.awaitRestart task polls)
  | _ => none

/-- The task goes on behind its request: 4. it stops the service. -/
def respond (P : Platform) (v : SettingsSheets) (task : ResetTask) (response : ResetResponse)
    (start : ServiceStart) : Option (SettingsSheets × ResetTask) :=
  match task.place with
  | .requesting _ => some ({ v with runner := v.runner.stop }.restart P task response.result start)
  | _ => none

end SettingsSheets

/-! ## Steps -/

/-- The sheets and all tasks that were begun. -/
structure ResetSystem extends SettingsSheets where
  begun : ℕ
  tasks : ℕ → Option ResetTask

inductive SheetEvent
  /-- the settings are changed, and saved or not -/
  | edit (settings : AppSettings) (file : Option JsonObject)
  /-- the app starts the service -/
  | startService (start : ServiceStart)
  /-- anything else that happens to the runner -/
  | runner (e : RunnerEvent)
  | performResetPassword (sheet : ℕ) (newPassword : String)
  /-- the task with that number goes on -/
  | resume (n : ℕ) (start : ServiceStart)
  | respond (n : ℕ) (response : ResetResponse) (start : ServiceStart)

namespace ResetSystem

/-- There may be a new task. -/
def begin (s : ResetSystem) : SettingsSheets × Option ResetTask → ResetSystem
  | (v, none) => { s with toSettingsSheets := v }
  | (v, some task) =>
      { s with
        toSettingsSheets := v
        begun := s.begun + 1
        tasks := Function.update s.tasks s.begun (some task) }

/-- A task has gone on. -/
def store (s : ResetSystem) (n : ℕ) (r : SettingsSheets × ResetTask) : ResetSystem :=
  { s with
    toSettingsSheets := r.1
    tasks := Function.update s.tasks n (some r.2) }

def step (P : Platform) (s : ResetSystem) : SheetEvent → Option ResetSystem
  | .edit settings file =>
      some { s with
        settings := settings
        file := file }
  | .startService start =>
      some { s with toSettingsSheets := s.toSettingsSheets.startService P start }
  | .runner (.start ..) => none
  | .runner e => (s.runner.step P e).map fun runner => { s with runner := runner }
  | .performResetPassword sheet newPassword =>
      if (s.sheets sheet).isResetting then none
      else some (s.begin (s.performResetPassword P.unicode sheet newPassword))
  | .resume n start =>
      (s.tasks n).bind fun task => (s.toSettingsSheets.resume P task start).map (s.store n)
  | .respond n response start =>
      (s.tasks n).bind fun task =>
        (s.toSettingsSheets.respond P task response start).map (s.store n)

end ResetSystem

/-- The sheets from the start of the app. -/
def resetSystem (P : Platform) : Machine ResetSystem SheetEvent where
  init :=
    { runner := (luaRunner P).init
      settings := .initial
      file := none
      sheets := fun _ => ⟨false, ""⟩
      begun := 0
      tasks := fun _ => none }
  step := ResetSystem.step P

end Luan
