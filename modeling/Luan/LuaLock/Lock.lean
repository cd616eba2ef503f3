import Luan.Core.Machine
import Luan.Core.RecursiveMutex

/-!
# The Lua lock

`luauser.c`: one recursive mutex for all `lua_State`s, a depth counter in every thread, and a
switch that turns locking on for good.  The threads are any type.

The mutex can be locked `limit` times; no function looks at what `pthread_mutex_lock` returns, so
beyond the limit only the counter goes on.  The counters are `int`s, which go round.

Each function is cut into atomic steps.

* `begin` — the call of a function, up to and with the guard `lua_locking_on()`.
* `advance` — one round of a loop, or the rest of a function that has none.  It takes one call of
  `pthread_mutex_lock` or `pthread_mutex_unlock` together with the change of `lua_lock_depth` next
  to it: no other thread can see that variable.

The switch can be turned on, and other threads can lock and unlock, between any two of them.
-/

namespace Luan

/-- A depth that a function heads for. -/
abbrev LuaLockTarget := { depth : Int32 // 0 ≤ depth }

/-- `if (depth < 0) depth = 0` -/
def notNegative (depth : Int32) : LuaLockTarget :=
  if h : depth < 0 then ⟨0, Int32.le_refl 0⟩ else ⟨depth, Int32.not_lt.mp h⟩

/-- Where a thread is in the functions of `luauser.c`. -/
inductive LuaLockPc
  /-- outside of them -/
  | outside
  /-- in front of the `pthread_mutex_lock` of a locking function -/
  | locking
  /-- in front of the test of `lua_lock_depth` in an unlocking function -/
  | unlocking
  /-- at `while (lua_lock_depth > depth)`, in front of the return -/
  | lowering (depth : LuaLockTarget)
  /-- at `while (lua_lock_depth < depth)`, in front of the return -/
  | raising (depth : LuaLockTarget)
  /-- at the first loop of `LuaLockDepthSet`, in front of the second -/
  | setting (depth : LuaLockTarget)
  deriving DecidableEq, Repr

/-- The variables of `luauser.c`, and where its threads are. -/
structure LuaLock (T : Type*) (limit : ℕ) where
  /-- `lua_lock_depth`, which is thread-local -/
  luaLockDepth : T → Int32
  /-- `g_lua_locking_enabled` -/
  luaLockingEnabled : Bool
  lockInited : Bool
  lock : RecursiveMutex T limit
  pc : T → LuaLockPc
  /-- the value that the thread's last call with a result returns -/
  returned : T → Int32
  /-- the threads whose `pthread_mutex_unlock` failed, because the mutex was not theirs -/
  unlockErrors : List T

/-- The functions.  The argument `L` of some of them matters only if it is `NULL`. -/
inductive LuaLockCall
  | luaLockEnable
  | lockMainState (isNull : Bool)
  | unLockMainState (isNull : Bool)
  | luaGlobalLock
  | luaGlobalUnlock
  | luaLockSuspendForLoop
  | luaLockResumeAfterLoop (depth : Int32)
  | luaLockDepthGet
  | luaLockDepthSet (depth : Int32)
  | luaLockInitial
  | luaLockFinalState
  deriving DecidableEq, Repr

inductive LuaLockEvent (T : Type*)
  | call (t : T) (function : LuaLockCall)
  | advance (t : T)
  deriving DecidableEq, Repr

namespace LuaLock

variable {T : Type*} [DecidableEq T] {limit : ℕ}

def initial : LuaLock T limit where
  luaLockDepth _ := 0
  luaLockingEnabled := false
  lockInited := false
  lock := .free
  pc _ := .outside
  returned _ := 0
  unlockErrors := []

/-! ## The pieces of the functions -/

def goto (s : LuaLock T limit) (t : T) (pc : LuaLockPc) : LuaLock T limit :=
  { s with pc := Function.update s.pc t pc }

def returning (s : LuaLock T limit) (t : T) (value : Int32) : LuaLock T limit :=
  { s with returned := Function.update s.returned t value }

/-- `lua_locking_on` -/
def luaLockingOn (s : LuaLock T limit) : Bool := s.luaLockingEnabled

/-- `pthread_mutex_lock(&lock); lua_lock_depth++`, as soon as the mutex is granted.  The result of
the first is not looked at: the counter goes up even if the call fails with `EAGAIN`. -/
def lockOnce [NeZero limit] (s : LuaLock T limit) (t : T) : Option (LuaLock T limit) :=
  match s.lock.lock t with
  | some lock => some { s with
      lock := lock
      luaLockDepth := Function.update s.luaLockDepth t (s.luaLockDepth t + 1) }
  | none => none

/-- `pthread_mutex_unlock(&lock); lua_lock_depth--`.  The result of the first is not looked at. -/
def unlockOnce (s : LuaLock T limit) (t : T) : LuaLock T limit :=
  let s := { s with luaLockDepth := Function.update s.luaLockDepth t (s.luaLockDepth t - 1) }
  match s.lock.unlock t with
  | some lock => { s with lock := lock }
  | none => { s with unlockErrors := t :: s.unlockErrors }

/-! ## Calls -/

/-- A function is called.  A `lua_State` can only be passed once `LuaLockInitial` has set up the
mutex. -/
def begin (s : LuaLock T limit) (t : T) : LuaLockCall → Option (LuaLock T limit)
  | .luaLockEnable => some { s with luaLockingEnabled := true }
  | .lockMainState isNull =>
      if isNull then some s
      else if !s.lockInited then none
      else if s.luaLockingOn then some (s.goto t .locking)
      else some s
  | .unLockMainState isNull =>
      if isNull then some s
      else if !s.lockInited then none
      else if s.luaLockingOn then some (s.goto t .unlocking)
      else some s
  | .luaGlobalLock =>
      if s.lockInited && s.luaLockingOn then some (s.goto t .locking) else some s
  | .luaGlobalUnlock =>
      if s.lockInited && s.luaLockingOn then some (s.goto t .unlocking) else some s
  | .luaLockSuspendForLoop =>
      let s := s.returning t (s.luaLockDepth t)
      if s.lockInited && s.luaLockingOn then some (s.goto t (.lowering (notNegative 0))) else some s
  | .luaLockResumeAfterLoop depth =>
      if s.lockInited && s.luaLockingOn then some (s.goto t (.raising (notNegative depth)))
      else some s
  | .luaLockDepthGet => some (s.returning t (s.luaLockDepth t))
  | .luaLockDepthSet depth =>
      if s.lockInited && s.luaLockingOn then some (s.goto t (.setting (notNegative depth)))
      -- no real mutex ownership exists to restore
      else some { s with luaLockDepth := Function.update s.luaLockDepth t 0 }
  | .luaLockInitial =>
      if !s.lockInited then some { s with
        lock := .free
        lockInited := true }
      else some s
  | .luaLockFinalState =>
      if !s.lockInited then none
      else if s.luaLockingOn then some (s.goto t (.lowering (notNegative 0)))
      else some s

/-- A thread inside a function goes on. -/
def advance [NeZero limit] (s : LuaLock T limit) (t : T) : Option (LuaLock T limit) :=
  match s.pc t with
  | .outside => none
  | .locking => (s.goto t .outside).lockOnce t
  | .unlocking =>
      -- an unbalanced unlock does not touch the mutex
      if s.luaLockDepth t ≤ 0 then some (s.goto t .outside)
      else some ((s.goto t .outside).unlockOnce t)
  | .lowering depth =>
      if s.luaLockDepth t > depth then some (s.unlockOnce t) else some (s.goto t .outside)
  | .raising depth =>
      if s.luaLockDepth t < depth then s.lockOnce t else some (s.goto t .outside)
  | .setting depth =>
      if s.luaLockDepth t > depth then some (s.unlockOnce t) else some (s.goto t (.raising depth))

def step [NeZero limit] (s : LuaLock T limit) : LuaLockEvent T → Option (LuaLock T limit)
  | .call t function => if s.pc t = .outside then s.begin t function else none
  | .advance t => s.advance t

end LuaLock

/-- The threads of a process that uses the Lua lock, and how often the system lets a thread lock
the mutex. -/
def luaLock (T : Type*) [DecidableEq T] (limit : ℕ) [NeZero limit] :
    Machine (LuaLock T limit) (LuaLockEvent T) where
  init := .initial
  step := LuaLock.step

end Luan
