import Luan.LuaLock.Mirror
import Mathlib.Data.Int.Notation

/-!
# Sections of the Lua lock

A program whose threads open sections with `LockMainState` and close them with `UnLockMainState`,
properly nested.  It turns locking on with `LuaLockEnable` before it creates a second thread, as
`luauser.c` asks.  A section that was opened before that holds no mutex.

* `LuaProgram` — the Lua lock, the threads that exist, and the sections they have open.
* `LuaProgram.Exclusive` — at most one thread has a section open.
* `LuaProgram.Nesting` — the invariant of all runs: of the open sections of a thread those behind
  the switch are the inner ones, and they are as many as its depth says.
* `sections_exclusive_iff` — as long as no thread nests more sections than the mutex can be locked,
  sections exclude each other in exactly the runs in which a thread is granted the mutex only while
  no other thread is in a section from before the switch.
* `guarded_sections_shared` — with more of them, sections from behind the switch do not exclude each
  other.
-/

namespace Luan

/-- How a section was opened. -/
inductive LuaSection
  /-- while locking was off -/
  | early
  /-- with the mutex -/
  | guarded
  deriving DecidableEq, Repr

structure LuaProgram (T : Type*) (limit : ℕ) where
  lua : LuaLock T limit
  /-- the threads that exist -/
  threads : List T
  /-- the open sections of a thread, the innermost first: `LockMainState` has returned, and the
  matching `UnLockMainState` has not been called -/
  sections : T → List LuaSection

inductive LuaProgramEvent (T : Type*)
  | lockMainState (t : T)
  | unLockMainState (t : T)
  | luaLockEnable (t : T)
  /-- a thread goes on inside a function of the lock -/
  | advance (t : T)
  | createThread (t : T) (created : T)
  deriving DecidableEq, Repr

namespace LuaProgram

variable {T : Type*} [DecidableEq T] {limit : ℕ}

/-- One thread, and the mutex has been set up. -/
def initial (main : T) : LuaProgram T limit where
  lua := { LuaLock.initial with lockInited := true }
  threads := [main]
  sections _ := []

/-- The thread's `LockMainState` returns. -/
def opened (s : LuaProgram T limit) (t : T) (kind : LuaSection) : LuaProgram T limit :=
  { s with sections := Function.update s.sections t (kind :: s.sections t) }

/-- The thread closes its innermost section. -/
def closed (s : LuaProgram T limit) (t : T) : LuaProgram T limit :=
  { s with sections := Function.update s.sections t (s.sections t).tail }

/-- A step of the lock. -/
def onLua [NeZero limit] (s : LuaProgram T limit) (e : LuaLockEvent T) :
    Option (LuaProgram T limit) :=
  match s.lua.step e with
  | some lua => some { s with lua := lua }
  | none => none

def step [NeZero limit] (s : LuaProgram T limit) : LuaProgramEvent T → Option (LuaProgram T limit)
  | .lockMainState t =>
      if t ∈ s.threads then
        match s.onLua (.call t (.lockMainState false)) with
        -- without locking the function has returned
        | some s' => if s'.lua.pc t = .outside then some (s'.opened t .early) else some s'
        | none => none
      else none
  | .unLockMainState t =>
      if t ∈ s.threads ∧ s.sections t ≠ [] then
        (s.closed t).onLua (.call t (.unLockMainState false))
      else none
  | .luaLockEnable t =>
      -- by the only thread, or once more
      if s.threads = [t] ∨ (t ∈ s.threads ∧ s.lua.luaLockingEnabled) then
        s.onLua (.call t .luaLockEnable)
      else none
  | .advance t =>
      match s.onLua (.advance t) with
      | some s' => if s.lua.pc t = .locking then some (s'.opened t .guarded) else some s'
      | none => none
  | .createThread t created =>
      if t ∈ s.threads ∧ s.lua.pc t = .outside ∧ s.lua.luaLockingEnabled ∧ created ∉ s.threads then
        some { s with threads := s.threads ++ [created] }
      else none

/-- **Mutual exclusion.** -/
def Exclusive (s : LuaProgram T limit) : Prop :=
  ∀ t u, s.sections t ≠ [] → s.sections u ≠ [] → t = u

/-- If the event is that a thread calls `pthread_mutex_lock`, its depth is below the limit of the
mutex. -/
def WithinLimit (s : LuaProgram T limit) (e : LuaProgramEvent T) : Prop :=
  ∀ t, e = .advance t → s.lua.WithinLimit t (.advance t)

/-- If the event is that a thread is granted the mutex by its `LockMainState`, no other thread is
in a section that was opened before `LuaLockEnable`. -/
def NoEarlySection (s : LuaProgram T limit) (e : LuaProgramEvent T) : Prop :=
  ∀ u, e = .advance u → s.lua.pc u = .locking → ∀ t, t ≠ u → .early ∉ s.sections t

end LuaProgram

/-- A program with properly nested sections, which starts with one thread. -/
def luaProgram {T : Type*} [DecidableEq T] (limit : ℕ) [NeZero limit] (main : T) :
    Machine (LuaProgram T limit) (LuaProgramEvent T) where
  init := .initial main
  step := LuaProgram.step

/-! ## What a step does

Only pieces of three functions of the lock take part.  `Move` lists them; the rest of the argument
is about moves.
-/

namespace LuaProgram

variable {T : Type*} [DecidableEq T] {limit : ℕ}

/-- The lock with its mutex changed on behalf of a thread, which leaves the function. -/
def settled (s : LuaProgram T limit) (t : T) (lock : RecursiveMutex T limit) (depth : Int32) :
    LuaProgram T limit :=
  { s with lua := { s.lua.goto t .outside with
      lock := lock
      luaLockDepth := Function.update s.lua.luaLockDepth t depth } }

/-- A thread is at a place in the functions of the lock. -/
def goto (s : LuaProgram T limit) (t : T) (pc : LuaLockPc) : LuaProgram T limit :=
  { s with lua := s.lua.goto t pc }

inductive Move [NeZero limit] (s : LuaProgram T limit) :
    LuaProgramEvent T → LuaProgram T limit → Prop
  /-- `LockMainState` with locking off -/
  | openEarly {t : T} (ht : t ∈ s.threads) (hpc : s.lua.pc t = .outside)
      (hoff : s.lua.luaLockingEnabled = false) :
      Move s (.lockMainState t) (s.opened t .early)
  /-- `LockMainState` with locking on -/
  | request {t : T} (ht : t ∈ s.threads) (hpc : s.lua.pc t = .outside)
      (hon : s.lua.luaLockingEnabled = true) :
      Move s (.lockMainState t) (s.goto t .locking)
  /-- the mutex is granted -/
  | grant {t : T} (hpc : s.lua.pc t = .locking) {lock : RecursiveMutex T limit}
      (hlock : s.lua.lock.lock t = some lock) :
      Move s (.advance t) ((s.settled t lock (s.lua.luaLockDepth t + 1)).opened t .guarded)
  /-- `UnLockMainState` with locking off -/
  | closeOff {t : T} (ht : t ∈ s.threads) (hopen : s.sections t ≠ [])
      (hpc : s.lua.pc t = .outside) (hoff : s.lua.luaLockingEnabled = false) :
      Move s (.unLockMainState t) (s.closed t)
  /-- `UnLockMainState` with locking on -/
  | close {t : T} (ht : t ∈ s.threads) (hopen : s.sections t ≠ [])
      (hpc : s.lua.pc t = .outside) (hon : s.lua.luaLockingEnabled = true) :
      Move s (.unLockMainState t) ((s.closed t).goto t .unlocking)
  /-- the mutex is left alone -/
  | ignore {t : T} (hpc : s.lua.pc t = .unlocking) (hdepth : s.lua.luaLockDepth t ≤ 0) :
      Move s (.advance t) (s.goto t .outside)
  /-- the mutex is released -/
  | release {t : T} (hpc : s.lua.pc t = .unlocking) (hdepth : 0 < s.lua.luaLockDepth t)
      {lock : RecursiveMutex T limit} (hlock : s.lua.lock.unlock t = some lock) :
      Move s (.advance t) (s.settled t lock (s.lua.luaLockDepth t - 1))
  | enable {t : T} (hpc : s.lua.pc t = .outside) :
      Move s (.luaLockEnable t) { s with lua := { s.lua with luaLockingEnabled := true } }
  | create {t created : T} (hon : s.lua.luaLockingEnabled = true) (hnew : created ∉ s.threads) :
      Move s (.createThread t created) { s with threads := s.threads ++ [created] }

/-! ## The invariant -/

/-- What the depth of a thread says about its open sections behind the switch.  While a section is
being closed, the mutex has still to be released for it. -/
def Counted : LuaLockPc → ℤ → ℕ → Prop
  | .outside, depth, guarded | .locking, depth, guarded => depth = guarded
  | .unlocking, depth, guarded => depth = guarded + 1 ∨ (depth = 0 ∧ guarded = 0)
  | _, _, _ => False

/-- The open sections behind the switch are the inner ones. -/
def NestedAt (s : LuaProgram T limit) (t : T) : Prop :=
  ∃ guarded early : ℕ,
    s.sections t = List.replicate guarded .guarded ++ List.replicate early .early
      ∧ Counted (s.lua.pc t) (s.lua.luaLockDepth t).toInt guarded

/-- **The invariant of a program with nested sections.** -/
structure Nesting (s : LuaProgram T limit) : Prop where
  mirror : ∀ t, s.lua.Mirror t
  inited : s.lua.lockInited = true
  nested : ∀ t, s.NestedAt t
  absent : ∀ t, t ∉ s.threads → s.sections t = [] ∧ s.lua.pc t = .outside
  alone : s.lua.luaLockingEnabled = false → ∃ t, s.threads = [t]

lemma nesting_initial (main : T) : Nesting (initial main : LuaProgram T limit) where
  mirror _ := ⟨rfl, List.not_mem_nil, fun _ _ => ⟨rfl, rfl, rfl⟩⟩
  inited := rfl
  nested _ := ⟨0, 0, rfl, rfl⟩
  absent _ _ := ⟨rfl, rfl⟩
  alone _ := ⟨main, rfl⟩

lemma onLua_eq [NeZero limit] {s s' : LuaProgram T limit} {e : LuaLockEvent T}
    (h : s.onLua e = some s') : ∃ lua, s.lua.step e = some lua ∧ s' = { s with lua := lua } := by
  simp only [onLua] at h
  cases hlua : s.lua.step e with
  | none => simp [hlua] at h
  | some lua =>
      simp only [hlua, Option.some.injEq] at h
      exact ⟨lua, rfl, h.symm⟩

/-- The two functions on a `lua_State` look at the switch first. -/
lemma step_call_mainState [NeZero limit] {l l' : LuaLock T limit} {t : T}
    {function : LuaLockCall} {pc : LuaLockPc}
    (hfunction : function = .lockMainState false ∧ pc = .locking
      ∨ function = .unLockMainState false ∧ pc = .unlocking)
    (hinit : l.lockInited = true) (h : l.step (.call t function) = some l') :
    l.pc t = .outside ∧ (l.luaLockingEnabled = false ∧ l' = l
      ∨ l.luaLockingEnabled = true ∧ l' = l.goto t pc) := by
  simp only [LuaLock.step] at h
  split_ifs at h with hpc
  refine ⟨hpc, ?_⟩
  rcases hfunction with ⟨rfl, rfl⟩ | ⟨rfl, rfl⟩
  all_goals
    simp only [LuaLock.begin, hinit, LuaLock.luaLockingOn] at h
    cases hon : l.luaLockingEnabled with
    | false => simpa [hon] using h.symm
    | true => simpa [hon] using h.symm

/-- A step inside of the functions. -/
lemma Nesting.advance_move [NeZero limit] {s s' : LuaProgram T limit} (hs : s.Nesting) {t : T}
    (h : s.step (.advance t) = some s') : Move s (.advance t) s' := by
  simp only [step] at h
  cases hlua : s.onLua (.advance t) with
  | none => simp [hlua] at h
  | some mid =>
      obtain ⟨lua, hstep, rfl⟩ := onLua_eq hlua
      simp only [hlua] at h
      simp only [LuaLock.step, LuaLock.advance] at hstep
      obtain ⟨guarded, early, -, hcounted⟩ := hs.nested t
      cases hpc : s.lua.pc t with
      | outside => simp [hpc] at hstep
      | locking =>
          rw [hpc] at hstep
          obtain ⟨lock, hlock, rfl⟩ := LuaLock.lockOnce_eq hstep
          simp only [hpc, if_true, Option.some.injEq] at h
          subst h
          exact .grant hpc hlock
      | unlocking =>
          simp only [hpc] at hstep h
          obtain rfl := Option.some.inj h
          split_ifs at hstep with hdepth
          · obtain rfl := Option.some.inj hstep
            exact .ignore hpc hdepth
          · have hpos : 0 < s.lua.luaLockDepth t := Int32.not_le.mp hdepth
            obtain ⟨lock, hlock, heq⟩ :=
              ((hs.mirror t).goto (u := t) (Or.inr rfl)).unlockOnce_eq hpos
            rw [heq] at hstep
            obtain rfl := Option.some.inj hstep
            exact .release hpc hpos hlock
      | lowering | raising | setting => simp [hpc, Counted] at hcounted

/-- **Every step is a move.** -/
lemma Nesting.step_move [NeZero limit] {s s' : LuaProgram T limit} (hs : s.Nesting)
    {e : LuaProgramEvent T} (h : s.step e = some s') : Move s e s' := by
  cases e with
  | lockMainState t =>
      simp only [step] at h
      split_ifs at h with ht
      cases hlua : s.onLua (.call t (.lockMainState false)) with
      | none => simp [hlua] at h
      | some mid =>
          obtain ⟨lua, hstep, rfl⟩ := onLua_eq hlua
          obtain ⟨hpc, ⟨hoff, rfl⟩ | ⟨hon, rfl⟩⟩ :=
            step_call_mainState (Or.inl ⟨rfl, rfl⟩) hs.inited hstep
          · simp only [hlua, hpc, if_true, Option.some.injEq] at h
            subst h
            exact .openEarly ht hpc hoff
          · simp only [hlua, LuaLock.goto, Function.update_self] at h
            obtain rfl := Option.some.inj h
            exact .request ht hpc hon
  | unLockMainState t =>
      simp only [step] at h
      split_ifs at h with ht
      obtain ⟨lua, hstep, rfl⟩ := onLua_eq h
      obtain ⟨hpc, ⟨hoff, rfl⟩ | ⟨hon, rfl⟩⟩ :=
        step_call_mainState (Or.inr ⟨rfl, rfl⟩) hs.inited hstep
      · exact .closeOff ht.1 ht.2 hpc hoff
      · exact .close ht.1 ht.2 hpc hon
  | luaLockEnable t =>
      simp only [step] at h
      split_ifs at h with ht
      obtain ⟨lua, hstep, rfl⟩ := onLua_eq h
      simp only [LuaLock.step, LuaLock.begin] at hstep
      split_ifs at hstep with hpc
      obtain rfl := Option.some.inj hstep
      exact .enable hpc
  | advance t => exact hs.advance_move h
  | createThread t created =>
      simp only [step] at h
      split_ifs at h with ht
      obtain rfl := Option.some.inj h
      exact .create ht.2.2.1 ht.2.2.2

/-! ## Moves keep the invariant -/

/-- A move of one existing thread: the other threads stay where they are. -/
lemma Nesting.of_thread {s s' : LuaProgram T limit} (hs : s.Nesting) {t : T} (ht : t ∈ s.threads)
    (hmirror : ∀ u, s'.lua.Mirror u) (hinited : s'.lua.lockInited = s.lua.lockInited)
    (henabled : s'.lua.luaLockingEnabled = s.lua.luaLockingEnabled)
    (hthreads : s'.threads = s.threads)
    (hothers : ∀ u, u ≠ t → s'.sections u = s.sections u ∧ s'.lua.pc u = s.lua.pc u
      ∧ s'.lua.luaLockDepth u = s.lua.luaLockDepth u)
    (hself : s'.NestedAt t) : s'.Nesting where
  mirror := hmirror
  inited := hinited.trans hs.inited
  nested u := by
    by_cases hu : u = t
    · exact hu ▸ hself
    · obtain ⟨hsections, hpc, hdepth⟩ := hothers u hu
      simpa only [NestedAt, hsections, hpc, hdepth] using hs.nested u
  absent u hu := by
    rw [hthreads] at hu
    have hne : u ≠ t := fun heq => hu (heq ▸ ht)
    obtain ⟨hsections, hpc, -⟩ := hothers u hne
    rw [hsections, hpc]
    exact hs.absent u hu
  alone hoff := by
    rw [hthreads]
    exact hs.alone (henabled ▸ hoff)

/-- A thread inside a function of the lock exists. -/
lemma Nesting.mem_threads {s : LuaProgram T limit} (hs : s.Nesting) {t : T}
    (hpc : s.lua.pc t ≠ .outside) : t ∈ s.threads := by
  by_contra ht
  exact hpc (hs.absent t ht).2

omit [DecidableEq T] in
/-- What the condition on the program says about the lock. -/
lemma WithinLimit.lua {s : LuaProgram T limit} {t : T} (h : s.WithinLimit (.advance t)) (u : T) :
    s.lua.WithinLimit u (.advance t) := by
  intro heq
  obtain rfl := LuaLockEvent.advance.inj heq
  exact h t rfl rfl

/-- With locking off no section behind the switch is open. -/
lemma Nesting.early_of_off {s : LuaProgram T limit} (hs : s.Nesting)
    (hoff : s.lua.luaLockingEnabled = false) {t : T} (hpc : s.lua.pc t = .outside) :
    s.lua.luaLockDepth t = 0 ∧ ∃ early, s.sections t = List.replicate early .early := by
  obtain ⟨guarded, early, hsections, hcounted⟩ := hs.nested t
  have hdepth : s.lua.luaLockDepth t = 0 :=
    ((hs.mirror t).off (by simp [LuaLock.On, LuaLock.luaLockingOn, hoff]) t).1
  have hzero : (0 : Int32).toInt = 0 := rfl
  rw [hpc, Counted, hdepth, hzero] at hcounted
  obtain rfl : guarded = 0 := by omega
  exact ⟨hdepth, early, hsections⟩

/-- The mutex has been set up, so the switch alone decides. -/
lemma Nesting.on {s : LuaProgram T limit} (hs : s.Nesting) (hon : s.lua.luaLockingEnabled = true) :
    s.lua.On := by
  simp [LuaLock.On, LuaLock.luaLockingOn, hs.inited, hon]

section Moves

variable {s : LuaProgram T limit} {t : T}

lemma Nesting.openEarly (hs : s.Nesting) (ht : t ∈ s.threads) (hpc : s.lua.pc t = .outside)
    (hoff : s.lua.luaLockingEnabled = false) : (s.opened t .early).Nesting := by
  refine hs.of_thread ht hs.mirror rfl rfl rfl (fun u hu => ?_) ?_
  · simp [opened, hu]
  · obtain ⟨hdepth, early, hsections⟩ := hs.early_of_off hoff hpc
    exact ⟨0, early + 1, by simp [opened, hsections, List.replicate_succ],
      by simp [opened, hpc, Counted, hdepth]⟩

lemma Nesting.request (hs : s.Nesting) (ht : t ∈ s.threads) (hpc : s.lua.pc t = .outside)
    (hon : s.lua.luaLockingEnabled = true) : (s.goto t .locking).Nesting := by
  refine hs.of_thread ht (fun u => (hs.mirror u).goto (Or.inl (hs.on hon))) rfl rfl rfl
    (fun u hu => ?_) ?_
  · simp [goto, LuaLock.goto, hu]
  · obtain ⟨guarded, early, hsections, hcounted⟩ := hs.nested t
    rw [hpc] at hcounted
    exact ⟨guarded, early, hsections, by simpa [goto, LuaLock.goto, Counted] using hcounted⟩

/-- The depth goes up with the number of sections, since it is below the limit. -/
lemma Nesting.grant [NeZero limit] (hs : s.Nesting) (hwithin : s.WithinLimit (.advance t))
    (hpc : s.lua.pc t = .locking) {lock : RecursiveMutex T limit}
    (hlock : s.lua.lock.lock t = some lock) :
    ((s.settled t lock (s.lua.luaLockDepth t + 1)).opened t .guarded).Nesting := by
  have ht : t ∈ s.threads := hs.mem_threads (by simp [hpc])
  have hbelow := hwithin t rfl rfl (Or.inl hpc)
  have hmirror : ∀ u, (s.settled t lock (s.lua.luaLockDepth t + 1)).lua.Mirror u := fun u =>
    (hs.mirror u).advance (u := t) (hwithin.lua u)
      (by simp [LuaLock.advance, hpc, LuaLock.lockOnce, LuaLock.goto, hlock, settled])
  have hnext : (s.lua.luaLockDepth t + 1).toInt = (s.lua.luaLockDepth t).toInt + 1 :=
    toInt_add_one (by omega)
  refine hs.of_thread ht hmirror rfl rfl rfl (fun u hu => ?_) ?_
  · simp [opened, settled, LuaLock.goto, hu]
  · obtain ⟨guarded, early, hsections, hcounted⟩ := hs.nested t
    rw [hpc, Counted] at hcounted
    exact ⟨guarded + 1, early, by simp [opened, settled, hsections, List.replicate_succ],
      by simp [opened, settled, LuaLock.goto, Counted, hnext, hcounted]⟩

lemma Nesting.closeOff (hs : s.Nesting) (ht : t ∈ s.threads) (hpc : s.lua.pc t = .outside)
    (hoff : s.lua.luaLockingEnabled = false) : (s.closed t).Nesting := by
  refine hs.of_thread ht hs.mirror rfl rfl rfl (fun u hu => ?_) ?_
  · simp [closed, hu]
  · obtain ⟨hdepth, early, hsections⟩ := hs.early_of_off hoff hpc
    exact ⟨0, early - 1, by simp [closed, hsections], by simp [closed, hpc, Counted, hdepth]⟩

/-- The section that is closed is from behind the switch, or there is none left that is. -/
lemma Nesting.close (hs : s.Nesting) (ht : t ∈ s.threads) (hpc : s.lua.pc t = .outside)
    (hon : s.lua.luaLockingEnabled = true) : ((s.closed t).goto t .unlocking).Nesting := by
  refine hs.of_thread ht (fun u => (hs.mirror u).goto (Or.inl (hs.on hon))) rfl rfl rfl
    (fun u hu => ?_) ?_
  · simp [goto, closed, LuaLock.goto, hu]
  · obtain ⟨guarded, early, hsections, hcounted⟩ := hs.nested t
    rw [hpc, Counted] at hcounted
    cases guarded with
    | zero =>
        exact ⟨0, early - 1, by simp [goto, closed, hsections],
          by simp [goto, closed, LuaLock.goto, Counted, hcounted]⟩
    | succ guarded =>
        exact ⟨guarded, early, by simp [goto, closed, hsections, List.replicate_succ],
          by simp [goto, closed, LuaLock.goto, Counted, hcounted]⟩

lemma Nesting.ignore (hs : s.Nesting) (hpc : s.lua.pc t = .unlocking)
    (hdepth : s.lua.luaLockDepth t ≤ 0) : (s.goto t .outside).Nesting := by
  have ht : t ∈ s.threads := hs.mem_threads (by simp [hpc])
  refine hs.of_thread ht (fun u => (hs.mirror u).goto (Or.inr rfl)) rfl rfl rfl
    (fun u hu => ?_) ?_
  · simp [goto, LuaLock.goto, hu]
  · obtain ⟨guarded, early, hsections, hcounted⟩ := hs.nested t
    rw [hpc, Counted] at hcounted
    have hle : (s.lua.luaLockDepth t).toInt ≤ 0 := Int32.le_iff_toInt_le.mp hdepth
    refine ⟨guarded, early, hsections, ?_⟩
    simp only [goto, LuaLock.goto, Function.update_self, Counted]
    omega

lemma Nesting.release [NeZero limit] (hs : s.Nesting) (hwithin : s.WithinLimit (.advance t))
    (hpc : s.lua.pc t = .unlocking) (hdepth : 0 < s.lua.luaLockDepth t)
    {lock : RecursiveMutex T limit} (hlock : s.lua.lock.unlock t = some lock) :
    (s.settled t lock (s.lua.luaLockDepth t - 1)).Nesting := by
  have ht : t ∈ s.threads := hs.mem_threads (by simp [hpc])
  have hmirror : ∀ u, (s.settled t lock (s.lua.luaLockDepth t - 1)).lua.Mirror u := fun u =>
    (hs.mirror u).advance (u := t) (hwithin.lua u)
      (by simp [LuaLock.advance, hpc, LuaLock.unlockOnce, LuaLock.goto, hlock, settled,
        Int32.not_le.mpr hdepth])
  have hpos : 0 < (s.lua.luaLockDepth t).toInt := Int32.lt_iff_toInt_lt.mp hdepth
  have hnext : (s.lua.luaLockDepth t - 1).toInt = (s.lua.luaLockDepth t).toInt - 1 :=
    toInt_sub_one (by omega)
  refine hs.of_thread ht hmirror rfl rfl rfl (fun u hu => ?_) ?_
  · simp [settled, LuaLock.goto, hu]
  · obtain ⟨guarded, early, hsections, hcounted⟩ := hs.nested t
    rw [hpc, Counted] at hcounted
    refine ⟨guarded, early, hsections, ?_⟩
    simp only [settled, LuaLock.goto, Function.update_self, Counted, hnext]
    omega

/-- **Every move keeps the invariant**, within the limit. -/
lemma Nesting.move [NeZero limit] {s' : LuaProgram T limit} (hs : s.Nesting)
    {e : LuaProgramEvent T} (hwithin : s.WithinLimit e) (h : Move s e s') : s'.Nesting := by
  cases h with
  | openEarly ht hpc hoff => exact hs.openEarly ht hpc hoff
  | request ht hpc hon => exact hs.request ht hpc hon
  | grant hpc hlock => exact hs.grant hwithin hpc hlock
  | closeOff ht _ hpc hoff => exact hs.closeOff ht hpc hoff
  | close ht _ hpc hon => exact hs.close ht hpc hon
  | ignore hpc hdepth => exact hs.ignore hpc hdepth
  | release hpc hdepth hlock => exact hs.release hwithin hpc hdepth hlock
  | @enable t _ =>
      have henable : s.lua.begin t .luaLockEnable
          = some { s.lua with luaLockingEnabled := true } := rfl
      exact ⟨fun u => (hs.mirror u).begin henable, hs.inited, hs.nested, hs.absent,
        fun hoff => by simp at hoff⟩
  | create hon _ =>
      refine ⟨hs.mirror, hs.inited, hs.nested, fun u hu => hs.absent u fun hmem => hu ?_, ?_⟩
      · simp [hmem]
      · intro hoff
        simp [hon] at hoff

end Moves

/-! ## Exclusion -/

/-- A thread in a section from behind the switch has locked the mutex. -/
lemma Nesting.countOf_pos {s : LuaProgram T limit} (hs : s.Nesting) {t : T}
    (hopen : s.sections t ≠ []) (hearly : .early ∉ s.sections t) : 0 < s.lua.lock.countOf t := by
  obtain ⟨guarded, early, hsections, hcounted⟩ := hs.nested t
  have hdepth := (hs.mirror t).depth
  obtain rfl : early = 0 := by
    by_contra hne
    exact hearly (by simp [hsections, hne])
  have hpos : guarded ≠ 0 := fun hzero => hopen (by simp [hsections, hzero])
  cases hpc : s.lua.pc t with
  | outside | locking | unlocking =>
      rw [hpc, Counted] at hcounted
      omega
  | lowering | raising | setting => simp [hpc, Counted] at hcounted

/-- Fewer sections exclude each other too. -/
lemma Exclusive.mono {T : Type*} {limit : ℕ} {s s' : LuaProgram T limit} (hs : s.Exclusive)
    (h : ∀ t, s'.sections t ≠ [] → s.sections t ≠ []) : s'.Exclusive :=
  fun t u ht hu => hs t u (h t ht) (h u hu)

/-- If no other thread has a section open, a thread can open one. -/
lemma exclusive_opened {s : LuaProgram T limit} {t : T} {kind : LuaSection}
    (h : ∀ u, u ≠ t → s.sections u = []) : (s.opened t kind).Exclusive := by
  have hall : ∀ u, (s.opened t kind).sections u ≠ [] → u = t := fun u hu => by
    by_contra hne
    exact hu (by simpa [opened, hne] using h u hne)
  exact fun u v hu hv => (hall u hu).trans (hall v hv).symm

lemma closed_sections_ne {s : LuaProgram T limit} {t u : T} (h : (s.closed t).sections u ≠ []) :
    s.sections u ≠ [] := by
  by_cases hu : u = t
  · subst hu
    intro hnil
    simp [closed, hnil] at h
  · simpa [closed, hu] using h

/-- **A move keeps sections exclusive exactly if it meets the condition.** -/
lemma Nesting.exclusive_move [NeZero limit] {s s' : LuaProgram T limit} (hs : s.Nesting)
    (hexclusive : s.Exclusive) {e : LuaProgramEvent T} (h : Move s e s') :
    s'.Exclusive ↔ s.NoEarlySection e := by
  cases h with
  | @openEarly t ht hpc hoff =>
      obtain ⟨main, hmain⟩ := hs.alone hoff
      refine iff_of_true (exclusive_opened fun u hu => (hs.absent u fun hmem => hu ?_).1) ?_
      · rw [hmain, List.mem_singleton] at ht hmem
        rw [ht, hmem]
      · rintro u ⟨⟩
  | @grant t hpc lock hlock =>
      constructor
      · intro hafter u hu _ v hv hearly
        obtain rfl : t = u := LuaProgramEvent.advance.inj hu
        refine hv (hafter v t ?_ ?_)
        · simp only [opened, settled, Function.update_of_ne hv]
          exact List.ne_nil_of_mem hearly
        · simp [opened]
      · intro hcond
        refine exclusive_opened fun u hu => ?_
        by_contra hopen
        exact hu (RecursiveMutex.countOf_of_lock hlock
          (hs.countOf_pos hopen (hcond t rfl hpc u hu)))
  | closeOff | close =>
      refine iff_of_true (hexclusive.mono fun u hu => closed_sections_ne hu) ?_
      rintro u ⟨⟩
  | request | enable | create =>
      refine iff_of_true (hexclusive.mono fun u hu => hu) ?_
      rintro u ⟨⟩
  | @ignore t hpc hdepth | @release t hpc hdepth lock hlock =>
      refine iff_of_true (hexclusive.mono fun u hu => hu) ?_
      intro u hu hlocking
      obtain rfl : t = u := LuaProgramEvent.advance.inj hu
      simp [hpc] at hlocking

/-! ## Beyond the limit -/

/-- A thread outside of the functions of the lock, with locking on. -/
structure Ready (s : LuaProgram T limit) (t : T) : Prop where
  mem : t ∈ s.threads
  outside : s.lua.pc t = .outside
  inited : s.lua.lockInited = true
  enabled : s.lua.luaLockingEnabled = true

/-- One thread has so many sections open, and has locked the mutex so often; another one looks
on. -/
structure Holding (s : LuaProgram T limit) (t u : T) (depth count : ℕ) : Prop where
  ready : s.Ready t
  other : s.Ready u
  sections : s.sections t = List.replicate depth .guarded
  none : s.sections u = []
  depth : (s.lua.luaLockDepth t).toInt = depth
  count : s.lua.lock.countOf t = count
  free : ∀ v, v ≠ t → s.lua.lock.countOf v = 0

section Holding

variable [NeZero limit] (main : T) {s : LuaProgram T limit} {t u : T} {depth count : ℕ}

/-- A thread opens a section that it gets the mutex for. -/
lemma Ready.runFrom_open (hs : s.Ready t) {m : RecursiveMutex T limit}
    (hm : s.lua.lock.lock t = some m) :
    (luaProgram limit main).runFrom s [.lockMainState t, .advance t]
      = some ((s.settled t m (s.lua.luaLockDepth t + 1)).opened t .guarded) := by
  simp [Machine.runFrom, luaProgram, step, onLua, LuaLock.step, LuaLock.begin, LuaLock.advance,
    LuaLock.luaLockingOn, LuaLock.goto, LuaLock.lockOnce, settled, hs.mem, hs.outside, hs.inited,
    hs.enabled, hm]

/-- A thread closes a section and releases the mutex once. -/
lemma Ready.runFrom_close (hs : s.Ready t) (hopen : s.sections t ≠ [])
    (hdepth : 0 < s.lua.luaLockDepth t) {m : RecursiveMutex T limit}
    (hm : s.lua.lock.unlock t = some m) :
    (luaProgram limit main).runFrom s [.unLockMainState t, .advance t]
      = some ((s.closed t).settled t m (s.lua.luaLockDepth t - 1)) := by
  simp [Machine.runFrom, luaProgram, step, onLua, LuaLock.step, LuaLock.begin, LuaLock.advance,
    LuaLock.luaLockingOn, LuaLock.goto, LuaLock.unlockOnce, settled, closed, hs.mem, hs.outside,
    hs.inited, hs.enabled, hm, hopen, Int32.not_le.mpr hdepth]

/-- **One section more**, with as much of the mutex as there is. -/
lemma Holding.open (hs : s.Holding t u depth count) (hu : u ≠ t) (hmax : depth < 2147483647) :
    ∃ s', (luaProgram limit main).runFrom s [.lockMainState t, .advance t] = some s'
      ∧ s'.Holding t u (depth + 1) (min (count + 1) limit) := by
  obtain ⟨m, hm⟩ := RecursiveMutex.lock_isSome hs.free
  have hcount := RecursiveMutex.countOf_lock hm
  have hdepth := hs.depth
  refine ⟨_, hs.ready.runFrom_open main hm, ⟨hs.ready.mem, ?_, hs.ready.inited, hs.ready.enabled⟩,
    ⟨hs.other.mem, ?_, hs.other.inited, hs.other.enabled⟩, ?_, ?_, ?_, ?_, fun v hv => ?_⟩
  · simp [opened, settled, LuaLock.goto]
  · simpa [opened, settled, LuaLock.goto, hu] using hs.other.outside
  · simp [opened, settled, hs.sections, List.replicate_succ]
  · simpa [opened, settled, hu] using hs.none
  · have hnext := toInt_add_one (n := s.lua.luaLockDepth t) (by omega)
    simp [opened, settled, hnext, hdepth]
  · exact (hcount t).trans (by rw [if_pos rfl, hs.count])
  · exact (hcount v).trans (by rw [if_neg hv, hs.free v hv])

/-- **One section less**, as long as there is something to unlock. -/
lemma Holding.close (hs : s.Holding t u (depth + 1) (count + 1)) (hu : u ≠ t) :
    ∃ s', (luaProgram limit main).runFrom s [.unLockMainState t, .advance t] = some s'
      ∧ s'.Holding t u depth count := by
  have hdepth := hs.depth
  obtain ⟨m, hm⟩ := RecursiveMutex.unlock_isSome (t := t) (by rw [hs.count]; omega)
  have hcount := RecursiveMutex.countOf_unlock hm
  have hpos : 0 < s.lua.luaLockDepth t :=
    Int32.lt_iff_toInt_lt.mpr (by rw [hdepth]; exact Int.natCast_pos.mpr depth.succ_pos)
  refine ⟨_, hs.ready.runFrom_close main (by simp [hs.sections]) hpos hm,
    ⟨hs.ready.mem, ?_, hs.ready.inited, hs.ready.enabled⟩,
    ⟨hs.other.mem, ?_, hs.other.inited, hs.other.enabled⟩, ?_, ?_, ?_, ?_, fun v hv => ?_⟩
  · simp [settled, LuaLock.goto]
  · simpa [settled, closed, LuaLock.goto, hu] using hs.other.outside
  · simp [settled, closed, hs.sections]
  · simpa [settled, closed, hu] using hs.none
  · have hnext := toInt_sub_one (n := s.lua.luaLockDepth t) (by omega)
    simp [settled, closed, hnext, hdepth]
  · exact (hcount t).trans (by rw [if_pos rfl, hs.count, Nat.add_sub_cancel])
  · exact (hcount v).trans (by rw [if_neg hv, hs.free v hv])

lemma Holding.opens (hs : s.Holding t u 0 0) (hu : u ≠ t) (n : ℕ) (hmax : n ≤ 2147483647) :
    ∃ es s', (luaProgram limit main).runFrom s es = some s' ∧ s'.Holding t u n (min n limit) := by
  induction n with
  | zero => exact ⟨[], s, rfl, by simpa using hs⟩
  | succ n ih =>
      obtain ⟨es, mid, hrun, hmid⟩ := ih (by omega)
      obtain ⟨s', hnext, hs'⟩ := hmid.open main hu (by omega)
      have hcount : min (min n limit + 1) limit = min (n + 1) limit := by omega
      exact ⟨_, s', (Machine.runFrom_append hrun _).trans hnext, hcount ▸ hs'⟩

lemma Holding.closes (n : ℕ) :
    ∀ {s : LuaProgram T limit}, s.Holding t u (depth + n) (count + n) → u ≠ t →
      ∃ es s', (luaProgram limit main).runFrom s es = some s' ∧ s'.Holding t u depth count := by
  induction n with
  | zero => exact fun {s} hs _ => ⟨[], s, rfl, hs⟩
  | succ n ih =>
      intro s hs hu
      obtain ⟨mid, hclose, hmid⟩ := hs.close main hu
      obtain ⟨es, s', hrun, hs'⟩ := ih hmid hu
      exact ⟨_, s', (Machine.runFrom_append hclose es).trans hrun, hs'⟩

end Holding

end LuaProgram

variable {T : Type*} [DecidableEq T]

/-- **When sections exclude each other.**  In every run of a program with properly nested sections
that turns locking on while it has one thread, and in which no thread nests more of them than the
mutex can be locked: no two threads are ever inside sections at the same time, exactly if each time
a thread is granted the mutex no other thread is still inside a section that it opened before
`LuaLockEnable`. -/
theorem sections_exclusive_iff (limit : ℕ) [NeZero limit] (main : T)
    (es : List (LuaProgramEvent T))
    (hwithin : (luaProgram limit main).Meets LuaProgram.WithinLimit es) :
    (luaProgram limit main).Along (fun _ _ s' => s'.Exclusive) es
      ↔ (luaProgram limit main).Meets LuaProgram.NoEarlySection es := by
  refine Machine.along_iff_meets_within (I := fun s => s.Nesting ∧ s.Exclusive) ?_ ?_ ?_ hwithin
  · exact ⟨LuaProgram.nesting_initial main, fun t u ht => absurd rfl ht⟩
  · intro s e s' hs hwithin hstep hcond
    have hmove := hs.1.step_move hstep
    exact ⟨hs.1.move hwithin hmove, (hs.1.exclusive_move hs.2 hmove).mpr hcond⟩
  · intro s e s' hs hwithin hstep
    exact hs.1.exclusive_move hs.2 (hs.1.step_move hstep)

/-- The first thread turns locking on, creates a second one and opens a section; that one opens its
own as soon as the first has closed its section. -/
def takingTurns : List (LuaProgramEvent ℕ) :=
  [.luaLockEnable 0, .createThread 0 1, .lockMainState 0, .advance 0, .lockMainState 1,
    .unLockMainState 0, .advance 0, .advance 1]

theorem takingTurns_exclusive :
    (∃ s, (luaProgram 65535 0).run takingTurns = some s ∧ s.sections 1 = [.guarded])
      ∧ (luaProgram 65535 0).Along (fun _ _ s' => s'.Exclusive) takingTurns := by
  refine ⟨⟨_, rfl, rfl⟩, (sections_exclusive_iff 65535 0 takingTurns ?_).mpr ?_⟩
  · simp [takingTurns, Machine.Meets, Machine.Along, Machine.AlongFrom, luaProgram,
      LuaProgram.initial, LuaProgram.step, LuaProgram.onLua, LuaProgram.opened, LuaProgram.closed,
      LuaProgram.WithinLimit, LuaLock.WithinLimit, LuaLock.initial, LuaLock.step, LuaLock.begin,
      LuaLock.advance, LuaLock.luaLockingOn, LuaLock.goto, LuaLock.lockOnce, LuaLock.unlockOnce,
      LuaLock.Locks, RecursiveMutex.lock, RecursiveMutex.unlock]
  · simp [takingTurns, Machine.Meets, Machine.Along, Machine.AlongFrom, luaProgram,
      LuaProgram.initial, LuaProgram.step, LuaProgram.onLua, LuaProgram.opened, LuaProgram.closed,
      LuaProgram.NoEarlySection, LuaLock.initial, LuaLock.step, LuaLock.begin,
      LuaLock.advance, LuaLock.luaLockingOn, LuaLock.goto, LuaLock.lockOnce, LuaLock.unlockOnce,
      RecursiveMutex.lock, RecursiveMutex.unlock]

/-- **Beyond the limit** sections from behind the switch do not exclude each other either: with one
section more than the mutex can be locked, it is free before the last one is closed. -/
theorem guarded_sections_shared (limit : ℕ) [NeZero limit] (hlimit : limit < 2147483647) :
    ∃ es s, (luaProgram limit 0).run es = some s ∧ s.sections 0 = [.guarded]
      ∧ s.sections 1 = [.guarded] := by
  obtain ⟨s₀, hrun₀, hs₀⟩ : ∃ s₀ : LuaProgram ℕ limit,
      (luaProgram limit 0).run [.luaLockEnable 0, .createThread 0 1] = some s₀
        ∧ s₀.Holding 0 1 0 0 := by
    have hmem : ∀ t ∈ [0, 1], t ∈ [0] ++ [1] := fun t ht => ht
    exact ⟨_, rfl, ⟨hmem 0 (by simp), rfl, rfl, rfl⟩, ⟨hmem 1 (by simp), rfl, rfl, rfl⟩, rfl, rfl,
      rfl, rfl, fun _ _ => rfl⟩
  obtain ⟨opens, s₁, hrun₁, hs₁⟩ := hs₀.opens 0 (by decide) (limit + 1) (by omega)
  have hs₁' : s₁.Holding 0 1 (1 + limit) (0 + limit) := by
    have hcount : min (limit + 1) limit = 0 + limit := by omega
    rw [Nat.add_comm 1, ← hcount]
    exact hs₁
  obtain ⟨closes, s₂, hrun₂, hs₂⟩ := LuaProgram.Holding.closes 0 limit hs₁' (by decide)
  -- nobody owns the mutex any more, and the second thread gets it
  obtain ⟨m, hm⟩ := RecursiveMutex.lock_isSome (m := s₂.lua.lock) (t := 1) fun v _ => by
    by_cases hv : v = 0
    · rw [hv, hs₂.count]
    · exact hs₂.free v hv
  have hrun₃ := hs₂.other.runFrom_open 0 hm
  refine ⟨_, _, (Machine.run_append hrun₀ _).trans ((Machine.runFrom_append hrun₁ _).trans
    ((Machine.runFrom_append hrun₂ _).trans hrun₃)), ?_, ?_⟩
  · simpa [LuaProgram.opened, LuaProgram.settled] using hs₂.sections
  · simpa [LuaProgram.opened, LuaProgram.settled] using hs₂.none

/-- **Two threads inside.**  The only thread opens a section, turns locking on and creates a second
thread; that one is granted the mutex, which the first never took. -/
theorem section_before_switch_shared :
    ¬ ∀ (main : ℕ) (es : List (LuaProgramEvent ℕ)),
      (luaProgram 65535 main).Along (fun _ _ s' => s'.Exclusive) es := by
  intro h
  have halong := h 0 ([.lockMainState 0, .luaLockEnable 0, .createThread 0 1, .lockMainState 1]
    ++ [.advance 1])
  have hafter := Machine.along_concat halong rfl rfl
  exact absurd (hafter 0 1 (by decide) (by decide)) (by decide)

end Luan
