import Luan.Core.CRun
import Luan.LuaLock.Lock

/-!
# The depth counters mirror the mutex

`lua_lock_depth` is what the unlocking functions rely on: none of them looks at the mutex, nor at
the result of `pthread_mutex_lock` or `pthread_mutex_unlock`.

* `LuaLock.Mirror` — the invariant, for one thread.  Besides the counter it says that nothing is
  locked, and no thread on its way to the mutex, before locking is on.  `LuaLockDepthSet` needs
  that: it clears its counter if locking is off.
* `LuaLock.WithinLimit` — the thread calls `pthread_mutex_lock` only while its depth is below the
  limit of the mutex.  What other threads do is of no account.
* `Mirror.lockOnce`, `Mirror.unlockOnce` — the two places where counter and mutex change.
* `depth_mirrors_mutex_iff` — the counters mirror the mutex in exactly the runs in which all threads
  stay within the limit, whatever they call.
-/

namespace Luan

namespace LuaLock

variable {T : Type*} [DecidableEq T] {limit : ℕ}

/-- Locking is on: the guard of every function that touches the mutex. -/
def On (s : LuaLock T limit) : Prop := (s.lockInited && s.luaLockingOn) = true

/-- **The invariant of the Lua lock.** -/
structure Mirror (s : LuaLock T limit) (t : T) : Prop where
  depth : (s.luaLockDepth t).toInt = s.lock.countOf t
  owned : t ∉ s.unlockErrors
  off : ¬ s.On → ∀ u, s.luaLockDepth u = 0 ∧ s.lock.countOf u = 0 ∧ s.pc u = .outside

/-- The thread is in front of a call of `pthread_mutex_lock`. -/
def Locks (s : LuaLock T limit) (t : T) : Prop :=
  s.pc t = .locking ∨ ∃ depth, s.pc t = .raising depth ∧ s.luaLockDepth t < depth

/-- If the event is that the thread calls `pthread_mutex_lock`, its depth is below the limit of the
mutex, and below the largest `int`. -/
def WithinLimit (t : T) (s : LuaLock T limit) (e : LuaLockEvent T) : Prop :=
  e = .advance t → s.Locks t → (s.luaLockDepth t).toInt < min limit 2147483647

lemma mirror_initial (t : T) : Mirror (initial : LuaLock T limit) t where
  depth := by simp [initial]
  owned := by simp [initial]
  off _ _ := by simp [initial]

/-! ## The pieces -/

lemma lockOnce_eq [NeZero limit] {s s' : LuaLock T limit} {t : T} (h : s.lockOnce t = some s') :
    ∃ m, s.lock.lock t = some m ∧ s' = { s with
      lock := m
      luaLockDepth := Function.update s.luaLockDepth t (s.luaLockDepth t + 1) } := by
  simp only [lockOnce] at h
  cases hm : s.lock.lock t with
  | none => simp [hm] at h
  | some m =>
      simp only [hm, Option.some.injEq] at h
      exact ⟨m, rfl, h.symm⟩

/-- A thread whose counter is positive owns the mutex. -/
lemma Mirror.unlockOnce_eq {s : LuaLock T limit} {t : T} (hs : s.Mirror t)
    (ht : 0 < s.luaLockDepth t) :
    ∃ m, s.lock.unlock t = some m ∧ s.unlockOnce t = { s with
      lock := m
      luaLockDepth := Function.update s.luaLockDepth t (s.luaLockDepth t - 1) } := by
  have hpos : 0 < s.lock.countOf t := by
    have hdepth := Int32.lt_iff_toInt_lt.mp ht
    rw [hs.depth] at hdepth
    exact Int.natCast_pos.mp hdepth
  obtain ⟨m, hm⟩ := RecursiveMutex.unlock_isSome hpos
  exact ⟨m, hm, by simp [unlockOnce, hm]⟩

/-- **Locking once keeps the invariant**, within the limit. -/
lemma Mirror.lockOnce [NeZero limit] {s s' : LuaLock T limit} {t : T} (hs : s.Mirror t)
    (hon : s.On) (hwithin : (s.luaLockDepth t).toInt < min limit 2147483647)
    (h : s.lockOnce t = some s') : s'.Mirror t := by
  obtain ⟨m, hm, rfl⟩ := lockOnce_eq h
  have hdepth := hs.depth
  refine ⟨?_, hs.owned, fun hoff => absurd hon hoff⟩
  show (Function.update s.luaLockDepth t (s.luaLockDepth t + 1) t).toInt = m.countOf t
  rw [Function.update_self, toInt_add_one (by omega), RecursiveMutex.countOf_lock hm, if_pos rfl]
  omega

/-- Beyond the limit the counter goes on and the mutex does not. -/
lemma lt_of_lockOnce [NeZero limit] {s s' : LuaLock T limit} {t : T} (h : s.lockOnce t = some s')
    (hs : (s.luaLockDepth t).toInt = s.lock.countOf t)
    (hs' : (s'.luaLockDepth t).toInt = s'.lock.countOf t) :
    (s.luaLockDepth t).toInt < min limit 2147483647 := by
  obtain ⟨m, hm, rfl⟩ := lockOnce_eq h
  have hcount : m.countOf t = min (s.lock.countOf t + 1) limit := by
    rw [RecursiveMutex.countOf_lock hm, if_pos rfl]
  simp only [Function.update_self] at hs'
  have hle := s.lock.countOf_le t
  have hlt := (s.luaLockDepth t).toInt_lt
  by_cases hint : (s.luaLockDepth t).toInt < 2147483647
  · rw [toInt_add_one hint] at hs'
    omega
  · -- the counter goes round, and is negative
    have hmax : s.luaLockDepth t = 2147483647 := by
      rw [← Int32.toInt_inj]
      simp
      omega
    have hnegative : (2147483647 + 1 : Int32).toInt = -2147483648 := rfl
    rw [hmax, hnegative] at hs'
    omega

/-- Another thread's locking leaves the invariant alone. -/
lemma Mirror.lockOnce_of_ne [NeZero limit] {s s' : LuaLock T limit} {t u : T} (hs : s.Mirror t)
    (hu : t ≠ u) (hon : s.On) (h : s.lockOnce u = some s') : s'.Mirror t := by
  obtain ⟨m, hm, rfl⟩ := lockOnce_eq h
  refine ⟨?_, hs.owned, fun hoff => absurd hon hoff⟩
  show (Function.update s.luaLockDepth u (s.luaLockDepth u + 1) t).toInt = m.countOf t
  rw [RecursiveMutex.countOf_lock hm, if_neg hu, Function.update_of_ne hu, hs.depth]

lemma unlockOnce_on {s : LuaLock T limit} (t : T) : (s.unlockOnce t).On ↔ s.On := by
  simp only [unlockOnce]
  split <;> exact Iff.rfl

/-- **Unlocking once keeps the invariant**, if the counter says that there is something to
unlock. -/
lemma Mirror.unlockOnce {s : LuaLock T limit} {t : T} (hs : s.Mirror t) (hon : s.On)
    (ht : 0 < s.luaLockDepth t) : (s.unlockOnce t).Mirror t := by
  obtain ⟨m, hm, heq⟩ := hs.unlockOnce_eq ht
  have hpos := Int32.lt_iff_toInt_lt.mp ht
  have hzero : (0 : Int32).toInt = 0 := rfl
  have hdepth := hs.depth
  rw [heq]
  refine ⟨?_, hs.owned, fun hoff => absurd hon hoff⟩
  show (Function.update s.luaLockDepth t (s.luaLockDepth t - 1) t).toInt = m.countOf t
  rw [RecursiveMutex.countOf_unlock hm, if_pos rfl, Function.update_self,
    toInt_sub_one (by omega)]
  omega

/-- Another thread's unlocking leaves the invariant alone, whether the mutex is its own or not. -/
lemma Mirror.unlockOnce_of_ne {s : LuaLock T limit} {t u : T} (hs : s.Mirror t) (hu : t ≠ u)
    (hon : s.On) : (s.unlockOnce u).Mirror t := by
  refine ⟨?_, ?_, fun hoff => absurd ((unlockOnce_on u).mpr hon) hoff⟩
  · simp only [LuaLock.unlockOnce]
    cases hm : s.lock.unlock u with
    | none => simpa [Function.update_of_ne hu] using hs.depth
    | some m =>
        have hcount := RecursiveMutex.countOf_unlock hm t
        rw [if_neg hu] at hcount
        simpa [Function.update_of_ne hu, hcount] using hs.depth
  · simp only [LuaLock.unlockOnce]
    cases hm : s.lock.unlock u with
    | none => simpa [hu] using hs.owned
    | some m => exact hs.owned

/-- Only with locking on does a thread go into a function. -/
lemma Mirror.goto {s : LuaLock T limit} {t u : T} (hs : s.Mirror t) {pc : LuaLockPc}
    (h : s.On ∨ pc = .outside) : (s.goto u pc).Mirror t := by
  refine ⟨hs.depth, hs.owned, fun hoff v => ?_⟩
  obtain ⟨hdepth, hcount, hpc⟩ := hs.off hoff v
  refine ⟨hdepth, hcount, ?_⟩
  show Function.update s.pc u pc v = .outside
  rw [Function.update_apply, hpc]
  rcases h with hon | rfl
  · exact absurd hon hoff
  · simp

lemma Mirror.returning {s : LuaLock T limit} {t : T} (hs : s.Mirror t) (u : T) (value : Int32) :
    (s.returning u value).Mirror t :=
  ⟨hs.depth, hs.owned, hs.off⟩

@[simp] lemma goto_depth (s : LuaLock T limit) (t : T) (pc : LuaLockPc) :
    (s.goto t pc).luaLockDepth = s.luaLockDepth := rfl

@[simp] lemma goto_pc (s : LuaLock T limit) (t : T) (pc : LuaLockPc) : (s.goto t pc).pc t = pc := by
  simp [LuaLock.goto]

/-- A thread goes to the place where it is. -/
lemma goto_self {s : LuaLock T limit} {t : T} {pc : LuaLockPc} (h : s.pc t = pc) :
    s.goto t pc = s := by
  rw [LuaLock.goto, ← h, Function.update_eq_self]

/-! ## The steps -/

section Calls

variable {s s' : LuaLock T limit} {t u : T}

/-- Locking is switched on. -/
lemma Mirror.enable (hs : s.Mirror t) : { s with luaLockingEnabled := true }.Mirror t := by
  refine ⟨hs.depth, hs.owned, fun hoff => hs.off fun hon => hoff ?_⟩
  simp only [On, luaLockingOn, Bool.and_eq_true] at hon ⊢
  exact ⟨hon.1, trivial⟩

/-- A function does something only behind its guard. -/
lemma Mirror.enter (hs : s.Mirror t) {pc : LuaLockPc}
    (h : (if s.lockInited && s.luaLockingOn then some (s.goto u pc) else some s) = some s') :
    s'.Mirror t := by
  split_ifs at h with hon
  · obtain rfl := Option.some.inj h
    exact hs.goto (Or.inl hon)
  · exact Option.some.inj h ▸ hs

/-- With locking off a counter is 0 as it is. -/
lemma Mirror.clear (hs : s.Mirror t) (hoff : ¬ s.On) :
    { s with luaLockDepth := Function.update s.luaLockDepth u 0 }.Mirror t := by
  have hsame : Function.update s.luaLockDepth u 0 = s.luaLockDepth := by
    rw [← (hs.off hoff u).1, Function.update_eq_self]
  rw [hsame]
  exact hs

/-- The mutex is set up before anything is locked. -/
lemma Mirror.setUp (hs : s.Mirror t) (hoff : ¬ s.On) :
    Mirror ({ s with
      lock := .free
      lockInited := true } : LuaLock T limit) t := by
  refine ⟨?_, hs.owned, fun _ v => ?_⟩
  · show (s.luaLockDepth t).toInt = (0 : ℕ)
    rw [(hs.off hoff t).1]
    rfl
  · obtain ⟨hdepth, -, hpc⟩ := hs.off hoff v
    exact ⟨hdepth, rfl, hpc⟩

/-- **No call touches a mutex that is held.** -/
lemma Mirror.begin (hs : s.Mirror t) {function : LuaLockCall}
    (h : s.begin u function = some s') : s'.Mirror t := by
  cases function with
  | luaLockEnable =>
      simp only [LuaLock.begin, Option.some.injEq] at h
      exact h ▸ hs.enable
  | lockMainState isNull | unLockMainState isNull =>
      simp only [LuaLock.begin] at h
      split_ifs at h with hnull hinit hon
      · exact Option.some.inj h ▸ hs
      · obtain rfl := Option.some.inj h
        exact hs.goto (Or.inl (by simp_all [On]))
      · exact Option.some.inj h ▸ hs
  | luaGlobalLock | luaGlobalUnlock | luaLockResumeAfterLoop depth => exact hs.enter h
  | luaLockSuspendForLoop => exact (hs.returning u _).enter h
  | luaLockDepthGet =>
      simp only [LuaLock.begin, Option.some.injEq] at h
      exact h ▸ hs.returning u _
  | luaLockDepthSet depth =>
      simp only [LuaLock.begin] at h
      split_ifs at h with hon
      · obtain rfl := Option.some.inj h
        exact hs.goto (Or.inl hon)
      · exact Option.some.inj h ▸ hs.clear hon
  | luaLockInitial =>
      simp only [LuaLock.begin] at h
      split_ifs at h with hinit
      · exact Option.some.inj h ▸ hs.setUp (by simp_all [On])
      · exact Option.some.inj h ▸ hs
  | luaLockFinalState =>
      simp only [LuaLock.begin] at h
      split_ifs at h with hinit hon
      · obtain rfl := Option.some.inj h
        exact hs.goto (Or.inl (by simp_all [On]))
      · exact Option.some.inj h ▸ hs

end Calls

/-- Who is inside a function has passed its guard. -/
lemma Mirror.on {s : LuaLock T limit} {t u : T} (hs : s.Mirror t) (hin : s.pc u ≠ .outside) :
    s.On := by
  by_contra hoff
  exact hin (hs.off hoff u).2.2

section Advance

variable [NeZero limit] {s s' : LuaLock T limit} {t u : T}

/-- **A thread in front of `pthread_mutex_lock`** locks once. -/
lemma advance_of_locks (hlocks : s.Locks t) (h : s.advance t = some s') :
    ∃ pc, (s.goto t pc).lockOnce t = some s' := by
  rcases hlocks with hpc | ⟨depth, hpc, hdepth⟩
  · simp only [LuaLock.advance, hpc] at h
    exact ⟨.outside, h⟩
  · simp only [LuaLock.advance, hpc, if_pos hdepth] at h
    exact ⟨.raising depth, by rwa [goto_self hpc]⟩

/-- **A thread elsewhere in a function** unlocks once, or goes on. -/
lemma advance_of_not_locks (hlocks : ¬ s.Locks t) (h : s.advance t = some s') :
    (0 < s.luaLockDepth t ∧ ∃ pc, s' = (s.goto t pc).unlockOnce t) ∨ ∃ pc, s' = s.goto t pc := by
  simp only [LuaLock.advance] at h
  cases hpc : s.pc t with
  | outside => simp [hpc] at h
  | locking => exact absurd (Or.inl hpc) hlocks
  | unlocking =>
      simp only [hpc] at h
      split_ifs at h with hdepth
      · exact Or.inr ⟨_, (Option.some.inj h).symm⟩
      · exact Or.inl ⟨Int32.not_le.mp hdepth, .outside, (Option.some.inj h).symm⟩
  | lowering depth | setting depth =>
      simp only [hpc] at h
      split_ifs at h with hdepth
      · refine Or.inl ⟨Int32.lt_of_le_of_lt depth.2 hdepth, s.pc t, ?_⟩
        rw [goto_self rfl, Option.some.inj h]
      · exact Or.inr ⟨_, (Option.some.inj h).symm⟩
  | raising depth =>
      simp only [hpc] at h
      split_ifs at h with hdepth
      · exact absurd (Or.inr ⟨depth, hpc, hdepth⟩) hlocks
      · exact Or.inr ⟨_, (Option.some.inj h).symm⟩

lemma advance_pc_ne (h : s.advance t = some s') : s.pc t ≠ .outside := by
  intro hpc
  simp [LuaLock.advance, hpc] at h

lemma Mirror.advance (hs : s.Mirror t) (hwithin : s.WithinLimit t (.advance u))
    (h : s.advance u = some s') : s'.Mirror t := by
  have hon := hs.on (advance_pc_ne h)
  by_cases hlocks : s.Locks u
  · obtain ⟨pc, hlock⟩ := advance_of_locks hlocks h
    have hgoto : (s.goto u pc).Mirror t := hs.goto (Or.inl hon)
    by_cases hu : t = u
    · subst hu
      exact hgoto.lockOnce hon (hwithin rfl hlocks) hlock
    · exact hgoto.lockOnce_of_ne hu hon hlock
  · rcases advance_of_not_locks hlocks h with ⟨hpos, pc, rfl⟩ | ⟨pc, rfl⟩
    · have hgoto : (s.goto u pc).Mirror t := hs.goto (Or.inl hon)
      by_cases hu : t = u
      · subst hu
        exact hgoto.unlockOnce hon hpos
      · exact hgoto.unlockOnce_of_ne hu hon
    · exact hs.goto (Or.inl hon)

/-- **Every step within the limit keeps the invariant.** -/
theorem Mirror.step {e : LuaLockEvent T} (hs : s.Mirror t) (hwithin : s.WithinLimit t e)
    (h : s.step e = some s') : s'.Mirror t := by
  cases e with
  | call u function =>
      simp only [LuaLock.step] at h
      split_ifs at h with hpc
      exact hs.begin h
  | advance u => exact hs.advance hwithin h

/-- **Every step beyond the limit breaks it.** -/
lemma withinLimit_of_step {e : LuaLockEvent T} (h : s.step e = some s')
    (hs : (s.luaLockDepth t).toInt = s.lock.countOf t)
    (hs' : (s'.luaLockDepth t).toInt = s'.lock.countOf t) : s.WithinLimit t e := by
  rintro rfl hlocks
  obtain ⟨pc, hlock⟩ := advance_of_locks hlocks h
  exact lt_of_lockOnce (s := s.goto t pc) hlock hs hs'

/-- **The loop that locks**, while no other thread owns the mutex: the counter goes up to the depth
that is asked for, and the mutex as far as it can. -/
lemma runFrom_raising {target : LuaLockTarget} (n : ℕ) :
    ∀ {s : LuaLock T limit}, s.pc t = .raising target →
      (s.luaLockDepth t).toInt + n = target.1.toInt → (∀ u, u ≠ t → s.lock.countOf u = 0) →
      ∃ s', (luaLock T limit).runFrom s (List.replicate (n + 1) (.advance t)) = some s'
        ∧ s'.pc t = .outside ∧ (s'.On ↔ s.On) ∧ s'.luaLockDepth t = target
        ∧ s'.lock.countOf t = min (s.lock.countOf t + n) limit := by
  induction n with
  | zero =>
      intro s hpc htarget _
      have hdepth : s.luaLockDepth t = target := Int32.toInt_inj.mp (by omega)
      have hraise : ¬ s.luaLockDepth t < target := hdepth ▸ Int32.lt_irrefl
      have hstep : (luaLock T limit).step s (.advance t) = some (s.goto t .outside) := by
        simp only [luaLock, LuaLock.step, LuaLock.advance, hpc]
        exact if_neg hraise
      have hle := s.lock.countOf_le t
      refine ⟨s.goto t .outside, ?_, goto_pc s t _, Iff.rfl, hdepth, (Nat.min_eq_left hle).symm⟩
      rw [List.replicate_one, Machine.runFrom, hstep]
      rfl
  | succ n ih =>
      intro s hpc htarget hfree
      obtain ⟨m, hm⟩ := RecursiveMutex.lock_isSome hfree
      have hcount := RecursiveMutex.countOf_lock hm
      have hmax := target.1.toInt_lt
      have hdepth : s.luaLockDepth t < target := Int32.lt_iff_toInt_lt.mpr (by omega)
      have hnext : (s.luaLockDepth t + 1).toInt = (s.luaLockDepth t).toInt + 1 :=
        toInt_add_one (by omega)
      have hstep : (luaLock T limit).step s (.advance t) = some { s with
          lock := m
          luaLockDepth := Function.update s.luaLockDepth t (s.luaLockDepth t + 1) } := by
        simp [luaLock, LuaLock.step, LuaLock.advance, hpc, hdepth, LuaLock.lockOnce, hm]
      obtain ⟨s', hrun, hpc', hon', hdepth', hcount'⟩ := ih (s := { s with
          lock := m
          luaLockDepth := Function.update s.luaLockDepth t (s.luaLockDepth t + 1) }) hpc
        (by simp only [Function.update_self, hnext]; omega)
        (fun u hu => by simp only [hcount, if_neg hu]; exact hfree u hu)
      simp only [hcount, if_true] at hcount'
      refine ⟨s', ?_, hpc', hon', hdepth', by omega⟩
      rw [List.replicate_succ, Machine.runFrom, hstep]
      exact hrun

end Advance

end LuaLock

variable {T : Type*} [DecidableEq T]

/-- **When the counters mirror the mutex.**  In every run, whatever the threads call and in
whatever order: the depth of each thread is the recursion count of the mutex if the thread owns it,
and 0 otherwise, and no thread calls `pthread_mutex_unlock` on a mutex that it does not own, exactly
if no thread calls `pthread_mutex_lock` at a depth that has come to the limit. -/
theorem depth_mirrors_mutex_iff (limit : ℕ) [NeZero limit] (es : List (LuaLockEvent T)) :
    (luaLock T limit).Along (fun _ _ s' =>
        (∀ t, (s'.luaLockDepth t).toInt = s'.lock.countOf t) ∧ s'.unlockErrors = []) es
      ↔ (luaLock T limit).Meets (fun s e => ∀ t, s.WithinLimit t e) es := by
  refine Machine.along_iff_meets (I := fun s => ∀ t, s.Mirror t) LuaLock.mirror_initial ?_ ?_ es
  · exact fun s e s' hs hstep hwithin t => (hs t).step (hwithin t) hstep
  · intro s e s' hs hstep
    constructor
    · rintro ⟨hdepth, -⟩ t
      exact LuaLock.withinLimit_of_step hstep (hs t).depth (hdepth t)
    · intro hwithin
      have hs' := fun t => (hs t).step (hwithin t) hstep
      exact ⟨fun t => (hs' t).depth,
        List.eq_nil_iff_forall_not_mem.mpr fun t => (hs' t).owned⟩

/-- The first thread locks in front of the switch and behind it; the second unlocks what it never
locked. -/
def lockedTwice : List (LuaLockEvent ℕ) :=
  [.call 0 .luaLockInitial, .call 0 (.lockMainState false), .call 0 .luaLockEnable,
    .call 0 (.lockMainState false), .advance 0, .call 1 .luaGlobalUnlock, .advance 1]

theorem lockedTwice_mirrored :
    (∃ s, (luaLock ℕ 65535).run lockedTwice = some s ∧ s.lock = .held 0 0)
      ∧ (luaLock ℕ 65535).Along (fun _ _ s' =>
          (∀ t, (s'.luaLockDepth t).toInt = s'.lock.countOf t) ∧ s'.unlockErrors = [])
        lockedTwice := by
  refine ⟨⟨_, rfl, rfl⟩, (depth_mirrors_mutex_iff 65535 lockedTwice).mpr ?_⟩
  simp [lockedTwice, Machine.Meets, Machine.Along, Machine.AlongFrom, luaLock, LuaLock.initial,
    LuaLock.step, LuaLock.begin, LuaLock.advance, LuaLock.luaLockingOn, LuaLock.goto,
    LuaLock.lockOnce, LuaLock.WithinLimit, RecursiveMutex.lock]

/-- The only thread sets its depth to one level more than the mutex of Darwin has. -/
def depthSetBeyondLimit : List (LuaLockEvent ℕ) :=
  [.call 0 .luaLockInitial, .call 0 .luaLockEnable, .call 0 (.luaLockDepthSet 65536), .advance 0]
    ++ List.replicate 65537 (.advance 0)

lemma depthSetBeyondLimit_run :
    ∃ s, (luaLock ℕ 65535).run depthSetBeyondLimit = some s ∧ s.pc 0 = .outside ∧ s.On
      ∧ s.luaLockDepth 0 = 65536 ∧ s.lock.countOf 0 = 65535 := by
  obtain ⟨s, hrun, hpc, hon, hdepth, hfree⟩ : ∃ s, (luaLock ℕ 65535).run [.call 0 .luaLockInitial,
      .call 0 .luaLockEnable, .call 0 (.luaLockDepthSet 65536), .advance 0] = some s
        ∧ s.pc 0 = .raising (notNegative 65536) ∧ s.On ∧ s.luaLockDepth 0 = 0
        ∧ s.lock = .free := ⟨_, rfl, rfl, rfl, rfl, rfl⟩
  obtain ⟨s', hrest, hpc', hon', hdepth', hcount'⟩ := LuaLock.runFrom_raising 65536 hpc
    (by rw [hdepth]; decide) (fun u _ => by rw [hfree]; rfl)
  refine ⟨s', ?_, hpc', hon'.mpr hon, hdepth', ?_⟩
  · rw [depthSetBeyondLimit, Machine.run_append hrun, hrest]
  · rw [hcount', hfree]
    rfl

/-- **Beyond the limit.**  The last `pthread_mutex_lock` of `LuaLockDepthSet` fails, and is
counted. -/
theorem depthSet_beyond_limit :
    ∃ s, (luaLock ℕ 65535).run depthSetBeyondLimit = some s ∧ s.luaLockDepth 0 = 65536
      ∧ s.lock.countOf 0 = 65535 := by
  obtain ⟨s, hrun, -, -, hdepth, hcount⟩ := depthSetBeyondLimit_run
  exact ⟨s, hrun, hdepth, hcount⟩

end Luan
