import Luan.LuaLock.Mirror
import Mathlib.Data.Int.Notation

/-!
# Releasing the lock and taking it back

`LuaLockSuspendForLoop` gives up all levels of the lock in front of the blocking event loop, and
`LuaLockResumeAfterLoop` takes them back.  `LuaLockDepthGet` and `LuaLockDepthSet` do the same
around code that a `longjmp` may leave with too many levels or too few.

* `LuaLock.CallReturned` — a thread calls a function and is back from it, whatever the other threads
  have done meanwhile.
* `LuaLock.Heading` — the invariant inside of these functions: the depth that is aimed at lies ahead
  of each loop, and is reached where the thread returns.
* `LuaLock.remaining` — how many steps of its own a thread is away from its return.
* `luaLock_save_restore` — what is released and what is restored, by a thread that has stayed within
  the limit of the mutex.
* `suspend_resume` — what is restored beyond it.
-/

namespace Luan

/-- The thread that takes the step. -/
def LuaLockEvent.thread {T : Type*} : LuaLockEvent T → T
  | .call t _ => t
  | .advance t => t

namespace LuaLock

variable {T : Type*} [DecidableEq T] {limit : ℕ} {s s' : LuaLock T limit} {t : T}

/-! ## The contract -/

/-- From `s`, the thread calls the function, and in `s'` it has returned and called nothing
since. -/
def CallReturned [NeZero limit] (t : T) (function : LuaLockCall) (s s' : LuaLock T limit) : Prop :=
  ∃ es, (∀ e ∈ es, e = .advance t ∨ e.thread ≠ t)
    ∧ (luaLock T limit).runFrom s (.call t function :: es) = some s' ∧ s'.pc t = .outside

/-- The thread does not own the mutex, and if no third thread does, any other one gets it. -/
structure LeavesFree [NeZero limit] (t : T) (s : LuaLock T limit) : Prop where
  depth : s.luaLockDepth t = 0
  count : s.lock.countOf t = 0
  grants : ∀ u, (∀ v, v ≠ u → v ≠ t → s.lock.countOf v = 0) → ∃ m, s.lock.lock u = some m

/-- Counter and mutex say that the thread is this deep in the lock. -/
structure IsDeep (t : T) (s : LuaLock T limit) (d : ℤ) : Prop where
  depth : (s.luaLockDepth t).toInt = d
  count : (s.lock.countOf t : ℤ) = d

/-! ## What a thread does inside of a function -/

/-- Place and depth of a thread before and after a step of its own. -/
inductive OwnStep : LuaLockPc → ℤ → LuaLockPc → ℤ → Prop
  /-- the counter may go round -/
  | lock {d d' : ℤ} : OwnStep .locking d .outside d'
  | skip {d : ℤ} (h : d ≤ 0) : OwnStep .unlocking d .outside d
  | unlock {d : ℤ} (h : 0 < d) : OwnStep .unlocking d .outside (d - 1)
  | lower {k : LuaLockTarget} {d : ℤ} (h : k.1.toInt < d) :
      OwnStep (.lowering k) d (.lowering k) (d - 1)
  | lowered {k : LuaLockTarget} {d : ℤ} (h : d ≤ k.1.toInt) : OwnStep (.lowering k) d .outside d
  | raise {k : LuaLockTarget} {d : ℤ} (h : d < k.1.toInt) :
      OwnStep (.raising k) d (.raising k) (d + 1)
  | raised {k : LuaLockTarget} {d : ℤ} (h : k.1.toInt ≤ d) : OwnStep (.raising k) d .outside d
  | drop {k : LuaLockTarget} {d : ℤ} (h : k.1.toInt < d) :
      OwnStep (.setting k) d (.setting k) (d - 1)
  | dropped {k : LuaLockTarget} {d : ℤ} (h : d ≤ k.1.toInt) : OwnStep (.setting k) d (.raising k) d

@[simp] lemma unlockOnce_pc : (s.unlockOnce t).pc = s.pc := by
  simp only [unlockOnce]
  split <;> rfl

@[simp] lemma unlockOnce_returned : (s.unlockOnce t).returned = s.returned := by
  simp only [unlockOnce]
  split <;> rfl

@[simp] lemma unlockOnce_depth :
    (s.unlockOnce t).luaLockDepth = Function.update s.luaLockDepth t (s.luaLockDepth t - 1) := by
  simp only [unlockOnce]
  split <;> rfl

/-- Above a depth that is not negative the counter does not go round. -/
lemma unlockOnce_depth_toInt (k : LuaLockTarget) (h : k < s.luaLockDepth t) :
    ((s.unlockOnce t).luaLockDepth t).toInt = (s.luaLockDepth t).toInt - 1 := by
  have hle := Int32.le_iff_toInt_le.mp k.2
  have hlt := Int32.lt_iff_toInt_lt.mp h
  have hzero : (0 : Int32).toInt = 0 := rfl
  rw [unlockOnce_depth, Function.update_self, toInt_sub_one (by omega)]

lemma lockOnce_fields [NeZero limit] (h : s.lockOnce t = some s') :
    s'.pc = s.pc ∧ s'.returned = s.returned
      ∧ s'.luaLockDepth = Function.update s.luaLockDepth t (s.luaLockDepth t + 1) := by
  obtain ⟨m, -, rfl⟩ := lockOnce_eq h
  exact ⟨rfl, rfl, rfl⟩

/-- **A step inside of a function.** -/
lemma advance_ownStep [NeZero limit] (h : s.advance t = some s') :
    OwnStep (s.pc t) (s.luaLockDepth t).toInt (s'.pc t) (s'.luaLockDepth t).toInt := by
  simp only [advance] at h
  cases hpc : s.pc t with
  | outside => simp [hpc] at h
  | locking =>
      rw [hpc] at h
      obtain ⟨hpc', -, -⟩ := lockOnce_fields h
      rw [hpc', goto_pc]
      exact .lock
  | unlocking =>
      simp only [hpc] at h
      split_ifs at h with hdepth <;> obtain rfl := Option.some.inj h
      · rw [goto_pc, goto_depth]
        exact .skip (Int32.le_iff_toInt_le.mp hdepth)
      · have hpos := Int32.not_le.mp hdepth
        have hdepth' := unlockOnce_depth_toInt (s := s.goto t .outside) (notNegative 0) hpos
        rw [unlockOnce_pc, goto_pc, hdepth', goto_depth]
        exact .unlock (Int32.lt_iff_toInt_lt.mp hpos)
  | lowering k =>
      simp only [hpc] at h
      split_ifs at h with hdepth <;> obtain rfl := Option.some.inj h
      · rw [unlockOnce_pc, unlockOnce_depth_toInt k hdepth, hpc]
        exact .lower (Int32.lt_iff_toInt_lt.mp hdepth)
      · rw [goto_pc, goto_depth]
        exact .lowered (Int32.le_iff_toInt_le.mp (Int32.not_lt.mp hdepth))
  | raising k =>
      simp only [hpc] at h
      split_ifs at h with hdepth
      · obtain ⟨hpc', -, hdepth'⟩ := lockOnce_fields h
        have hlt := Int32.lt_iff_toInt_lt.mp hdepth
        have hmax := k.1.toInt_lt
        rw [hpc', hdepth', Function.update_self, hpc, toInt_add_one (by omega)]
        exact .raise hlt
      · obtain rfl := Option.some.inj h
        rw [goto_pc, goto_depth]
        exact .raised (Int32.le_iff_toInt_le.mp (Int32.not_lt.mp hdepth))
  | setting k =>
      simp only [hpc] at h
      split_ifs at h with hdepth <;> obtain rfl := Option.some.inj h
      · rw [unlockOnce_pc, unlockOnce_depth_toInt k hdepth, hpc]
        exact .drop (Int32.lt_iff_toInt_lt.mp hdepth)
      · rw [goto_pc, goto_depth]
        exact .dropped (Int32.le_iff_toInt_le.mp (Int32.not_lt.mp hdepth))

/-- The depth that a thread's function is to end with lies ahead of it. -/
def Heading (d : ℤ) : LuaLockPc → ℤ → Prop
  | .outside, x => x = d
  | .lowering k, x => k.1.toInt = d ∧ d ≤ x
  | .raising k, x => k.1.toInt = d ∧ x ≤ d
  | .setting k, _ => k.1.toInt = d
  | _, _ => False

/-- How many steps of its own a thread is away from its return. -/
def remaining : LuaLockPc → ℤ → ℕ
  | .outside, _ => 0
  | .locking, _ | .unlocking, _ => 1
  | .lowering k, x => (x - k.1.toInt).toNat + 1
  | .raising k, x => (k.1.toInt - x).toNat + 1
  | .setting k, x => (x - k.1.toInt).toNat + (k.1.toInt - x).toNat + 2

/-- **Every step of its own brings a thread nearer to its return.** -/
lemma OwnStep.remaining {pc pc' : LuaLockPc} {x x' : ℤ} (h : OwnStep pc x pc' x') :
    remaining pc' x' + 1 = remaining pc x := by
  cases h <;> simp only [LuaLock.remaining] <;> omega

/-- **The depth that is aimed at stays ahead.** -/
lemma OwnStep.heading {pc pc' : LuaLockPc} {x x' d : ℤ} (h : OwnStep pc x pc' x')
    (hd : Heading d pc x) : Heading d pc' x' := by
  cases h with
  | lock | skip | unlock => exact hd.elim
  | lower h => exact ⟨hd.1, by have := hd.1; omega⟩
  | lowered h => exact Int.le_antisymm (by have := hd.1; omega) hd.2
  | raise h => exact ⟨hd.1, by have := hd.1; omega⟩
  | raised h => exact Int.le_antisymm hd.2 (by have := hd.1; omega)
  | drop => exact hd
  | dropped h => exact ⟨hd, by rw [← show (_ : ℤ) = d from hd]; exact h⟩

/-! ## What other threads leave alone -/

/-- The thread's own variables are the same. -/
structure SameFor (t : T) (s s' : LuaLock T limit) : Prop where
  depth : s'.luaLockDepth t = s.luaLockDepth t
  pc : s'.pc t = s.pc t
  returned : s'.returned t = s.returned t

omit [DecidableEq T] in
lemma SameFor.refl (t : T) (s : LuaLock T limit) : SameFor t s s := ⟨rfl, rfl, rfl⟩

section Other

variable {u : T}

lemma sameFor_goto (hu : t ≠ u) (s : LuaLock T limit) (pc : LuaLockPc) :
    SameFor t s (s.goto u pc) :=
  ⟨rfl, Function.update_of_ne hu _ _, rfl⟩

lemma sameFor_returning (hu : t ≠ u) (s : LuaLock T limit) (value : Int32) :
    SameFor t s (s.returning u value) :=
  ⟨rfl, rfl, Function.update_of_ne hu _ _⟩

lemma sameFor_unlockOnce (hu : t ≠ u) (s : LuaLock T limit) : SameFor t s (s.unlockOnce u) := by
  refine ⟨?_, by rw [unlockOnce_pc], by rw [unlockOnce_returned]⟩
  rw [unlockOnce_depth, Function.update_of_ne hu]

lemma sameFor_lockOnce [NeZero limit] (hu : t ≠ u) (h : s.lockOnce u = some s') :
    SameFor t s s' := by
  obtain ⟨hpc, hreturned, hdepth⟩ := lockOnce_fields h
  refine ⟨?_, by rw [hpc], by rw [hreturned]⟩
  rw [hdepth, Function.update_of_ne hu]

omit [DecidableEq T] in
lemma SameFor.trans {s₁ s₂ s₃ : LuaLock T limit} (h : SameFor t s₁ s₂) (h' : SameFor t s₂ s₃) :
    SameFor t s₁ s₃ :=
  ⟨h'.depth.trans h.depth, h'.pc.trans h.pc, h'.returned.trans h.returned⟩

lemma sameFor_begin (hu : t ≠ u) {function : LuaLockCall} (h : s.begin u function = some s') :
    SameFor t s s' := by
  have hsame := SameFor.refl t s
  cases function with
  | luaLockEnable =>
      obtain rfl := Option.some.inj h
      exact ⟨rfl, rfl, rfl⟩
  | lockMainState isNull | unLockMainState isNull =>
      simp only [LuaLock.begin] at h
      split_ifs at h <;> obtain rfl := Option.some.inj h
      · exact hsame
      · exact sameFor_goto hu s _
      · exact hsame
  | luaGlobalLock | luaGlobalUnlock | luaLockResumeAfterLoop depth =>
      simp only [LuaLock.begin] at h
      split_ifs at h <;> obtain rfl := Option.some.inj h
      · exact sameFor_goto hu s _
      · exact hsame
  | luaLockSuspendForLoop =>
      simp only [LuaLock.begin] at h
      split_ifs at h <;> obtain rfl := Option.some.inj h
      · exact (sameFor_returning hu s _).trans (sameFor_goto hu _ _)
      · exact sameFor_returning hu s _
  | luaLockDepthGet =>
      obtain rfl := Option.some.inj h
      exact sameFor_returning hu s _
  | luaLockDepthSet depth =>
      simp only [LuaLock.begin] at h
      split_ifs at h <;> obtain rfl := Option.some.inj h
      · exact sameFor_goto hu s _
      · exact ⟨Function.update_of_ne hu _ _, rfl, rfl⟩
  | luaLockInitial =>
      simp only [LuaLock.begin] at h
      split_ifs at h <;> obtain rfl := Option.some.inj h
      · exact ⟨rfl, rfl, rfl⟩
      · exact hsame
  | luaLockFinalState =>
      simp only [LuaLock.begin] at h
      split_ifs at h <;> obtain rfl := Option.some.inj h
      · exact sameFor_goto hu s _
      · exact hsame

lemma sameFor_advance [NeZero limit] (hu : t ≠ u) (h : s.advance u = some s') : SameFor t s s' := by
  simp only [LuaLock.advance] at h
  cases hpc : s.pc u with
  | outside => simp [hpc] at h
  | locking =>
      rw [hpc] at h
      exact (sameFor_goto hu s _).trans (sameFor_lockOnce hu h)
  | unlocking =>
      simp only [hpc] at h
      split_ifs at h <;> obtain rfl := Option.some.inj h
      · exact sameFor_goto hu s _
      · exact (sameFor_goto hu s _).trans (sameFor_unlockOnce hu _)
  | lowering k | setting k =>
      simp only [hpc] at h
      split_ifs at h <;> obtain rfl := Option.some.inj h
      · exact sameFor_unlockOnce hu s
      · exact sameFor_goto hu s _
  | raising k =>
      simp only [hpc] at h
      split_ifs at h
      · exact sameFor_lockOnce hu h
      · obtain rfl := Option.some.inj h
        exact sameFor_goto hu s _

/-- **A step of another thread leaves the thread's variables alone.** -/
lemma sameFor_step [NeZero limit] {e : LuaLockEvent T} (he : e.thread ≠ t)
    (h : s.step e = some s') : SameFor t s s' := by
  cases e with
  | call u function =>
      simp only [LuaLock.step] at h
      split_ifs at h
      exact sameFor_begin (Ne.symm he) h
  | advance u => exact sameFor_advance (Ne.symm he) h

end Other

/-- Nothing that a thread does inside of a function changes what its last call has returned. -/
lemma advance_returned [NeZero limit] (h : s.advance t = some s') : s'.returned = s.returned := by
  simp only [advance] at h
  cases hpc : s.pc t with
  | outside => simp [hpc] at h
  | locking =>
      rw [hpc] at h
      exact (lockOnce_fields h).2.1
  | unlocking | lowering k | setting k =>
      simp only [hpc] at h
      split_ifs at h <;> obtain rfl := Option.some.inj h <;> simp [goto]
  | raising k =>
      simp only [hpc] at h
      split_ifs at h
      · exact (lockOnce_fields h).2.1
      · obtain rfl := Option.some.inj h
        rfl

lemma On.unlockOnce (hs : s.On) : (s.unlockOnce t).On := by
  simp only [LuaLock.unlockOnce]
  split
  · exact hs
  · exact hs

lemma On.begin {function : LuaLockCall} (hs : s.On) (h : s.begin t function = some s') :
    s'.On := by
  cases function with
  | luaLockEnable =>
      obtain rfl := Option.some.inj h
      simp only [On, luaLockingOn, Bool.and_eq_true] at hs ⊢
      exact ⟨hs.1, trivial⟩
  | luaLockDepthGet => exact Option.some.inj h ▸ hs
  | luaLockInitial =>
      simp only [LuaLock.begin] at h
      split_ifs at h with hinit
      · simp [On] at hs hinit
        simp [hinit] at hs
      · exact Option.some.inj h ▸ hs
  | _ =>
      simp only [LuaLock.begin] at h
      split_ifs at h <;> exact Option.some.inj h ▸ hs

lemma On.advance [NeZero limit] (hs : s.On) (h : s.advance t = some s') : s'.On := by
  simp only [LuaLock.advance] at h
  cases hpc : s.pc t with
  | outside => simp [hpc] at h
  | locking =>
      rw [hpc] at h
      obtain ⟨m, -, rfl⟩ := lockOnce_eq h
      exact hs
  | unlocking =>
      simp only [hpc] at h
      split_ifs at h <;> obtain rfl := Option.some.inj h
      · exact hs
      · exact On.unlockOnce (s := s.goto t .outside) hs
  | lowering k | setting k =>
      simp only [hpc] at h
      split_ifs at h <;> obtain rfl := Option.some.inj h
      · exact hs.unlockOnce
      · exact hs
  | raising k =>
      simp only [hpc] at h
      split_ifs at h
      · obtain ⟨m, -, rfl⟩ := lockOnce_eq h
        exact hs
      · obtain rfl := Option.some.inj h
        exact hs

/-- **Locking is never turned off.** -/
lemma On.step [NeZero limit] {e : LuaLockEvent T} (hs : s.On) (h : s.step e = some s') : s'.On := by
  cases e with
  | call u function =>
      simp only [LuaLock.step] at h
      split_ifs at h
      exact hs.begin h
  | advance u => exact hs.advance h

lemma On.runFrom [NeZero limit] {es : List (LuaLockEvent T)} (hs : s.On)
    (h : (luaLock T limit).runFrom s es = some s') : s'.On :=
  Machine.runFrom_invariant (fun _ _ _ hs (_ : True) hstep => hs.step hstep) hs
    (fun _ _ => trivial) h

/-! ## Calls of one thread -/

/-- What holds while a thread is inside of such a function, and behind it. -/
structure Inside (t : T) (d : ℤ) (value : Int32) (s : LuaLock T limit) : Prop where
  mirror : s.Mirror t
  bound : d ≤ min limit 2147483647
  heading : Heading d (s.pc t) (s.luaLockDepth t).toInt
  returned : s.returned t = value

/-- **A thread that heads for a depth within the limit stays within the limit.** -/
lemma Inside.withinLimit {d : ℤ} {value : Int32} (hs : Inside t d value s) (e : LuaLockEvent T) :
    s.WithinLimit t e := by
  have hheading := hs.heading
  have hbound := hs.bound
  rintro - (hpc | ⟨k, hpc, hdepth⟩)
  · rw [hpc] at hheading
    exact hheading.elim
  · rw [hpc] at hheading
    have hlt := Int32.lt_iff_toInt_lt.mp hdepth
    have hk := hheading.1
    omega

/-- **No step of a thread that calls nothing and no step of another one leads off the way.** -/
lemma Inside.step [NeZero limit] {d : ℤ} {value : Int32} {e : LuaLockEvent T}
    (hs : Inside t d value s) (he : e = .advance t ∨ e.thread ≠ t) (h : s.step e = some s') :
    Inside t d value s' := by
  refine ⟨hs.mirror.step (hs.withinLimit e) h, hs.bound, ?_, ?_⟩
  · rcases he with rfl | he
    · exact (advance_ownStep h).heading hs.heading
    · obtain ⟨hdepth, hpc, -⟩ := sameFor_step he h
      rw [hdepth, hpc]
      exact hs.heading
  · rcases he with rfl | he
    · rw [advance_returned h]
      exact hs.returned
    · rw [(sameFor_step he h).returned]
      exact hs.returned

/-- From the call of a function to any state in which the thread is back. -/
lemma Inside.of_callReturned [NeZero limit] {function : LuaLockCall} {d : ℤ} {value : Int32}
    (hbegin : ∀ mid, s.pc t = .outside → s.begin t function = some mid → Inside t d value mid)
    (h : CallReturned t function s s') : Inside t d value s' ∧ (s'.luaLockDepth t).toInt = d := by
  obtain ⟨es, hes, hrun, hback⟩ := h
  obtain ⟨mid, hstep, hrest⟩ := Machine.runFrom_cons hrun
  have hcall : s.step (.call t function) = some mid := hstep
  simp only [LuaLock.step] at hcall
  split_ifs at hcall with hpc
  have hinside : Inside t d value s' :=
    Machine.runFrom_invariant (fun _ _ _ hs he hstep => hs.step he hstep) (hbegin mid hpc hcall)
      hes hrest
  have hheading := hinside.heading
  rw [hback] at hheading
  exact ⟨hinside, hheading⟩

/-- Behind its return, counter and mutex say the depth that was aimed at. -/
lemma Inside.isDeep {d : ℤ} {value : Int32} (hs : Inside t d value s)
    (hdepth : (s.luaLockDepth t).toInt = d) :
    IsDeep t s d :=
  ⟨hdepth, by rw [← hs.mirror.depth, hdepth]⟩

section Begin

variable {mid : LuaLock T limit}

lemma Mirror.depth_nonneg (hs : s.Mirror t) : 0 ≤ (s.luaLockDepth t).toInt := by
  rw [hs.depth]
  exact Int.natCast_nonneg _

lemma Mirror.depth_of_off (hs : s.Mirror t) (hoff : ¬ s.On) : s.luaLockDepth t = 0 :=
  (hs.off hoff t).1

/-- A depth that mirrors the mutex is within the limit. -/
lemma Mirror.depth_le (hs : s.Mirror t) : (s.luaLockDepth t).toInt ≤ min limit 2147483647 := by
  have hle := s.lock.countOf_le t
  have hlt := (s.luaLockDepth t).toInt_lt
  have hdepth := hs.depth
  omega

/-- A depth that is not negative is the one that is headed for. -/
lemma notNegative_of_nonneg {depth : Int32} (h : 0 ≤ depth.toInt) :
    (notNegative depth).1 = depth := by
  have hle : 0 ≤ depth := Int32.le_iff_toInt_le.mpr h
  rw [notNegative, dif_neg (Int32.not_lt.mpr hle)]

/-- The suspending loop goes down to 0. -/
lemma inside_suspend (hs : s.Mirror t) (hpc : s.pc t = .outside)
    (h : s.begin t .luaLockSuspendForLoop = some mid) : Inside t 0 (s.luaLockDepth t) mid := by
  have hmirror := hs.begin h
  simp only [LuaLock.begin] at h
  split_ifs at h with hon <;> obtain rfl := Option.some.inj h
  · refine ⟨hmirror, by omega, ?_, by simp [returning, goto]⟩
    rw [goto_pc]
    exact ⟨rfl, hs.depth_nonneg⟩
  · refine ⟨hmirror, by omega, ?_, by simp [returning]⟩
    show Heading 0 (s.pc t) (s.luaLockDepth t).toInt
    rw [hpc, hs.depth_of_off hon]
    exact rfl

/-- The resuming loop goes up to the depth that is asked for. -/
lemma inside_resume {depth : Int32} (hs : s.Mirror t) (hpc : s.pc t = .outside)
    (hbound : depth.toInt ≤ min limit 2147483647)
    (hdepth : (s.luaLockDepth t).toInt ≤ depth.toInt) (hoff : ¬ s.On → depth = 0)
    (h : s.begin t (.luaLockResumeAfterLoop depth) = some mid) :
    Inside t depth.toInt (s.returned t) mid := by
  have hmirror := hs.begin h
  have hnonneg := hs.depth_nonneg
  simp only [LuaLock.begin] at h
  split_ifs at h with hon <;> obtain rfl := Option.some.inj h
  · refine ⟨hmirror, hbound, ?_, rfl⟩
    rw [goto_pc]
    exact ⟨by rw [notNegative_of_nonneg (by omega)], hdepth⟩
  · refine ⟨hmirror, hbound, ?_, rfl⟩
    rw [hpc, hs.depth_of_off hon, hoff hon]
    exact rfl

lemma inside_get (hs : s.Mirror t) (hpc : s.pc t = .outside)
    (h : s.begin t .luaLockDepthGet = some mid) :
    Inside t (s.luaLockDepth t).toInt (s.luaLockDepth t) mid := by
  have hmirror := hs.begin h
  obtain rfl := Option.some.inj h
  refine ⟨hmirror, hs.depth_le, ?_, by simp [returning]⟩
  show Heading _ (s.pc t) (s.luaLockDepth t).toInt
  rw [hpc]
  exact rfl

/-- The two loops of `LuaLockDepthSet` end with the depth that is asked for, wherever they begin. -/
lemma inside_set {depth : Int32} (hs : s.Mirror t) (hpc : s.pc t = .outside)
    (hbound : depth.toInt ≤ min limit 2147483647) (hnonneg : 0 ≤ depth.toInt)
    (hoff : ¬ s.On → depth = 0) (h : s.begin t (.luaLockDepthSet depth) = some mid) :
    Inside t depth.toInt (s.returned t) mid := by
  have hmirror := hs.begin h
  simp only [LuaLock.begin] at h
  split_ifs at h with hon <;> obtain rfl := Option.some.inj h
  · refine ⟨hmirror, hbound, ?_, rfl⟩
    rw [goto_pc]
    exact congrArg Int32.toInt (notNegative_of_nonneg hnonneg)
  · refine ⟨hmirror, hbound, ?_, rfl⟩
    show Heading _ (s.pc t) (Function.update s.luaLockDepth t 0 t).toInt
    rw [hpc, Function.update_self, hoff hon]
    exact rfl

end Begin

section Return

variable {value : Int32}

/-- Behind the suspending loop any other thread gets the mutex. -/
lemma LeavesFree.of_inside [NeZero limit] (hs : Inside t 0 value s)
    (hdepth : (s.luaLockDepth t).toInt = 0) : LeavesFree t s := by
  have hcount : s.lock.countOf t = 0 := by
    have hdeep := (hs.isDeep hdepth).count
    omega
  refine ⟨Int32.toInt_inj.mp hdepth, hcount, fun u hothers =>
    RecursiveMutex.lock_isSome fun v hv => ?_⟩
  by_cases hvt : v = t
  · rw [hvt, hcount]
  · exact hothers v hv hvt

/-- **What is taken back**, from anywhere below it. -/
lemma isDeep_of_resume [NeZero limit] {depth : Int32} (hs : s.Mirror t)
    (hbound : depth.toInt ≤ min limit 2147483647)
    (hdepth : (s.luaLockDepth t).toInt ≤ depth.toInt) (hoff : ¬ s.On → depth = 0)
    (h : CallReturned t (.luaLockResumeAfterLoop depth) s s') : IsDeep t s' depth.toInt := by
  obtain ⟨hinside, hreached⟩ :=
    Inside.of_callReturned (fun _ hpc => inside_resume hs hpc hbound hdepth hoff) h
  exact hinside.isDeep hreached

/-- **What is set**, from anywhere. -/
lemma isDeep_of_set [NeZero limit] {depth : Int32} (hs : s.Mirror t)
    (hbound : depth.toInt ≤ min limit 2147483647) (hnonneg : 0 ≤ depth.toInt)
    (hoff : ¬ s.On → depth = 0) (h : CallReturned t (.luaLockDepthSet depth) s s') :
    IsDeep t s' depth.toInt := by
  obtain ⟨hinside, hreached⟩ :=
    Inside.of_callReturned (fun _ hpc => inside_set hs hpc hbound hnonneg hoff) h
  exact hinside.isDeep hreached

end Return

/-- A thread inside of a function can go on if no other one owns the mutex. -/
lemma advance_isSome [NeZero limit] (hin : s.pc t ≠ .outside)
    (hfree : ∀ u, u ≠ t → s.lock.countOf u = 0) : ∃ s', s.advance t = some s' := by
  have hlock : ∀ l : LuaLock T limit, l.lock = s.lock → ∃ l', l.lockOnce t = some l' := by
    intro l hl
    obtain ⟨m, hm⟩ := RecursiveMutex.lock_isSome hfree
    cases hl' : l.lockOnce t with
    | none => simp [LuaLock.lockOnce, hl, hm] at hl'
    | some l' => exact ⟨l', rfl⟩
  simp only [LuaLock.advance]
  cases hpc : s.pc t with
  | outside => exact absurd hpc hin
  | locking => exact hlock _ rfl
  | unlocking | lowering k | setting k =>
      simp only
      split_ifs <;> exact ⟨_, rfl⟩
  | raising k =>
      simp only
      split_ifs
      · exact hlock s rfl
      · exact ⟨_, rfl⟩

/-! ## Beyond the limit -/

/-- What `pthread_mutex_unlock` does to the counts, whether the mutex is the thread's or not. -/
lemma countOf_unlockOnce (s : LuaLock T limit) (t u : T) :
    (s.unlockOnce t).lock.countOf u = if u = t then s.lock.countOf t - 1 else s.lock.countOf u := by
  simp only [unlockOnce]
  cases hm : s.lock.unlock t with
  | some m => exact RecursiveMutex.countOf_unlock hm u
  | none =>
      have hzero : s.lock.countOf t = 0 := by
        by_contra hne
        obtain ⟨m, hm'⟩ := RecursiveMutex.unlock_isSome (Nat.pos_of_ne_zero hne)
        simp [hm] at hm'
      by_cases hu : u = t
      · simp [hu, hzero]
      · simp [hu]

/-- **The loop that unlocks**: the counter goes down to the depth that is asked for, and the mutex
with it as far as it was locked. -/
lemma runFrom_lowering [NeZero limit] {target : LuaLockTarget} (n : ℕ) :
    ∀ {s : LuaLock T limit}, s.pc t = .lowering target →
      (s.luaLockDepth t).toInt = target.1.toInt + n →
      ∃ s', (luaLock T limit).runFrom s (List.replicate (n + 1) (.advance t)) = some s'
        ∧ s'.pc t = .outside ∧ s'.luaLockDepth t = target ∧ s'.returned = s.returned
        ∧ (s'.On ↔ s.On)
        ∧ ∀ u, s'.lock.countOf u = if u = t then s.lock.countOf t - n else s.lock.countOf u := by
  induction n with
  | zero =>
      intro s hpc htarget
      have hdepth : s.luaLockDepth t = target := Int32.toInt_inj.mp (by omega)
      have hlower : ¬ target < s.luaLockDepth t := hdepth ▸ Int32.lt_irrefl
      have hstep : (luaLock T limit).step s (.advance t) = some (s.goto t .outside) := by
        simp only [luaLock, LuaLock.step, LuaLock.advance, hpc]
        exact if_neg hlower
      refine ⟨s.goto t .outside, ?_, goto_pc s t _, hdepth, rfl, Iff.rfl, fun u => ?_⟩
      · rw [List.replicate_one, Machine.runFrom, hstep]
        rfl
      · split
        case isTrue hu => rw [hu]; rfl
        case isFalse => rfl
  | succ n ih =>
      intro s hpc htarget
      have hdepth : target < s.luaLockDepth t := Int32.lt_iff_toInt_lt.mpr (by omega)
      have hstep : (luaLock T limit).step s (.advance t) = some (s.unlockOnce t) := by
        simp [luaLock, LuaLock.step, LuaLock.advance, hpc, hdepth]
      have hnext := unlockOnce_depth_toInt target hdepth
      obtain ⟨s', hrun, hpc', hdepth', hreturned, hon, hcount⟩ :=
        ih (s := s.unlockOnce t) (by rw [unlockOnce_pc, hpc]) (by omega)
      refine ⟨s', ?_, hpc', hdepth', by rw [hreturned, unlockOnce_returned],
        hon.trans (unlockOnce_on t), fun u => ?_⟩
      · rw [List.replicate_succ, Machine.runFrom, hstep]
        exact hrun
      · rw [hcount, countOf_unlockOnce, countOf_unlockOnce, if_pos rfl]
        split
        · omega
        · rfl

/-- **What the round trip restores** if nobody else takes part: the counter, and as many levels of
the mutex as it has. -/
lemma suspend_resume [NeZero limit] {s : LuaLock T limit} (hon : s.On) (hpc : s.pc t = .outside)
    (hdepth : 0 ≤ (s.luaLockDepth t).toInt)
    (hcount : (s.lock.countOf t : ℤ) ≤ (s.luaLockDepth t).toInt)
    (hfree : ∀ u, u ≠ t → s.lock.countOf u = 0) :
    ∃ s₁ s₂, CallReturned t .luaLockSuspendForLoop s s₁ ∧ s₁.returned t = s.luaLockDepth t
      ∧ CallReturned t (.luaLockResumeAfterLoop (s₁.returned t)) s₁ s₂
      ∧ s₂.luaLockDepth t = s.luaLockDepth t
      ∧ s₂.lock.countOf t = min (s.luaLockDepth t).toInt.toNat limit := by
  obtain ⟨n, hn⟩ := Int.eq_ofNat_of_zero_le hdepth
  have hsuspend : (luaLock T limit).step s (.call t .luaLockSuspendForLoop)
      = some ((s.returning t (s.luaLockDepth t)).goto t (.lowering (notNegative 0))) := by
    have hon' : (s.lockInited && (s.returning t (s.luaLockDepth t)).luaLockingOn) = true := hon
    simp only [luaLock, LuaLock.step, if_pos hpc, LuaLock.begin]
    exact if_pos hon'
  obtain ⟨s₁, hrun₁, hpc₁, hdepth₁, hreturned₁, hon₁, hcount₁⟩ := runFrom_lowering n
    (s := (s.returning t (s.luaLockDepth t)).goto t (.lowering (notNegative 0)))
    (goto_pc _ t _) (by rw [goto_depth]; exact hn.trans (Int.zero_add _).symm)
  have hvalue : s₁.returned t = s.luaLockDepth t := by
    rw [hreturned₁]
    exact Function.update_self t _ _
  have hresume : (luaLock T limit).step s₁ (.call t (.luaLockResumeAfterLoop (s₁.returned t)))
      = some (s₁.goto t (.raising (notNegative (s₁.returned t)))) := by
    simp only [luaLock, LuaLock.step, if_pos hpc₁, LuaLock.begin]
    exact if_pos (hon₁.mpr hon)
  have htarget : (notNegative (s₁.returned t)).1 = s.luaLockDepth t := by
    rw [hvalue, notNegative_of_nonneg hdepth]
  obtain ⟨s₂, hrun₂, hpc₂, -, hdepth₂, hcount₂⟩ := runFrom_raising n
    (s := s₁.goto t (.raising (notNegative (s₁.returned t)))) (goto_pc _ t _)
    (by rw [goto_depth, hdepth₁, htarget, hn]; exact Int.zero_add _)
    (fun u hu => by
      have hothers := hcount₁ u
      rw [if_neg hu] at hothers
      exact hothers.trans (hfree u hu))
  have hzero : s₁.lock.countOf t = 0 := by
    have hown := hcount₁ t
    rw [if_pos rfl] at hown
    have hle : s.lock.countOf t ≤ n := by omega
    exact hown.trans (Nat.sub_eq_zero_of_le hle)
  have hadvance : ∀ e ∈ List.replicate (n + 1) (LuaLockEvent.advance t),
      e = .advance t ∨ e.thread ≠ t :=
    fun e he => Or.inl (List.eq_of_mem_replicate he)
  refine ⟨s₁, s₂, ⟨_, hadvance, ?_, hpc₁⟩, hvalue, ⟨_, hadvance, ?_, hpc₂⟩,
    hdepth₂.trans htarget, ?_⟩
  · rw [Machine.runFrom, hsuspend]
    exact hrun₁
  · rw [Machine.runFrom, hresume]
    exact hrun₂
  · have hsame : (s₁.goto t (.raising (notNegative (s₁.returned t)))).lock.countOf t = 0 := hzero
    rw [hcount₂, hsame, hn, Nat.zero_add]
    rfl

end LuaLock

open LuaLock

variable {T : Type*} [DecidableEq T] {limit : ℕ} [NeZero limit]

/-- **Releasing the lock and taking it back**, in every state that is reached by a run in which the
thread calls `pthread_mutex_lock` only while its depth is below the limit of the mutex, for every
interleaving of what the other threads do.

What `LuaLockSuspendForLoop` returns is the thread's depth.  Behind it the thread does not own the
mutex, and `LuaLockResumeAfterLoop` leaves the thread as deep in the lock as it was.
`LuaLockDepthSet` does the same for the depth that `LuaLockDepthGet` returned, whatever the thread
and the others have called in between.  Inside of these functions a thread waits for nothing but
another owner of the mutex, and every step brings it nearer to its return. -/
theorem luaLock_save_restore {es : List (LuaLockEvent T)} {s : LuaLock T limit}
    (h : (luaLock T limit).run es = some s) (t : T)
    (hwithin : (luaLock T limit).Meets (WithinLimit t) es) :
    (∀ s₁, CallReturned t .luaLockSuspendForLoop s s₁ →
        s₁.returned t = s.luaLockDepth t ∧ LeavesFree t s₁
          ∧ ∀ s₂, CallReturned t (.luaLockResumeAfterLoop (s₁.returned t)) s₁ s₂ →
              IsDeep t s₂ (s₁.returned t).toInt)
      ∧ (∀ s₁, CallReturned t .luaLockDepthGet s s₁ →
          s₁.returned t = s.luaLockDepth t
            ∧ ∀ between s₂ s₃, (luaLock T limit).runFrom s₁ between = some s₂ →
                (luaLock T limit).AlongFrom (fun s e _ => s.WithinLimit t e) s₁ between →
                CallReturned t (.luaLockDepthSet (s₁.returned t)) s₂ s₃ →
                IsDeep t s₃ (s₁.returned t).toInt)
      ∧ (s.pc t ≠ .outside → (∀ u, u ≠ t → s.lock.countOf u = 0) →
          ∃ s', s.step (.advance t) = some s'
            ∧ remaining (s'.pc t) (s'.luaLockDepth t).toInt
              < remaining (s.pc t) (s.luaLockDepth t).toInt) := by
  have hkeep : ∀ (s : LuaLock T limit) e s', s.Mirror t → (luaLock T limit).step s e = some s' →
      s.WithinLimit t e → s'.Mirror t :=
    fun _ _ _ hs hstep hwithin => hs.step hwithin hstep
  have hs : s.Mirror t := Machine.invariant_of_meets (mirror_initial t) hkeep h hwithin
  have hbound := hs.depth_le
  have hnonneg := hs.depth_nonneg
  refine ⟨fun s₁ hsuspend => ?_, fun s₁ hget => ?_, fun hin hfree => ?_⟩
  · obtain ⟨hinside, hdepth⟩ := Inside.of_callReturned (fun _ => inside_suspend hs) hsuspend
    refine ⟨hinside.returned, LeavesFree.of_inside hinside hdepth, fun s₂ hresume => ?_⟩
    rw [hinside.returned] at hresume ⊢
    refine isDeep_of_resume hinside.mirror hbound (by omega) (fun hoff => ?_) hresume
    refine hs.depth_of_off fun hon => hoff ?_
    obtain ⟨es', -, hrun, -⟩ := hsuspend
    exact hon.runFrom hrun
  · obtain ⟨hinside, hdepth⟩ := Inside.of_callReturned (fun _ => inside_get hs) hget
    refine ⟨hinside.returned, fun between s₂ s₃ hbetween hwithin' hset => ?_⟩
    have hs₂ : s₂.Mirror t :=
      Machine.runFrom_invariant_of_meets hkeep hinside.mirror hbetween hwithin'
    rw [hinside.returned] at hset ⊢
    refine isDeep_of_set hs₂ hbound hnonneg (fun hoff => ?_) hset
    have hzero := hinside.mirror.depth_of_off fun hon => hoff (hon.runFrom hbetween)
    rw [← Int32.toInt_inj, ← hdepth, hzero]
  · obtain ⟨s', hadvance⟩ := advance_isSome hin hfree
    have hless := (advance_ownStep hadvance).remaining
    exact ⟨s', hadvance, by omega⟩

/-- The first thread locks twice. -/
def nestedTwice : List (LuaLockEvent ℕ) :=
  [.call 0 .luaLockInitial, .call 0 .luaLockEnable, .call 0 (.lockMainState false), .advance 0,
    .call 0 (.lockMainState false), .advance 0]

/-- It gives up both levels, the second thread locks and unlocks, and it takes them back. -/
theorem luaLock_save_restore_nestedTwice :
    ∃ s s₁ s₂, (luaLock ℕ 65535).run nestedTwice = some s
      ∧ CallReturned 0 .luaLockSuspendForLoop s s₁ ∧ s₁.returned 0 = 2 ∧ LeavesFree 0 s₁
      ∧ CallReturned 0 (.luaLockResumeAfterLoop (s₁.returned 0)) s₁ s₂
      ∧ IsDeep 0 s₂ (s₁.returned 0).toInt := by
  obtain ⟨s, s₁, s₂, hrun, hsuspend, htwo, hresume⟩ : ∃ s s₁ s₂,
      (luaLock ℕ 65535).run nestedTwice = some s ∧ CallReturned 0 .luaLockSuspendForLoop s s₁
        ∧ s₁.returned 0 = 2 ∧ CallReturned 0 (.luaLockResumeAfterLoop (s₁.returned 0)) s₁ s₂ :=
    ⟨_, _, _, rfl,
      ⟨[.advance 0, .advance 0, .advance 0, .call 1 .luaGlobalLock, .advance 1,
        .call 1 .luaGlobalUnlock, .advance 1], by decide, rfl, rfl⟩, rfl,
      ⟨[.advance 0, .advance 0, .advance 0], by decide, rfl, rfl⟩⟩
  have hwithin : (luaLock ℕ 65535).Meets (WithinLimit 0) nestedTwice := by
    simp [nestedTwice, Machine.Meets, Machine.Along, Machine.AlongFrom, luaLock, initial,
      LuaLock.step, LuaLock.begin, LuaLock.advance, luaLockingOn, goto, lockOnce, WithinLimit,
      RecursiveMutex.lock]
  obtain ⟨-, hfree, hrestored⟩ := (luaLock_save_restore hrun 0 hwithin).1 s₁ hsuspend
  exact ⟨s, s₁, s₂, hrun, hsuspend, htwo, hfree, hresume, hrestored s₂ hresume⟩

/-- **One level too many.**  The only thread has locked one level deeper than the mutex of Darwin
goes.  It gives up all levels and takes them back, and the mutex is not as deep as the counter. -/
theorem suspend_resume_beyond_limit :
    ∃ s s₁ s₂, (luaLock ℕ 65535).run depthSetBeyondLimit = some s
      ∧ CallReturned 0 .luaLockSuspendForLoop s s₁ ∧ s₁.returned 0 = 65536
      ∧ CallReturned 0 (.luaLockResumeAfterLoop (s₁.returned 0)) s₁ s₂
      ∧ ¬ IsDeep 0 s₂ (s₁.returned 0).toInt := by
  obtain ⟨s, hrun, hpc, hon, hdepth, hcount⟩ := depthSetBeyondLimit_run
  have hfree : ∀ u, u ≠ 0 → s.lock.countOf u = 0 := fun u hu => by
    by_contra hne
    exact hu (RecursiveMutex.countOf_exclusive (Nat.pos_of_ne_zero hne) (by omega))
  obtain ⟨s₁, s₂, hsuspend, hreturned, hresume, -, hcount₂⟩ := suspend_resume hon hpc
    (by rw [hdepth]; decide) (by rw [hdepth, hcount]; decide) hfree
  rw [hdepth] at hreturned hcount₂
  refine ⟨s, s₁, s₂, hrun, hsuspend, hreturned, hresume, fun hdeep => ?_⟩
  have hcount := hdeep.count
  rw [hcount₂, hreturned] at hcount
  exact absurd hcount (by decide)

end Luan
