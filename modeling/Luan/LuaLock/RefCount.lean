import Luan.Core.CRun
import Luan.Core.Machine
import Mathlib.Data.Finset.Basic
import Mathlib.Data.Multiset.AddSub

/-!
# References to a Lua state

`incrRef` and `decrRef` of `luauser.c` with locking on.  Any number of threads own references to
one `lua_State`; the number of references is kept in its `StateData` record, in an `int` that goes
round.

* `RefCounted` — the record, the references, and the threads that have left the locked section of
  `decrRef` but have not come to its test `sd->count <= 0` yet.
* `RefCounted.Orderly` — `lua_close` is called once, when no reference is left, and no `decrRef`
  reads the record afterwards.
* `lua_close_orderly` — that is so if no other thread is in front of the test when a thread finds
  the count at zero, and there are never more references than an `int` can count.  In runs in which
  every `decrRef` ends, it is so only if the first holds.
-/

namespace Luan

structure RefCounted (T : Type*) where
  /-- `sd->count` -/
  count : Int32
  /-- the references, each given by the thread that owns it -/
  refs : Multiset T
  /-- the threads in `decrRef`, between the unlock and the test -/
  testing : Finset T
  /-- how often `lua_close` has been called; the first call frees the record -/
  closes : ℕ
  deriving DecidableEq

inductive RefEvent (T : Type*)
  /-- `incrRef`, up to the unlock -/
  | incrRef (t : T)
  /-- `decrRef`, up to the unlock -/
  | decrRef (t : T)
  /-- the rest of `decrRef`.  What it reads from a record that has been freed is arbitrary. -/
  | test (t : T) (freed : Int32)
  deriving DecidableEq, Repr

namespace RefCounted

variable {T : Type*} [DecidableEq T]

def initial (refs : Multiset T) : RefCounted T where
  count := Int32.ofNat refs.card
  refs := refs
  testing := ∅
  closes := 0

/-- `sd->count`, as `decrRef` reads it behind the unlock. -/
def readCount (s : RefCounted T) (freed : Int32) : Int32 := if s.closes = 0 then s.count else freed

/-- `if (sd->count <= 0) lua_close(L)` -/
def closeIfUnused (s : RefCounted T) (count : Int32) : RefCounted T :=
  if count ≤ 0 then { s with closes := s.closes + 1 } else s

def step (s : RefCounted T) : RefEvent T → Option (RefCounted T)
  | .incrRef t =>
      if t ∈ s.refs ∧ t ∉ s.testing then some { s with
        count := s.count + 1
        refs := t ::ₘ s.refs }
      else none
  | .decrRef t =>
      if t ∈ s.refs ∧ t ∉ s.testing then some { s with
        count := s.count - 1
        refs := s.refs.erase t
        testing := insert t s.testing }
      else none
  | .test t freed =>
      if t ∈ s.testing then
        some ({ s with testing := s.testing.erase t }.closeIfUnused (s.readCount freed))
      else none

end RefCounted

/-- The threads that own references, given by how many each of them owns at first. -/
def refCounting {T : Type*} [DecidableEq T] (refs : Multiset T) :
    Machine (RefCounted T) (RefEvent T) where
  init := .initial refs
  step := RefCounted.step

namespace RefCounted

variable {T : Type*} [DecidableEq T]

/-- **A reference count that is kept in order.** -/
structure Orderly (s : RefCounted T) (e : RefEvent T) (s' : RefCounted T) : Prop where
  once : s'.closes ≤ 1
  unused : s.closes < s'.closes → s.refs = 0
  alive : ∀ t freed, e = .decrRef t ∨ e = .test t freed → s.closes = 0

/-- A thread that comes to the test with the count at zero is the only one in front of the test. -/
def LastTest (s : RefCounted T) (e : RefEvent T) : Prop :=
  ∀ t freed, e = .test t freed → s.count ≤ 0 → s.testing = {t}

/-- Another reference is taken only if the count is below the largest `int`. -/
def WithinInt (s : RefCounted T) (e : RefEvent T) : Prop :=
  ∀ t, e = .incrRef t → s.count.toInt < 2147483647

/-! ## The condition is enough -/

/-- **The invariant** of the runs that meet the condition. -/
structure Balanced (s : RefCounted T) : Prop where
  count : s.count.toInt = s.refs.card
  once : s.closes ≤ 1
  closed : s.closes ≠ 0 → s.refs = 0 ∧ s.testing = ∅

lemma balanced_initial {T : Type*} {refs : Multiset T} (hrefs : refs.card < 2147483648) :
    Balanced (initial refs) where
  count := (toInt_ofNat_eq_iff refs.card).mpr hrefs
  once := Nat.zero_le 1
  closed h := absurd rfl h

/-- Who takes part owns a reference or is in front of the test, so the state is not closed yet. -/
lemma Balanced.alive {T : Type*} {s : RefCounted T} (hs : s.Balanced) {t : T}
    (h : t ∈ s.refs ∨ t ∈ s.testing) : s.closes = 0 := by
  by_contra hne
  obtain ⟨hrefs, htesting⟩ := hs.closed hne
  simp [hrefs, htesting] at h

/-- **One step**: the invariant is kept, and the step is in order. -/
lemma Balanced.step {s s' : RefCounted T} (hs : s.Balanced) {e : RefEvent T}
    (h : s.step e = some s') (hlast : s.LastTest e) (hint : s.WithinInt e) :
    s'.Balanced ∧ s.Orderly e s' := by
  cases e with
  | incrRef t =>
      simp only [RefCounted.step] at h
      split_ifs at h with ht
      obtain rfl := Option.some.inj h
      have halive := hs.alive (Or.inl ht.1)
      refine ⟨⟨?_, hs.once, fun hne => absurd halive hne⟩, ⟨hs.once, ?_, fun _ _ _ => halive⟩⟩
      · show (s.count + 1).toInt = (t ::ₘ s.refs).card
        rw [toInt_add_one (hint t rfl), hs.count, Multiset.card_cons]
        rfl
      · simp
  | decrRef t =>
      simp only [RefCounted.step] at h
      split_ifs at h with ht
      obtain rfl := Option.some.inj h
      have halive := hs.alive (Or.inl ht.1)
      refine ⟨⟨?_, hs.once, fun hne => absurd halive hne⟩, ⟨hs.once, ?_, fun _ _ _ => halive⟩⟩
      · have hcard := Multiset.card_erase_add_one ht.1
        have hcount := hs.count
        show (s.count - 1).toInt = (s.refs.erase t).card
        rw [toInt_sub_one (by omega)]
        omega
      · simp
  | test t freed =>
      simp only [RefCounted.step] at h
      split_ifs at h with ht
      obtain rfl := Option.some.inj h
      have halive := hs.alive (Or.inr ht)
      have hread : s.readCount freed = s.count := by simp [readCount, halive]
      simp only [hread, closeIfUnused]
      split_ifs with hcount
      · -- the thread closes the state; nobody is left who could do anything
        have hrefs : s.refs = 0 := by
          have hle : s.count.toInt ≤ 0 := Int32.le_iff_toInt_le.mp hcount
          have hcard := hs.count
          rw [← Multiset.card_eq_zero]
          omega
        have htesting := hlast t freed rfl hcount
        refine ⟨⟨hs.count, by simp [halive], fun _ => ⟨hrefs, ?_⟩⟩,
          ⟨by simp [halive], fun _ => hrefs, fun _ _ _ => halive⟩⟩
        simp [htesting]
      · exact ⟨⟨hs.count, hs.once, fun hne => absurd halive hne⟩,
          ⟨hs.once, by simp, fun _ _ _ => halive⟩⟩

/-! ## The condition is needed -/

/-- Once the state is closed, a thread in front of the test cannot come to it in order. -/
lemma testing_stays {u : T} {refs : Multiset T} :
    ∀ (es : List (RefEvent T)) {s s' : RefCounted T}, s.closes ≠ 0 → u ∈ s.testing →
      (refCounting refs).AlongFrom Orderly s es → (refCounting refs).runFrom s es = some s' →
      u ∈ s'.testing := by
  intro es
  induction es with
  | nil =>
      intro s s' _ hu _ hrun
      exact Option.some.inj hrun ▸ hu
  | cons e es ih =>
      intro s s' hclosed hu halong hrun
      obtain ⟨mid, hstep, hrest⟩ := Machine.runFrom_cons hrun
      obtain ⟨horderly, halong'⟩ := (Machine.alongFrom_cons hstep).mp halong
      cases e with
      | incrRef t =>
          simp only [refCounting, RefCounted.step] at hstep
          split_ifs at hstep
          obtain rfl := Option.some.inj hstep
          exact ih (by simpa using hclosed) (by simpa using hu) halong' hrest
      | decrRef t => exact absurd (horderly.alive t 0 (Or.inl rfl)) hclosed
      | test t freed => exact absurd (horderly.alive t freed (Or.inr rfl)) hclosed

/-- **A run in order that leaves nobody in front of the test** meets the condition. -/
lemma meets_of_along {refs : Multiset T} :
    ∀ (es : List (RefEvent T)) {s s' : RefCounted T},
      (refCounting refs).AlongFrom Orderly s es → (refCounting refs).runFrom s es = some s' →
      s'.testing = ∅ → (refCounting refs).AlongFrom (fun s e _ => s.LastTest e) s es := by
  intro es
  induction es with
  | nil => exact fun _ _ _ => trivial
  | cons e es ih =>
      intro s s' halong hrun hend
      obtain ⟨mid, hstep, hrest⟩ := Machine.runFrom_cons hrun
      obtain ⟨horderly, halong'⟩ := (Machine.alongFrom_cons hstep).mp halong
      refine (Machine.alongFrom_cons hstep).mpr ⟨?_, ih halong' hrest hend⟩
      rintro t freed rfl hcount
      by_contra hne
      have halive := horderly.alive t freed (Or.inr rfl)
      simp only [refCounting, RefCounted.step, readCount, halive, if_true, closeIfUnused,
        hcount] at hstep
      split_ifs at hstep with ht
      obtain rfl := Option.some.inj hstep
      -- another thread is in front of the test, and is left there
      obtain ⟨u, hu, hut⟩ : ∃ u ∈ s.testing, u ≠ t := by
        by_contra hall
        push Not at hall
        exact hne (Finset.eq_singleton_iff_unique_mem.mpr ⟨ht, hall⟩)
      have hleft := testing_stays es (by simp) (Finset.mem_erase.mpr ⟨hut, hu⟩) halong' hrest
      simp [hend] at hleft

end RefCounted

variable {T : Type*} [DecidableEq T]

/-- **When `lua_close` is called in order**: once, with no reference left, and with no `decrRef`
reading the record afterwards.  It is in every run in which a thread that finds the count at zero
is the only one between the unlock and the test of `decrRef`, and in which the references never
become more than an `int` can count; a run in which every `decrRef` comes to its end has to meet the
first of these. -/
theorem lua_close_orderly (refs : Multiset T) (es : List (RefEvent T)) :
    (refs.card < 2147483648 →
        (refCounting refs).Meets (fun s e => s.LastTest e ∧ s.WithinInt e) es →
        (refCounting refs).Along RefCounted.Orderly es)
      ∧ ∀ s, (refCounting refs).run es = some s → s.testing = ∅ →
        (refCounting refs).Along RefCounted.Orderly es →
        (refCounting refs).Meets RefCounted.LastTest es := by
  constructor
  · intro hrefs hmeets
    exact Machine.along_of_meets (RefCounted.balanced_initial hrefs)
      (fun _ _ _ hs hstep hcond => (hs.step hstep hcond.1 hcond.2).1)
      (fun _ _ _ hs hstep hcond => (hs.step hstep hcond.1 hcond.2).2) hmeets
  · intro s hrun hend halong
    exact RefCounted.meets_of_along es halong hrun hend

/-- **Two last references.**  Both threads take their reference off the count before either of
them tests it: the state is closed twice, the second time on the word of a freed record. -/
theorem lua_close_twice :
    ¬ ∀ (refs : Multiset ℕ) (es : List (RefEvent ℕ)),
      (refCounting refs).Along RefCounted.Orderly es := by
  intro h
  have halong := h {0, 1} ([.decrRef 0, .decrRef 1, .test 0 0] ++ [.test 1 0])
  have hlast := Machine.along_concat halong rfl rfl
  exact absurd hlast.once (by decide)

end Luan
