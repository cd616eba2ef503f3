import Mathlib.Data.List.Basic
import Mathlib.Logic.Function.Basic
import Mathlib.Tactic.Common

/-!
# Locks on open files

`open`, `fcntl(F_SETFD)`, `flock`, `close`, and what a new process inherits.  A lock belongs to an
open file description, not to a process or to a descriptor: it lasts until it is given back, or
until no descriptor of any process refers to the description.

* `OpenFiles.tryLock` — `LOCK_EX | LOCK_NB`; it is undefined where the call fails with
  `EWOULDBLOCK`.
* `OpenFiles.reap` — what the kernel does where descriptors go away.
* `OpenFiles.Sound` — a lock has a descriptor that refers to its description, and no operation
  changes that.
-/

namespace Luan

/-- A descriptor of a process, and the description that it refers to. -/
structure Descriptor (P File : Type*) where
  process : P
  number : ℕ
  description : ℕ
  file : File
  cloexec : Bool

/-- The kernel's tables.  `next` is the description of the next file that is opened. -/
structure OpenFiles (P File : Type*) where
  descriptors : List (Descriptor P File)
  owner : File → Option ℕ
  next : ℕ

namespace OpenFiles

variable {P File : Type*}

/-! ## Operations -/

def empty : OpenFiles P File := ⟨[], fun _ => none, 0⟩

section Operations

variable [DecidableEq P] [DecidableEq File]

/-- The descriptor of a process under a number. -/
def find (k : OpenFiles P File) (p : P) (n : ℕ) : Option (Descriptor P File) :=
  k.descriptors.find? fun e => e.process = p ∧ e.number = n

/-- A lock is gone with the last descriptor of its description. -/
def reap (k : OpenFiles P File) : OpenFiles P File :=
  { k with owner := fun f => (k.owner f).filter fun d => k.descriptors.any (·.description = d) }

/-- `open` -/
def openFile (k : OpenFiles P File) (p : P) (n : ℕ) (f : File) : OpenFiles P File :=
  { k with
    descriptors := ⟨p, n, k.next, f, false⟩ :: k.descriptors
    next := k.next + 1 }

/-- `fcntl(fd, F_SETFD, FD_CLOEXEC)` -/
def setCloexec (k : OpenFiles P File) (p : P) (n : ℕ) : OpenFiles P File :=
  { k with descriptors := k.descriptors.map fun e =>
      if e.process = p ∧ e.number = n then { e with cloexec := true } else e }

/-- `flock(fd, LOCK_EX | LOCK_NB)` -/
def tryLock (k : OpenFiles P File) (e : Descriptor P File) : Option (OpenFiles P File) :=
  match k.owner e.file with
  | none => some { k with owner := Function.update k.owner e.file (some e.description) }
  | some d => if d = e.description then some k else none

/-- `flock(fd, LOCK_UN)` -/
def unlock (k : OpenFiles P File) (e : Descriptor P File) : OpenFiles P File :=
  if k.owner e.file = some e.description then
    { k with owner := Function.update k.owner e.file none }
  else k

/-- `close` -/
def close (k : OpenFiles P File) (p : P) (n : ℕ) : OpenFiles P File :=
  reap { k with descriptors := k.descriptors.filter fun e => ¬ (e.process = p ∧ e.number = n) }

/-- The end of a process, whatever ends it. -/
def exit (k : OpenFiles P File) (p : P) : OpenFiles P File :=
  reap { k with descriptors := k.descriptors.filter fun e => e.process ≠ p }

/-- A new process inherits the descriptors that are not closed on `exec`. -/
def spawn (k : OpenFiles P File) (p q : P) : OpenFiles P File :=
  let inherited := k.descriptors.filter fun e => e.process = p ∧ e.cloexec = false
  { k with descriptors := k.descriptors ++ inherited.map fun e => { e with process := q } }

end Operations

/-! ## What the operations do -/

variable {k k' : OpenFiles P File} {p q : P} {n : ℕ} {f : File} {e e' : Descriptor P File}

/-- The tables make sense: descriptions are numbered, each is of one file, and a lock has a
descriptor. -/
structure Sound (k : OpenFiles P File) : Prop where
  lt : ∀ e ∈ k.descriptors, e.description < k.next
  file : ∀ e ∈ k.descriptors, ∀ e' ∈ k.descriptors, e.description = e'.description →
    e.file = e'.file
  live : ∀ f d, k.owner f = some d → ∃ e ∈ k.descriptors, e.description = d ∧ e.file = f

@[simp]
lemma reap_descriptors : k.reap.descriptors = k.descriptors := rfl

@[simp]
lemma reap_next : k.reap.next = k.next := rfl

/-- What is locked behind the kernel's clearing up. -/
lemma reap_owner {d : ℕ} : k.reap.owner f = some d
    ↔ k.owner f = some d ∧ ∃ e ∈ k.descriptors, e.description = d := by
  simp [reap, Option.filter_eq_some_iff]

lemma mem_openFile : e ∈ (k.openFile p n f).descriptors
    ↔ e = ⟨p, n, k.next, f, false⟩ ∨ e ∈ k.descriptors := List.mem_cons

section Members

variable [DecidableEq P]

lemma mem_close : e ∈ (k.close p n).descriptors
    ↔ e ∈ k.descriptors ∧ ¬ (e.process = p ∧ e.number = n) := by
  simp only [close, reap_descriptors, List.mem_filter, decide_eq_true_eq]

lemma mem_exit : e ∈ (k.exit p).descriptors ↔ e ∈ k.descriptors ∧ e.process ≠ p := by
  simp only [exit, reap_descriptors, List.mem_filter, decide_eq_true_eq]

lemma mem_setCloexec : e ∈ (k.setCloexec p n).descriptors
    ↔ (e ∈ k.descriptors ∧ ¬ (e.process = p ∧ e.number = n)) ∨ ∃ e' ∈ k.descriptors,
      (e'.process = p ∧ e'.number = n) ∧ e = { e' with cloexec := true } := by
  rw [setCloexec, List.mem_map]
  constructor
  · rintro ⟨e', he', rfl⟩
    split_ifs with hsame
    · exact Or.inr ⟨e', he', hsame, rfl⟩
    · exact Or.inl ⟨he', hsame⟩
  · rintro (⟨he, hsame⟩ | ⟨e', he', hsame, rfl⟩)
    · exact ⟨e, he, if_neg hsame⟩
    · exact ⟨e', he', if_pos hsame⟩

lemma mem_spawn : e ∈ (k.spawn p q).descriptors
    ↔ e ∈ k.descriptors ∨ ∃ e' ∈ k.descriptors,
      (e'.process = p ∧ e'.cloexec = false) ∧ e = { e' with process := q } := by
  simp only [spawn, List.mem_append, List.mem_map, List.mem_filter, decide_eq_true_eq]
  constructor
  · rintro (he | ⟨e', ⟨he', hsame⟩, rfl⟩)
    · exact Or.inl he
    · exact Or.inr ⟨e', he', hsame, rfl⟩
  · rintro (he | ⟨e', he', hsame, rfl⟩)
    · exact Or.inl he
    · exact Or.inr ⟨e', ⟨he', hsame⟩, rfl⟩

lemma mem_find (h : k.find p n = some e) :
    e ∈ k.descriptors ∧ e.process = p ∧ e.number = n := by
  have hp := List.find?_some h
  simp only [decide_eq_true_eq] at hp
  exact ⟨List.mem_of_find?_eq_some h, hp⟩

end Members

section Locks

variable [DecidableEq File]

/-- **The lock is given if nobody has it, or to the description that has it.** -/
lemma tryLock_eq_none : k.tryLock e = none ↔ ∃ d, k.owner e.file = some d ∧ d ≠ e.description := by
  rw [tryLock]
  cases howner : k.owner e.file with
  | none => simp
  | some d =>
      simp only [Option.some.injEq, exists_eq_left']
      split_ifs with hd <;> simp [hd]

lemma tryLock_some (h : k.tryLock e = some k') :
    k' = { k with owner := Function.update k.owner e.file (some e.description) }
      ∧ ∀ d, k.owner e.file = some d → d = e.description := by
  rw [tryLock] at h
  cases howner : k.owner e.file with
  | none =>
      rw [howner] at h
      cases h
      exact ⟨rfl, fun d hd => absurd hd (by simp)⟩
  | some d =>
      rw [howner] at h
      simp only at h
      split_ifs at h with hd
      cases h
      subst hd
      refine ⟨?_, fun d' hd' => (Option.some.inj hd').symm⟩
      rw [← howner, Function.update_eq_self]

lemma unlock_owner {d : ℕ} : (k.unlock e).owner f = some d
    ↔ k.owner f = some d ∧ ¬ (f = e.file ∧ d = e.description) := by
  rw [unlock]
  split_ifs with howner
  · by_cases hf : f = e.file
    · subst hf
      simp [howner, eq_comm]
    · simp [hf]
  · constructor
    · intro h
      refine ⟨h, ?_⟩
      rintro ⟨rfl, rfl⟩
      exact howner h
    · exact fun h => h.1

@[simp]
lemma unlock_descriptors : (k.unlock e).descriptors = k.descriptors := by
  rw [unlock]
  split_ifs <;> rfl

@[simp]
lemma unlock_next : (k.unlock e).next = k.next := by
  rw [unlock]
  split_ifs <;> rfl

end Locks

/-! ## The operations are sound -/

namespace Sound

lemma empty : (OpenFiles.empty : OpenFiles P File).Sound := by
  refine ⟨?_, ?_, ?_⟩ <;> simp [OpenFiles.empty]

/-- Descriptors that go away take their locks along. -/
lemma reap (hlt : ∀ e ∈ k.descriptors, e.description < k.next)
    (hfile : ∀ e ∈ k.descriptors, ∀ e' ∈ k.descriptors, e.description = e'.description →
      e.file = e'.file)
    (hlive : ∀ f d, k.owner f = some d → ∀ e ∈ k.descriptors, e.description = d → e.file = f) :
    k.reap.Sound := by
  refine ⟨hlt, hfile, fun f d howner => ?_⟩
  obtain ⟨hold, e, he, hd⟩ := reap_owner.mp howner
  exact ⟨e, he, hd, hlive f d hold e he hd⟩

lemma filter (h : k.Sound) (keep : Descriptor P File → Bool) :
    (OpenFiles.reap { k with descriptors := k.descriptors.filter keep }).Sound := by
  refine reap (fun e he => h.lt e (List.mem_of_mem_filter he))
    (fun e he e' he' => h.file e (List.mem_of_mem_filter he) e' (List.mem_of_mem_filter he'))
    fun f d howner e he hd => ?_
  obtain ⟨e', he', hd', rfl⟩ := h.live f d howner
  exact h.file e (List.mem_of_mem_filter he) e' he' (hd.trans hd'.symm)

lemma close [DecidableEq P] (h : k.Sound) : (k.close p n).Sound := h.filter _

lemma exit [DecidableEq P] (h : k.Sound) : (k.exit p).Sound := h.filter _

lemma openFile (h : k.Sound) : (k.openFile p n f).Sound := by
  refine ⟨fun e he => ?_, fun e he e' he' hd => ?_, fun f d howner => ?_⟩
  · rcases mem_openFile.mp he with rfl | hold
    · exact Nat.lt_succ_self _
    · exact Nat.lt_succ_of_lt (h.lt e hold)
  · rcases mem_openFile.mp he with rfl | hold <;> rcases mem_openFile.mp he' with rfl | hold'
    · rfl
    · exact absurd hd (Nat.ne_of_gt (h.lt e' hold'))
    · exact absurd hd (Nat.ne_of_lt (h.lt e hold))
    · exact h.file e hold e' hold' hd
  · obtain ⟨e, he, hd⟩ := h.live f d howner
    exact ⟨e, mem_openFile.mpr (Or.inr he), hd⟩

/-- Descriptors that are changed or copied keep their descriptions and their files. -/
lemma copies (h : k.Sound) (hnext : k'.next = k.next) (howner : k'.owner = k.owner)
    (hold : ∀ e ∈ k'.descriptors, ∃ c ∈ k.descriptors,
      c.description = e.description ∧ c.file = e.file)
    (hnew : ∀ c ∈ k.descriptors, ∃ e ∈ k'.descriptors,
      e.description = c.description ∧ e.file = c.file) : k'.Sound := by
  refine ⟨fun e he => ?_, fun e he e' he' hd => ?_, fun f d hlock => ?_⟩
  · obtain ⟨c, hc, hcd, -⟩ := hold e he
    rw [← hcd, hnext]
    exact h.lt c hc
  · obtain ⟨c, hc, hcd, hcf⟩ := hold e he
    obtain ⟨c', hc', hcd', hcf'⟩ := hold e' he'
    rw [← hcf, ← hcf']
    exact h.file c hc c' hc' (by rw [hcd, hcd', hd])
  · rw [howner] at hlock
    obtain ⟨c, hc, rfl, rfl⟩ := h.live f d hlock
    exact hnew c hc

lemma setCloexec [DecidableEq P] (h : k.Sound) : (k.setCloexec p n).Sound := by
  refine h.copies rfl rfl (fun e he => ?_) fun c hc => ?_
  · rcases mem_setCloexec.mp he with ⟨he, -⟩ | ⟨c, hc, -, rfl⟩
    · exact ⟨e, he, rfl, rfl⟩
    · exact ⟨c, hc, rfl, rfl⟩
  · by_cases hsame : c.process = p ∧ c.number = n
    · exact ⟨_, mem_setCloexec.mpr (Or.inr ⟨c, hc, hsame, rfl⟩), rfl, rfl⟩
    · exact ⟨c, mem_setCloexec.mpr (Or.inl ⟨hc, hsame⟩), rfl, rfl⟩

lemma spawn [DecidableEq P] (h : k.Sound) : (k.spawn p q).Sound := by
  refine h.copies rfl rfl (fun e he => ?_) fun c hc => ⟨c, mem_spawn.mpr (Or.inl hc), rfl, rfl⟩
  rcases mem_spawn.mp he with he | ⟨c, hc, -, rfl⟩
  · exact ⟨e, he, rfl, rfl⟩
  · exact ⟨c, hc, rfl, rfl⟩

lemma tryLock [DecidableEq File] (h : k.Sound) (he : e ∈ k.descriptors)
    (hlock : k.tryLock e = some k') : k'.Sound := by
  obtain ⟨rfl, -⟩ := tryLock_some hlock
  refine ⟨h.lt, h.file, fun f d howner => ?_⟩
  by_cases hf : f = e.file
  · subst hf
    simp only [Function.update_self, Option.some.injEq] at howner
    exact ⟨e, he, howner, rfl⟩
  · simp only [Function.update_of_ne hf] at howner
    exact h.live f d howner

lemma unlock [DecidableEq File] (h : k.Sound) : (k.unlock e).Sound := by
  refine ⟨?_, ?_, fun f d howner => ?_⟩
  · simpa using h.lt
  · simpa using h.file
  · simpa using h.live f d (unlock_owner.mp howner).1

end Sound

end OpenFiles

end Luan
