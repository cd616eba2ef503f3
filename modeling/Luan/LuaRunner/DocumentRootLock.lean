import Luan.Core.FileLocks
import Luan.LuaRunner.Runner

/-!
# The lock of a document root

Two programs take the lock `.luan.lock` of a document root: `LuanCLI/main.swift` keeps it while it
serves, and `LuanMac/LuaRunner.swift` gives it back at once, only to see whether it starts a child.
Both `acquireDocumentRootLock` open the file, mark the descriptor, lock and close in single system
calls, and any number of processes, of any mixture, go through them at the same time; every call
may fail, and every process may end in between.

* `RootSystem.step` — the system calls of the two programs, launches, ends, and the processes that
  a Lua program starts.
* `RootSystem.Inv` — the locks are those of the processes that serve or look.
* `lock_iff` — `flock` succeeds exactly if no process serves the document root or looks at it,
  whatever has become of those that did.
* `serves_unique` — a document root is served once.
-/

namespace Luan

/-! ## The system -/

/-- The programs.  A third kind are those that a Lua program starts. -/
inductive RootProgram
  | cli
  | app
  | other
  deriving DecidableEq, Repr

/-- How far a process is in `acquireDocumentRootLock`, with its descriptor of the file. -/
inductive RootPhase
  /-- the function is not called yet, or it has returned to the app -/
  | outside (result : Option DocumentRootLockResult)
  | opened (fd : ℕ)
  | marked (fd : ℕ)
  /-- The lock is held: the command line serves, the app gives it back next. -/
  | locked (fd : ℕ)
  /-- Only `close` is left. -/
  | leaving (fd : ℕ) (result : DocumentRootLockResult)
  deriving DecidableEq, Repr

namespace RootPhase

def descriptor : RootPhase → Option ℕ
  | outside _ => none
  | opened fd | marked fd | locked fd | leaving fd _ => some fd

/-- The descriptor is closed on `exec`. -/
def isMarked : RootPhase → Bool
  | marked _ | locked _ => true
  | _ => false

def isLocked : RootPhase → Bool
  | locked _ => true
  | _ => false

end RootPhase

/-- A process, and the lock file of its document root. -/
structure RootProcess (File : Type*) where
  program : RootProgram
  root : File
  phase : RootPhase

structure RootSystem (P File : Type*) where
  files : OpenFiles P File
  process : P → Option (RootProcess File)

/-- What happens.  A call that can fail comes with the text of its error; whether the lock is free
is up to the kernel. -/
inductive RootEvent (P File : Type*)
  | launch (p : P) (program : RootProgram) (root : File)
  /-- The app starts a service of a document root. -/
  | start (p : P) (root : File)
  | openLock (p : P) (fd : ℕ) (error : Option String)
  | setCloexec (p : P) (error : Option String)
  | flock (p : P) (error : Option String)
  | unlock (p : P)
  | close (p : P)
  /-- `posix_spawn`; a descriptor that is not marked is inherited. -/
  | spawn (p q : P) (program : RootProgram) (root : File)
  /-- a crash, `exit` or the end of `main` -/
  | exit (p : P)

namespace RootSystem

variable {P File : Type*}

section Steps

variable [DecidableEq P] [DecidableEq File]

/-- The system with other files and another process. -/
def update (s : RootSystem P File) (files : OpenFiles P File) (p : P)
    (a : Option (RootProcess File)) : RootSystem P File :=
  { s with
    files := files
    process := Function.update s.process p a }

/-- `acquireDocumentRootLock` returns.  Where the lock is not acquired, the command line exits. -/
def return' (s : RootSystem P File) (files : OpenFiles P File) (p : P) (a : RootProcess File)
    (result : DocumentRootLockResult) : RootSystem P File :=
  match a.program with
  | .app => s.update files p (some { a with phase := .outside (some result) })
  | _ => s.update (files.exit p) p none

/-- One event; it is undefined where it cannot happen. -/
def step (s : RootSystem P File) : RootEvent P File → Option (RootSystem P File)
  | .launch p program root =>
      match s.process p with
      | none => some (s.update s.files p (some ⟨program, root, .outside none⟩))
      | some _ => none
  | .start p root =>
      match s.process p with
      | some ⟨.app, _, .outside _⟩ => some (s.update s.files p (some ⟨.app, root, .outside none⟩))
      | _ => none
  | .openLock p fd error =>
      match s.process p with
      | some ⟨program, root, .outside none⟩ =>
          if program = .other then none
          else
            match error with
            | none =>
                some (s.update (s.files.openFile p fd root) p (some ⟨program, root, .opened fd⟩))
            | some message =>
                some (s.return' s.files p ⟨program, root, .outside none⟩ (.failed message))
      | _ => none
  | .setCloexec p error =>
      match s.process p with
      | some ⟨program, root, .opened fd⟩ =>
          match error with
          | none => some (s.update (s.files.setCloexec p fd) p (some ⟨program, root, .marked fd⟩))
          | some message =>
              some (s.update s.files p (some ⟨program, root, .leaving fd (.failed message)⟩))
      | _ => none
  | .flock p error =>
      match s.process p with
      | some ⟨program, root, .marked fd⟩ =>
          match error, s.files.find p fd with
          | some message, _ =>
              some (s.update s.files p (some ⟨program, root, .leaving fd (.failed message)⟩))
          | none, some e =>
              match s.files.tryLock e with
              | some files => some (s.update files p (some ⟨program, root, .locked fd⟩))
              | none =>
                  some (s.update s.files p (some ⟨program, root, .leaving fd .alreadyRunning⟩))
          | none, none => none
      | _ => none
  | .unlock p =>
      match s.process p with
      | some ⟨.app, root, .locked fd⟩ =>
          match s.files.find p fd with
          | some e =>
              some (s.update (s.files.unlock e) p (some ⟨.app, root, .leaving fd .acquired⟩))
          | none => none
      | _ => none
  | .close p =>
      match s.process p with
      | some ⟨program, root, .leaving fd result⟩ =>
          some (s.return' (s.files.close p fd) p ⟨program, root, .leaving fd result⟩ result)
      -- the service has ended
      | some ⟨.cli, root, .locked fd⟩ =>
          some (s.update (s.files.close p fd) p (some ⟨.cli, root, .outside (some .acquired)⟩))
      | _ => none
  | .spawn p q program root =>
      match s.process p, s.process q with
      | some ⟨.cli, _, .locked _⟩, none | some ⟨.cli, _, .outside (some _)⟩, none
      | some ⟨.other, _, .outside _⟩, none =>
          some (s.update (s.files.spawn p q) q (some ⟨program, root, .outside none⟩))
      -- the app closes all but the standard descriptors in its children
      | some ⟨.app, _, _⟩, none => some (s.update s.files q (some ⟨program, root, .outside none⟩))
      | _, _ => none
  | .exit p =>
      match s.process p with
      | some _ => some (s.update (s.files.exit p) p none)
      | none => none

/-- No process is there, and no file is open. -/
def machine : Machine (RootSystem P File) (RootEvent P File) :=
  ⟨⟨OpenFiles.empty, fun _ => none⟩, step⟩

end Steps

/-! ## The invariant -/

/-- **What holds of every state.**  The open descriptions of lock files are those of the processes
that are in `acquireDocumentRootLock` or behind it, one each, and nobody shares one. -/
structure Inv (s : RootSystem P File) : Prop where
  sound : s.files.Sound
  entry : ∀ e ∈ s.files.descriptors, ∃ a, s.process e.process = some a
    ∧ a.phase.descriptor = some e.number ∧ e.file = a.root
    ∧ (a.phase.isMarked = true → e.cloexec = true)
  has : ∀ p a n, s.process p = some a → a.phase.descriptor = some n →
    ∃ e ∈ s.files.descriptors, e.process = p ∧ e.number = n
  single : ∀ e ∈ s.files.descriptors, ∀ e' ∈ s.files.descriptors,
    e.process = e'.process ∨ e.description = e'.description → e = e'
  held : ∀ e ∈ s.files.descriptors, s.files.owner e.file = some e.description
    ↔ ∃ a, s.process e.process = some a ∧ a.phase.isLocked = true

variable {s s' : RootSystem P File} {p q : P} {a b : RootProcess File} {fd : ℕ}
  {files : OpenFiles P File} {x : Option (RootProcess File)} {e : Descriptor P File}

namespace Inv

/-- A process without a descriptor in its phase has none. -/
lemma no_entry (h : s.Inv) (hold : ∀ a, s.process p = some a → a.phase.descriptor = none)
    (he : e ∈ s.files.descriptors) : e.process ≠ p := by
  rintro rfl
  obtain ⟨a, ha, hfd, -⟩ := h.entry e he
  rw [hold a ha] at hfd
  cases hfd

/-- All that a process has is the descriptor of its phase. -/
lemma number_eq (h : s.Inv) (ha : s.process p = some a) (hfd : a.phase.descriptor = some fd)
    (he : e ∈ s.files.descriptors) (hp : e.process = p) : e.number = fd ∧ e.file = a.root := by
  obtain ⟨b, hb, hb', hroot, -⟩ := h.entry e he
  rw [hp, ha] at hb
  obtain rfl := Option.some.inj hb
  rw [hfd] at hb'
  exact ⟨(Option.some.inj hb').symm, hroot⟩

/-- What a process has in a phase in which it can start others is marked. -/
lemma cloexec (h : s.Inv) (ha : s.process p = some a)
    (hphase : a.phase.descriptor = none ∨ a.phase.isMarked = true) :
    ∀ e ∈ s.files.descriptors, e.process = p → e.cloexec = true := by
  intro e he hep
  obtain ⟨c, hc, hfd, -, hcloexec⟩ := h.entry e he
  rw [hep, ha] at hc
  obtain rfl := Option.some.inj hc
  rcases hphase with hnone | hm
  · rw [hnone] at hfd
    cases hfd
  · exact hcloexec hm

variable [DecidableEq P]

/-- **A step of one process**: the descriptors of the others and their locks stay, and its own are
looked at alone. -/
lemma update (h : s.Inv) (hsound : files.Sound)
    (hothers : ∀ e, e.process ≠ p → (e ∈ files.descriptors ↔ e ∈ s.files.descriptors))
    (hlocks : ∀ e ∈ files.descriptors, e.process ≠ p →
      (files.owner e.file = some e.description ↔ s.files.owner e.file = some e.description))
    (hentry : ∀ e ∈ files.descriptors, e.process = p → ∃ a, x = some a
      ∧ a.phase.descriptor = some e.number ∧ e.file = a.root
      ∧ (a.phase.isMarked = true → e.cloexec = true))
    (hhas : ∀ a n, x = some a → a.phase.descriptor = some n →
      ∃ e ∈ files.descriptors, e.process = p ∧ e.number = n)
    (hsingle : ∀ e ∈ files.descriptors, ∀ e' ∈ files.descriptors, e.process = p →
      e.process = e'.process ∨ e.description = e'.description → e = e')
    (hheld : ∀ e ∈ files.descriptors, e.process = p →
      (files.owner e.file = some e.description ↔ ∃ a, x = some a ∧ a.phase.isLocked = true)) :
    (s.update files p x).Inv := by
  refine ⟨hsound, fun e he => ?_, fun q b n hq hn => ?_, fun e he e' he' hsame => ?_,
    fun e he => ?_⟩
  · by_cases hp : e.process = p
    · simp only [RootSystem.update, hp, Function.update_self]
      exact hentry e he hp
    · simp only [RootSystem.update, Function.update_of_ne hp]
      exact h.entry e ((hothers e hp).mp he)
  · by_cases hp : q = p
    · subst hp
      simp only [RootSystem.update, Function.update_self] at hq
      exact hhas b n hq hn
    · simp only [RootSystem.update, Function.update_of_ne hp] at hq
      obtain ⟨e, he, rfl, hnumber⟩ := h.has q b n hq hn
      exact ⟨e, (hothers e hp).mpr he, rfl, hnumber⟩
  · by_cases hp : e.process = p
    · exact hsingle e he e' he' hp hsame
    · by_cases hp' : e'.process = p
      · exact (hsingle e' he' e he hp' (hsame.imp Eq.symm Eq.symm)).symm
      · exact h.single e ((hothers e hp).mp he) e' ((hothers e' hp').mp he') hsame
  · by_cases hp : e.process = p
    · simp only [RootSystem.update, hp, Function.update_self]
      exact hheld e he hp
    · simp only [RootSystem.update, Function.update_of_ne hp]
      exact (hlocks e he hp).trans (h.held e ((hothers e hp).mp he))

/-- The kernel finds the descriptor of a phase. -/
lemma find (h : s.Inv) (ha : s.process p = some a) (hfd : a.phase.descriptor = some fd) :
    ∃ e, s.files.find p fd = some e ∧ e ∈ s.files.descriptors ∧ e.process = p
      ∧ e.file = a.root := by
  obtain ⟨e, he, hp, hn⟩ := h.has p a fd ha hfd
  cases hfind : s.files.find p fd with
  | none =>
      have hno := List.find?_eq_none.mp hfind e he
      simp [hp, hn] at hno
  | some e' =>
      obtain ⟨he', hp', -⟩ := OpenFiles.mem_find hfind
      exact ⟨e', rfl, he', hp', (h.number_eq ha hfd he' hp').2⟩

/-- A process without a descriptor begins, ends or goes on. -/
lemma fresh (h : s.Inv) (hold : ∀ a, s.process p = some a → a.phase.descriptor = none)
    (hnew : ∀ a, x = some a → a.phase.descriptor = none) : (s.update s.files p x).Inv := by
  refine h.update h.sound (fun e _ => Iff.rfl) (fun e _ _ => Iff.rfl) (fun e he hp => ?_)
    (fun b n hb hn => ?_) (fun e he e' _ hp _ => ?_) fun e he hp => ?_
  · exact absurd hp (h.no_entry hold he)
  · rw [hnew b hb] at hn
    cases hn
  · exact absurd hp (h.no_entry hold he)
  · exact absurd hp (h.no_entry hold he)

/-- A process that was not there begins. -/
lemma begin (h : s.Inv) (hnone : s.process p = none) (hnew : b.phase.descriptor = none) :
    (s.update s.files p (some b)).Inv := by
  refine h.fresh (fun a ha => ?_) fun a ha => ?_
  · rw [hnone] at ha
    cases ha
  · exact Option.some.inj ha ▸ hnew

/-- A process without a descriptor goes on without one. -/
lemma again (h : s.Inv) (ha : s.process p = some a) (hold : a.phase.descriptor = none)
    (hnew : b.phase.descriptor = none) : (s.update s.files p (some b)).Inv := by
  refine h.fresh (fun a' ha' => ?_) fun a' ha' => ?_
  · rw [ha] at ha'
    exact Option.some.inj ha' ▸ hold
  · exact Option.some.inj ha' ▸ hnew

lemma openFile (h : s.Inv) (ha : s.process p = some a) (hold : a.phase.descriptor = none)
    (hphase : b.phase = .opened fd) (hroot : b.root = a.root) :
    (s.update (s.files.openFile p fd a.root) p (some b)).Inv := by
  have hno : ∀ a', s.process p = some a' → a'.phase.descriptor = none := by
    intro a' ha'
    rw [ha] at ha'
    exact Option.some.inj ha' ▸ hold
  have hmem : ∀ e ∈ (s.files.openFile p fd a.root).descriptors, e.process = p →
      e = ⟨p, fd, s.files.next, a.root, false⟩ := by
    intro e he hp
    exact (OpenFiles.mem_openFile.mp he).resolve_right fun hin => h.no_entry hno hin hp
  refine h.update h.sound.openFile (fun e hp => ?_) (fun e _ _ => Iff.rfl) (fun e he hp => ?_)
    (fun c n hc hn => ?_) (fun e he e' he' hp hsame => ?_) fun e he hp => ?_
  · rw [OpenFiles.mem_openFile, or_iff_right]
    rintro rfl
    exact hp rfl
  · rw [hmem e he hp]
    exact ⟨b, rfl, by rw [hphase]; rfl, hroot.symm, by rw [hphase]; exact nofun⟩
  · obtain rfl := Option.some.inj hc
    rw [hphase] at hn
    exact ⟨_, OpenFiles.mem_openFile.mpr (Or.inl rfl), rfl, Option.some.inj hn⟩
  · rw [hmem e he hp] at hsame ⊢
    rcases hsame with hp' | hd
    · exact (hmem e' he' hp'.symm).symm
    · rcases OpenFiles.mem_openFile.mp he' with rfl | hin
      · rfl
      · exact absurd hd (Nat.ne_of_gt (h.sound.lt e' hin))
  · rw [hmem e he hp]
    constructor
    · intro howner
      obtain ⟨e', he', hd, -⟩ := h.sound.live _ _ howner
      exact absurd hd (Nat.ne_of_lt (h.sound.lt e' he'))
    · rintro ⟨c, hc, hlocked⟩
      obtain rfl := Option.some.inj hc
      rw [hphase] at hlocked
      cases hlocked

lemma setCloexec (h : s.Inv) (ha : s.process p = some a) (hold : a.phase = .opened fd)
    (hphase : b.phase = .marked fd) (hroot : b.root = a.root) :
    (s.update (s.files.setCloexec p fd) p (some b)).Inv := by
  have hfd : a.phase.descriptor = some fd := by rw [hold]; rfl
  have hmem : ∀ e ∈ (s.files.setCloexec p fd).descriptors, e.process = p →
      ∃ c ∈ s.files.descriptors, c.process = p ∧ e = { c with cloexec := true } := by
    intro e he hp
    rcases OpenFiles.mem_setCloexec.mp he with ⟨hin, hne⟩ | ⟨c, hc, hsame, rfl⟩
    · exact absurd ⟨hp, (h.number_eq ha hfd hin hp).1⟩ hne
    · exact ⟨c, hc, hsame.1, rfl⟩
  refine h.update h.sound.setCloexec (fun e hp => ?_) (fun e _ _ => Iff.rfl) (fun e he hp => ?_)
    (fun c n hc hn => ?_) (fun e he e' he' hp hsame => ?_) fun e he hp => ?_
  · rw [OpenFiles.mem_setCloexec]
    constructor
    · rintro (⟨hin, -⟩ | ⟨c, hc, hsame, rfl⟩)
      · exact hin
      · exact absurd hsame.1 hp
    · exact fun hin => Or.inl ⟨hin, fun hsame => hp hsame.1⟩
  · obtain ⟨c, hc, hcp, rfl⟩ := hmem e he hp
    obtain ⟨hn, hfile⟩ := h.number_eq ha hfd hc hcp
    exact ⟨b, rfl, by rw [hphase, ← hn]; rfl, hfile.trans hroot.symm, fun _ => rfl⟩
  · obtain rfl := Option.some.inj hc
    rw [hphase] at hn
    obtain rfl : fd = n := Option.some.inj hn
    obtain ⟨c, hin, hcp, hcn⟩ := h.has p a fd ha hfd
    exact ⟨_, OpenFiles.mem_setCloexec.mpr (Or.inr ⟨c, hin, ⟨hcp, hcn⟩, rfl⟩), hcp, hcn⟩
  · obtain ⟨c, hc, hcp, rfl⟩ := hmem e he hp
    rcases OpenFiles.mem_setCloexec.mp he' with ⟨hin, hne⟩ | ⟨c', hc', hsame', rfl⟩
    · obtain rfl := h.single c hc e' hin hsame
      exact absurd ⟨hcp, (h.number_eq ha hfd hc hcp).1⟩ hne
    · obtain rfl := h.single c hc c' hc' (Or.inl (hcp.trans hsame'.1.symm))
      rfl
  · obtain ⟨c, hc, hcp, rfl⟩ := hmem e he hp
    have hlocked := h.held c hc
    rw [hcp, ha] at hlocked
    refine hlocked.trans ?_
    simp [hold, hphase, RootPhase.isLocked]

/-- The descriptors stay, and the process goes on with its own. -/
lemma goOn (h : s.Inv) (ha : s.process p = some a) (hold : a.phase.descriptor = some fd)
    (hsame : files.descriptors = s.files.descriptors) (hsound : files.Sound)
    (hnew : b.phase.descriptor = some fd) (hroot : b.root = a.root)
    (hmarked : b.phase.isMarked = true → a.phase.isMarked = true)
    (hlocks : ∀ e ∈ s.files.descriptors, e.process ≠ p →
      (files.owner e.file = some e.description ↔ s.files.owner e.file = some e.description))
    (hheld : ∀ e ∈ s.files.descriptors, e.process = p →
      (files.owner e.file = some e.description ↔ b.phase.isLocked = true)) :
    (s.update files p (some b)).Inv := by
  refine h.update hsound (fun e _ => by rw [hsame]) (fun e he hp => hlocks e (hsame ▸ he) hp)
    (fun e he hp => ?_) (fun c n hc hn => ?_) (fun e he e' he' _ hd => ?_) fun e he hp => ?_
  · rw [hsame] at he
    obtain ⟨hn, hfile⟩ := h.number_eq ha hold he hp
    obtain ⟨c, hc, -, -, hcloexec⟩ := h.entry e he
    rw [hp, ha] at hc
    obtain rfl := Option.some.inj hc
    exact ⟨b, rfl, by rw [hnew, hn], hfile.trans hroot.symm, fun hm => hcloexec (hmarked hm)⟩
  · obtain rfl := Option.some.inj hc
    rw [hnew] at hn
    obtain rfl : fd = n := Option.some.inj hn
    rw [hsame]
    exact h.has p a fd ha hold
  · rw [hsame] at he he'
    exact h.single e he e' he' hd
  · rw [hsame] at he
    simpa using hheld e he hp

/-- The lock is asked for in vain, or a call has failed. -/
lemma giveUp (h : s.Inv) (ha : s.process p = some a) (hold : a.phase.descriptor = some fd)
    (hlocked : a.phase.isLocked = false) {result : DocumentRootLockResult}
    (hphase : b.phase = .leaving fd result) (hroot : b.root = a.root) :
    (s.update s.files p (some b)).Inv := by
  refine h.goOn ha hold rfl h.sound (by rw [hphase]; rfl) hroot (by rw [hphase]; exact nofun)
    (fun e _ _ => Iff.rfl) fun e he hp => ?_
  have hheld := h.held e he
  rw [hp, ha] at hheld
  refine hheld.trans ?_
  rw [hphase]
  simp only [Option.some.injEq, exists_eq_left', hlocked]
  rfl

lemma lock [DecidableEq File] (h : s.Inv) (ha : s.process p = some a) (hold : a.phase = .marked fd)
    (he : e ∈ s.files.descriptors) (hp : e.process = p) (hlock : s.files.tryLock e = some files)
    (hphase : b.phase = .locked fd) (hroot : b.root = a.root) :
    (s.update files p (some b)).Inv := by
  have hsound := h.sound.tryLock he hlock
  obtain ⟨rfl, hfree⟩ := OpenFiles.tryLock_some hlock
  refine h.goOn ha (by rw [hold]; rfl) rfl hsound (by rw [hphase]; rfl) hroot
    (by rw [hold]; exact fun _ => rfl) (fun c hc hcp => ?_) fun c hc hcp => ?_
  · have hne : c.description ≠ e.description := by
      intro hd
      rw [h.single c hc e he (Or.inr hd)] at hcp
      exact hcp hp
    by_cases hfile : c.file = e.file
    · simp only [hfile, Function.update_self, Option.some.injEq]
      constructor
      · exact fun hd => absurd hd.symm hne
      · exact fun howner => absurd (hfree _ howner) hne
    · simp only [Function.update_of_ne hfile]
  · obtain rfl := h.single c hc e he (Or.inl (hcp.trans hp.symm))
    simp [hphase, RootPhase.isLocked]

lemma unlock [DecidableEq File] (h : s.Inv) (ha : s.process p = some a)
    (hold : a.phase = .locked fd) (he : e ∈ s.files.descriptors) (hp : e.process = p)
    {result : DocumentRootLockResult} (hphase : b.phase = .leaving fd result)
    (hroot : b.root = a.root) :
    (s.update (s.files.unlock e) p (some b)).Inv := by
  refine h.goOn ha (by rw [hold]; rfl) OpenFiles.unlock_descriptors h.sound.unlock
    (by rw [hphase]; rfl) hroot (by rw [hphase]; exact nofun) (fun c hc hcp => ?_)
    fun c hc hcp => ?_
  · rw [OpenFiles.unlock_owner, and_iff_left]
    rintro ⟨-, hd⟩
    rw [h.single c hc e he (Or.inr hd)] at hcp
    exact hcp hp
  · obtain rfl := h.single c hc e he (Or.inl (hcp.trans hp.symm))
    rw [OpenFiles.unlock_owner]
    simp [hphase, RootPhase.isLocked]

/-- Where the descriptors of a process are gone, so is its lock, and nobody else's. -/
lemma gone (h : s.Inv) (hsound : files.Sound)
    (hfiles : ∀ e, e ∈ files.descriptors ↔ e ∈ s.files.descriptors ∧ e.process ≠ p)
    (howner : ∀ f d, files.owner f = some d
      ↔ s.files.owner f = some d ∧ ∃ e ∈ files.descriptors, e.description = d)
    (hnew : ∀ a, x = some a → a.phase.descriptor = none) : (s.update files p x).Inv := by
  refine h.update hsound (fun e hp => ?_) (fun e he _ => ?_) (fun e he hp => ?_)
    (fun b n hb hn => ?_) (fun e he e' _ hp _ => ?_) fun e he hp => ?_
  · rw [hfiles, and_iff_left hp]
  · rw [howner, and_iff_left]
    exact ⟨e, he, rfl⟩
  · exact absurd hp ((hfiles e).mp he).2
  · rw [hnew b hb] at hn
    cases hn
  · exact absurd hp ((hfiles e).mp he).2
  · exact absurd hp ((hfiles e).mp he).2

lemma exit (h : s.Inv) (hnew : ∀ a, x = some a → a.phase.descriptor = none) :
    (s.update (s.files.exit p) p x).Inv :=
  h.gone h.sound.exit (fun _ => OpenFiles.mem_exit) (fun _ _ => OpenFiles.reap_owner) hnew

lemma close (h : s.Inv) (ha : s.process p = some a) (hold : a.phase.descriptor = some fd)
    (hnew : ∀ a, x = some a → a.phase.descriptor = none) :
    (s.update (s.files.close p fd) p x).Inv := by
  refine h.gone h.sound.close (fun e => ?_) (fun _ _ => OpenFiles.reap_owner) hnew
  rw [OpenFiles.mem_close]
  refine and_congr_right fun he => not_congr ⟨fun hsame => hsame.1, fun hp => ⟨hp, ?_⟩⟩
  exact (h.number_eq ha hold he hp).1

/-- What a process starts inherits nothing: a descriptor that it has is marked. -/
lemma spawn (h : s.Inv) (hmarked : ∀ e ∈ s.files.descriptors, e.process = p → e.cloexec = true)
    (hnone : s.process q = none) (hnew : b.phase.descriptor = none) :
    (s.update (s.files.spawn p q) q (some b)).Inv := by
  have hnothing : s.files.spawn p q = s.files := by
    have hempty : (s.files.descriptors.filter fun e => e.process = p ∧ e.cloexec = false) = [] := by
      rw [List.filter_eq_nil_iff]
      intro e he
      simp only [decide_eq_true_eq]
      rintro ⟨hp, hcloexec⟩
      rw [hmarked e he hp] at hcloexec
      cases hcloexec
    rw [OpenFiles.spawn, hempty, List.map_nil, List.append_nil]
  rw [hnothing]
  exact h.begin hnone hnew

end Inv

variable [DecidableEq P]

/-- `acquireDocumentRootLock` returns without a descriptor. -/
lemma Inv.return' {result : DocumentRootLockResult}
    (h : (s.update files p (some { a with phase := .outside (some result) })).Inv) :
    (s.return' files p a result).Inv := by
  have hexit := h.exit (p := p) (x := none) nofun
  rw [RootSystem.return']
  split
  · exact h
  · simpa [RootSystem.update] using hexit

variable [DecidableEq File]

lemma Inv.launch_step (h : s.Inv) {program : RootProgram} {root : File}
    (hstep : s.step (.launch p program root) = some s') : s'.Inv := by
  simp only [RootSystem.step] at hstep
  split at hstep
  case h_1 hnone =>
      cases hstep
      exact h.begin hnone rfl
  case h_2 => cases hstep

lemma Inv.start_step (h : s.Inv) {root : File}
    (hstep : s.step (.start p root) = some s') : s'.Inv := by
  simp only [RootSystem.step] at hstep
  split at hstep
  case h_1 old result happ =>
      cases hstep
      exact h.again happ rfl rfl
  case h_2 => cases hstep

lemma Inv.openLock_step (h : s.Inv) {error : Option String}
    (hstep : s.step (.openLock p fd error) = some s') : s'.Inv := by
  simp only [RootSystem.step] at hstep
  split at hstep
  case h_1 program root hp =>
      split_ifs at hstep with hother
      cases error with
      | none =>
          cases hstep
          exact h.openFile hp rfl rfl rfl
      | some message =>
          cases hstep
          exact Inv.return' (h.again hp rfl rfl)
  case h_2 => cases hstep

lemma Inv.setCloexec_step (h : s.Inv) {error : Option String}
    (hstep : s.step (.setCloexec p error) = some s') : s'.Inv := by
  simp only [RootSystem.step] at hstep
  split at hstep
  case h_1 program root fd hp =>
      cases error with
      | none =>
          cases hstep
          exact h.setCloexec hp rfl rfl rfl
      | some message =>
          cases hstep
          exact h.giveUp hp rfl rfl rfl rfl
  case h_2 => cases hstep

lemma Inv.flock_step (h : s.Inv) {error : Option String}
    (hstep : s.step (.flock p error) = some s') : s'.Inv := by
  simp only [RootSystem.step] at hstep
  split at hstep
  case h_1 program root fd hp =>
      obtain ⟨e, hfind, he, hep, -⟩ := h.find hp rfl
      rw [hfind] at hstep
      cases error with
      | none =>
          simp only at hstep
          split at hstep
          case h_1 files hlock =>
              cases hstep
              exact h.lock hp rfl he hep hlock rfl rfl
          case h_2 =>
              cases hstep
              exact h.giveUp hp rfl rfl rfl rfl
      | some message =>
          cases hstep
          exact h.giveUp hp rfl rfl rfl rfl
  case h_2 => cases hstep

lemma Inv.unlock_step (h : s.Inv) (hstep : s.step (.unlock p) = some s') : s'.Inv := by
  simp only [RootSystem.step] at hstep
  split at hstep
  case h_1 root fd hp =>
      obtain ⟨e, hfind, he, hep, -⟩ := h.find hp rfl
      rw [hfind] at hstep
      cases hstep
      exact h.unlock hp rfl he hep rfl rfl
  case h_2 => cases hstep

lemma Inv.close_step (h : s.Inv) (hstep : s.step (.close p) = some s') : s'.Inv := by
  simp only [RootSystem.step] at hstep
  split at hstep
  case h_1 program root fd result hp =>
      cases hstep
      refine Inv.return' (h.close hp rfl fun a ha => ?_)
      exact Option.some.inj ha ▸ rfl
  case h_2 root fd hp =>
      cases hstep
      refine h.close hp rfl fun a ha => ?_
      exact Option.some.inj ha ▸ rfl
  case h_3 => cases hstep

lemma Inv.spawn_step (h : s.Inv) {program : RootProgram} {root : File}
    (hstep : s.step (.spawn p q program root) = some s') : s'.Inv := by
  simp only [RootSystem.step] at hstep
  split at hstep
  case h_1 old fd hp hq =>
      cases hstep
      exact h.spawn (h.cloexec hp (Or.inr rfl)) hq rfl
  case h_2 old result hp hq =>
      cases hstep
      exact h.spawn (h.cloexec hp (Or.inl rfl)) hq rfl
  case h_3 old result hp hq =>
      cases hstep
      exact h.spawn (h.cloexec hp (Or.inl rfl)) hq rfl
  case h_4 old phase hp hq =>
      cases hstep
      exact h.begin hq rfl
  case h_5 => cases hstep

lemma Inv.exit_step (h : s.Inv) (hstep : s.step (.exit p) = some s') : s'.Inv := by
  simp only [RootSystem.step] at hstep
  split at hstep
  case h_1 =>
      cases hstep
      exact h.exit nofun
  case h_2 => cases hstep

/-- **Every event keeps the invariant.** -/
lemma Inv.step (h : s.Inv) {event : RootEvent P File} (hstep : s.step event = some s') :
    s'.Inv := by
  cases event with
  | launch p program root => exact h.launch_step hstep
  | start p root => exact h.start_step hstep
  | openLock p fd error => exact h.openLock_step hstep
  | setCloexec p error => exact h.setCloexec_step hstep
  | flock p error => exact h.flock_step hstep
  | unlock p => exact h.unlock_step hstep
  | close p => exact h.close_step hstep
  | spawn p q program root => exact h.spawn_step hstep
  | exit p => exact h.exit_step hstep

/-- **The invariant holds in every state that is reached.** -/
lemma reachable_inv {es : List (RootEvent P File)} (hrun : machine.run es = some s) : s.Inv := by
  refine Machine.invariant (M := machine) ?_ (fun _ _ _ h hstep => h.step hstep) hrun
  refine ⟨.empty, ?_, ?_, ?_, ?_⟩ <;> simp [machine, OpenFiles.empty]

/-! ## Who has the lock -/

/-- A process serves the document root, or looks whether it is served. -/
def Holds (s : RootSystem P File) (p : P) (root : File) : Prop :=
  ∃ a, s.process p = some a ∧ a.root = root ∧ a.phase.isLocked = true

omit [DecidableEq P] [DecidableEq File] in
/-- The lock of a file is that of a process that serves or looks. -/
lemma Inv.holds_iff (h : s.Inv) {root : File} {d : ℕ} : s.files.owner root = some d
    ↔ ∃ e ∈ s.files.descriptors, e.description = d ∧ e.file = root ∧ s.Holds e.process root := by
  constructor
  · intro howner
    obtain ⟨e, he, rfl, rfl⟩ := h.sound.live root d howner
    obtain ⟨a, ha, hlocked⟩ := (h.held e he).mp howner
    obtain ⟨b, hb, -, hroot, -⟩ := h.entry e he
    rw [ha] at hb
    obtain rfl := Option.some.inj hb
    exact ⟨e, he, rfl, rfl, a, ha, hroot.symm, hlocked⟩
  · rintro ⟨e, he, rfl, rfl, a, ha, -, hlocked⟩
    exact (h.held e he).mpr ⟨a, ha, hlocked⟩

omit [DecidableEq P] [DecidableEq File] in
/-- A process that serves or looks has the lock. -/
lemma Inv.holds (h : s.Inv) {root : File} (hp : s.Holds p root) :
    ∃ e ∈ s.files.descriptors, e.process = p ∧ s.files.owner root = some e.description := by
  obtain ⟨a, ha, rfl, hlocked⟩ := hp
  obtain ⟨n, hn⟩ : ∃ n, a.phase.descriptor = some n := by
    cases hphase : a.phase <;> rw [hphase] at hlocked
    case locked fd => exact ⟨fd, rfl⟩
    all_goals cases hlocked
  obtain ⟨e, he, hep, -⟩ := h.has p a n ha hn
  refine ⟨e, he, hep, ?_⟩
  have hheld := (h.held e he).mpr ⟨a, by rw [hep, ha], hlocked⟩
  rwa [(h.number_eq ha hn he hep).2] at hheld

/-- **A document root is served once.**  In every state that any interleaving of the system calls
of any number of processes leads to, failures and crashes included, at most one process is between
its lock and its `close` or `LOCK_UN`. -/
theorem serves_unique {es : List (RootEvent P File)} (hrun : machine.run es = some s) {root : File}
    (hp : s.Holds p root) (q : P) (hq : s.Holds q root) : q = p := by
  have h := reachable_inv hrun
  obtain ⟨e, he, rfl, howner⟩ := h.holds hp
  obtain ⟨e', he', rfl, howner'⟩ := h.holds hq
  rw [howner] at howner'
  rw [h.single e he e' he' (Or.inr (Option.some.inj howner'))]

/-- A command line serves and starts a process, and an app looks. -/
def lookingRun : List (RootEvent ℕ String) :=
  [.launch 0 .cli "root", .openLock 0 3 none, .setCloexec 0 none, .flock 0 none,
    .launch 1 .app "root", .openLock 1 5 none, .spawn 0 2 .other "root", .setCloexec 1 none,
    .flock 1 none]

theorem serves_unique_looking :
    ∃ s, machine.run lookingRun = some s ∧ ∀ q, s.Holds q "root" → q = 0 := by
  have hrun : machine.run lookingRun = some _ := rfl
  exact ⟨_, hrun, serves_unique hrun ⟨_, rfl, rfl, rfl⟩⟩

/-- **`flock` succeeds exactly if no process serves the document root or looks at it.**  A lock
never outlives its process: whatever ends it, and whatever the processes that it has started do,
the next call succeeds.  A command line that finds the lock taken may have met an app that only
looks, too. -/
theorem lock_iff {es : List (RootEvent P File)} (hrun : machine.run es = some s)
    {program : RootProgram} {root : File} (hp : s.process p = some ⟨program, root, .marked fd⟩) :
    ∃ s' phase, s.step (.flock p none) = some s'
      ∧ s'.process p = some ⟨program, root, phase⟩
      ∧ ((phase = .locked fd ∧ ∀ q, ¬ s.Holds q root)
        ∨ (phase = .leaving fd .alreadyRunning ∧ ∃ q, q ≠ p ∧ s.Holds q root)) := by
  have h := reachable_inv hrun
  obtain ⟨e, hfind, he, hep, hfile⟩ := h.find hp rfl
  have hnot : ¬ s.Holds p root := by
    rintro ⟨a, ha, -, hlocked⟩
    rw [hp] at ha
    obtain rfl := Option.some.inj ha
    cases hlocked
  cases hlock : s.files.tryLock e with
  | none =>
      obtain ⟨d, howner, -⟩ := OpenFiles.tryLock_eq_none.mp hlock
      rw [hfile] at howner
      obtain ⟨e', -, -, -, hholds⟩ := h.holds_iff.mp howner
      have hstep : s.step (.flock p none)
          = some (s.update s.files p (some ⟨program, root, .leaving fd .alreadyRunning⟩)) := by
        simp only [RootSystem.step, hp, hfind, hlock]
      refine ⟨_, _, hstep, Function.update_self .., Or.inr ⟨rfl, e'.process, ?_, hholds⟩⟩
      rintro rfl
      exact hnot hholds
  | some files =>
      have hstep : s.step (.flock p none)
          = some (s.update files p (some ⟨program, root, .locked fd⟩)) := by
        simp only [RootSystem.step, hp, hfind, hlock]
      refine ⟨_, _, hstep, Function.update_self .., Or.inl ⟨rfl, fun q hq => ?_⟩⟩
      obtain ⟨e', he', rfl, howner⟩ := h.holds hq
      have hd := (OpenFiles.tryLock_some hlock).2 e'.description (by rw [hfile, howner])
      rw [h.single e' he' e he (Or.inr hd), hep] at hq
      exact hnot hq

/-- A command line crashes, and the process that it has started goes on. -/
def crashRun : List (RootEvent ℕ String) :=
  [.launch 0 .cli "root", .openLock 0 3 none, .setCloexec 0 none, .flock 0 none,
    .spawn 0 2 .other "root", .exit 0, .launch 1 .cli "root", .openLock 1 3 none,
    .setCloexec 1 none]

theorem lock_iff_crash :
    ∃ s s' phase, machine.run crashRun = some s ∧ s.step (.flock 1 none) = some s'
      ∧ s'.process 1 = some ⟨.cli, "root", phase⟩
      ∧ ((phase = .locked 3 ∧ ∀ q, ¬ s.Holds q "root")
        ∨ (phase = .leaving 3 .alreadyRunning ∧ ∃ q, q ≠ 1 ∧ s.Holds q "root")) := by
  obtain ⟨s, hrun, hp⟩ : ∃ s, machine.run crashRun = some s
      ∧ s.process 1 = some ⟨.cli, "root", .marked 3⟩ := ⟨_, rfl, rfl⟩
  obtain ⟨s', phase, hstep⟩ := lock_iff hrun hp
  exact ⟨s, s', phase, hrun, hstep⟩

end RootSystem

end Luan
