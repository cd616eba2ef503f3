import Luan.Core.FileWrites
import Luan.Core.FileWrites
import Luan.Core.Machine
import Mathlib.Data.List.Basic
import Mathlib.Logic.Function.Basic

/-!
# Locks on directories, and copies of files

From `lua-apple/utlua/lfs.c`.  `lfs.lock_dir` makes a symbolic link in the directory, and the lock
that it returns remembers the name of the link: `free` and the collector unlink that name.  The
name is looked up again from the working directory that the process has by then.

* `LfsSystem.lockDir_exclusive` — where no process moves away from a lock that it holds, no two
  locks are in one directory.
* `LfsSystem.links_iff` — every lock that is held keeps its link exactly as long as no process
  unlinks the link of another one.
* `copyFile_spec` — what `lfs.copy` leaves in the two files, whatever its calls answer.
-/

namespace Luan

/-! ## `lfs.lock_dir` -/

/-- `"/lockfile.lfs"` -/
def lockfile : List UInt8 := [47, 108, 111, 99, 107, 102, 105, 108, 101, 46, 108, 102, 115]

/-- `strcpy(ln, path); strcat(ln, lockfile)` -/
def lockName (path : List UInt8) : List UInt8 := path.takeWhile (· ≠ 0) ++ lockfile

/-- `lfs_Lock`, until its `ln` is `NULL`.  `place` is where its link was made; the C program does
not know it. -/
structure LfsLock (P Place : Type*) where
  id : ℕ
  process : P
  ln : List UInt8
  place : Place

/-- The processes with their working directories, and what is in the file system. -/
structure LfsSystem (P Dir Place : Type*) where
  cwd : P → Option Dir
  links : Place → Bool
  locks : List (LfsLock P Place)
  next : ℕ

/-- What happens. -/
inductive LfsEvent (P Dir : Type*)
  | launch (p : P) (dir : Dir)
  | chdir (p : P) (dir : Dir)
  | lockDir (p : P) (path : List UInt8) (malloced : Bool)
  /-- `free` or the collector; `unlink` may fail. -/
  | unlockDir (p : P) (id : ℕ) (unlinks : Bool)
  /-- The process is gone, and its collector has not run. -/
  | crash (p : P)

namespace LfsSystem

variable {P Dir Place : Type*}

section Steps

variable [DecidableEq P] [DecidableEq Place] (resolve : Dir → List UInt8 → Option Place)

/-- `lfs_lock_dir`; `resolve` is the kernel's lookup of the link's name. -/
def lockDir (s : LfsSystem P Dir Place) (p : P) (dir : Dir) (path : List UInt8)
    (malloced : Bool) : LfsSystem P Dir Place :=
  if malloced then
    match resolve dir (lockName path) with
    | some place =>
        if s.links place then s
        else
          { s with
            links := Function.update s.links place true
            locks := ⟨s.next, p, lockName path, place⟩ :: s.locks
            next := s.next + 1 }
    | none => s
  else s

/-- `lfs_unlock_dir` -/
def unlockDir (s : LfsSystem P Dir Place) (lock : LfsLock P Place) (dir : Dir) (unlinks : Bool) :
    LfsSystem P Dir Place :=
  { s with
    links :=
      match unlinks, resolve dir lock.ln with
      | true, some place => Function.update s.links place false
      | _, _ => s.links
    locks := s.locks.filter (·.id ≠ lock.id) }

/-- The lock that a process has under an id. -/
def find (s : LfsSystem P Dir Place) (p : P) (id : ℕ) : Option (LfsLock P Place) :=
  s.locks.find? fun l => l.process = p ∧ l.id = id

/-- One event; it is undefined where it cannot happen. -/
def step (s : LfsSystem P Dir Place) : LfsEvent P Dir → Option (LfsSystem P Dir Place)
  | .launch p dir =>
      if s.cwd p = none then some { s with cwd := Function.update s.cwd p (some dir) } else none
  | .chdir p dir =>
      if s.cwd p = none then none else some { s with cwd := Function.update s.cwd p (some dir) }
  | .lockDir p path malloced =>
      match s.cwd p with
      | some dir => some (s.lockDir resolve p dir path malloced)
      | none => none
  | .unlockDir p id unlinks =>
      match s.cwd p, s.find p id with
      | some dir, some lock => some (s.unlockDir resolve lock dir unlinks)
      | _, _ => none
  | .crash p =>
      if s.cwd p = none then none
      else
        some
          { s with
            cwd := Function.update s.cwd p none
            locks := s.locks.filter (·.process ≠ p) }

/-- No process is there; some links may be. -/
def machine (links : Place → Bool) : Machine (LfsSystem P Dir Place) (LfsEvent P Dir) :=
  ⟨⟨fun _ => none, links, [], 0⟩, step resolve⟩

end Steps

/-! ## The invariant -/

/-- Every lock that is held has its link. -/
def Linked (s : LfsSystem P Dir Place) : Prop := ∀ l ∈ s.locks, s.links l.place = true

/-- **What holds of every state**, as long as the locks keep their links. -/
structure Inv (s : LfsSystem P Dir Place) : Prop where
  linked : s.Linked
  single : ∀ l ∈ s.locks, ∀ l' ∈ s.locks, l.place = l'.place ∨ l.id = l'.id → l = l'
  lt : ∀ l ∈ s.locks, l.id < s.next

/-- Every process stands where it still finds the links of its locks. -/
def Stays (resolve : Dir → List UInt8 → Option Place) (s : LfsSystem P Dir Place) : Prop :=
  ∀ l ∈ s.locks, ∃ dir, s.cwd l.process = some dir ∧ resolve dir l.ln = some l.place

/-- **Nobody unlinks the link of another lock.** -/
def OwnLink [DecidableEq P] (resolve : Dir → List UInt8 → Option Place)
    (s : LfsSystem P Dir Place) : LfsEvent P Dir → Prop
  | .unlockDir p id true => ∀ dir lock place, s.cwd p = some dir → s.find p id = some lock →
      resolve dir lock.ln = some place → ∀ l ∈ s.locks, l.place = place → l = lock
  | _ => True

/-- **Nobody moves away from a lock**: from the new directory every name leads where it led. -/
def KeepsNames (resolve : Dir → List UInt8 → Option Place) (s : LfsSystem P Dir Place) :
    LfsEvent P Dir → Prop
  | .chdir p dir => ∀ l ∈ s.locks, l.process = p → resolve dir l.ln = some l.place
  | _ => True

variable {resolve : Dir → List UInt8 → Option Place} {s s' : LfsSystem P Dir Place} {p : P} {id : ℕ}
  {lock : LfsLock P Place} {dir : Dir}

/-- Locks that go away. -/
lemma Inv.filter (h : s.Inv) (q : LfsLock P Place → Bool) (hlocks : s'.locks = s.locks.filter q)
    (hlinked : s'.Linked) (hnext : s'.next = s.next) : s'.Inv := by
  have hmem : ∀ l ∈ s'.locks, l ∈ s.locks := by
    intro l hl
    rw [hlocks] at hl
    exact (List.mem_filter.mp hl).1
  refine ⟨hlinked, fun l hl l' hl' => h.single l (hmem l hl) l' (hmem l' hl'), fun l hl => ?_⟩
  rw [hnext]
  exact h.lt l (hmem l hl)

section LockDir

variable [DecidableEq Place]

variable (resolve) in
/-- **What `lock_dir` does**: nothing, or one link and one lock that was not there. -/
lemma lockDir_cases (s : LfsSystem P Dir Place) (p : P) (dir : Dir) (path : List UInt8)
    (malloced : Bool) : s.lockDir resolve p dir path malloced = s
      ∨ ∃ place, resolve dir (lockName path) = some place ∧ s.links place = false
        ∧ s.lockDir resolve p dir path malloced = { s with
          links := Function.update s.links place true
          locks := ⟨s.next, p, lockName path, place⟩ :: s.locks
          next := s.next + 1 } := by
  rw [lockDir]
  cases malloced with
  | false => exact Or.inl rfl
  | true =>
      cases hresolve : resolve dir (lockName path) with
      | none => exact Or.inl rfl
      | some place =>
          cases hlink : s.links place with
          | true => exact Or.inl (by simp [hlink])
          | false => exact Or.inr ⟨place, rfl, hlink, by simp [hlink]⟩

lemma Inv.lockDir (h : s.Inv) (p : P) (dir : Dir) (path : List UInt8) (malloced : Bool) :
    (s.lockDir resolve p dir path malloced).Inv := by
  rcases lockDir_cases resolve s p dir path malloced with heq | ⟨place, -, hfree, heq⟩
  · rwa [heq]
  · rw [heq]
    have hother : ∀ l ∈ s.locks, l.place ≠ place := by
      rintro l hl rfl
      rw [h.linked l hl] at hfree
      cases hfree
    refine ⟨fun l hl => ?_, fun l hl l' hl' hsame => ?_, fun l hl => ?_⟩
    · rcases List.mem_cons.mp hl with rfl | hl
      · exact Function.update_self ..
      · rw [← h.linked l hl]
        exact Function.update_of_ne (hother l hl) ..
    · rcases List.mem_cons.mp hl with rfl | hl <;> rcases List.mem_cons.mp hl' with rfl | hl'
      · rfl
      · rcases hsame with hplace | hid
        · exact absurd hplace.symm (hother l' hl')
        · exact absurd hid (Nat.ne_of_gt (h.lt l' hl'))
      · rcases hsame with hplace | hid
        · exact absurd hplace (hother l hl)
        · exact absurd hid (Nat.ne_of_lt (h.lt l hl))
      · exact h.single l hl l' hl' hsame
    · rcases List.mem_cons.mp hl with rfl | hl
      · exact Nat.lt_succ_self _
      · exact Nat.lt_succ_of_lt (h.lt l hl)

end LockDir

variable [DecidableEq P]

lemma mem_of_find (h : s.find p id = some lock) :
    lock ∈ s.locks ∧ lock.process = p ∧ lock.id = id := by
  have hmem := List.mem_of_find?_eq_some h
  have hsat := List.find?_some h
  exact ⟨hmem, by simpa using hsat⟩

/-- Who still finds his own link unlinks no other. -/
lemma ownLink_of_stays {e : LfsEvent P Dir} (h : s.Inv) (hs : s.Stays resolve) :
    s.OwnLink resolve e := by
  cases e with
  | unlockDir p id unlinks =>
      cases unlinks with
      | false => trivial
      | true =>
          intro dir lock place hdir hfind hplace l hl hsame
          obtain ⟨hlock, rfl, -⟩ := mem_of_find hfind
          obtain ⟨dir', hdir', hplace'⟩ := hs lock hlock
          rw [hdir] at hdir'
          obtain rfl := Option.some.inj hdir'
          rw [hplace] at hplace'
          obtain rfl := Option.some.inj hplace'
          exact h.single l hl lock hlock (Or.inl hsame)
  | _ => trivial

variable [DecidableEq Place]

/-- **One `free`**: the other locks keep their links exactly if the name does not lead to one. -/
lemma unlockDir_linked (h : s.Inv) (hdir : s.cwd p = some dir) (hfind : s.find p id = some lock)
    (unlinks : Bool) :
    (s.unlockDir resolve lock dir unlinks).Linked
      ↔ s.OwnLink resolve (.unlockDir p id unlinks) := by
  have hlock := mem_of_find hfind
  have hothers : ∀ l, l ∈ s.locks.filter (·.id ≠ lock.id) ↔ l ∈ s.locks ∧ l ≠ lock := by
    intro l
    rw [List.mem_filter]
    refine and_congr_right fun hl => ?_
    simp only [ne_eq, decide_not, Bool.not_eq_eq_eq_not, Bool.not_true, decide_eq_false_iff_not]
    exact not_congr ⟨fun hid => h.single l hl lock hlock.1 (Or.inr hid), fun heq => heq ▸ rfl⟩
  have hsame : ∀ l ∈ s.locks.filter (·.id ≠ lock.id), s.links l.place = true :=
    fun l hl => h.linked l ((hothers l).mp hl).1
  cases unlinks with
  | false => exact iff_of_true hsame trivial
  | true =>
      cases hresolve : resolve dir lock.ln with
      | none =>
          refine iff_of_true (fun l hl => ?_) fun dir' lock' place hdir' hfind' hplace => ?_
          · simp only [unlockDir, hresolve]
            exact hsame l hl
          · rw [hdir] at hdir'
            rw [hfind] at hfind'
            obtain rfl := Option.some.inj hdir'
            obtain rfl := Option.some.inj hfind'
            rw [hresolve] at hplace
            cases hplace
      | some place =>
          constructor
          · rintro hlinked dir' lock' place' hdir' hfind' hplace' l hl rfl
            rw [hdir] at hdir'
            rw [hfind] at hfind'
            obtain rfl := Option.some.inj hdir'
            obtain rfl := Option.some.inj hfind'
            by_contra hne
            have htrue := hlinked l ((hothers l).mpr ⟨hl, hne⟩)
            simp only [unlockDir, hplace', Function.update_self] at htrue
            cases htrue
          · intro hown l hl
            have hne : l.place ≠ place := fun hplace =>
              ((hothers l).mp hl).2 (hown dir lock place hdir hfind hresolve l
                ((hothers l).mp hl).1 hplace)
            simp only [unlockDir, hresolve, Function.update_of_ne hne]
            exact hsame l hl

/-- **One step**: the locks keep their links exactly if nobody unlinks that of another. -/
lemma step_linked {e : LfsEvent P Dir} (h : s.Inv) (hstep : step resolve s e = some s') :
    s'.Linked ↔ s.OwnLink resolve e := by
  cases e with
  | launch p dir =>
      simp only [step] at hstep
      split_ifs at hstep
      obtain rfl := Option.some.inj hstep
      exact iff_of_true h.linked trivial
  | chdir p dir =>
      simp only [step] at hstep
      split_ifs at hstep
      obtain rfl := Option.some.inj hstep
      exact iff_of_true h.linked trivial
  | lockDir p path malloced =>
      simp only [step] at hstep
      cases hdir : s.cwd p with
      | none => simp [hdir] at hstep
      | some dir =>
          simp only [hdir, Option.some.injEq] at hstep
          exact iff_of_true (hstep ▸ (h.lockDir p dir path malloced).linked) trivial
  | unlockDir p id unlinks =>
      simp only [step] at hstep
      cases hdir : s.cwd p with
      | none => simp [hdir] at hstep
      | some dir =>
          cases hfind : s.find p id with
          | none => simp [hdir, hfind] at hstep
          | some lock =>
              simp only [hdir, hfind, Option.some.injEq] at hstep
              rw [← hstep]
              exact unlockDir_linked h hdir hfind unlinks
  | crash p =>
      simp only [step] at hstep
      split_ifs at hstep
      obtain rfl := Option.some.inj hstep
      exact iff_of_true (fun l hl => h.linked l (List.mem_filter.mp hl).1) trivial

/-- **One step** keeps the invariant if the locks keep their links. -/
lemma step_inv {e : LfsEvent P Dir} (h : s.Inv) (hstep : step resolve s e = some s')
    (hlinked : s'.Linked) : s'.Inv := by
  cases e with
  | launch p dir =>
      simp only [step] at hstep
      split_ifs at hstep
      obtain rfl := Option.some.inj hstep
      exact ⟨hlinked, h.single, h.lt⟩
  | chdir p dir =>
      simp only [step] at hstep
      split_ifs at hstep
      obtain rfl := Option.some.inj hstep
      exact ⟨hlinked, h.single, h.lt⟩
  | lockDir p path malloced =>
      simp only [step] at hstep
      cases hdir : s.cwd p with
      | none => simp [hdir] at hstep
      | some dir =>
          simp only [hdir, Option.some.injEq] at hstep
          exact hstep ▸ h.lockDir p dir path malloced
  | unlockDir p id unlinks =>
      simp only [step] at hstep
      cases hdir : s.cwd p with
      | none => simp [hdir] at hstep
      | some dir =>
          cases hfind : s.find p id with
          | none => simp [hdir, hfind] at hstep
          | some lock =>
              simp only [hdir, hfind, Option.some.injEq] at hstep
              subst hstep
              exact h.filter _ rfl hlinked rfl
  | crash p =>
      simp only [step] at hstep
      split_ifs at hstep
      obtain rfl := Option.some.inj hstep
      exact h.filter _ rfl hlinked rfl

lemma inv_init (links : Place → Bool) : (machine (P := P) resolve links).init.Inv :=
  ⟨nofun, nofun, nofun⟩

/-- **One step** of processes that keep the names of their locks. -/
lemma step_stays {e : LfsEvent P Dir} (hs : s.Stays resolve) (hstep : step resolve s e = some s')
    (hkeeps : s.KeepsNames resolve e) : s'.Stays resolve := by
  cases e with
  | launch p dir =>
      simp only [step] at hstep
      split_ifs at hstep with hnone
      obtain rfl := Option.some.inj hstep
      intro l hl
      obtain ⟨dir', hdir', hplace⟩ := hs l hl
      have hne : l.process ≠ p := by
        rintro rfl
        rw [hnone] at hdir'
        cases hdir'
      exact ⟨dir', (Function.update_of_ne hne ..).trans hdir', hplace⟩
  | chdir p dir =>
      simp only [step] at hstep
      split_ifs at hstep
      obtain rfl := Option.some.inj hstep
      intro l hl
      by_cases hp : l.process = p
      · exact ⟨dir, by simp only [hp, Function.update_self], hkeeps l hl hp⟩
      · obtain ⟨dir', hdir', hplace⟩ := hs l hl
        exact ⟨dir', (Function.update_of_ne hp ..).trans hdir', hplace⟩
  | lockDir p path malloced =>
      simp only [step] at hstep
      cases hdir : s.cwd p with
      | none => simp [hdir] at hstep
      | some dir =>
          simp only [hdir, Option.some.injEq] at hstep
          rcases lockDir_cases resolve s p dir path malloced with
            heq | ⟨place, hplace, -, heq⟩
          · rwa [← hstep, heq]
          · rw [← hstep, heq]
            intro l hl
            rcases List.mem_cons.mp hl with rfl | hl
            · exact ⟨dir, hdir, hplace⟩
            · exact hs l hl
  | unlockDir p id unlinks =>
      simp only [step] at hstep
      cases hdir : s.cwd p with
      | none => simp [hdir] at hstep
      | some dir =>
          cases hfind : s.find p id with
          | none => simp [hdir, hfind] at hstep
          | some lock =>
              simp only [hdir, hfind, Option.some.injEq] at hstep
              subst hstep
              exact fun l hl => hs l (List.mem_filter.mp hl).1
  | crash p =>
      simp only [step] at hstep
      split_ifs at hstep
      obtain rfl := Option.some.inj hstep
      intro l hl
      obtain ⟨hl, hp⟩ := List.mem_filter.mp hl
      obtain ⟨dir', hdir', hplace⟩ := hs l hl
      exact ⟨dir', (Function.update_of_ne (by simpa using hp) ..).trans hdir', hplace⟩

/-- **Mutual exclusion**: in every run in which no process moves to a directory from where the
name of a lock that it holds leads elsewhere, no two locks are in one directory, and every lock
that is held has its link there, whoever crashes and whatever fails. -/
theorem lockDir_exclusive {links : Place → Bool} {es : List (LfsEvent P Dir)}
    (hrun : (machine resolve links).run es = some s)
    (hkeeps : (machine resolve links).Meets (KeepsNames resolve) es) :
    (∀ l ∈ s.locks, s.links l.place = true)
      ∧ ∀ l ∈ s.locks, ∀ l' ∈ s.locks, l.place = l'.place → l = l' := by
  have hboth : s.Inv ∧ s.Stays resolve :=
    Machine.invariant_of_meets (I := fun s => s.Inv ∧ s.Stays resolve)
      ⟨inv_init links, nofun⟩
      (fun s e s' hs hstep hC => ⟨step_inv hs.1 hstep
        ((step_linked hs.1 hstep).mpr (ownLink_of_stays hs.1 hs.2)), step_stays hs.2 hstep hC⟩)
      hrun hkeeps
  exact ⟨hboth.1.linked, fun l hl l' hl' hplace => hboth.1.single l hl l' hl' (Or.inl hplace)⟩

/-- **When a lock is lost**: all locks that are held keep their links along a run if and only if no
`free` of the run unlinks, from where its process then stands, the link of another lock. -/
theorem links_iff {links : Place → Bool} (es : List (LfsEvent P Dir)) :
    (machine (P := P) resolve links).Along (fun _ _ s' => s'.Linked) es
      ↔ (machine resolve links).Meets (OwnLink resolve) es :=
  Machine.along_iff_meets (inv_init links)
    (fun _ _ _ h hstep hC => step_inv h hstep ((step_linked h hstep).mpr hC))
    (fun _ _ _ h hstep => step_linked h hstep) es

/-- Two directories, and names that do not begin with a slash. -/
def relative : Bool → List UInt8 → Option (Bool × List UInt8) := fun dir name => some (dir, name)

/-- Two processes want a lock in one directory, and the second gets it from the first. -/
def twoProcesses : List (LfsEvent Bool Bool) :=
  [.launch false false, .launch true false, .lockDir false [46] true, .lockDir true [46] true,
    .unlockDir false 0 true, .lockDir true [46] true]

theorem lockDir_exclusive_two : ∃ s, (machine relative fun _ => false).run twoProcesses = some s
    ∧ (∀ l ∈ s.locks, s.links l.place = true)
    ∧ ∀ l ∈ s.locks, ∀ l' ∈ s.locks, l.place = l'.place → l = l' := by
  have hkeeps : (machine relative fun _ => false).Meets (KeepsNames relative) twoProcesses :=
    ⟨trivial, trivial, trivial, trivial, trivial, trivial, trivial⟩
  exact ⟨_, rfl, lockDir_exclusive (show _ = some _ from rfl) hkeeps⟩

end LfsSystem

/-! ## `lfs.copy` -/

/-- What the calls of `copy_file` answer.  A `read` gives at most one byte more than its number, a
`write` takes at most its number; `none` is `-1`. -/
structure CopyKernel (File : Type*) where
  openIn : Option File
  openOut : Option File
  read : ℕ → Option ℕ
  write : ℕ → Option ℕ
  closeIn : Bool
  closeOut : Bool

/-- `BUF_SIZE` -/
def copyBufSize : ℕ := 2048

/-- Why the loop of `copy_file` ends. -/
inductive CopyEnd
  | endOfFile
  | readError
  | shortWrite
  deriving DecidableEq, Repr

/-- `true`, or `nil` with the text of an error. -/
inductive CopyResult
  | ok
  | strerror
  | noMoreSpace
  | errorOnWriteFile
  deriving DecidableEq, Repr

/-- What `copy_file` leaves behind. -/
structure CopyOutcome (File : Type*) where
  files : File → List UInt8
  result : CopyResult
  /-- `outputFd` has not been closed. -/
  leaked : Bool

section Copy

variable {File : Type*} [DecidableEq File]

/-- The loop of `copy_file`. -/
def copyLoop (k : CopyKernel File) (src dst : File) :
    ℕ → ℕ → ℕ → (File → List UInt8) → Option ((File → List UInt8) × CopyEnd)
  | 0, _, _, _ => none
  | fuel + 1, call, pos, files =>
      match k.read call with
      | none => some (files, .readError)
      | some n =>
          let buf := ((files src).drop pos).take (min copyBufSize (n + 1))
          if buf = [] then some (files, .endOfFile)
          else
            let written := buf.take ((k.write call).getD 0)
            let files := Function.update files dst (writeAt (files dst) pos written)
            if written.length < buf.length then some (files, .shortWrite)
            else copyLoop k src dst fuel (call + 1) (pos + buf.length) files

/-- `copy_file`; `O_TRUNC` has emptied the target before anything is read. -/
def copyFile (k : CopyKernel File) (fuel : ℕ) (files : File → List UInt8) :
    Option (CopyOutcome File) :=
  match k.openIn, k.openOut with
  | some src, some dst =>
      (copyLoop k src dst fuel 0 0 (Function.update files dst [])).map fun (files, copyEnd) =>
        { files := files
          result :=
            if k.closeIn && k.closeOut then
              match copyEnd with
              | .endOfFile => .ok
              | .readError => .errorOnWriteFile
              | .shortWrite => .noMoreSpace
            else .strerror
          leaked := !k.closeIn }
  | _, _ => some ⟨files, .strerror, false⟩

/-- No call fails, and every `write` takes all. -/
def CopyKernel.NeverFails (k : CopyKernel File) : Prop :=
  (∀ call, (k.read call).isSome ∧ ∃ n, k.write call = some n ∧ copyBufSize ≤ n)
    ∧ k.closeIn = true ∧ k.closeOut = true

namespace CopyKernel.NeverFails

omit [DecidableEq File]

variable {k : CopyKernel File}

lemma read_ne (hk : k.NeverFails) (call : ℕ) : k.read call ≠ none :=
  Option.isSome_iff_ne_none.mp (hk.1 call).1

/-- A `write` takes the whole buffer. -/
lemma take_write (hk : k.NeverFails) (call : ℕ) {buf : List UInt8}
    (hsize : buf.length ≤ copyBufSize) : buf.take ((k.write call).getD 0) = buf := by
  obtain ⟨n, hn, hle⟩ := (hk.1 call).2
  rw [hn, Option.getD_some, List.take_of_length_le (Nat.le_trans hsize hle)]

end CopyKernel.NeverFails

/-- A beginning of a file with what is read behind it is a longer beginning. -/
lemma take_append_read (bytes : List UInt8) (pos n : ℕ) :
    bytes.take pos ++ (bytes.drop pos).take n
      = bytes.take (pos + ((bytes.drop pos).take n).length) := by
  rw [List.take_add, List.length_take, ← List.take_eq_take_min]

/-- **The loop of `copy_file`** between two files: the target is the part that has been read. -/
lemma copyLoop_spec (k : CopyKernel File) {src dst : File} (hne : src ≠ dst) {fuel call pos : ℕ}
    {files : File → List UInt8} (hdst : files dst = (files src).take pos)
    (hpos : pos ≤ (files src).length) (hfuel : (files src).length < pos + fuel) :
    ∃ files' copyEnd, copyLoop k src dst fuel call pos files = some (files', copyEnd)
      ∧ (∀ f, f ≠ dst → files' f = files f) ∧ files' dst <+: files src
      ∧ (copyEnd = .endOfFile → files' dst = files src)
      ∧ (k.NeverFails → copyEnd = .endOfFile) := by
  induction fuel generalizing call pos files with
  | zero => omega
  | succ fuel ih =>
      have hwrite : ∀ data, writeAt (files dst) pos data = files dst ++ data := by
        intro data
        have hlength : (files dst).length = pos := by
          rw [hdst, List.length_take, Nat.min_eq_left hpos]
        rw [← hlength, writeAt_end]
      rw [copyLoop]
      cases hread : k.read call with
      | none =>
          exact ⟨files, .readError, rfl, fun _ _ => rfl, hdst ▸ List.take_prefix _ _, nofun,
            fun hk => absurd hread (hk.read_ne call)⟩
      | some n =>
          obtain ⟨buf, hbuf⟩ : ∃ buf, ((files src).drop pos).take (min copyBufSize (n + 1)) = buf :=
            ⟨_, rfl⟩
          have hnext : files dst ++ buf = (files src).take (pos + buf.length) := by
            rw [hdst, ← hbuf, take_append_read]
          have hlength := congrArg List.length hbuf
          rw [List.length_take, List.length_drop] at hlength
          simp only [hbuf]
          by_cases hnil : buf = []
          · -- nothing more to read
            rw [if_pos hnil]
            have hall : files dst = files src := by
              rw [hnil, List.length_nil, copyBufSize] at hlength
              rw [hdst, List.take_of_length_le (by omega)]
            exact ⟨files, .endOfFile, rfl, fun _ _ => rfl, hall ▸ List.prefix_rfl, fun _ => hall,
              fun _ => rfl⟩
          · rw [if_neg hnil, hwrite]
            obtain ⟨written, hwritten⟩ : ∃ written, buf.take ((k.write call).getD 0) = written :=
              ⟨_, rfl⟩
            simp only [hwritten]
            have hpart : written <+: buf := hwritten ▸ List.take_prefix _ _
            split_ifs with hshort
            · refine ⟨_, .shortWrite, rfl, fun f hf => Function.update_of_ne hf .., ?_, nofun,
                fun hk => ?_⟩
              · rw [Function.update_self]
                exact ((List.prefix_append_right_inj _).mpr hpart).trans
                  (hnext ▸ List.take_prefix _ _)
              · rw [← hwritten, hk.take_write call (by omega)] at hshort
                exact absurd hshort (Nat.lt_irrefl _)
            · have hfull : written = buf := hpart.eq_of_length_le (by omega)
              have hbufpos := List.length_pos_iff.mpr hnil
              have hsame : (Function.update files dst (files dst ++ written)) src = files src :=
                Function.update_of_ne hne ..
              obtain ⟨files', copyEnd, hrun, hothers, hpre, hend, hnever⟩ :=
                @ih (call + 1) (pos + buf.length)
                  (Function.update files dst (files dst ++ written))
                  (by rw [Function.update_self, hsame, hfull, hnext])
                  (by rw [hsame]; omega) (by rw [hsame]; omega)
              rw [hsame] at hpre hend
              exact ⟨files', copyEnd, hrun,
                fun f hf => (hothers f hf).trans (Function.update_of_ne hf ..), hpre, hend, hnever⟩

/-- A copy behind both calls of `open`. -/
lemma copyFile_opened (k : CopyKernel File) {src dst : File} (hin : k.openIn = some src)
    (hout : k.openOut = some dst) (files : File → List UInt8) {fuel : ℕ}
    (hfuel : (files src).length < fuel) :
    ∃ o, copyFile k fuel files = some o ∧ (∀ f, f ≠ dst → o.files f = files f)
      ∧ o.files dst <+: (if src = dst then [] else files src)
      ∧ (o.result = .ok → o.files dst = if src = dst then [] else files src)
      ∧ (k.NeverFails → o.result = .ok) := by
  obtain ⟨files', copyEnd, hrun, hothers, hprefix, hend, hnever⟩ : ∃ files' copyEnd,
      copyLoop k src dst fuel 0 0 (Function.update files dst []) = some (files', copyEnd)
        ∧ (∀ f, f ≠ dst → files' f = files f)
        ∧ files' dst <+: (if src = dst then [] else files src)
        ∧ (copyEnd = .endOfFile → files' dst = if src = dst then [] else files src)
        ∧ (k.NeverFails → copyEnd = .endOfFile) := by
    by_cases hne : src = dst
    · subst hne
      obtain ⟨fuel, rfl⟩ := Nat.exists_eq_add_of_lt hfuel
      rw [copyLoop]
      cases hread : k.read 0 with
      | none =>
          refine ⟨_, .readError, rfl, fun f hf => Function.update_of_ne hf .., ?_, nofun,
            fun hk => absurd hread (hk.read_ne 0)⟩
          simp
      | some n =>
          refine ⟨Function.update files src [], .endOfFile, by simp,
            fun f hf => Function.update_of_ne hf .., ?_, fun _ => ?_, fun _ => rfl⟩ <;> simp
    · have hsame : Function.update files dst [] src = files src := Function.update_of_ne hne ..
      obtain ⟨files', copyEnd, hrun, hothers, hprefix, hend, hnever⟩ :=
        @copyLoop_spec _ _ k src dst hne fuel 0 0 (Function.update files dst [])
          (by rw [Function.update_self, List.take_zero]) (Nat.zero_le _) (by rw [hsame]; omega)
      rw [hsame] at hprefix hend
      rw [if_neg hne]
      exact ⟨files', copyEnd, hrun,
        fun f hf => (hothers f hf).trans (Function.update_of_ne hf ..), hprefix, hend, hnever⟩
  rw [copyFile, hin, hout]
  simp only [hrun, Option.map_some]
  refine ⟨_, rfl, hothers, hprefix, fun hok => ?_, fun hk => ?_⟩
  · simp only at hok
    split_ifs at hok with hclosed
    cases copyEnd with
    | endOfFile => exact hend rfl
    | readError => cases hok
    | shortWrite => cases hok
  · simp [hnever hk, hk.2.1, hk.2.2]

/-- **What `lfs.copy` leaves behind**, whatever its calls answer.  Where a file cannot be opened,
nothing is changed.  Otherwise no other file is changed, and the target is a beginning of the
source; it is the whole source if the answer is `true`, and that is the answer if no call fails.  A
file that is copied onto itself is emptied. -/
theorem copyFile_spec (k : CopyKernel File) (files : File → List UInt8) {fuel : ℕ}
    (hfuel : ∀ src, k.openIn = some src → (files src).length < fuel) :
    ∃ o, copyFile k fuel files = some o
      ∧ (k.openIn = none ∨ k.openOut = none → o.files = files ∧ o.result = .strerror)
      ∧ ∀ src dst, k.openIn = some src → k.openOut = some dst →
        (∀ f, f ≠ dst → o.files f = files f)
          ∧ o.files dst <+: (if src = dst then [] else files src)
          ∧ (o.result = .ok → o.files dst = if src = dst then [] else files src)
          ∧ (k.NeverFails → o.result = .ok) := by
  cases hin : k.openIn with
  | none =>
      refine ⟨⟨files, .strerror, false⟩, by rw [copyFile, hin], fun _ => ⟨rfl, rfl⟩, ?_⟩
      rintro src dst ⟨⟩
  | some src =>
      cases hout : k.openOut with
      | none =>
          refine ⟨⟨files, .strerror, false⟩, by rw [copyFile, hin, hout], fun _ => ⟨rfl, rfl⟩, ?_⟩
          rintro src dst - ⟨⟩
      | some dst =>
          obtain ⟨o, hcopy, hspec⟩ := copyFile_opened k hin hout files (hfuel src hin)
          refine ⟨o, hcopy, fun hnone => by simp at hnone, ?_⟩
          rintro src' dst' ⟨⟩ ⟨⟩
          exact hspec

end Copy

/-- Two reads of at most two bytes. -/
def twoReads : CopyKernel ℕ := ⟨some 0, some 1, fun _ => some 1, fun _ => some 2048, true, true⟩

/-- Three bytes in two reads. -/
theorem copyFile_spec_three :
    ∃ o, copyFile twoReads 4 (fun f => if f = 0 then [1, 2, 3] else [4]) = some o
      ∧ (twoReads.openIn = none ∨ twoReads.openOut = none →
        o.files = (fun f => if f = 0 then [1, 2, 3] else [4]) ∧ o.result = .strerror)
      ∧ ∀ src dst, twoReads.openIn = some src → twoReads.openOut = some dst →
        (∀ f, f ≠ dst → o.files f = if f = 0 then [1, 2, 3] else [4])
          ∧ o.files dst <+: (if src = dst then [] else if src = 0 then [1, 2, 3] else [4])
          ∧ (o.result = .ok →
            o.files dst = if src = dst then [] else if src = 0 then [1, 2, 3] else [4])
          ∧ (twoReads.NeverFails → o.result = .ok) := by
  refine copyFile_spec twoReads (fun f => if f = 0 then [1, 2, 3] else [4]) ?_
  rintro src ⟨⟩
  decide

end Luan
