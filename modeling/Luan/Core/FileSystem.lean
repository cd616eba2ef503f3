import Mathlib.Data.List.Induction
import Mathlib.Tactic.Common

/-!
# File systems

A tree of files, directories and symbolic links, with the way from a path to an entry.

* `FileSystem` — the entries; what is in a directory has that directory above it.
* `FileSystem.walk` — a path, step by step, through the links on the way.  `FileSystem.Leads` has
  a rule for each step, and `walk_add_link` says that no link leads through itself.
* `FileManager` — the calls that look at a file system, and those that change it.  A call that
  fails leaves everything as it was.
-/

namespace Luan

/-! ## Entries -/

/-- The place of an entry: the names from the root down. -/
abbrev Path := List String

inductive PathStep
  /-- `..` -/
  | up
  | down (name : String)
  deriving DecidableEq, Repr

/-- A path as it is written. -/
structure PathText where
  absolute : Bool
  steps : List PathStep
  deriving DecidableEq, Repr

inductive Entry
  | file
  | directory
  | link (target : PathText)
  deriving DecidableEq, Repr

structure FileSystem where
  entry : Path → Option Entry
  root : entry [] = some .directory
  parent : ∀ {path name}, entry (path ++ [name]) ≠ none → entry path = some .directory

namespace FileSystem

/-- What lies below a place has a directory there. -/
lemma ancestor (fs : FileSystem) {path rest : Path} (h : fs.entry (path ++ rest) ≠ none)
    (hrest : rest ≠ []) : fs.entry path = some .directory := by
  induction rest using List.reverseRecOn with
  | nil => exact absurd rfl hrest
  | append_singleton rest name ih =>
      rw [← List.append_assoc] at h
      have hparent := fs.parent h
      by_cases hnil : rest = []
      · simpa [hnil] using hparent
      · exact ih (by simp [hparent]) hnil

/-- A place with a directory. -/
def Directory (fs : FileSystem) : Type := {path : Path // fs.entry path = some .directory}

/-- The empty file system. -/
def empty : FileSystem where
  entry path := if path = [] then some .directory else none
  root := rfl
  parent h := absurd (if_neg (by simp)) h

/-- A new entry, in a directory where the name is free. -/
def add (fs : FileSystem) (dir : Path) (name : String) (e : Entry) : FileSystem :=
  if h : fs.entry dir = some .directory ∧ fs.entry (dir ++ [name]) = none then
    { entry := fun path => if path = dir ++ [name] then some e else fs.entry path
      root := by
        rw [if_neg (by simp)]
        exact fs.root
      parent := by
        intro path name' hentry
        split_ifs at hentry with hnew
        · obtain ⟨rfl, -⟩ := List.append_inj' hnew rfl
          rw [if_neg (by simp)]
          exact h.1
        · have hdir := fs.parent hentry
          rw [if_neg]
          · exact hdir
          · rintro rfl
            simp [h.2] at hdir }
  else fs

/-- An entry goes, with all that is below it. -/
def remove (fs : FileSystem) (dir : Path) (name : String) : FileSystem where
  entry path := if dir ++ [name] <+: path then none else fs.entry path
  root := by
    rw [if_neg (by simp)]
    exact fs.root
  parent := by
    intro path name' hentry
    split_ifs at hentry with hbelow
    · exact absurd rfl hentry
    · rw [if_neg]
      · exact fs.parent hentry
      · intro habove
        exact hbelow (habove.trans (List.prefix_append _ _))

lemma add_apply {fs : FileSystem} {dir : Path} {name : String}
    (hdir : fs.entry dir = some .directory) (hfree : fs.entry (dir ++ [name]) = none) (e : Entry)
    (path : Path) :
    (fs.add dir name e).entry path = if path = dir ++ [name] then some e else fs.entry path := by
  rw [add, dif_pos ⟨hdir, hfree⟩]

lemma remove_apply (fs : FileSystem) (dir : Path) (name : String) (path : Path) :
    (fs.remove dir name).entry path
      = if dir ++ [name] <+: path then none else fs.entry path := rfl

@[simp]
lemma add_apply_dir {fs : FileSystem} {dir : Path} {name : String} {e : Entry} :
    (fs.add dir name e).entry dir = fs.entry dir := by
  rw [add]
  split_ifs with h
  · simp
  · rfl

@[simp]
lemma remove_apply_dir {fs : FileSystem} {dir : Path} {name : String} :
    (fs.remove dir name).entry dir = fs.entry dir := by
  rw [remove_apply, if_neg]
  intro hle
  have hlength := hle.length_le
  rw [List.length_append] at hlength
  exact Nat.not_succ_le_self _ hlength

lemma remove_apply_self {fs : FileSystem} {dir : Path} {name : String} :
    (fs.remove dir name).entry (dir ++ [name]) = none := by
  rw [remove_apply, if_pos List.prefix_rfl]

/-- Below anything but a directory there is nothing, so nothing else goes. -/
lemma remove_of_not_directory {fs : FileSystem} {dir : Path} {name : String}
    (h : fs.entry (dir ++ [name]) ≠ some .directory) {path : Path} (hne : path ≠ dir ++ [name]) :
    (fs.remove dir name).entry path = fs.entry path := by
  rw [remove_apply]
  split_ifs with hbelow
  · obtain ⟨rest, rfl⟩ := hbelow
    by_contra hentry
    exact h (fs.ancestor (Ne.symm hentry) (by simpa using hne))
  · rfl

/-! ## From a path to an entry -/

/-- The steps of a path, from a directory on.  `follow` goes on at a link. -/
def walkWith (fs : FileSystem) (follow : Path → List PathStep → Option Path) :
    Path → List PathStep → Option Path
  | base, [] => some base
  | base, .up :: rest => walkWith fs follow base.dropLast rest
  | base, .down name :: rest =>
      match fs.entry (base ++ [name]) with
      | some .directory => walkWith fs follow (base ++ [name]) rest
      | some .file => if rest = [] then some (base ++ [name]) else none
      | some (.link target) => follow (if target.absolute then [] else base) (target.steps ++ rest)
      | none => none

/-- The place that a path leads to, with so many links on the way at most. -/
def walk (fs : FileSystem) : ℕ → Path → List PathStep → Option Path
  | 0 => fs.walkWith fun _ _ => none
  | links + 1 => fs.walkWith (fs.walk links)

section Walk

variable {fs : FileSystem} {links : ℕ} {base : Path} {name : String} {rest : List PathStep}

@[simp]
lemma walk_nil : fs.walk links base [] = some base := by cases links <;> rfl

lemma walk_directory (h : fs.entry (base ++ [name]) = some .directory) :
    fs.walk links base (.down name :: rest) = fs.walk links (base ++ [name]) rest := by
  cases links <;> simp only [walk, walkWith, h]

lemma walk_file (h : fs.entry (base ++ [name]) = some .file) :
    fs.walk links base (.down name :: rest)
      = if rest = [] then some (base ++ [name]) else none := by
  cases links <;> simp only [walk, walkWith, h]

/-- The way down to a directory. -/
lemma walk_down {more : Path} (h : fs.entry (base ++ more) = some .directory) :
    fs.walk links base (more.map .down ++ rest) = fs.walk links (base ++ more) rest := by
  induction more generalizing base with
  | nil => simp
  | cons name more ih =>
      have hall : base ++ name :: more = (base ++ [name]) ++ more := by simp
      have hname : fs.entry (base ++ [name]) = some .directory := by
        by_cases hnil : more = []
        · simpa [hnil] using h
        · refine fs.ancestor ?_ hnil
          simp [← hall, h]
      rw [hall] at h ⊢
      rw [List.map_cons, List.cons_append, walk_directory hname, ih h]

lemma walk_up : fs.walk links base (.up :: rest) = fs.walk links base.dropLast rest := by
  cases links <;> rfl

lemma walk_link {target : PathText} (h : fs.entry (base ++ [name]) = some (.link target)) :
    fs.walk (links + 1) base (.down name :: rest)
      = fs.walk links (if target.absolute then [] else base) (target.steps ++ rest) := by
  simp only [walk, walkWith, h]

lemma walk_zero_link {target : PathText} (h : fs.entry (base ++ [name]) = some (.link target)) :
    fs.walk 0 base (.down name :: rest) = none := by
  simp only [walk, walkWith, h]

lemma walk_none (h : fs.entry (base ++ [name]) = none) :
    fs.walk links base (.down name :: rest) = none := by
  cases links <;> simp only [walk, walkWith, h]

end Walk

/-- The ways that arrive, one rule for each step. -/
inductive Leads (fs : FileSystem) : ℕ → Path → List PathStep → Path → Prop
  | here {links base} : Leads fs links base [] base
  | up {links base rest place} (h : Leads fs links base.dropLast rest place) :
      Leads fs links base (.up :: rest) place
  | directory {links base name rest place} (hentry : fs.entry (base ++ [name]) = some .directory)
      (h : Leads fs links (base ++ [name]) rest place) :
      Leads fs links base (.down name :: rest) place
  | file {links base name} (hentry : fs.entry (base ++ [name]) = some .file) :
      Leads fs links base [.down name] (base ++ [name])
  | link {links base name rest place} {target : PathText}
      (hentry : fs.entry (base ++ [name]) = some (.link target))
      (h : Leads fs links (if target.absolute then [] else base) (target.steps ++ rest) place) :
      Leads fs (links + 1) base (.down name :: rest) place

section Leads

variable {fs fs' : FileSystem} {links links' : ℕ} {base dir place : Path} {name : String}
  {steps rest : List PathStep} {target : PathText}

lemma leads_of_walk (h : fs.walk links base steps = some place) :
    fs.Leads links base steps place := by
  induction links using Nat.strongRecOn generalizing base steps with
  | ind links ihlinks =>
      induction steps generalizing base with
      | nil =>
          rw [walk_nil] at h
          cases h
          exact .here
      | cons step rest ih =>
          cases step with
          | up => exact .up (ih (walk_up.symm.trans h))
          | down name =>
              cases hentry : fs.entry (base ++ [name]) with
              | none => simp [walk_none hentry] at h
              | some e =>
                  cases e with
                  | file =>
                      rw [walk_file hentry] at h
                      split_ifs at h with hrest
                      cases h
                      rw [hrest]
                      exact .file hentry
                  | directory => exact .directory hentry (ih ((walk_directory hentry).symm.trans h))
                  | link target =>
                      cases links with
                      | zero => simp [walk_zero_link hentry] at h
                      | succ links =>
                          rw [walk_link hentry] at h
                          exact .link hentry (ihlinks links (Nat.lt_succ_self links) h)

/-- The rules are the walk. -/
lemma walk_eq_some_iff :
    fs.walk links base steps = some place ↔ fs.Leads links base steps place := by
  refine ⟨leads_of_walk, fun h => ?_⟩
  induction h with
  | here => exact walk_nil
  | up _ ih => rw [walk_up, ih]
  | directory hentry _ ih => rw [walk_directory hentry, ih]
  | file hentry => rw [walk_file hentry, if_pos rfl]
  | link hentry _ ih => rw [walk_link hentry, ih]

/-- A way that arrives has arrived on the way, too. -/
lemma Leads.take (h : fs.Leads links base (steps ++ rest) place) :
    ∃ mid, fs.Leads links base steps mid := by
  generalize hall : steps ++ rest = all at h
  induction h generalizing steps with
  | here =>
      obtain ⟨rfl, -⟩ := List.append_eq_nil_iff.mp hall
      exact ⟨_, .here⟩
  | up _ ih =>
      cases steps with
      | nil => exact ⟨_, .here⟩
      | cons step steps =>
          obtain ⟨rfl, hrest⟩ := List.cons_eq_cons.mp hall
          exact (ih hrest).imp fun _ => .up
  | directory hentry _ ih =>
      cases steps with
      | nil => exact ⟨_, .here⟩
      | cons step steps =>
          obtain ⟨rfl, hrest⟩ := List.cons_eq_cons.mp hall
          exact (ih hrest).imp fun _ => .directory hentry
  | file hentry =>
      cases steps with
      | nil => exact ⟨_, .here⟩
      | cons step steps =>
          obtain ⟨rfl, hrest⟩ := List.cons_eq_cons.mp hall
          obtain ⟨rfl, -⟩ := List.append_eq_nil_iff.mp hrest
          exact ⟨_, .file hentry⟩
  | link hentry _ ih =>
      cases steps with
      | nil => exact ⟨_, .here⟩
      | cons step steps =>
          obtain ⟨rfl, hrest⟩ := List.cons_eq_cons.mp hall
          refine (ih ?_).imp fun _ => .link hentry
          rw [List.append_assoc]
          exact congrArg _ hrest

/-- More links may be on the way, and more entries elsewhere. -/
lemma Leads.mono (hsub : ∀ {path e}, fs.entry path = some e → fs'.entry path = some e)
    (h : fs.Leads links base steps place) (hle : links ≤ links') :
    fs'.Leads links' base steps place := by
  induction h generalizing links' with
  | here => exact .here
  | up _ ih => exact .up (ih hle)
  | directory hentry _ ih => exact .directory (hsub hentry) (ih hle)
  | file hentry => exact .file (hsub hentry)
  | link hentry _ ih =>
      cases links' with
      | zero => cases hle
      | succ links' => exact .link (hsub hentry) (ih (Nat.le_of_succ_le_succ hle))

lemma Leads.unique {place' : Path} (h : fs.Leads links base steps place)
    (h' : fs.Leads links base steps place') : place = place' :=
  Option.some.inj ((walk_eq_some_iff.mpr h).symm.trans (walk_eq_some_iff.mpr h'))

/-- With a new link, a way is an old one, or it comes to the link. -/
lemma Leads.of_add (hdir : fs.entry dir = some .directory)
    (hfree : fs.entry (dir ++ [name]) = none)
    (h : (fs.add dir name (.link target)).Leads links base steps place) :
    fs.Leads links base steps place
      ∨ ∃ k < links, ∃ mid, (fs.add dir name (.link target)).Leads k
          (if target.absolute then [] else dir) target.steps mid := by
  induction h with
  | here => exact Or.inl .here
  | up _ ih => exact ih.imp_left .up
  | directory hentry _ ih =>
      rw [add_apply hdir hfree] at hentry
      split_ifs at hentry with hnew
      · cases hentry
      · exact ih.imp_left (.directory hentry)
  | file hentry =>
      rw [add_apply hdir hfree] at hentry
      split_ifs at hentry with hnew
      · cases hentry
      · exact Or.inl (.file hentry)
  | @link links base name' rest place target' hentry h ih =>
      rw [add_apply hdir hfree] at hentry
      split_ifs at hentry with hnew
      · cases hentry
        obtain ⟨rfl, -⟩ := List.append_inj' hnew rfl
        exact Or.inr ⟨links, Nat.lt_succ_self links, h.take⟩
      · rcases ih with hold | ⟨k, hk, hmid⟩
        · exact Or.inl (.link hentry hold)
        · exact Or.inr ⟨k, Nat.lt_succ_of_lt hk, hmid⟩

/-- **A link does not lead through itself**: where it leads, its target leads without it. -/
lemma walk_add_link (hdir : fs.entry dir = some .directory)
    (hfree : fs.entry (dir ++ [name]) = none) :
    (fs.add dir name (.link target)).walk (links + 1) dir [.down name]
      = fs.walk links (if target.absolute then [] else dir) target.steps := by
  have hlink : (fs.add dir name (.link target)).entry (dir ++ [name]) = some (.link target) := by
    rw [add_apply hdir hfree, if_pos rfl]
  have hsub : ∀ {path e}, fs.entry path = some e →
      (fs.add dir name (.link target)).entry path = some e := by
    intro path e hentry
    rw [add_apply hdir hfree, if_neg]
    · exact hentry
    · rintro rfl
      simp [hfree] at hentry
  rw [walk_link hlink, List.append_nil]
  ext place
  rw [walk_eq_some_iff, walk_eq_some_iff]
  refine ⟨fun h => ?_, fun h => h.mono hsub (Nat.le_refl links)⟩
  induction links using Nat.strongRecOn generalizing place with
  | ind links ih =>
      rcases h.of_add hdir hfree with hold | ⟨k, hk, mid, hmid⟩
      · exact hold
      · have hshort := (ih k hk mid hmid).mono id (Nat.le_of_lt hk)
        rwa [h.unique (hshort.mono hsub (Nat.le_refl links))]

end Leads

end FileSystem

/-! ## The file manager -/

/-- How paths are read in a process. -/
structure FileManager where
  currentDirectory : Path
  /-- `MAXSYMLINKS` -/
  maxSymlinks : ℕ

namespace PathText

/-- The path of a place. -/
def ofPath (path : Path) : PathText := ⟨true, path.map .down⟩

/-- `path + "/" + name` -/
def appending (path : PathText) (name : String) : PathText :=
  ⟨path.absolute, path.steps ++ [.down name]⟩

end PathText

namespace FileManager

variable (fm : FileManager)

def resolve (fs : FileSystem) (path : PathText) : Option Path :=
  fs.walk fm.maxSymlinks (if path.absolute then [] else fm.currentDirectory) path.steps

/-- The directory and the name that a path ends with; a link there is not followed. -/
def locate (fs : FileSystem) (path : PathText) : Option (Path × String) :=
  match path.steps.getLast? with
  | some (.down name) =>
      (fm.resolve fs ⟨path.absolute, path.steps.dropLast⟩).map fun dir => (dir, name)
  | _ => none

/-- `fileExists(atPath:)` -/
def fileExists (fs : FileSystem) (path : PathText) : Bool := (fm.resolve fs path).isSome

/-- `destinationOfSymbolicLink(atPath:)` -/
def destinationOfSymbolicLink (fs : FileSystem) (path : PathText) : Option PathText :=
  match fm.locate fs path with
  | some (dir, name) =>
      match fs.entry (dir ++ [name]) with
      | some (.link target) => some target
      | _ => none
  | none => none

/-- `removeItem(atPath:)` -/
def removeItem (fs : FileSystem) (path : PathText) : FileSystem :=
  match fm.locate fs path with
  | some (dir, name) => fs.remove dir name
  | none => fs

/-- `createSymbolicLink(atPath:withDestinationPath:)` -/
def createSymbolicLink (fs : FileSystem) (path target : PathText) : FileSystem :=
  match fm.locate fs path with
  | some (dir, name) => fs.add dir name (.link target)
  | none => fs

section Directory

variable {fm} {fs : FileSystem} {dir : Path} {name : String}

lemma locate_appending (hdir : fs.entry dir = some .directory) :
    fm.locate fs ((PathText.ofPath dir).appending name) = some (dir, name) := by
  have hdown := @FileSystem.walk_down fs fm.maxSymlinks [] [] dir hdir
  simp only [List.append_nil, List.nil_append, FileSystem.walk_nil] at hdown
  simp [locate, PathText.appending, PathText.ofPath, resolve, hdown]

lemma resolve_appending (hdir : fs.entry dir = some .directory) :
    fm.resolve fs ((PathText.ofPath dir).appending name)
      = fs.walk fm.maxSymlinks dir [.down name] :=
  @FileSystem.walk_down fs fm.maxSymlinks [] _ dir hdir

end Directory

end FileManager

end Luan
