import Luan.Core.FileSystem

/-!
# The runtime of a document root

Before anything runs, two resolvers look for the directory with `core.lua`: one in
`LuanCLI/main.swift` and then one in `LuaBridge`.  Both want `runtime` in the document root to be a
link to the runtime of the current build.

* `cliRuntime`, `bridgeRuntime` — the resolvers: the file system behind them, and the directory.
* `resolveRuntime` — one after the other.
* `OnlyLinks` — what both do as long as `runtime` is a link or not there.
* `runtime_frame` — what they remove, and what takes its place.

The document root is a directory, since the program holds a lock file in it.  Calls that would
create it therefore do nothing.
-/

namespace Luan

/-- Where a runtime may be found. -/
structure RuntimeSearch where
  fileManager : FileManager
  standardizingPath : PathText → PathText
  exeDir : PathText
  /-- `[[NSBundle mainBundle] pathForResource:name ofType:nil]` -/
  pathForResource : String → Option PathText

/-- `documentRoot/runtime` -/
def docRuntime (documentRoot : Path) : PathText :=
  (PathText.ofPath documentRoot).appending "runtime"

/-- `documentRoot/service` -/
def legacyServiceDir (documentRoot : Path) : PathText :=
  (PathText.ofPath documentRoot).appending "service"

namespace RuntimeSearch

variable (S : RuntimeSearch)

/-! ## The program -/

/-- `runtimeDirLooksValid`, and `hasCore` in the bridge. -/
def hasCore (fs : FileSystem) (dir : PathText) : Bool :=
  S.fileManager.fileExists fs (dir.appending "core.lua")

/-- `exeDir + "/" + …`; behind an empty text this begins with the slash. -/
def slash (names : List String) : PathText :=
  ⟨S.exeDir.absolute || S.exeDir.steps = [], S.exeDir.steps ++ names.map .down⟩

def candidates : List PathText :=
  [⟨S.exeDir.absolute, S.exeDir.steps ++ [.up, .down "Resources", .down "runtime"]⟩,
    S.slash ["LuanMac.app", "Contents", "Resources", "runtime"],
    ⟨S.exeDir.absolute, S.exeDir.steps ++ [.up, .up, .up, .down "runtime"]⟩,
    S.slash ["runtime"]]

/-- `none` for the empty text -/
def sourceDir (fs : FileSystem) : Option PathText :=
  (S.candidates.map S.standardizingPath).find? (S.hasCore fs)

/-- `if fileExists { removeItem }; createSymbolicLink` -/
def replaceByLink (fs : FileSystem) (path target : PathText) : FileSystem :=
  let fs := if S.fileManager.fileExists fs path then S.fileManager.removeItem fs path else fs
  S.fileManager.createSymbolicLink fs path target

/-- `removeItem; createSymbolicLink` -/
def refreshLink (fs : FileSystem) (path target : PathText) : FileSystem :=
  S.fileManager.createSymbolicLink (S.fileManager.removeItem fs path) path target

/-- The resolver of the program; it exits if there is no directory. -/
def cliRuntime (fs : FileSystem) (documentRoot : Path) : FileSystem × Option PathText :=
  let docRuntime := docRuntime documentRoot
  let sourceDir := S.sourceDir fs
  let docRuntimeIsSymlink := (S.fileManager.destinationOfSymbolicLink fs docRuntime).isSome
  let fs :=
    match sourceDir with
    | some sourceDir => if docRuntimeIsSymlink then S.refreshLink fs docRuntime sourceDir else fs
    | none => fs
  if S.hasCore fs docRuntime then (fs, some docRuntime)
  else
    match sourceDir with
    | some sourceDir =>
        let fs := S.replaceByLink fs docRuntime sourceDir
        (fs, some (if S.hasCore fs docRuntime then docRuntime else sourceDir))
    | none => (fs, none)

/-! ## The bridge -/

def bundleRuntime : Option PathText :=
  S.pathForResource "runtime" <|> S.pathForResource "service"

def linkTarget (fs : FileSystem) (documentRoot : Path) : Option PathText :=
  if S.bundleRuntime.any (S.hasCore fs) then S.bundleRuntime
  else if S.hasCore fs (legacyServiceDir documentRoot) then some (legacyServiceDir documentRoot)
  else none

/-- The resolver of the bridge; it gives up if there is no directory. -/
def bridgeRuntime (fs : FileSystem) (documentRoot : Path) : FileSystem × Option PathText :=
  let localRuntimeDir := docRuntime documentRoot
  let localRuntimeIsSymlink :=
    (S.fileManager.destinationOfSymbolicLink fs localRuntimeDir).isSome
  let fs :=
    match S.linkTarget fs documentRoot with
    | some linkTarget =>
        if localRuntimeIsSymlink then S.refreshLink fs localRuntimeDir linkTarget
        else if !S.hasCore fs localRuntimeDir then S.replaceByLink fs localRuntimeDir linkTarget
        else fs
    | none => fs
  (fs,
    if S.hasCore fs localRuntimeDir then some localRuntimeDir
    else if S.bundleRuntime.any (S.hasCore fs) then S.bundleRuntime
    else if S.hasCore fs (legacyServiceDir documentRoot) then some (legacyServiceDir documentRoot)
    else none)

/-- Both resolvers; the second one does not run if the first has found nothing. -/
def resolveRuntime (fs : FileSystem) (documentRoot : Path) : FileSystem :=
  match S.cliRuntime fs documentRoot with
  | (fs, some _) => (S.bridgeRuntime fs documentRoot).1
  | (fs, none) => fs

end RuntimeSearch

/-! ## Links -/

section Links

variable {S : RuntimeSearch} {fs fs' fs'' : FileSystem} {documentRoot : Path}

/-- `runtime` is a link, or there is no such entry. -/
def Unblocked (documentRoot : Path) (fs : FileSystem) : Prop :=
  ∀ e, fs.entry (documentRoot ++ ["runtime"]) = some e → ∃ target, e = .link target

/-- The file systems differ only in the link `runtime`. -/
structure OnlyLinks (documentRoot : Path) (fs fs' : FileSystem) : Prop where
  other : ∀ path, path ≠ documentRoot ++ ["runtime"] → fs'.entry path = fs.entry path
  unblocked : Unblocked documentRoot fs'

namespace OnlyLinks

lemma refl (h : Unblocked documentRoot fs) : OnlyLinks documentRoot fs fs := ⟨fun _ _ => rfl, h⟩

lemma trans (h : OnlyLinks documentRoot fs fs') (h' : OnlyLinks documentRoot fs' fs'') :
    OnlyLinks documentRoot fs fs'' :=
  ⟨fun path hpath => (h'.other path hpath).trans (h.other path hpath), h'.unblocked⟩

lemma directory (h : OnlyLinks documentRoot fs fs')
    (hroot : fs.entry documentRoot = some .directory) :
    fs'.entry documentRoot = some .directory := by
  rw [h.other _ (by simp)]
  exact hroot

end OnlyLinks

lemma Unblocked.eq_none_or (h : Unblocked documentRoot fs) :
    fs.entry (documentRoot ++ ["runtime"]) = none
      ∨ ∃ target, fs.entry (documentRoot ++ ["runtime"]) = some (.link target) := by
  cases hentry : fs.entry (documentRoot ++ ["runtime"]) with
  | none => exact Or.inl rfl
  | some e =>
      obtain ⟨target, rfl⟩ := h e hentry
      exact Or.inr ⟨target, rfl⟩

lemma removeItem_docRuntime (hroot : fs.entry documentRoot = some .directory) :
    S.fileManager.removeItem fs (docRuntime documentRoot) = fs.remove documentRoot "runtime" := by
  rw [FileManager.removeItem, docRuntime, FileManager.locate_appending hroot]

lemma createSymbolicLink_docRuntime (hroot : fs.entry documentRoot = some .directory)
    (target : PathText) :
    S.fileManager.createSymbolicLink fs (docRuntime documentRoot) target
      = fs.add documentRoot "runtime" (.link target) := by
  rw [FileManager.createSymbolicLink, docRuntime, FileManager.locate_appending hroot]

lemma isSymlink_docRuntime (hroot : fs.entry documentRoot = some .directory) :
    (S.fileManager.destinationOfSymbolicLink fs (docRuntime documentRoot)).isSome = true
      ↔ ∃ target, fs.entry (documentRoot ++ ["runtime"]) = some (.link target) := by
  rw [FileManager.destinationOfSymbolicLink, docRuntime, FileManager.locate_appending hroot]
  split
  case h_1 dir name heq =>
      obtain ⟨rfl, rfl⟩ := Prod.mk.inj (Option.some.inj heq)
      cases hentry : fs.entry (documentRoot ++ ["runtime"]) with
      | none => simp
      | some e => cases e <;> simp
  case h_2 heq => cases heq

/-- Behind a removal nothing is in the way. -/
lemma unblocked_remove : Unblocked documentRoot (fs.remove documentRoot "runtime") := by
  intro e hentry
  rw [FileSystem.remove_apply_self] at hentry
  cases hentry

lemma onlyLinks_remove (h : Unblocked documentRoot fs) :
    OnlyLinks documentRoot fs (fs.remove documentRoot "runtime") := by
  refine ⟨fun path hpath => FileSystem.remove_of_not_directory ?_ hpath, unblocked_remove⟩
  intro hdir
  obtain ⟨target, heq⟩ := h _ hdir
  cases heq

lemma onlyLinks_add (hroot : fs.entry documentRoot = some .directory)
    (h : Unblocked documentRoot fs) (target : PathText) :
    OnlyLinks documentRoot fs (fs.add documentRoot "runtime" (.link target)) := by
  rcases h.eq_none_or with hnone | ⟨old, hlink⟩
  · refine ⟨fun path hpath => ?_, fun e hentry => ?_⟩
    · rw [FileSystem.add_apply hroot hnone, if_neg hpath]
    · rw [FileSystem.add_apply hroot hnone, if_pos rfl] at hentry
      exact ⟨target, (Option.some.inj hentry).symm⟩
  · have hsame : fs.add documentRoot "runtime" (.link target) = fs := by
      rw [FileSystem.add, dif_neg]
      simp [hlink]
    rw [hsame]
    exact OnlyLinks.refl h

/-- **A link takes the place of a link.** -/
lemma onlyLinks_refreshLink (hroot : fs.entry documentRoot = some .directory)
    (h : Unblocked documentRoot fs) (target : PathText) :
    OnlyLinks documentRoot fs (S.refreshLink fs (docRuntime documentRoot) target) := by
  have hremove := onlyLinks_remove h
  rw [RuntimeSearch.refreshLink, removeItem_docRuntime hroot,
    createSymbolicLink_docRuntime (hremove.directory hroot)]
  exact hremove.trans (onlyLinks_add (hremove.directory hroot) hremove.unblocked target)

lemma onlyLinks_replaceByLink (hroot : fs.entry documentRoot = some .directory)
    (h : Unblocked documentRoot fs) (target : PathText) :
    OnlyLinks documentRoot fs (S.replaceByLink fs (docRuntime documentRoot) target) := by
  simp only [RuntimeSearch.replaceByLink]
  split_ifs with hexists
  · exact onlyLinks_refreshLink hroot h target
  · rw [createSymbolicLink_docRuntime hroot]
    exact onlyLinks_add hroot h target

/-- `runtime` is a link. -/
def Linked (documentRoot : Path) (fs : FileSystem) : Prop :=
  ∃ target, fs.entry (documentRoot ++ ["runtime"]) = some (.link target)

/-- Where nothing is in the way, there is a link behind the call. -/
lemma linked_add (hroot : fs.entry documentRoot = some .directory)
    (h : Unblocked documentRoot fs) (target : PathText) :
    Linked documentRoot (fs.add documentRoot "runtime" (.link target)) := by
  have hunblocked := (onlyLinks_add hroot h target).unblocked
  rcases hunblocked.eq_none_or with hnone | hlinked
  · exfalso
    rcases h.eq_none_or with hfree | ⟨old, hlink⟩
    · rw [FileSystem.add_apply hroot hfree, if_pos rfl] at hnone
      cases hnone
    · rw [FileSystem.add, dif_neg (by simp [hlink]), hlink] at hnone
      cases hnone
  · exact hlinked

lemma linked_refreshLink (hroot : fs.entry documentRoot = some .directory) (target : PathText) :
    Linked documentRoot (S.refreshLink fs (docRuntime documentRoot) target) := by
  have hroot' : (fs.remove documentRoot "runtime").entry documentRoot = some .directory := by
    rw [FileSystem.remove_apply_dir]
    exact hroot
  rw [RuntimeSearch.refreshLink, removeItem_docRuntime hroot,
    createSymbolicLink_docRuntime hroot']
  exact linked_add hroot' unblocked_remove target

/-! ## The resolvers -/

/-- **The program changes a link only.** -/
lemma onlyLinks_cliRuntime (hroot : fs.entry documentRoot = some .directory)
    (h : Unblocked documentRoot fs) :
    OnlyLinks documentRoot fs (S.cliRuntime fs documentRoot).1 := by
  simp only [RuntimeSearch.cliRuntime]
  cases hsource : S.sourceDir fs with
  | none => split_ifs <;> exact OnlyLinks.refl h
  | some sourceDir =>
      have hfirst : OnlyLinks documentRoot fs
          (if (S.fileManager.destinationOfSymbolicLink fs (docRuntime documentRoot)).isSome then
            S.refreshLink fs (docRuntime documentRoot) sourceDir else fs) := by
        split_ifs
        · exact onlyLinks_refreshLink hroot h sourceDir
        · exact OnlyLinks.refl h
      split_ifs at hfirst ⊢
      · exact hfirst
      · exact hfirst.trans (onlyLinks_replaceByLink (hfirst.directory hroot) hfirst.unblocked _)
      · exact hfirst
      · exact hfirst.trans (onlyLinks_replaceByLink (hfirst.directory hroot) hfirst.unblocked _)

/-- **The bridge changes a link only.** -/
lemma onlyLinks_bridgeRuntime (hroot : fs.entry documentRoot = some .directory)
    (h : Unblocked documentRoot fs) :
    OnlyLinks documentRoot fs (S.bridgeRuntime fs documentRoot).1 := by
  simp only [RuntimeSearch.bridgeRuntime]
  cases htarget : S.linkTarget fs documentRoot with
  | none => exact OnlyLinks.refl h
  | some linkTarget =>
      simp only
      split_ifs
      · exact onlyLinks_refreshLink hroot h linkTarget
      · exact onlyLinks_replaceByLink hroot h linkTarget
      · exact OnlyLinks.refl h

/-- Behind the bridge a link is still a link. -/
lemma linked_bridgeRuntime (hroot : fs.entry documentRoot = some .directory)
    (h : Linked documentRoot fs) : Linked documentRoot (S.bridgeRuntime fs documentRoot).1 := by
  have hsymlink := (isSymlink_docRuntime (S := S) hroot).mpr h
  simp only [RuntimeSearch.bridgeRuntime, hsymlink, if_true]
  cases htarget : S.linkTarget fs documentRoot with
  | none => exact h
  | some linkTarget => exact linked_refreshLink hroot linkTarget

lemma onlyLinks_resolveRuntime (hroot : fs.entry documentRoot = some .directory)
    (h : Unblocked documentRoot fs) :
    OnlyLinks documentRoot fs (S.resolveRuntime fs documentRoot) := by
  have hcli := onlyLinks_cliRuntime (S := S) hroot h
  simp only [RuntimeSearch.resolveRuntime]
  split
  case h_1 fs' runtimeDir heq =>
      rw [heq] at hcli
      exact hcli.trans (onlyLinks_bridgeRuntime (hcli.directory hroot) hcli.unblocked)
  case h_2 fs' heq =>
      rw [heq] at hcli
      exact hcli

end Links

/-! ## Something in the way -/

section Blocked

variable {S : RuntimeSearch} {fs : FileSystem} {documentRoot : Path} {e : Entry}

/-- A file is in the way, or a directory without `core.lua`, and the program has a runtime to put
in its place. -/
structure RuntimeSearch.Blocked (S : RuntimeSearch) (documentRoot : Path) (fs : FileSystem) :
    Prop where
  entry : fs.entry (documentRoot ++ ["runtime"]) = some .file
    ∨ fs.entry (documentRoot ++ ["runtime"]) = some .directory
  noCore : S.hasCore fs (docRuntime documentRoot) = false
  source : (S.sourceDir fs).isSome

lemma not_isSymlink (hroot : fs.entry documentRoot = some .directory)
    (hlink : ∀ target, fs.entry (documentRoot ++ ["runtime"]) ≠ some (.link target)) :
    (S.fileManager.destinationOfSymbolicLink fs (docRuntime documentRoot)).isSome = false := by
  rw [Bool.eq_false_iff]
  intro hsome
  obtain ⟨target, heq⟩ := (isSymlink_docRuntime hroot).mp hsome
  exact hlink target heq

lemma fileExists_docRuntime (hroot : fs.entry documentRoot = some .directory)
    (hentry : fs.entry (documentRoot ++ ["runtime"]) = some .file
      ∨ fs.entry (documentRoot ++ ["runtime"]) = some .directory) :
    S.fileManager.fileExists fs (docRuntime documentRoot) = true := by
  rw [FileManager.fileExists, docRuntime, FileManager.resolve_appending hroot]
  rcases hentry with hfile | hdir
  · rw [FileSystem.walk_file hfile]
    rfl
  · rw [FileSystem.walk_directory hdir, FileSystem.walk_nil]
    rfl

/-- A runtime with `core.lua` that is no link stays as it is. -/
lemma resolveRuntime_of_hasCore (hroot : fs.entry documentRoot = some .directory)
    (hentry : fs.entry (documentRoot ++ ["runtime"]) = some e) (hlink : ∀ target, e ≠ .link target)
    (hcore : S.hasCore fs (docRuntime documentRoot) = true) :
    S.resolveRuntime fs documentRoot = fs := by
  have hsymlink : (S.fileManager.destinationOfSymbolicLink fs (docRuntime documentRoot)).isSome
      = false := by
    refine not_isSymlink hroot fun target heq => ?_
    exact hlink target (Option.some.inj (hentry.symm.trans heq))
  have hcli : S.cliRuntime fs documentRoot = (fs, some (docRuntime documentRoot)) := by
    simp only [RuntimeSearch.cliRuntime, hsymlink]
    cases S.sourceDir fs <;> simp [hcore]
  simp only [RuntimeSearch.resolveRuntime, hcli, RuntimeSearch.bridgeRuntime, hsymlink, hcore]
  cases S.linkTarget fs documentRoot <;> rfl

/-- Without a runtime of its own the program leaves everything, and exits. -/
lemma resolveRuntime_of_no_source (hcore : S.hasCore fs (docRuntime documentRoot) = false)
    (hsource : S.sourceDir fs = none) : S.resolveRuntime fs documentRoot = fs := by
  simp [RuntimeSearch.resolveRuntime, RuntimeSearch.cliRuntime, hsource, hcore]

/-- **What is in the way is replaced by a link**, with all that is below it. -/
lemma resolveRuntime_of_blocked (hroot : fs.entry documentRoot = some .directory)
    (h : S.Blocked documentRoot fs) :
    OnlyLinks documentRoot (fs.remove documentRoot "runtime") (S.resolveRuntime fs documentRoot)
      ∧ Linked documentRoot (S.resolveRuntime fs documentRoot) := by
  obtain ⟨sourceDir, hsource⟩ := Option.isSome_iff_exists.mp h.source
  have hsymlink : (S.fileManager.destinationOfSymbolicLink fs (docRuntime documentRoot)).isSome
      = false := by
    rcases h.entry with hfile | hdir
    · exact not_isSymlink hroot fun target => by simp [hfile]
    · exact not_isSymlink hroot fun target => by simp [hdir]
  have hfree : (fs.remove documentRoot "runtime").entry documentRoot = some .directory := by
    rw [FileSystem.remove_apply_dir]
    exact hroot
  have hreplaced : OnlyLinks documentRoot (fs.remove documentRoot "runtime")
        (S.replaceByLink fs (docRuntime documentRoot) sourceDir)
      ∧ Linked documentRoot (S.replaceByLink fs (docRuntime documentRoot) sourceDir) := by
    simp only [RuntimeSearch.replaceByLink, fileExists_docRuntime hroot h.entry, if_true]
    rw [removeItem_docRuntime hroot, createSymbolicLink_docRuntime hfree]
    exact ⟨onlyLinks_add hfree unblocked_remove sourceDir,
      linked_add hfree unblocked_remove sourceDir⟩
  have hcli : ∃ runtimeDir, S.cliRuntime fs documentRoot
      = (S.replaceByLink fs (docRuntime documentRoot) sourceDir, some runtimeDir) := by
    simp [RuntimeSearch.cliRuntime, hsource, hsymlink, h.noCore]
  obtain ⟨runtimeDir, hcli⟩ := hcli
  obtain ⟨honly, hlinked⟩ := hreplaced
  rw [RuntimeSearch.resolveRuntime, hcli]
  exact ⟨honly.trans (onlyLinks_bridgeRuntime (honly.directory hfree) honly.unblocked),
    linked_bridgeRuntime (honly.directory hfree) hlinked⟩

/-- The three ways through both resolvers. -/
lemma resolveRuntime_cases (S : RuntimeSearch) (hroot : fs.entry documentRoot = some .directory) :
    Unblocked documentRoot fs ∧ OnlyLinks documentRoot fs (S.resolveRuntime fs documentRoot)
      ∨ S.resolveRuntime fs documentRoot = fs
      ∨ S.Blocked documentRoot fs
        ∧ OnlyLinks documentRoot (fs.remove documentRoot "runtime")
            (S.resolveRuntime fs documentRoot) := by
  by_cases hfree : Unblocked documentRoot fs
  · exact Or.inl ⟨hfree, onlyLinks_resolveRuntime hroot hfree⟩
  · simp only [Unblocked, not_forall, not_exists] at hfree
    obtain ⟨e, hentry, hlink⟩ := hfree
    cases hcore : S.hasCore fs (docRuntime documentRoot) with
    | true => exact Or.inr (Or.inl (resolveRuntime_of_hasCore hroot hentry hlink hcore))
    | false =>
        cases hsource : S.sourceDir fs with
        | none => exact Or.inr (Or.inl (resolveRuntime_of_no_source hcore hsource))
        | some sourceDir =>
            have hblocked : S.Blocked documentRoot fs := by
              refine ⟨?_, hcore, Option.isSome_iff_exists.mpr ⟨sourceDir, hsource⟩⟩
              cases e with
              | file => exact Or.inl hentry
              | directory => exact Or.inr hentry
              | link target => exact absurd rfl (hlink target)
            exact Or.inr (Or.inr ⟨hblocked, (resolveRuntime_of_blocked hroot hblocked).1⟩)

/-- **Nothing but `runtime` and what is below it is touched.** -/
lemma resolveRuntime_other (S : RuntimeSearch) (hroot : fs.entry documentRoot = some .directory)
    (path : Path) (hbelow : ¬ documentRoot ++ ["runtime"] <+: path) :
    (S.resolveRuntime fs documentRoot).entry path = fs.entry path := by
  have hne : path ≠ documentRoot ++ ["runtime"] := by
    rintro rfl
    exact hbelow List.prefix_rfl
  rcases resolveRuntime_cases S hroot with ⟨-, hlinks⟩ | hsame | ⟨-, hreplaced⟩
  · exact hlinks.other path hne
  · rw [hsame]
  · rw [hreplaced.other path hne, FileSystem.remove_apply, if_neg hbelow]

/-- **Only a link is removed, unless something is in the way.** -/
lemma resolveRuntime_keeps_iff (S : RuntimeSearch)
    (hroot : fs.entry documentRoot = some .directory) :
    (∀ path e, fs.entry path = some e →
        (S.resolveRuntime fs documentRoot).entry path = some e
          ∨ (path = documentRoot ++ ["runtime"] ∧ ∃ target, e = .link target))
      ↔ ¬ S.Blocked documentRoot fs := by
  constructor
  · intro hkeeps hblocked
    have hfree := (resolveRuntime_of_blocked hroot hblocked).1.unblocked
    have hgone : ∀ e, fs.entry (documentRoot ++ ["runtime"]) = some e →
        ∃ target, e = .link target := by
      intro e hentry
      rcases hkeeps _ e hentry with hkept | ⟨-, hlink⟩
      · exact hfree e hkept
      · exact hlink
    rcases hblocked.entry with hfile | hdir
    · obtain ⟨target, heq⟩ := hgone _ hfile
      cases heq
    · obtain ⟨target, heq⟩ := hgone _ hdir
      cases heq
  · intro hblocked path e hentry
    rcases resolveRuntime_cases S hroot with ⟨hfree, hlinks⟩ | hsame | ⟨hblocked', -⟩
    · by_cases hruntime : path = documentRoot ++ ["runtime"]
      · exact Or.inr ⟨hruntime, hfree e (hruntime ▸ hentry)⟩
      · left
        rw [hlinks.other path hruntime]
        exact hentry
    · left
      rw [hsame]
      exact hentry
    · exact absurd hblocked' hblocked

/-- **Where something is in the way**, it is gone with all that is below it, and `runtime` is a
link. -/
lemma resolveRuntime_replaces (hroot : fs.entry documentRoot = some .directory)
    (h : S.Blocked documentRoot fs) :
    (∃ target, (S.resolveRuntime fs documentRoot).entry (documentRoot ++ ["runtime"])
        = some (.link target))
      ∧ ∀ rest, rest ≠ [] →
        (S.resolveRuntime fs documentRoot).entry (documentRoot ++ ["runtime"] ++ rest) = none := by
  obtain ⟨honly, hlinked⟩ := resolveRuntime_of_blocked hroot h
  refine ⟨hlinked, fun rest hrest => ?_⟩
  rw [honly.other _ (by simpa using hrest), FileSystem.remove_apply,
    if_pos (List.prefix_append _ _)]

end Blocked

/-- **What the resolvers remove.**  In every file system they touch nothing but `runtime` in the
document root.  The only entry they remove is a link there, unless a file or a directory without
`core.lua` is in the way and the program has a runtime: exactly then they remove it, with all that
is below it, and a link takes its place. -/
theorem runtime_frame (S : RuntimeSearch) (fs : FileSystem) (documentRoot : fs.Directory) :
    (∀ path, ¬ documentRoot.1 ++ ["runtime"] <+: path →
        (S.resolveRuntime fs documentRoot.1).entry path = fs.entry path)
      ∧ ((∀ path e, fs.entry path = some e →
            (S.resolveRuntime fs documentRoot.1).entry path = some e
              ∨ (path = documentRoot.1 ++ ["runtime"] ∧ ∃ target, e = .link target))
          ↔ ¬ S.Blocked documentRoot.1 fs)
      ∧ (S.Blocked documentRoot.1 fs →
        (∃ target, (S.resolveRuntime fs documentRoot.1).entry (documentRoot.1 ++ ["runtime"])
            = some (.link target))
          ∧ ∀ rest, rest ≠ [] → (S.resolveRuntime fs documentRoot.1).entry
            (documentRoot.1 ++ ["runtime"] ++ rest) = none) :=
  ⟨resolveRuntime_other S documentRoot.2, resolveRuntime_keeps_iff S documentRoot.2,
    resolveRuntime_replaces documentRoot.2⟩

/-- A home directory with a directory `runtime`, and the program next to a runtime. -/
def unrelatedRuntime : FileSystem :=
  FileSystem.empty |>.add [] "home" .directory |>.add ["home"] "runtime" .directory
    |>.add ["home", "runtime"] "notes.txt" .file |>.add [] "bin" .directory
    |>.add ["bin"] "runtime" .directory |>.add ["bin", "runtime"] "core.lua" .file

/-- `/bin/luan`, without a bundle. -/
def besideRuntime : RuntimeSearch where
  fileManager := ⟨["home"], 32⟩
  standardizingPath path := path
  exeDir := .ofPath ["bin"]
  pathForResource _ := none

/-- **A directory is removed.**  `/bin/luan` in a home directory with a directory `runtime`. -/
theorem runtime_directory_removed :
    ¬ ∀ (S : RuntimeSearch) (fs : FileSystem) (documentRoot : fs.Directory) (path : Path)
      (e : Entry), fs.entry path = some e →
      (S.resolveRuntime fs documentRoot.1).entry path = some e
        ∨ (path.getLast? = some "runtime" ∧ ∃ target, e = .link target) := by
  intro h
  have hroot : unrelatedRuntime.entry ["home"] = some .directory := by decide
  have hentry : unrelatedRuntime.entry ["home", "runtime"] = some .directory := by decide
  have hblocked : besideRuntime.Blocked ["home"] unrelatedRuntime :=
    ⟨Or.inr hentry, by decide, by decide⟩
  have hfree := (resolveRuntime_of_blocked hroot hblocked).1.unblocked
  rcases h besideRuntime unrelatedRuntime ⟨["home"], hroot⟩ ["home", "runtime"] _ hentry with
    hkept | ⟨-, target, heq⟩
  · obtain ⟨target, heq⟩ := hfree _ hkept
    cases heq
  · cases heq

end Luan
