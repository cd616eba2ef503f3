import Luan.CLI.RuntimeDir

/-!
# One runtime for the program and the bridge

`LuanCLI/main.swift` settles on a runtime and makes `runtime` in the document root a link to it;
then the bridge looks for a runtime again, and may make `runtime` a link to something else.

* `ExecutesSame` — the bridge executes the directory that the program has settled on.
* `KeepsRuntime` — the condition, on what the program leaves behind.
* `bridgeRuntime_same_iff` — the one exactly if the other.

The bridge keeps a `runtime` that is no link.  A link, also a link of the program, goes for a link
to the resource of the bundle, and without such a resource for a link to `service`.
-/

namespace Luan

/-- The document root with a link `runtime`, whatever was there. -/
def linked (documentRoot : Path) (fs : FileSystem) (target : PathText) : FileSystem :=
  (fs.remove documentRoot "runtime").add documentRoot "runtime" (.link target)

namespace RuntimeSearch

variable (S : RuntimeSearch) (documentRoot : Path) (fs : FileSystem) (runtimeDir : PathText)

/-- Where the target of a link `runtime` leads as long as there is no `runtime`. -/
def targetPlace (target : PathText) : Option Path :=
  match S.fileManager.maxSymlinks with
  | 0 => none
  | links + 1 =>
      (fs.remove documentRoot "runtime").walk links
        (if target.absolute then [] else documentRoot) target.steps

/-- The bridge executes the directory that the program has settled on, and leaves no link to
another one. -/
def ExecutesSame : Prop :=
  ∃ place, S.fileManager.resolve fs runtimeDir = some place
    ∧ (∃ executed, (S.bridgeRuntime fs documentRoot).2 = some executed
        ∧ S.fileManager.resolve (S.bridgeRuntime fs documentRoot).1 executed = some place)
    ∧ ∀ other, S.fileManager.resolve (S.bridgeRuntime fs documentRoot).1 (docRuntime documentRoot)
        = some other → other = place

/-- What the bridge finds leads it to the directory that the program has settled on. -/
inductive KeepsRuntime : Prop
  /-- `runtime` is no link. -/
  | own (h : ∀ target, fs.entry (documentRoot ++ ["runtime"]) ≠ some (.link target))
  /-- The bridge has no target for the link, and none is needed. -/
  | noTarget (h : S.linkTarget fs documentRoot = none)
      (hcore : S.hasCore fs (docRuntime documentRoot) = true)
  /-- The target of the bridge is the directory of the program. -/
  | sameTree {target place} (h : S.linkTarget fs documentRoot = some target)
      (hcore : S.hasCore (linked documentRoot fs target) (docRuntime documentRoot) = true)
      (hsettled : S.fileManager.resolve fs runtimeDir = some place)
      (htarget : S.targetPlace documentRoot fs target = some place)
  /-- A link to the target leads to no `core.lua`, but the resource or `service` is the directory,
  and the link leads to no other. -/
  | around {target other place} (h : S.linkTarget fs documentRoot = some target)
      (hcore : S.hasCore (linked documentRoot fs target) (docRuntime documentRoot) = false)
      (hother : S.linkTarget (linked documentRoot fs target) documentRoot = some other)
      (hsettled : S.fileManager.resolve fs runtimeDir = some place)
      (hplace : S.fileManager.resolve (linked documentRoot fs target) other = some place)
      (htarget : ∀ other', S.targetPlace documentRoot fs target = some other' → other' = place)

end RuntimeSearch

section Resolvers

variable {S : RuntimeSearch} {fs fs' : FileSystem} {documentRoot : Path}
  {runtimeDir target : PathText}

/-! ## The link -/

lemma linked_directory (hroot : fs.entry documentRoot = some .directory) :
    (linked documentRoot fs target).entry documentRoot = some .directory := by
  simpa [linked] using hroot

lemma linked_runtime (hroot : fs.entry documentRoot = some .directory) :
    (linked documentRoot fs target).entry (documentRoot ++ ["runtime"]) = some (.link target) := by
  rw [linked, FileSystem.add_apply (by simpa using hroot) FileSystem.remove_apply_self, if_pos rfl]

/-- Where a new link leads. -/
lemma resolve_linked (hroot : fs.entry documentRoot = some .directory) :
    S.fileManager.resolve (linked documentRoot fs target) (docRuntime documentRoot)
      = S.targetPlace documentRoot fs target := by
  rw [docRuntime, FileManager.resolve_appending (linked_directory hroot),
    RuntimeSearch.targetPlace]
  cases S.fileManager.maxSymlinks with
  | zero => exact FileSystem.walk_zero_link (linked_runtime hroot)
  | succ links =>
      exact FileSystem.walk_add_link (by simpa using hroot) FileSystem.remove_apply_self

lemma refreshLink_docRuntime (hroot : fs.entry documentRoot = some .directory) :
    S.refreshLink fs (docRuntime documentRoot) target = linked documentRoot fs target := by
  rw [RuntimeSearch.refreshLink, removeItem_docRuntime hroot,
    createSymbolicLink_docRuntime (by simpa using hroot), linked]

/-- Whatever is in the way of the link, there is one afterwards. -/
lemma replaceByLink_docRuntime (hroot : fs.entry documentRoot = some .directory) :
    (S.replaceByLink fs (docRuntime documentRoot) target).entry documentRoot = some .directory
      ∧ ∃ target', (S.replaceByLink fs (docRuntime documentRoot) target).entry
          (documentRoot ++ ["runtime"]) = some (.link target') := by
  simp only [RuntimeSearch.replaceByLink]
  split_ifs with hexists
  · rw [removeItem_docRuntime hroot, createSymbolicLink_docRuntime (by simpa using hroot)]
    exact ⟨linked_directory hroot, target, linked_runtime hroot⟩
  · rw [createSymbolicLink_docRuntime hroot, FileSystem.add_apply_dir]
    refine ⟨hroot, ?_⟩
    cases hentry : fs.entry (documentRoot ++ ["runtime"]) with
    | none => exact ⟨target, by rw [FileSystem.add_apply hroot hentry, if_pos rfl]⟩
    | some e =>
        cases e with
        | file => exact absurd (fileExists_docRuntime hroot (Or.inl hentry)) hexists
        | directory => exact absurd (fileExists_docRuntime hroot (Or.inr hentry)) hexists
        | link target' =>
            refine ⟨target', ?_⟩
            rw [FileSystem.add, dif_neg (by simp [hentry])]
            exact hentry

/-- With `core.lua` there is the directory. -/
lemma resolve_of_hasCore (h : S.hasCore fs runtimeDir = true) :
    ∃ place, S.fileManager.resolve fs runtimeDir = some place := by
  obtain ⟨core, hcore⟩ := Option.isSome_iff_exists.mp h
  obtain ⟨place, hplace⟩ := (FileSystem.walk_eq_some_iff.mp hcore).take
  exact ⟨place, FileSystem.walk_eq_some_iff.mpr hplace⟩

/-! ## The program -/

/-- What the program leaves behind: a `runtime` with `core.lua`, or a link that leads to none. -/
structure Settled (S : RuntimeSearch) (documentRoot : Path) (fs : FileSystem)
    (runtimeDir : PathText) : Prop where
  root : fs.entry documentRoot = some .directory
  core : S.hasCore fs (docRuntime documentRoot) = true → runtimeDir = docRuntime documentRoot
  link : S.hasCore fs (docRuntime documentRoot) = false →
    ∃ target, fs.entry (documentRoot ++ ["runtime"]) = some (.link target)

lemma settled_cliRuntime (hroot : fs.entry documentRoot = some .directory)
    (h : S.cliRuntime fs documentRoot = (fs', some runtimeDir)) :
    Settled S documentRoot fs' runtimeDir := by
  simp only [RuntimeSearch.cliRuntime] at h
  cases hsource : S.sourceDir fs with
  | none =>
      simp only [hsource] at h
      split_ifs at h with hcore
      · cases h
        exact ⟨hroot, fun _ => rfl, fun hno => by simp [hcore] at hno⟩
      · cases h
  | some sourceDir =>
      simp only [hsource] at h
      generalize hfs : (if (S.fileManager.destinationOfSymbolicLink fs
        (docRuntime documentRoot)).isSome then
          S.refreshLink fs (docRuntime documentRoot) sourceDir else fs) = refreshed at h
      have hrefreshed : refreshed.entry documentRoot = some .directory := by
        rw [← hfs]
        split_ifs
        · rw [refreshLink_docRuntime hroot]
          exact linked_directory hroot
        · exact hroot
      have hreplaced := @replaceByLink_docRuntime S refreshed documentRoot sourceDir hrefreshed
      split_ifs at h with hcore hnew
      · cases h
        exact ⟨hrefreshed, fun _ => rfl, fun hno => by simp [hcore] at hno⟩
      · cases h
        exact ⟨hreplaced.1, fun _ => rfl, fun _ => hreplaced.2⟩
      · cases h
        exact ⟨hreplaced.1, fun hcore => absurd hcore hnew, fun _ => hreplaced.2⟩

/-! ## The bridge -/

/-- The bridge executes `runtime`, or else what it would put there. -/
lemma bridgeRuntime_snd :
    (S.bridgeRuntime fs documentRoot).2
      = if S.hasCore (S.bridgeRuntime fs documentRoot).1 (docRuntime documentRoot) then
          some (docRuntime documentRoot)
        else S.linkTarget (S.bridgeRuntime fs documentRoot).1 documentRoot := rfl

lemma bridgeRuntime_of_not_link (hroot : fs.entry documentRoot = some .directory)
    (h : ∀ target, fs.entry (documentRoot ++ ["runtime"]) ≠ some (.link target))
    (hcore : S.hasCore fs (docRuntime documentRoot) = true) :
    (S.bridgeRuntime fs documentRoot).1 = fs := by
  simp only [RuntimeSearch.bridgeRuntime, not_isSymlink hroot h, hcore]
  cases S.linkTarget fs documentRoot <;> rfl

lemma bridgeRuntime_of_no_target (h : S.linkTarget fs documentRoot = none) :
    (S.bridgeRuntime fs documentRoot).1 = fs := by
  simp only [RuntimeSearch.bridgeRuntime, h]

/-- **A link goes for a link to the target**, wherever it led. -/
lemma bridgeRuntime_of_target (hroot : fs.entry documentRoot = some .directory)
    (hlink : ∃ old, fs.entry (documentRoot ++ ["runtime"]) = some (.link old))
    (h : S.linkTarget fs documentRoot = some target) :
    (S.bridgeRuntime fs documentRoot).1 = linked documentRoot fs target := by
  simp only [RuntimeSearch.bridgeRuntime, h, (isSymlink_docRuntime hroot).mpr hlink, if_true,
    refreshLink_docRuntime hroot]

/-- With `core.lua` in the `runtime` behind it, the bridge executes that. -/
lemma executesSame_of_core (hfs : (S.bridgeRuntime fs documentRoot).1 = fs')
    (hcore : S.hasCore fs' (docRuntime documentRoot) = true) :
    S.ExecutesSame documentRoot fs runtimeDir
      ↔ ∃ place, S.fileManager.resolve fs runtimeDir = some place
          ∧ S.fileManager.resolve fs' (docRuntime documentRoot) = some place := by
  rw [RuntimeSearch.ExecutesSame, bridgeRuntime_snd, hfs, if_pos hcore]
  constructor
  · rintro ⟨place, hsettled, ⟨executed, hexecuted, hplace⟩, -⟩
    cases hexecuted
    exact ⟨place, hsettled, hplace⟩
  · rintro ⟨place, hsettled, hplace⟩
    refine ⟨place, hsettled, ⟨_, rfl, hplace⟩, fun other hother => ?_⟩
    exact Option.some.inj (hother.symm.trans hplace)

/-- A bridge that changes nothing stays with a `runtime` that has `core.lua`. -/
lemma executesSame_of_kept (hbehind : Settled S documentRoot fs runtimeDir)
    (hcore : S.hasCore fs (docRuntime documentRoot) = true)
    (hfs : (S.bridgeRuntime fs documentRoot).1 = fs) :
    S.ExecutesSame documentRoot fs runtimeDir := by
  obtain ⟨place, hplace⟩ := resolve_of_hasCore hcore
  rw [executesSame_of_core hfs hcore, hbehind.core hcore]
  exact ⟨place, hplace, hplace⟩

/-- Without `core.lua` there, the bridge executes what it would put there. -/
lemma executesSame_of_no_core (hfs : (S.bridgeRuntime fs documentRoot).1 = fs')
    (hcore : S.hasCore fs' (docRuntime documentRoot) = false) :
    S.ExecutesSame documentRoot fs runtimeDir
      ↔ ∃ place other, S.fileManager.resolve fs runtimeDir = some place
          ∧ S.linkTarget fs' documentRoot = some other
          ∧ S.fileManager.resolve fs' other = some place
          ∧ ∀ other', S.fileManager.resolve fs' (docRuntime documentRoot) = some other' →
              other' = place := by
  rw [RuntimeSearch.ExecutesSame, bridgeRuntime_snd, hfs, hcore, if_neg Bool.false_ne_true]
  constructor
  · rintro ⟨place, hsettled, ⟨other, hother, hplace⟩, honly⟩
    exact ⟨place, other, hsettled, hother, hplace, honly⟩
  · rintro ⟨place, other, hsettled, hother, hplace, honly⟩
    exact ⟨place, hsettled, ⟨other, hother, hplace⟩, honly⟩

/-! ## The condition -/

/-- The cases of the condition are those of the bridge. -/
lemma keepsRuntime_of_executesSame (hroot : fs.entry documentRoot = some .directory)
    (hsame : S.ExecutesSame documentRoot fs runtimeDir) :
    S.KeepsRuntime documentRoot fs runtimeDir := by
  by_cases hlink : ∃ old, fs.entry (documentRoot ++ ["runtime"]) = some (.link old)
  · cases htarget : S.linkTarget fs documentRoot with
    | none =>
        have hfs := bridgeRuntime_of_no_target htarget
        cases hcore : S.hasCore fs (docRuntime documentRoot) with
        | true => exact .noTarget htarget hcore
        | false =>
            obtain ⟨place, other, -, hother, -⟩ := (executesSame_of_no_core hfs hcore).mp hsame
            rw [htarget] at hother
            cases hother
    | some target =>
        have hfs := bridgeRuntime_of_target hroot hlink htarget
        cases hcore : S.hasCore (linked documentRoot fs target) (docRuntime documentRoot) with
        | true =>
            obtain ⟨place, hsettled, hplace⟩ := (executesSame_of_core hfs hcore).mp hsame
            rw [resolve_linked hroot] at hplace
            exact .sameTree htarget hcore hsettled hplace
        | false =>
            obtain ⟨place, other, hsettled, hother, hplace, honly⟩ :=
              (executesSame_of_no_core hfs hcore).mp hsame
            rw [resolve_linked hroot] at honly
            exact .around htarget hcore hother hsettled hplace honly
  · exact .own (not_exists.mp hlink)

/-- A `runtime` that is no link has `core.lua`, so that the bridge stays with it. -/
lemma executesSame_of_own (hbehind : Settled S documentRoot fs runtimeDir)
    (hown : ∀ target, fs.entry (documentRoot ++ ["runtime"]) ≠ some (.link target)) :
    S.ExecutesSame documentRoot fs runtimeDir := by
  cases hcore : S.hasCore fs (docRuntime documentRoot) with
  | true =>
      exact executesSame_of_kept hbehind hcore (bridgeRuntime_of_not_link hbehind.root hown hcore)
  | false =>
      obtain ⟨target, hlink⟩ := hbehind.link hcore
      exact absurd hlink (hown target)

lemma RuntimeSearch.KeepsRuntime.executesSame (hbehind : Settled S documentRoot fs runtimeDir)
    (hkeeps : S.KeepsRuntime documentRoot fs runtimeDir) :
    S.ExecutesSame documentRoot fs runtimeDir := by
  have hroot := hbehind.root
  by_cases hlink : ∃ old, fs.entry (documentRoot ++ ["runtime"]) = some (.link old)
  · cases hkeeps with
    | own hown => exact executesSame_of_own hbehind hown
    | noTarget htarget hcore =>
        exact executesSame_of_kept hbehind hcore (bridgeRuntime_of_no_target htarget)
    | sameTree htarget hcore hsettled hplace =>
        have hfs := bridgeRuntime_of_target hroot hlink htarget
        rw [← resolve_linked hroot] at hplace
        exact (executesSame_of_core hfs hcore).mpr ⟨_, hsettled, hplace⟩
    | around htarget hcore hother hsettled hplace honly =>
        have hfs := bridgeRuntime_of_target hroot hlink htarget
        rw [← resolve_linked hroot] at honly
        exact (executesSame_of_no_core hfs hcore).mpr ⟨_, _, hsettled, hother, hplace, honly⟩
  · exact executesSame_of_own hbehind (not_exists.mp hlink)

end Resolvers

/-- **Where the bridge stays with the program.**  Behind a program that has settled on a runtime,
the bridge executes this directory, and leaves no link to another one, exactly if `runtime` is no
link, or the bridge knows no other target for it, or this target is the directory. -/
theorem bridgeRuntime_same_iff (S : RuntimeSearch) (fs : FileSystem) (documentRoot : fs.Directory)
    {fs' : FileSystem} {runtimeDir : PathText}
    (h : S.cliRuntime fs documentRoot.1 = (fs', some runtimeDir)) :
    S.ExecutesSame documentRoot.1 fs' runtimeDir
      ↔ S.KeepsRuntime documentRoot.1 fs' runtimeDir := by
  have hbehind := settled_cliRuntime documentRoot.2 h
  constructor
  · exact keepsRuntime_of_executesSame hbehind.root
  · exact RuntimeSearch.KeepsRuntime.executesSame hbehind

/-- An app in `/build`, and a home directory with a runtime of old in `service`. -/
def appAndService : FileSystem :=
  FileSystem.empty |>.add [] "build" .directory |>.add ["build"] "LuanMac.app" .directory
    |>.add ["build", "LuanMac.app"] "Contents" .directory
    |>.add ["build", "LuanMac.app", "Contents"] "MacOS" .directory
    |>.add ["build", "LuanMac.app", "Contents"] "Resources" .directory
    |>.add ["build", "LuanMac.app", "Contents", "Resources"] "runtime" .directory
    |>.add ["build", "LuanMac.app", "Contents", "Resources", "runtime"] "core.lua" .file
    |>.add [] "home" .directory |>.add ["home"] "service" .directory
    |>.add ["home", "service"] "core.lua" .file

/-- An absolute path without its `..`. -/
def withoutUps (path : PathText) : PathText where
  absolute := path.absolute
  steps := path.steps.foldl
    (fun steps step =>
      match step with
      | .up => steps.dropLast
      | .down name => steps ++ [.down name]) []

/-- The program in the app. -/
def insideApp : RuntimeSearch where
  fileManager := ⟨["home"], 32⟩
  standardizingPath := withoutUps
  exeDir := .ofPath ["build", "LuanMac.app", "Contents", "MacOS"]
  pathForResource name :=
    if name = "runtime" then
      some (.ofPath ["build", "LuanMac.app", "Contents", "Resources", "runtime"])
    else none

/-- `/build/luan`; its bundle is `/build`, without a runtime. -/
def besideApp : RuntimeSearch where
  fileManager := ⟨["home"], 32⟩
  standardizingPath := withoutUps
  exeDir := .ofPath ["build"]
  pathForResource _ := none

/-- In the app both find the runtime of the app. -/
theorem bridgeRuntime_same_insideApp :
    ∃ fs', insideApp.cliRuntime appAndService ["home"] = (fs', some (docRuntime ["home"]))
      ∧ insideApp.ExecutesSame ["home"] fs' (docRuntime ["home"]) := by
  have hcli : insideApp.cliRuntime appAndService ["home"]
      = ((insideApp.cliRuntime appAndService ["home"]).1, some (docRuntime ["home"])) :=
    Prod.ext rfl (by decide)
  have htarget : insideApp.linkTarget (insideApp.cliRuntime appAndService ["home"]).1 ["home"]
      = some (.ofPath ["build", "LuanMac.app", "Contents", "Resources", "runtime"]) := by decide
  have hplace : insideApp.targetPlace ["home"] (insideApp.cliRuntime appAndService ["home"]).1
      (.ofPath ["build", "LuanMac.app", "Contents", "Resources", "runtime"])
      = some ["build", "LuanMac.app", "Contents", "Resources", "runtime"] := by decide
  refine ⟨_, hcli, ?_⟩
  rw [bridgeRuntime_same_iff insideApp appAndService ⟨["home"], by decide⟩ hcli]
  exact .sameTree htarget (by decide) (by decide) hplace

/-- **The link of the program is redirected.**  Next to the app the program makes `runtime` a link
to the runtime of the app; then the bridge, without a resource, makes it one to `service`. -/
theorem runtime_redirected :
    ¬ ∀ (S : RuntimeSearch) (fs : FileSystem) (documentRoot : fs.Directory) (fs' : FileSystem)
      (runtimeDir : PathText), S.cliRuntime fs documentRoot.1 = (fs', some runtimeDir) →
      S.ExecutesSame documentRoot.1 fs' runtimeDir := by
  intro h
  have hcli : besideApp.cliRuntime appAndService ["home"]
      = ((besideApp.cliRuntime appAndService ["home"]).1, some (docRuntime ["home"])) :=
    Prod.ext rfl (by decide)
  have hsettled : besideApp.fileManager.resolve (besideApp.cliRuntime appAndService ["home"]).1
      (docRuntime ["home"])
        = some ["build", "LuanMac.app", "Contents", "Resources", "runtime"] := by decide
  have hexecuted : besideApp.fileManager.resolve
      (besideApp.bridgeRuntime (besideApp.cliRuntime appAndService ["home"]).1 ["home"]).1
      (docRuntime ["home"]) = some ["home", "service"] := by decide
  obtain ⟨place, hplace, -, honly⟩ := h besideApp appAndService ⟨["home"], by decide⟩ _ _ hcli
  have hservice := honly _ hexecuted
  rw [hsettled, ← hservice] at hplace
  exact absurd hplace (by decide)

end Luan
