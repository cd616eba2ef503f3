import Luan.CLI.Launch

/-!
# From the command line to the Lua state

What `luan` is to run gets from `LuanCLI/main.swift` to `LuaBridge` through environment variables.
The program sets some of them with `setenv`, hands others over as a dictionary, and leaves the rest
as it has inherited them.

* `setEnvBlock`, `serviceEnv`, `scriptEnv` — the variables that are set, in the order of the source.
* `bridgeEnv` — the environment in which the bridge reads them.
* `execution` — what the bridge makes of it: the mode, the chunk it loads, and the table `arg`.
* `luanRun` — all of it, from the command line to the chunk.
* `execution_service`, `execution_code`, `execution_script` — what runs, for each of the ways to
  call `luan`.

The directory of the runtime is an argument.
-/

namespace Luan

/-- `"LUAN_ARG_\(index)"` -/
def argKey (index : ℕ) : String := "LUAN_ARG_" ++ index.repr

namespace Config

/-! ## The variables that are set -/

/-- The calls of `setEnv` for what is to run. -/
def execBlock (c : Config) : List (String × String) :=
  (if c.execCode ≠ "" then [("LUAN_EXEC_CODE", c.execCode)] else [])
    ++ (if c.execScript ≠ "" then
          ("LUAN_EXEC_SCRIPT", c.execScript) :: ("LUAN_ARGC", c.scriptArgs.length.repr)
            :: c.scriptArgs.zipIdx.map fun arg => (argKey arg.2, arg.1)
        else [])

/-- The calls of `setEnv`. -/
def setEnvBlock (c : Config) : List (String × String) :=
  c.execBlock
    ++ [("SERVICE_HOST", c.host),
        ("SERVICE_PORT", toString c.port.1),
        ("SQLITE_SOFT_HEAP_MB", toString c.sqliteSoftHeapMB.1),
        ("HTTP_USING_CORE", "true"),
        ("HTTPD_USING_CORE", "true"),
        ("JWT_SECRET", c.jwtSecret),
        ("ACTIVATION_KEY", c.activationKey),
        ("WS_TOKEN", c.wsToken),
        ("PURGE_TOKEN", c.purgeToken)]
    ++ (if c.debug then [("DEBUG", "1")] else [])
    ++ (if c.sandboxUnrestricted then [("SANDBOX_UNRESTRICTED", "1")] else [])
    ++ (if c.sslSkipVerify then [("SSL_SKIP_VERIFY", "1")] else [])

/-- `serviceEnv` -/
def serviceEnv (c : Config) (inheritedEnv : Environment) : List (String × String) :=
  [("SERVICE_HOST", c.host),
    ("SERVICE_PORT", toString c.port.1),
    ("SQLITE_SOFT_HEAP_MB", toString c.sqliteSoftHeapMB.1),
    ("JWT_SECRET", c.jwtSecret),
    ("ACTIVATION_KEY", c.activationKey),
    ("WS_TOKEN", c.wsToken),
    ("PURGE_TOKEN", c.purgeToken),
    ("STATUS_TOKEN", (inheritedEnv "STATUS_TOKEN").getD "")]

/-- `scriptEnv` -/
def scriptEnv (c : Config) (inheritedEnv : Environment) : List (String × String) :=
  c.serviceEnv inheritedEnv
    ++ [("LUAN_EXEC_CODE", c.execCode), ("LUAN_EXEC_SCRIPT", c.execScript)]

/-- The dictionary for the bridge.  `runScriptWithDocumentRoot` would add a chunk of its own to one
that says neither what code nor what script to run. -/
def bridgeVariables (c : Config) (inheritedEnv : Environment) : List (String × String) :=
  if c.execCode = "" ∧ c.execScript = "" then c.serviceEnv inheritedEnv
  else
    let env := c.scriptEnv inheritedEnv
    if env.any (fun v => v.1 = "LUAN_EXEC_SCRIPT" || v.1 = "LUAN_EXEC_CODE") then env
    else env ++ [("LUAN_EXEC_CODE", "return true")]

/-- The environment of the process when the bridge looks at it. -/
def bridgeEnv (c : Config) (inheritedEnv : Environment) : Environment :=
  (inheritedEnv.setAll c.setEnvBlock).setAll (c.bridgeVariables inheritedEnv)

end Config

/-! ## The bridge -/

inductive Chunk
  /-- `luaL_loadstring` -/
  | code (text : String)
  /-- `luaL_loadfile` -/
  | file (path : String)
  deriving DecidableEq, Repr

/-- The global `arg`. -/
structure ArgTable where
  /-- `arg[0]` -/
  scriptName : String
  /-- `arg[index + 1]` -/
  values : ℕ → Option String

/-- What the bridge runs. -/
structure Execution where
  execMode : Bool
  chunk : Chunk
  /-- set if the chunk can be loaded -/
  arg : Option ArgTable

/-- The loop over `LUAN_ARG_`; without `LUAN_ARGC` there is nothing to do. -/
def argValues (env : Environment) (index : ℕ) : Option String :=
  let argc : ℤ :=
    match env "LUAN_ARGC" with
    | some argcEnv => atoi argcEnv.toList
    | none => 0
  if index < argc then env (argKey index) else none

/-- `entryPath` for a script -/
def scriptPath (P : CLIPlatform) (execScript : String) : String :=
  if execScript.toList.head? = some '/' then execScript
  else P.appendingPathComponent P.currentDirectoryPath execScript

/-- `_runOnEventQueueWithDocumentRoot`, from where it looks at `LUAN_EXEC_SCRIPT`. -/
def execution (P : CLIPlatform) (runtimeDir : String) (env : Environment) : Execution :=
  let execScript := (env "LUAN_EXEC_SCRIPT").getD ""
  let execCode := (env "LUAN_EXEC_CODE").getD ""
  let execMode := execScript ≠ "" || execCode ≠ ""
  let entryPath :=
    if execScript ≠ "" then scriptPath P execScript
    else P.appendingPathComponent runtimeDir "core.lua"
  { execMode := execMode
    chunk := if execCode ≠ "" then .code execCode else .file entryPath
    arg := if execMode then some ⟨if execScript ≠ "" then entryPath else "-e", argValues env⟩
      else none }

/-- From the command line to the chunk. -/
def luanRun (P : CLIPlatform) (runtimeDir : String) (call : Invocation) (random : SecretBytes)
    (saved : Option JsonObject) : Except ArgsError Execution :=
  match cliLaunch P call random saved with
  | .ok (c, _) => .ok (execution P runtimeDir (c.bridgeEnv call.inheritedEnv))
  | .error e => .error e

/-! ## The variables that decide what runs -/

/-- The variables in which the program tells the bridge what to run. -/
def IsExecKey (key : String) : Prop :=
  key = "LUAN_EXEC_CODE" ∨ key = "LUAN_EXEC_SCRIPT" ∨ key = "LUAN_ARGC"
    ∨ ∃ index, key = argKey index

lemma isExecKey_argKey (index : ℕ) : IsExecKey (argKey index) :=
  Or.inr (Or.inr (Or.inr ⟨index, rfl⟩))

lemma toList_argKey (index : ℕ) :
    (argKey index).toList = "LUAN_ARG_".toList ++ Nat.toDigits 10 index := by
  rw [argKey, String.toList_append, Nat.toList_repr]

lemma argKey_injective : argKey.Injective := by
  intro i j h
  have hdigits : Nat.toDigits 10 i = Nat.toDigits 10 j := by
    have hlist := congrArg String.toList h
    rw [toList_argKey, toList_argKey] at hlist
    exact List.append_cancel_left hlist
  rw [← Nat.ofDigitChars_ten_toDigits (n := i), hdigits, Nat.ofDigitChars_ten_toDigits]

/-- A variable of another name. -/
lemma argKey_ne {key : String} (h : key.toList.take 9 ≠ "LUAN_ARG_".toList) (index : ℕ) :
    argKey index ≠ key := by
  rintro rfl
  rw [toList_argKey] at h
  exact h (List.take_left' rfl)

@[simp]
lemma argKey_ne_code (index : ℕ) : argKey index ≠ "LUAN_EXEC_CODE" := argKey_ne (by decide) index

@[simp]
lemma argKey_ne_script (index : ℕ) : argKey index ≠ "LUAN_EXEC_SCRIPT" :=
  argKey_ne (by decide) index

@[simp]
lemma argKey_ne_argc (index : ℕ) : argKey index ≠ "LUAN_ARGC" := argKey_ne (by decide) index

/-- All of them begin with `LUAN_`. -/
lemma IsExecKey.take_eq {key : String} (h : IsExecKey key) :
    key.toList.take 5 = "LUAN_".toList := by
  rcases h with rfl | rfl | rfl | ⟨index, rfl⟩
  · rfl
  · rfl
  · rfl
  · rw [toList_argKey]
    rfl

/-- Settings of other variables leave them alone. -/
lemma IsExecKey.setAll_eq {key : String} (h : IsExecKey key) {vars : List (String × String)}
    (hvars : ∀ v ∈ vars, v.1.toList.take 5 ≠ "LUAN_".toList) (env : Environment) :
    env.setAll vars key = env key := by
  refine Environment.setAll_of_notMem ?_ env
  intro hmem
  obtain ⟨v, hv, rfl⟩ := List.mem_map.mp hmem
  exact hvars v hv h.take_eq

namespace Config

/-- The other calls of `setEnv` are not about what is to run. -/
lemma setEnvBlock_exec (c : Config) (env : Environment) {key : String} (h : IsExecKey key) :
    env.setAll c.setEnvBlock key = env.setAll c.execBlock key := by
  rw [setEnvBlock, Environment.setAll_append, h.setAll_eq, Environment.setAll_append, h.setAll_eq,
    Environment.setAll_append, h.setAll_eq, Environment.setAll_append, h.setAll_eq]
  · simp
  all_goals
    intro v hv
    split_ifs at hv <;> simp_all

lemma serviceEnv_exec (c : Config) (env inheritedEnv : Environment) {key : String}
    (h : IsExecKey key) : env.setAll (c.serviceEnv inheritedEnv) key = env key := by
  refine h.setAll_eq ?_ env
  simp [serviceEnv]

/-- A service has the variables that the program has inherited. -/
lemma bridgeEnv_service {c : Config} (hcode : c.execCode = "") (hscript : c.execScript = "")
    (inheritedEnv : Environment) {key : String} (h : IsExecKey key) :
    c.bridgeEnv inheritedEnv key = inheritedEnv key := by
  rw [bridgeEnv, bridgeVariables, if_pos ⟨hcode, hscript⟩, serviceEnv_exec _ _ _ h,
    setEnvBlock_exec _ _ h, execBlock, hcode, hscript]
  rfl

/-- The dictionary of an execution sets code and script, and leaves the arguments. -/
lemma bridgeEnv_exec {c : Config} (hexec : ¬ (c.execCode = "" ∧ c.execScript = ""))
    (inheritedEnv : Environment) {key : String} (h : IsExecKey key) :
    c.bridgeEnv inheritedEnv key
      = ((inheritedEnv.setAll c.execBlock).setAll
          [("LUAN_EXEC_CODE", c.execCode), ("LUAN_EXEC_SCRIPT", c.execScript)]) key := by
  have hany : (c.scriptEnv inheritedEnv).any
      (fun v => v.1 = "LUAN_EXEC_SCRIPT" || v.1 = "LUAN_EXEC_CODE") = true := by
    simp [scriptEnv]
  rw [bridgeEnv, bridgeVariables, if_neg hexec, if_pos hany, scriptEnv, Environment.setAll_append]
  simp only [Environment.setAll_cons, Environment.setAll_nil, Environment.set_apply,
    serviceEnv_exec c _ inheritedEnv h, setEnvBlock_exec c inheritedEnv h]

/-- What a script is called with; behind its last argument there is what was inherited. -/
lemma bridgeEnv_script {c : Config} (hcode : c.execCode = "") (hscript : c.execScript ≠ "")
    (inheritedEnv : Environment) :
    c.bridgeEnv inheritedEnv "LUAN_EXEC_CODE" = some ""
      ∧ c.bridgeEnv inheritedEnv "LUAN_EXEC_SCRIPT" = some c.execScript
      ∧ c.bridgeEnv inheritedEnv "LUAN_ARGC" = some c.scriptArgs.length.repr
      ∧ ∀ index, c.bridgeEnv inheritedEnv (argKey index)
          = c.scriptArgs[index]?.or (inheritedEnv (argKey index)) := by
  have hbridge := @bridgeEnv_exec c (fun h => hscript h.2) inheritedEnv
  have hblock : c.execBlock = ("LUAN_EXEC_SCRIPT", c.execScript)
      :: ("LUAN_ARGC", c.scriptArgs.length.repr)
      :: c.scriptArgs.zipIdx.map fun arg => (argKey arg.2, arg.1) := by
    simp [execBlock, hcode, hscript]
  have hother : ∀ key, key.toList.take 9 ≠ "LUAN_ARG_".toList →
      key ∉ (c.scriptArgs.zipIdx.map fun arg => (argKey arg.2, arg.1)).map Prod.fst := by
    intro key hkey hmem
    obtain ⟨v, hv, heq⟩ := List.mem_map.mp (List.map_map ▸ hmem)
    exact argKey_ne hkey v.2 heq
  refine ⟨?_, ?_, ?_, fun index => ?_⟩
  · rw [hbridge (Or.inl rfl), hcode]
    rfl
  · rw [hbridge (Or.inr (Or.inl rfl))]
    rfl
  · rw [hbridge (Or.inr (Or.inr (Or.inl rfl))), hblock]
    show (Environment.setAll _ _) "LUAN_ARGC" = _
    rw [Environment.setAll_of_notMem (by simp), Environment.setAll_cons, Environment.setAll_cons,
      Environment.setAll_of_notMem (hother _ (by decide))]
    exact Environment.set_self _ _ _
  · rw [hbridge (isExecKey_argKey index), hblock,
      Environment.setAll_of_notMem (by simp), Environment.setAll_cons,
      Environment.setAll_cons]
    have hnumbered := fun env =>
      Environment.setAll_numbered argKey_injective c.scriptArgs 0 index env
    rw [Nat.zero_add] at hnumbered
    rw [hnumbered, Environment.set_of_ne _ _ (argKey_ne_argc index),
      Environment.set_of_ne _ _ (argKey_ne_script index)]

/-- What code is called with: the arguments are those of the inherited variables. -/
lemma bridgeEnv_code {c : Config} (hcode : c.execCode ≠ "") (hscript : c.execScript = "")
    (inheritedEnv : Environment) :
    c.bridgeEnv inheritedEnv "LUAN_EXEC_CODE" = some c.execCode
      ∧ c.bridgeEnv inheritedEnv "LUAN_EXEC_SCRIPT" = some ""
      ∧ c.bridgeEnv inheritedEnv "LUAN_ARGC" = inheritedEnv "LUAN_ARGC"
      ∧ ∀ index, c.bridgeEnv inheritedEnv (argKey index) = inheritedEnv (argKey index) := by
  have hbridge := @bridgeEnv_exec c (fun h => hcode h.1) inheritedEnv
  have hblock : c.execBlock = [("LUAN_EXEC_CODE", c.execCode)] := by
    simp [execBlock, hcode, hscript]
  refine ⟨?_, ?_, ?_, fun index => ?_⟩
  · rw [hbridge (Or.inl rfl)]
    rfl
  · rw [hbridge (Or.inr (Or.inl rfl)), hscript]
    rfl
  · rw [hbridge (Or.inr (Or.inr (Or.inl rfl))), hblock]
    rfl
  · rw [hbridge (isExecKey_argKey index), hblock,
      Environment.setAll_of_notMem (by simp),
      Environment.setAll_of_notMem (by simp)]

end Config

/-! ## The three ways to call the program -/

section Execution

variable {P : CLIPlatform} {runtimeDir : String} {c : Config} {inheritedEnv : Environment}

/-- The bridge looks at no other variables. -/
lemma execution_congr {env env' : Environment} (h : ∀ key, IsExecKey key → env key = env' key) :
    execution P runtimeDir env = execution P runtimeDir env' := by
  have hvalues : argValues env = argValues env' := by
    funext index
    simp only [argValues, h _ (Or.inr (Or.inr (Or.inl rfl))), h _ (isExecKey_argKey index)]
  simp only [execution, hvalues, h _ (Or.inl rfl), h _ (Or.inr (Or.inl rfl))]

/-- **Without code and script, the inherited variables decide.** -/
theorem execution_service (hcode : c.execCode = "") (hscript : c.execScript = "") :
    execution P runtimeDir (c.bridgeEnv inheritedEnv) = execution P runtimeDir inheritedEnv :=
  execution_congr fun _ hkey => Config.bridgeEnv_service hcode hscript inheritedEnv hkey

/-- **Code runs with the inherited arguments.** -/
theorem execution_code (hcode : c.execCode ≠ "") (hscript : c.execScript = "") :
    execution P runtimeDir (c.bridgeEnv inheritedEnv)
      = ⟨true, .code c.execCode, some ⟨"-e", argValues inheritedEnv⟩⟩ := by
  obtain ⟨hcodeVar, hscriptVar, hargc, hargs⟩ := Config.bridgeEnv_code hcode hscript inheritedEnv
  have hvalues : argValues (c.bridgeEnv inheritedEnv) = argValues inheritedEnv := by
    funext index
    simp only [argValues, hargc, hargs]
  simp [execution, hcodeVar, hscriptVar, hvalues, hcode]

/-- **A script runs with the arguments that the loop has collected.** -/
theorem execution_script (hcode : c.execCode = "") (hscript : c.execScript ≠ "")
    (hcount : c.scriptArgs.length < 2 ^ 31) :
    execution P runtimeDir (c.bridgeEnv inheritedEnv)
      = ⟨true, .file (scriptPath P c.execScript),
          some ⟨scriptPath P c.execScript, fun index => c.scriptArgs[index]?⟩⟩ := by
  obtain ⟨hcodeVar, hscriptVar, hargc, hargs⟩ := Config.bridgeEnv_script hcode hscript inheritedEnv
  have hvalues : argValues (c.bridgeEnv inheritedEnv) = fun index => c.scriptArgs[index]? := by
    funext index
    simp only [argValues, hargc, atoi_repr hcount, hargs, Nat.cast_lt]
    split_ifs with hlt
    · rw [List.getElem?_eq_getElem hlt]
      rfl
    · exact (List.getElem?_eq_none (Nat.le_of_not_lt hlt)).symm
  simp [execution, hcodeVar, hscriptVar, hvalues, hscript]

end Execution

/-- What is to run is not merged with anything. -/
lemma launchWith_exec (P : CLIPlatform) (call : Invocation) (random : SecretBytes)
    (original : Config) (saved : Option JsonObject) :
    (launchWith P call random original saved).1.execCode = original.execCode
      ∧ (launchWith P call random original saved).1.execScript = original.execScript
      ∧ (launchWith P call random original saved).1.scriptArgs = original.scriptArgs := by
  simp only [launchWith, Config.resolvePort, Config.mergeSecrets]
  split
  · split_ifs <;> exact ⟨rfl, rfl, rfl⟩
  · exact ⟨rfl, rfl, rfl⟩

/-- A command line that is accepted runs. -/
lemma luanRun_ok {P : CLIPlatform} {call : Invocation} {original : Config}
    (hargs : parseArgs P.unicode P.currentDirectoryPath call.args = .ok original)
    (runtimeDir : String) (random : SecretBytes) (saved : Option JsonObject) :
    luanRun P runtimeDir call random saved
      = .ok (execution P runtimeDir
          ((launchWith P call random original saved).1.bridgeEnv call.inheritedEnv)) := by
  simp only [luanRun, cliLaunch, hargs]

end Luan
