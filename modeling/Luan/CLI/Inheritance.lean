import Luan.CLI.ScriptArgs

/-!
# Two inherited environments

The program talks to the bridge through variables that it may have inherited itself, from a `luan`
that has started it.  It sets all of them for a script, some of them for code, and none for a
service.

* `AgreeElsewhere` — environments that differ only in what to run.
* `luanRun_script_congr` — a script runs alike in both.
* `inheritance_iff` — when the command line alone decides what runs.
-/

namespace Luan

/-- The environments differ only in the variables that say what to run. -/
def Environment.AgreeElsewhere (env env' : Environment) : Prop :=
  ∀ key, ¬ IsExecKey key → env key = env' key

/-- Setting such a variable. -/
lemma Environment.AgreeElsewhere.set {env env' : Environment} (h : env.AgreeElsewhere env')
    {key : String} (hkey : IsExecKey key) (value : String) :
    env.AgreeElsewhere (env'.set key value) := by
  intro other hother
  have hne : other ≠ key := by
    rintro rfl
    exact hother hkey
  rw [h other hother, Environment.set_of_ne _ _ hne]

/-- The same call with another environment. -/
def Invocation.within (call : Invocation) (env : Environment) : Invocation :=
  { call with inheritedEnv := env }

section Runs

variable {P : CLIPlatform} {call : Invocation} {original : Config}

/-- **A script runs alike in all environments.** -/
lemma luanRun_script_congr
    (hargs : parseArgs P.unicode P.currentDirectoryPath call.args = .ok original)
    (hscript : original.execScript ≠ "") (runtimeDir : String) (random : SecretBytes)
    (saved : Option JsonObject) (env env' : Environment) :
    luanRun P runtimeDir (call.within env) random saved
      = luanRun P runtimeDir (call.within env') random saved := by
  rw [@luanRun_script P (call.within env) original hargs hscript,
    @luanRun_script P (call.within env') original hargs hscript]

/-- **A service becomes an execution**, with code in the environment. -/
lemma luanRun_service_differs
    (hargs : parseArgs P.unicode P.currentDirectoryPath call.args = .ok original)
    (hcode : original.execCode = "") (hscript : original.execScript = "") (runtimeDir : String)
    (random : SecretBytes) (saved : Option JsonObject) (env : Environment)
    (henv : env "LUAN_EXEC_CODE" = none) (henv' : env "LUAN_EXEC_SCRIPT" = none) :
    luanRun P runtimeDir (call.within env) random saved
      ≠ luanRun P runtimeDir (call.within (env.set "LUAN_EXEC_CODE" "return 1")) random saved := by
  have hrun : ∀ env, luanRun P runtimeDir (call.within env) random saved
      = .ok (execution P runtimeDir env) := by
    intro env
    obtain ⟨hcode', hscript', -⟩ := launchWith_exec P (call.within env) random original saved
    rw [@luanRun_ok P (call.within env) original hargs]
    exact congrArg _ (execution_service (hcode'.trans hcode) (hscript'.trans hscript))
  rw [hrun, hrun]
  intro heq
  have hmode := congrArg Execution.execMode (Except.ok.inj heq)
  simp [execution, henv, henv'] at hmode

/-- **Code gets other arguments**, with arguments in the environment. -/
lemma luanRun_code_differs
    (hargs : parseArgs P.unicode P.currentDirectoryPath call.args = .ok original)
    (hcode : original.execCode ≠ "") (runtimeDir : String) (random : SecretBytes)
    (saved : Option JsonObject) (env : Environment) (henv : env "LUAN_ARGC" = none) :
    luanRun P runtimeDir (call.within env) random saved
      ≠ luanRun P runtimeDir
          (call.within ((env.set "LUAN_ARGC" "1").set (argKey 0) "argument")) random saved := by
  have hrun := fun env => @luanRun_code P (call.within env) original hargs hcode runtimeDir random
    saved
  rw [hrun, hrun]
  intro heq
  have harg := congrArg Execution.arg (Except.ok.inj heq)
  have hvalues := congrFun (congrArg ArgTable.values (Option.some.inj harg)) 0
  have hcount : 0 < atoi "1".toList := by decide
  have hargc : ((env.set "LUAN_ARGC" "1").set (argKey 0) "argument") "LUAN_ARGC" = some "1" := by
    rw [Environment.set_of_ne _ _ (argKey_ne_argc 0).symm, Environment.set_self]
  have hnone : argValues env 0 = none := by simp [argValues, henv]
  have hsome : argValues ((env.set "LUAN_ARGC" "1").set (argKey 0) "argument") 0
      = some "argument" := by
    rw [argValues, hargc]
    exact (if_pos hcount).trans (Environment.set_self _ _ _)
  exact absurd (hnone.symm.trans (hvalues.trans hsome)) (by simp)

end Runs

/-- **When the command line decides what runs.**  For every command line that is accepted: in any
two environments that differ only in the variables that say what to run, the program runs in the
same mode, loads the same chunk and builds the same table `arg`, exactly if the command line names
a script. -/
theorem inheritance_iff (P : CLIPlatform) (runtimeDir : String) (call : Invocation)
    (random : SecretBytes) (saved : Option JsonObject) {original : Config}
    (hargs : parseArgs P.unicode P.currentDirectoryPath call.args = .ok original) :
    (∀ env env' : Environment, env.AgreeElsewhere env' →
        luanRun P runtimeDir (call.within env) random saved
          = luanRun P runtimeDir (call.within env') random saved)
      ↔ scriptOf P.unicode (readWords call.args).1 ≠ "" := by
  rw [← (parseArgs_words hargs).1]
  constructor
  · intro hagree hscript
    have hnone : Environment.AgreeElsewhere (fun _ => none) fun _ => none := fun _ _ => rfl
    by_cases hcode : original.execCode = ""
    · exact luanRun_service_differs hargs hcode hscript runtimeDir random saved (fun _ => none) rfl
        rfl (hagree _ _ (hnone.set (Or.inl rfl) _))
    · exact luanRun_code_differs hargs hcode runtimeDir random saved (fun _ => none) rfl
        (hagree _ _ ((hnone.set (Or.inr (Or.inr (Or.inl rfl))) _).set (isExecKey_argKey 0) _))
  · intro hscript env env' _
    exact luanRun_script_congr hargs hscript runtimeDir random saved env env'

/-- `luan s.lua` -/
def oneScript : Invocation := ⟨"luan", ["s.lua"], by decide, fun _ => none⟩

/-- A script runs alike, whoever starts it. -/
theorem inheritance_script :
    ∃ original, parseArgs .ascii "/workspace" oneScript.args = .ok original
      ∧ ∀ env env' : Environment, env.AgreeElsewhere env' →
        luanRun .plain "/runtime" (oneScript.within env) .zero none
          = luanRun .plain "/runtime" (oneScript.within env') .zero none := by
  have hargs : parseArgs .ascii "/workspace" oneScript.args = .ok
      { Config.initial with documentRoot := "/workspace", execScript := "s.lua" } := rfl
  exact ⟨_, hargs, (inheritance_iff .plain "/runtime" oneScript .zero none hargs).mpr (by decide)⟩

/-- **A service that a `luan` has started.**  It runs the code that its parent was called with. -/
theorem inheritance_service :
    ¬ ∀ (P : CLIPlatform) (runtimeDir : String) (call : Invocation) (random : SecretBytes)
      (saved : Option JsonObject) (original : Config),
      parseArgs P.unicode P.currentDirectoryPath call.args = .ok original →
      ∀ env env' : Environment, env.AgreeElsewhere env' →
        luanRun P runtimeDir (call.within env) random saved
          = luanRun P runtimeDir (call.within env') random saved := by
  intro h
  have hargs : parseArgs .ascii "/workspace" Invocation.bare.args = .ok
      { Config.initial with documentRoot := "/workspace" } := rfl
  have hnone : Environment.AgreeElsewhere (fun _ => none) fun _ => none := fun _ _ => rfl
  exact @luanRun_service_differs .plain .bare _ hargs rfl rfl "/runtime" .zero none
    (fun _ => none) rfl rfl
    (h .plain "/runtime" .bare .zero none _ hargs _ _ (hnone.set (Or.inl rfl) _))

end Luan
