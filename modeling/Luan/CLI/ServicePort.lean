import Luan.CLI.Bridge
import Luan.CLI.Relaunch

/-!
# The port of the service

`parseArgs` finds the port options one by one; whether there is one is asked again of the raw words
when the saved port comes into play.  The second look does not know which words are values.

* `wantedPort` — what the port is meant to be: the last one parsed, the saved one, or 8080.
* `hasPortOption_of_not_spellsPort` — the second look misses no port option.
* `cliLaunch_port_iff` — when a launch has the port that is wanted.
-/

namespace Luan

/-- The last port that is parsed, otherwise the saved one, otherwise that of `Config()`. -/
def wantedPort (P : CLIPlatform) (saved : Option JsonObject) (args : List String) : SwiftInt :=
  ((parsedPorts args).getLast?.or (savedInt P saved "port")).getD Config.initial.port

/-! ## Where the service reads it -/

lemma serviceEnv_servicePort (c : Config) (env inheritedEnv : Environment) :
    env.setAll (c.serviceEnv inheritedEnv) "SERVICE_PORT" = some (toString c.port.1) := by
  simp only [Config.serviceEnv, Environment.setAll_cons, Environment.setAll_nil,
    Environment.set_apply]
  simp

/-- **The service finds the port of the configuration in its environment.** -/
theorem bridgeEnv_servicePort (c : Config) (inheritedEnv : Environment) :
    c.bridgeEnv inheritedEnv "SERVICE_PORT" = some (toString c.port.1) := by
  by_cases hexec : c.execCode = "" ∧ c.execScript = ""
  · rw [Config.bridgeEnv, Config.bridgeVariables, if_pos hexec, serviceEnv_servicePort]
  · have hany : (c.scriptEnv inheritedEnv).any
        (fun v => v.1 = "LUAN_EXEC_SCRIPT" || v.1 = "LUAN_EXEC_CODE") = true := by
      simp [Config.scriptEnv]
    rw [Config.bridgeEnv, Config.bridgeVariables, if_neg hexec, if_pos hany, Config.scriptEnv,
      Environment.setAll_append]
    simp only [Environment.setAll_cons, Environment.setAll_nil, Environment.set_apply,
      serviceEnv_servicePort]
    simp

/-! ## The two looks at the command line -/

lemma else_of_ite_eq {α : Type} {p : Prop} [Decidable p] {a b c : α} (ha : a ≠ c)
    (h : (if p then a else b) = c) : b = c := by
  rcases ite_eq_iff.mp h with ⟨-, heq⟩ | ⟨-, heq⟩
  · exact absurd heq ha
  · exact heq

/-- A word that the loop takes for the port option is spelled so. -/
lemma spellsPort_of_cliOption? {arg : String} (h : cliOption? arg = some .port) :
    SpellsPort arg := by
  rw [cliOption?] at h
  -- the four cases in front of it
  iterate 4 replace h := else_of_ite_eq (by decide) h
  rcases ite_eq_iff.mp h with ⟨hport, -⟩ | ⟨-, h⟩
  · exact hport
  · iterate 9 replace h := else_of_ite_eq (by decide) h
    cases h

/-- **Where no word is spelled so, there is no port option.** -/
lemma hasPortOption_of_not_spellsPort {args : List String} (h : ∀ word ∈ args, ¬ SpellsPort word) :
    hasPortOption args = false := by
  fun_induction hasPortOption args with
  | case3 arg rest hdash hoption ih => exact ih fun word hword => h word (by simp [hword])
  | case4 arg rest hdash hoption =>
      exact absurd (spellsPort_of_cliOption? hoption) (h arg (by simp))
  | case7 arg hdash option hoption _ set hkind value rest ih =>
      exact ih fun word hword => h word (by simp [hword])
  | case9 arg hdash option hoption _ set hkind value rest ih =>
      exact ih fun word hword => h word (by simp [hword])
  | case10 arg rest hdash option hoption _ set hkind ih =>
      exact ih fun word hword => h word (by simp [hword])
  | _ => rfl

/-- A saved port counts, unless it is the one that is taken without it. -/
lemma getD_initial_iff (savedPort : Option SwiftInt) :
    Config.initial.port = savedPort.getD Config.initial.port
      ↔ ∀ p, savedPort = some p → p.1 = 8080 := by
  cases savedPort with
  | none => simp
  | some p =>
      rw [Option.getD_some, Subtype.ext_iff]
      constructor
      · intro heq q hq
        obtain rfl := Option.some.inj hq
        exact heq.symm
      · intro hdefault
        exact (hdefault p rfl).symm

/-- **When a launch has the port that is wanted**: a port option is parsed, or no word of the
command line, the program's name included, is spelled like one, or the saved port is the one that
is taken without it. -/
theorem cliLaunch_port_iff (P : CLIPlatform) (call : Invocation) (random : SecretBytes)
    (saved : Option JsonObject) (c : Config) (file : Option JsonObject)
    (h : cliLaunch P call random saved = .ok (c, file)) :
    c.port = wantedPort P saved call.args
      ↔ parsedPorts call.args ≠ [] ∨ (∀ word ∈ call.program :: call.args, ¬ SpellsPort word)
        ∨ ∀ p, savedInt P saved "port" = some p → p.1 = 8080 := by
  simp only [cliLaunch] at h
  cases hargs : parseArgs P.unicode P.currentDirectoryPath call.args with
  | error e => simp [hargs] at h
  | ok original =>
      rw [hargs] at h
      have hc : (launchWith P call random original saved).1 = c :=
        congrArg Prod.fst (Except.ok.inj h)
      have hport : c.port
          = if ∃ word ∈ call.program :: call.args, SpellsPort word then original.port
            else (savedInt P saved "port").getD original.port := by
        rw [← hc, launchWith_port]
      have horiginal := parseArgs_parsedPorts hargs
      by_cases hspelled : ∃ word ∈ call.program :: call.args, SpellsPort word
      · rw [hport, if_pos hspelled, horiginal, wantedPort]
        cases hlast : (parsedPorts call.args).getLast? with
        | some p =>
            -- a parsed port is the wanted one
            have hparsed : parsedPorts call.args ≠ [] := by
              intro hnil
              simp [hnil] at hlast
            simp [hparsed]
        | none =>
            have hnil : parsedPorts call.args = [] := List.getLast?_eq_none_iff.mp hlast
            have hno : ¬ ∀ word ∈ call.program :: call.args, ¬ SpellsPort word := by
              obtain ⟨word, hword, hspells⟩ := hspelled
              exact fun hall => hall word hword hspells
            rw [Option.none_or, Option.getD_none, getD_initial_iff]
            simp only [hnil, hno, ne_eq, not_true_eq_false, false_or]
      · -- nothing is spelled like a port option, so nothing is parsed as one
        have hno : ∀ word ∈ call.program :: call.args, ¬ SpellsPort word :=
          fun word hword hspells => hspelled ⟨word, hword, hspells⟩
        have hnone : hasPortOption call.args = false :=
          hasPortOption_of_not_spellsPort fun word hword => hno word (by simp [hword])
        have hnil := parsedPorts_of_not_hasPortOption hnone
        have heq : c.port = wantedPort P saved call.args := by
          rw [hport, if_neg hspelled, horiginal, wantedPort, hnil]
          rfl
        simp only [heq, true_iff]
        exact .inr (.inl hno)

/-- `luan` with two ports, the second of which counts. -/
def twoPorts : Invocation := ⟨"luan", ["-p", "80", "--port", "9000"], by decide, fun _ => none⟩

/-- It counts whatever is saved. -/
theorem cliLaunch_port_twoPorts :
    ∃ c file, cliLaunch .plain twoPorts .zero (some (onlyPort ⟨9090, by decide⟩)) = .ok (c, file)
      ∧ c.port = wantedPort .plain (some (onlyPort ⟨9090, by decide⟩)) twoPorts.args := by
  refine ⟨_, _, rfl, ?_⟩
  exact (cliLaunch_port_iff .plain twoPorts .zero _ _ _ rfl).mpr (.inl (by decide))

/-- `luan -e "return 1" -- -p`: the option is for the chunk. -/
def portForChunk : Invocation :=
  ⟨"luan", ["-e", "return 1", "--", "-p"], by decide, fun _ => none⟩

/-- It makes `luan` forget the saved port. -/
theorem cliLaunch_port_forgotten :
    ∃ c file, cliLaunch .plain portForChunk .zero (some (onlyPort ⟨9090, by decide⟩))
        = .ok (c, file)
      ∧ parsedPorts portForChunk.args = []
      ∧ c.port.1 = 8080
      ∧ (wantedPort .plain (some (onlyPort ⟨9090, by decide⟩)) portForChunk.args).1 = 9090 := by
  refine ⟨_, _, rfl, by decide, rfl, ?_⟩
  rw [wantedPort, savedInt_onlyPort]
  rfl

end Luan
