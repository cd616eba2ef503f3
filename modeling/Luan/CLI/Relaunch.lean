import Luan.CLI.Launch

/-!
# Launching again

What a launch without a port option leaves in `.luanmac.json`, and what the next launch makes of
it.

* `parseWords_port` — the loop takes the last port that it parses.
* `parseArgs_port` — without the option the port is that of `Config()`.
* `launch_secrets_again` — the second launch has the secrets of the first.
* `launchWith_port` — the port of a launch is the stored one or the one of the command line.
* `relaunch_iff` — when a second launch resolves to the same port and secrets, with the stored port
  as it was.
-/

namespace Luan

/-! ## The port on the command line -/

lemma positional_port {U : UnicodeData} {c c' : Config} {arg : String}
    (h : c.positional U arg = .ok c') : c'.port = c.port := by
  simp only [Config.positional] at h
  split_ifs at h <;> cases h <;> rfl

lemma text_port {option : CLIOption} {set : Config → String → Config}
    (h : option.kind = .text set) (c : Config) (value : String) : (set c value).port = c.port := by
  cases option <;> cases h <;> rfl

lemma number_port {option : CLIOption} {set : Config → SwiftInt → Config}
    (h : option.kind = .number set) (hport : option ≠ .port) (c : Config) (n : SwiftInt) :
    (set c n).port = c.port := by
  cases option <;> cases h
  · exact absurd rfl hport
  · rfl

lemma flag_port {option : CLIOption} {set : Config → Config} (h : option.kind = .flag set)
    (c : Config) : (set c).port = c.port := by
  cases option <;> cases h <;> rfl

lemma port_number {set : Config → SwiftInt → Config}
    (h : CLIOption.port.kind = .number set) (c : Config) (n : SwiftInt) : (set c n).port = n := by
  cases h
  rfl

/-- The last port of a list with one more in front. -/
lemma getLast?_cons_getD (ports : List SwiftInt) (first port : SwiftInt) :
    (first :: ports).getLast?.getD port = ports.getLast?.getD first := by
  simp [List.getLast?_cons]

/-- **The loop takes the last port that is parsed.** -/
lemma parseWords_port {U : UnicodeData} {c c' : Config} {args : List String}
    (h : parseWords U c args = .ok c') : c'.port = (parsedPorts args).getLast?.getD c.port := by
  fun_induction parseWords U c args with
  | case1 c => exact Except.ok.inj h ▸ rfl
  | case2 c rest =>
      obtain rfl := Except.ok.inj h
      rw [parsedPorts_dashes]
      split_ifs <;> rfl
  | case3 c arg rest hdash hoption next hnext ih =>
      rw [ih h, positional_port hnext, parsedPorts_word hdash hoption]
  | case7 c arg hdash option hoption set hkind value rest ih =>
      rw [ih h, text_port hkind, parsedPorts_text hdash hoption hkind]
  | case9 c arg hdash option hoption set hkind value rest n hn ih =>
      rw [ih h, parsedPorts_number hdash hoption hkind hn]
      split_ifs with hport
      · subst hport
        rw [port_number hkind, getLast?_cons_getD]
      · rw [number_port hkind hport]
  | case11 c arg rest hdash option hoption set hkind ih =>
      rw [ih h, flag_port hkind, parsedPorts_flag hdash hoption hkind]
  | _ => cases h

/-- Where there is no port option, no port is parsed. -/
lemma parsedPorts_of_not_hasPortOption {args : List String} (h : hasPortOption args = false) :
    parsedPorts args = [] := by
  fun_induction hasPortOption args with
  | case1 => rfl
  | case2 rest => exact parsedPorts_dashes rest
  | case3 arg rest hdash hoption ih => rw [parsedPorts_word hdash hoption, ih h]
  | case4 => cases h
  | case5 arg rest hdash option hoption _ hkind =>
      unfold parsedPorts
      simp only [hdash, hoption, hkind, if_false]
  | case6 arg hdash option hoption _ set hkind =>
      unfold parsedPorts
      simp only [hdash, hoption, hkind, if_false]
  | case7 arg hdash option hoption _ set hkind value rest ih =>
      rw [parsedPorts_text hdash hoption hkind, ih h]
  | case8 arg hdash option hoption _ set hkind =>
      unfold parsedPorts
      simp only [hdash, hoption, hkind, if_false]
  | case9 arg hdash option hoption hport set hkind value rest ih =>
      cases hn : swiftIntValue? value.toList with
      | none =>
          unfold parsedPorts
          simp only [hdash, hoption, hkind, hn, if_false]
      | some n => rw [parsedPorts_number hdash hoption hkind hn, if_neg hport, ih h]
  | case10 arg rest hdash option hoption _ set hkind ih =>
      rw [parsedPorts_flag hdash hoption hkind, ih h]

lemma parseArgs_parsedPorts {U : UnicodeData} {currentDirectoryPath : String} {args : List String}
    {c : Config} (h : parseArgs U currentDirectoryPath args = .ok c) :
    c.port = (parsedPorts args).getLast?.getD Config.initial.port := by
  simp only [parseArgs] at h
  cases hwords : parseWords U .initial args with
  | error e => simp [hwords] at h
  | ok parsed =>
      have hparsed := parseWords_port hwords
      simp only [hwords] at h
      split_ifs at h <;> cases h <;> exact hparsed

/-- **Without a port option the port is that of `Config()`.** -/
theorem parseArgs_port {U : UnicodeData} {currentDirectoryPath : String} {args : List String}
    {c : Config} (hport : hasPortOption args = false)
    (h : parseArgs U currentDirectoryPath args = .ok c) : c.port.1 = 8080 := by
  rw [parseArgs_parsedPorts h, parsedPorts_of_not_hasPortOption hport]
  rfl

/-! ## The file after a launch -/

section Again

variable {P : CLIPlatform} {call : Invocation} {original : Config} {saved : Option JsonObject}
  {random random' : SecretBytes}

/-- The command line leaves a secret open. -/
def Config.LeavesSecretOpen (c : Config) : Prop :=
  c.jwtSecret = "" ∨ c.activationKey = "" ∨ c.wsToken = "" ∨ c.purgeToken = ""

instance (c : Config) : Decidable c.LeavesSecretOpen :=
  inferInstanceAs (Decidable (_ ∨ _ ∨ _ ∨ _))

/-- The file after a launch: written back if the command line leaves a secret open. -/
lemma launchWith_file :
    (launchWith P call random original saved).2
      = if original.LeavesSecretOpen then
          some ((original.mergeSecrets call.inheritedEnv saved random).persisted saved)
        else saved := by
  have hdirty := isDirty_iff original call.inheritedEnv saved random
  simp only [launchWith]
  split_ifs with h hopen hopen
  · rfl
  · exact absurd (hdirty.mp h) hopen
  · exact absurd (hdirty.mpr hopen) h
  · rfl

lemma savedStr_persisted (c : Config) {key value : String}
    (h : (key, value) ∈ [("jwtSecret", c.jwtSecret), ("activationKey", c.activationKey),
      ("wsToken", c.wsToken), ("purgeToken", c.purgeToken)]) :
    savedStr (some (c.persisted saved)) key = some value := by
  simp only [List.mem_cons, Prod.mk.injEq, List.not_mem_nil, or_false] at h
  rcases h with ⟨rfl, rfl⟩ | ⟨rfl, rfl⟩ | ⟨rfl, rfl⟩ | ⟨rfl, rfl⟩ <;>
    simp [savedStr, Config.persisted, JsonObject.set_apply]

lemma savedInt_persisted (c : Config) :
    savedInt P (some (c.persisted saved)) "port" = some c.port := by
  simp [savedInt, Config.persisted]

lemma resolvePort_secrets (c : Config) (arguments : List String) :
    (c.resolvePort P saved arguments).secrets = c.secrets := by
  simp only [Config.resolvePort]
  split
  · split_ifs <;> rfl
  · rfl

lemma launchWith_secrets :
    (launchWith P call random original saved).1.secrets
      = (original.mergeSecrets call.inheritedEnv saved random).secrets := resolvePort_secrets _ _

/-- **The second launch has the secrets of the first**: those that the command line leaves open
are in the file. -/
theorem launch_secrets_again :
    (launchWith P call random' original (launchWith P call random original saved).2).1.secrets
      = (launchWith P call random original saved).1.secrets := by
  have hagain : ∀ current envKey savedKey bytes bytes',
      (current = "" → original.LeavesSecretOpen) →
      (∀ c, c = original.mergeSecrets call.inheritedEnv saved random →
        savedStr (some (c.persisted saved)) savedKey
          = some (mergeSecret call.inheritedEnv saved current envKey savedKey bytes)) →
      mergeSecret call.inheritedEnv (launchWith P call random original saved).2 current envKey
          savedKey bytes'
        = mergeSecret call.inheritedEnv saved current envKey savedKey bytes := by
    intro current envKey savedKey bytes bytes' hopen hwritten
    refine mergeSecret_again fun hcurrent => ?_
    rw [launchWith_file, if_pos (hopen hcurrent)]
    exact hwritten _ rfl
  have hwritten := @savedStr_persisted saved
  rw [launchWith_secrets, launchWith_secrets]
  simp only [Config.secrets, Config.mergeSecrets]
  rw [hagain original.jwtSecret _ _ random.jwtSecret _ Or.inl
      (fun c hc => hwritten c (by simp [hc, Config.mergeSecrets])),
    hagain original.activationKey _ _ random.activationKey _ (Or.inr ∘ Or.inl)
      (fun c hc => hwritten c (by simp [hc, Config.mergeSecrets])),
    hagain original.wsToken _ _ random.wsToken _ (Or.inr ∘ Or.inr ∘ Or.inl)
      (fun c hc => hwritten c (by simp [hc, Config.mergeSecrets])),
    hagain original.purgeToken _ _ random.purgeToken _ (Or.inr ∘ Or.inr ∘ Or.inr)
      (fun c hc => hwritten c (by simp [hc, Config.mergeSecrets]))]

/-- The port of a launch: the saved one, or the one of the command line. -/
lemma launchWith_port :
    (launchWith P call random original saved).1.port
      = if ∃ word ∈ call.program :: call.args, SpellsPort word then original.port
        else (savedInt P saved "port").getD original.port :=
  resolvePort_port P _ saved _

/-- What the port of a launch depends on, besides the command line. -/
lemma launchWith_port_congr {file : Option JsonObject}
    (h : savedInt P file "port" = savedInt P saved "port") :
    (launchWith P call random' original file).1.port
      = (launchWith P call random original saved).1.port := by
  rw [launchWith_port, launchWith_port, h]

/-- **A launch keeps the stored port**, if that is the one it writes. -/
lemma savedInt_launchWith (hdefault : original.port.1 = 8080)
    (hcond : original.LeavesSecretOpen → ∀ p, savedInt P saved "port" = some p → p.1 = 8080)
    {p : SwiftInt} (hp : savedInt P saved "port" = some p) :
    savedInt P (launchWith P call random original saved).2 "port" = some p := by
  rw [launchWith_file]
  split_ifs with hopen
  · rw [savedInt_persisted]
    exact congrArg some (Subtype.ext (hdefault.trans (hcond hopen p hp).symm))
  · exact hp

/-- **The second launch has the port of the first**: all ports that come into question are 8080,
or the file is as it was. -/
lemma launchWith_port_again (hdefault : original.port.1 = 8080)
    (hcond : original.LeavesSecretOpen → ∀ p, savedInt P saved "port" = some p → p.1 = 8080) :
    (launchWith P call random' original (launchWith P call random original saved).2).1.port
      = (launchWith P call random original saved).1.port := by
  rw [launchWith_file]
  split_ifs with hopen
  · have hall : ∀ random file, (∀ p, savedInt P file "port" = some p → p.1 = 8080) →
        (launchWith P call random original file).1.port.1 = 8080 := by
      intro random file hfile
      rw [launchWith_port]
      split_ifs
      · exact hdefault
      · cases hsaved : savedInt P file "port" with
        | none => exact hdefault
        | some p => exact hfile p hsaved
    refine Subtype.ext ((hall _ _ ?_).trans (hall _ _ (hcond hopen)).symm)
    intro p hp
    rw [savedInt_persisted] at hp
    rw [← Option.some.inj hp]
    exact hdefault
  · exact launchWith_port_congr rfl

end Again

/-- **When launches agree.**  For a command line without a port option, a launch keeps a stored
port, and a second launch resolves to the same port and the same four secrets, exactly if the
command line gives all four secrets, or no port is stored, or the stored port is 8080. -/
theorem relaunch_iff (P : CLIPlatform) (call : Invocation) (saved : Option JsonObject)
    (hport : hasPortOption call.args = false) :
    (∀ random random' first second, cliLaunch P call random saved = .ok first →
        cliLaunch P call random' first.2 = .ok second →
        (∀ p, savedInt P saved "port" = some p → savedInt P first.2 "port" = some p)
          ∧ second.1.port = first.1.port ∧ second.1.secrets = first.1.secrets)
      ↔ ∀ original, parseArgs P.unicode P.currentDirectoryPath call.args = .ok original →
          original.LeavesSecretOpen → ∀ p, savedInt P saved "port" = some p → p.1 = 8080 := by
  constructor
  · intro hagree original hargs hopen p hp
    have hlaunch : ∀ random file, cliLaunch P call random file
        = .ok (launchWith P call random original file) := by
      intro random file
      simp [cliLaunch, hargs]
    have hkept := (hagree .zero .zero _ _ (hlaunch _ _) (hlaunch _ _)).1 p hp
    rw [launchWith_file, if_pos hopen, savedInt_persisted] at hkept
    rw [← Option.some.inj hkept]
    show original.port.1 = 8080
    exact parseArgs_port hport hargs
  · intro hcond random random' first second hfirst hsecond
    simp only [cliLaunch] at hfirst hsecond
    cases hargs : parseArgs P.unicode P.currentDirectoryPath call.args with
    | error e => simp [hargs] at hfirst
    | ok original =>
        rw [hargs] at hfirst hsecond
        obtain rfl := Except.ok.inj hfirst
        obtain rfl := Except.ok.inj hsecond
        have hdefault := parseArgs_port hport hargs
        exact ⟨fun p hp => savedInt_launchWith hdefault (hcond original hargs) hp,
          launchWith_port_again hdefault (hcond original hargs), launch_secrets_again⟩

/-- A workspace with a port and no secrets. -/
def onlyPort (port : SwiftInt) : JsonObject := JsonObject.empty.set "port" (.ofInt port)

lemma savedInt_onlyPort (P : CLIPlatform) (port : SwiftInt) :
    savedInt P (some (onlyPort port)) "port" = some port := by
  simp [savedInt, onlyPort]

/-- `luan` without arguments, in a workspace with the default port. -/
theorem relaunch_default_port :
    (hasPortOption [] = false)
      ∧ ∀ random random' first second,
        cliLaunch .plain .bare random (some (onlyPort ⟨8080, by decide⟩))
          = .ok first →
        cliLaunch .plain .bare random' first.2 = .ok second →
        (∀ p, savedInt .plain (some (onlyPort ⟨8080, by decide⟩)) "port" = some p →
            savedInt .plain first.2 "port" = some p)
          ∧ second.1.port = first.1.port ∧ second.1.secrets = first.1.secrets := by
  refine ⟨rfl, (relaunch_iff _ _ _ rfl).mpr ?_⟩
  intro original _ _ p hp
  rw [savedInt_onlyPort] at hp
  rw [← Option.some.inj hp]

/-- **A launch forgets the port.**  `luan` without arguments, in a workspace whose port is 9090:
it listens on that port, but writes 8080 to the file, which the next launch takes. -/
theorem relaunch_port_lost :
    ¬ ∀ (P : CLIPlatform) (call : Invocation) (saved : Option JsonObject),
      hasPortOption call.args = false →
      ∀ random random' first second, cliLaunch P call random saved = .ok first →
        cliLaunch P call random' first.2 = .ok second →
        (∀ p, savedInt P saved "port" = some p → savedInt P first.2 "port" = some p)
          ∧ second.1.port = first.1.port ∧ second.1.secrets = first.1.secrets := by
  intro h
  have hkept := (h .plain .bare (some (onlyPort ⟨9090, by decide⟩)) rfl
    .zero .zero _ _ rfl rfl).1 _ (savedInt_onlyPort _ _)
  rw [launchWith_file, if_pos (by decide), savedInt_persisted] at hkept
  exact absurd (congrArg Subtype.val (Option.some.inj hkept)) (by decide)

end Luan
