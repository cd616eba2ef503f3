import Luan.Settings.Workspace

/-!
# Keys that the app does not know

`save` writes a fresh record.  What the file held besides the published settings, the tokens of the
`luan` program first of all, is not in it.

* `save_keeps_iff` — when one save keeps the keys that the settings do not expose.
* `Workspace.TokensKept` — a step keeps the stored tokens, and a launch that is not given any
  resolves to the stored ones.
* `settings_frame_iff` — both: saves keep unexposed keys exactly if there are none, and the tokens
  stay the same in exactly the runs in which no save meets a stored token.
-/

namespace Luan

/-- The keys of the published settings. -/
def exposedKeys : List String :=
  ["host", "port", "sqliteSoftHeapMB", "debug", "sandboxUnrestricted", "sslSkipVerify",
    "nativeChromeMCPEnabled", "nativeChromeMCPPort", "terminateChromeOnQuit", "jwtSecret",
    "activationKey"]

/-- What a save leaves of the keys that the settings do not expose. -/
lemma snapshot_encode_unexposed (settings : AppSettings) {key : String} (h : key ∉ exposedKeys) :
    settings.snapshot.encode key = none := by
  by_cases hmem : key ∈ settings.snapshot.fields.map Prod.fst
  · have htoken : key = "wsToken" ∨ key = "purgeToken" := by
      simp only [exposedKeys, List.mem_cons, List.not_mem_nil, or_false, not_or] at h
      simpa [Snapshot.fields, h] using hmem
    refine Snapshot.encode_of_mem ?_
    rcases htoken with rfl | rfl <;> simp [Snapshot.fields, AppSettings.snapshot]
  · exact JsonObject.ofFields_of_notMem hmem

/-- **When a save keeps the unexposed keys**: if it does not write, or there are none. -/
lemma save_keeps_iff (settings : AppSettings) (o : JsonObject) :
    (∀ key, key ∉ exposedKeys → (settings.save (some o)).bind (fun o => o key) = o key)
      ↔ settings.documentRoot = "" ∨ ∀ key, key ∉ exposedKeys → o key = none := by
  by_cases hroot : settings.documentRoot = ""
  · simp [AppSettings.save, hroot]
  · have hsave : ∀ key, key ∉ exposedKeys →
        ((settings.save (some o)).bind (fun o => o key) = o key ↔ o key = none) := by
      intro key hkey
      rw [AppSettings.save, if_neg hroot, Option.bind_some, snapshot_encode_unexposed _ hkey]
      exact eq_comm
    simp only [hroot, false_or]
    exact forall₂_congr hsave

namespace Workspace

variable {P : CLIPlatform}

/-- A token that has been generated: a text in the file that is not empty. -/
def token (s : Workspace) (key : String) : Option String := nonempty? (savedStr s.file key)

/-- Neither the command line nor the environment has a token. -/
def BringsNoToken (P : CLIPlatform) (call : Invocation) : Prop :=
  (∀ original, parseArgs P.unicode P.currentDirectoryPath call.args = .ok original →
      original.wsToken = "" ∧ original.purgeToken = "")
    ∧ nonempty? (call.inheritedEnv "WS_TOKEN") = none
    ∧ nonempty? (call.inheritedEnv "PURGE_TOKEN") = none

/-- The stored tokens stay the same. -/
def KeepsTokens (s s' : Workspace) : Prop :=
  ∀ key, key = "wsToken" ∨ key = "purgeToken" → ∀ value, s.token key = some value →
    s'.token key = some value

/-- **The tokens stay the same once they are generated.** -/
def TokensKept (P : CLIPlatform) (s : Workspace) (e : WorkspaceEvent) (s' : Workspace) : Prop :=
  match e with
  | .save _ => s.KeepsTokens s'
  | .launch call random => BringsNoToken P call → s.KeepsTokens s' ∧
      ∀ resolved, cliLaunch P call random s.file = .ok resolved →
        s'.token "wsToken" = some resolved.1.wsToken
          ∧ s'.token "purgeToken" = some resolved.1.purgeToken

/-- A save that writes does so before there is a token. -/
def SavesBeforeTokens (s : Workspace) (e : WorkspaceEvent) : Prop :=
  ∀ settings, e = .save settings → settings.documentRoot ≠ "" →
    s.token "wsToken" = none ∧ s.token "purgeToken" = none

/-- A save that writes leaves no token. -/
lemma token_save (settings : AppSettings) {key : String} (hkey : key ∉ exposedKeys)
    (savedByApp : Bool) :
    token { file := some settings.snapshot.encode, savedByApp := savedByApp } key = none := by
  simp [token, savedStr, snapshot_encode_unexposed settings hkey, nonempty?]

lemma keepsTokens_save_iff (s : Workspace) (settings : AppSettings) (savedByApp : Bool) :
    s.KeepsTokens { file := some settings.snapshot.encode, savedByApp := savedByApp }
      ↔ s.token "wsToken" = none ∧ s.token "purgeToken" = none := by
  have hws : "wsToken" ∉ exposedKeys := by simp [exposedKeys]
  have hpurge : "purgeToken" ∉ exposedKeys := by simp [exposedKeys]
  constructor
  · intro hkeeps
    constructor
    · refine Option.eq_none_iff_forall_ne_some.mpr fun value hvalue => ?_
      have hafter := hkeeps _ (Or.inl rfl) value hvalue
      rw [token_save settings hws] at hafter
      cases hafter
    · refine Option.eq_none_iff_forall_ne_some.mpr fun value hvalue => ?_
      have hafter := hkeeps _ (Or.inr rfl) value hvalue
      rw [token_save settings hpurge] at hafter
      cases hafter
  · rintro ⟨hnows, hnopurge⟩ key (rfl | rfl) value hvalue
    · simp [hnows] at hvalue
    · simp [hnopurge] at hvalue

/-- A launch without tokens resolves to the stored one, if there is one. -/
lemma mergeSecret_stored {env : Environment} {saved : Option JsonObject} {envKey savedKey value :
    String} (henv : nonempty? (env envKey) = none)
    (hsaved : nonempty? (savedStr saved savedKey) = some value) (random : Vector UInt8 32) :
    mergeSecret env saved "" envKey savedKey random = value := by
  simp [mergeSecret, henv, hsaved]

/-- The tokens that a launch has written. -/
lemma token_persisted {c : Config} {saved : Option JsonObject} (savedByApp : Bool)
    {key value : String} (hvalue : value ≠ "")
    (h : savedStr (some (c.persisted saved)) key = some value) :
    token { file := some (c.persisted saved), savedByApp := savedByApp } key = some value := by
  rw [token, h, nonempty?_some hvalue]

/-- **Launches keep the tokens.** -/
lemma tokensKept_launch {s s' : Workspace} {call : Invocation} {random : SecretBytes}
    (h : s.step P (.launch call random) = some s') :
    TokensKept P s (.launch call random) s' := by
  rintro ⟨hargs, henvws, henvpurge⟩
  simp only [step, cliLaunch] at h ⊢
  cases hparse : parseArgs P.unicode P.currentDirectoryPath call.args with
  | error e =>
      simp only [hparse, Option.some.injEq] at h
      subst h
      exact ⟨fun _ _ _ hvalue => hvalue, by simp⟩
  | ok original =>
      obtain ⟨hws, hpurge⟩ := hargs original hparse
      have hopen : original.LeavesSecretOpen := Or.inr (Or.inr (Or.inl hws))
      simp only [hparse, launchWith_file, if_pos hopen, Option.some.injEq] at h
      subst h
      have hsecrets := @launchWith_secrets P call original s.file random
      simp only [Config.secrets, Prod.mk.injEq] at hsecrets
      obtain ⟨-, -, hresolvedws, hresolvedpurge⟩ := hsecrets
      set written := original.mergeSecrets call.inheritedEnv s.file random with hwritten
      have hnewws : token { s with file := some (written.persisted s.file) } "wsToken"
          = some written.wsToken :=
        token_persisted _ (mergeSecret_ne_empty _ _ _ _ _ _) (savedStr_persisted _ (by simp))
      have hnewpurge : token { s with file := some (written.persisted s.file) } "purgeToken"
          = some written.purgeToken :=
        token_persisted _ (mergeSecret_ne_empty _ _ _ _ _ _) (savedStr_persisted _ (by simp))
      refine ⟨?_, fun resolved hresolved => ?_⟩
      · rintro key (rfl | rfl) value hvalue
        · rw [hnewws, hwritten, Config.mergeSecrets, hws]
          exact congrArg some (mergeSecret_stored henvws hvalue _)
        · rw [hnewpurge, hwritten, Config.mergeSecrets, hpurge]
          exact congrArg some (mergeSecret_stored henvpurge hvalue _)
      · obtain rfl := Except.ok.inj hresolved
        rw [hresolvedws, hresolvedpurge]
        exact ⟨hnewws, hnewpurge⟩

/-- **One step** keeps the tokens exactly if it is no save that meets one. -/
lemma tokensKept_iff {s s' : Workspace} {e : WorkspaceEvent} (h : s.step P e = some s') :
    TokensKept P s e s' ↔ s.SavesBeforeTokens e := by
  cases e with
  | save settings =>
      simp only [step, AppSettings.save, Option.some.injEq] at h
      subst h
      by_cases hroot : settings.documentRoot = ""
      · rw [if_pos hroot]
        refine iff_of_true (fun _ _ _ hvalue => hvalue) ?_
        rintro _ ⟨⟩ hne
        exact absurd hroot hne
      · rw [if_neg hroot]
        refine (keepsTokens_save_iff s settings _).trans ⟨?_, fun hcond => hcond _ rfl hroot⟩
        rintro hnone _ ⟨⟩ _
        exact hnone
  | launch call random =>
      refine iff_of_true (tokensKept_launch h) ?_
      rintro _ ⟨⟩

end Workspace

/-- **When the app leaves the keys of the program alone.**  A save after loading a file keeps the
keys that the settings do not expose exactly if it does not write, or there are none.  In every
sequence of saves and launches the tokens that are stored stay the same, and launches that are not
given any resolve to them, exactly if no save meets a stored token. -/
theorem settings_frame_iff (P : CLIPlatform) :
    (∀ o snap, Snapshot.decode o = some snap → ∀ settings : AppSettings,
        (∀ key, key ∉ exposedKeys → (settings.save (some o)).bind (fun o => o key) = o key)
          ↔ settings.documentRoot = "" ∨ ∀ key, key ∉ exposedKeys → o key = none)
      ∧ ∀ file es, (workspace P file).Along (Workspace.TokensKept P) es
          ↔ (workspace P file).Meets Workspace.SavesBeforeTokens es := by
  refine ⟨fun o _ _ settings => save_keeps_iff settings o, fun file es => ?_⟩
  refine Machine.along_iff_meets (I := fun _ => True) trivial (fun _ _ _ _ _ _ => trivial) ?_ es
  intro s e s' _ hstep
  exact Workspace.tokensKept_iff hstep

/-- Settings that are written to a directory. -/
def settingsIn (documentRoot : String) : AppSettings :=
  { AppSettings.initial with documentRoot := documentRoot }

/-- The app saves a file of its own again. -/
theorem settings_frame_own_file :
    Snapshot.decode (settingsIn "/workspace").snapshot.encode
        = some (settingsIn "/workspace").snapshot
      ∧ ((∀ key, key ∉ exposedKeys → ((settingsIn "/workspace").save
            (some (settingsIn "/workspace").snapshot.encode)).bind (fun o => o key)
              = (settingsIn "/workspace").snapshot.encode key)
          ↔ (settingsIn "/workspace").documentRoot = ""
            ∨ ∀ key, key ∉ exposedKeys → (settingsIn "/workspace").snapshot.encode key = none) :=
  ⟨Snapshot.decode_encode _,
    (settings_frame_iff .plain).1 _ _ (Snapshot.decode_encode _) (settingsIn "/workspace")⟩

/-- **A save drops the token.**  The file is one that the app can read, with a `wsToken`. -/
theorem save_drops_token :
    ¬ ∀ P : CLIPlatform,
      (∀ o snap, Snapshot.decode o = some snap → ∀ settings : AppSettings, ∀ key,
          key ∉ exposedKeys → (settings.save (some o)).bind (fun o => o key) = o key)
        ∧ ∀ file es, (workspace P file).Along (Workspace.TokensKept P) es := by
  intro h
  let snap : Snapshot := { (settingsIn "/workspace").snapshot with wsToken := some "token" }
  have hkept := (h .plain).1 snap.encode snap (Snapshot.decode_encode _) (settingsIn "/workspace")
    "wsToken" (by simp [exposedKeys])
  have htoken : snap.encode "wsToken" = some (.string "token") :=
    Snapshot.encode_of_mem (by simp [Snapshot.fields, snap])
  have hroot : (settingsIn "/workspace").documentRoot ≠ "" := by simp [settingsIn]
  rw [AppSettings.save, if_neg hroot, Option.bind_some,
    snapshot_encode_unexposed _ (by simp [exposedKeys]), htoken] at hkept
  cases hkept

end Luan
