import Luan.CLI.Relaunch
import Luan.Core.Machine
import Luan.Settings.AppSettings

/-!
# The file of a workspace

`.luanmac.json` has two writers.  The app writes a record of its own making; the `luan` program
sets five keys in the dictionary it has read.

* `Snapshot.decode_eq_some_iff` — when the app can read a file, and what it reads.
* `decode_persisted` — a file that the app can read stays so when the program writes to it.
* `workspace` — any sequence of saves and launches.
* `launch_readable_iff` — the app reads what a launch has written exactly if it has saved before.
-/

namespace Luan

/-! ## What the app reads -/

namespace Snapshot

/-- **When a file can be read**, key by key. -/
lemma decode_eq_some_iff {o : JsonObject} {s : Snapshot} :
    decode o = some s ↔
      o.decode Json.string? "host" = some s.host ∧ o.decode Json.int? "port" = some s.port
      ∧ o.decodeIfPresent Json.int? "sqliteSoftHeapMB" = some s.sqliteSoftHeapMB
      ∧ o.decode Json.bool? "debug" = some s.debug
      ∧ o.decode Json.bool? "sandboxUnrestricted" = some s.sandboxUnrestricted
      ∧ o.decodeIfPresent Json.bool? "sslSkipVerify" = some s.sslSkipVerify
      ∧ o.decodeIfPresent Json.bool? "nativeChromeMCPEnabled" = some s.nativeChromeMCPEnabled
      ∧ o.decodeIfPresent Json.int? "nativeChromeMCPPort" = some s.nativeChromeMCPPort
      ∧ o.decodeIfPresent Json.bool? "terminateChromeOnQuit" = some s.terminateChromeOnQuit
      ∧ o.decode Json.string? "jwtSecret" = some s.jwtSecret
      ∧ o.decode Json.string? "activationKey" = some s.activationKey
      ∧ o.decodeIfPresent Json.string? "wsToken" = some s.wsToken
      ∧ o.decodeIfPresent Json.string? "purgeToken" = some s.purgeToken := by
  constructor
  · intro h
    rw [decode] at h
    obtain ⟨_, hhost, h⟩ := Option.bind_eq_some_iff.mp h
    obtain ⟨_, hport, h⟩ := Option.bind_eq_some_iff.mp h
    obtain ⟨_, hheap, h⟩ := Option.bind_eq_some_iff.mp h
    obtain ⟨_, hdebug, h⟩ := Option.bind_eq_some_iff.mp h
    obtain ⟨_, hsandbox, h⟩ := Option.bind_eq_some_iff.mp h
    obtain ⟨_, hssl, h⟩ := Option.bind_eq_some_iff.mp h
    obtain ⟨_, hmcp, h⟩ := Option.bind_eq_some_iff.mp h
    obtain ⟨_, hmcpPort, h⟩ := Option.bind_eq_some_iff.mp h
    obtain ⟨_, hterminate, h⟩ := Option.bind_eq_some_iff.mp h
    obtain ⟨_, hjwt, h⟩ := Option.bind_eq_some_iff.mp h
    obtain ⟨_, hactivation, h⟩ := Option.bind_eq_some_iff.mp h
    obtain ⟨_, hws, h⟩ := Option.bind_eq_some_iff.mp h
    obtain ⟨_, hpurge, h⟩ := Option.bind_eq_some_iff.mp h
    obtain rfl := Option.some.inj h
    exact ⟨hhost, hport, hheap, hdebug, hsandbox, hssl, hmcp, hmcpPort, hterminate, hjwt,
      hactivation, hws, hpurge⟩
  · rintro ⟨hhost, hport, hheap, hdebug, hsandbox, hssl, hmcp, hmcpPort, hterminate, hjwt,
      hactivation, hws, hpurge⟩
    simp [decode, hhost, hport, hheap, hdebug, hsandbox, hssl, hmcp, hmcpPort, hterminate, hjwt,
      hactivation, hws, hpurge]

lemma nodup_fields (s : Snapshot) : (s.fields.map Prod.fst).Nodup := by
  simp [fields]

lemma encode_of_mem {s : Snapshot} {key : String} {value : Option Json}
    (h : (key, value) ∈ s.fields) : s.encode key = value :=
  JsonObject.ofFields_of_mem s.nodup_fields h

/-- **The app reads what it has written.** -/
theorem decode_encode (s : Snapshot) : decode s.encode = some s := by
  rw [decode_eq_some_iff]
  refine ⟨JsonObject.decode_string (encode_of_mem ?_),
    JsonObject.decode_ofInt (encode_of_mem ?_),
    JsonObject.decodeIfPresent_ofInt (encode_of_mem ?_),
    JsonObject.decode_bool (encode_of_mem ?_),
    JsonObject.decode_bool (encode_of_mem ?_),
    JsonObject.decodeIfPresent_bool (encode_of_mem ?_),
    JsonObject.decodeIfPresent_bool (encode_of_mem ?_),
    JsonObject.decodeIfPresent_ofInt (encode_of_mem ?_),
    JsonObject.decodeIfPresent_bool (encode_of_mem ?_),
    JsonObject.decode_string (encode_of_mem ?_),
    JsonObject.decode_string (encode_of_mem ?_),
    JsonObject.decodeIfPresent_string (encode_of_mem ?_),
    JsonObject.decodeIfPresent_string (encode_of_mem ?_)⟩
  all_goals simp [fields]

end Snapshot

/-! ## What the program writes -/

/-- The keys that a launch sets. -/
def persistedKeys : List String := ["jwtSecret", "activationKey", "wsToken", "purgeToken", "port"]

lemma persisted_of_notMem {key : String} (h : key ∉ persistedKeys) (c : Config)
    (saved : Option JsonObject) : c.persisted saved key = saved.getD .empty key := by
  simp only [persistedKeys, List.mem_cons, List.not_mem_nil, or_false, not_or] at h
  simp [Config.persisted, JsonObject.set_apply, h]

/-- **A file that the app can read stays so.**  The program replaces the values of five of its
keys. -/
theorem decode_persisted {o : JsonObject} {s : Snapshot} (h : Snapshot.decode o = some s)
    (c : Config) :
    Snapshot.decode (c.persisted (some o)) = some { s with
      jwtSecret := c.jwtSecret
      activationKey := c.activationKey
      wsToken := some c.wsToken
      purgeToken := some c.purgeToken
      port := c.port } := by
  rw [Snapshot.decode_eq_some_iff] at h ⊢
  obtain ⟨hhost, -, hheap, hdebug, hsandbox, hssl, hmcp, hmcpPort, hterminate, -, -, -, -⟩ := h
  have hkeep : ∀ key, key ∉ persistedKeys → c.persisted (some o) key = o key :=
    fun key hkey => persisted_of_notMem hkey c (some o)
  refine ⟨(JsonObject.decode_congr (hkeep _ ?_)).trans hhost,
    JsonObject.decode_ofInt ?_,
    (JsonObject.decodeIfPresent_congr (hkeep _ ?_)).trans hheap,
    (JsonObject.decode_congr (hkeep _ ?_)).trans hdebug,
    (JsonObject.decode_congr (hkeep _ ?_)).trans hsandbox,
    (JsonObject.decodeIfPresent_congr (hkeep _ ?_)).trans hssl,
    (JsonObject.decodeIfPresent_congr (hkeep _ ?_)).trans hmcp,
    (JsonObject.decodeIfPresent_congr (hkeep _ ?_)).trans hmcpPort,
    (JsonObject.decodeIfPresent_congr (hkeep _ ?_)).trans hterminate,
    JsonObject.decode_string ?_,
    JsonObject.decode_string ?_,
    JsonObject.decodeIfPresent_string ?_,
    JsonObject.decodeIfPresent_string ?_⟩
  all_goals simp [persistedKeys, Config.persisted, JsonObject.set_apply]

/-- A file without a host is not readable. -/
lemma decode_eq_none {o : JsonObject} (h : o "host" = none) : Snapshot.decode o = none := by
  cases hdecode : Snapshot.decode o with
  | none => rfl
  | some s =>
      have hhost := (Snapshot.decode_eq_some_iff.mp hdecode).1
      simp [JsonObject.decode, h] at hhost

/-! ## Saves and launches -/

structure Workspace where
  /-- the object in `.luanmac.json`, if there is one -/
  file : Option JsonObject
  /-- the app has written the file -/
  savedByApp : Bool

inductive WorkspaceEvent
  /-- `save()`, whatever has been loaded and edited before -/
  | save (settings : AppSettings)
  | launch (call : Invocation) (random : SecretBytes)

namespace Workspace

def step (P : CLIPlatform) (s : Workspace) : WorkspaceEvent → Option Workspace
  | .save settings => some
      { file := settings.save s.file
        savedByApp := s.savedByApp || settings.documentRoot ≠ "" }
  | .launch call random =>
      match cliLaunch P call random s.file with
      | .ok (_, file) => some { s with file := file }
      -- the program has printed an error, or its usage, and exited
      | .error _ => some s

end Workspace

/-- A workspace with the given file, which the app has not written. -/
def workspace (P : CLIPlatform) (file : Option JsonObject) : Machine Workspace WorkspaceEvent where
  init := { file := file, savedByApp := false }
  step := Workspace.step P

namespace Workspace

variable {P : CLIPlatform}

/-- The launch writes to the file. -/
def Writes (P : CLIPlatform) (e : WorkspaceEvent) (call : Invocation) (random : SecretBytes)
    (original : Config) : Prop :=
  e = .launch call random
    ∧ parseArgs P.unicode P.currentDirectoryPath call.args = .ok original
    ∧ original.LeavesSecretOpen

/-- **What a launch writes is read by the app**: the file can be decoded, the secrets and the port
are those that were written, and `ensureSecretsAndSave` leaves the secrets alone. -/
def Readable (P : CLIPlatform) (s : Workspace) (e : WorkspaceEvent) (s' : Workspace) : Prop :=
  ∀ call random original, Writes P e call random original →
    let written := original.mergeSecrets call.inheritedEnv s.file random
    s'.file.bind Snapshot.decode ≠ none ∧
      ∀ (settings : AppSettings) (documentRoot : String) (jwt : Vector UInt8 32)
        (activation : Vector UInt8 16),
        let loaded := settings.load documentRoot s'.file
        loaded.jwtSecret = written.jwtSecret ∧ loaded.activationKey = written.activationKey
          ∧ loaded.port = written.port
          ∧ (loaded.ensureSecrets jwt activation).jwtSecret = written.jwtSecret
          ∧ (loaded.ensureSecrets jwt activation).activationKey = written.activationKey

/-- A launch that writes to the file does so after the app has. -/
def WritesAfterApp (P : CLIPlatform) (s : Workspace) (e : WorkspaceEvent) : Prop :=
  ∀ call random original, Writes P e call random original → s.savedByApp = true

/-- **The invariant of a workspace that starts without a file**: the app can read the file exactly
if it has written it. -/
structure Shared (s : Workspace) : Prop where
  readable : s.savedByApp = true → ∃ o snap, s.file = some o ∧ Snapshot.decode o = some snap
  hostless : s.savedByApp = false → ∀ o, s.file = some o → o "host" = none

/-- The file after a launch that writes to it. -/
lemma step_of_writes {s s' : Workspace} {e : WorkspaceEvent} {call : Invocation}
    {random : SecretBytes} {original : Config} (hwrites : Writes P e call random original)
    (h : s.step P e = some s') :
    s' = { s with
      file := some
        ((original.mergeSecrets call.inheritedEnv s.file random).persisted s.file) } := by
  obtain ⟨rfl, hargs, hopen⟩ := hwrites
  simp only [step, cliLaunch, hargs, Option.some.injEq] at h
  rw [← h, launchWith_file, if_pos hopen]

/-- What a step can do to the file. -/
lemma step_cases {s s' : Workspace} {e : WorkspaceEvent} (h : s.step P e = some s') :
    (∃ settings, e = .save settings ∧ settings.documentRoot ≠ ""
        ∧ s' = { file := some settings.snapshot.encode, savedByApp := true })
      ∨ (∃ call random original, Writes P e call random original)
      ∨ s' = s ∧ ∀ call random original, ¬ Writes P e call random original := by
  cases e with
  | save settings =>
      by_cases hroot : settings.documentRoot = ""
      · refine Or.inr (Or.inr ⟨?_, ?_⟩)
        · simpa [step, AppSettings.save, hroot] using h.symm
        · rintro call random original ⟨⟨⟩, -⟩
      · refine Or.inl ⟨settings, rfl, hroot, ?_⟩
        simpa [step, AppSettings.save, hroot] using h.symm
  | launch call random =>
      simp only [step, cliLaunch] at h
      cases hargs : parseArgs P.unicode P.currentDirectoryPath call.args with
      | error error =>
          refine Or.inr (Or.inr ⟨by simpa [hargs] using h.symm, ?_⟩)
          rintro _ _ original ⟨⟨⟩, hparsed, -⟩
          simp [hargs] at hparsed
      | ok parsed =>
          by_cases hopen : parsed.LeavesSecretOpen
          · exact Or.inr (Or.inl ⟨call, random, parsed, rfl, hargs, hopen⟩)
          · refine Or.inr (Or.inr ⟨?_, ?_⟩)
            · simp only [hargs, launchWith_file, if_neg hopen, Option.some.injEq] at h
              exact h.symm
            · rintro _ _ original ⟨⟨⟩, hparsed, hopen'⟩
              rw [hargs] at hparsed
              exact hopen (Except.ok.inj hparsed ▸ hopen')

lemma shared_initial (P : CLIPlatform) : (workspace P none).init.Shared where
  readable hsaved := by simp [workspace] at hsaved
  hostless _ o ho := by simp [workspace] at ho

lemma Shared.step {s s' : Workspace} (hs : s.Shared) {e : WorkspaceEvent}
    (h : s.step P e = some s') : s'.Shared := by
  rcases step_cases h with
    ⟨settings, rfl, hroot, rfl⟩ | ⟨call, random, original, hwrites⟩ | ⟨rfl, -⟩
  · exact ⟨fun _ => ⟨_, _, rfl, Snapshot.decode_encode _⟩, fun hsaved => by simp at hsaved⟩
  · rw [step_of_writes hwrites h]
    refine ⟨fun hsaved => ?_, fun hsaved o ho => ?_⟩
    · obtain ⟨o, snap, ho, hsnap⟩ := hs.readable hsaved
      rw [ho]
      exact ⟨_, _, rfl, decode_persisted hsnap _⟩
    · rw [← Option.some.inj ho, persisted_of_notMem (by simp [persistedKeys])]
      cases hfile : s.file with
      | none => rfl
      | some o => exact hs.hostless hsaved o hfile
  · exact hs

/-- **One launch**: the app reads what it has written exactly if the app has saved before. -/
lemma Shared.readable_iff {s s' : Workspace} (hs : s.Shared) {e : WorkspaceEvent}
    (h : s.step P e = some s') : Readable P s e s' ↔ WritesAfterApp P s e := by
  constructor
  · intro hreadable call random original hwrites
    by_contra hsaved
    have hfile := (hreadable call random original hwrites).1
    rw [step_of_writes hwrites h] at hfile
    refine hfile (decode_eq_none ?_)
    rw [persisted_of_notMem (by simp [persistedKeys])]
    cases hfile : s.file with
    | none => rfl
    | some o => exact hs.hostless (by simpa using hsaved) o hfile
  · intro hafter call random original hwrites
    obtain ⟨o, snap, ho, hsnap⟩ := hs.readable (hafter call random original hwrites)
    have hdecode := decode_persisted hsnap (original.mergeSecrets call.inheritedEnv s.file random)
    rw [← ho] at hdecode
    rw [step_of_writes hwrites h]
    refine ⟨by simp [hdecode], fun settings documentRoot jwt activation => ?_⟩
    have hjwt := mergeSecret_ne_empty call.inheritedEnv s.file original.jwtSecret "JWT_SECRET"
      "jwtSecret" random.jwtSecret
    have hactivation := mergeSecret_ne_empty call.inheritedEnv s.file original.activationKey
      "ACTIVATION_KEY" "activationKey" random.activationKey
    simp only [AppSettings.load, Option.bind_some, hdecode]
    refine ⟨trivial, trivial, trivial, ?_, ?_⟩ <;>
      simp [AppSettings.ensureSecrets, Config.mergeSecrets, hjwt, hactivation]

end Workspace

/-- **When the app reads what launches write.**  In every sequence of saves and launches in a
workspace that starts without the file: every launch that writes its configuration leaves a file
that the app decodes, with the secrets and the port that were written, exactly if the app has saved
before each of them. -/
theorem launch_readable_iff (P : CLIPlatform) (es : List WorkspaceEvent) :
    (workspace P none).Along (Workspace.Readable P) es
      ↔ (workspace P none).Meets (Workspace.WritesAfterApp P) es := by
  refine Machine.along_iff_meets (I := Workspace.Shared) (Workspace.shared_initial P) ?_ ?_ es
  · exact fun s e s' hs hstep _ => hs.step hstep
  · exact fun s e s' hs hstep => hs.readable_iff hstep

/-- **A workspace that the program has created.**  The app cannot decode its file. -/
theorem launch_first_unreadable :
    ¬ ∀ (P : CLIPlatform) (es : List WorkspaceEvent),
      (workspace P none).Along (Workspace.Readable P) es := by
  intro h
  obtain ⟨s', hstep⟩ : ∃ s', (workspace .plain none).step (workspace .plain none).init
      (.launch .bare .zero) = some s' := ⟨_, rfl⟩
  have halong := h .plain ([] ++ [.launch .bare .zero])
  have hreadable := Machine.along_concat halong rfl hstep
  have hiff := (Workspace.shared_initial .plain).readable_iff (P := .plain)
    (e := .launch .bare .zero) hstep
  have hafter := hiff.mp hreadable .bare .zero
    { Config.initial with documentRoot := "/workspace" } ⟨rfl, rfl, by decide⟩
  cases hafter

end Luan
