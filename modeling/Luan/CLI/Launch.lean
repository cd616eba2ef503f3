import Luan.CLI.Args
import Luan.Core.Environment
import Luan.Core.Json

/-!
# A launch of the `luan` program

The part of `LuanCLI/main.swift` that merges the command line with `.luanmac.json`.  A secret is
taken from the command line, the environment or the file, in this order; one that is nowhere is
drawn at random.  If a secret did not come from the command line, the merged configuration is
written back, and only then the port is read from the file as it was.

* `mergeSecret`, `mergeSecrets`, `isDirty`, `persisted`, `resolvePort` — the steps, in the order
  of the source.
* `cliLaunch` — all of them: the configuration of the process, and the file afterwards.

Random bytes are arguments, and writing the file is taken to succeed.
-/

namespace Luan

/-- What `luan` takes from the system it runs on. -/
structure CLIPlatform where
  unicode : UnicodeData
  currentDirectoryPath : String
  /-- `intValue` of an `NSNumber` out of range -/
  tooLarge : ℚ → SwiftInt
  appendingPathComponent : String → String → String

/-- A system on which text is treated as ASCII text is. -/
def CLIPlatform.plain : CLIPlatform where
  unicode := .ascii
  currentDirectoryPath := "/workspace"
  tooLarge _ := ⟨0, by decide⟩
  appendingPathComponent path component := path ++ "/" ++ component

/-- The bytes that `randomHex(bytes: 32)` draws for each secret. -/
structure SecretBytes where
  jwtSecret : Vector UInt8 32
  activationKey : Vector UInt8 32
  wsToken : Vector UInt8 32
  purgeToken : Vector UInt8 32

/-- No random bytes at all. -/
def SecretBytes.zero : SecretBytes :=
  ⟨.replicate 32 0, .replicate 32 0, .replicate 32 0, .replicate 32 0⟩

/-- How the program is called.  `argc` is an `int`. -/
structure Invocation where
  /-- `CommandLine.arguments[0]` -/
  program : String
  args : List String
  argc_le : args.length + 1 ≤ 2 ^ 31 - 1
  inheritedEnv : Environment

/-- `luan` without arguments. -/
def Invocation.bare : Invocation := ⟨"luan", [], by decide, fun _ => none⟩

/-! ## The saved configuration -/

/-- `savedInt` -/
def savedInt (P : CLIPlatform) (saved : Option JsonObject) (key : String) : Option SwiftInt :=
  ((saved.bind fun o => o key).bind Json.nsNumber?).map (integerValue P.tooLarge)

/-- `savedStr` -/
def savedStr (saved : Option JsonObject) (key : String) : Option String :=
  (saved.bind fun o => o key).bind Json.string?

/-- `if let value, !value.isEmpty` -/
def nonempty? (value : Option String) : Option String := value.filter (· ≠ "")

/-- `mergeSecret` -/
def mergeSecret (inheritedEnv : Environment) (saved : Option JsonObject) (current envKey savedKey :
    String) (random : Vector UInt8 32) : String :=
  if current ≠ "" then current
  else
    match nonempty? (inheritedEnv envKey) with
    | some value => value
    | none =>
        match nonempty? (savedStr saved savedKey) with
        | some value => value
        | none => hexText random.toList

namespace Config

def mergeSecrets (c : Config) (inheritedEnv : Environment) (saved : Option JsonObject)
    (random : SecretBytes) : Config :=
  { c with
    jwtSecret := mergeSecret inheritedEnv saved c.jwtSecret "JWT_SECRET" "jwtSecret"
      random.jwtSecret
    activationKey := mergeSecret inheritedEnv saved c.activationKey "ACTIVATION_KEY"
      "activationKey" random.activationKey
    wsToken := mergeSecret inheritedEnv saved c.wsToken "WS_TOKEN" "wsToken" random.wsToken
    purgeToken := mergeSecret inheritedEnv saved c.purgeToken "PURGE_TOKEN" "purgeToken"
      random.purgeToken }

/-- The four secrets, as in `originalSecrets`. -/
def secrets (c : Config) : String × String × String × String :=
  (c.jwtSecret, c.activationKey, c.wsToken, c.purgeToken)

/-- `dirty` -/
def isDirty (original c : Config) : Bool :=
  original.jwtSecret ≠ c.jwtSecret || original.activationKey ≠ c.activationKey
    || original.wsToken ≠ c.wsToken || original.purgeToken ≠ c.purgeToken

/-- The dictionary `cfg` that is written to the file. -/
def persisted (c : Config) (saved : Option JsonObject) : JsonObject :=
  (saved.getD .empty)
    |>.set "jwtSecret" (.string c.jwtSecret)
    |>.set "activationKey" (.string c.activationKey)
    |>.set "wsToken" (.string c.wsToken)
    |>.set "purgeToken" (.string c.purgeToken)
    |>.set "port" (.ofInt c.port)

/-- The saved port is taken if no word of the command line, the program's name included, is
spelled like the option. -/
def resolvePort (c : Config) (P : CLIPlatform) (saved : Option JsonObject) (arguments :
    List String) : Config :=
  match savedInt P saved "port" with
  | some savedPort =>
      if arguments.findIdx? (fun arg => arg = "-p" || arg = "--port") = none then
        { c with port := savedPort }
      else c
  | none => c

end Config

/-- The configuration behind `parseArgs`, and the file afterwards. -/
def launchWith (P : CLIPlatform) (call : Invocation) (random : SecretBytes) (original : Config)
    (saved : Option JsonObject) : Config × Option JsonObject :=
  let c := original.mergeSecrets call.inheritedEnv saved random
  let file := if original.isDirty c then some (c.persisted saved) else saved
  (c.resolvePort P saved (call.program :: call.args), file)

/-- A launch, up to the point where the port is known.  `saved` is the object in the file, if
there is one. -/
def cliLaunch (P : CLIPlatform) (call : Invocation) (random : SecretBytes)
    (saved : Option JsonObject) : Except ArgsError (Config × Option JsonObject) :=
  match parseArgs P.unicode P.currentDirectoryPath call.args with
  | .ok original => .ok (launchWith P call random original saved)
  | .error e => .error e

/-! ## The port -/

/-- The word looks like the port option. -/
def SpellsPort (word : String) : Prop := word = "-p" ∨ word = "--port"

instance (word : String) : Decidable (SpellsPort word) := inferInstanceAs (Decidable (_ ∨ _))

/-- The saved port is taken exactly if no word is spelled like the option. -/
lemma resolvePort_port (P : CLIPlatform) (c : Config) (saved : Option JsonObject)
    (arguments : List String) :
    (c.resolvePort P saved arguments).port
      = if ∃ word ∈ arguments, SpellsPort word then c.port
        else (savedInt P saved "port").getD c.port := by
  have hfind : arguments.findIdx? (fun arg => arg = "-p" || arg = "--port") = none
      ↔ ¬ ∃ word ∈ arguments, SpellsPort word := by
    simp [List.findIdx?_eq_none_iff, SpellsPort]
  rw [Config.resolvePort]
  cases hsaved : savedInt P saved "port" with
  | none => simp
  | some savedPort =>
      dsimp only
      by_cases hspelled : ∃ word ∈ arguments, SpellsPort word
      · rw [if_neg (mt hfind.mp (not_not_intro hspelled)), if_pos hspelled]
      · rw [if_pos (hfind.mpr hspelled), if_neg hspelled, Option.getD_some]

/-! ## Secrets -/

lemma nonempty?_some {value : String} (h : value ≠ "") : nonempty? (some value) = some value := by
  simp [nonempty?, h]

lemma ne_empty_of_nonempty? {value : Option String} {found : String}
    (h : nonempty? value = some found) : found ≠ "" := by
  simpa using (Option.filter_eq_some_iff.mp h).2

/-- A merged secret is never empty. -/
lemma mergeSecret_ne_empty (env : Environment) (saved : Option JsonObject)
    (current envKey savedKey : String) (random : Vector UInt8 32) :
    mergeSecret env saved current envKey savedKey random ≠ "" := by
  simp only [mergeSecret]
  split_ifs with hcurrent
  · exact hcurrent
  · cases henv : nonempty? (env envKey) with
    | some value => exact ne_empty_of_nonempty? henv
    | none =>
        cases hsaved : nonempty? (savedStr saved savedKey) with
        | some value => exact ne_empty_of_nonempty? hsaved
        | none => exact hexText_ne_empty (by simp)

/-- **A secret that has been written back is found again.** -/
lemma mergeSecret_again {env : Environment} {saved file : Option JsonObject}
    {current envKey savedKey : String} {random random' : Vector UInt8 32}
    (hfile : current = "" →
      savedStr file savedKey = some (mergeSecret env saved current envKey savedKey random)) :
    mergeSecret env file current envKey savedKey random'
      = mergeSecret env saved current envKey savedKey random := by
  by_cases hcurrent : current = ""
  · have hne := mergeSecret_ne_empty env saved current envKey savedKey random
    cases henv : nonempty? (env envKey) with
    | some value => simp [mergeSecret, hcurrent, henv]
    | none =>
        rw [mergeSecret, henv, hfile hcurrent, nonempty?_some hne]
        simp [hcurrent]
  · simp [mergeSecret, hcurrent]

/-- **When the configuration is written back**: if the command line leaves a secret open. -/
lemma isDirty_iff (c : Config) (env : Environment) (saved : Option JsonObject)
    (random : SecretBytes) :
    c.isDirty (c.mergeSecrets env saved random) = true ↔
      c.jwtSecret = "" ∨ c.activationKey = "" ∨ c.wsToken = "" ∨ c.purgeToken = "" := by
  have hopen : ∀ current envKey savedKey bytes,
      current ≠ mergeSecret env saved current envKey savedKey bytes ↔ current = "" := by
    intro current envKey savedKey bytes
    constructor
    · intro hne
      by_contra hcurrent
      exact hne (by simp [mergeSecret, hcurrent])
    · rintro rfl
      exact (mergeSecret_ne_empty env saved "" envKey savedKey bytes).symm
  simp [Config.isDirty, Config.mergeSecrets, hopen, or_assoc]

end Luan
