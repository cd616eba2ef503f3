import Luan.Core.Environment
import Luan.Core.Json

/-!
# The app's settings

`AppSettings` in `LuanMac/AppSettings.swift`, and what it makes of `.luanmac.json`.

* `Snapshot.decode`, `Snapshot.encode` — the `Codable` record.  Three of its keys are required
  besides the port and the secrets; two are only there for old files and are never written.
* `load`, `save`, `ensureSecretsAndSave` — on the object in the file, if there is one.
* `envDict` — the environment for the `luan` program.

Random bytes are arguments.  Writing the file is taken to succeed.
-/

namespace Luan

structure Snapshot where
  host : String
  port : SwiftInt
  sqliteSoftHeapMB : Option SwiftInt
  debug : Bool
  sandboxUnrestricted : Bool
  sslSkipVerify : Option Bool
  nativeChromeMCPEnabled : Option Bool
  nativeChromeMCPPort : Option SwiftInt
  terminateChromeOnQuit : Option Bool
  jwtSecret : String
  activationKey : String
  wsToken : Option String
  purgeToken : Option String

structure AppSettings where
  host : String
  port : SwiftInt
  sqliteSoftHeapMB : SwiftInt
  debug : Bool
  sandboxUnrestricted : Bool
  sslSkipVerify : Bool
  nativeChromeMCPEnabled : Bool
  nativeChromeMCPPort : SwiftInt
  terminateChromeOnQuit : Bool
  jwtSecret : String
  activationKey : String
  nativeChromeMCPToken : String
  statusToken : String
  documentRoot : String

/-! ## The record in the file -/

namespace Snapshot

/-- `init(from:)`, as the compiler derives it -/
def decode (o : JsonObject) : Option Snapshot := do
  let host ← o.decode Json.string? "host"
  let port ← o.decode Json.int? "port"
  let sqliteSoftHeapMB ← o.decodeIfPresent Json.int? "sqliteSoftHeapMB"
  let debug ← o.decode Json.bool? "debug"
  let sandboxUnrestricted ← o.decode Json.bool? "sandboxUnrestricted"
  let sslSkipVerify ← o.decodeIfPresent Json.bool? "sslSkipVerify"
  let nativeChromeMCPEnabled ← o.decodeIfPresent Json.bool? "nativeChromeMCPEnabled"
  let nativeChromeMCPPort ← o.decodeIfPresent Json.int? "nativeChromeMCPPort"
  let terminateChromeOnQuit ← o.decodeIfPresent Json.bool? "terminateChromeOnQuit"
  let jwtSecret ← o.decode Json.string? "jwtSecret"
  let activationKey ← o.decode Json.string? "activationKey"
  let wsToken ← o.decodeIfPresent Json.string? "wsToken"
  let purgeToken ← o.decodeIfPresent Json.string? "purgeToken"
  return { host, port, sqliteSoftHeapMB, debug, sandboxUnrestricted, sslSkipVerify,
           nativeChromeMCPEnabled, nativeChromeMCPPort, terminateChromeOnQuit, jwtSecret,
           activationKey, wsToken, purgeToken }

/-- What the compiler derives for `encode(to:)`: each field under its name, without those that are
nil. -/
def fields (s : Snapshot) : List (String × Option Json) :=
  [("host", some (.string s.host)),
    ("port", some (.ofInt s.port)),
    ("sqliteSoftHeapMB", s.sqliteSoftHeapMB.map .ofInt),
    ("debug", some (.bool s.debug)),
    ("sandboxUnrestricted", some (.bool s.sandboxUnrestricted)),
    ("sslSkipVerify", s.sslSkipVerify.map .bool),
    ("nativeChromeMCPEnabled", s.nativeChromeMCPEnabled.map .bool),
    ("nativeChromeMCPPort", s.nativeChromeMCPPort.map .ofInt),
    ("terminateChromeOnQuit", s.terminateChromeOnQuit.map .bool),
    ("jwtSecret", some (.string s.jwtSecret)),
    ("activationKey", some (.string s.activationKey)),
    ("wsToken", s.wsToken.map .string),
    ("purgeToken", s.purgeToken.map .string)]

def encode (s : Snapshot) : JsonObject := .ofFields s.fields

end Snapshot

namespace AppSettings

/-! ## The defaults are integers of the type -/

lemma port_inRange : intMin ≤ 8080 ∧ 8080 ≤ intMax := by decide

lemma softHeap_inRange : intMin ≤ 8 ∧ 8 ≤ intMax := by decide

lemma nativePort_inRange : intMin ≤ 9323 ∧ 9323 ≤ intMax := by decide

/-- The values of the variables in a new object. -/
def initial : AppSettings where
  host := "127.0.0.1"
  port := ⟨8080, port_inRange⟩
  sqliteSoftHeapMB := ⟨8, softHeap_inRange⟩
  debug := false
  sandboxUnrestricted := false
  sslSkipVerify := false
  nativeChromeMCPEnabled := false
  nativeChromeMCPPort := ⟨9323, nativePort_inRange⟩
  terminateChromeOnQuit := true
  jwtSecret := ""
  activationKey := ""
  nativeChromeMCPToken := ""
  statusToken := ""
  documentRoot := ""

/-! ## Reading and writing the file -/

/-- `load(documentRoot:)` -/
def load (s : AppSettings) (documentRoot : String) (file : Option JsonObject) : AppSettings :=
  let s := { s with documentRoot := documentRoot }
  match file.bind Snapshot.decode with
  | none =>
      { s with
        host := "127.0.0.1"
        port := ⟨8080, port_inRange⟩
        sqliteSoftHeapMB := ⟨8, softHeap_inRange⟩
        debug := false
        sandboxUnrestricted := false
        sslSkipVerify := false
        nativeChromeMCPEnabled := false
        nativeChromeMCPPort := ⟨9323, nativePort_inRange⟩
        terminateChromeOnQuit := true
        jwtSecret := ""
        activationKey := "" }
  | some snap =>
      let configuredNativePort := snap.nativeChromeMCPPort.getD ⟨9323, nativePort_inRange⟩
      { s with
        host := snap.host
        port := snap.port
        sqliteSoftHeapMB := snap.sqliteSoftHeapMB.getD ⟨8, softHeap_inRange⟩
        debug := snap.debug
        sandboxUnrestricted := snap.sandboxUnrestricted
        sslSkipVerify := snap.sslSkipVerify.getD false
        nativeChromeMCPEnabled := snap.nativeChromeMCPEnabled.getD false
        nativeChromeMCPPort :=
          if configuredNativePort.1 = 9223 then ⟨9323, nativePort_inRange⟩ else configuredNativePort
        terminateChromeOnQuit := snap.terminateChromeOnQuit.getD true
        jwtSecret := snap.jwtSecret
        activationKey := snap.activationKey }

/-- The record that `save` writes. -/
def snapshot (s : AppSettings) : Snapshot where
  host := s.host
  port := s.port
  sqliteSoftHeapMB := some s.sqliteSoftHeapMB
  debug := s.debug
  sandboxUnrestricted := s.sandboxUnrestricted
  sslSkipVerify := some s.sslSkipVerify
  nativeChromeMCPEnabled := some s.nativeChromeMCPEnabled
  nativeChromeMCPPort := some s.nativeChromeMCPPort
  terminateChromeOnQuit := some s.terminateChromeOnQuit
  jwtSecret := s.jwtSecret
  activationKey := s.activationKey
  wsToken := none
  purgeToken := none

/-- `save()`: the file afterwards. -/
def save (s : AppSettings) (file : Option JsonObject) : Option JsonObject :=
  if s.documentRoot = "" then file else some s.snapshot.encode

/-- The secrets of `ensureSecretsAndSave()`. -/
def ensureSecrets (s : AppSettings) (jwt : Vector UInt8 32) (activation : Vector UInt8 16) :
    AppSettings :=
  let s := if s.jwtSecret = "" then { s with jwtSecret := hexText jwt.toList } else s
  if s.activationKey = "" then { s with activationKey := hexText activation.toList } else s

/-- `ensureSecretsAndSave()` -/
def ensureSecretsAndSave (s : AppSettings) (jwt : Vector UInt8 32) (activation : Vector UInt8 16)
    (file : Option JsonObject) : AppSettings × Option JsonObject :=
  let s := s.ensureSecrets jwt activation
  (s, s.save file)

/-! ## The environment of the `luan` program -/

/-- `ensureNativeChromeMCPToken()` -/
def ensureNativeChromeMCPToken (s : AppSettings) (random : Vector UInt8 32) : AppSettings :=
  if s.nativeChromeMCPToken = "" then { s with nativeChromeMCPToken := hexText random.toList }
  else s

/-- `ensureStatusToken()` -/
def ensureStatusToken (s : AppSettings) (random : Vector UInt8 32) : AppSettings :=
  if s.statusToken = "" then { s with statusToken := hexText random.toList } else s

/-- `envDict(uiLanguage:)`, with the settings afterwards -/
def envDict (s : AppSettings) (uiLanguage : String) (status native : Vector UInt8 32) :
    Environment × AppSettings :=
  let env : Environment := fun _ => none
  let env := env.set "SERVICE_HOST" s.host
  let env := env.set "SERVICE_PORT" (toString s.port.1)
  let env := env.set "SQLITE_SOFT_HEAP_MB" (toString s.sqliteSoftHeapMB.1)
  let env := env.set "SANDBOX_UNRESTRICTED" (if s.sandboxUnrestricted then "1" else "0")
  let env := env.set "SSL_SKIP_VERIFY" (if s.sslSkipVerify then "1" else "0")
  let env := env.set "DEBUG" (if s.debug then "true" else "false")
  let env := env.set "LUAN_UI_LANGUAGE" uiLanguage
  let env := env.set "HTTP_USING_CORE" "true"
  let env := env.set "HTTPD_USING_CORE" "true"
  let env := env.set "JWT_SECRET" s.jwtSecret
  let env := env.set "ACTIVATION_KEY" s.activationKey
  let s := s.ensureStatusToken status
  let env := env.set "STATUS_TOKEN" s.statusToken
  if s.nativeChromeMCPEnabled then
    let s := s.ensureNativeChromeMCPToken native
    let env := env.set "NATIVE_CHROME_MCP_ENABLED" "1"
    let env := env.set "NATIVE_CHROME_MCP_PORT" (toString s.nativeChromeMCPPort.1)
    (env.set "NATIVE_CHROME_MCP_TOKEN" s.nativeChromeMCPToken, s)
  else
    (env.set "NATIVE_CHROME_MCP_ENABLED" "0", s)

end AppSettings

end Luan
