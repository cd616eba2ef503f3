import Luan.ChromeMCP.HTTP
import Luan.ChromeMCP.Manager
import Luan.Core.Json

/-!
# Requests to the Chrome endpoint

What becomes of a parsed request in `LuanMac/NativeChromeMCP.swift`.

* `process` — the checks of method, token and body.
* `handleRequest` — the JSON-RPC methods.
* `Tool` — the tools of `callTool`, with what each needs in its arguments.

`handleRequest` and `callTool` wait for Chrome only in a tool call; up to there they are functions.
What a tool does with Chrome behind `ensureChrome`, and the answers of Chrome, are left out.
-/

namespace Luan

/-- `object as? [String: Any]` -/
def Json.object? : Json → Option JsonObject
  | .object members => some fun key => members.lookup key
  | _ => none

/-- What the endpoint takes from the system's libraries. -/
structure EndpointPlatform where
  unicode : UnicodeData
  /-- `JSONSerialization.jsonObject(with:) as? [String: Any]` -/
  jsonObject : List UInt8 → Option JsonObject
  /-- `jsonData` -/
  jsonData : Json → List UInt8
  /-- `String(describing:)`, of what `ensureChrome` has thrown -/
  describing : EnsurePhase → String

/-- `a == b` on strings. -/
def sameText (U : UnicodeData) (a b : String) : Bool := U.nfc a.toList = U.nfc b.toList

/-- The arguments of `reply`; an absent body is empty. -/
structure HTTPReply where
  status : ℕ
  body : List UInt8

/-! ## The checks -/

/-- What `process` does with a request. -/
inductive Processed
  | reply (r : HTTPReply)
  /-- a task with `handleRequest` is created -/
  | handle (object : JsonObject)

/-- `req.headers["authorization"] == "Bearer \(token)"` -/
def isAuthorized (U : UnicodeData) (token : String) (req : HTTPRequest) : Bool :=
  match req.headers.get U "authorization".toList with
  | some value => sameText U (String.ofList value) ("Bearer " ++ token)
  | none => false

/-- `process` -/
def process (P : EndpointPlatform) (token : String) (req : HTTPRequest) : Processed :=
  if !sameText P.unicode (String.ofList req.method) "POST" then .reply ⟨405, []⟩
  else if !isAuthorized P.unicode token req then
    .reply ⟨401, asciiBytes "\x7b\"error\":\"unauthorized\"\x7d".toList⟩
  else
    match P.jsonObject req.body with
    | none => .reply ⟨400, asciiBytes "\x7b\"error\":\"invalid JSON body\"\x7d".toList⟩
    | some object => .handle object

/-- **The requests that are handed to `handleRequest`.** -/
lemma process_eq_handle_iff {P : EndpointPlatform} {token : String} {req : HTTPRequest}
    {object : JsonObject} :
    process P token req = .handle object
      ↔ sameText P.unicode (String.ofList req.method) "POST" = true
        ∧ isAuthorized P.unicode token req = true ∧ P.jsonObject req.body = some object := by
  rw [process]
  split_ifs with hmethod htoken
  · simp_all
  · simp_all
  · cases hobject : P.jsonObject req.body with
    | none => simp
    | some object' => simp_all

/-! ## The methods -/

/-- An object with text under its keys. -/
def textObject (members : List (String × String)) : Json :=
  .object (members.map fun member => (member.1, .string member.2))

/-- One of `tools`. -/
def toolEntry (name description : String) (properties : List (String × Json))
    (required : List String) : Json :=
  .object [("name", .string name), ("description", .string description),
    ("inputSchema", .object [("type", .string "object"), ("properties", .object properties),
      ("required", .array (required.map .string))])]

/-- `tools` -/
def tools : Json :=
  let params := textObject [("type", "object"), ("description", "CDP method params")]
  let sessionId := textObject [("type", "string"),
    ("description", "optional flat session id from Target.attachToTarget(flatten=true)")]
  .array
    [toolEntry "page_command"
      "Send an arbitrary CDP command to a page target (Page.*, DOM.*, Runtime.*, Network.*, ...)."
      [("id", textObject [("type", "string"), ("description", "targetId")]),
        ("method", textObject [("type", "string"),
          ("description", "CDP method, e.g. Page.captureScreenshot")]),
        ("params", params), ("sessionId", sessionId)]
      ["id", "method"],
    toolEntry "browser_command"
      "Send an arbitrary CDP command to the browser target (Target.*, Extensions.*, ...)."
      [("method", textObject [("type", "string"),
          ("description", "CDP method, e.g. Target.createTarget")]),
        ("params", params), ("sessionId", sessionId)]
      ["method"],
    toolEntry "http_command"
      ("Call a Chrome DevTools HTTP endpoint: GET /json/version, GET /json/list, "
        ++ "PUT /json/new?url=..., PUT /json/activate/\x7bid\x7d, PUT /json/close/\x7bid\x7d.")
      [("method", textObject [("type", "string"), ("description", "GET or PUT")]),
        ("path", textObject [("type", "string"),
          ("description", "endpoint path, e.g. /json/list")])]
      ["path"]]

/-- A JSON-RPC answer with a result. -/
def rpcResult (id result : Json) : Json :=
  .object [("jsonrpc", .string "2.0"), ("id", id), ("result", result)]

/-- A JSON-RPC answer with an error. -/
def rpcError (id : Json) (code : Int) (message : String) : Json :=
  .object [("jsonrpc", .string "2.0"), ("id", id),
    ("error", .object [("code", .number code), ("message", .string message)])]

/-- What `handleRequest` does up to its first `await`. -/
inductive Handled
  | reply (r : HTTPReply)
  | callTool (id : Json) (name : String) (arguments : JsonObject)

/-- `handleRequest` -/
def handleRequest (P : EndpointPlatform) (request : JsonObject) : Handled :=
  let id := (request "id").getD .null
  match (request "method").bind Json.string? with
  | none => .reply ⟨400, P.jsonData (rpcError id (-32600) "Invalid Request")⟩
  | some method =>
      let params := ((request "params").bind Json.object?).getD JsonObject.empty
      let isMethod := sameText P.unicode method
      if isMethod "initialize" then
        .reply ⟨200, P.jsonData (rpcResult id (.object
          [("protocolVersion", .string "2024-11-05"), ("capabilities", .object []),
            ("serverInfo", textObject [("name", "native-chrome-mcp"), ("version", "1.0.0")])]))⟩
      else if isMethod "notifications/initialized" then .reply ⟨204, []⟩
      else if isMethod "ping" then .reply ⟨200, P.jsonData (rpcResult id (.object []))⟩
      else if isMethod "tools/list" then
        .reply ⟨200, P.jsonData (rpcResult id (.object [("tools", tools)]))⟩
      else if isMethod "tools/call" then
        match (params "name").bind Json.string? with
        | none => .reply ⟨200, P.jsonData (rpcError id (-32602) "name required")⟩
        | some name =>
            .callTool id name (((params "arguments").bind Json.object?).getD JsonObject.empty)
      else .reply ⟨200, P.jsonData (rpcError id (-32601) ("Method not found: " ++ method))⟩

/-! ## Tools -/

/-- The cases of `callTool`. -/
inductive Tool
  | pageCommand
  | browserCommand
  | httpCommand
  deriving DecidableEq, Repr

/-- The `switch` of `callTool`. -/
def Tool.named? (U : UnicodeData) (name : String) : Option Tool :=
  if sameText U name "page_command" then some .pageCommand
  else if sameText U name "browser_command" then some .browserCommand
  else if sameText U name "http_command" then some .httpCommand
  else none

/-- The `guard` of a case behind `ensureChrome`: what it says of missing arguments. -/
def Tool.missing? (tool : Tool) (arguments : JsonObject) : Option String :=
  let text? := fun key => (arguments key).bind Json.string?
  match tool with
  | .pageCommand =>
      if (text? "id").isSome ∧ (text? "method").isSome then none
      else some "id (targetId) and method required"
  | .browserCommand => if (text? "method").isSome then none else some "method required"
  | .httpCommand =>
      match text? "path" with
      | some path => if path.isEmpty then some "path required" else none
      | none => some "path required"

/-- `toolError` -/
def toolError (message : String) : Json :=
  .object [("content", .array [textObject [("type", "text"), ("text", message)]]),
    ("isError", .bool true)]

/-- The answer with the result of a tool call. -/
def toolReply (P : EndpointPlatform) (id result : Json) : HTTPReply :=
  ⟨200, P.jsonData (rpcResult id result)⟩

end Luan
