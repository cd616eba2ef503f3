import Luan.Core.SwiftText

/-!
# The command line

`parseArgs` in `LuanCLI/main.swift`: a loop over the words behind the program's name.  Words that
are not options are the script, its arguments or the document root, depending on what was there
before.

* `cliOption?`, `CLIOption.kind` — the `switch`, one entry for each `case`.
* `Config.positional` — its `default` branch.
* `parseWords`, `parseArgs` — the loop, and what is checked behind it.
* `hasPortOption`, `parsedPorts` — the options of a command line as the loop finds them: a word
  behind an option that takes a value is no option, nor is a word behind `--`.
-/

namespace Luan

structure Config where
  documentRoot : String
  host : String
  port : SwiftInt
  sqliteSoftHeapMB : SwiftInt
  debug : Bool
  sandboxUnrestricted : Bool
  sslSkipVerify : Bool
  jwtSecret : String
  activationKey : String
  wsToken : String
  purgeToken : String
  execCode : String
  execScript : String
  scriptArgs : List String

/-- `Config()` -/
def Config.initial : Config where
  documentRoot := ""
  host := "127.0.0.1"
  port := ⟨8080, by decide⟩
  sqliteSoftHeapMB := ⟨8, by decide⟩
  debug := false
  sandboxUnrestricted := false
  sslSkipVerify := false
  jwtSecret := ""
  activationKey := ""
  wsToken := ""
  purgeToken := ""
  execCode := ""
  execScript := ""
  scriptArgs := []

/-- Why `parseArgs` returns nil. -/
inductive ArgsError
  /-- `printUsage()` -/
  | usage
  | requiresValue (arg : String)
  | requiresNumericValue (arg : String)
  | unknownOption (arg : String)
  | unexpectedArgument (arg : String)
  | mutuallyExclusive
  deriving DecidableEq, Repr

/-- What is printed to `stderr`. -/
def ArgsError.message : ArgsError → Option String
  | .usage => none
  | .requiresValue arg => some ("error: " ++ arg ++ " requires a value\n")
  | .requiresNumericValue arg => some ("error: " ++ arg ++ " requires a numeric value\n")
  | .unknownOption arg => some ("error: unknown option " ++ arg ++ "\n")
  | .unexpectedArgument arg => some ("error: unexpected argument " ++ arg ++ "\n")
  | .mutuallyExclusive => some "error: --eval and --script are mutually exclusive\n"

/-! ## Options -/

/-- The cases of the `switch`. -/
inductive CLIOption
  | help
  | eval
  | script
  | documentRoot
  | port
  | host
  | sqliteSoftHeapMB
  | debug
  | sandboxUnrestricted
  | sslSkipVerify
  | jwtSecret
  | activationKey
  | wsToken
  | purgeToken
  deriving DecidableEq, Repr

/-- The option that a word spells; `none` is the `default` branch. -/
def cliOption? (arg : String) : Option CLIOption :=
  if arg = "-h" ∨ arg = "--help" then some .help
  else if arg = "-e" ∨ arg = "--eval" then some .eval
  else if arg = "--script" then some .script
  else if arg = "-d" ∨ arg = "--document-root" then some .documentRoot
  else if arg = "-p" ∨ arg = "--port" then some .port
  else if arg = "--host" then some .host
  else if arg = "--sqlite-soft-heap-mb" then some .sqliteSoftHeapMB
  else if arg = "--debug" then some .debug
  else if arg = "--sandbox-unrestricted" then some .sandboxUnrestricted
  else if arg = "--ssl-skip-verify" then some .sslSkipVerify
  else if arg = "--jwt-secret" then some .jwtSecret
  else if arg = "--activation-key" then some .activationKey
  else if arg = "--ws-token" then some .wsToken
  else if arg = "--purge-token" then some .purgeToken
  else none

/-- What a case does: it prints the usage, takes a value, takes a number, or sets a flag. -/
inductive OptionKind
  | help
  | text (set : Config → String → Config)
  | number (set : Config → SwiftInt → Config)
  | flag (set : Config → Config)

def CLIOption.kind : CLIOption → OptionKind
  | .help => .help
  | .eval => .text fun c value => { c with execCode := value }
  | .script => .text fun c value => { c with execScript := value }
  | .documentRoot => .text fun c value => { c with documentRoot := value }
  | .port => .number fun c p => { c with port := p }
  | .host => .text fun c value => { c with host := value }
  | .sqliteSoftHeapMB => .number fun c mb => { c with sqliteSoftHeapMB := mb }
  | .debug => .flag fun c => { c with debug := true }
  | .sandboxUnrestricted => .flag fun c => { c with sandboxUnrestricted := true }
  | .sslSkipVerify => .flag fun c => { c with sslSkipVerify := true }
  | .jwtSecret => .text fun c value => { c with jwtSecret := value }
  | .activationKey => .text fun c value => { c with activationKey := value }
  | .wsToken => .text fun c value => { c with wsToken := value }
  | .purgeToken => .text fun c value => { c with purgeToken := value }

/-- The word is a script: the first one, and it is named so. -/
def Config.isScript (U : UnicodeData) (c : Config) (arg : String) : Bool :=
  hasSuffix U arg.toList ".lua".toList && c.execScript = ""

/-- A word that is not an option. -/
def Config.positional (U : UnicodeData) (c : Config) (arg : String) : Except ArgsError Config :=
  if c.isScript U arg then .ok { c with execScript := arg }
  else if hasPrefix U arg.toList "-".toList then .error (.unknownOption arg)
  else if c.execScript ≠ "" then .ok { c with scriptArgs := c.scriptArgs ++ [arg] }
  else if c.documentRoot = "" then .ok { c with documentRoot := arg }
  else .error (.unexpectedArgument arg)

/-! ## The loop -/

def parseWords (U : UnicodeData) (c : Config) : List String → Except ArgsError Config
  | [] => .ok c
  | arg :: rest =>
      if arg = "--" then
        -- everything behind it takes the place of the script's arguments
        .ok (if rest = [] then c else { c with scriptArgs := rest })
      else
        match cliOption? arg with
        | none =>
            match c.positional U arg with
            | .ok c => parseWords U c rest
            | .error e => .error e
        | some option =>
            match option.kind with
            | .help => .error .usage
            | .text set =>
                match rest with
                | [] => .error (.requiresValue arg)
                | value :: rest => parseWords U (set c value) rest
            | .number set =>
                match rest with
                | [] => .error (.requiresNumericValue arg)
                | value :: rest =>
                    match swiftIntValue? value.toList with
                    | some n => parseWords U (set c n) rest
                    | none => .error (.requiresNumericValue arg)
            | .flag set => parseWords U (set c) rest

/-- `parseArgs()`; `args` are the words behind the program's name. -/
def parseArgs (U : UnicodeData) (currentDirectoryPath : String) (args : List String) :
    Except ArgsError Config :=
  match parseWords U .initial args with
  | .error e => .error e
  | .ok c =>
      if c.execCode ≠ "" ∧ c.execScript ≠ "" then .error .mutuallyExclusive
      else if c.documentRoot = "" then .ok { c with documentRoot := currentDirectoryPath }
      else .ok c

/-! ## The options of a command line -/

/-- The command line has the option `-p` or `--port`. -/
def hasPortOption : List String → Bool
  | [] => false
  | arg :: rest =>
      if arg = "--" then false
      else
        match cliOption? arg with
        | none => hasPortOption rest
        | some option =>
            if option = .port then true
            else
              match option.kind with
              | .help => false
              | .text _ | .number _ =>
                  match rest with
                  | [] => false
                  | _ :: rest => hasPortOption rest
              | .flag _ => hasPortOption rest

/-- The values of the port options, in the order in which the loop comes to them. -/
def parsedPorts : List String → List SwiftInt
  | [] => []
  | arg :: rest =>
      if arg = "--" then []
      else
        match cliOption? arg with
        | none => parsedPorts rest
        | some option =>
            match option.kind with
            | .help => []
            | .text _ =>
                match rest with
                | [] => []
                | _ :: rest => parsedPorts rest
            | .number _ =>
                match rest with
                | [] => []
                | value :: rest =>
                    match swiftIntValue? value.toList with
                    | some n => if option = .port then n :: parsedPorts rest else parsedPorts rest
                    | none => []
            | .flag _ => parsedPorts rest

@[simp]
lemma parsedPorts_dashes (rest : List String) : parsedPorts ("--" :: rest) = [] := by
  unfold parsedPorts
  exact if_pos rfl

section ParsedPorts

variable {arg value : String} {rest : List String} {option : CLIOption}

lemma parsedPorts_word (hdash : arg ≠ "--") (hoption : cliOption? arg = none) :
    parsedPorts (arg :: rest) = parsedPorts rest := by
  conv => lhs; unfold parsedPorts
  simp only [hdash, hoption, if_false]

lemma parsedPorts_flag {set : Config → Config} (hdash : arg ≠ "--")
    (hoption : cliOption? arg = some option) (hkind : option.kind = .flag set) :
    parsedPorts (arg :: rest) = parsedPorts rest := by
  conv => lhs; unfold parsedPorts
  simp only [hdash, hoption, hkind, if_false]

/-- A word behind an option that takes one. -/
lemma parsedPorts_text {set : Config → String → Config} (hdash : arg ≠ "--")
    (hoption : cliOption? arg = some option) (hkind : option.kind = .text set) :
    parsedPorts (arg :: value :: rest) = parsedPorts rest := by
  conv => lhs; unfold parsedPorts
  simp only [hdash, hoption, hkind, if_false]

lemma parsedPorts_number {set : Config → SwiftInt → Config} {n : SwiftInt} (hdash : arg ≠ "--")
    (hoption : cliOption? arg = some option) (hkind : option.kind = .number set)
    (hn : swiftIntValue? value.toList = some n) :
    parsedPorts (arg :: value :: rest)
      = if option = .port then n :: parsedPorts rest else parsedPorts rest := by
  conv => lhs; unfold parsedPorts
  simp only [hdash, hoption, hkind, hn, if_false]

end ParsedPorts

end Luan
