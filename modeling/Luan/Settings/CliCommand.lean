import Luan.CLI.Args
import Luan.Core.Glob
import Luan.Core.ShellWords
import Luan.Settings.AppSettings

/-!
# The command that the app shows

`cliCommand(documentRoot:)` in `LuanMac/AppSettings.swift` writes the settings as a command for a
shell.  `cliArgs` are the words that it means; `shellWords_cliCommand` says that a shell reads
them, and `parseWords_cliArgs` what the options loop of the `luan` program makes of them.

`expandingTildeInPath` is Foundation's and a parameter.
-/

namespace Luan

/-- `replacingOccurrences(of: "'", with: "'\\''")`, where the search goes by code points.
Foundation's search is not `.literal`: it passes over a quote that a combining character follows. -/
def replaceQuotes (text : List Char) : List Char :=
  text.flatMap fun c => if c = '\'' then "'\\''".toList else [c]

/-- `shellQuote` in `cliCommand`: a quote in the text ends the quotation, stands behind a
backslash and begins it again. -/
def shellQuote (value : String) : String :=
  "'" ++ String.ofList (replaceQuotes value.toList) ++ "'"

/-- `cliCommand(documentRoot:)` -/
def AppSettings.cliCommand (expandingTildeInPath : String → String) (s : AppSettings)
    (documentRoot : String) : String :=
  let args := ["luan", "--document-root", shellQuote (expandingTildeInPath documentRoot),
    "--host", shellQuote s.host, "--port", toString s.port.1,
    "--sqlite-soft-heap-mb", toString s.sqliteSoftHeapMB.1]
  let args := if s.debug then args ++ ["--debug"] else args
  let args := if s.sandboxUnrestricted then args ++ ["--sandbox-unrestricted"] else args
  let args := if s.sslSkipVerify then args ++ ["--ssl-skip-verify"] else args
  let args := if s.jwtSecret ≠ "" then args ++ ["--jwt-secret", shellQuote s.jwtSecret] else args
  let args :=
    if s.activationKey ≠ "" then args ++ ["--activation-key", shellQuote s.activationKey] else args
  " ".intercalate args

/-- The words behind the program's name that the command means. -/
def AppSettings.cliArgs (s : AppSettings) (documentRoot : String) : List String :=
  ["--document-root", documentRoot, "--host", s.host, "--port", toString s.port.1,
    "--sqlite-soft-heap-mb", toString s.sqliteSoftHeapMB.1]
  ++ (if s.debug then ["--debug"] else [])
  ++ (if s.sandboxUnrestricted then ["--sandbox-unrestricted"] else [])
  ++ (if s.sslSkipVerify then ["--ssl-skip-verify"] else [])
  ++ (if s.jwtSecret ≠ "" then ["--jwt-secret", s.jwtSecret] else [])
  ++ (if s.activationKey ≠ "" then ["--activation-key", s.activationKey] else [])

/-! ## What a shell reads -/

lemma replaceQuotes_free {text : List Char} (h : '\'' ∉ text) : replaceQuotes text = text := by
  conv_rhs => rw [← List.flatMap_singleton' text]
  refine List.flatMap_congr fun c hc => if_neg ?_
  rintro rfl
  exact h hc

/-- **A quoted text stands for the text.**  Induction along the quotes in it. -/
lemma renders_replaceQuotes (text : List Char) :
    Renders ('\'' :: replaceQuotes text ++ ['\'']) text := by
  induction text using label_induction '\'' with
  | last text h =>
      rw [replaceQuotes_free h]
      exact renders_quoted h
  | more u v hu ih =>
      have hparts := (renders_quoted hu).append (renders_escaped_quote.append ih)
      have htext : '\'' :: replaceQuotes (u ++ '\'' :: v) ++ ['\'']
          = ('\'' :: u ++ ['\'']) ++ (['\\', '\''] ++ ('\'' :: replaceQuotes v ++ ['\''])) := by
        rw [replaceQuotes, List.flatMap_append, List.flatMap_cons, ← replaceQuotes,
          replaceQuotes_free hu, ← replaceQuotes]
        simp
      rw [htext]
      exact hparts

lemma renders_shellQuote (value : String) : Renders (shellQuote value).toList value.toList := by
  have htext : (shellQuote value).toList = '\'' :: replaceQuotes value.toList ++ ['\''] := by
    simp [shellQuote]
  rw [htext]
  exact renders_replaceQuotes value.toList

lemma isPlain_of_isDigit {c : Char} (h : c.isDigit = true) : isPlain c = true := by
  have hnone : ('\'' :: '\\' :: ' ' :: '\t' :: shellSpecials).all (fun d => !d.isDigit) = true := by
    decide
  rw [isPlain, Bool.not_eq_true', Bool.eq_false_iff]
  intro hc
  have hdigit := List.all_eq_true.mp hnone c (List.contains_iff_mem.mp hc)
  rw [h] at hdigit
  cases hdigit

/-- A number needs no quotes. -/
lemma renders_number (n : Int) : Renders (toString n).toList (toString n).toList := by
  have hdigits : ∀ k : ℕ, (Nat.toDigits 10 k).all isPlain = true := fun k =>
    List.all_eq_true.mpr fun c hc =>
      isPlain_of_isDigit (Nat.isDigit_of_mem_toDigits (by decide) (by decide) hc)
  rw [Int.toString_eq_repr, Int.repr_eq_if]
  split_ifs with hsign
  · rw [Nat.toList_repr]
    exact renders_plain Nat.toDigits_ne_nil (hdigits _)
  · rw [String.toList_append, Nat.toList_repr]
    refine renders_plain (by simp) ?_
    rw [List.all_append, hdigits]
    rfl

/-- The texts, with blanks between them, stand for the words. -/
def ReadsAs (texts words : List String) : Prop :=
  List.Forall₂ (fun text word => Renders text.toList word.toList) texts words

lemma ReadsAs.append {texts texts' words words' : List String} (h : ReadsAs texts words)
    (h' : ReadsAs texts' words') : ReadsAs (texts ++ texts') (words ++ words') :=
  List.rel_append h h'

lemma readsAs_if (p : Prop) [Decidable p] {texts words : List String} (h : ReadsAs texts words) :
    ReadsAs (if p then texts else []) (if p then words else []) := by
  split_ifs
  · exact h
  · exact List.Forall₂.nil

/-- A word without quotes. -/
lemma readsAs_plain {w : String} (hne : w.toList ≠ []) (h : w.toList.all isPlain = true) :
    ReadsAs [w] [w] :=
  List.Forall₂.cons (renders_plain hne h) List.Forall₂.nil

lemma readsAs_shellQuote (value : String) : ReadsAs [shellQuote value] [value] :=
  List.Forall₂.cons (renders_shellQuote value) List.Forall₂.nil

lemma readsAs_number (n : Int) : ReadsAs [toString n] [toString n] :=
  List.Forall₂.cons (renders_number n) List.Forall₂.nil

lemma ReadsAs.shellWords {texts words : List String} (h : ReadsAs texts words)
    (hne : texts ≠ []) :
    shellWords (" ".intercalate texts).toList = some (words.map String.toList) := by
  rw [String.toList_intercalate]
  refine shellWords_intercalate ?_ (by simpa using hne)
  rwa [List.forall₂_map_left_iff, List.forall₂_map_right_iff]

lemma append_if (p : Prop) [Decidable p] (as bs : List String) :
    (if p then as ++ bs else as) = as ++ if p then bs else [] := by
  split_ifs
  · rfl
  · rw [List.append_nil]

/-- **A shell reads the command as its words.** -/
lemma shellWords_cliCommand (expandingTildeInPath : String → String) (s : AppSettings)
    (documentRoot : String) :
    shellWords (s.cliCommand expandingTildeInPath documentRoot).toList
      = some (("luan" :: s.cliArgs (expandingTildeInPath documentRoot)).map String.toList) := by
  have hvalue : ∀ w v : String, w.toList ≠ [] → w.toList.all isPlain = true →
      ReadsAs [w, shellQuote v] [w, v] := fun w v hne h =>
    (readsAs_plain hne h).append (readsAs_shellQuote v)
  have hnumber : ∀ (w : String) (n : Int), w.toList ≠ [] → w.toList.all isPlain = true →
      ReadsAs [w, toString n] [w, toString n] := fun w n hne h =>
    (readsAs_plain hne h).append (readsAs_number n)
  have hluan : ReadsAs ["luan"] ["luan"] := readsAs_plain (by decide) (by decide)
  have hroot := hvalue "--document-root" (expandingTildeInPath documentRoot) (by decide) (by decide)
  have hhost := hvalue "--host" s.host (by decide) (by decide)
  have hport := hnumber "--port" s.port.1 (by decide) (by decide)
  have hheap := hnumber "--sqlite-soft-heap-mb" s.sqliteSoftHeapMB.1 (by decide) (by decide)
  have hdebug := readsAs_if s.debug (readsAs_plain (w := "--debug") (by decide) (by decide))
  have hsandbox := readsAs_if s.sandboxUnrestricted
    (readsAs_plain (w := "--sandbox-unrestricted") (by decide) (by decide))
  have hssl := readsAs_if s.sslSkipVerify
    (readsAs_plain (w := "--ssl-skip-verify") (by decide) (by decide))
  have hjwt := readsAs_if (s.jwtSecret ≠ "")
    (hvalue "--jwt-secret" s.jwtSecret (by decide) (by decide))
  have hkey := readsAs_if (s.activationKey ≠ "")
    (hvalue "--activation-key" s.activationKey (by decide) (by decide))
  have hfixed := hluan.append (hroot.append (hhost.append (hport.append hheap)))
  simp only [AppSettings.cliCommand, append_if]
  have hall := ((((hfixed.append hdebug).append hsandbox).append hssl).append hjwt).append hkey
  exact hall.shellWords (by simp)

/-! ## What the program makes of the words -/

section Words

variable {U : UnicodeData} {arg : String} (option : CLIOption)

/-- An option with a text takes the next word, whatever it looks like. -/
lemma parseWords_text {set : Config → String → Config} (harg : cliOption? arg = some option)
    (hkind : option.kind = .text set) (hdash : arg ≠ "--") (c : Config) (value : String)
    (rest : List String) :
    parseWords U c (arg :: value :: rest) = parseWords U (set c value) rest := by
  rw [parseWords, if_neg hdash, harg]
  dsimp only
  rw [hkind]

lemma parseWords_number {set : Config → SwiftInt → Config} (harg : cliOption? arg = some option)
    (hkind : option.kind = .number set) (hdash : arg ≠ "--") (c : Config) (n : SwiftInt)
    (rest : List String) :
    parseWords U c (arg :: toString n.1 :: rest) = parseWords U (set c n) rest := by
  rw [parseWords, if_neg hdash, harg]
  dsimp only
  rw [hkind]
  dsimp only
  rw [swiftIntValue?_toString]

/-- A flag that is given when it is set. -/
lemma parseWords_flag {set : Config → Config} (harg : cliOption? arg = some option)
    (hkind : option.kind = .flag set) (hdash : arg ≠ "--") (c : Config) (given : Bool)
    (rest : List String) :
    parseWords U c ((if given then [arg] else []) ++ rest)
      = parseWords U (if given then set c else c) rest := by
  cases given with
  | false => rfl
  | true =>
      show parseWords U c (arg :: rest) = parseWords U (set c) rest
      rw [parseWords, if_neg hdash, harg]
      dsimp only
      rw [hkind]

/-- A secret that is given when there is one. -/
lemma parseWords_secret {set : Config → String → Config} (harg : cliOption? arg = some option)
    (hkind : option.kind = .text set) (hdash : arg ≠ "--") {c : Config} (hnone : set c "" = c)
    (value : String) (rest : List String) :
    parseWords U c ((if value ≠ "" then [arg, value] else []) ++ rest)
      = parseWords U (set c value) rest := by
  split_ifs with hvalue
  · exact parseWords_text option harg hkind hdash c value rest
  · rw [not_not] at hvalue
    rw [hvalue, hnone]
    rfl

end Words

/-- What the program is told: the settings, and its own defaults for everything else. -/
def AppSettings.config (s : AppSettings) (documentRoot : String) : Config :=
  { Config.initial with
    documentRoot := documentRoot
    host := s.host
    port := s.port
    sqliteSoftHeapMB := s.sqliteSoftHeapMB
    debug := s.debug
    sandboxUnrestricted := s.sandboxUnrestricted
    sslSkipVerify := s.sslSkipVerify
    jwtSecret := s.jwtSecret
    activationKey := s.activationKey }

/-- **The options loop reads the settings back.** -/
lemma parseWords_cliArgs (U : UnicodeData) (s : AppSettings) (documentRoot : String) :
    parseWords U .initial (s.cliArgs documentRoot) = .ok (s.config documentRoot) := by
  rw [AppSettings.cliArgs, ← List.append_nil (_ ++ _)]
  simp only [List.append_assoc, List.cons_append, List.nil_append]
  rw [parseWords_text .documentRoot (by decide) rfl (by decide),
    parseWords_text .host (by decide) rfl (by decide),
    parseWords_number .port (by decide) rfl (by decide),
    parseWords_number .sqliteSoftHeapMB (by decide) rfl (by decide),
    parseWords_flag .debug (by decide) rfl (by decide),
    parseWords_flag .sandboxUnrestricted (by decide) rfl (by decide),
    parseWords_flag .sslSkipVerify (by decide) rfl (by decide),
    parseWords_secret .jwtSecret (by decide) rfl (by decide) ?_,
    parseWords_secret .activationKey (by decide) rfl (by decide) ?_, parseWords]
  -- a flag is set or was not there to begin with, a secret likewise
  all_goals rcases s with ⟨_, _, _, _ | _, _ | _, _ | _, _⟩ <;> rfl

/-- **The command means the settings.**  A shell splits it into the program's name and words that
`parseArgs` reads as the settings it was made of. -/
theorem cliCommand_round_trip (U : UnicodeData) (currentDirectoryPath : String)
    (expandingTildeInPath : String → String)
    (hexpand : ∀ path, path ≠ "" → expandingTildeInPath path ≠ "") (s : AppSettings)
    (documentRoot : String) (hroot : documentRoot ≠ "") :
    ∃ args c, shellWords (s.cliCommand expandingTildeInPath documentRoot).toList
          = some (("luan" :: args).map String.toList)
      ∧ parseArgs U currentDirectoryPath args = .ok c
      ∧ c.documentRoot = expandingTildeInPath documentRoot ∧ c.host = s.host ∧ c.port = s.port
      ∧ c.sqliteSoftHeapMB = s.sqliteSoftHeapMB ∧ c.debug = s.debug
      ∧ c.sandboxUnrestricted = s.sandboxUnrestricted ∧ c.sslSkipVerify = s.sslSkipVerify
      ∧ c.jwtSecret = s.jwtSecret ∧ c.activationKey = s.activationKey := by
  refine ⟨s.cliArgs (expandingTildeInPath documentRoot),
    s.config (expandingTildeInPath documentRoot), shellWords_cliCommand _ s documentRoot, ?_,
    rfl, rfl, rfl, rfl, rfl, rfl, rfl, rfl, rfl⟩
  rw [parseArgs, parseWords_cliArgs]
  dsimp only
  rw [if_neg (fun h => h.1 rfl), if_neg]
  exact hexpand documentRoot hroot

/-- A host with a quote, and the home directory as the document root. -/
theorem cliCommand_round_trip_quote :
    ∃ args c, shellWords (({ AppSettings.initial with host := "it's" } : AppSettings).cliCommand
          (fun path => if path = "~" then "/Users/luan" else path) "~").toList
          = some (("luan" :: args).map String.toList)
      ∧ parseArgs .ascii "/" args = .ok c
      ∧ c.documentRoot = "/Users/luan" ∧ c.host = "it's" ∧ c.port = ⟨8080, AppSettings.port_inRange⟩
      ∧ c.sqliteSoftHeapMB = ⟨8, AppSettings.softHeap_inRange⟩ ∧ c.debug = false
      ∧ c.sandboxUnrestricted = false ∧ c.sslSkipVerify = false
      ∧ c.jwtSecret = "" ∧ c.activationKey = "" := by
  refine cliCommand_round_trip .ascii "/" _ (fun path hpath => ?_) _ "~" (by decide)
  split_ifs
  · decide
  · exact hpath

end Luan
