import Luan.CLI.Bridge

/-!
# The arguments of a script

A command line as its reader sees it: options with their values, words, and what is behind `--`.
The arguments of the script are the words behind the script, and then those behind `--`.  This
module compares them with what the loop of `parseArgs` collects and with the table `arg` of the
bridge.

* `readWords` — the command line in words.
* `scriptOf`, `codeOf`, `positionalWords` — what they ask for.
* `parseWords_words` — what the loop makes of them: the words behind `--` take the place of the
  others.
* `arg_iff` — when the table `arg` holds the arguments of the command line.
-/

namespace Luan

/-! ## Words -/

/-- A word of the command line, with the value that belongs to it. -/
inductive CLIWord
  | positional (arg : String)
  | option (option : CLIOption) (value : Option String)
  deriving DecidableEq, Repr

/-- The words in front of `--`, and the words behind it. -/
def readWords : List String → List CLIWord × List String
  | [] => ([], [])
  | arg :: rest =>
      if arg = "--" then ([], rest)
      else
        match cliOption? arg with
        | none => (.positional arg :: (readWords rest).1, (readWords rest).2)
        | some option =>
            match option.kind with
            | .text _ | .number _ =>
                match rest with
                | [] => ([.option option none], [])
                | value :: rest =>
                    (.option option (some value) :: (readWords rest).1, (readWords rest).2)
            | .help | .flag _ => (.option option none :: (readWords rest).1, (readWords rest).2)

section Asked

variable (U : UnicodeData)

/-- The script, behind a word: `--script` names it, and so does the first word in `.lua`. -/
def CLIWord.script (script : String) : CLIWord → String
  | .positional arg =>
      if script = "" ∧ hasSuffix U arg.toList ".lua".toList then arg else script
  | .option .script (some value) => value
  | .option _ _ => script

/-- The code, behind a word. -/
def CLIWord.code (code : String) : CLIWord → String
  | .option .eval (some value) => value
  | _ => code

/-- The script that the words ask for. -/
def scriptOf (words : List CLIWord) : String := words.foldl (CLIWord.script U) ""

/-- The code that the words ask for. -/
def codeOf (words : List CLIWord) : String := words.foldl CLIWord.code ""

/-- The words behind the script. -/
def positionalWords (script : String) : List CLIWord → List String
  | [] => []
  | .positional arg :: words =>
      if script = "" then positionalWords (CLIWord.script U script (.positional arg)) words
      else arg :: positionalWords script words
  | .option option value :: words =>
      positionalWords (CLIWord.script U script (.option option value)) words

/-- **The arguments of the script** on a command line. -/
def scriptArguments (args : List String) : List String :=
  positionalWords U "" (readWords args).1 ++ (readWords args).2

end Asked

lemma readWords_positional {arg : String} (rest : List String) (hdash : arg ≠ "--")
    (hoption : cliOption? arg = none) :
    readWords (arg :: rest) = (.positional arg :: (readWords rest).1, (readWords rest).2) := by
  rw [readWords.eq_def]
  simp only [hdash, hoption, if_false]

/-- An option with a value. -/
lemma readWords_value {arg : String} (value : String) (rest : List String) (hdash : arg ≠ "--")
    {option : CLIOption} (hoption : cliOption? arg = some option)
    (hkind : (∃ set, option.kind = .text set) ∨ ∃ set, option.kind = .number set) :
    readWords (arg :: value :: rest)
      = (.option option (some value) :: (readWords rest).1, (readWords rest).2) := by
  rw [readWords.eq_def]
  rcases hkind with ⟨set, hkind⟩ | ⟨set, hkind⟩
  · simp only [hdash, hoption, hkind, if_false]
  · simp only [hdash, hoption, hkind, if_false]

lemma readWords_flag {arg : String} (rest : List String) (hdash : arg ≠ "--")
    {option : CLIOption} (hoption : cliOption? arg = some option)
    {set : Config → Config} (hkind : option.kind = .flag set) :
    readWords (arg :: rest) = (.option option none :: (readWords rest).1, (readWords rest).2) := by
  rw [readWords.eq_def]
  simp only [hdash, hoption, hkind, if_false]

/-- There are no more arguments than words on the command line. -/
lemma length_scriptArguments (U : UnicodeData) (args : List String) :
    (scriptArguments U args).length ≤ args.length := by
  have hread : (readWords args).1.length + (readWords args).2.length ≤ args.length := by
    fun_induction readWords args <;> simp only [List.length_cons, List.length_nil] at * <;> omega
  have hpositional : ∀ script words, (positionalWords U script words).length ≤ words.length := by
    intro script words
    fun_induction positionalWords U script words with
    | case1 => exact Nat.le_refl _
    | case2 arg words ih => exact Nat.le_succ_of_le ih
    | case3 script arg words hscript ih => exact Nat.succ_le_succ ih
    | case4 script option value words ih => exact Nat.le_succ_of_le ih
  rw [scriptArguments, List.length_append]
  exact (Nat.add_le_add_right (hpositional _ _) _).trans hread

/-! ## What the loop collects -/

section Loop

variable {U : UnicodeData}

/-- What `c'` says about the run, if `c` has met these words and those behind `--`. -/
structure Config.Reads (U : UnicodeData) (c : Config) (words : List CLIWord) (dashed : List String)
    (c' : Config) : Prop where
  script : c'.execScript = words.foldl (CLIWord.script U) c.execScript
  code : c'.execCode = words.foldl CLIWord.code c.execCode
  args : c'.scriptArgs
    = if dashed = [] then c.scriptArgs ++ positionalWords U c.execScript words else dashed

/-- An option of the loop does to the run what the word asks for. -/
lemma Config.Reads.option {c next c' : Config} {words : List CLIWord} {dashed : List String}
    {option : CLIOption} {value : Option String} (h : next.Reads U words dashed c')
    (hscript : next.execScript = CLIWord.script U c.execScript (.option option value))
    (hcode : next.execCode = CLIWord.code c.execCode (.option option value))
    (hargs : next.scriptArgs = c.scriptArgs) :
    c.Reads U (.option option value :: words) dashed c' where
  script := by rw [h.script, hscript, List.foldl_cons]
  code := by rw [h.code, hcode, List.foldl_cons]
  args := by rw [h.args, hargs, hscript, positionalWords]

lemma reads_text {option : CLIOption} {set : Config → String → Config}
    (hkind : option.kind = .text set) {c c' : Config} {value : String} {words : List CLIWord}
    {dashed : List String} (h : (set c value).Reads U words dashed c') :
    c.Reads U (.option option (some value) :: words) dashed c' := by
  refine h.option ?_ ?_ ?_ <;> cases option <;> cases hkind <;> rfl

lemma reads_number {option : CLIOption} {set : Config → SwiftInt → Config}
    (hkind : option.kind = .number set) {c c' : Config} {value : String} {n : SwiftInt}
    {words : List CLIWord} {dashed : List String} (h : (set c n).Reads U words dashed c') :
    c.Reads U (.option option (some value) :: words) dashed c' := by
  refine h.option ?_ ?_ ?_ <;> cases option <;> cases hkind <;> rfl

lemma reads_flag {option : CLIOption} {set : Config → Config} (hkind : option.kind = .flag set)
    {c c' : Config} {words : List CLIWord} {dashed : List String}
    (h : (set c).Reads U words dashed c') :
    c.Reads U (.option option none :: words) dashed c' := by
  refine h.option ?_ ?_ ?_ <;> cases option <;> cases hkind <;> rfl

lemma reads_positional {c next c' : Config} {arg : String} (hnext : c.positional U arg = .ok next)
    {words : List CLIWord} {dashed : List String} (h : next.Reads U words dashed c') :
    c.Reads U (.positional arg :: words) dashed c' := by
  obtain ⟨hscript, hcode, hargs⟩ := h
  simp only [Config.positional, Config.isScript, Bool.and_eq_true, decide_eq_true_eq] at hnext
  split_ifs at hnext with hlua hdash hknown hroot
  · obtain rfl := Except.ok.inj hnext
    have hword : CLIWord.script U c.execScript (.positional arg) = arg := if_pos hlua.symm
    exact ⟨by rw [hscript, List.foldl_cons, hword], hcode,
      by rw [hargs, positionalWords, if_pos hlua.2, hword]⟩
  · obtain rfl := Except.ok.inj hnext
    have hword : CLIWord.script U c.execScript (.positional arg) = c.execScript :=
      if_neg fun hand => hknown hand.1
    exact ⟨by rw [hscript, List.foldl_cons, hword], hcode,
      by rw [hargs, positionalWords, if_neg hknown, List.append_assoc, List.singleton_append]⟩
  · obtain rfl := Except.ok.inj hnext
    have hword : CLIWord.script U c.execScript (.positional arg) = c.execScript :=
      if_neg fun hand => hlua hand.symm
    exact ⟨by rw [hscript, List.foldl_cons, hword], hcode,
      by rw [hargs, positionalWords, if_pos (not_not.mp hknown), hword]⟩

/-- **The loop reads the words.**  Words behind `--` take the place of the words behind the
script. -/
lemma parseWords_words {c c' : Config} {args : List String} (h : parseWords U c args = .ok c') :
    c.Reads U (readWords args).1 (readWords args).2 c' := by
  fun_induction parseWords U c args with
  | case1 c =>
      obtain rfl := Except.ok.inj h
      exact ⟨rfl, rfl, (List.append_nil _).symm⟩
  | case2 c rest =>
      obtain rfl := Except.ok.inj h
      by_cases hrest : rest = []
      · subst hrest
        exact ⟨rfl, rfl, (List.append_nil _).symm⟩
      · simp only [hrest, if_false]
        exact ⟨rfl, rfl, (if_neg hrest).symm⟩
  | case3 c arg rest hdash hoption next hnext ih =>
      rw [readWords_positional rest hdash hoption]
      exact reads_positional hnext (ih h)
  | case7 c arg hdash option hoption set hkind value rest ih =>
      rw [readWords_value value rest hdash hoption (Or.inl ⟨set, hkind⟩)]
      exact reads_text hkind (ih h)
  | case9 c arg hdash option hoption set hkind value rest n hn ih =>
      rw [readWords_value value rest hdash hoption (Or.inr ⟨set, hkind⟩)]
      exact reads_number hkind (ih h)
  | case11 c arg rest hdash option hoption set hkind ih =>
      rw [readWords_flag rest hdash hoption hkind]
      exact reads_flag hkind (ih h)
  | _ => cases h

/-- **What an accepted command line asks for.** -/
theorem parseArgs_words {currentDirectoryPath : String} {args : List String} {c : Config}
    (h : parseArgs U currentDirectoryPath args = .ok c) :
    c.execScript = scriptOf U (readWords args).1 ∧ c.execCode = codeOf (readWords args).1
      ∧ c.scriptArgs = (if (readWords args).2 = [] then positionalWords U "" (readWords args).1
          else (readWords args).2)
      ∧ ¬ (c.execCode ≠ "" ∧ c.execScript ≠ "") := by
  simp only [parseArgs] at h
  cases hwords : parseWords U .initial args with
  | error e => simp [hwords] at h
  | ok parsed =>
      obtain ⟨hscript, hcode, hargs⟩ := parseWords_words hwords
      simp only [hwords] at h
      split_ifs at h with hboth hroot <;> cases h <;> exact ⟨hscript, hcode, hargs, hboth⟩

end Loop

/-! ## The table -/

section Table

variable {P : CLIPlatform} {call : Invocation} {original : Config}

/-- The inherited variables number these arguments. -/
def Environment.Numbers (env : Environment) (values : List String) : Prop :=
  ∀ (index : ℕ) (value : String), values[index]? = some value ↔
    (∃ argc, env "LUAN_ARGC" = some argc ∧ index < atoi argc.toList)
      ∧ env (argKey index) = some value

lemma Environment.numbers_iff (env : Environment) (values : List String) :
    env.Numbers values ↔ ∀ index, argValues env index = values[index]? := by
  have hvalues : ∀ index value, argValues env index = some value ↔
      (∃ argc, env "LUAN_ARGC" = some argc ∧ index < atoi argc.toList)
        ∧ env (argKey index) = some value := by
    intro index value
    cases hargc : env "LUAN_ARGC" with
    | none => simp [argValues, hargc]
    | some argc => simp [argValues, hargc]
  constructor
  · intro hnumbers index
    exact Option.ext fun value => (hvalues index value).trans (hnumbers index value).symm
  · intro heq index value
    rw [← heq index, hvalues]

/-- A script is called with what the loop has collected. -/
lemma luanRun_script (hargs : parseArgs P.unicode P.currentDirectoryPath call.args = .ok original)
    (hscript : original.execScript ≠ "") (runtimeDir : String) (random : SecretBytes)
    (saved : Option JsonObject) :
    luanRun P runtimeDir call random saved
      = .ok ⟨true, .file (scriptPath P original.execScript),
          some ⟨scriptPath P original.execScript, fun index => original.scriptArgs[index]?⟩⟩ := by
  obtain ⟨-, -, hcollected, hone⟩ := parseArgs_words hargs
  obtain ⟨hcode', hscript', hargs'⟩ := launchWith_exec P call random original saved
  have hcode : original.execCode = "" := by
    by_contra hcode
    exact hone ⟨hcode, hscript⟩
  have hcount : original.scriptArgs.length < 2 ^ 31 := by
    have hlength := length_scriptArguments P.unicode call.args
    have hargc := call.argc_le
    rw [scriptArguments, List.length_append] at hlength
    rw [hcollected]
    split_ifs <;> omega
  rw [luanRun_ok hargs, execution_script (hcode'.trans hcode)
    (fun h => hscript (hscript'.symm.trans h)) (hargs' ▸ hcount), hscript', hargs']

/-- Code is called with what the program has inherited. -/
lemma luanRun_code (hargs : parseArgs P.unicode P.currentDirectoryPath call.args = .ok original)
    (hcode : original.execCode ≠ "") (runtimeDir : String) (random : SecretBytes)
    (saved : Option JsonObject) :
    luanRun P runtimeDir call random saved
      = .ok ⟨true, .code original.execCode, some ⟨"-e", argValues call.inheritedEnv⟩⟩ := by
  obtain ⟨-, -, -, hone⟩ := parseArgs_words hargs
  obtain ⟨hcode', hscript', -⟩ := launchWith_exec P call random original saved
  have hscript : original.execScript = "" := by
    by_contra hscript
    exact hone ⟨hcode, hscript⟩
  rw [luanRun_ok hargs, execution_code (fun h => hcode (hcode'.symm.trans h))
    (hscript'.trans hscript), hcode']

/-- A run has one table. -/
lemma holds_iff {outcome : Except ArgsError Execution} {run : Execution} {table : ArgTable}
    (hrun : outcome = .ok run) (htable : run.arg = some table) (values : List String) :
    (∃ run table, outcome = .ok run ∧ run.arg = some table
        ∧ ∀ index : ℕ, table.values index = values[index]?)
      ↔ ∀ index : ℕ, table.values index = values[index]? := by
  constructor
  · rintro ⟨run', table', hrun', htable', hvalues⟩
    obtain rfl := Except.ok.inj (hrun.symm.trans hrun')
    obtain rfl := Option.some.inj (htable.symm.trans htable')
    exact hvalues
  · intro hvalues
    exact ⟨run, table, hrun, htable, hvalues⟩

/-- The condition under which the arguments arrive: those of a script are in one place of the
command line, and those of code have been inherited. -/
def Invocation.ArgsArrive (P : CLIPlatform) (call : Invocation) : Prop :=
  if scriptOf P.unicode (readWords call.args).1 ≠ "" then
    positionalWords P.unicode "" (readWords call.args).1 = [] ∨ (readWords call.args).2 = []
  else call.inheritedEnv.Numbers (scriptArguments P.unicode call.args)

end Table

/-- **When the table `arg` holds the arguments of the command line.**  For every command line that
is accepted in execution mode: the arguments of a script arrive exactly if they are all in front of
`--` or all behind it, those of code exactly if the inherited variables happen to number them. -/
theorem arg_iff (P : CLIPlatform) (runtimeDir : String) (call : Invocation) (random : SecretBytes)
    (saved : Option JsonObject) {original : Config}
    (hargs : parseArgs P.unicode P.currentDirectoryPath call.args = .ok original)
    (hexec : original.execCode ≠ "" ∨ original.execScript ≠ "") :
    (∃ run table, luanRun P runtimeDir call random saved = .ok run ∧ run.arg = some table
        ∧ ∀ index, table.values index = (scriptArguments P.unicode call.args)[index]?)
      ↔ call.ArgsArrive P := by
  obtain ⟨hscript, -, hcollected, -⟩ := parseArgs_words hargs
  by_cases hmode : original.execScript = ""
  · -- code
    have hcode : original.execCode ≠ "" := hexec.resolve_right (not_not.mpr hmode)
    rw [Invocation.ArgsArrive, ← hscript, if_neg (not_not.mpr hmode), Environment.numbers_iff]
    exact holds_iff (luanRun_code hargs hcode runtimeDir random saved) rfl _
  · have hrun := luanRun_script hargs hmode runtimeDir random saved
    rw [Invocation.ArgsArrive, ← hscript, if_pos hmode, holds_iff hrun rfl]
    have hsame : (∀ index : ℕ, original.scriptArgs[index]?
          = (scriptArguments P.unicode call.args)[index]?)
        ↔ original.scriptArgs = scriptArguments P.unicode call.args :=
      ⟨List.ext_getElem?, fun heq index => heq ▸ rfl⟩
    rw [hsame, hcollected, scriptArguments]
    split_ifs with hdash
    · simp [hdash]
    · simp [hdash, List.self_eq_append_left]

/-- `luan s.lua a` -/
theorem arg_words_arrive :
    ∃ original, parseArgs .ascii "/workspace" ["s.lua", "a"] = .ok original
      ∧ (original.execCode ≠ "" ∨ original.execScript ≠ "")
      ∧ ∃ run table, luanRun .plain "/runtime" ⟨"luan", ["s.lua", "a"], by decide, fun _ => none⟩
            .zero none = .ok run
          ∧ run.arg = some table
          ∧ ∀ index, table.values index = (scriptArguments .ascii ["s.lua", "a"])[index]? := by
  have hargs : parseArgs .ascii "/workspace" ["s.lua", "a"] = .ok
      { Config.initial with
        documentRoot := "/workspace", execScript := "s.lua", scriptArgs := ["a"] } := rfl
  have hexec : Config.initial.execCode ≠ "" ∨ "s.lua" ≠ "" := Or.inr (by decide)
  refine ⟨_, hargs, hexec, ?_⟩
  refine (arg_iff .plain "/runtime" ⟨"luan", ["s.lua", "a"], by decide, fun _ => none⟩ .zero none
    hargs hexec).mpr ?_
  rw [Invocation.ArgsArrive, if_pos (by decide)]
  exact Or.inr rfl

/-- **An argument is lost.**  `luan s.lua a -- b` runs the script without its argument `a`. -/
theorem arg_word_lost :
    ¬ ∀ (P : CLIPlatform) (runtimeDir : String) (call : Invocation) (random : SecretBytes)
      (saved : Option JsonObject) (original : Config),
      parseArgs P.unicode P.currentDirectoryPath call.args = .ok original →
      original.execCode ≠ "" ∨ original.execScript ≠ "" →
      ∃ run table, luanRun P runtimeDir call random saved = .ok run ∧ run.arg = some table
        ∧ ∀ index, table.values index = (scriptArguments P.unicode call.args)[index]? := by
  intro h
  let call : Invocation := ⟨"luan", ["s.lua", "a", "--", "b"], by decide, fun _ => none⟩
  have hargs : parseArgs .ascii "/workspace" call.args = .ok
      { Config.initial with
        documentRoot := "/workspace", execScript := "s.lua", scriptArgs := ["b"] } := rfl
  have hscript := @luanRun_script .plain call _ hargs (by decide) "/runtime" .zero none
  obtain ⟨run, table, hrun, htable, hvalues⟩ := h .plain "/runtime" call .zero none _ hargs
    (Or.inr (by decide))
  rw [hscript] at hrun
  obtain rfl := Except.ok.inj hrun
  obtain rfl := Option.some.inj htable
  have hfirst : some "b" = some "a" := hvalues 0
  exact absurd hfirst (by decide)

end Luan
