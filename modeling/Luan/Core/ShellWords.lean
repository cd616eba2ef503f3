import Mathlib.Data.List.Forall2

/-!
# The words of a shell command

How a POSIX shell splits a line into words, for lines of unquoted text, single quotes and
backslashes.  Everything else that the shell would act on (an operator, a double quote, an
expansion, the end of the command) is an error here, so that a line with words is a line that the
shell takes as those words and nothing more.

* `shellWords` — the splitter, one step for each character.
* `Renders text word` — a piece of a line that stands for one word.  `renders_plain` is unquoted
  text, `renders_quoted` is text in single quotes, and `Renders.append` puts pieces together.
* `shellWords_intercalate` — pieces with a blank between them are split into their words.
-/

namespace Luan

/-! ## The splitter -/

inductive QuoteMode
  | unquoted
  | singleQuotes
  /-- Behind a backslash. -/
  | backslash
  deriving DecidableEq, Repr

/-- What the splitter has read: the finished words, the word it is in, and how it reads on. -/
structure Splitter where
  words : List (List Char)
  word : Option (List Char)
  mode : QuoteMode
  deriving DecidableEq, Repr

/-- `<space>` and `<tab>` -/
def isShellBlank (c : Char) : Bool := c = ' ' || c = '\t'

/-- The other characters that have to be quoted, always or in some places. -/
def shellSpecials : List Char := "|&;<>()$\x60\"\n*?[#~=%".toList

namespace Splitter

def initial : Splitter where
  words := []
  word := none
  mode := .unquoted

/-- The character belongs to the word, and starts it if there is none. -/
def push (s : Splitter) (c : Char) : Splitter :=
  { s with word := some (s.word.getD [] ++ [c]) }

/-- The end of the word, if there is one. -/
def endWord (s : Splitter) : Splitter :=
  { s with words := s.words ++ s.word.toList, word := none }

def step (s : Splitter) (c : Char) : Option Splitter :=
  match s.mode with
  | .singleQuotes =>
      if c = '\'' then some { s with mode := .unquoted } else some (s.push c)
  | .backslash =>
      -- a line that ends with a backslash goes on
      if c = '\n' then some { s with mode := .unquoted }
      else some { s.push c with mode := .unquoted }
  | .unquoted =>
      if c = '\'' then some { s with word := some (s.word.getD []), mode := .singleQuotes }
      else if c = '\\' then some { s with mode := .backslash }
      else if isShellBlank c then some s.endWord
      else if c ∈ shellSpecials then none
      else some (s.push c)

def run (s : Splitter) (line : List Char) : Option Splitter := line.foldlM step s

end Splitter

/-- The words of a line; `none` if it has more than words, or if a quotation does not end. -/
def shellWords (line : List Char) : Option (List (List Char)) :=
  match Splitter.initial.run line with
  | some s => if s.mode = .unquoted then some s.endWord.words else none
  | none => none

/-! ## Pieces of a line -/

namespace Splitter

@[simp] lemma run_nil (s : Splitter) : s.run [] = some s := rfl

lemma run_cons (s : Splitter) (c : Char) (line : List Char) :
    s.run (c :: line) = (s.step c).bind fun s => s.run line := rfl

lemma run_append (s : Splitter) (u v : List Char) :
    s.run (u ++ v) = (s.run u).bind fun s => s.run v :=
  List.foldlM_append ..

end Splitter

/-- The splitter reads the text, unquoted, as more of the word. -/
def Renders (text word : List Char) : Prop :=
  ∀ words w, Splitter.run ⟨words, w, .unquoted⟩ text
    = some ⟨words, some (w.getD [] ++ word), .unquoted⟩

/-- A character that stands for itself without quotes. -/
def isPlain (c : Char) : Bool := !('\'' :: '\\' :: ' ' :: '\t' :: shellSpecials).contains c

lemma Renders.append {t t' w w' : List Char} (h : Renders t w) (h' : Renders t' w') :
    Renders (t ++ t') (w ++ w') := by
  intro words v
  rw [Splitter.run_append, h words v, Option.bind_some, h' words, Option.getD_some,
    List.append_assoc]

lemma renders_singleton {c : Char} (h : isPlain c = true) : Renders [c] [c] := by
  intro words w
  simp only [isPlain, Bool.not_eq_true', List.contains_eq_mem, decide_eq_false_iff_not,
    List.mem_cons, not_or] at h
  obtain ⟨hquote, hback, hspace, htab, hspecial⟩ := h
  simp [Splitter.run_cons, Splitter.step, Splitter.push, isShellBlank, hquote, hback, hspace, htab,
    hspecial]

/-- Unquoted text. -/
lemma renders_plain {text : List Char} (hne : text ≠ []) (h : text.all isPlain = true) :
    Renders text text := by
  induction text with
  | nil => exact absurd rfl hne
  | cons c text ih =>
      rw [List.all_cons, Bool.and_eq_true] at h
      by_cases hnil : text = []
      · rw [hnil]
        exact renders_singleton h.1
      · exact (renders_singleton h.1).append (ih hnil h.2)

/-- Inside single quotes every character but the quote stands for itself. -/
lemma run_singleQuotes {text : List Char} (h : '\'' ∉ text) (words : List (List Char))
    (w : List Char) :
    Splitter.run ⟨words, some w, .singleQuotes⟩ text
      = some ⟨words, some (w ++ text), .singleQuotes⟩ := by
  induction text generalizing w with
  | nil => rw [Splitter.run_nil, List.append_nil]
  | cons c text ih =>
      rw [List.mem_cons, not_or] at h
      have hstep : Splitter.step ⟨words, some w, .singleQuotes⟩ c
          = some ⟨words, some (w ++ [c]), .singleQuotes⟩ := by
        simp [Splitter.step, Splitter.push, Ne.symm h.1]
      rw [Splitter.run_cons, hstep, Option.bind_some, ih h.2, List.append_assoc,
        List.singleton_append]

/-- Text in single quotes. -/
lemma renders_quoted {text : List Char} (h : '\'' ∉ text) :
    Renders ('\'' :: text ++ ['\'']) text := by
  intro words w
  have hopen : Splitter.step ⟨words, w, .unquoted⟩ '\''
      = some ⟨words, some (w.getD []), .singleQuotes⟩ := rfl
  rw [List.cons_append, Splitter.run_cons, hopen, Option.bind_some, Splitter.run_append,
    run_singleQuotes h]
  rfl

/-- A quote behind a backslash. -/
lemma renders_escaped_quote : Renders ['\\', '\''] ['\''] := by
  intro words w
  rfl

/-! ## Whole lines -/

/-- The splitter between two words. -/
lemma run_intercalate {texts words : List (List Char)} (h : List.Forall₂ Renders texts words)
    (hne : texts ≠ []) (done : List (List Char)) :
    ∃ s, Splitter.run ⟨done, none, .unquoted⟩ ([' '].intercalate texts) = some s
      ∧ s.mode = .unquoted ∧ s.endWord.words = done ++ words := by
  induction h generalizing done with
  | nil => exact absurd rfl hne
  | @cons t w ts ws ht hts ih =>
      cases ts with
      | nil =>
          cases hts
          refine ⟨⟨done, some w, .unquoted⟩, ?_, rfl, rfl⟩
          rw [List.intercalate_singleton, ht]
          rfl
      | cons t' ts =>
          obtain ⟨s, hrun, hmode, hwords⟩ := ih (List.cons_ne_nil t' ts) (done ++ [w])
          refine ⟨s, ?_, hmode, ?_⟩
          · rw [List.intercalate_cons_cons, List.append_assoc, Splitter.run_append, ht,
              Option.bind_some]
            exact hrun
          · rw [hwords, List.append_assoc, List.singleton_append]

/-- **A line of pieces with a blank between them is split into their words.** -/
theorem shellWords_intercalate {texts words : List (List Char)}
    (h : List.Forall₂ Renders texts words) (hne : texts ≠ []) :
    shellWords ([' '].intercalate texts) = some words := by
  obtain ⟨s, hrun, hmode, hwords⟩ := run_intercalate h hne []
  have hrun' : Splitter.initial.run ([' '].intercalate texts) = some s := hrun
  rw [shellWords, hrun']
  dsimp only
  rw [if_pos hmode, hwords, List.nil_append]

end Luan
