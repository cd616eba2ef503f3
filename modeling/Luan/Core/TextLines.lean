import Luan.Core.Pieces
import Luan.Core.SwiftText

/-!
# Text, its bytes and its lines

What `splitOnNewlines` and UTF-8 do to a text that arrives in parts.

* `utf8Bytes` — the bytes of a text; `decodeUTF8` is its inverse.
* `DividesAtLineEnds` — the rules for the `Character`s of a text at its line ends.
* `lineMarks` — the scalars of a text, with a mark in the place of each separator of lines.  Under
  those rules the lines are the pieces between the marks (`splitOnNewlines_eq`).
* `LineBetween` — a place between two lines.  A text may be split part by part exactly where it is
  divided at such places (`flatMap_textLines_iff`).
-/

namespace Luan

/-! ## UTF-8 -/

/-- `text.utf8` -/
def utf8Bytes (s : List Char) : List UInt8 := s.flatMap String.utf8EncodeChar

@[simp] lemma utf8Bytes_append (s t : List Char) :
    utf8Bytes (s ++ t) = utf8Bytes s ++ utf8Bytes t := List.flatMap_append

lemma toByteArray_utf8Bytes (s : List Char) : (utf8Bytes s).toByteArray = s.utf8Encode := rfl

lemma decodeUTF8_utf8Bytes (s : List Char) : decodeUTF8 (utf8Bytes s) = some s := by
  rw [decodeUTF8, toByteArray_utf8Bytes, List.utf8Decode?_utf8Encode]
  rfl

/-- **Decoding is the inverse of encoding.** -/
lemma decodeUTF8_eq_some_iff {bytes : List UInt8} {s : List Char} :
    decodeUTF8 bytes = some s ↔ bytes = utf8Bytes s := by
  constructor
  · intro h
    obtain ⟨chars, hchars, rfl⟩ := Option.map_eq_some_iff.mp h
    have hsome : bytes.toByteArray.utf8Decode?.isSome = true := by rw [hchars]; rfl
    have hencode := ByteArray.utf8Encode_get_utf8Decode? (h := hsome)
    rw [Option.get_of_eq_some hsome hchars, ← toByteArray_utf8Bytes] at hencode
    simpa using (congrArg (fun b => b.data.toList) hencode).symm
  · rintro rfl
    exact decodeUTF8_utf8Bytes s

/-! ## Line ends and the characters of a text -/

/-- A CRLF goes across the cut between two parts. -/
def CutsCRLF (s t : List Char) : Prop := s.getLast? = some '\r' ∧ t.head? = some '\n'

/-- The place between `s` and `t` lies next to a CR or LF, and not between the two of a CRLF. -/
def AtLineEnd (s t : List Char) : Prop :=
  (s.getLast? = some '\r' ∨ s.getLast? = some '\n' ∨ t.head? = some '\r' ∨ t.head? = some '\n')
    ∧ ¬ CutsCRLF s t

/-- **The `Character`s of a text at its line ends**, as the Unicode standard has them: a text is
divided before and behind every CR and LF, whatever stands there, but not inside of a CRLF. -/
structure DividesAtLineEnds (graphemes : List Char → List (List Char)) : Prop where
  flatten : ∀ s, (graphemes s).flatten = s
  ne_nil : ∀ s, [] ∉ graphemes s
  crlf : graphemes ['\r', '\n'] = [['\r', '\n']]
  cut : ∀ s t, AtLineEnd s t → graphemes (s ++ t) = graphemes s ++ graphemes t

/-- The scalars of a text, with `none` for each separator of lines.  The two of a CRLF separate
nothing: they are a `Character`, which is neither LF nor CR. -/
def lineMarks : List Char → List (Option Char)
  | [] => []
  | '\r' :: '\n' :: rest => some '\r' :: some '\n' :: lineMarks rest
  | '\r' :: rest => none :: lineMarks rest
  | '\n' :: rest => none :: lineMarks rest
  | c :: rest => some c :: lineMarks rest

/-- The lines of a text that are not empty. -/
def textLines (s : List Char) : List (List Char) := pieces (lineMarks s)

lemma lineMarks_cr {rest : List Char} (h : rest.head? ≠ some '\n') :
    lineMarks ('\r' :: rest) = none :: lineMarks rest := by
  rw [lineMarks]
  rintro t rfl
  exact h rfl

lemma lineMarks_char {c : Char} {rest : List Char} (hr : c ≠ '\r') (hn : c ≠ '\n') :
    lineMarks (c :: rest) = some c :: lineMarks rest := by
  rw [lineMarks]
  · rintro t rfl
    exact absurd rfl hr
  · exact hr
  · exact hn

lemma getLast?_cons_cr {s : List Char} {c d : Char} (h : s.getLast? = some d) :
    (c :: s).getLast? = some d := by
  rw [List.getLast?_cons, h]
  rfl

lemma CutsCRLF.cons {s t : List Char} (h : CutsCRLF s t) (c : Char) : CutsCRLF (c :: s) t :=
  ⟨getLast?_cons_cr h.1, h.2⟩

/-- The marks of a text are those of its parts, if no CRLF is cut. -/
lemma lineMarks_append {s t : List Char} (h : ¬ CutsCRLF s t) :
    lineMarks (s ++ t) = lineMarks s ++ lineMarks t := by
  fun_induction lineMarks s with
  | case1 => rfl
  | case2 rest ih =>
      have hrest : ¬ CutsCRLF rest t := fun hrest => h ((hrest.cons '\n').cons '\r')
      rw [List.cons_append, List.cons_append, lineMarks, ih hrest]
      rfl
  | case3 rest hne ih =>
      have hrest : ¬ CutsCRLF rest t := fun hrest => h (hrest.cons '\r')
      have hhead : (rest ++ t).head? ≠ some '\n' := by
        cases rest with
        | nil => exact fun ht => h ⟨rfl, ht⟩
        | cons c rest =>
            rintro hc
            obtain rfl : c = '\n' := by simpa using hc
            exact hne rest rfl
      rw [List.cons_append, lineMarks_cr hhead, ih hrest]
      rfl
  | case4 rest ih =>
      rw [List.cons_append, lineMarks, ih fun hrest => h (hrest.cons '\n')]
      rfl
  | case5 c rest hcrlf hr hn ih =>
      rw [List.cons_append, lineMarks_char hr hn, ih fun hrest => h (hrest.cons c)]
      rfl

/-! ## Tables for a CRLF -/

/-- The `Character`s of a text that has none of several scalars but the CRLF. -/
def crlfCharacters : List Char → List (List Char)
  | [] => []
  | '\r' :: '\n' :: rest => ['\r', '\n'] :: crlfCharacters rest
  | c :: rest => [c] :: crlfCharacters rest

lemma crlfCharacters_append {s t : List Char} (h : ¬ CutsCRLF s t) :
    crlfCharacters (s ++ t) = crlfCharacters s ++ crlfCharacters t := by
  fun_induction crlfCharacters s with
  | case1 => rfl
  | case2 rest ih =>
      have hrest : ¬ CutsCRLF rest t := fun hrest => h ((hrest.cons '\n').cons '\r')
      rw [List.cons_append, List.cons_append, crlfCharacters, ih hrest]
      rfl
  | case3 c rest hne ih =>
      have hwhole : ∀ rest', c = '\r' → rest ++ t = '\n' :: rest' → False := by
        rintro rest' rfl heq
        cases rest with
        | nil => exact h ⟨rfl, by rw [← List.nil_append t, heq]; rfl⟩
        | cons d rest =>
            obtain rfl : d = '\n' := (List.cons.inj heq).1
            exact hne rest rfl rfl
      rw [List.cons_append, crlfCharacters, ih fun hrest => h (hrest.cons c)]
      · rfl
      · exact hwhole

lemma dividesAtLineEnds_crlfCharacters : DividesAtLineEnds crlfCharacters where
  flatten s := by
    fun_induction crlfCharacters s with
    | case1 => rfl
    | case2 rest ih => rw [List.flatten_cons, ih]; rfl
    | case3 c rest hne ih => rw [List.flatten_cons, ih]; rfl
  ne_nil s := by
    fun_induction crlfCharacters s with
    | case1 => exact List.not_mem_nil
    | case2 rest ih => simpa using ih
    | case3 c rest hne ih => simpa using ih
  crlf := rfl
  cut _ _ h := crlfCharacters_append h.2

lemma crlfCharacters_ascii (s : List Char) (hs : IsASCII s) (hcr : '\r' ∉ s) :
    crlfCharacters s = s.map fun c => [c] := by
  fun_induction crlfCharacters s with
  | case1 => rfl
  | case2 rest ih => exact absurd List.mem_cons_self hcr
  | case3 c rest hne ih =>
      rw [List.mem_cons, not_or] at hcr
      rw [ih (fun d hd => hs d (List.mem_cons_of_mem c hd)) hcr.2]
      rfl

/-- Tables that know the CRLF, and treat every other text as ASCII text is treated. -/
def UnicodeData.crlf : UnicodeData :=
  { UnicodeData.ascii with
    graphemes := crlfCharacters
    graphemes_ascii := crlfCharacters_ascii }

/-! ## The lines of a text -/

/-- The places where `splitOnNewlines` divides a list of characters. -/
def isNewline (g : List Char) : Bool := g = ['\n'] ∨ g = ['\r']

lemma modifyHead_map_flatten (front : List (List Char)) (runs : List (List (List Char))) :
    (runs.modifyHead (front ++ ·)).map List.flatten
      = (runs.map List.flatten).modifyHead (front.flatten ++ ·) := by
  cases runs with
  | nil => rfl
  | cons run runs => simp

lemma modifyHead_nil_append {β : Type} (runs : List (List β)) :
    runs.modifyHead (([] : List β) ++ ·) = runs := by
  cases runs with
  | nil => rfl
  | cons run runs => rfl

lemma mem_of_mem_splitOnP {β : Type} {p : β → Bool} {l run : List β} {x : β}
    (hrun : run ∈ l.splitOnP p) (hx : x ∈ run) : x ∈ l := by
  induction l generalizing run with
  | nil =>
      rw [List.mem_singleton.mp hrun] at hx
      cases hx
  | cons y l ih =>
      rw [List.splitOnP_cons_eq_if_modifyHead] at hrun
      split_ifs at hrun
      · rcases List.mem_cons.mp hrun with rfl | hrun
        · cases hx
        · exact List.mem_cons_of_mem y (ih hrun hx)
      · cases hl : l.splitOnP p with
        | nil => exact absurd hl (List.splitOnP_ne_nil p l)
        | cons first runs =>
            rw [hl, List.modifyHead_cons] at hrun
            rcases List.mem_cons.mp hrun with rfl | hrun
            · rcases List.mem_cons.mp hx with rfl | hx
              · exact List.mem_cons_self
              · exact List.mem_cons_of_mem y (ih (hl ▸ List.mem_cons_self) hx)
            · exact List.mem_cons_of_mem y (ih (hl ▸ List.mem_cons_of_mem first hrun) hx)

lemma splitOnP_append_of_forall_not {β : Type} {p : β → Bool} {front : List β}
    (h : ∀ x ∈ front, p x = false) (l : List β) :
    (front ++ l).splitOnP p = (l.splitOnP p).modifyHead (front ++ ·) := by
  induction front with
  | nil =>
      cases hl : l.splitOnP p with
      | nil => exact absurd hl (List.splitOnP_ne_nil p l)
      | cons run runs => rw [List.nil_append, hl]; rfl
  | cons x front ih =>
      have hx := h x List.mem_cons_self
      rw [List.cons_append, List.splitOnP_cons_eq_if_modifyHead, if_neg (by simp [hx]),
        ih fun y hy => h y (List.mem_cons_of_mem x hy), List.modifyHead_modifyHead]
      rfl

namespace DividesAtLineEnds

variable {G : List Char → List (List Char)}

lemma singleton (hG : DividesAtLineEnds G) (c : Char) : G [c] = [[c]] := by
  have hflat := hG.flatten [c]
  have hne := hG.ne_nil [c]
  match hg : G [c] with
  | [] => rw [hg] at hflat; cases hflat
  | g :: gs =>
      rw [hg] at hflat hne
      have hg : g ≠ [] := fun h => hne (h ▸ List.mem_cons_self)
      cases g with
      | nil => exact absurd rfl hg
      | cons d g =>
          rw [List.flatten_cons, List.cons_append, List.cons.injEq, List.append_eq_nil_iff] at hflat
          obtain ⟨rfl, rfl, hgs⟩ := hflat
          cases gs with
          | nil => rfl
          | cons g gs =>
              rw [List.flatten_cons, List.append_eq_nil_iff] at hgs
              exact absurd (hgs.1 ▸ by simp) hne

/-- A text without line ends has no character that is one. -/
lemma not_isNewline (hG : DividesAtLineEnds G) {w : List Char} (hw : ∀ c ∈ w, c ≠ '\r' ∧ c ≠ '\n') :
    ∀ g ∈ G w, isNewline g = false := by
  intro g hg
  have hmem : ∀ c ∈ g, c ∈ w := by
    intro c hc
    rw [← hG.flatten w]
    exact List.mem_flatten_of_mem hg hc
  rw [isNewline, decide_eq_false_iff_not]
  rintro (rfl | rfl)
  · exact (hw _ (hmem '\n' List.mem_cons_self)).2 rfl
  · exact (hw _ (hmem '\r' List.mem_cons_self)).1 rfl

/-- A CR or LF that is a separator ends the run before it. -/
lemma splitOnP_separator (hG : DividesAtLineEnds G) {w rest : List Char} {b : Char}
    (hw : ∀ c ∈ w, c ≠ '\r' ∧ c ≠ '\n') (hb : b = '\r' ∨ b = '\n') (hcut : ¬ CutsCRLF [b] rest) :
    ((G (w ++ b :: rest)).splitOnP isNewline).map List.flatten
      = w :: ((G rest).splitOnP isNewline).map List.flatten := by
  have hlast : ¬ CutsCRLF w (b :: rest) := fun h => (hw _ (List.mem_of_getLast? h.1)).1 rfl
  have hbefore : AtLineEnd w (b :: rest) := by
    refine ⟨?_, hlast⟩
    rcases hb with rfl | rfl
    · exact .inr (.inr (.inl rfl))
    · exact .inr (.inr (.inr rfl))
  have hbehind : AtLineEnd [b] rest := by
    refine ⟨?_, hcut⟩
    rcases hb with rfl | rfl
    · exact .inl rfl
    · exact .inr (.inl rfl)
  have hnewline : isNewline [b] = true := by
    rcases hb with rfl | rfl <;> rfl
  have hdivide : G (w ++ b :: rest) = G w ++ [b] :: G rest := by
    rw [hG.cut _ _ hbefore, ← List.singleton_append, hG.cut _ _ hbehind, hG.singleton]
    rfl
  rw [hdivide, List.splitOnP_append_cons _ _ hnewline,
    List.splitOnP_eq_singleton (hG.not_isNewline hw), List.map_append, List.map_singleton,
    hG.flatten]
  rfl

/-- A CRLF goes on with the run before it. -/
lemma splitOnP_crlf (hG : DividesAtLineEnds G) {w rest : List Char}
    (hw : ∀ c ∈ w, c ≠ '\r' ∧ c ≠ '\n') :
    ((G (w ++ '\r' :: '\n' :: rest)).splitOnP isNewline).map List.flatten
      = (((G rest).splitOnP isNewline).map List.flatten).modifyHead
          (w ++ ['\r', '\n'] ++ ·) := by
  have hbefore : AtLineEnd w ('\r' :: '\n' :: rest) :=
    ⟨.inr (.inr (.inl rfl)), fun h => (hw _ (List.mem_of_getLast? h.1)).1 rfl⟩
  have hbehind : AtLineEnd ['\r', '\n'] rest := ⟨.inr (.inl rfl), fun h => by cases h.1⟩
  have hdivide : G (w ++ '\r' :: '\n' :: rest) = (G w ++ [['\r', '\n']]) ++ G rest := by
    have hcrlf := hG.cut _ _ hbehind
    rw [List.cons_append, List.singleton_append] at hcrlf
    rw [hG.cut _ _ hbefore, hcrlf, hG.crlf, List.append_assoc]
  have hfront : ∀ g ∈ G w ++ [['\r', '\n']], isNewline g = false := by
    intro g hg
    rcases List.mem_append.mp hg with hg | hg
    · exact hG.not_isNewline hw g hg
    · rw [List.mem_singleton.mp hg]
      rfl
  rw [hdivide, splitOnP_append_of_forall_not hfront, modifyHead_map_flatten, List.flatten_append,
    hG.flatten]
  rfl

/-- **The runs between the newlines of a text**, with some of the text before it. -/
lemma splitOnP_flatten (hG : DividesAtLineEnds G) (s : List Char) :
    ∀ w : List Char, (∀ c ∈ w, c ≠ '\r' ∧ c ≠ '\n') →
      ((G (w ++ s)).splitOnP isNewline).map List.flatten
        = (segments (lineMarks s)).modifyHead (w ++ ·) := by
  fun_induction lineMarks s with
  | case1 =>
      intro w hw
      rw [List.append_nil, List.splitOnP_eq_singleton (hG.not_isNewline hw)]
      simp [hG.flatten, segments]
  | case2 rest ih =>
      intro w hw
      have hrest := ih [] (by simp)
      rw [List.nil_append, modifyHead_nil_append] at hrest
      rw [hG.splitOnP_crlf hw, hrest, segments, segments, List.modifyHead_modifyHead,
        List.modifyHead_modifyHead]
      congr 1
      funext run
      simp
  | case3 rest hne ih =>
      intro w hw
      have hcut : ¬ CutsCRLF ['\r'] rest := by
        rintro ⟨-, hhead⟩
        obtain ⟨t, rfl⟩ := List.head?_eq_some_iff.mp hhead
        exact hne t rfl
      have hrest := ih [] (by simp)
      rw [List.nil_append, modifyHead_nil_append] at hrest
      rw [hG.splitOnP_separator hw (.inl rfl) hcut, hrest, segments, List.modifyHead_cons,
        List.append_nil]
  | case4 rest ih =>
      intro w hw
      have hcut : ¬ CutsCRLF ['\n'] rest := fun h => by cases h.1
      have hrest := ih [] (by simp)
      rw [List.nil_append, modifyHead_nil_append] at hrest
      rw [hG.splitOnP_separator hw (.inr rfl) hcut, hrest, segments, List.modifyHead_cons,
        List.append_nil]
  | case5 c rest hcrlf hr hn ih =>
      intro w hw
      have hwc : ∀ d ∈ w ++ [c], d ≠ '\r' ∧ d ≠ '\n' := by
        intro d hd
        rcases List.mem_append.mp hd with hd | hd
        · exact hw d hd
        · rw [List.mem_singleton.mp hd]
          exact ⟨hr, hn⟩
      have hrest := ih (w ++ [c]) hwc
      rw [List.append_assoc, List.singleton_append] at hrest
      rw [hrest, segments, List.modifyHead_modifyHead]
      congr 1
      funext run
      simp

end DividesAtLineEnds

/-- **The lines that `splitOnNewlines` finds.** -/
lemma splitOnNewlines_eq {U : UnicodeData} (hU : DividesAtLineEnds U.graphemes) (s : List Char) :
    splitOnNewlines U s = textLines s := by
  have hruns := hU.splitOnP_flatten s [] (by simp)
  rw [List.nil_append, modifyHead_nil_append] at hruns
  have hkept : ∀ run ∈ (U.graphemes s).splitOnP isNewline,
      decide (run ≠ []) = !run.flatten.isEmpty := by
    intro run hrun
    cases run with
    | nil => rfl
    | cons g run =>
        have hg : g ∈ U.graphemes s := mem_of_mem_splitOnP hrun List.mem_cons_self
        have hne : g ≠ [] := fun h => hU.ne_nil s (h ▸ hg)
        cases g with
        | nil => exact absurd rfl hne
        | cons c g => rfl
  show (((U.graphemes s).splitOnP isNewline).filter _).map List.flatten = _
  rw [List.filter_congr hkept, textLines, pieces, ← hruns, List.filter_map]
  rfl

/-! ## A text in parts -/

/-- The place between `s` and `t` lies between two lines: next to a separator or at an end of the
text, and not inside of a CRLF. -/
def LineBetween (s t : List Char) : Prop := ¬ CutsCRLF s t ∧ Apart (lineMarks s) (lineMarks t)

instance (s t : List Char) : Decidable (CutsCRLF s t) := inferInstanceAs (Decidable (_ ∧ _))

instance (s t : List Char) : Decidable (LineBetween s t) := inferInstanceAs (Decidable (_ ∧ _))

lemma textLines_append {s t : List Char} (h : LineBetween s t) :
    textLines (s ++ t) = textLines s ++ textLines t := by
  rw [textLines, lineMarks_append h.1, pieces_append h.2]
  rfl

/-- **A cut that is not between two lines costs a neighbourhood of two scalars.** -/
lemma bonds_textLines_lt {s t : List Char} (h : ¬ LineBetween s t) :
    bonds (textLines s) + bonds (textLines t) < bonds (textLines (s ++ t)) := by
  rw [textLines, textLines, textLines, bonds_pieces, bonds_pieces, bonds_pieces]
  by_cases hcrlf : CutsCRLF s t
  · -- the CR and the LF separate lines in the parts and belong to a line of the whole
    obtain ⟨front, rfl⟩ : ∃ front, s = front ++ ['\r'] := List.getLast?_eq_some_iff.mp hcrlf.1
    obtain ⟨behind, rfl⟩ : ∃ behind, t = '\n' :: behind := List.head?_eq_some_iff.mp hcrlf.2
    have hfront : lineMarks (front ++ ['\r']) = lineMarks front ++ [none] :=
      lineMarks_append fun h => by cases h.2
    have hwhole : lineMarks (front ++ ['\r'] ++ '\n' :: behind)
        = lineMarks front ++ some '\r' :: some '\n' :: lineMarks behind := by
      rw [List.append_assoc, lineMarks_append (fun h => by cases h.2)]
      rfl
    have hsep : bonds (segments (lineMarks front ++ [none]))
        = bonds (segments (lineMarks front)) := by
      rw [segments_append_none, bonds_append]
      rfl
    rw [hfront, hsep, lineMarks, bonds_segments_none, hwhole, bonds_segments_append,
      bonds_segments_some, bonds_segments_some]
    simp only [List.head?_cons]
    show _ < _ + (_ + _ + 1) + _
    omega
  · have hapart : ¬ Apart (lineMarks s) (lineMarks t) := fun ha => h ⟨hcrlf, ha⟩
    rw [lineMarks_append hcrlf, bonds_segments_append, if_neg hapart]
    omega

/-- The mark of the last scalar. -/
lemma getLast?_lineMarks_concat (s : List Char) (c : Char) :
    (lineMarks (s ++ [c])).getLast?.join = none
      ↔ c = '\r' ∨ c = '\n' ∧ s.getLast? ≠ some '\r' := by
  by_cases hcrlf : CutsCRLF s [c]
  · obtain ⟨front, rfl⟩ : ∃ front, s = front ++ ['\r'] := List.getLast?_eq_some_iff.mp hcrlf.1
    obtain rfl : c = '\n' := by simpa using hcrlf.2
    rw [List.append_assoc, lineMarks_append (fun h => by cases h.2)]
    simp [lineMarks]
  · have hlast : c = '\n' → s.getLast? ≠ some '\r' := fun hc hs => hcrlf ⟨hs, hc ▸ rfl⟩
    rw [lineMarks_append hcrlf]
    by_cases hr : c = '\r'
    · subst hr
      simp [lineMarks]
    · by_cases hn : c = '\n'
      · subst hn
        simp [lineMarks, hlast]
      · rw [lineMarks_char hr hn]
        simp [lineMarks, hr, hn]

/-- What comes first in a text is nothing to a place further behind. -/
lemma LineBetween.of_append {s t u : List Char} (h : LineBetween (s ++ t) u) : LineBetween t u := by
  induction t using List.reverseRecOn with
  | nil => exact ⟨fun hcrlf => absurd hcrlf.1 (by simp), .inl rfl⟩
  | append_singleton t c =>
      obtain ⟨hcrlf, hapart⟩ := h
      rw [← List.append_assoc] at hcrlf hapart
      refine ⟨fun hcut => hcrlf ⟨by simpa using hcut.1, hcut.2⟩, ?_⟩
      rcases hapart with hlast | hhead
      · refine .inl ((getLast?_lineMarks_concat t c).mpr ?_)
        rcases (getLast?_lineMarks_concat (s ++ t) c).mp hlast with hr | ⟨hn, hne⟩
        · exact .inl hr
        · exact .inr ⟨hn, fun ht => hne (by rw [List.getLast?_append, ht]; rfl)⟩
      · exact .inr hhead

/-- **Splitting a text part by part** gives its lines exactly if every cut lies between two
lines. -/
theorem flatMap_textLines_iff (texts : List (List Char)) :
    texts.flatMap textLines = textLines texts.flatten
      ↔ ∀ before behind, texts = before ++ behind → LineBetween before.flatten behind.flatten :=
  flatMap_eq_iff rfl bonds_append (fun _ _ => textLines_append) (fun _ _ => bonds_textLines_lt)
    (fun _ _ _ => LineBetween.of_append) texts

end Luan
