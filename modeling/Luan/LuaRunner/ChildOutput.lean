import Luan.Core.TextLines
import Luan.LuaRunner.Runner

/-!
# The output of the child

The `readabilityHandler` of a pipe from the child and `consumeChildOutput` in
`LuanMac/LuaRunner.swift`.  The handler is called with one chunk of the pipe after the other.  It
decodes each chunk by itself, splits it into lines, and for every line writes to `luan.log` and
calls `captureStartupDiag`; nothing is kept from one chunk to the next.

So how the system divides a stream into chunks can be told from what becomes of it.
`readChunks_eq_iff` says which divisions leave no trace: the ones that divide the stream between
two lines.
-/

namespace Luan

/-- What the output of a child has led to. -/
structure ChildOutput where
  logPath : String
  /-- the contents of the file at `logPath`, if there is one -/
  log : Option (List UInt8)
  /-- the arguments of the calls of `captureStartupDiag` -/
  captured : List (List Char)

namespace ChildOutput

/-- `appendChildLog` -/
def appendChildLog (o : ChildOutput) (text : List Char) : ChildOutput :=
  if o.logPath.isEmpty then o
  else
    let data := utf8Bytes text
    match o.log with
    | none => { o with log := some data }
    | some contents => { o with log := some (contents ++ data) }

/-- The body of the loop of `consumeChildOutput`. -/
def consumeLine (o : ChildOutput) (text : List Char) : ChildOutput :=
  let o := o.appendChildLog (text ++ ['\n'])
  { o with captured := o.captured ++ [text] }

/-- `consumeChildOutput` -/
def consumeChildOutput (U : UnicodeData) (o : ChildOutput) (chunk : List Char) : ChildOutput :=
  (splitOnNewlines U chunk).foldl consumeLine o

/-- The `readabilityHandler` of a pipe. -/
def readabilityHandler (U : UnicodeData) (o : ChildOutput) (data : List UInt8) : ChildOutput :=
  if data.isEmpty then o
  else
    match decodeUTF8 data with
    | none => o
    | some text => o.consumeChildOutput U text

/-- The handler is called with some chunks, one after the other. -/
def readChunks (U : UnicodeData) (o : ChildOutput) (chunks : List (List UInt8)) : ChildOutput :=
  chunks.foldl (readabilityHandler U) o

/-! ## The lines of a chunk -/

/-- The lines that the handler finds in a chunk. -/
def chunkLines (U : UnicodeData) (data : List UInt8) : List (List Char) :=
  match decodeUTF8 data with
  | none => []
  | some text => splitOnNewlines U text

@[simp] lemma appendChildLog_captured (o : ChildOutput) (text : List Char) :
    (o.appendChildLog text).captured = o.captured := by
  rw [appendChildLog]
  split_ifs
  · rfl
  · cases o.log with
    | none => rfl
    | some contents => rfl

lemma captured_foldl (o : ChildOutput) (lines : List (List Char)) :
    (lines.foldl consumeLine o).captured = o.captured ++ lines := by
  induction lines generalizing o with
  | nil => rw [List.foldl_nil, List.append_nil]
  | cons line lines ih =>
      rw [List.foldl_cons, ih]
      simp [consumeLine]

/-- The captured lines are those that the runner looks through for errors. -/
lemma consumeChildOutput_captured (U : UnicodeData) (o : ChildOutput) (s : LuaRunner)
    (chunk : List Char) (clock : ℕ → UInt64) :
    s.consumeChildOutput U chunk clock
      = ((o.consumeChildOutput U chunk).captured.drop o.captured.length).zipIdx.foldl
          (fun s line => s.captureStartupDiag U line.1 (clock line.2)) s := by
  rw [consumeChildOutput, captured_foldl, List.drop_left]
  rfl

lemma readabilityHandler_eq (U : UnicodeData) (o : ChildOutput) (data : List UInt8) :
    readabilityHandler U o data = (chunkLines U data).foldl consumeLine o := by
  rw [readabilityHandler, chunkLines]
  split_ifs with hempty
  · -- no data is the text without a line
    rw [List.isEmpty_iff.mp hempty]
    have hnil : splitOnNewlines U [] = [] := by
      rw [splitOnNewlines, U.graphemes_ascii [] (by simp [IsASCII]) (by simp)]
      rfl
    show o = (splitOnNewlines U []).foldl consumeLine o
    rw [hnil]
    rfl
  · cases decodeUTF8 data with
    | none => rfl
    | some text => rfl

lemma readChunks_eq (U : UnicodeData) (o : ChildOutput) (chunks : List (List UInt8)) :
    readChunks U o chunks = (chunks.flatMap (chunkLines U)).foldl consumeLine o := by
  induction chunks generalizing o with
  | nil => rfl
  | cons chunk chunks ih =>
      rw [List.flatMap_cons, List.foldl_append, ← readabilityHandler_eq]
      exact ih _

/-- What becomes of a stream is determined by its lines, and determines them. -/
lemma readChunks_eq_readChunks (U : UnicodeData) (o : ChildOutput)
    (chunks chunks' : List (List UInt8)) :
    readChunks U o chunks = readChunks U o chunks'
      ↔ chunks.flatMap (chunkLines U) = chunks'.flatMap (chunkLines U) := by
  rw [readChunks_eq, readChunks_eq]
  constructor
  · intro h
    have hcaptured := congrArg captured h
    rw [captured_foldl, captured_foldl] at hcaptured
    exact List.append_cancel_left hcaptured
  · intro h
    rw [h]

/-! ## Bytes that are lost -/

/-- A byte of neither CR nor LF. -/
def isContent (b : UInt8) : Bool := b ≠ 13 ∧ b ≠ 10

lemma countP_utf8Bytes_lineMarks (s : List Char) :
    (utf8Bytes (lineMarks s).reduceOption).countP isContent = (utf8Bytes s).countP isContent := by
  have hcons : ∀ (c : Char) (t : List Char), (utf8Bytes (c :: t)).countP isContent
      = (String.utf8EncodeChar c).countP isContent + (utf8Bytes t).countP isContent := by
    intro c t
    rw [utf8Bytes, List.flatMap_cons, List.countP_append]
    rfl
  have hcr : (String.utf8EncodeChar '\r').countP isContent = 0 := by decide
  have hlf : (String.utf8EncodeChar '\n').countP isContent = 0 := by decide
  fun_induction lineMarks s with
  | case1 => rfl
  | case2 rest ih => simp only [List.reduceOption_cons_of_some, hcons, ih]
  | case3 rest hne ih => rw [List.reduceOption_cons_of_none, hcons, ih, hcr, Nat.zero_add]
  | case4 rest ih => rw [List.reduceOption_cons_of_none, hcons, ih, hlf, Nat.zero_add]
  | case5 c rest hcrlf hr hn ih => simp only [List.reduceOption_cons_of_some, hcons, ih]

lemma countP_utf8Bytes_textLines (s : List Char) :
    (utf8Bytes (textLines s).flatten).countP isContent = (utf8Bytes s).countP isContent := by
  rw [textLines, flatten_pieces, countP_utf8Bytes_lineMarks]

/-- Bytes of CR and LF alone are a text. -/
lemma decodeUTF8_of_countP_eq_zero {data : List UInt8} (h : data.countP isContent = 0) :
    (decodeUTF8 data).isSome = true := by
  have hnewline : ∀ b ∈ data, b = 13 ∨ b = 10 := by
    intro b hb
    have hcontent := List.countP_eq_zero.mp h b hb
    rw [isContent, decide_eq_true_iff, not_and_or, not_not, not_not] at hcontent
    exact hcontent
  obtain ⟨s, hascii, rfl⟩ : ∃ s, IsASCII s ∧ data = asciiBytes s := by
    clear h
    induction data with
    | nil => exact ⟨[], by simp [IsASCII], rfl⟩
    | cons b data ih =>
        obtain ⟨s, hs, rfl⟩ := ih fun b hb => hnewline b (List.mem_cons_of_mem _ hb)
        rcases hnewline b List.mem_cons_self with rfl | rfl
        · exact ⟨'\r' :: s, IsASCII.append (s := ['\r']) (by decide) hs, rfl⟩
        · exact ⟨'\n' :: s, IsASCII.append (s := ['\n']) (by decide) hs, rfl⟩
  rw [decodeUTF8_asciiBytes hascii]
  rfl

variable {U : UnicodeData}

lemma chunkLines_utf8Bytes (hU : DividesAtLineEnds U.graphemes) (s : List Char) :
    chunkLines U (utf8Bytes s) = textLines s := by
  rw [chunkLines, decodeUTF8_utf8Bytes]
  exact splitOnNewlines_eq hU s

/-- A chunk that is no text is dropped, with at least one byte that belongs to a line. -/
lemma countP_chunkLines (hU : DividesAtLineEnds U.graphemes) (data : List UInt8) :
    (utf8Bytes (chunkLines U data).flatten).countP isContent ≤ data.countP isContent
      ∧ ((utf8Bytes (chunkLines U data).flatten).countP isContent = data.countP isContent →
          (decodeUTF8 data).isSome = true) := by
  cases hdecode : decodeUTF8 data with
  | none =>
      rw [chunkLines, hdecode]
      refine ⟨Nat.zero_le _, fun h => ?_⟩
      have hsome := decodeUTF8_of_countP_eq_zero h.symm
      rw [hdecode] at hsome
      exact hsome
  | some s =>
      obtain rfl := decodeUTF8_eq_some_iff.mp hdecode
      rw [chunkLines_utf8Bytes hU, countP_utf8Bytes_textLines]
      exact ⟨Nat.le_refl _, fun _ => rfl⟩

/-- **If no byte of a line is lost, every chunk is a text.** -/
lemma isSome_of_countP_flatMap (hU : DividesAtLineEnds U.graphemes) (chunks : List (List UInt8)) :
    (utf8Bytes (chunks.flatMap (chunkLines U)).flatten).countP isContent
        ≤ chunks.flatten.countP isContent
      ∧ ((utf8Bytes (chunks.flatMap (chunkLines U)).flatten).countP isContent
            = chunks.flatten.countP isContent →
          ∀ data ∈ chunks, (decodeUTF8 data).isSome = true) := by
  induction chunks with
  | nil => exact ⟨Nat.le_refl _, fun _ data hdata => absurd hdata List.not_mem_nil⟩
  | cons chunk chunks ih =>
      obtain ⟨hle, hsome⟩ := ih
      obtain ⟨hchunk, hdecodes⟩ := countP_chunkLines hU chunk
      rw [List.flatMap_cons, List.flatten_append, utf8Bytes_append, List.countP_append,
        List.flatten_cons, List.countP_append]
      refine ⟨Nat.add_le_add hchunk hle, fun heq data hdata => ?_⟩
      rcases List.mem_cons.mp hdata with rfl | hdata
      · exact hdecodes (by omega)
      · exact hsome (by omega) data hdata

/-! ## Divisions without a trace -/

/-- Every chunk is a text, and every cut lies between two lines. -/
def DividedBetweenLines (chunks : List (List UInt8)) : Prop :=
  ∃ texts : List (List Char), chunks.map decodeUTF8 = texts.map some
    ∧ ∀ before behind, texts = before ++ behind → LineBetween before.flatten behind.flatten

/-- Chunks that are texts. -/
lemma map_decodeUTF8_eq_iff {chunks : List (List UInt8)} {texts : List (List Char)} :
    chunks.map decodeUTF8 = texts.map some ↔ chunks = texts.map utf8Bytes := by
  constructor
  · intro h
    induction chunks generalizing texts with
    | nil =>
        cases texts with
        | nil => rfl
        | cons text texts => cases h
    | cons chunk chunks ih =>
        cases texts with
        | nil => cases h
        | cons text texts =>
            rw [List.map_cons, List.map_cons, List.cons.injEq] at h
            rw [List.map_cons, ih h.2, decodeUTF8_eq_some_iff.mp h.1]
  · rintro rfl
    rw [List.map_map]
    exact List.map_congr_left fun text _ => decodeUTF8_utf8Bytes text

lemma exists_texts {chunks : List (List UInt8)}
    (h : ∀ data ∈ chunks, (decodeUTF8 data).isSome = true) :
    ∃ texts : List (List Char), chunks.map decodeUTF8 = texts.map some := by
  refine ⟨chunks.map fun data => (decodeUTF8 data).getD [], ?_⟩
  rw [List.map_map]
  refine List.map_congr_left fun data hdata => ?_
  obtain ⟨text, htext⟩ := Option.isSome_iff_exists.mp (h data hdata)
  show decodeUTF8 data = some ((decodeUTF8 data).getD [])
  rw [htext]
  rfl

lemma flatten_map_utf8Bytes (texts : List (List Char)) :
    (texts.map utf8Bytes).flatten = utf8Bytes texts.flatten := by
  induction texts with
  | nil => rfl
  | cons text texts ih =>
      rw [List.map_cons, List.flatten_cons, ih, List.flatten_cons, utf8Bytes_append]

lemma flatMap_chunkLines (hU : DividesAtLineEnds U.graphemes) (texts : List (List Char)) :
    (texts.map utf8Bytes).flatMap (chunkLines U) = texts.flatMap textLines := by
  rw [List.flatMap_map]
  congr 1
  funext text
  exact chunkLines_utf8Bytes hU text

/-- Where every chunk is a text, the stream is the text in parts. -/
lemma readChunks_texts_iff (hU : DividesAtLineEnds U.graphemes) (o : ChildOutput)
    (texts : List (List Char)) :
    readChunks U o (texts.map utf8Bytes) = readChunks U o [(texts.map utf8Bytes).flatten]
      ↔ ∀ before behind, texts = before ++ behind →
          LineBetween before.flatten behind.flatten := by
  rw [readChunks_eq_readChunks, flatMap_chunkLines hU, List.flatMap_singleton,
    flatten_map_utf8Bytes, chunkLines_utf8Bytes hU, flatMap_textLines_iff]

/-- **Which divisions of a stream leave no trace.**  A stream of UTF-8 is written to the log and
searched for errors as if it came in one chunk if and only if each chunk is UTF-8 by itself and
every cut lies between two lines. -/
theorem readChunks_eq_iff (U : UnicodeData) (hU : DividesAtLineEnds U.graphemes) (o : ChildOutput)
    (chunks : List (List UInt8)) (hvalid : (decodeUTF8 chunks.flatten).isSome = true) :
    readChunks U o chunks = readChunks U o [chunks.flatten] ↔ DividedBetweenLines chunks := by
  constructor
  · intro h
    obtain ⟨s, hs⟩ := Option.isSome_iff_exists.mp hvalid
    have hbytes := decodeUTF8_eq_some_iff.mp hs
    have hlines := (readChunks_eq_readChunks U o _ _).mp h
    rw [List.flatMap_singleton, hbytes, chunkLines_utf8Bytes hU] at hlines
    have hsome : ∀ data ∈ chunks, (decodeUTF8 data).isSome = true := by
      refine (isSome_of_countP_flatMap hU chunks).2 ?_
      rw [hlines, hbytes, countP_utf8Bytes_textLines]
    obtain ⟨texts, htexts⟩ := exists_texts hsome
    obtain rfl := map_decodeUTF8_eq_iff.mp htexts
    exact ⟨texts, htexts, (readChunks_texts_iff hU o texts).mp h⟩
  · rintro ⟨texts, htexts, hcuts⟩
    obtain rfl := map_decodeUTF8_eq_iff.mp htexts
    exact (readChunks_texts_iff hU o texts).mpr hcuts

/-- A line and the start of the next one may come in two chunks. -/
theorem readChunks_eq_behind_newline :
    readChunks .crlf ⟨"/luan.log", none, []⟩ [[97, 10], [98]]
      = readChunks .crlf ⟨"/luan.log", none, []⟩ [[97, 10, 98]] := by
  refine (readChunks_eq_iff .crlf dividesAtLineEnds_crlfCharacters ⟨"/luan.log", none, []⟩
    [[97, 10], [98]] (by decide)).mpr ⟨[['a', '\n'], ['b']], by decide, ?_⟩
  intro before behind heq
  rcases before with _ | ⟨x, _ | ⟨y, rest⟩⟩
  · obtain rfl : _ = behind := heq
    decide
  · obtain ⟨rfl, rfl⟩ := List.cons.inj heq
    decide
  · obtain ⟨rfl, htail⟩ := List.cons.inj heq
    obtain ⟨rfl, hnil⟩ := List.cons.inj htail
    obtain ⟨rfl, rfl⟩ := List.append_eq_nil_iff.mp hnil.symm
    decide

/-- A line that comes in two chunks is two lines, and a character that does is dropped. -/
theorem cut_line_becomes_two_lines :
    DividesAtLineEnds UnicodeData.crlf.graphemes
      ∧ decodeUTF8 [[97], [98]].flatten = some ['a', 'b']
      ∧ (readChunks .crlf ⟨"/luan.log", none, []⟩ [[97], [98]]).log = some [97, 10, 98, 10]
      ∧ (readChunks .crlf ⟨"/luan.log", none, []⟩ [[97], [98]]).captured = [['a'], ['b']]
      ∧ (readChunks .crlf ⟨"/luan.log", none, []⟩ [[97, 98]]).log = some [97, 98, 10]
      ∧ (readChunks .crlf ⟨"/luan.log", none, []⟩ [[97, 98]]).captured = [['a', 'b']]
      ∧ decodeUTF8 [[195], [169]].flatten = some ['é']
      ∧ (readChunks .crlf ⟨"/luan.log", none, []⟩ [[195], [169]]).captured = []
      ∧ (readChunks .crlf ⟨"/luan.log", none, []⟩ [[195, 169]]).captured = [['é']] := by
  refine ⟨dividesAtLineEnds_crlfCharacters, ?_, ?_, ?_, ?_, ?_, ?_, ?_, ?_⟩ <;> decide

end ChildOutput

end Luan
