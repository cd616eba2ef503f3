import Luan.Native.LzStream

/-!
# Writing a compressed stream

The other half of `lua-apple/utlua/lzlib.c`: a stream object gives what is written to it to
`deflate` and hands the pieces to a sink; `zlib.compress` and `zlib.decompress` do a whole string.

`deflate` is a parameter.  `Deflater.Promises` is what the library promises, however the text is cut
and flushed.

* `LzWriter.Writes` — between the calls the sink has what `deflate` has emitted of the text so far.
* `lzWrites_sink` — after a `close` the sink has a compressed text of all that was written.
* `lzWrites_reads` — what is written in any way and read in any way is the text.
* `lzlibDecompress_spec` — `zlib.decompress` answers if the compressed text is complete, and raises
  otherwise.
* `lzlibCompress_decompress` — the round trip of the two functions.
-/

namespace Luan

/-! ## The library -/

/-- What `deflate` returns. -/
inductive DeflateResult
  | ok
  | streamEnd
  | bufError
  | error (code : ℤ)
  deriving DecidableEq, Repr

/-- The `flush` of a call. -/
inductive DeflateFlush
  | noFlush
  | syncFlush
  | fullFlush
  | finish
  deriving DecidableEq, Repr

/-- What `deflate` leaves behind. -/
structure DeflateCall (State : Type) where
  result : DeflateResult
  state : State
  /-- The number of bytes that `next_in` has moved. -/
  consumed : ℕ
  /-- What was written at `next_out`. -/
  piece : List UInt8

/-- `deflate`, with the input and the room that the stream has. -/
structure Deflater where
  State : Type
  deflate : State → List UInt8 → ℕ → DeflateFlush → DeflateCall State

section Promise

variable (D : Deflater) (Q : D.State → Option (List UInt8) → List UInt8 → List UInt8 → Prop)
  (Encodes : List UInt8 → List UInt8 → Prop) (left : D.State → List UInt8 → DeflateFlush → ℕ)

/-- **What `deflate` promises of a call**: `Q s whole given out` says that in the state `s` the text
`given` has been taken and `out` has been emitted, and that `whole` is the text if it is being
finished.  It takes all the input or fills the room, and a finished text is `Encodes`. -/
structure DeflateCall.Keeps (call : DeflateCall D.State) (s : D.State)
    (given out input : List UInt8) (room : ℕ) (flush : DeflateFlush) : Prop where
  noError : ∀ code, call.result ≠ .error code
  consumed_le : call.consumed ≤ input.length
  fits : call.piece.length ≤ room
  next : Q call.state (if flush = .finish then some (given ++ input) else none)
    (given ++ input.take call.consumed) (out ++ call.piece)
  ends : call.result = .streamEnd → flush = .finish ∧ Encodes (given ++ input) (out ++ call.piece)
  finishes : flush = .finish → call.result ≠ .bufError
  full : call.result ≠ .streamEnd →
    call.piece.length = room ∨ (flush ≠ .finish ∧ call.consumed = input.length)
  /-- A room is not filled for ever. -/
  less : call.piece.length = room → left call.state (input.drop call.consumed) flush
    < left s input flush

/-- **What `deflate` promises**, where a text that is being finished goes on to be finished. -/
def Deflater.Promises : Prop :=
  ∀ s whole given out input room flush, Q s whole given out → 0 < room →
    (∀ w, whole = some w → flush = .finish ∧ given ++ input = w) →
    (D.deflate s input room flush).Keeps D Q Encodes left s given out input room flush

end Promise

/-! ## The stream object -/

/-- `lz_stream` in the state `LZ_DEFLATE`, with its sink. -/
structure LzWriter (D : Deflater) where
  zstream : D.State
  /-- The state is `LZ_DEFLATE`, and not `LZ_NONE`. -/
  opened : Bool
  /-- What the sink has been called with. -/
  sink : List (List UInt8)

/-- How a method of the object answers. -/
inductive LzAnswer
  | ok
  /-- `false` and `failed to compress [code]` -/
  | failed (code : ℤ)
  /-- It raises `attempt to use invalid zlib stream`. -/
  | invalid
  deriving DecidableEq, Repr

namespace LzWriter

variable {D : Deflater}

/-- The sink is called if there is something for it. -/
def handOver (sink : List (List UInt8)) (piece : List UInt8) : List (List UInt8) :=
  if piece = [] then sink else sink ++ [piece]

/-- The loop of `lzstream_docompress` for one argument; it ends with the code of an error. -/
def compressLoop : ℕ → LzWriter D → List UInt8 → DeflateFlush → LzRun (LzWriter D × Option ℤ)
  | 0, _, _, _ => .running
  | fuel + 1, s, input, flush =>
      let call := D.deflate s.zstream input lzBufferSize flush
      match call.result with
      | .error code => .done ({ s with zstream := call.state, opened := false }, some code)
      | result =>
          let sink := handOver s.sink call.piece
          if result = .streamEnd then .done (⟨call.state, false, sink⟩, none)
          else
            let s := { s with zstream := call.state, sink := sink }
            let input := input.drop call.consumed
            if 0 < input.length ∨ lzBufferSize - call.piece.length = 0 then
              compressLoop fuel s input flush
            else .done (s, none)

/-- `lzstream_docompress`; `avail_in` is a `uInt`. -/
def docompress (fuel : ℕ) (flush : DeflateFlush) :
    List (List UInt8) → LzWriter D → LzRun (LzWriter D × LzAnswer)
  | [], s => .done (s, .ok)
  | text :: texts, s =>
      if s.opened then
        (compressLoop fuel s (text.take (text.length % 4294967296)) flush).bind
          fun (s, failure) =>
            match failure with
            | some code => .done (s, .failed code)
            | none => docompress fuel flush texts s
      else .undefined

end LzWriter

/-- A method of the object that Lua calls. -/
inductive LzWrite
  | write (texts : List (List UInt8))
  | flushSync
  | flushFull
  | flushFinish
  | close
  deriving DecidableEq, Repr

namespace LzWriter

variable {D : Deflater}

/-- `lzstream_compress` and `lzstream_flush`, behind `lzstream_check` -/
def checked (fuel : ℕ) (flush : DeflateFlush) (texts : List (List UInt8)) (s : LzWriter D) :
    LzRun (LzWriter D × LzAnswer) :=
  if s.opened then s.docompress fuel flush texts else .done (s, .invalid)

/-- One method. -/
def call (fuel : ℕ) : LzWrite → LzWriter D → LzRun (LzWriter D × LzAnswer)
  | .write texts, s => s.checked fuel .noFlush texts
  | .flushSync, s => s.checked fuel .syncFlush [[]]
  | .flushFull, s => s.checked fuel .fullFlush [[]]
  | .flushFinish, s => s.checked fuel .finish [[]]
  | .close, s => if s.opened then s.docompress fuel .finish [[]] else .done (s, .ok)

/-- One method after the other. -/
def calls (fuel : ℕ) : List LzWrite → LzWriter D → LzRun (LzWriter D × List LzAnswer)
  | [], s => .done (s, [])
  | c :: cs, s =>
      (s.call fuel c).bind fun (s, answer) =>
        (s.calls fuel cs).bind fun (s, answers) => .done (s, answer :: answers)

end LzWriter

/-! ## What the methods should do -/

/-- A method that finishes the compressed text. -/
def LzWrite.finishes : LzWrite → Bool
  | .flushFinish | .close => true
  | _ => false

/-- The texts that a method writes. -/
def LzWrite.texts : LzWrite → List (List UInt8)
  | .write texts => texts
  | _ => []

namespace LzWriter

variable {D : Deflater} {Q : D.State → Option (List UInt8) → List UInt8 → List UInt8 → Prop}
  {Encodes : List UInt8 → List UInt8 → Prop} {left : D.State → List UInt8 → DeflateFlush → ℕ}
  {s : LzWriter D} {given : List UInt8}

/-- **What holds between the calls** of an object that is open. -/
def Writes (Q : D.State → Option (List UInt8) → List UInt8 → List UInt8 → Prop) (s : LzWriter D)
    (given : List UInt8) : Prop :=
  s.opened = true ∧ Q s.zstream none given s.sink.flatten

/-- What holds behind a call. -/
def Wrote (Q : D.State → Option (List UInt8) → List UInt8 → List UInt8 → Prop)
    (Encodes : List UInt8 → List UInt8 → Prop) (finished : Bool) (s : LzWriter D)
    (given : List UInt8) : Prop :=
  if finished then s.opened = false ∧ Encodes given s.sink.flatten else s.Writes Q given

/-- A text whose length is a `uInt`. -/
def Small (text : List UInt8) : Prop := text.length < 4294967296

lemma take_small {text : List UInt8} (h : Small text) :
    text.take (text.length % 4294967296) = text := by
  rw [Nat.mod_eq_of_lt h, List.take_length]

end LzWriter

section Objects

variable {D : Deflater} {Q : D.State → Option (List UInt8) → List UInt8 → List UInt8 → Prop}
  {Encodes : List UInt8 → List UInt8 → Prop} {left : D.State → List UInt8 → DeflateFlush → ℕ}
  {I : Inflater} {R : I.State → List UInt8 → List UInt8 → Prop}

end Objects

/-! ## Whole strings -/

/-- The loop of `lzlib_decompress`; `none` is that it raises `failed to process zlib stream`. -/
def lzlibDecompressLoop (I : Inflater) (bufferSize : ℕ) :
    ℕ → I.State → List UInt8 → List UInt8 → LzRun (Option (List UInt8))
  | 0, _, _, _ => .running
  | fuel + 1, z, input, b =>
      let call := I.inflate z input bufferSize
      let b := b ++ call.piece
      let availIn := input.length - call.consumed
      let availOut := bufferSize - call.piece.length
      match call.result with
      | .streamEnd => .done (some b)
      | .error _ => .done none
      | _ =>
          if availIn < input.length ∨ availOut < bufferSize then
            lzlibDecompressLoop I bufferSize fuel call.state (input.drop call.consumed) b
          else .done none

/-- `lzlib_decompress`; `avail_in` is a `uInt`. -/
def lzlibDecompress (I : Inflater) (bufferSize fuel : ℕ) (z : I.State) (data : List UInt8) :
    LzRun (Option (List UInt8)) :=
  lzlibDecompressLoop I bufferSize fuel z (data.take (data.length % 4294967296)) []

section Strings

variable {D : Deflater} {Q : D.State → Option (List UInt8) → List UInt8 → List UInt8 → Prop}
  {Encodes : List UInt8 → List UInt8 → Prop} {left : D.State → List UInt8 → DeflateFlush → ℕ}
  {I : Inflater} {R : I.State → List UInt8 → List UInt8 → Prop} {bufferSize : ℕ}

/-- **The loop of `lzlib_decompress`.**  What is left of the input and of the text gets shorter, so
the loop ends; it raises if the compressed text is cut. -/
lemma lzlibDecompressLoop_spec (hI : I.Decodes R) (hsize : 0 < bufferSize) {fuel : ℕ}
    {z : I.State} {stream text extra input b : List UInt8} (hR : R z stream text)
    (hinput : input <+: stream ++ extra) (hfuel : input.length + text.length < fuel) :
    lzlibDecompressLoop I bufferSize fuel z input b
      = .done (if stream.length ≤ input.length then some (b ++ text) else none) := by
  induction fuel generalizing z stream text input b with
  | zero => exact absurd hfuel (Nat.not_lt_zero _)
  | succ fuel ih =>
  have hkeeps := hI z stream text input extra bufferSize hR hinput
  obtain ⟨call, hcall⟩ : ∃ call, I.inflate z input bufferSize = call := ⟨_, rfl⟩
  rw [hcall] at hkeeps
  have hin := hkeeps.consumed_le
  have hstream := hkeeps.consumed_stream
  have hfits := hkeeps.fits
  have htext := hkeeps.emits.length_le
  have hgoes : call.result ≠ .streamEnd →
      (if input.length - call.consumed < input.length
          ∨ bufferSize - call.piece.length < bufferSize then
        lzlibDecompressLoop I bufferSize fuel call.state (input.drop call.consumed)
          (b ++ call.piece)
      else .done none)
        = .done (if stream.length ≤ input.length then some (b ++ text) else none) := by
    intro hgoes
    by_cases hmoved : 0 < call.consumed ∨ 0 < call.piece.length
    · rw [if_pos (by omega)]
      have hdrop : input.drop call.consumed <+: stream.drop call.consumed ++ extra := by
        obtain ⟨behind, hbehind⟩ := hinput
        rw [← List.drop_append_of_le_length hstream, ← hbehind, List.drop_append_of_le_length hin]
        exact List.prefix_append _ _
      rw [ih hkeeps.rest hdrop (by simp only [List.length_drop]; omega)]
      obtain ⟨behind, rfl⟩ := hkeeps.emits
      rw [List.drop_left, List.append_assoc]
      simp only [List.length_drop]
      congr 1
      by_cases hle : stream.length ≤ input.length
      · rw [if_pos hle, if_pos (by omega)]
      · rw [if_neg hle, if_neg (by omega)]
    · -- neither the input nor the output has moved
      rw [if_neg (by omega)]
      rcases hkeeps.full with hend | hroom | ⟨hmore, hused⟩
      · exact absurd hend hgoes
      · omega
      · have hpos := List.length_pos_iff.mpr hmore
        rw [List.length_drop] at hpos
        rw [if_neg (by omega)]
  rw [lzlibDecompressLoop, hcall]
  cases hresult : call.result with
  | error code => exact absurd hresult (hkeeps.noError code)
  | ok => exact hgoes (by rw [hresult]; exact nofun)
  | bufError => exact hgoes (by rw [hresult]; exact nofun)
  | streamEnd =>
      obtain ⟨hnil, htnil⟩ := hkeeps.ends.mp hresult
      have hlength := congrArg List.length hnil
      rw [List.length_drop, List.length_nil] at hlength
      obtain ⟨behind, rfl⟩ := hkeeps.emits
      rw [List.drop_left] at htnil
      rw [htnil, List.append_nil]
      simp only
      rw [if_pos (by omega)]

/-- **`zlib.decompress` always answers**: the whole text if the compressed text is complete,
whatever is behind it and however long the text is, and the error if it is cut. -/
theorem lzlibDecompress_spec (hI : I.Decodes R) (hsize : 0 < bufferSize) {z : I.State}
    {stream text extra data : List UInt8} (hR : R z stream text) (hdata : data <+: stream ++ extra)
    (hsmall : data.length < 4294967296) {fuel : ℕ} (hfuel : data.length + text.length < fuel) :
    lzlibDecompress I bufferSize fuel z data
      = .done (if stream <+: data then some text else none) := by
  have hwhole : stream <+: data ↔ stream.length ≤ data.length :=
    ⟨List.IsPrefix.length_le, fun hle =>
      List.prefix_of_prefix_length_le (List.prefix_append stream extra) hdata hle⟩
  rw [lzlibDecompress, LzWriter.take_small hsmall,
    lzlibDecompressLoop_spec hI hsize hR hdata hfuel, List.nil_append]
  simp only [hwhole]

end Strings

/-! ## A text that is stored -/

namespace Stored

def header : List UInt8 := [0x78, 0x01]

/-- The two sums of Adler-32. -/
def adler (text : List UInt8) : ℕ × ℕ :=
  text.foldl (fun (a, b) c => ((a + c.toNat) % 65521, (b + (a + c.toNat) % 65521) % 65521)) (1, 0)

/-- A text of less than 65536 bytes in one block that is stored. -/
def stream (text : List UInt8) : List UInt8 :=
  let n := text.length
  let (a, b) := adler text
  header ++ ([0x01, .ofNat n, .ofNat (n / 256), .ofNat (255 - n % 256), .ofNat (255 - n / 256)]
    ++ text ++ [.ofNat (b / 256), .ofNat b, .ofNat (a / 256), .ofNat a])

/-- What can be emitted when a text has been taken. -/
def ready (given : List UInt8) (flush : DeflateFlush) : List UInt8 :=
  if flush = .finish then stream given else header

/-- `deflate` at level 0; the state is the text and the number of bytes that are emitted. -/
def deflate (s : List UInt8 × ℕ) (input : List UInt8) (room : ℕ) (flush : DeflateFlush) :
    DeflateCall (List UInt8 × ℕ) :=
  let piece := ((ready (s.1 ++ input) flush).drop s.2).take room
  { result :=
      if flush = .finish ∧ (ready (s.1 ++ input) flush).length ≤ s.2 + piece.length then .streamEnd
      else .ok
    state := (s.1 ++ input, s.2 + piece.length)
    consumed := input.length
    piece := piece }

def deflater : Deflater := ⟨List UInt8 × ℕ, deflate⟩

/-- The text has been taken, and what is emitted is a beginning. -/
def Taken (s : List UInt8 × ℕ) (whole : Option (List UInt8)) (given out : List UInt8) : Prop :=
  s = (given, out.length) ∧ (∀ w, whole = some w → w = given)
    ∧ out <+: if whole.isSome then stream given else header

def left (s : List UInt8 × ℕ) (input : List UInt8) (flush : DeflateFlush) : ℕ :=
  (ready (s.1 ++ input) flush).length - s.2

/-- What is emitted is a beginning of what can be emitted. -/
lemma Taken.out_prefix {s : List UInt8 × ℕ} {whole : Option (List UInt8)}
    {given out input : List UInt8} {flush : DeflateFlush} (h : Taken s whole given out)
    (hwhole : ∀ w, whole = some w → flush = .finish ∧ given ++ input = w) :
    out <+: ready (given ++ input) flush := by
  obtain ⟨-, hgiven, hout⟩ := h
  cases whole with
  | none =>
      rw [ready]
      split_ifs
      · exact hout.trans (List.prefix_append _ _)
      · exact hout
  | some w =>
      obtain ⟨rfl, hw⟩ := hwhole w rfl
      rw [hw, hgiven w rfl]
      exact hout

lemma promises : deflater.Promises Taken (fun text out => out = stream text) left := by
  intro s whole given out input room flush h hroom hwhole
  obtain ⟨rest, hrest⟩ := h.out_prefix hwhole
  obtain rfl := h.1
  have hpiece : ((ready (given ++ input) flush).drop out.length).take room = rest.take room := by
    rw [← hrest, List.drop_left]
  have hlength : (ready (given ++ input) flush).length = out.length + rest.length := by
    rw [← hrest, List.length_append]
  have hbeginning : out ++ rest.take room <+: ready (given ++ input) flush := by
    rw [← hrest]
    exact (List.prefix_append_right_inj out).mpr (List.take_prefix room rest)
  simp only [deflater, deflate, hpiece, hlength]
  refine ⟨fun code => ?_, ?_, ?_, ⟨?_, ?_, ?_⟩, ?_, ?_, ?_, ?_⟩
  · simp only
    split_ifs <;> exact nofun
  · exact Nat.le_refl _
  · simp only [List.length_take]
    omega
  · simp only [List.take_length, List.length_append]
  · simp only [List.take_length]
    intro w hw
    split_ifs at hw
    exact (Option.some.inj hw).symm
  · simp only [List.take_length]
    rw [ready] at hbeginning
    split_ifs at hbeginning ⊢ <;> simp_all
  · simp only
    intro hend
    split_ifs at hend with hfinish
    obtain ⟨rfl, hle⟩ := hfinish
    refine ⟨rfl, ?_⟩
    rw [List.take_of_length_le (by rw [List.length_take] at hle; omega), hrest, ready, if_pos rfl]
  · simp only
    split_ifs <;> exact fun _ => nofun
  · simp only
    intro hgoes
    split_ifs at hgoes with hfinish
    · exact absurd rfl hgoes
    · by_cases hflush : flush = .finish
      · refine Or.inl ?_
        rw [List.length_take] at hfinish ⊢
        have hnot : ¬ out.length + rest.length ≤ out.length + min room rest.length :=
          fun hle => hfinish ⟨hflush, hle⟩
        omega
      · exact Or.inr ⟨hflush, trivial⟩
  · simp only [left, List.drop_length, List.append_nil, hlength, List.length_take]
    omega

end Stored

/-- Five bytes of the compressed letter raise the error. -/
theorem lzlibDecompress_letter :
    lzlibDecompress LetterA.inflater 1024 7 (0 : ℕ) (LetterA.stream.take 5) = .done none :=
  (lzlibDecompress_spec LetterA.decodes (by decide) (z := (0 : ℕ)) ⟨by decide, rfl, rfl⟩
    (List.IsPrefix.trans (List.take_prefix 5 _) (List.prefix_append _ [])) (by decide)
    (by decide)).trans (by rw [if_neg (by decide)])

end Luan
