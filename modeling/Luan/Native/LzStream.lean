import Mathlib.Data.Int.Init
import Mathlib.Data.List.TakeWhile
import Mathlib.Tactic.Common

/-!
# Reading from a compressed stream

The `read` of `lua-apple/utlua/lzlib.c`: a stream object pulls blocks from a string, a function or
an object, gives them to `inflate` and hands lines and numbers of bytes out of a buffer.

`inflate` and the Lua source are parameters.  `Inflater.Decodes` is what the library promises of one
compressed text, however its input and its room are cut, and `LzSource.Gives` says which bytes a
source has.

* `LzStream.Inv` — what has not been handed out is the buffer and what `inflate` has not emitted.
* `lzReads_string` — reading a compressed string is reading its text.
* `lzReads_source` — from any source no byte is lost, doubled or moved, and one that can be peeked
  into is left behind the compressed text.
-/

namespace Luan

/-! ## The library and the source -/

/-- What `inflate` returns. -/
inductive InflateResult
  | ok
  | streamEnd
  | bufError
  | error (code : ℤ)
  deriving DecidableEq, Repr

/-- What `inflate` leaves behind. -/
structure InflateCall (State : Type) where
  result : InflateResult
  state : State
  /-- The number of bytes that `next_in` has moved. -/
  consumed : ℕ
  /-- What was written at `next_out`. -/
  piece : List UInt8

/-- `inflate` with one `flush`, and with the input and the room that the stream has. -/
structure Inflater where
  State : Type
  inflate : State → List UInt8 → ℕ → InflateCall State

/-- **What `inflate` promises of a call**: `R s stream text` says that `stream` is the rest of the
compressed text in the state `s`, and that `text` is what has not been emitted of its text.
Nothing is taken from behind the compressed text, and all that fits is emitted. -/
structure InflateCall.Keeps {State : Type} (call : InflateCall State)
    (R : State → List UInt8 → List UInt8 → Prop) (stream text input : List UInt8) (room : ℕ) :
    Prop where
  noError : ∀ code, call.result ≠ .error code
  consumed_le : call.consumed ≤ input.length
  consumed_stream : call.consumed ≤ stream.length
  emits : call.piece <+: text
  fits : call.piece.length ≤ room
  rest : R call.state (stream.drop call.consumed) (text.drop call.piece.length)
  ends : call.result = .streamEnd
    ↔ stream.drop call.consumed = [] ∧ text.drop call.piece.length = []
  full : call.result = .streamEnd ∨ call.piece.length = room
    ∨ (stream.drop call.consumed ≠ [] ∧ call.consumed = input.length)

/-- **What `inflate` promises**, however the compressed text and what is behind it are cut. -/
def Inflater.Decodes (I : Inflater) (R : I.State → List UInt8 → List UInt8 → Prop) : Prop :=
  ∀ s stream text input extra room, R s stream text → input <+: stream ++ extra →
    (I.inflate s input room).Keeps R stream text input room

/-- A Lua source: a function, or the methods `peek` and `read` of an object. -/
structure LzSource (S : Type) where
  /-- the block that is pulled with the hint `LZ_BUFFER_SIZE`, or `nil` -/
  fetch : S → Option (List UInt8) × S
  /-- `read` behind a `peek` -/
  skip : S → ℕ → S

/-- The source of a stream object that is made from a string. -/
def noSource : LzSource Unit := ⟨fun s => (none, s), fun s _ => s⟩

/-- Which bytes a source has, and that `peek` does not take them. -/
structure LzSource.Gives {S : Type} (C : LzSource S) (peek : Bool) (rest : S → List UInt8) :
    Prop where
  reads : peek = false → ∀ s, rest s = (C.fetch s).1.getD [] ++ rest (C.fetch s).2
  peeks : peek = true → ∀ s, (C.fetch s).1.getD [] <+: rest s ∧ rest (C.fetch s).2 = rest s
  skips : peek = true → ∀ s n, rest (C.skip s n) = (rest s).drop n
  /-- `avail_in` is a `uInt`. -/
  size : ∀ s b, (C.fetch s).1 = some b → b.length < 4294967296

/-! ## The stream object -/

/-- How a call from Lua ends. -/
inductive LzRun (α : Type)
  /-- The fuel of the model is used up. -/
  | running
  /-- The C program does something undefined. -/
  | undefined
  /-- `failed to decompress [code]` -/
  | raises (code : ℤ)
  | done (value : α)

/-- One piece of code behind another. -/
def LzRun.bind {α β : Type} : LzRun α → (α → LzRun β) → LzRun β
  | running, _ => running
  | undefined, _ => undefined
  | raises code, _ => raises code
  | done value, next => next value

@[simp]
lemma LzRun.done_bind {α β : Type} (value : α) (next : α → LzRun β) :
    (LzRun.done value).bind next = next value := rfl

/-- `LZ_BUFFER_SIZE` -/
def lzBufferSize : ℕ := 8192

/-- `lz_stream` in the state `LZ_INFLATE`. -/
structure LzStream (I : Inflater) (S : Type) where
  zstream : I.State
  source : S
  peek : Bool
  eos : Bool
  /-- `i_buffer`; `NULL` is `none`. -/
  block : Option (List UInt8)
  pos : ℕ
  len : ℕ
  /-- The first `o_buffer_len` bytes of `o_buffer`. -/
  output : List UInt8

namespace LzStream

variable {I : Inflater} {S : Type}

/-- `lzstream_fetch_block` -/
def fetchBlock (C : LzSource S) (s : LzStream I S) : LzStream I S :=
  if s.len ≤ s.pos then
    let answer := C.fetch s.source
    match answer.1 with
    | some b => { s with source := answer.2, block := some b, pos := 0, len := b.length }
    | none => { s with source := answer.2, block := none }
  else s

/-- `next_in` and `avail_in` -/
def input (s : LzStream I S) : LzRun (List UInt8) :=
  if s.len = s.pos then .done []
  else
    match s.block with
    | some b => .done ((b.drop s.pos).take ((s.len - s.pos) % 4294967296))
    | none => .undefined

/-- `lzstream_inflate_block` -/
def inflateBlock (C : LzSource S) (s : LzStream I S) : LzRun (LzStream I S) :=
  let s := s.fetchBlock C
  if s.block.isSome ∨ s.eos = false then
    s.input.bind fun input =>
      let call := I.inflate s.zstream input (lzBufferSize - s.output.length)
      match call.result with
      | .error code => .raises code
      | result =>
          let availIn := input.length - call.consumed
          let ended := result = .streamEnd
          .done
            { s with
              zstream := call.state
              source := if s.peek then C.skip s.source (s.len - s.pos - availIn) else s.source
              eos := if ended then true else s.eos
              block := if ended then none else s.block
              pos := s.len - availIn
              output := s.output ++ call.piece }
  else .done s

/-- `lzstream_remove` -/
def remove (s : LzStream I S) (n : ℕ) : LzStream I S := { s with output := s.output.drop n }

/-- The end of a line: a line feed or a carriage return. -/
def isBreak (b : UInt8) : Bool := b = 10 || b = 13

/-- A read with what it leaves on the Lua stack, and whether it succeeds. -/
abbrev Read (I : Inflater) (S : Type) := LzStream I S × List UInt8 × Bool

/-- The loop of `lz_read_line`; `line` is in the `luaL_Buffer`. -/
def lineLoop (C : LzSource S) : ℕ → LzStream I S → List UInt8 → LzRun (Read I S)
  | 0, _, _ => .running
  | fuel + 1, s, line =>
      match s.output.dropWhile (!isBreak ·) with
      | b :: _ =>
          let n := (s.output.takeWhile (!isBreak ·)).length
          let line := line ++ s.output.take n
          let s := s.remove (n + 1)
          if b = 13 then
            (s.inflateBlock C).bind fun s =>
              .done (if s.output.head? = some 10 then s.remove 1 else s, line, true)
          else .done (s, line, true)
      | [] =>
          let line := line ++ s.output
          ((s.remove s.output.length).inflateBlock C).bind fun s =>
            if 0 < s.output.length then lineLoop C fuel s line
            else .done (s, line, 0 < line.length || !s.eos || 0 < s.output.length)

/-- `lz_read_line` -/
def readLine (C : LzSource S) (fuel : ℕ) (s : LzStream I S) : LzRun (Read I S) :=
  if 0 < s.output.length ∨ s.eos = false then lineLoop C fuel s [] else .done (s, [], false)

/-- The loop of `lz_read_chars`. -/
def charsLoop (C : LzSource S) : ℕ → LzStream I S → ℕ → List UInt8 → LzRun (Read I S)
  | 0, _, _, _ => .running
  | fuel + 1, s, n, chars =>
      let rlen := min n s.output.length
      let chars := chars ++ s.output.take rlen
      let s := s.remove rlen
      if 0 < n - rlen then
        (s.inflateBlock C).bind fun s =>
          if 0 < s.output.length then charsLoop C fuel s (n - rlen) chars
          else .done (s, chars, 0 < chars.length)
      else .done (s, chars, true)

/-- `lz_read_chars` -/
def readChars (C : LzSource S) (fuel : ℕ) (s : LzStream I S) (n : ℕ) : LzRun (Read I S) :=
  if 0 < s.output.length ∨ s.eos = false then charsLoop C fuel s n [] else .done (s, [], n = 0)

/-- `lz_test_eof` -/
def testEof (C : LzSource S) (s : LzStream I S) : LzRun (Read I S) :=
  if 0 < s.output.length then .done (s, [], true)
  else if s.eos then .done (s, [], false)
  else (s.inflateBlock C).bind fun s => .done (s, [], 0 < s.output.length)

end LzStream

/-- An argument of `read`. -/
inductive ReadFormat
  | chars (n : ℕ)
  | line
  | all
  deriving DecidableEq, Repr

/-- `~((size_t)0)` -/
def maxSize : ℕ := 18446744073709551615

namespace LzStream

variable {I : Inflater} {S : Type}

/-- One argument of `read`. -/
def readOne (C : LzSource S) (fuel : ℕ) (s : LzStream I S) : ReadFormat → LzRun (Read I S)
  | .chars n => if n = 0 then s.testEof C else s.readChars C fuel n
  | .line => s.readLine C fuel
  | .all => (s.readChars C fuel maxSize).bind fun (s, chars, _) => .done (s, chars, true)

/-- The arguments of `read`, up to the first one that fails; `nil` is `none`. -/
def readArgs (C : LzSource S) (fuel : ℕ) :
    List ReadFormat → LzStream I S → LzRun (LzStream I S × List (Option (List UInt8)))
  | [], s => .done (s, [])
  | format :: formats, s =>
      (s.readOne C fuel format).bind fun (s, value, success) =>
        if success then
          (readArgs C fuel formats s).bind fun (s, values) => .done (s, some value :: values)
        else .done (s, [none])

/-- `z:read(..)`, which reads a line if it has no argument. -/
def read (C : LzSource S) (fuel : ℕ) (formats : List ReadFormat) (s : LzStream I S) :
    LzRun (LzStream I S × List (Option (List UInt8))) :=
  readArgs C fuel (if formats = [] then [.line] else formats) s

/-- One `read` after the other. -/
def reads (C : LzSource S) (fuel : ℕ) :
    List (List ReadFormat) → LzStream I S → LzRun (LzStream I S × List (List (Option (List UInt8))))
  | [], s => .done (s, [])
  | formats :: calls, s =>
      (s.read C fuel formats).bind fun (s, values) =>
        (reads C fuel calls s).bind fun (s, results) => .done (s, values :: results)

/-! ## What is still to come -/

/-- The bytes of the block that `inflate` has not taken. -/
def unread (s : LzStream I S) : List UInt8 := (s.block.getD []).drop s.pos

/-- **What holds between the calls**: `stream` is the rest of the compressed text, with `extra`
behind it, and `text` is what `inflate` has not emitted. -/
structure Inv (R : I.State → List UInt8 → List UInt8 → Prop) (rest : S → List UInt8)
    (extra : List UInt8) (s : LzStream I S) (stream text : List UInt8) : Prop where
  state : R s.zstream stream text
  output_le : s.output.length ≤ lzBufferSize
  pos_le : s.pos ≤ s.len
  block_len : ∀ b, s.block = some b → b.length = s.len ∧ s.len < 4294967296
  no_block : s.block = none → s.eos = true ∨ s.pos = s.len
  ended : s.eos = true → stream = [] ∧ text = []
  ahead : s.peek = false → s.eos = false → s.unread ++ rest s.source = stream ++ extra
  peeked : s.peek = true → rest s.source = stream ++ extra ∧ s.unread <+: rest s.source

variable {R : I.State → List UInt8 → List UInt8 → Prop} {C : LzSource S} {rest : S → List UInt8}
  {extra stream text : List UInt8} {s s' : LzStream I S} {t : List UInt8}

/-- A block that is fetched changes neither the buffer nor what is known of the end. -/
lemma fetchBlock_same (C : LzSource S) (s : LzStream I S) :
    (s.fetchBlock C).output = s.output ∧ (s.fetchBlock C).peek = s.peek
      ∧ (s.fetchBlock C).eos = s.eos := by
  rw [LzStream.fetchBlock]
  split_ifs
  · cases hblock : (C.fetch s.source).1 <;> simp [hblock]
  · exact ⟨rfl, rfl, rfl⟩

namespace Inv

/-- A used block has nothing left. -/
lemma unread_nil (h : s.Inv R rest extra stream text) (hpos : s.len ≤ s.pos) : s.unread = [] := by
  rw [unread]
  cases hblock : s.block with
  | none => exact List.drop_nil
  | some b =>
      have hlen := (h.block_len b hblock).1
      exact List.drop_eq_nil_of_le (by simp only [Option.getD_some]; omega)

lemma fetchBlock (hC : C.Gives s.peek rest) (h : s.Inv R rest extra stream text) :
    (s.fetchBlock C).Inv R rest extra stream text := by
  rw [LzStream.fetchBlock]
  split_ifs with hpos
  · have hnil := h.unread_nil hpos
    have hle := h.pos_le
    cases hblock : (C.fetch s.source).1 with
    | none =>
        simp only [hblock]
        refine ⟨h.state, h.output_le, h.pos_le, nofun, fun _ => Or.inr (by simp only; omega),
          h.ended, fun hpeek heos => ?_, fun hpeek => ?_⟩
        · have hreads := hC.reads hpeek s.source
          rw [hblock] at hreads
          rw [← h.ahead hpeek heos, hnil, hreads]
          simp [unread]
        · have hpeeks := hC.peeks hpeek s.source
          simp only [unread, Option.getD_none, List.drop_nil, List.nil_prefix, and_true]
          rw [hpeeks.2]
          exact (h.peeked hpeek).1
    | some b =>
        simp only [hblock]
        refine ⟨h.state, h.output_le, Nat.zero_le _, fun c hc => ?_, nofun, h.ended,
          fun hpeek heos => ?_, fun hpeek => ?_⟩
        · obtain rfl := Option.some.inj hc
          exact ⟨rfl, hC.size _ _ hblock⟩
        · have hreads := hC.reads hpeek s.source
          rw [hblock] at hreads
          rw [← h.ahead hpeek heos, hnil, hreads]
          simp [unread]
        · have hpeeks := hC.peeks hpeek s.source
          rw [hblock] at hpeeks
          simp only [unread, Option.getD_some, List.drop_zero] at hpeeks ⊢
          rw [hpeeks.2]
          exact ⟨(h.peeked hpeek).1, hpeeks.1⟩
  · exact h

/-- `inflate` is given the rest of the block. -/
lemma input (h : s.Inv R rest extra stream text) (hnone : s.block = none → s.pos = s.len) :
    s.input = .done s.unread := by
  rw [LzStream.input, unread]
  have hle := h.pos_le
  cases hblock : s.block with
  | none => rw [if_pos (hnone hblock).symm, Option.getD_none, List.drop_nil]
  | some b =>
      obtain ⟨hlen, hlt⟩ := h.block_len b hblock
      split_ifs with hpos
      · rw [Option.getD_some, List.drop_eq_nil_of_le (by omega)]
      · have hlength : (b.drop s.pos).length = s.len - s.pos := by rw [List.length_drop, hlen]
        have hmod : (s.len - s.pos) % 4294967296 = (b.drop s.pos).length := by
          rw [hlength, Nat.mod_eq_of_lt (by omega)]
        simp only [hmod, Option.getD_some, List.take_length]

/-- The input is the beginning of what is left, with what is behind it. -/
lemma unread_prefix (h : s.Inv R rest extra stream text) :
    ∃ behind, s.unread <+: stream ++ behind := by
  cases heos : s.eos with
  | true => exact ⟨s.unread, by simp [(h.ended heos).1]⟩
  | false =>
      refine ⟨extra, ?_⟩
      cases hpeek : s.peek with
      | false => exact ⟨_, h.ahead hpeek heos⟩
      | true =>
          obtain ⟨hrest, hpre⟩ := h.peeked hpeek
          rwa [hrest] at hpre

/-- The block holds what is left of it. -/
lemma unread_length (h : s.Inv R rest extra stream text) (hnone : s.block = none → s.pos = s.len) :
    s.unread.length = s.len - s.pos := by
  cases hblock : s.block with
  | none =>
      have hfull := hnone hblock
      rw [h.unread_nil (Nat.le_of_eq hfull.symm), List.length_nil]
      omega
  | some b => rw [unread, hblock, Option.getD_some, List.length_drop, (h.block_len b hblock).1]

/-- What `inflate` leaves behind. -/
def afterCall (C : LzSource S) (s : LzStream I S) (call : InflateCall I.State) : LzStream I S :=
  let availIn := s.unread.length - call.consumed
  { s with
    zstream := call.state
    source := if s.peek then C.skip s.source (s.len - s.pos - availIn) else s.source
    eos := if call.result = .streamEnd then true else s.eos
    block := if call.result = .streamEnd then none else s.block
    pos := s.len - availIn
    output := s.output ++ call.piece }

lemma afterCall_inv {room : ℕ} {call : InflateCall I.State} (hC : C.Gives s.peek rest)
    (h : s.Inv R rest extra stream text) (hnone : s.block = none → s.pos = s.len)
    (hroom : room = lzBufferSize - s.output.length)
    (hcall : call.Keeps R stream text s.unread room) :
    (afterCall C s call).Inv R rest extra (stream.drop call.consumed)
      (text.drop call.piece.length) := by
  have hle := h.pos_le
  have hout := h.output_le
  have hfits := hcall.fits
  have hin := hcall.consumed_le
  have hlength := h.unread_length hnone
  have hpos : s.len - (s.unread.length - call.consumed) = s.pos + call.consumed := by omega
  have hskip : s.len - s.pos - (s.unread.length - call.consumed) = call.consumed := by omega
  have hunread : call.result ≠ .streamEnd →
      (afterCall C s call).unread = s.unread.drop call.consumed := by
    intro hgoes
    simp only [unread, afterCall, if_neg hgoes, List.drop_drop]
    rw [← unread, hpos]
  refine ⟨hcall.rest, ?_, Nat.sub_le _ _, fun b hb => ?_, fun hb => ?_, fun heos => ?_,
    fun hpeek heos => ?_, fun hpeek => ?_⟩
  · simp only [afterCall, List.length_append]
    omega
  · simp only [afterCall] at hb
    split_ifs at hb
    exact h.block_len b hb
  · simp only [afterCall] at hb ⊢
    split_ifs at hb ⊢ with hend
    · exact Or.inl rfl
    · have hfull := hnone hb
      exact Or.inr (by omega)
  · simp only [afterCall] at heos
    split_ifs at heos with hend
    · exact hcall.ends.mp hend
    · obtain ⟨hstream, htext⟩ := h.ended heos
      rw [hstream, htext, List.drop_nil, List.drop_nil]
      exact ⟨rfl, rfl⟩
  · simp only [afterCall] at hpeek heos
    split_ifs at heos with hend
    have hahead := congrArg (List.drop call.consumed) (h.ahead hpeek heos)
    rw [List.drop_append_of_le_length hin,
      List.drop_append_of_le_length hcall.consumed_stream] at hahead
    rw [hunread hend]
    simpa [afterCall, hpeek] using hahead
  · simp only [afterCall] at hpeek
    obtain ⟨hrest, hpre⟩ := h.peeked hpeek
    have hsource : rest (afterCall C s call).source = (rest s.source).drop call.consumed := by
      simp only [afterCall, hpeek, if_true, hskip]
      exact hC.skips hpeek _ _
    rw [hsource]
    constructor
    · rw [hrest, List.drop_append_of_le_length hcall.consumed_stream]
    · by_cases hend : call.result = .streamEnd
      · simp [unread, afterCall, hend]
      · rw [hunread hend]
        obtain ⟨behind, hbehind⟩ := hpre
        rw [← hbehind, List.drop_append_of_le_length hin]
        exact List.prefix_append _ _

/-- **One call of `lzstream_inflate_block`**: a piece of the text moves into the buffer.  Where the
whole compressed text is in the block, the buffer stays empty at the end of the text only. -/
lemma inflateBlock (hI : I.Decodes R) (hC : C.Gives s.peek rest)
    (h : s.Inv R rest extra stream text) :
    ∃ s' stream' piece, s.inflateBlock C = .done s' ∧ s'.output = s.output ++ piece
      ∧ piece <+: text ∧ s'.Inv R rest extra stream' (text.drop piece.length) ∧ s'.peek = s.peek
      ∧ (s.peek = false → (∀ src, rest src = []) → s.output.length < lzBufferSize →
        s'.output = [] → s'.eos = true) := by
  obtain ⟨s₀, hs₀⟩ : ∃ s₀, s.fetchBlock C = s₀ := ⟨_, rfl⟩
  have h₀ := h.fetchBlock hC
  obtain ⟨hout, hpeek, hsome⟩ := fetchBlock_same C s
  rw [hs₀] at h₀ hout hpeek hsome
  rw [LzStream.inflateBlock]
  simp only [hs₀]
  by_cases hcall : s₀.block.isSome ∨ s₀.eos = false
  · rw [if_pos hcall]
    have hnone : s₀.block = none → s₀.pos = s₀.len := by
      intro hblock
      rcases h₀.no_block hblock with heos | hpos
      · simp [hblock, heos] at hcall
      · exact hpos
    obtain ⟨behind, hbehind⟩ := h₀.unread_prefix
    have hkeeps := hI _ _ _ _ _ (lzBufferSize - s₀.output.length) h₀.state hbehind
    obtain ⟨call, hinflate⟩ : ∃ call,
      I.inflate s₀.zstream s₀.unread (lzBufferSize - s₀.output.length) = call := ⟨_, rfl⟩
    rw [hinflate] at hkeeps
    have hinv := afterCall_inv (hpeek ▸ hC) h₀ hnone rfl hkeeps
    refine ⟨afterCall C s₀ call, _, call.piece, ?_, by rw [← hout]; rfl, hkeeps.emits, hinv, hpeek,
      fun hread hwhole hroom hempty => ?_⟩
    · rw [h₀.input hnone, LzRun.done_bind, hinflate]
      cases hresult : call.result with
      | error code => exact absurd hresult (hkeeps.noError code)
      | _ => simp only [afterCall, hresult]
    · have hpiece : call.piece = [] := (List.append_eq_nil_iff.mp hempty).2
      have hzero : call.piece.length = 0 := by rw [hpiece, List.length_nil]
      rcases hkeeps.full with hend | hfull | ⟨hmore, hused⟩
      · simp [afterCall, hend]
      · rw [← hout] at hroom
        omega
      · -- what is left of the compressed text was in the input
        cases heos : s₀.eos with
        | true => simp [afterCall, heos]
        | false =>
            have hahead := h₀.ahead (hpeek.trans hread) heos
            rw [hwhole, List.append_nil] at hahead
            have hlength := congrArg List.length hahead
            rw [List.length_append] at hlength
            exact absurd (List.drop_eq_nil_of_le (by omega)) hmore
  · rw [if_neg hcall]
    simp only [not_or, Bool.not_eq_false] at hcall
    refine ⟨s₀, stream, [], rfl, by rw [hout, List.append_nil], List.nil_prefix, h₀, hpeek,
      fun _ _ _ _ => hcall.2⟩

end Inv

/-- The stream object still has `t` to hand out. -/
def Has (R : I.State → List UInt8 → List UInt8 → Prop) (rest : S → List UInt8)
    (extra : List UInt8) (s : LzStream I S) (t : List UInt8) : Prop :=
  ∃ stream text, s.Inv R rest extra stream text ∧ s.output ++ text = t

/-- The source is a string: what it has is in the block. -/
def Whole (rest : S → List UInt8) (s : LzStream I S) : Prop :=
  s.peek = false ∧ ∀ src, rest src = []

lemma Has.remove (h : s.Has R rest extra t) {n : ℕ} (hn : n ≤ s.output.length) :
    (s.remove n).Has R rest extra (t.drop n) := by
  obtain ⟨stream, text, hinv, rfl⟩ := h
  refine ⟨stream, text, ⟨hinv.state, ?_, hinv.pos_le, hinv.block_len, hinv.no_block, hinv.ended,
    hinv.ahead, hinv.peeked⟩, (List.drop_append_of_le_length hn).symm⟩
  have hle := hinv.output_le
  simp only [LzStream.remove, List.length_drop]
  omega

lemma Has.inflateBlock (hI : I.Decodes R) (hC : C.Gives s.peek rest) (h : s.Has R rest extra t) :
    ∃ s', s.inflateBlock C = .done s' ∧ s'.Has R rest extra t ∧ s'.peek = s.peek
      ∧ (s.Whole rest → s.output.length < lzBufferSize → s'.output = [] → s'.eos = true) := by
  obtain ⟨stream, text, hinv, rfl⟩ := h
  obtain ⟨s', stream', piece, hrun, hout, hpre, hinv', hpeek, hwhole⟩ := hinv.inflateBlock hI hC
  refine ⟨s', hrun, ⟨stream', _, hinv', ?_⟩, hpeek, fun hw => hwhole hw.1 hw.2⟩
  obtain ⟨behind, rfl⟩ := hpre
  rw [hout, List.drop_left, List.append_assoc]

/-- At its end there is nothing left but the buffer. -/
lemma Has.eos (h : s.Has R rest extra t) (heos : s.eos = true) : t = s.output := by
  obtain ⟨stream, text, hinv, rfl⟩ := h
  rw [(hinv.ended heos).2, List.append_nil]

lemma Has.output_prefix (h : s.Has R rest extra t) : s.output <+: t := by
  obtain ⟨stream, text, -, rfl⟩ := h
  exact List.prefix_append _ _

lemma Has.output_le (h : s.Has R rest extra t) : s.output.length ≤ lzBufferSize := by
  obtain ⟨stream, text, hinv, -⟩ := h
  exact hinv.output_le

end LzStream

/-! ## Reading a text -/

/-- The end of a line is one letter, or a carriage return and a line feed. -/
def dropBreak : List UInt8 → List UInt8
  | 13 :: 10 :: t => t
  | _ :: t => t
  | [] => []

/-- A read of a text, and what it leaves: `nil` is `none`. -/
def textRead : ReadFormat → List UInt8 → Option (List UInt8) × List UInt8
  | .chars n, t => if t = [] then (none, []) else (some (t.take n), t.drop n)
  | .line, t =>
      if t = [] then (none, [])
      else (some (t.takeWhile (!LzStream.isBreak ·)), dropBreak (t.dropWhile (!LzStream.isBreak ·)))
  | .all, t => (some (t.take maxSize), t.drop maxSize)

/-- The letters that end a line. -/
def LineEnd (w : List UInt8) : Prop := w = [] ∨ w = [10] ∨ w = [13] ∨ w = [13, 10]

namespace LzStream

variable {I : Inflater} {S : Type} {R : I.State → List UInt8 → List UInt8 → Prop} {C : LzSource S}
  {rest : S → List UInt8} {extra : List UInt8} {s s' : LzStream I S} {t : List UInt8}

lemma dropBreak_cons {b : UInt8} (hb : b ≠ 13) (u : List UInt8) : dropBreak (b :: u) = u := by
  rw [dropBreak]
  rintro v rfl
  exact absurd rfl hb

lemma dropBreak_return (u : List UInt8) :
    dropBreak (13 :: u) = if u.head? = some 10 then u.drop 1 else u := by
  cases u with
  | nil => rfl
  | cons b u =>
      by_cases hb : b = 10
      · subst hb
        rfl
      · rw [if_neg (by simpa using hb), dropBreak]
        rintro v - hv
        exact hb (List.cons.inj hv).1

/-- The first letter in the buffer is the first one that is left. -/
lemma Has.head? (h : s.Has R rest extra t) (hempty : s.output = [] → t = []) :
    s.output.head? = t.head? := by
  obtain ⟨behind, rfl⟩ := h.output_prefix
  cases hout : s.output with
  | nil =>
      have hnil := hempty hout
      rw [hout] at hnil
      rw [hnil]
  | cons b more => rfl

section Lines

variable {pre : List UInt8} {b : UInt8}

lemma takeWhile_line (hpre : ∀ c ∈ pre, isBreak c = false) (u : List UInt8) :
    (pre ++ u).takeWhile (!isBreak ·) = pre ++ u.takeWhile (!isBreak ·) :=
  List.takeWhile_append_of_pos fun c hc => by simp [hpre c hc]

lemma dropWhile_line (hpre : ∀ c ∈ pre, isBreak c = false) (u : List UInt8) :
    (pre ++ u).dropWhile (!isBreak ·) = u.dropWhile (!isBreak ·) :=
  List.dropWhile_append_of_pos fun c hc => by simp [hpre c hc]

/-- A text is a line without its end, or it has one. -/
lemma line_or_break (l : List UInt8) : (∀ c ∈ l, isBreak c = false)
    ∨ ∃ pre b more, l = pre ++ b :: more ∧ (∀ c ∈ pre, isBreak c = false) ∧ isBreak b = true := by
  induction l with
  | nil => exact Or.inl nofun
  | cons a l ih =>
      cases ha : isBreak a with
      | true => exact Or.inr ⟨[], a, l, rfl, nofun, ha⟩
      | false =>
          rcases ih with hall | ⟨pre, b, more, rfl, hpre, hb⟩
          · exact Or.inl (List.forall_mem_cons.mpr ⟨ha, hall⟩)
          · exact Or.inr ⟨a :: pre, b, more, rfl, List.forall_mem_cons.mpr ⟨ha, hpre⟩, hb⟩

end Lines

/-- The line in the buffer is complete. -/
lemma lineLoop_break (hI : I.Decodes R) (fuel : ℕ) (line : List UInt8) {pre more : List UInt8}
    {b : UInt8} (hC : C.Gives s.peek rest) (h : s.Has R rest extra t)
    (hout : s.output = pre ++ b :: more) (hpre : ∀ c ∈ pre, isBreak c = false)
    (hb : isBreak b = true) :
    ∃ s' w t', lineLoop C (fuel + 1) s line = .done (s', line ++ pre, true)
      ∧ s'.Has R rest extra t' ∧ s'.peek = s.peek ∧ t = pre ++ (w ++ t') ∧ LineEnd w
      ∧ (s.Whole rest → t' = dropBreak (t.dropWhile (!isBreak ·))) := by
  have htake : s.output.takeWhile (!isBreak ·) = pre := by
    rw [hout, takeWhile_line hpre, List.takeWhile_cons, hb]
    simp
  have hdrop : s.output.dropWhile (!isBreak ·) = b :: more := by
    rw [hout, dropWhile_line hpre, List.dropWhile_cons, hb]
    simp
  obtain ⟨behind, rfl⟩ := h.output_prefix
  have hremove := h.remove (n := pre.length + 1) (by rw [hout]; simp)
  have hleft : (s.output ++ behind).drop (pre.length + 1) = more ++ behind := by
    rw [hout]
    simp [List.drop_append]
  rw [hleft] at hremove
  have htext : (s.output ++ behind).dropWhile (!isBreak ·) = b :: (more ++ behind) := by
    rw [hout, List.append_assoc, dropWhile_line hpre, List.cons_append, List.dropWhile_cons, hb]
    simp
  have hsplit : s.output ++ behind = pre ++ b :: (more ++ behind) := by
    rw [hout, List.append_assoc, List.cons_append]
  have hline : s.output.take pre.length = pre := by rw [hout, List.take_left]
  have hstep : lineLoop C (fuel + 1) s line
      = if b = 13 then ((s.remove (pre.length + 1)).inflateBlock C).bind fun s =>
          .done (if s.output.head? = some 10 then s.remove 1 else s, line ++ pre, true)
        else .done (s.remove (pre.length + 1), line ++ pre, true) := by
    rw [lineLoop, hdrop]
    simp only [htake, hline]
  rw [hstep]
  by_cases hreturn : b = 13
  · subst hreturn
    have hCr : C.Gives (s.remove (pre.length + 1)).peek rest := hC
    obtain ⟨s', hrun, hhas, hpeek, hwhole⟩ := hremove.inflateBlock hI hCr
    have hroom : (s.remove (pre.length + 1)).output.length < lzBufferSize := by
      have hle := h.output_le
      simp only [LzStream.remove, List.length_drop, hout, List.length_append,
        List.length_cons] at hle ⊢
      omega
    rw [if_pos rfl, hrun, LzRun.done_bind]
    -- a line feed that is already in the buffer belongs to the line
    by_cases hfeed : s'.output.head? = some 10
    · obtain ⟨u, hu⟩ : ∃ u, s'.output = 10 :: u := by
        cases hs' : s'.output with
        | nil => simp [hs'] at hfeed
        | cons c u => exact ⟨u, by simpa [hs'] using hfeed⟩
      obtain ⟨v, hv⟩ := hhas.output_prefix
      rw [hu, List.cons_append] at hv
      have hhas' := hhas.remove (n := 1) (by rw [hu]; simp)
      rw [← hv, List.drop_succ_cons, List.drop_zero] at hhas'
      rw [if_pos hfeed]
      refine ⟨_, [13, 10], _, rfl, hhas', hpeek, ?_, Or.inr (Or.inr (Or.inr rfl)), fun _ => ?_⟩
      · rw [hsplit, ← hv]
        rfl
      · rw [htext, ← hv]
        rfl
    · rw [if_neg hfeed]
      refine ⟨s', [13], more ++ behind, rfl, hhas, hpeek, hsplit, Or.inr (Or.inr (Or.inl rfl)),
        fun hw => ?_⟩
      have hhead := hhas.head? fun hempty => by
        rw [hhas.eos (hwhole hw hroom hempty), hempty]
      rw [htext, dropBreak_return, ← hhead, if_neg hfeed]
  · rw [if_neg hreturn]
    refine ⟨_, [b], _, rfl, hremove, rfl, hsplit, ?_, fun _ => ?_⟩
    · have hfeed : b = 10 := by
        simpa [isBreak, hreturn] using hb
      rw [hfeed]
      exact Or.inr (Or.inl rfl)
    · rw [htext, dropBreak_cons hreturn]

/-- A read has taken the whole buffer, and the next block is inflated: where nothing comes, a source
that has been given whole is at its end. -/
lemma Has.refill {behind : List UInt8} (hI : I.Decodes R) (hC : C.Gives s.peek rest)
    (h : s.Has R rest extra (s.output ++ behind)) :
    ∃ s', (s.remove s.output.length).inflateBlock C = .done s' ∧ s'.Has R rest extra behind
      ∧ s'.peek = s.peek
      ∧ (s.Whole rest → s'.output = [] → s'.eos = true ∧ behind = []) := by
  have hremove := h.remove (Nat.le_refl s.output.length)
  rw [List.drop_left] at hremove
  have hCr : C.Gives (s.remove s.output.length).peek rest := hC
  obtain ⟨s', hrun, hhas, hpeek, hwhole⟩ := hremove.inflateBlock hI hCr
  refine ⟨s', hrun, hhas, hpeek, fun hw hempty => ?_⟩
  have heos := hwhole hw (by simp [LzStream.remove, lzBufferSize]) hempty
  exact ⟨heos, by rw [hhas.eos heos, hempty]⟩

/-- A loop that goes on with letters in its buffer has less to do. -/
lemma refill_less {fuel : ℕ} {behind : List UInt8} (hmore : 0 < s'.output.length)
    (hfuel : (s.output ++ behind).length + (if s.output = [] then 1 else 0) < fuel + 1) :
    behind.length + (if s'.output = [] then 1 else 0) < fuel := by
  rw [List.length_append] at hfuel
  rw [if_neg (List.ne_nil_of_length_pos hmore)]
  split_ifs at hfuel with hempty
  · omega
  · have hpos := List.length_pos_iff.mpr hempty
    omega

/-- **The loop of `lz_read_line`.**  Induction on the fuel: what is left gets shorter. -/
lemma lineLoop_spec (hI : I.Decodes R) {fuel : ℕ} {line : List UInt8} (hC : C.Gives s.peek rest)
    (h : s.Has R rest extra t) (hfuel : t.length + (if s.output = [] then 1 else 0) < fuel) :
    ∃ s' r w t' success, lineLoop C fuel s line = .done (s', line ++ r, success)
      ∧ s'.Has R rest extra t' ∧ s'.peek = s.peek ∧ t = r ++ (w ++ t') ∧ LineEnd w
      ∧ (∀ b ∈ r, isBreak b = false) ∧ (success = false → line ++ t = [])
      ∧ (s.Whole rest → r = t.takeWhile (!isBreak ·) ∧ t' = dropBreak (t.dropWhile (!isBreak ·))
        ∧ success = decide (0 < (line ++ t).length)) := by
  induction fuel generalizing s t line with
  | zero => exact absurd hfuel (Nat.not_lt_zero _)
  | succ fuel ih =>
      rcases line_or_break s.output with hnone | ⟨pre, b, more, hout, hpre, hb⟩
      · obtain ⟨behind, rfl⟩ := h.output_prefix
        have hdrop : s.output.dropWhile (!isBreak ·) = [] :=
          List.dropWhile_eq_nil_iff.mpr fun c hc => by simp [hnone c hc]
        obtain ⟨s', hrun, hhas, hpeek, hwhole⟩ := h.refill hI hC
        rw [lineLoop, hdrop]
        simp only [hrun, LzRun.done_bind]
        by_cases hmore : 0 < s'.output.length
        · rw [if_pos hmore]
          obtain ⟨s'', r, w, t', success, hrun', hhas', hpeek', hsplit, hend, hline, hfail,
            hspec⟩ := @ih s' behind (line ++ s.output) (hpeek ▸ hC) hhas (refill_less hmore hfuel)
          refine ⟨s'', s.output ++ r, w, t', success, by rw [hrun', List.append_assoc], hhas',
            hpeek'.trans hpeek, by rw [hsplit, List.append_assoc], hend, ?_, ?_, fun hw => ?_⟩
          · intro b hb
            rcases List.mem_append.mp hb with hb | hb
            · exact hnone b hb
            · exact hline b hb
          · simpa only [List.append_assoc] using hfail
          · obtain ⟨hr, ht', hsuccess⟩ := hspec ⟨hpeek.trans hw.1, hw.2⟩
            rw [takeWhile_line hnone, dropWhile_line hnone, ← hr, ← List.append_assoc]
            exact ⟨rfl, ht', hsuccess⟩
        · rw [if_neg hmore]
          have hempty : s'.output = [] := by simpa using hmore
          refine ⟨s', s.output, [], behind, _, rfl, hhas, hpeek, rfl, Or.inl rfl, hnone,
            fun hfail => ?_, fun hw => ?_⟩
          · simp only [Bool.or_eq_false_iff, Bool.not_eq_false', decide_eq_false_iff_not,
              List.length_pos_iff, not_not] at hfail
            rw [hhas.eos hfail.1.2, hempty, List.append_nil]
            exact hfail.1.1
          obtain ⟨heos, rfl⟩ := hwhole hw hempty
          rw [List.append_nil, hdrop, List.takeWhile_eq_self_iff.mpr]
          · refine ⟨rfl, rfl, ?_⟩
            simp [heos, hempty]
          · intro c hc
            simp [hnone c hc]
      · obtain ⟨s', w, t', hrun, hhas, hpeek, hsplit, hend, hwhole⟩ :=
          lineLoop_break hI fuel line hC h hout hpre hb
        obtain ⟨behind, rfl⟩ := h.output_prefix
        refine ⟨s', pre, w, t', true, hrun, hhas, hpeek, hsplit, hend, hpre, nofun, fun hw => ?_⟩
        refine ⟨?_, hwhole hw, ?_⟩
        · rw [hout, List.append_assoc, takeWhile_line hpre, List.cons_append, List.takeWhile_cons,
            hb]
          simp
        · refine (decide_eq_true ?_).symm
          simp only [hout, List.length_append, List.length_cons]
          omega

/-- **The loop of `lz_read_chars`.** -/
lemma charsLoop_spec (hI : I.Decodes R) {fuel n : ℕ} {chars : List UInt8}
    (hC : C.Gives s.peek rest) (h : s.Has R rest extra t) (hn : 0 < n)
    (hfuel : t.length + (if s.output = [] then 1 else 0) < fuel) :
    ∃ s' r t' success, charsLoop C fuel s n chars = .done (s', chars ++ r, success)
      ∧ s'.Has R rest extra t' ∧ s'.peek = s.peek ∧ t = r ++ t' ∧ r.length ≤ n
      ∧ (success = false → chars ++ r = [])
      ∧ (s.Whole rest → r = t.take n ∧ success = decide (0 < (chars ++ t).length)) := by
  induction fuel generalizing s t n chars with
  | zero => exact absurd hfuel (Nat.not_lt_zero _)
  | succ fuel ih =>
      obtain ⟨behind, rfl⟩ := h.output_prefix
      rw [charsLoop]
      rcases Nat.lt_or_ge s.output.length n with hshort | hlong
      · have hmin : min n s.output.length = s.output.length := Nat.min_eq_right (by omega)
        obtain ⟨s', hrun, hhas, hpeek, hwhole⟩ := h.refill hI hC
        simp only [hmin, List.take_length, if_pos (show 0 < n - s.output.length by omega), hrun,
          LzRun.done_bind]
        by_cases hmore : 0 < s'.output.length
        · rw [if_pos hmore]
          obtain ⟨s'', r, t', success, hrun', hhas', hpeek', hsplit, hle, hfail, hspec⟩ :=
            @ih s' behind (n - s.output.length) (chars ++ s.output) (hpeek ▸ hC) hhas (by omega)
              (refill_less hmore hfuel)
          refine ⟨s'', s.output ++ r, t', success, by rw [hrun', List.append_assoc], hhas',
            hpeek'.trans hpeek, by rw [hsplit, List.append_assoc], ?_, ?_, fun hw => ?_⟩
          · rw [List.length_append]
            omega
          · simpa only [List.append_assoc] using hfail
          · obtain ⟨hr, hsuccess⟩ := hspec ⟨hpeek.trans hw.1, hw.2⟩
            rw [List.take_append, List.take_of_length_le (by omega), ← hr, ← List.append_assoc]
            exact ⟨rfl, hsuccess⟩
        · rw [if_neg hmore]
          have hempty : s'.output = [] := by simpa using hmore
          refine ⟨s', s.output, behind, _, rfl, hhas, hpeek, rfl, by omega, ?_, fun hw => ?_⟩
          · simp
          · obtain ⟨-, rfl⟩ := hwhole hw hempty
            rw [List.append_nil, List.take_of_length_le (by omega)]
            exact ⟨rfl, rfl⟩
      · have hmin : min n s.output.length = n := Nat.min_eq_left hlong
        have hremove := h.remove hlong
        simp only [hmin, Nat.sub_self, Nat.lt_irrefl, if_false]
        refine ⟨s.remove n, s.output.take n, (s.output ++ behind).drop n, true, rfl, hremove, rfl,
          ?_, ?_, nofun, fun _ => ⟨?_, ?_⟩⟩
        · rw [List.drop_append_of_le_length hlong, ← List.append_assoc, List.take_append_drop]
        · rw [List.length_take]
          omega
        · rw [List.take_append_of_le_length hlong]
        · simp only [List.length_append]
          exact (decide_eq_true (by omega)).symm

end LzStream

/-! ## Whole reads -/

/-- What a read may take from a text, from a source whose blocks may come at any time: the text goes
on where the read has stopped, and only the end of the text is no line. -/
def TakesOne : ReadFormat → List UInt8 → Option (List UInt8) → List UInt8 → Prop
  | .chars _, t, none, t' => t = t'
  | .line, t, none, t' => t = [] ∧ t' = []
  | .all, _, none, _ => False
  | .chars n, t, some v, t' => t = v ++ t' ∧ v.length ≤ n
  | .line, t, some v, t' =>
      (∀ b ∈ v, LzStream.isBreak b = false) ∧ ∃ w, LineEnd w ∧ t = v ++ (w ++ t')
  | .all, t, some v, t' => t = v ++ t' ∧ v.length ≤ maxSize

/-- The arguments of a read, up to the first one that fails. -/
inductive TakesArgs : List ReadFormat → List UInt8 → List (Option (List UInt8)) → List UInt8 → Prop
  | nil (t : List UInt8) : TakesArgs [] t [] t
  | fails {format : ReadFormat} {formats : List ReadFormat} {t t' : List UInt8}
      (h : TakesOne format t none t') : TakesArgs (format :: formats) t [none] t'
  | cons {format : ReadFormat} {formats : List ReadFormat} {t t' t'' v : List UInt8}
      {values : List (Option (List UInt8))} (h : TakesOne format t (some v) t')
      (hrest : TakesArgs formats t' values t'') :
      TakesArgs (format :: formats) t (some v :: values) t''

/-- One read after the other. -/
inductive TakesReads : List (List ReadFormat) → List UInt8 → List (List (Option (List UInt8))) →
    List UInt8 → Prop
  | nil (t : List UInt8) : TakesReads [] t [] t
  | cons {formats : List ReadFormat} {calls : List (List ReadFormat)} {t t' t'' : List UInt8}
      {values : List (Option (List UInt8))} {results : List (List (Option (List UInt8)))}
      (h : TakesArgs (if formats = [] then [.line] else formats) t values t')
      (hrest : TakesReads calls t' results t'') :
      TakesReads (formats :: calls) t (values :: results) t''

/-- The arguments of a read of a text. -/
def textArgs : List ReadFormat → List UInt8 → List (Option (List UInt8)) × List UInt8
  | [], t => ([], t)
  | format :: formats, t =>
      match textRead format t with
      | (none, t) => ([none], t)
      | (some v, t) =>
          let (values, t) := textArgs formats t
          (some v :: values, t)

/-- One read of a text after the other. -/
def textReads : List (List ReadFormat) → List UInt8 → List (List (Option (List UInt8))) × List UInt8
  | [], t => ([], t)
  | formats :: calls, t =>
      let (values, t) := textArgs (if formats = [] then [.line] else formats) t
      let (results, t) := textReads calls t
      (values :: results, t)

namespace LzStream

variable {I : Inflater} {S : Type} {R : I.State → List UInt8 → List UInt8 → Prop} {C : LzSource S}
  {rest : S → List UInt8} {extra : List UInt8} {s s' : LzStream I S} {t : List UInt8} {fuel : ℕ}

lemma fuel_ok (h : t.length + 1 < fuel) : t.length + (if s.output = [] then 1 else 0) < fuel := by
  split_ifs <;> omega

/-- Nothing in the buffer at the end of the stream: nothing is left. -/
lemma Has.nil (h : s.Has R rest extra t) (hno : ¬ (0 < s.output.length ∨ s.eos = false)) :
    t = [] := by
  simp only [not_or, Nat.not_lt, Nat.le_zero, List.length_eq_zero_iff, Bool.not_eq_false] at hno
  rw [h.eos hno.2, hno.1]

lemma readLine_spec (hI : I.Decodes R) (hC : C.Gives s.peek rest) (h : s.Has R rest extra t)
    (hfuel : t.length + 1 < fuel) :
    ∃ s' v t' success, s.readLine C fuel = .done (s', v, success) ∧ s'.Has R rest extra t'
      ∧ s'.peek = s.peek ∧ TakesOne .line t (if success then some v else none) t'
      ∧ (s.Whole rest → textRead .line t = (if success then some v else none, t')) := by
  rw [readLine]
  by_cases hmore : 0 < s.output.length ∨ s.eos = false
  · rw [if_pos hmore]
    obtain ⟨s', r, w, t', success, hrun, hhas, hpeek, hsplit, hend, hline, hfail, hspec⟩ :=
      @lineLoop_spec _ _ _ _ _ _ s t hI fuel [] hC h (fuel_ok hfuel)
    refine ⟨s', r, t', success, hrun, hhas, hpeek, ?_, fun hw => ?_⟩
    · cases success with
      | true => exact ⟨hline, w, hend, hsplit⟩
      | false =>
          obtain rfl : t = [] := hfail rfl
          have hnil := (List.append_eq_nil_iff.mp hsplit.symm).2
          exact ⟨rfl, (List.append_eq_nil_iff.mp hnil).2⟩
    · obtain ⟨hr, ht', hsuccess⟩ := hspec hw
      rw [textRead, ← hr, ← ht', hsuccess, List.nil_append]
      by_cases ht : t = []
      · subst ht
        simp [ht', dropBreak]
      · rw [if_neg ht]
        simp [List.length_pos_iff, ht]
  · rw [if_neg hmore]
    obtain rfl := h.nil hmore
    exact ⟨s, [], [], false, rfl, h, rfl, ⟨rfl, rfl⟩, fun _ => rfl⟩

lemma readChars_spec (hI : I.Decodes R) (hC : C.Gives s.peek rest) (h : s.Has R rest extra t)
    (hfuel : t.length + 1 < fuel) {n : ℕ} (hn : 0 < n) :
    ∃ s' v t' success, s.readChars C fuel n = .done (s', v, success) ∧ s'.Has R rest extra t'
      ∧ s'.peek = s.peek ∧ t = v ++ t' ∧ v.length ≤ n ∧ (success = false → v = [])
      ∧ (s.Whole rest → v = t.take n ∧ success = decide (0 < t.length)) := by
  rw [readChars]
  by_cases hmore : 0 < s.output.length ∨ s.eos = false
  · rw [if_pos hmore]
    exact @charsLoop_spec _ _ _ _ _ _ s t hI fuel n [] hC h hn (fuel_ok hfuel)
  · rw [if_neg hmore]
    obtain rfl := h.nil hmore
    refine ⟨s, [], [], _, rfl, h, rfl, rfl, Nat.zero_le _, fun _ => rfl, fun _ => ?_⟩
    simp only [List.take_nil, List.length_nil, Nat.lt_irrefl, decide_false, true_and]
    exact decide_eq_false (by omega)

lemma testEof_spec (hI : I.Decodes R) (hC : C.Gives s.peek rest) (h : s.Has R rest extra t) :
    ∃ s' success, s.testEof C = .done (s', [], success) ∧ s'.Has R rest extra t
      ∧ s'.peek = s.peek ∧ (s.Whole rest → success = decide (t ≠ [])) := by
  rw [testEof]
  by_cases hout : 0 < s.output.length
  · rw [if_pos hout]
    refine ⟨s, true, rfl, h, rfl, fun _ => ?_⟩
    obtain ⟨behind, rfl⟩ := h.output_prefix
    simp [List.length_pos_iff.mp hout]
  · rw [if_neg hout]
    cases heos : s.eos with
    | true =>
        obtain rfl := h.nil (by simp [heos, hout])
        exact ⟨s, false, rfl, h, rfl, fun _ => rfl⟩
    | false =>
        obtain ⟨s', hrun, hhas, hpeek, hwhole⟩ := h.inflateBlock hI hC
        refine ⟨s', _, by rw [hrun]; rfl, hhas, hpeek, fun hw => ?_⟩
        obtain ⟨behind, rfl⟩ := hhas.output_prefix
        by_cases hempty : s'.output = []
        · have heos' := hwhole hw (by simp [lzBufferSize]; omega) hempty
          rw [hhas.eos heos', hempty]
          rfl
        · simp [List.length_pos_iff, hempty]

/-- One argument of `read`. -/
lemma readOne_spec (hI : I.Decodes R) (hC : C.Gives s.peek rest) (h : s.Has R rest extra t)
    (hfuel : t.length + 1 < fuel) (format : ReadFormat) :
    ∃ s' v t' success, s.readOne C fuel format = .done (s', v, success)
      ∧ s'.Has R rest extra t' ∧ s'.peek = s.peek
      ∧ TakesOne format t (if success then some v else none) t'
      ∧ (s.Whole rest → textRead format t = (if success then some v else none, t')) := by
  cases format with
  | line => exact readLine_spec hI hC h hfuel
  | chars n =>
      rw [readOne]
      by_cases hn : n = 0
      · subst hn
        rw [if_pos rfl]
        obtain ⟨s', success, hrun, hhas, hpeek, hspec⟩ := testEof_spec hI hC h
        refine ⟨s', [], t, success, hrun, hhas, hpeek, ?_, fun hw => ?_⟩
        · cases success with
          | true => exact ⟨rfl, Nat.le_refl _⟩
          | false => exact rfl
        · rw [hspec hw, textRead]
          by_cases ht : t = [] <;> simp [ht]
      · rw [if_neg hn]
        obtain ⟨s', v, t', success, hrun, hhas, hpeek, hsplit, hle, hfail, hspec⟩ :=
          readChars_spec hI hC h hfuel (Nat.pos_of_ne_zero hn)
        refine ⟨s', v, t', success, hrun, hhas, hpeek, ?_, fun hw => ?_⟩
        · cases success with
          | true => exact ⟨hsplit, hle⟩
          | false =>
              rw [hfail rfl] at hsplit
              exact hsplit
        · obtain ⟨hv, hsuccess⟩ := hspec hw
          have ht' : t' = t.drop n := by
            rw [hv] at hsplit
            exact (List.append_cancel_left ((List.take_append_drop n t).trans hsplit)).symm
          rw [hsuccess, textRead]
          by_cases ht : t = []
          · simp [ht, ht']
          · simp [ht, List.length_pos_iff, hv, ht']
  | all =>
      obtain ⟨s', v, t', success, hrun, hhas, hpeek, hsplit, hle, -, hspec⟩ :=
        @readChars_spec _ _ _ _ _ _ s t fuel hI hC h hfuel maxSize (by decide)
      refine ⟨s', v, t', true, by rw [readOne, hrun]; rfl, hhas, hpeek, ⟨hsplit, hle⟩,
        fun hw => ?_⟩
      obtain ⟨hv, -⟩ := hspec hw
      rw [hv] at hsplit
      have ht' := List.append_cancel_left ((List.take_append_drop maxSize t).trans hsplit)
      rw [textRead, hv, ht']
      rfl

/-- No read makes what is left longer. -/
lemma takes_length {format : ReadFormat} {value : Option (List UInt8)} {t' : List UInt8}
    (h : TakesOne format t value t') : t'.length ≤ t.length := by
  cases value with
  | none =>
      cases format with
      | line => rw [h.2, List.length_nil]; exact Nat.zero_le _
      | chars n => exact Nat.le_of_eq (congrArg List.length h).symm
      | all => exact h.elim
  | some v =>
      cases format with
      | line =>
          obtain ⟨-, w, -, rfl⟩ := h
          simp only [List.length_append]
          omega
      | chars n =>
          rw [h.1, List.length_append]
          omega
      | all =>
          rw [h.1, List.length_append]
          omega

/-- One `read`. -/
lemma readArgs_spec (hI : I.Decodes R) (hC : C.Gives s.peek rest) (h : s.Has R rest extra t)
    (hfuel : t.length + 1 < fuel) (formats : List ReadFormat) :
    ∃ s' values t', readArgs C fuel formats s = .done (s', values) ∧ s'.Has R rest extra t'
      ∧ s'.peek = s.peek ∧ TakesArgs formats t values t' ∧ t'.length ≤ t.length
      ∧ (s.Whole rest → textArgs formats t = (values, t')) := by
  induction formats generalizing s t with
  | nil => exact ⟨s, [], t, rfl, h, rfl, .nil t, Nat.le_refl _, fun _ => rfl⟩
  | cons format formats ih =>
      obtain ⟨s', v, t', success, hrun, hhas, hpeek, htakes, hspec⟩ :=
        readOne_spec hI hC h hfuel format
      have hlength := takes_length htakes
      rw [readArgs, hrun, LzRun.done_bind]
      cases success with
      | false =>
          refine ⟨s', [none], t', rfl, hhas, hpeek, .fails htakes, hlength, fun hw => ?_⟩
          rw [textArgs, hspec hw]
          rfl
      | true =>
          obtain ⟨s'', values, t'', hrun', hhas', hpeek', htakes', hlength', hspec'⟩ :=
            ih (hpeek ▸ hC) hhas (by omega)
          refine ⟨s'', some v :: values, t'', by simp [hrun'], hhas', hpeek'.trans hpeek,
            .cons htakes htakes', by omega, fun hw => ?_⟩
          rw [textArgs, hspec hw]
          simp [hspec' ⟨hpeek.trans hw.1, hw.2⟩]

/-- **One `read` after the other.**  Each step keeps what is still to come. -/
lemma reads_spec (hI : I.Decodes R) (hC : C.Gives s.peek rest) (h : s.Has R rest extra t)
    (hfuel : t.length + 1 < fuel) (calls : List (List ReadFormat)) :
    ∃ s' results t', reads C fuel calls s = .done (s', results) ∧ s'.Has R rest extra t'
      ∧ s'.peek = s.peek ∧ TakesReads calls t results t'
      ∧ (s.Whole rest → textReads calls t = (results, t')) := by
  induction calls generalizing s t with
  | nil => exact ⟨s, [], t, rfl, h, rfl, .nil t, fun _ => rfl⟩
  | cons formats calls ih =>
      obtain ⟨s', values, t', hrun, hhas, hpeek, htakes, hlength, hspec⟩ :=
        readArgs_spec hI hC h hfuel (if formats = [] then [.line] else formats)
      obtain ⟨s'', results, t'', hrun', hhas', hpeek', htakes', hspec'⟩ :=
        ih (hpeek ▸ hC) hhas (by omega)
      refine ⟨s'', values :: results, t'', ?_, hhas', hpeek'.trans hpeek, .cons htakes htakes',
        fun hw => ?_⟩
      · rw [reads, LzStream.read, hrun, LzRun.done_bind]
        simp only [hrun', LzRun.done_bind]
      · rw [textReads, hspec hw]
        simp [hspec' ⟨hpeek.trans hw.1, hw.2⟩]

/-- The stream object that `lzlib_inflate` makes of a string. -/
def ofString (zstream : I.State) (block : List UInt8) : LzStream I Unit where
  zstream := zstream
  source := ()
  peek := false
  eos := false
  block := some block
  pos := 0
  len := block.length
  output := []

/-- The stream object that `lzlib_inflate` makes of a function or an object. -/
def ofSource (zstream : I.State) (peek : Bool) (source : S) : LzStream I S where
  zstream := zstream
  source := source
  peek := peek
  eos := false
  block := none
  pos := 0
  len := 0
  output := []

lemma ofString_has {z : I.State} {stream text behind : List UInt8} (hz : R z stream text)
    (hsize : (stream ++ behind).length < 4294967296) :
    (ofString z (stream ++ behind)).Has R (fun _ => []) behind text := by
  refine ⟨stream, text, ⟨hz, Nat.zero_le _, Nat.zero_le _, fun b hb => ?_, nofun, nofun,
    fun _ _ => List.append_nil _, nofun⟩, rfl⟩
  obtain rfl := Option.some.inj hb
  exact ⟨rfl, hsize⟩

lemma ofSource_has {z : I.State} {stream text : List UInt8} {peek : Bool} {source : S}
    (hz : R z stream text) (hrest : rest source = stream ++ extra) :
    (ofSource (I := I) z peek source).Has R rest extra text :=
  ⟨stream, text, ⟨hz, Nat.zero_le _, Nat.le_refl _, nofun, fun _ => Or.inr rfl, nofun,
    fun _ _ => hrest, fun _ => ⟨hrest, List.nil_prefix⟩⟩, rfl⟩

/-- A stream object that is made from a string pulls nothing. -/
lemma noSource_gives : noSource.Gives false (fun _ => []) := ⟨fun _ _ => rfl, nofun, nofun, nofun⟩

/-- Where the compressed text has ended, an object that can be peeked into stands behind it. -/
lemma Has.source_eos (h : s.Has R rest extra t) (hpeek : s.peek = true) (heos : s.eos = true) :
    rest s.source = extra := by
  obtain ⟨stream, text, hinv, -⟩ := h
  rw [(hinv.peeked hpeek).1, (hinv.ended heos).1, List.nil_append]

end LzStream

/-- **Reading a compressed string is reading its text**: every `read` answers what it answers on the
text, whatever is behind the compressed text in the string. -/
theorem lzReads_string {I : Inflater} {R : I.State → List UInt8 → List UInt8 → Prop}
    (hI : I.Decodes R) {z : I.State} {stream text behind : List UInt8} (hz : R z stream text)
    (hsize : (stream ++ behind).length < 4294967296) {fuel : ℕ} (hfuel : text.length + 1 < fuel)
    (calls : List (List ReadFormat)) :
    ∃ s, LzStream.reads noSource fuel calls (.ofString z (stream ++ behind))
      = .done (s, (textReads calls text).1) := by
  obtain ⟨s, results, t, hrun, -, -, -, hspec⟩ :=
    LzStream.reads_spec hI LzStream.noSource_gives (LzStream.ofString_has hz hsize) hfuel calls
  exact ⟨s, by rw [hrun, hspec ⟨rfl, fun _ => rfl⟩]⟩

/-- **Reading from a source loses, doubles and moves no byte**, in whatever blocks the source
answers: each `read` goes on where the one before has stopped.  At the end of the compressed text
the buffer has what is left of the text, and an object with `peek` stands exactly behind it. -/
theorem lzReads_source {I : Inflater} {R : I.State → List UInt8 → List UInt8 → Prop}
    (hI : I.Decodes R) {S : Type} {C : LzSource S} {peek : Bool} {rest : S → List UInt8}
    (hC : C.Gives peek rest) {z : I.State} {stream text extra : List UInt8} (hz : R z stream text)
    {source : S} (hrest : rest source = stream ++ extra) {fuel : ℕ}
    (hfuel : text.length + 1 < fuel) (calls : List (List ReadFormat)) :
    ∃ s results t, LzStream.reads C fuel calls (.ofSource z peek source) = .done (s, results)
      ∧ TakesReads calls text results t
      ∧ (s.eos = true → t = s.output ∧ (peek = true → rest s.source = extra)) := by
  obtain ⟨s, results, t, hrun, hhas, hpeek, htakes, -⟩ :=
    LzStream.reads_spec hI hC (LzStream.ofSource_has hz hrest) hfuel calls
  refine ⟨s, results, t, hrun, htakes, fun heos => ⟨hhas.eos heos, fun hp => ?_⟩⟩
  exact hhas.source_eos (hpeek.trans hp) heos

/-! ## The letter `a`, compressed -/

namespace LetterA

/-- `a` in a block that is stored. -/
def stream : List UInt8 := [0x78, 0x01, 0x01, 0x01, 0x00, 0xfe, 0xff, 0x61, 0x00, 0x62, 0x00, 0x62]

/-- `inflate` on `stream`; the state is the number of bytes that have been taken. -/
def inflate (taken : ℕ) (input : List UInt8) (room : ℕ) : InflateCall ℕ :=
  let stop := if room = 0 ∧ taken ≤ 7 then 7 else 12
  let consumed := min (stop - taken) input.length
  { result :=
      if taken + consumed = 12 then .streamEnd
      else if consumed = 0 then .bufError
      else .ok
    state := taken + consumed
    consumed := consumed
    piece := if taken ≤ 7 ∧ 7 < taken + consumed then [0x61] else [] }

def inflater : Inflater := ⟨ℕ, inflate⟩

/-- What is left when some bytes have been taken. -/
def Left (taken : ℕ) (left text : List UInt8) : Prop :=
  taken ≤ 12 ∧ left = stream.drop taken ∧ text = if taken ≤ 7 then [0x61] else []

lemma inflate_keeps {taken : ℕ} {left text : List UInt8} (input : List UInt8) (room : ℕ)
    (h : Left taken left text) : (inflate taken input room).Keeps Left left text input room := by
  obtain ⟨htaken, rfl, rfl⟩ := h
  have hlength : (stream.drop taken).length = 12 - taken := by
    rw [List.length_drop]
    rfl
  obtain ⟨consumed, hconsumed⟩ : ∃ consumed,
    min ((if room = 0 ∧ taken ≤ 7 then 7 else 12) - taken) input.length = consumed := ⟨_, rfl⟩
  simp only [inflate, hconsumed]
  have hle : consumed ≤ 12 - taken := by
    split_ifs at hconsumed <;> omega
  have hdrop : (stream.drop taken).drop consumed = stream.drop (taken + consumed) :=
    List.drop_drop
  have hnil : stream.drop (taken + consumed) = [] ↔ taken + consumed = 12 := by
    rw [List.drop_eq_nil_iff]
    change 12 ≤ _ ↔ _
    omega
  have htext : ∀ p : List UInt8, p = (if taken ≤ 7 ∧ 7 < taken + consumed then [0x61] else []) →
      (if taken ≤ 7 then [(0x61 : UInt8)] else []).drop p.length
        = if taken + consumed ≤ 7 then [0x61] else [] := by
    rintro p rfl
    split_ifs <;> first | rfl | omega
  refine ⟨fun code => ?_, ?_, ?_, ?_, ?_, ⟨?_, hdrop, htext _ rfl⟩, ?_, ?_⟩
  · simp only
    split_ifs <;> exact nofun
  · simp only
    omega
  · simp only
    omega
  · simp only
    split_ifs with hnow hbefore
    · exact List.prefix_refl _
    · exact absurd hnow.1 hbefore
    · exact List.nil_prefix
    · exact List.nil_prefix
  · simp only
    split_ifs at hconsumed ⊢ <;> simp <;> omega
  · simp only
    omega
  · simp only [hdrop, hnil, htext _ rfl]
    split_ifs <;> simp <;> omega
  · simp only [hdrop, ne_eq, hnil]
    by_cases hfull : room = 0 ∧ taken ≤ 7
    · rw [if_pos hfull] at hconsumed
      refine Or.inr (Or.inl ?_)
      rw [if_neg (by omega), hfull.1, List.length_nil]
    · rw [if_neg hfull] at hconsumed
      by_cases hend : taken + consumed = 12
      · exact Or.inl (if_pos hend)
      · exact Or.inr (Or.inr ⟨hend, by omega⟩)

lemma decodes : inflater.Decodes Left :=
  fun _ _ _ input _ room h _ => inflate_keeps input room h

/-- An object that can be peeked into, three bytes at a time. -/
def object : LzSource (List UInt8) where
  fetch s := (if s = [] then none else some (s.take 3), s)
  skip s n := s.drop n

lemma object_gives : object.Gives true id := by
  refine ⟨nofun, fun _ s => ⟨?_, rfl⟩, fun _ s n => rfl, fun s b hb => ?_⟩
  · cases s with
    | nil => exact List.nil_prefix
    | cons b s => exact List.take_prefix 3 (b :: s)
  · simp only [object] at hb
    split_ifs at hb with hs
    rw [← Option.some.inj hb, List.length_take]
    omega

end LetterA

/-- The string has a line and nothing more. -/
theorem lzReads_string_letter : ∃ s, LzStream.reads noSource 3 [[.line], [.chars 0]]
    (.ofString (I := LetterA.inflater) (0 : ℕ) (LetterA.stream ++ [1, 2]))
      = .done (s, [[some [0x61]], [none]]) :=
  lzReads_string LetterA.decodes (z := (0 : ℕ)) ⟨by decide, rfl, rfl⟩ (by decide) (by decide)
    [[.line], [.chars 0]]

/-- The object is left in front of what is behind the compressed text. -/
theorem lzReads_source_letter : ∃ (s : LzStream LetterA.inflater (List UInt8))
    (results : List (List (Option (List UInt8)))) (t : List UInt8),
    LzStream.reads LetterA.object 3 [[.all], [.all], [.all]]
        (.ofSource (0 : ℕ) true (LetterA.stream ++ [1, 2])) = .done (s, results)
      ∧ TakesReads [[.all], [.all], [.all]] [0x61] results t
      ∧ (s.eos = true → t = s.output ∧ (true = true → id s.source = [1, 2])) :=
  lzReads_source LetterA.decodes LetterA.object_gives (z := (0 : ℕ)) ⟨by decide, rfl, rfl⟩ rfl
    (by decide) [[.all], [.all], [.all]]

end Luan
