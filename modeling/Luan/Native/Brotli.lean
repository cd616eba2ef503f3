import Luan.Core.FileWrites
import Luan.Core.PieceStream

/-!
# The Brotli module

`luabrotli_compress` and `luabrotli_decompress` of `lua-apple/utlua/brotli/lua_brotli.c`: two loops
that call the Brotli library with buffers of `BUF_LEN` bytes until it has finished.

The library is not part of the repository and is a parameter (`BrotliEncoder`, `BrotliDecoder`).
`EncodesTo` and `DecodesTo` say what it promises about one text and its encoding; how it fills the
buffers is left open.  Memory is there when it is asked for, and fresh memory holds anything.

* `compressLoop_returns` — whole buffers on the Lua stack and the rest in the buffer are what has
  been emitted.
* `decompressLoop_returns` — the block that `realloc` lets grow begins with what has been emitted.
* `brotli_round_trip` — decompressing what compressing returned.
-/

namespace Luan

/-- `BUF_LEN` -/
def bufLen : ℕ := 4096

/-- How a call from Lua ends. -/
inductive LuaCall
  /-- The fuel of the model is used up. -/
  | running
  /-- The C program does something undefined. -/
  | undefined
  /-- One result, or none. -/
  | returns (value : Option (List UInt8))
  deriving DecidableEq, Repr

/-! ## The library -/

/-- What `BrotliEncoderCompressStream` leaves behind. -/
structure EncoderCall (State : Type) where
  /-- The result is `BROTLI_TRUE`. -/
  ok : Bool
  state : State
  /-- The input from `next_in` on. -/
  input : List UInt8
  /-- What was written at `next_out`. -/
  piece : List UInt8

/-- The encoder; `compressStream state input available_out` has the operation `FINISH`. -/
structure BrotliEncoder where
  State : Type
  createInstance : State
  compressStream : State → List UInt8 → ℕ → EncoderCall State
  isFinished : State → Bool

inductive BrotliDecoderResult
  | error
  | success
  | needsMoreInput
  | needsMoreOutput
  deriving DecidableEq, Repr

/-- What `BrotliDecoderDecompressStream` leaves behind. -/
structure DecoderCall (State : Type) where
  result : BrotliDecoderResult
  state : State
  /-- The input from `next_in` on. -/
  input : List UInt8
  /-- What was written at `next_out`. -/
  piece : List UInt8
  /-- `*total_out` -/
  total : ℕ

/-- The decoder; the arguments of `decompressStream` are those of the encoder. -/
structure BrotliDecoder where
  State : Type
  createInstance : State
  decompressStream : State → List UInt8 → ℕ → DecoderCall State

/-- The encoder with its input, as a source: the last piece is the one behind which it has
finished. -/
def BrotliEncoder.pull (E : BrotliEncoder) (s : E.State × List UInt8) (room : ℕ) :
    Option (Pulled (E.State × List UInt8) UInt8) :=
  let call := E.compressStream s.1 s.2 room
  if call.ok then some ⟨(call.state, call.input), call.piece, E.isFinished call.state⟩ else none

/-- **The encoder, given `text`, emits `stream`.** -/
def BrotliEncoder.EncodesTo (E : BrotliEncoder) (text stream : List UInt8) : Prop :=
  Emits E.pull (E.createInstance, text) stream

/-- The decoder with its input and the number of bytes emitted so far, as a source.  It wants more
room behind every piece but the last, and it reports that number. -/
def BrotliDecoder.pull (D : BrotliDecoder) (s : D.State × List UInt8 × ℕ) (room : ℕ) :
    Option (Pulled (D.State × List UInt8 × ℕ) UInt8) :=
  let call := D.decompressStream s.1 s.2.1 room
  let emitted := s.2.2 + call.piece.length
  if call.total = emitted then
    match call.result with
    | .success => some ⟨(call.state, call.input, emitted), call.piece, true⟩
    | .needsMoreOutput => some ⟨(call.state, call.input, emitted), call.piece, false⟩
    | _ => none
  else none

/-- **The decoder, given `stream`, emits `text`.** -/
def BrotliDecoder.DecodesTo (D : BrotliDecoder) (stream text : List UInt8) : Prop :=
  Emits D.pull (D.createInstance, stream, 0) text

/-! ## Compressing -/

/-- The variables of `luabrotli_compress`. -/
structure CompressState (E : BrotliEncoder) where
  encoder : E.State
  /-- The input from `next_in` on. -/
  input : List UInt8
  availableOut : ℕ
  /-- The bytes between `output` and `next_out`. -/
  output : List UInt8
  /-- The strings on the Lua stack, the top at the end. -/
  stack : List (List UInt8)
  count : ℕ

/-- `size_t size = next_out - output; if (size > 0) { lua_pushlstring(..); count++; }` -/
def CompressState.pushOutput {E : BrotliEncoder} (v : CompressState E) : CompressState E :=
  if v.output.length > 0 then { v with stack := v.stack ++ [v.output], count := v.count + 1 } else v

/-- `lua_concat`: the value that replaces the `n` topmost ones. -/
def luaConcat (n : ℕ) (stack : List (List UInt8)) : List UInt8 :=
  (stack.drop (stack.length - n)).flatten

/-- The variables behind a call of the library. -/
def CompressState.advance {E : BrotliEncoder} (v : CompressState E) (call : EncoderCall E.State) :
    CompressState E :=
  { v with
    encoder := call.state
    input := call.input
    availableOut := v.availableOut - call.piece.length
    output := v.output ++ call.piece }

/-- A full buffer is pushed and begun again. -/
def CompressState.flushFull {E : BrotliEncoder} (v : CompressState E) : CompressState E :=
  if v.availableOut = 0 then { v.pushOutput with availableOut := bufLen, output := [] } else v

/-- The loop of `luabrotli_compress`. -/
def compressLoop (E : BrotliEncoder) : ℕ → CompressState E → LuaCall
  | 0, _ => .running
  | fuel + 1, v =>
      let call := E.compressStream v.encoder v.input v.availableOut
      if v.output.length + call.piece.length > bufLen then .undefined
      else if call.ok then
        let v := (v.advance call).flushFull
        if E.isFinished v.encoder then
          let v := v.pushOutput
          .returns (some (luaConcat v.count v.stack))
        else compressLoop E fuel v
      else .returns none

/-- `luabrotli_compress` -/
def luabrotliCompress (E : BrotliEncoder) (fuel : ℕ) (text : List UInt8) : LuaCall :=
  compressLoop E fuel
    { encoder := E.createInstance
      input := text
      availableOut := bufLen
      output := []
      stack := []
      count := 0 }

/-! ## Decompressing -/

/-- The variables of `luabrotli_decompress`; `output` is the whole block. -/
structure DecompressState (D : BrotliDecoder) where
  decoder : D.State
  /-- The input from `next_in` on. -/
  input : List UInt8
  availableOut : ℕ
  output : List UInt8
  /-- `next_out - output` -/
  nextOut : ℕ
  total : ℕ

/-- `realloc(block, size)`: what fits of the old block, and anything behind it.  `fresh size` is
what the memory of a block of that size held. -/
def realloc (fresh : ℕ → ℕ → UInt8) (block : List UInt8) (size : ℕ) : List UInt8 :=
  block.take size ++ (List.range' block.length (size - block.length)).map (fresh size)

/-- The variables behind a call. -/
def DecompressState.receive {D : BrotliDecoder} (v : DecompressState D)
    (call : DecoderCall D.State) : DecompressState D :=
  { v with
    decoder := call.state
    input := call.input
    availableOut := v.availableOut - call.piece.length
    output := writeAt v.output v.nextOut call.piece
    nextOut := v.nextOut + call.piece.length
    total := call.total }

/-- More room behind what there is. -/
def DecompressState.grow {D : BrotliDecoder} (fresh : ℕ → ℕ → UInt8) (v : DecompressState D) :
    DecompressState D :=
  { v with
    output := realloc fresh v.output (v.total + bufLen)
    availableOut := bufLen
    nextOut := v.total }

/-- The loop of `luabrotli_decompress`. -/
def decompressLoop (D : BrotliDecoder) (fresh : ℕ → ℕ → UInt8) :
    ℕ → DecompressState D → LuaCall
  | 0, _ => .running
  | fuel + 1, v =>
      let call := D.decompressStream v.decoder v.input v.availableOut
      if v.nextOut + call.piece.length > v.output.length then .undefined
      else
        let v := v.receive call
        match call.result with
        | .needsMoreInput => .returns none
        | .needsMoreOutput => decompressLoop D fresh fuel (v.grow fresh)
        | .success =>
            if v.total > v.output.length then .undefined
            else .returns (some (v.output.take v.total))
        -- no branch of the code: the library is called again
        | .error => decompressLoop D fresh fuel v

/-- `luabrotli_decompress` -/
def luabrotliDecompress (D : BrotliDecoder) (fresh : ℕ → ℕ → UInt8) (fuel : ℕ)
    (text : List UInt8) : LuaCall :=
  decompressLoop D fresh fuel
    { decoder := D.createInstance
      input := text
      availableOut := bufLen
      output := (List.range bufLen).map (fresh bufLen)
      nextOut := 0
      total := 0 }

/-! ## The compressing loop -/

/-- Between two calls the buffer has room left, and `count` strings are on the stack. -/
structure CompressState.Inv {E : BrotliEncoder} (v : CompressState E) : Prop where
  room : v.output.length + v.availableOut = bufLen
  pos : 0 < v.availableOut
  count : v.count = v.stack.length

/-- What has been emitted: the strings on the stack and what is in the buffer. -/
def CompressState.emitted {E : BrotliEncoder} (v : CompressState E) : List UInt8 :=
  v.stack.flatten ++ v.output

section Compress

variable {E : BrotliEncoder} {v : CompressState E}

/-- Pushing what is in the buffer puts all that has been emitted on the stack. -/
lemma pushOutput_flatten : v.pushOutput.stack.flatten = v.emitted := by
  rw [CompressState.pushOutput, CompressState.emitted]
  split_ifs with hpos
  · simp
  · have hnil : v.output = [] := List.length_eq_zero_iff.mp (by omega)
    rw [hnil, List.append_nil]

lemma pushOutput_count (h : v.count = v.stack.length) :
    v.pushOutput.count = v.pushOutput.stack.length := by
  rw [CompressState.pushOutput]
  split_ifs
  · simp [h]
  · exact h

lemma pushOutput_library :
    v.pushOutput.encoder = v.encoder ∧ v.pushOutput.input = v.input := by
  rw [CompressState.pushOutput]
  split_ifs <;> exact ⟨rfl, rfl⟩

lemma flushFull_library : v.flushFull.encoder = v.encoder ∧ v.flushFull.input = v.input := by
  rw [CompressState.flushFull]
  split_ifs
  · exact pushOutput_library
  · exact ⟨rfl, rfl⟩

/-- Nothing is lost or repeated between buffer and stack. -/
lemma flushFull_emitted : v.flushFull.emitted = v.emitted := by
  rw [CompressState.flushFull]
  split_ifs
  · exact (List.append_nil _).trans pushOutput_flatten
  · rfl

lemma inv_flushFull (hroom : v.output.length + v.availableOut = bufLen)
    (hcount : v.count = v.stack.length) : v.flushFull.Inv := by
  rw [CompressState.flushFull]
  split_ifs with hfull
  · exact ⟨Nat.zero_add bufLen, Nat.succ_pos 4095, pushOutput_count hcount⟩
  · exact ⟨hroom, Nat.pos_of_ne_zero hfull, hcount⟩

lemma advance_emitted (call : EncoderCall E.State) :
    (v.advance call).emitted = v.emitted ++ call.piece :=
  (List.append_assoc ..).symm

lemma CompressState.Inv.next (h : v.Inv) {call : EncoderCall E.State}
    (hfits : call.piece.length ≤ v.availableOut) : (v.advance call).flushFull.Inv := by
  refine inv_flushFull ?_ h.count
  have hroom := h.room
  simp only [CompressState.advance, List.length_append]
  omega

/-- `lua_concat` of all strings that were pushed. -/
lemma luaConcat_all {stack : List (List UInt8)} {n : ℕ} (h : n = stack.length) :
    luaConcat n stack = stack.flatten := by
  rw [luaConcat, h, Nat.sub_self, List.drop_zero]

end Compress

/-- **The loop returns everything that is emitted.**  Induction on what the encoder still has to
emit. -/
lemma compressLoop_returns {E : BrotliEncoder} {s : E.State × List UInt8} {stream : List UInt8}
    (h : Emits E.pull s stream) (v : CompressState E) (hv : v.Inv) (hs : (v.encoder, v.input) = s) :
    ∃ n, ∀ fuel, n ≤ fuel → compressLoop E fuel v = .returns (some (v.emitted ++ stream)) := by
  induction h generalizing v with
  | @intro s stream answers fits inOrder ends _ ih =>
      subst hs
      obtain ⟨r, hr⟩ := Option.isSome_iff_exists.mp (answers v.availableOut hv.pos)
      have hfits := fits _ r hv.pos hr
      obtain ⟨rest, hrest⟩ := inOrder _ r hv.pos hr
      have hends := ends _ r hv.pos hr
      have ih := ih _ r hv.pos hr
      clear answers fits inOrder ends
      simp only [BrotliEncoder.pull] at hr
      generalize hcall : E.compressStream v.encoder v.input v.availableOut = call at hr
      split_ifs at hr with hok
      obtain rfl := Option.some.inj hr
      dsimp only at hfits hrest hends ih
      have hbuffer : ¬ v.output.length + call.piece.length > bufLen := by
        have := hv.room
        omega
      have hlib := flushFull_library (v := v.advance call)
      have hstep : ∀ fuel, compressLoop E (fuel + 1) v
          = if E.isFinished call.state then
              .returns (some (luaConcat (v.advance call).flushFull.pushOutput.count
                (v.advance call).flushFull.pushOutput.stack))
            else compressLoop E fuel (v.advance call).flushFull := by
        intro fuel
        rw [compressLoop]
        dsimp only
        rw [hcall, if_neg hbuffer, if_pos hok, hlib.1]
        rfl
      by_cases hfin : E.isFinished call.state = true
      · refine ⟨1, fun fuel hfuel => ?_⟩
        obtain ⟨fuel, rfl⟩ := Nat.exists_eq_add_of_le' hfuel
        rw [hstep, if_pos hfin, luaConcat_all (pushOutput_count (hv.next hfits).count),
          pushOutput_flatten, flushFull_emitted, advance_emitted, hends hfin]
      · obtain ⟨n, hn⟩ := ih (by simpa using hfin) _ (hv.next hfits) (by rw [hlib.1, hlib.2]; rfl)
        refine ⟨n + 1, fun fuel hfuel => ?_⟩
        obtain ⟨fuel, rfl⟩ := Nat.exists_eq_add_of_le hfuel
        rw [Nat.add_right_comm, hstep, if_neg hfin, hn _ (Nat.le_add_right n fuel),
          flushFull_emitted, advance_emitted, List.append_assoc, ← hrest, List.drop_left]

/-! ## The decompressing loop -/

section Blocks

variable {block : List UInt8} {pos size : ℕ}

lemma length_realloc (fresh : ℕ → ℕ → UInt8) (h : block.length ≤ size) :
    (realloc fresh block size).length = size := by
  simp only [realloc, List.length_append, List.length_take, List.length_map, List.length_range']
  omega

/-- A block that grows keeps its beginning. -/
lemma take_realloc (fresh : ℕ → ℕ → UInt8) (hsize : block.length ≤ size)
    (hpos : pos ≤ block.length) : (realloc fresh block size).take pos = block.take pos := by
  rw [realloc, List.take_of_length_le hsize, List.take_append_of_le_length hpos]

end Blocks

/-- Between two calls there is room for `BUF_LEN` bytes behind what has been emitted. -/
structure DecompressState.Inv {D : BrotliDecoder} (v : DecompressState D) : Prop where
  nextOut : v.nextOut = v.total
  availableOut : v.availableOut = bufLen
  length : v.output.length = v.total + bufLen

section Decompress

variable {D : BrotliDecoder} {v : DecompressState D} {call : DecoderCall D.State}

/-- What has been emitted is at the beginning of the block. -/
lemma DecompressState.Inv.receive (h : v.Inv) (hfits : call.piece.length ≤ v.availableOut)
    (htotal : call.total = v.total + call.piece.length) :
    (v.receive call).output.take (v.receive call).total = v.output.take v.total ++ call.piece
      ∧ (v.receive call).total ≤ (v.receive call).output.length
      ∧ (v.receive call).output.length ≤ (v.receive call).total + bufLen := by
  obtain ⟨hnext, havail, hlen⟩ := h
  have hwrite : v.total + call.piece.length ≤ v.output.length := by omega
  simp only [DecompressState.receive]
  rw [hnext, htotal, length_writeAt hwrite, take_writeAt hwrite]
  exact ⟨rfl, hwrite, by omega⟩

/-- **One round of the loop**, where the call keeps to its room. -/
lemma decompressLoop_succ (fresh : ℕ → ℕ → UInt8) (fuel : ℕ)
    (hroom : v.nextOut + v.availableOut ≤ v.output.length)
    (hcall : D.decompressStream v.decoder v.input v.availableOut = call)
    (hfits : call.piece.length ≤ v.availableOut) :
    decompressLoop D fresh (fuel + 1) v
      = match call.result with
        | .needsMoreInput => .returns none
        | .needsMoreOutput => decompressLoop D fresh fuel ((v.receive call).grow fresh)
        | .success =>
            if (v.receive call).total > (v.receive call).output.length then .undefined
            else .returns (some ((v.receive call).output.take (v.receive call).total))
        | .error => decompressLoop D fresh fuel (v.receive call) := by
  subst hcall
  rw [decompressLoop]
  exact if_neg (by omega)

lemma DecompressState.Inv.room (h : v.Inv) : v.nextOut + v.availableOut ≤ v.output.length := by
  exact Nat.le_of_eq (by rw [h.nextOut, h.availableOut, h.length])

/-- Growing the block makes room again. -/
lemma DecompressState.Inv.grow (fresh : ℕ → ℕ → UInt8)
    (hlen : v.output.length ≤ v.total + bufLen) : (v.grow fresh).Inv :=
  ⟨rfl, rfl, length_realloc fresh hlen⟩

end Decompress

/-- **The loop returns everything that is emitted.**  Induction on what the decoder still has to
emit. -/
lemma decompressLoop_returns {D : BrotliDecoder} (fresh : ℕ → ℕ → UInt8)
    {s : D.State × List UInt8 × ℕ} {text : List UInt8} (h : Emits D.pull s text)
    (v : DecompressState D) (hv : v.Inv) (hs : (v.decoder, v.input, v.total) = s) :
    ∃ n, ∀ fuel, n ≤ fuel →
      decompressLoop D fresh fuel v = .returns (some (v.output.take v.total ++ text)) := by
  induction h generalizing v with
  | @intro s text answers fits inOrder ends _ ih =>
      subst hs
      have hpos : 0 < v.availableOut := by
        rw [hv.availableOut]
        exact Nat.succ_pos 4095
      obtain ⟨r, hr⟩ := Option.isSome_iff_exists.mp (answers v.availableOut hpos)
      have hfits := fits _ r hpos hr
      obtain ⟨rest, hrest⟩ := inOrder _ r hpos hr
      have hends := ends _ r hpos hr
      have ih := ih _ r hpos hr
      clear answers fits inOrder ends
      simp only [BrotliDecoder.pull] at hr
      generalize hcall : D.decompressStream v.decoder v.input v.availableOut = call at hr
      split_ifs at hr with htotal
      have hpiece : r.piece = call.piece := by
        split at hr
        · rw [← Option.some.inj hr]
        · rw [← Option.some.inj hr]
        · cases hr
      rw [hpiece] at hfits hrest
      obtain ⟨htake, hle, hlen⟩ := hv.receive hfits htotal
      have hround := fun fuel => decompressLoop_succ fresh fuel hv.room hcall hfits
      split at hr
      · rename_i hresult
        obtain rfl := Option.some.inj hr
        refine ⟨1, fun fuel hfuel => ?_⟩
        obtain ⟨fuel, rfl⟩ := Nat.exists_eq_add_of_le' hfuel
        rw [hround, hresult]
        dsimp only
        rw [if_neg (Nat.not_lt.mpr hle), htake, ← hends rfl]
      · rename_i hresult
        obtain rfl := Option.some.inj hr
        obtain ⟨n, hn⟩ := ih rfl ((v.receive call).grow fresh) (DecompressState.Inv.grow fresh hlen)
          (by rw [← htotal]; rfl)
        refine ⟨n + 1, fun fuel hfuel => ?_⟩
        obtain ⟨fuel, rfl⟩ := Nat.exists_eq_add_of_le hfuel
        rw [Nat.add_right_comm, hround, hresult]
        dsimp only
        rw [hn _ (Nat.le_add_right n fuel)]
        have hkeep : ((v.receive call).grow fresh).output.take ((v.receive call).grow fresh).total
            = (v.receive call).output.take (v.receive call).total := take_realloc fresh hlen hle
        rw [hkeep, htake, List.append_assoc, ← hrest, List.drop_left]
      · cases hr

/-! ## There and back -/

/-- **Decompressing what compressing returned gives the text back**, however the library fills the
buffers. -/
theorem brotli_round_trip (E : BrotliEncoder) (D : BrotliDecoder) (fresh : ℕ → ℕ → UInt8)
    (text stream : List UInt8) (hE : E.EncodesTo text stream) (hD : D.DecodesTo stream text) :
    ∃ n, ∀ fuel, n ≤ fuel → ∃ compressed,
      luabrotliCompress E fuel text = .returns (some compressed)
        ∧ luabrotliDecompress D fresh fuel compressed = .returns (some text) := by
  obtain ⟨n, hn⟩ := compressLoop_returns hE
    { encoder := E.createInstance, input := text, availableOut := bufLen, output := [],
      stack := [], count := 0 }
    ⟨Nat.zero_add bufLen, Nat.succ_pos 4095, rfl⟩ rfl
  obtain ⟨m, hm⟩ := decompressLoop_returns fresh hD
    { decoder := D.createInstance, input := stream, availableOut := bufLen,
      output := (List.range bufLen).map (fresh bufLen), nextOut := 0, total := 0 }
    ⟨rfl, rfl, by rw [List.length_map, List.length_range, Nat.zero_add]⟩ rfl
  refine ⟨max n m, fun fuel hfuel => ⟨stream, ?_, ?_⟩⟩
  · exact hn fuel (Nat.le_trans (Nat.le_max_left n m) hfuel)
  · exact hm fuel (Nat.le_trans (Nat.le_max_right n m) hfuel)

/-- 10000 bytes that cannot be compressed. -/
def denseText : List UInt8 := (List.range 10000).map fun i => UInt8.ofNat (i * i * i % 65537)

/-- Its encoding: one block that holds the bytes as they are. -/
def storedStream : List UInt8 := [0x8b, 0x87, 0x93] ++ denseText ++ [0x03]

/-- An encoder that emits a stream and fills the buffer each time. -/
def fillingEncoder (stream : List UInt8) : BrotliEncoder where
  State := List UInt8
  createInstance := stream
  compressStream left _ room := ⟨true, left.drop room, [], left.take room⟩
  isFinished left := left.isEmpty

/-- A decoder that knows one stream.  It reads it at once, and fills the buffer each time. -/
def fillingDecoder (stream text : List UInt8) : BrotliDecoder where
  State := Option (List UInt8)
  createInstance := none
  decompressStream state input room :=
    if state = none ∧ input ≠ stream then ⟨.error, state, input, [], 0⟩
    else
      let left := state.getD text
      ⟨if left.length ≤ room then .success else .needsMoreOutput, some (left.drop room), [],
        left.take room, text.length - (left.drop room).length⟩

lemma fillingEncoder_encodesTo (text stream : List UInt8) :
    (fillingEncoder stream).EncodesTo text stream := by
  refine Emits.of_fills (σ := List UInt8 × List UInt8) (I := fun _ => True)
    (fun s => s.1) (s := (stream, text)) (fun s room _ _ => ?_) trivial
  have hpull : (fillingEncoder stream).pull s room
      = some ⟨(s.1.drop room, []), s.1.take room, (s.1.drop room).isEmpty⟩ := rfl
  have hlast : (s.1.drop room).isEmpty = decide (s.1.length ≤ room) := by
    rw [Bool.eq_iff_iff, List.isEmpty_iff, List.drop_eq_nil_iff, decide_eq_true_iff]
  rw [hlast] at hpull
  exact ⟨(s.1.drop room, []), hpull, trivial, rfl⟩

lemma fillingDecoder_decodesTo (stream text : List UInt8) :
    (fillingDecoder stream text).DecodesTo stream text := by
  refine Emits.of_fills (σ := Option (List UInt8) × List UInt8 × ℕ)
    (I := fun s => (s.1 = none → s.2.1 = stream) ∧ s.2.2 + (s.1.getD text).length = text.length)
    (fun s => s.1.getD text) (s := (none, stream, 0)) (fun s room hs _ => ?_)
    ⟨fun _ => rfl, Nat.zero_add _⟩
  obtain ⟨state, input, emitted⟩ := s
  obtain ⟨hinput, hemitted⟩ := hs
  dsimp only at hinput hemitted ⊢
  generalize hleft : state.getD text = left at hemitted ⊢
  have hcall : (fillingDecoder stream text).decompressStream state input room
      = ⟨if left.length ≤ room then .success else .needsMoreOutput, some (left.drop room), [],
        left.take room, text.length - (left.drop room).length⟩ := by
    rw [← hleft]
    exact if_neg fun h => h.2 (hinput h.1)
  have htotal : text.length - (left.drop room).length = emitted + (left.take room).length := by
    rw [List.length_drop, List.length_take]
    omega
  refine ⟨(some (left.drop room), [], emitted + (left.take room).length), ?_, ⟨nofun, ?_⟩, rfl⟩
  · simp only [BrotliDecoder.pull, hcall, htotal, if_true]
    by_cases hlast : left.length ≤ room
    · rw [if_pos hlast, decide_eq_true hlast]
      rfl
    · rw [if_neg hlast, decide_eq_false hlast]
      rfl
  · show emitted + (left.take room).length + (left.drop room).length = text.length
    rw [List.length_take, List.length_drop]
    omega

/-- 10000 bytes there and back, each way in three buffers. -/
theorem brotli_round_trip_stored :
    ∃ n, ∀ fuel, n ≤ fuel → ∃ compressed,
      luabrotliCompress (fillingEncoder storedStream) fuel denseText = .returns (some compressed)
        ∧ luabrotliDecompress (fillingDecoder storedStream denseText) (fun _ _ => 0) fuel compressed
          = .returns (some denseText) :=
  brotli_round_trip _ _ _ denseText storedStream (fillingEncoder_encodesTo denseText storedStream)
    (fillingDecoder_decodesTo storedStream denseText)

end Luan
