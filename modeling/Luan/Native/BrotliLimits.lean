import Luan.Native.Brotli

/-!
# The Brotli loops at their limits

What the loops of `lua-apple/utlua/brotli/lua_brotli.c` do with input the decoder rejects, and how
many values they put on the Lua stack.

* `luabrotliDecompress_ends_iff` — the loop of `luabrotli_decompress` has no branch for
  `BROTLI_DECODER_RESULT_ERROR`: it ends when the decoder does not reject its input, and only then.
* `luabrotliCompress_stack_iff` — `luabrotli_compress` pushes one string for every buffer and never
  asks for stack space: it stays within `LUA_MINSTACK` when 19 buffers hold the output, and only
  then.
-/

namespace Luan

/-! ## What the decoder promises -/

/-- **The states the decoder can be in behind calls for `text`**, with the input that is left and
the number of bytes it has written. -/
inductive BrotliDecoder.Reached (D : BrotliDecoder) (text : List UInt8) :
    D.State → List UInt8 → ℕ → Prop
  | create : BrotliDecoder.Reached D text D.createInstance text 0
  | call {s : D.State} {input : List UInt8} {n : ℕ} (h : BrotliDecoder.Reached D text s input n)
      (room : ℕ) :
      BrotliDecoder.Reached D text (D.decompressStream s input room).state
        (D.decompressStream s input room).input
        (n + (D.decompressStream s input room).piece.length)

/-- `t` is what a call in `s` leaves behind that wants more room. -/
def BrotliDecoder.WantsRoom (D : BrotliDecoder) (t s : D.State × List UInt8) : Prop :=
  ∃ room, 0 < room
    ∧ (D.decompressStream s.1 s.2 room).result = .needsMoreOutput
    ∧ t = ((D.decompressStream s.1 s.2 room).state, (D.decompressStream s.1 s.2 room).input)

/-- **What the decoder promises about any bytes it is given.** -/
structure BrotliDecoder.Promises (D : BrotliDecoder) (text : List UInt8) : Prop where
  fits : ∀ {s input n}, D.Reached text s input n → ∀ room,
    (D.decompressStream s input room).piece.length ≤ room
  total : ∀ {s input n}, D.Reached text s input n → ∀ room,
    (D.decompressStream s input room).total = n + (D.decompressStream s input room).piece.length
  errorStays : ∀ {s input n}, D.Reached text s input n → ∀ room,
    (D.decompressStream s input room).result = .error → ∀ room',
      (D.decompressStream (D.decompressStream s input room).state
        (D.decompressStream s input room).input room').result = .error
  /-- It does not want more room forever. -/
  outputEnds : Acc D.WantsRoom (D.createInstance, text)

/-- With buffers of `BUF_LEN` bytes the decoder comes to an error. -/
inductive BrotliDecoder.RejectsFrom (D : BrotliDecoder) : D.State → List UInt8 → Prop
  | now {s : D.State} {input : List UInt8}
      (herror : (D.decompressStream s input bufLen).result = .error) :
      BrotliDecoder.RejectsFrom D s input
  | later {s : D.State} {input : List UInt8}
      (hmore : (D.decompressStream s input bufLen).result = .needsMoreOutput)
      (hrest : BrotliDecoder.RejectsFrom D (D.decompressStream s input bufLen).state
        (D.decompressStream s input bufLen).input) : BrotliDecoder.RejectsFrom D s input

/-- **The decoder rejects `text`.** -/
def BrotliDecoder.Rejects (D : BrotliDecoder) (text : List UInt8) : Prop :=
  D.RejectsFrom D.createInstance text

/-! ## The decompressing loop -/

section Decompress

variable {D : BrotliDecoder} {text : List UInt8} {v : DecompressState D}
  {call : DecoderCall D.State}

/-- A call that keeps to its room leaves the rest of the room behind what it wrote. -/
lemma room_receive (hroom : v.nextOut + v.availableOut ≤ v.output.length)
    (hfits : call.piece.length ≤ v.availableOut) :
    (v.receive call).nextOut + (v.receive call).availableOut ≤ (v.receive call).output.length := by
  simp only [DecompressState.receive]
  rw [length_writeAt (by omega)]
  omega

/-- **Behind an error the loop never ends.**  Induction on the fuel; the error stays, and so does
the loop. -/
lemma decompressLoop_error (hD : D.Promises text) (fresh : ℕ → ℕ → UInt8) (fuel : ℕ) {n : ℕ}
    (hreached : D.Reached text v.decoder v.input n)
    (hroom : v.nextOut + v.availableOut ≤ v.output.length)
    (herror : ∀ room, (D.decompressStream v.decoder v.input room).result = .error) :
    decompressLoop D fresh fuel v = .running := by
  induction fuel generalizing v n with
  | zero => rfl
  | succ fuel ih =>
      have hfits := hD.fits hreached v.availableOut
      rw [decompressLoop_succ fresh fuel hroom rfl hfits, herror]
      exact ih (hreached.call v.availableOut) (room_receive hroom hfits)
        (hD.errorStays hreached v.availableOut (herror v.availableOut))

/-- The loop goes on with a bigger block when the decoder wants more room. -/
lemma decompressLoop_more (hD : D.Promises text) (fresh : ℕ → ℕ → UInt8) (hv : v.Inv)
    (hreached : D.Reached text v.decoder v.input v.total)
    (hmore : (D.decompressStream v.decoder v.input bufLen).result = .needsMoreOutput) :
    ∃ w : DecompressState D, w.Inv
      ∧ D.Reached text w.decoder w.input w.total
      ∧ w.decoder = (D.decompressStream v.decoder v.input bufLen).state
      ∧ w.input = (D.decompressStream v.decoder v.input bufLen).input
      ∧ ∀ fuel, decompressLoop D fresh (fuel + 1) v = decompressLoop D fresh fuel w := by
  have hfits := hD.fits hreached bufLen
  have htotal := hD.total hreached bufLen
  have hnext := hreached.call bufLen
  rw [← htotal] at hnext
  generalize hcall : D.decompressStream v.decoder v.input bufLen = call at *
  obtain ⟨-, -, hlen⟩ := hv.receive (hv.availableOut ▸ hfits) htotal
  refine ⟨(v.receive call).grow fresh, DecompressState.Inv.grow fresh hlen, hnext, rfl, rfl, ?_⟩
  intro fuel
  rw [decompressLoop_succ fresh fuel hv.room (hv.availableOut ▸ hcall) (hv.availableOut ▸ hfits),
    hmore]

/-- A decoder that comes to an error keeps the loop running.  Induction on the calls before the
error. -/
lemma decompressLoop_of_rejects (hD : D.Promises text) (fresh : ℕ → ℕ → UInt8) {s : D.State}
    {input : List UInt8} (h : D.RejectsFrom s input) (hv : v.Inv)
    (hreached : D.Reached text v.decoder v.input v.total) (hs : v.decoder = s)
    (hinput : v.input = input) (fuel : ℕ) : decompressLoop D fresh fuel v = .running := by
  induction h generalizing v fuel with
  | now herror =>
      subst hs hinput
      cases fuel with
      | zero => rfl
      | succ fuel =>
          rw [← hv.availableOut] at herror
          have hfits := hD.fits hreached v.availableOut
          rw [decompressLoop_succ fresh fuel hv.room rfl hfits, herror]
          exact decompressLoop_error hD fresh fuel (hreached.call v.availableOut)
            (room_receive hv.room hfits) (hD.errorStays hreached v.availableOut herror)
  | later hmore _ ih =>
      subst hs hinput
      cases fuel with
      | zero => rfl
      | succ fuel =>
          obtain ⟨w, hw, hreachedW, hdecoder, hinput, hloop⟩ :=
            decompressLoop_more hD fresh hv hreached hmore
          rw [hloop]
          exact ih hw hreachedW hdecoder hinput fuel

/-- A decoder that never comes to an error lets the loop end.  Induction on the calls that want
more room. -/
lemma decompressLoop_of_accepts (hD : D.Promises text) (fresh : ℕ → ℕ → UInt8)
    {s : D.State × List UInt8} (hends : Acc D.WantsRoom s) (h : ¬ D.RejectsFrom s.1 s.2)
    (hv : v.Inv) (hreached : D.Reached text v.decoder v.input v.total)
    (hs : (v.decoder, v.input) = s) : ∃ fuel, decompressLoop D fresh fuel v ≠ .running := by
  induction hends generalizing v with
  | intro s _ ih =>
      subst hs
      have hround := fun fuel => decompressLoop_succ fresh fuel hv.room rfl
        (hD.fits hreached v.availableOut)
      rw [hv.availableOut] at hround
      cases hresult : (D.decompressStream v.decoder v.input bufLen).result with
      | error => exact absurd (.now hresult) h
      | success =>
          refine ⟨1, ?_⟩
          rw [hround, hresult]
          dsimp only
          split_ifs
          · exact LuaCall.noConfusion
          · exact LuaCall.noConfusion
      | needsMoreInput =>
          refine ⟨1, ?_⟩
          rw [hround, hresult]
          exact LuaCall.noConfusion
      | needsMoreOutput =>
          obtain ⟨w, hw, hreachedW, hdecoder, hinput, hloop⟩ :=
            decompressLoop_more hD fresh hv hreached hresult
          obtain ⟨fuel, hfuel⟩ := ih _ ⟨bufLen, Nat.succ_pos 4095, hresult, rfl⟩
            (fun hrest => h (.later hresult hrest)) hw hreachedW (by rw [hdecoder, hinput])
          exact ⟨fuel + 1, by rwa [hloop]⟩

end Decompress

/-- The variables before the first call. -/
lemma decompress_begins (D : BrotliDecoder) (fresh : ℕ → ℕ → UInt8) (text : List UInt8) :
    ∃ v : DecompressState D, v.Inv ∧ v.decoder = D.createInstance ∧ v.input = text ∧ v.total = 0
      ∧ ∀ fuel, luabrotliDecompress D fresh fuel text = decompressLoop D fresh fuel v := by
  exact
    ⟨{ decoder := D.createInstance, input := text, availableOut := bufLen,
       output := (List.range bufLen).map (fresh bufLen), nextOut := 0, total := 0 },
      ⟨rfl, rfl, by rw [List.length_map, List.length_range, Nat.zero_add]⟩,
      rfl, rfl, rfl, fun _ => rfl⟩

/-- Rejected bytes keep `luabrotli_decompress` running. -/
lemma luabrotliDecompress_of_rejects {D : BrotliDecoder} {text : List UInt8} (hD : D.Promises text)
    (hrejects : D.Rejects text) (fresh : ℕ → ℕ → UInt8) (fuel : ℕ) :
    luabrotliDecompress D fresh fuel text = .running := by
  obtain ⟨v, hv, hdecoder, hinput, htotal, hloop⟩ := decompress_begins D fresh text
  have hreached : D.Reached text v.decoder v.input v.total := by
    rw [hdecoder, hinput, htotal]
    exact .create
  rw [hloop]
  exact decompressLoop_of_rejects hD fresh hrejects hv hreached hdecoder hinput fuel

/-- **The loop of `luabrotli_decompress` ends if and only if the decoder does not reject the
bytes.** -/
theorem luabrotliDecompress_ends_iff (D : BrotliDecoder) (fresh : ℕ → ℕ → UInt8)
    (text : List UInt8) (hD : D.Promises text) :
    (∃ fuel, luabrotliDecompress D fresh fuel text ≠ .running) ↔ ¬ D.Rejects text := by
  constructor
  · rintro ⟨fuel, hfuel⟩ hrejects
    exact hfuel (luabrotliDecompress_of_rejects hD hrejects fresh fuel)
  · intro haccepts
    obtain ⟨v, hv, hdecoder, hinput, htotal, hloop⟩ := decompress_begins D fresh text
    have hreached : D.Reached text v.decoder v.input v.total := by
      rw [hdecoder, hinput, htotal]
      exact .create
    obtain ⟨fuel, hfuel⟩ := decompressLoop_of_accepts hD fresh hD.outputEnds haccepts hv hreached
      (by rw [hdecoder, hinput])
    exact ⟨fuel, by rwa [hloop]⟩

/-- A decoder that knows the one byte that encodes the empty text. -/
def emptyTextDecoder : BrotliDecoder where
  State := Unit
  createInstance := ()
  decompressStream _ input _ :=
    if input = [0x3b] then ⟨.success, (), [], [], 0⟩ else ⟨.error, (), input, [], 0⟩

/-- It writes nothing. -/
lemma emptyTextDecoder_call (s : emptyTextDecoder.State) (input : List UInt8) (room : ℕ) :
    (emptyTextDecoder.decompressStream s input room).piece = []
      ∧ (emptyTextDecoder.decompressStream s input room).total = 0
      ∧ ((emptyTextDecoder.decompressStream s input room).result = .success
        ∨ (emptyTextDecoder.decompressStream s input room).result = .error
          ∧ (emptyTextDecoder.decompressStream s input room).input = input) := by
  simp only [emptyTextDecoder]
  split_ifs
  · exact ⟨rfl, rfl, .inl rfl⟩
  · exact ⟨rfl, rfl, .inr ⟨rfl, rfl⟩⟩

lemma emptyTextDecoder_promises (text : List UInt8) : emptyTextDecoder.Promises text := by
  have hnone : ∀ {s input n}, emptyTextDecoder.Reached text s input n → n = 0 := by
    intro s input n h
    induction h with
    | create => rfl
    | call _ room ih => rw [ih, (emptyTextDecoder_call _ _ room).1, List.length_nil]
  refine ⟨?_, ?_, ?_, ?_⟩
  · intro s input n _ room
    rw [(emptyTextDecoder_call s input room).1]
    exact Nat.zero_le room
  · intro s input n h room
    obtain ⟨hpiece, htotal, -⟩ := emptyTextDecoder_call s input room
    rw [hpiece, htotal, hnone h, List.length_nil]
  · intro s input n _ room herror room'
    obtain ⟨-, -, hsuccess | ⟨-, hinput⟩⟩ := emptyTextDecoder_call s input room
    · rw [hsuccess] at herror
      cases herror
    · rw [hinput]
      exact herror
  · refine Acc.intro _ ?_
    rintro t ⟨room, -, hmore, -⟩
    obtain ⟨-, -, hresult | ⟨hresult, -⟩⟩ := emptyTextDecoder_call () text room
    · exact BrotliDecoderResult.noConfusion (hresult.symm.trans hmore)
    · exact BrotliDecoderResult.noConfusion (hresult.symm.trans hmore)

/-- The empty text is decompressed. -/
theorem luabrotliDecompress_ends_iff_empty :
    (∃ fuel, luabrotliDecompress emptyTextDecoder (fun _ _ => 0) fuel [0x3b] ≠ .running)
      ↔ ¬ emptyTextDecoder.Rejects [0x3b] :=
  luabrotliDecompress_ends_iff emptyTextDecoder _ [0x3b] (emptyTextDecoder_promises [0x3b])

/-- One byte that no stream begins with keeps the loop running for good. -/
theorem luabrotliDecompress_corrupt :
    emptyTextDecoder.Promises [0xff]
      ∧ ∀ fuel, luabrotliDecompress emptyTextDecoder (fun _ _ => 0) fuel [0xff] = .running :=
  ⟨emptyTextDecoder_promises [0xff], fun fuel =>
    luabrotliDecompress_of_rejects (emptyTextDecoder_promises [0xff]) (.now rfl) _ fuel⟩

/-! ## The stack of the compressing loop -/

/-- `LUA_MINSTACK`: the values a C function may push without `lua_checkstack`. -/
def luaMinstack : ℕ := 20

/-- The values `luabrotli_compress` has pushed when the loop ends or the fuel is used up: the
buffer and the strings.  Nothing is popped before, so there were never more. -/
def compressPushed (E : BrotliEncoder) : ℕ → CompressState E → ℕ
  | 0, v => 1 + v.stack.length
  | fuel + 1, v =>
      let call := E.compressStream v.encoder v.input v.availableOut
      if v.output.length + call.piece.length > bufLen then 1 + v.stack.length
      else if call.ok then
        let v := (v.advance call).flushFull
        if E.isFinished v.encoder then
          -- `lua_concat` of no strings pushes the empty one
          1 + max 1 v.pushOutput.stack.length
        else compressPushed E fuel v
      else 1 + v.stack.length

/-- The values that `luabrotli_compress` has pushed within `fuel` calls of the library. -/
def luabrotliCompressPushed (E : BrotliEncoder) (fuel : ℕ) (text : List UInt8) : ℕ :=
  compressPushed E fuel
    { encoder := E.createInstance
      input := text
      availableOut := bufLen
      output := []
      stack := []
      count := 0 }

/-- The encoder writes no more than it is given room for. -/
def BrotliEncoder.Fits (E : BrotliEncoder) : Prop :=
  ∀ s input room, (E.compressStream s input room).piece.length ≤ room

/-- **The encoder, asked to compress `text` into a buffer of `BUF_LEN` bytes that is begun again
when it is full, has written `n` bytes**; the flag says that it has finished. -/
inductive BrotliEncoder.Wrote (E : BrotliEncoder) (text : List UInt8) :
    Bool → E.State → List UInt8 → ℕ → Prop
  | create : BrotliEncoder.Wrote E text false E.createInstance text 0
  | call {s : E.State} {input : List UInt8} {n : ℕ} (h : BrotliEncoder.Wrote E text false s input n)
      (hok : (E.compressStream s input (bufLen - n % bufLen)).ok = true) :
      BrotliEncoder.Wrote E text
        (E.isFinished (E.compressStream s input (bufLen - n % bufLen)).state)
        (E.compressStream s input (bufLen - n % bufLen)).state
        (E.compressStream s input (bufLen - n % bufLen)).input
        (n + (E.compressStream s input (bufLen - n % bufLen)).piece.length)

/-- **The encoder's output for `text` is short**: at most 19 buffers when it has finished, and less
than 20 before. -/
def BrotliEncoder.ShortFor (E : BrotliEncoder) (text : List UInt8) : Prop :=
  ∀ finished s input n, E.Wrote text finished s input n →
    n < 20 * bufLen ∧ (finished = true → n ≤ 19 * bufLen)

section Stack

variable {E : BrotliEncoder} {v : CompressState E} {call : EncoderCall E.State}

/-- The bytes the encoder has written. -/
def CompressState.written (v : CompressState E) : ℕ :=
  v.stack.length * bufLen + v.output.length

/-- Between two calls all strings on the stack are whole buffers. -/
structure CompressState.Between (v : CompressState E) : Prop where
  room : v.availableOut = bufLen - v.output.length
  notFull : v.output.length < bufLen

lemma CompressState.Between.written_mod (hv : v.Between) :
    bufLen - v.written % bufLen = v.availableOut := by
  rw [hv.room, written, Nat.mul_add_mod_of_lt hv.notFull]

/-- Fewer than 20 strings are fewer than 20 whole buffers. -/
lemma CompressState.Between.stack_le_iff (hv : v.Between) :
    v.stack.length ≤ 19 ↔ v.written < 20 * bufLen := by
  have hnotFull := hv.notFull
  simp only [written, bufLen] at *
  omega

/-- With what is in the buffer pushed too: at most 19 buffers. -/
lemma CompressState.Between.pushOutput_le_iff (hv : v.Between) :
    v.pushOutput.stack.length ≤ 19 ↔ v.written ≤ 19 * bufLen := by
  have hnotFull := hv.notFull
  rw [pushOutput]
  split_ifs with hpos
  · simp only [List.length_append, List.length_singleton, written, bufLen] at *
    omega
  · simp only [written, bufLen] at *
    omega

/-- A call that keeps to its room writes behind what is there; a buffer that is full becomes a
string. -/
lemma CompressState.Between.next (hv : v.Between) (hfits : call.piece.length ≤ v.availableOut) :
    (v.advance call).flushFull.Between
      ∧ (v.advance call).flushFull.written = v.written + call.piece.length := by
  have hroom := hv.room
  have hnotFull := hv.notFull
  rw [flushFull]
  split_ifs with hfull
  · simp only [advance] at hfull
    have hlen : (v.advance call).output.length = bufLen := by
      simp only [advance, List.length_append]
      omega
    have hpos : (v.advance call).output.length > 0 := by
      rw [hlen]
      exact Nat.succ_pos 4095
    rw [pushOutput, if_pos hpos]
    refine ⟨⟨rfl, Nat.succ_pos 4095⟩, ?_⟩
    simp only [written, advance, List.length_append, List.length_singleton, List.length_nil]
    rw [Nat.add_mul]
    omega
  · simp only [advance] at hfull
    refine ⟨⟨?_, ?_⟩, ?_⟩
    · simp only [advance, List.length_append]
      omega
    · simp only [advance, List.length_append]
      omega
    · simp only [written, advance, List.length_append]
      omega

/-- One round of the loop. -/
lemma compressPushed_succ (hE : E.Fits) (hv : v.Between) (fuel : ℕ)
    (hcall : E.compressStream v.encoder v.input (bufLen - v.written % bufLen) = call) :
    compressPushed E (fuel + 1) v
      = if call.ok then
          if E.isFinished call.state then
            1 + max 1 (v.advance call).flushFull.pushOutput.stack.length
          else compressPushed E fuel (v.advance call).flushFull
        else 1 + v.stack.length := by
  rw [hv.written_mod] at hcall
  have hfits := hE v.encoder v.input v.availableOut
  have hroom := hv.room
  have hnotFull := hv.notFull
  rw [compressPushed]
  dsimp only
  rw [hcall] at hfits ⊢
  rw [if_neg (by omega), (flushFull_library (v := v.advance call)).1]
  rfl

/-- What a call has written is what the loop keeps, in strings and in the buffer. -/
lemma CompressState.Between.wrote_next {text : List UInt8} (hE : E.Fits) (hv : v.Between)
    (hwrote : E.Wrote text false v.encoder v.input v.written)
    (hcall : E.compressStream v.encoder v.input (bufLen - v.written % bufLen) = call)
    (hok : call.ok = true) :
    (v.advance call).flushFull.Between
      ∧ E.Wrote text (E.isFinished call.state) (v.advance call).flushFull.encoder
          (v.advance call).flushFull.input (v.advance call).flushFull.written := by
  have hnext := hwrote.call (by rw [hcall, hok])
  rw [hv.written_mod] at hcall hnext
  have hfits := hE v.encoder v.input v.availableOut
  rw [hcall] at hfits hnext
  obtain ⟨hbetween, hwritten⟩ := hv.next hfits
  rw [hwritten, flushFull_library.1, flushFull_library.2]
  exact ⟨hbetween, hnext⟩

/-- **An encoder whose output is short keeps the loop within its stack.**  Induction on the
fuel. -/
lemma compressPushed_le {text : List UInt8} (hE : E.Fits) (hshort : E.ShortFor text) (fuel : ℕ)
    (hv : v.Between) (hwrote : E.Wrote text false v.encoder v.input v.written) :
    compressPushed E fuel v ≤ luaMinstack := by
  have hstack := hv.stack_le_iff.mpr (hshort _ _ _ _ hwrote).1
  induction fuel generalizing v with
  | zero =>
      rw [compressPushed, luaMinstack]
      omega
  | succ fuel ih =>
      generalize hcall : E.compressStream v.encoder v.input (bufLen - v.written % bufLen) = call
      rw [compressPushed_succ hE hv fuel hcall]
      split_ifs with hok hfinished
      · obtain ⟨hbetween, hnext⟩ := hv.wrote_next hE hwrote hcall hok
        have hlast := hbetween.pushOutput_le_iff.mpr ((hshort _ _ _ _ hnext).2 hfinished)
        rw [luaMinstack]
        omega
      · obtain ⟨hbetween, hnext⟩ := hv.wrote_next hE hwrote hcall hok
        rw [Bool.eq_false_iff.mpr hfinished] at hnext
        exact ih hbetween hnext (hbetween.stack_le_iff.mpr (hshort _ _ _ _ hnext).1)
      · rw [luaMinstack]
        omega

/-- **The loop gets to every number of bytes the encoder writes.**  Induction on the calls. -/
lemma compressPushed_of_wrote {text : List UInt8} (hE : E.Fits) (hv : v.Between)
    (hcreated : v.encoder = E.createInstance) (htext : v.input = text) (hzero : v.written = 0)
    {finished : Bool} {s : E.State} {input : List UInt8} {n : ℕ}
    (h : E.Wrote text finished s input n) :
    ∃ k, ∃ w : CompressState E, w.Between ∧ w.encoder = s ∧ w.input = input ∧ w.written = n
      ∧ ∀ fuel, compressPushed E (k + fuel) v
          = if finished then 1 + max 1 w.pushOutput.stack.length else compressPushed E fuel w := by
  induction h with
  | create => exact ⟨0, v, hv, hcreated, htext, hzero, fun fuel => by rw [Nat.zero_add]; rfl⟩
  | call _ hok ih =>
      obtain ⟨k, w, hw, rfl, rfl, rfl, hloop⟩ := ih
      generalize hcall : E.compressStream w.encoder w.input (bufLen - w.written % bufLen) = call
        at *
      have hfits := hE w.encoder w.input w.availableOut
      rw [← hw.written_mod, hcall, hw.written_mod] at hfits
      obtain ⟨hbetween, hwritten⟩ := hw.next hfits
      refine ⟨k + 1, (w.advance call).flushFull, hbetween, flushFull_library.1,
        flushFull_library.2, hwritten, ?_⟩
      intro fuel
      rw [Nat.add_right_comm k 1 fuel, Nat.add_assoc, hloop, if_neg Bool.false_ne_true,
        compressPushed_succ hE hw fuel hcall, if_pos hok]

end Stack

/-- The variables before the first call. -/
lemma compress_begins (E : BrotliEncoder) (text : List UInt8) :
    ∃ v : CompressState E, v.Between ∧ v.encoder = E.createInstance ∧ v.input = text
      ∧ v.written = 0
      ∧ ∀ fuel, luabrotliCompressPushed E fuel text = compressPushed E fuel v := by
  refine ⟨⟨E.createInstance, text, bufLen, [], [], 0⟩, ?_, rfl, rfl, ?_, fun _ => rfl⟩
  · exact ⟨rfl, Nat.succ_pos 4095⟩
  · simp [CompressState.written]

/-- A loop that stays within its stack has an encoder whose output is short. -/
lemma shortFor_of_stack {E : BrotliEncoder} (hE : E.Fits) {text : List UInt8}
    (hstack : ∀ fuel, luabrotliCompressPushed E fuel text ≤ luaMinstack) : E.ShortFor text := by
  obtain ⟨v, hv, hcreated, htext, hzero, hloop⟩ := compress_begins E text
  intro finished s input n hwrote
  obtain ⟨k, w, hw, -, -, rfl, hrun⟩ := compressPushed_of_wrote hE hv hcreated htext hzero hwrote
  have hk := hstack (k + 0)
  rw [hloop, hrun] at hk
  cases finished with
  | false =>
      rw [if_neg Bool.false_ne_true, compressPushed, luaMinstack] at hk
      exact ⟨hw.stack_le_iff.mp (by omega), fun h => absurd h Bool.false_ne_true⟩
  | true =>
      rw [if_pos rfl, luaMinstack] at hk
      have hlast := hw.pushOutput_le_iff.mp (by omega)
      refine ⟨?_, fun _ => hlast⟩
      simp only [bufLen] at *
      omega

/-- **`luabrotli_compress` stays within `LUA_MINSTACK` if and only if the encoder's output is
short.** -/
theorem luabrotliCompress_stack_iff (E : BrotliEncoder) (hE : E.Fits) (text : List UInt8) :
    (∀ fuel, luabrotliCompressPushed E fuel text ≤ luaMinstack) ↔ E.ShortFor text := by
  constructor
  · exact shortFor_of_stack hE
  · intro hshort fuel
    obtain ⟨v, hv, hcreated, htext, hzero, hloop⟩ := compress_begins E text
    rw [hloop]
    refine compressPushed_le hE hshort fuel hv ?_
    rw [hcreated, htext, hzero]
    exact .create

/-- An encoder that leaves the text as it is. -/
def storingEncoder : BrotliEncoder where
  State := List UInt8
  createInstance := []
  compressStream left input room := ⟨true, (left ++ input).drop room, [], (left ++ input).take room⟩
  isFinished left := left.isEmpty

lemma storingEncoder_fits : storingEncoder.Fits := by
  intro s input room
  exact List.length_take_le room _

/-- It fills one buffer after the other. -/
lemma storingEncoder_wrote (text : List UInt8) (i : ℕ) (hi : i * bufLen < text.length) :
    ∃ s input : List UInt8, s ++ input = text.drop (i * bufLen)
      ∧ storingEncoder.Wrote text false s input (i * bufLen) := by
  induction i with
  | zero => exact ⟨[], text, by simp, by simpa using .create⟩
  | succ i ih =>
      rw [Nat.succ_mul] at hi
      obtain ⟨s, input, hleft, hwrote⟩ := ih (by omega)
      have hnext := hwrote.call rfl
      simp only [storingEncoder, Nat.mul_mod_left, Nat.sub_zero] at hnext
      rw [hleft, List.drop_drop, List.length_take, List.length_drop,
        Nat.min_eq_left (by omega)] at hnext
      have hrest : (text.drop (i * bufLen + bufLen)).isEmpty = false := by
        simpa using hi
      rw [hrest, ← Nat.succ_mul] at hnext
      exact ⟨_, [], List.append_nil _, hnext⟩

/-- A short text stays within the stack. -/
theorem luabrotliCompress_stack_iff_storing :
    (∀ fuel, luabrotliCompressPushed storingEncoder fuel [0x41] ≤ luaMinstack)
      ↔ storingEncoder.ShortFor [0x41] :=
  luabrotliCompress_stack_iff storingEncoder storingEncoder_fits [0x41]

/-- 20 buffers and a byte more that cannot be compressed do not. -/
theorem luabrotliCompress_stack_overflows :
    storingEncoder.Fits
      ∧ ¬ ∀ fuel, luabrotliCompressPushed storingEncoder fuel
          ((List.range (20 * bufLen + 1)).map UInt8.ofNat) ≤ luaMinstack := by
  refine ⟨storingEncoder_fits, fun hstack => ?_⟩
  obtain ⟨s, input, -, hwrote⟩ :=
    storingEncoder_wrote ((List.range (20 * bufLen + 1)).map UInt8.ofNat) 20
      (by rw [List.length_map, List.length_range]; exact Nat.lt_succ_self _)
  have hshort := shortFor_of_stack storingEncoder_fits hstack
  exact absurd (hshort _ _ _ _ hwrote).1 (Nat.lt_irrefl _)

/-! ## A text and its encoding -/

/-- What the encoder has written is the beginning of what it emits. -/
lemma BrotliEncoder.EncodesTo.wrote {E : BrotliEncoder} {text stream : List UInt8}
    (h : E.EncodesTo text stream) {finished : Bool} {s : E.State} {input : List UInt8} {n : ℕ}
    (hwrote : E.Wrote text finished s input n) :
    n ≤ stream.length ∧ (finished = true → n = stream.length)
      ∧ (finished = false → Emits E.pull (s, input) (stream.drop n)) := by
  induction hwrote with
  | create => exact ⟨Nat.zero_le _, fun hf => absurd hf Bool.false_ne_true, fun _ => h⟩
  | @call s input n _ hok ih =>
      obtain ⟨hle, -, hemits⟩ := ih
      have hroom : 0 < bufLen - n % bufLen := Nat.sub_pos_of_lt (Nat.mod_lt n (Nat.succ_pos 4095))
      cases hemits rfl with
      | intro answers fits inOrder ends goesOn =>
          have hpull : E.pull (s, input) (bufLen - n % bufLen) = some ⟨_, _, _⟩ := if_pos hok
          have hprefix := (inOrder _ _ hroom hpull).length_le
          rw [List.length_drop] at hprefix
          dsimp only at hprefix
          refine ⟨by omega, fun hlast => ?_, fun hlast => ?_⟩
          · have hpiece := congrArg List.length (ends _ _ hroom hpull hlast)
            rw [List.length_drop] at hpiece
            dsimp only at hpiece
            omega
          · rw [← List.drop_drop]
            exact goesOn _ _ hroom hpull hlast

/-- An encoder that emits a stream comes to its end. -/
lemma wrote_all {E : BrotliEncoder} {text : List UInt8} {s : E.State × List UInt8}
    {rest : List UInt8} (h : Emits E.pull s rest) {n : ℕ}
    (hwrote : E.Wrote text false s.1 s.2 n) :
    ∃ t input, E.Wrote text true t input (n + rest.length) := by
  induction h generalizing n with
  | @intro s rest answers fits inOrder ends _ ih =>
      have hroom : 0 < bufLen - n % bufLen := Nat.sub_pos_of_lt (Nat.mod_lt n (Nat.succ_pos 4095))
      obtain ⟨r, hr⟩ := Option.isSome_iff_exists.mp (answers _ hroom)
      have hends := ends _ r hroom hr
      have hprefix := (inOrder _ r hroom hr).length_le
      have ih := ih _ r hroom hr
      simp only [BrotliEncoder.pull] at hr
      split_ifs at hr with hok
      obtain rfl := Option.some.inj hr
      have hnext := hwrote.call hok
      cases hfinished : E.isFinished (E.compressStream s.1 s.2 (bufLen - n % bufLen)).state with
      | true =>
          rw [hfinished] at hnext
          rw [← hends hfinished]
          exact ⟨_, _, hnext⟩
      | false =>
          rw [hfinished] at hnext
          obtain ⟨t, input, hall⟩ := ih hfinished hnext
          rw [List.length_drop] at hall
          dsimp only at hprefix hall
          rw [Nat.add_assoc, Nat.add_sub_cancel' hprefix] at hall
          exact ⟨t, input, hall⟩

/-- **For a text with an encoding, it is the length of the encoding that decides.** -/
theorem shortFor_iff_of_encodesTo (E : BrotliEncoder) (text stream : List UInt8)
    (h : E.EncodesTo text stream) : E.ShortFor text ↔ stream.length ≤ 19 * bufLen := by
  constructor
  · intro hshort
    obtain ⟨t, input, hall⟩ := wrote_all h .create
    rw [Nat.zero_add] at hall
    exact (hshort _ _ _ _ hall).2 rfl
  · intro hlen finished s input n hwrote
    obtain ⟨hle, -, -⟩ := h.wrote hwrote
    refine ⟨?_, fun _ => by omega⟩
    simp only [bufLen] at *
    omega

end Luan
