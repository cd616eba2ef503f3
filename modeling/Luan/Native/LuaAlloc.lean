import Luan.Core.Machine

/-!
# The counter of Lua's memory

`l_alloc` in `lua-apple/utlua/caplua.c`, on a heap of blocks.  `lua_mem_total` is meant to be the
size of all blocks that Lua holds.  It is adjusted in two places: the old block is subtracted
before `realloc` is called, and what `realloc` returned is added behind it.

Where `realloc` fails, the old block stays and its size is not added again.  `lua_mem_total_iff`
says that this is all that goes wrong: the counter is exact along the runs in which `realloc` fails
for no block, and only along those.

What `realloc` returns is part of the call (`AllocCall.outcome`).  Blocks lie in one address space,
so that their sizes add up to less than `2^64`.
-/

namespace Luan

/-- A block that is live, with its `malloc_size`. -/
structure Block where
  address : ℕ
  size : ℕ
  deriving DecidableEq, Repr

/-- The size of all blocks. -/
def totalSize : List Block → ℕ
  | [] => 0
  | b :: blocks => b.size + totalSize blocks

/-! ## The functions of the heap; a pointer is `none` where it is `NULL` -/

/-- `pal_alloc_size` -/
def palAllocSize (blocks : List Block) (ptr : Option ℕ) : ℕ :=
  match ptr with
  | none => 0
  | some p =>
      match blocks.find? (·.address = p) with
      | some b => b.size
      | none => 0

/-- `pal_alloc_free` -/
def palAllocFree (blocks : List Block) (ptr : Option ℕ) : List Block :=
  match ptr with
  | none => blocks
  | some p => blocks.eraseP (·.address = p)

/-- `pal_alloc_realloc`: where it fails, the old block stays. -/
def palAllocRealloc (blocks : List Block) (ptr : Option ℕ) (outcome : Option Block) :
    List Block :=
  match outcome with
  | none => blocks
  | some b => b :: palAllocFree blocks ptr

/-! ## The allocator of the Lua state -/

structure LuaHeap where
  blocks : List Block
  luaMemTotal : UInt64
  deriving DecidableEq, Repr

/-- A call of `l_alloc`. -/
structure AllocCall where
  ptr : Option ℕ
  nsize : ℕ
  /-- What `realloc` returns, if it is called. -/
  outcome : Option Block
  deriving DecidableEq, Repr

/-- `l_alloc` -/
def lAlloc (s : LuaHeap) (call : AllocCall) : LuaHeap :=
  let s := { s with
    luaMemTotal := s.luaMemTotal - UInt64.ofNat (palAllocSize s.blocks call.ptr) }
  if call.nsize = 0 then
    { s with blocks := palAllocFree s.blocks call.ptr }
  else
    let s := { s with blocks := palAllocRealloc s.blocks call.ptr call.outcome }
    let newPtr := call.outcome.map Block.address
    { s with luaMemTotal := s.luaMemTotal + UInt64.ofNat (palAllocSize s.blocks newPtr) }

/-- The call is made on a live block or on `NULL`, and `realloc` returns a block that is large
enough, has an address of its own and has its place in the address space. -/
def AllocCall.canHappen (call : AllocCall) (blocks : List Block) : Bool :=
  call.ptr.all (fun p => blocks.any (·.address = p))
    && (call.nsize = 0
      || call.outcome.all fun b =>
        call.nsize ≤ b.size
          && !(palAllocFree blocks call.ptr).any (·.address = b.address)
          && totalSize (b :: palAllocFree blocks call.ptr) < UInt64.size)

/-- Calls of `l_alloc`, one after the other. -/
def luaAlloc : Machine LuaHeap AllocCall where
  init := ⟨[], 0⟩
  step s call := if call.canHappen s.blocks then some (lAlloc s call) else none

/-! ## The accounting -/

/-- **What the counter is for**: it is the size of the blocks behind the call, and the subtraction
did not wrap. -/
def CountsExactly (s : LuaHeap) (call : AllocCall) (s' : LuaHeap) : Prop :=
  s'.luaMemTotal.toNat = totalSize s'.blocks
    ∧ palAllocSize s.blocks call.ptr ≤ s.luaMemTotal.toNat

/-- `realloc` does not fail for a block. -/
def KeepsNoBlock (_ : LuaHeap) (call : AllocCall) : Prop :=
  call.nsize ≠ 0 → call.outcome = none → call.ptr = none

/-- The counter is exact, and no block is empty. -/
structure AllocInv (s : LuaHeap) : Prop where
  exact : s.luaMemTotal.toNat = totalSize s.blocks
  size_pos : ∀ b ∈ s.blocks, 0 < b.size

/-- Freeing takes away the size of the block. -/
lemma totalSize_free (blocks : List Block) (ptr : Option ℕ) :
    totalSize (palAllocFree blocks ptr) + palAllocSize blocks ptr = totalSize blocks := by
  cases ptr with
  | none => rfl
  | some p =>
      simp only [palAllocFree, palAllocSize]
      induction blocks with
      | nil => rfl
      | cons b blocks ih =>
          by_cases hb : b.address = p
          · rw [List.eraseP_cons_of_pos (by simpa using hb),
              List.find?_cons_of_pos (by simpa using hb)]
            exact Nat.add_comm _ _
          · rw [List.eraseP_cons_of_neg (by simpa using hb),
              List.find?_cons_of_neg (by simpa using hb)]
            simp only [totalSize] at ih ⊢
            omega

lemma size_pos_free {blocks : List Block} (h : ∀ b ∈ blocks, 0 < b.size) (ptr : Option ℕ) :
    ∀ b ∈ palAllocFree blocks ptr, 0 < b.size := by
  intro b hb
  cases ptr with
  | none => exact h b hb
  | some p => exact h b (List.mem_of_mem_eraseP hb)

/-- A live block is not empty. -/
lemma size_pos_of_live {blocks : List Block} (h : ∀ b ∈ blocks, 0 < b.size) {p : ℕ}
    (hp : blocks.any (·.address = p) = true) : 0 < palAllocSize blocks (some p) := by
  obtain ⟨b, hb, hbp⟩ := List.any_eq_true.mp hp
  simp only [palAllocSize]
  cases hfind : blocks.find? (·.address = p) with
  | none => exact absurd hbp (List.find?_eq_none.mp hfind b hb)
  | some c => exact h c (List.mem_of_find?_eq_some hfind)

lemma palAllocSize_new (b : Block) (blocks : List Block) :
    palAllocSize (b :: blocks) (some b.address) = b.size := by
  simp [palAllocSize]

/-! ## One call -/

section Call

variable {s : LuaHeap} {call : AllocCall}

/-- The subtraction. -/
lemma AllocInv.toNat_sub (h : AllocInv s) (ptr : Option ℕ) :
    (s.luaMemTotal - UInt64.ofNat (palAllocSize s.blocks ptr)).toNat
      = totalSize (palAllocFree s.blocks ptr) := by
  have hfree := totalSize_free s.blocks ptr
  have hexact := h.exact
  have hlt := s.luaMemTotal.toNat_lt_size
  have hsize : (UInt64.ofNat (palAllocSize s.blocks ptr)).toNat = palAllocSize s.blocks ptr :=
    UInt64.toNat_ofNat_of_lt' (Nat.lt_of_le_of_lt (by omega) hlt)
  rw [UInt64.toNat_sub_of_le _ _ (UInt64.le_iff_toNat_le.mpr (by omega)), hsize]
  omega

lemma lAlloc_free (hsize : call.nsize = 0) :
    lAlloc s call
      = ⟨palAllocFree s.blocks call.ptr,
        s.luaMemTotal - UInt64.ofNat (palAllocSize s.blocks call.ptr)⟩ := by
  simp only [lAlloc]
  rw [if_pos hsize]

lemma lAlloc_fails (hsize : call.nsize ≠ 0) (hout : call.outcome = none) :
    lAlloc s call
      = ⟨s.blocks, s.luaMemTotal - UInt64.ofNat (palAllocSize s.blocks call.ptr)⟩ := by
  simp only [lAlloc]
  rw [if_neg hsize, hout]
  exact congrArg (LuaHeap.mk s.blocks) (UInt64.add_zero _)

lemma lAlloc_succeeds {b : Block} (hsize : call.nsize ≠ 0) (hout : call.outcome = some b) :
    lAlloc s call
      = ⟨b :: palAllocFree s.blocks call.ptr,
        s.luaMemTotal - UInt64.ofNat (palAllocSize s.blocks call.ptr) + UInt64.ofNat b.size⟩ := by
  simp only [lAlloc]
  rw [if_neg hsize, hout]
  simp only [palAllocRealloc, Option.map_some, palAllocSize_new]

/-- What a call that can happen tells. -/
lemma canHappen_iff {blocks : List Block} :
    call.canHappen blocks = true
      ↔ (∀ p, call.ptr = some p → blocks.any (·.address = p) = true)
        ∧ (call.nsize ≠ 0 → ∀ b, call.outcome = some b → call.nsize ≤ b.size
          ∧ (palAllocFree blocks call.ptr).any (·.address = b.address) = false
          ∧ totalSize (b :: palAllocFree blocks call.ptr) < UInt64.size) := by
  simp only [AllocCall.canHappen, Bool.and_eq_true, Bool.or_eq_true, Option.all_eq_true,
    decide_eq_true_eq, Bool.not_eq_true', and_assoc]
  rw [or_iff_not_imp_left]

/-- **A call keeps the counter exact** unless `realloc` fails for a block.  Cases on the call: it
frees, `realloc` fails, or `realloc` returns a block. -/
lemma AllocInv.lAlloc (h : AllocInv s) (hcan : call.canHappen s.blocks = true)
    (hkeep : KeepsNoBlock s call) : AllocInv (lAlloc s call) := by
  obtain ⟨-, hout⟩ := canHappen_iff.mp hcan
  by_cases hsize : call.nsize = 0
  · rw [lAlloc_free hsize]
    exact ⟨h.toNat_sub call.ptr, size_pos_free h.size_pos call.ptr⟩
  · cases hres : call.outcome with
    | none =>
        have hptr := hkeep hsize hres
        have hsub := h.toNat_sub call.ptr
        rw [lAlloc_fails hsize hres]
        rw [hptr] at hsub ⊢
        exact ⟨hsub, h.size_pos⟩
    | some b =>
        obtain ⟨hle, -, htotal⟩ := hout hsize b hres
        rw [lAlloc_succeeds hsize hres]
        refine ⟨?_, fun c hc => ?_⟩
        · have hcons : totalSize (b :: palAllocFree s.blocks call.ptr)
              = b.size + totalSize (palAllocFree s.blocks call.ptr) := rfl
          have hb : (UInt64.ofNat b.size).toNat = b.size :=
            UInt64.toNat_ofNat_of_lt' (Nat.lt_of_le_of_lt (by omega) htotal)
          have hlt : totalSize (palAllocFree s.blocks call.ptr) + b.size < UInt64.size := by omega
          rw [UInt64.toNat_add, h.toNat_sub, hb, hcons]
          exact (Nat.mod_eq_of_lt hlt).trans (Nat.add_comm _ _)
        · rcases List.mem_cons.mp hc with rfl | hc
          · omega
          · exact size_pos_free h.size_pos call.ptr c hc

/-- The subtraction does not wrap while the counter is exact. -/
lemma AllocInv.palAllocSize_le (h : AllocInv s) (ptr : Option ℕ) :
    palAllocSize s.blocks ptr ≤ s.luaMemTotal.toNat := by
  have hfree := totalSize_free s.blocks ptr
  have hexact := h.exact
  omega

/-- **Where the next call keeps the counter exact.**  If `realloc` fails for a block, the counter
lacks the size of that block. -/
lemma AllocInv.countsExactly_iff (h : AllocInv s) (hcan : call.canHappen s.blocks = true) :
    CountsExactly s call (Luan.lAlloc s call) ↔ KeepsNoBlock s call := by
  constructor
  · rintro ⟨hcounts, -⟩ hsize hres
    by_contra hptr
    obtain ⟨p, hp⟩ := Option.ne_none_iff_exists'.mp hptr
    have hlive := size_pos_of_live h.size_pos ((canHappen_iff.mp hcan).1 p hp)
    have hfree := totalSize_free s.blocks (some p)
    rw [lAlloc_fails hsize hres] at hcounts
    dsimp only at hcounts
    rw [hp, h.toNat_sub] at hcounts
    omega
  · intro hkeep
    exact ⟨(h.lAlloc hcan hkeep).exact, h.palAllocSize_le call.ptr⟩

end Call

/-! ## Whole runs -/

lemma luaAlloc_step {s s' : LuaHeap} {call : AllocCall} (h : luaAlloc.step s call = some s') :
    call.canHappen s.blocks = true ∧ s' = lAlloc s call := by
  simp only [luaAlloc] at h
  split_ifs at h with hcan
  exact ⟨hcan, (Option.some.inj h).symm⟩

lemma allocInv_init : AllocInv luaAlloc.init := ⟨rfl, fun b hb => by cases hb⟩

/-- **The counter is exact** after every call of a run, and never wraps, exactly if `realloc` fails
for no block in it. -/
theorem lua_mem_total_iff (calls : List AllocCall) :
    luaAlloc.Along CountsExactly calls ↔ luaAlloc.Meets KeepsNoBlock calls := by
  refine Machine.along_iff_meets allocInv_init (fun s call s' hs hstep hkeep => ?_)
    (fun s call s' hs hstep => ?_) calls
  · obtain ⟨hcan, rfl⟩ := luaAlloc_step hstep
    exact hs.lAlloc hcan hkeep
  · obtain ⟨hcan, rfl⟩ := luaAlloc_step hstep
    exact hs.countsExactly_iff hcan

/-- A block of 32 bytes that cannot be grown, and is freed. -/
def failedGrowth : List AllocCall :=
  [⟨none, 32, some ⟨4096, 32⟩⟩, ⟨some 4096, 64, none⟩, ⟨some 4096, 0, none⟩]

/-- Behind the failure the counter says 0 with a block of 32 bytes live, and freeing that block
takes it below zero. -/
theorem failed_realloc_uncounts :
    luaAlloc.run (failedGrowth.take 2) = some ⟨[⟨4096, 32⟩], 0⟩
      ∧ luaAlloc.run failedGrowth = some ⟨[], 0 - 32⟩
      ∧ ¬ luaAlloc.Along CountsExactly failedGrowth := by
  have hrun : luaAlloc.run (failedGrowth.take 2) = some ⟨[⟨4096, 32⟩], 0⟩ := by decide
  refine ⟨hrun, by decide, fun h => ?_⟩
  have hstep : luaAlloc.step ⟨[⟨4096, 32⟩], 0⟩ ⟨some 4096, 0, none⟩ = some ⟨[], 0 - 32⟩ := by decide
  have hlast := Machine.along_concat (show luaAlloc.Along CountsExactly
    (failedGrowth.take 2 ++ [⟨some 4096, 0, none⟩]) from h) hrun hstep
  exact absurd hlast.2 (by decide)

end Luan
