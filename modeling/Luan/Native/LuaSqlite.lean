import Luan.Core.CRun
import Luan.Core.Machine
import Mathlib.Data.List.Nodup
import Mathlib.Logic.Function.Basic

/-!
# Databases and statements that Lua owns

The life of the objects of `lua-apple/utlua/lsqlite3.c`.  A database object owns a handle of SQLite,
a statement object owns a statement.  The registry has a table for every open database with an
entry for each of its statement objects: the entry keeps the database object alive, but its key is
the bare address of the statement object, and `close` follows it.

* `LsqState.Inv` — what is open has a living object that owns it.
* `lsq_owned` — in every run, no handle and no statement is lost.
* `lsq_defined_iff` — a run is defined exactly as long as `close` and `close_vm` find no entry of a
  statement object that has been collected.
* `lsq_collects` — without `close_vm` and without statements of empty texts, nothing undefined
  happens and the collector leaves nothing behind.
-/

namespace Luan

/-- `sdb`; `opened` is that its `db` is not `NULL`. -/
structure LsqDb where
  opened : Bool
  /-- The Lua program still refers to the object. -/
  held : Bool
  deriving DecidableEq, Repr

/-- `sdb_vm`; `vm` is that its `vm` is not `NULL`. -/
structure LsqVm where
  db : ℕ
  vm : Bool
  temp : Bool
  held : Bool
  deriving DecidableEq, Repr

/-- The objects of Lua, the registry and what SQLite has open.  A handle and a statement have the
name of the object that they are made for.  A name stands for an address, and here no address is
used a second time. -/
structure LsqState where
  dbs : ℕ → Option LsqDb
  vms : ℕ → Option LsqVm
  /-- The registry's table of a database: the addresses of its statement objects. -/
  vmTable : ℕ → Option (List ℕ)
  handles : ℕ → Bool
  stmts : ℕ → Option ℕ
  next : ℕ

/-- What `sqlite3_prepare_v2` does: a text without a statement gives `SQLITE_OK` and `NULL`. -/
inductive PrepareResult
  | statement
  | empty
  | error
  deriving DecidableEq, Repr

/-- What Lua does. -/
inductive LsqEvent
  | openDb (opens : Bool)
  /-- `db:prepare`, and with `temp` `db:rows`, `db:nrows` and `db:urows` -/
  | prepare (d : ℕ) (temp : Bool) (result : PrepareResult)
  /-- A method of a statement object that asks SQLite about its statement. -/
  | useVm (v : ℕ)
  /-- The iterator of `rows`, which may find no row any more. -/
  | nextRow (v : ℕ) (row : Bool)
  | finalize (v : ℕ)
  | close (d : ℕ)
  | closeVm (d : ℕ) (temp : Bool)
  | dropDb (d : ℕ)
  | dropVm (v : ℕ)
  | gcDb (d : ℕ)
  | gcVm (v : ℕ)
  deriving DecidableEq, Repr

/-- Neither `close_vm` nor a text without a statement: these leave the entry of an object that does
not own a statement. -/
def LsqEvent.Clean : LsqEvent → Prop
  | .closeVm _ _ => False
  | .prepare _ _ .empty => False
  | _ => True

namespace LsqState

/-! ## The functions -/

/-- `sqlite3_finalize` -/
def finalize (s : LsqState) (v : ℕ) : CRun LsqState :=
  match s.stmts v with
  | some _ => .done { s with stmts := Function.update s.stmts v none }
  | none => .undefined

/-- `cleanupvm` -/
def cleanupvm (s : LsqState) (v : ℕ) : CRun LsqState :=
  match s.vms v with
  -- the object has been collected
  | none => .undefined
  | some m =>
      match s.vmTable m.db with
      -- `lua_rawset` on `nil`
      | none => .undefined
      | some keys =>
          let s := { s with vmTable := Function.update s.vmTable m.db (some (keys.erase v)) }
          if m.vm then
            (s.finalize v).bind fun s =>
              .done { s with vms := Function.update s.vms v (some { m with vm := false }) }
          else .done s

/-- The loop of `cleanupdb`. -/
def cleanupAll : List ℕ → LsqState → CRun LsqState
  | [], s => .done s
  | v :: vs, s => (s.cleanupvm v).bind fun s => cleanupAll vs s

/-- `sqlite3_close` gives `SQLITE_BUSY`. -/
def busy (s : LsqState) (d : ℕ) : Bool := (List.range s.next).any fun v => s.stmts v = some d

/-- `cleanupdb` -/
def cleanupdb (s : LsqState) (d : ℕ) : CRun LsqState :=
  match s.vmTable d with
  -- `lua_next` on `nil`
  | none => .undefined
  | some keys =>
      (cleanupAll keys s).bind fun s =>
        .done
          { s with
            vmTable := Function.update s.vmTable d none
            handles := if s.busy d then s.handles else Function.update s.handles d false
            dbs := Function.update s.dbs d ((s.dbs d).map fun o => { o with opened := false }) }

/-- `newdb`, with a handle that `sqlite3_open_v2` has made -/
def newdb (s : LsqState) (held : Bool) : LsqState :=
  { s with
    dbs := Function.update s.dbs s.next (some ⟨true, held⟩)
    vmTable := Function.update s.vmTable s.next (some [])
    handles := Function.update s.handles s.next true
    next := s.next + 1 }

/-- `newvm`, where the database has a table -/
def newvm (s : LsqState) (d : ℕ) (keys : List ℕ) (temp held : Bool) : LsqState :=
  { s with
    vms := Function.update s.vms s.next (some ⟨d, false, temp, held⟩)
    vmTable := Function.update s.vmTable d (some (s.next :: keys))
    next := s.next + 1 }

/-- `db_prepare` and `db_do_rows` -/
def prepare (s : LsqState) (d : ℕ) (temp : Bool) (result : PrepareResult) : CRun LsqState :=
  match s.vmTable d with
  | none => .undefined
  | some keys =>
      match result with
      | .statement =>
          if s.handles d then
            let s' := s.newvm d keys temp true
            .done
              { s' with
                vms := Function.update s'.vms s.next (some ⟨d, true, temp, true⟩)
                stmts := Function.update s'.stmts s.next (some d) }
          else .undefined
      | .empty => .done (s.newvm d keys temp true)
      | .error => (s.newvm d keys temp false).cleanupvm s.next

/-- The last row of `db_do_next_row`. -/
def lastRow (s : LsqState) (v : ℕ) (m : LsqVm) : CRun LsqState :=
  if m.temp then
    (s.finalize v).bind fun s =>
      { s with vms := Function.update s.vms v (some { m with vm := false }) }.cleanupvm v
  else .done s

/-- The loop of `db_close_vm`. -/
def closeVms (temp : Bool) : List ℕ → LsqState → CRun LsqState
  | [], s => .done s
  | v :: vs, s =>
      match s.vms v with
      | none => .undefined
      | some m =>
          if (!temp || m.temp) && m.vm then
            (s.finalize v).bind fun s => closeVms temp vs
              { s with vms := Function.update s.vms v (some { m with vm := false }) }
          else closeVms temp vs s

/-- What a method of a database object does, behind `lsqlite_checkdb`. -/
def withDb (s : LsqState) (d : ℕ) (method : CRun LsqState) : Option (CRun LsqState) :=
  match s.dbs d with
  | some ⟨opened, true⟩ => some (if opened then method else .done s)
  | _ => none

/-- What a method of a statement object does, behind `lsqlite_checkvm`. -/
def withVm (s : LsqState) (v : ℕ) (method : LsqVm → CRun LsqState) : Option (CRun LsqState) :=
  match s.vms v with
  | some ⟨d, vm, temp, true⟩ => some (if vm then method ⟨d, vm, temp, true⟩ else .done s)
  | _ => none

/-- One event; it is undefined where it cannot happen. -/
def step (s : LsqState) : LsqEvent → Option (CRun LsqState)
  | .openDb opens => some (if opens then .done (s.newdb true) else (s.newdb false).cleanupdb s.next)
  | .prepare d temp result => s.withDb d (s.prepare d temp result)
  | .useVm v => s.withVm v fun _ => if (s.stmts v).isSome then .done s else .undefined
  | .nextRow v row => s.withVm v fun m =>
      if (s.stmts v).isSome then if row then .done s else s.lastRow v m else .undefined
  | .finalize v => s.withVm v fun _ => s.cleanupvm v
  | .close d => s.withDb d (s.cleanupdb d)
  | .closeVm d temp => s.withDb d (closeVms temp ((s.vmTable d).getD []) s)
  | .dropDb d =>
      match s.dbs d with
      | some ⟨opened, true⟩ =>
          some (.done { s with dbs := Function.update s.dbs d (some ⟨opened, false⟩) })
      | _ => none
  | .dropVm v =>
      match s.vms v with
      | some ⟨d, vm, temp, true⟩ =>
          some (.done { s with vms := Function.update s.vms v (some ⟨d, vm, temp, false⟩) })
      | _ => none
  -- an entry of the table is a reference to the database object
  | .gcDb d =>
      match s.dbs d, (s.vmTable d).getD [] with
      | some ⟨opened, false⟩, [] =>
          some ((if opened then s.cleanupdb d else .done s).bind fun s =>
            .done { s with dbs := Function.update s.dbs d none })
      | _, _ => none
  | .gcVm v =>
      match s.vms v with
      | some ⟨_, vm, _, false⟩ =>
          some ((if vm then s.cleanupvm v else .done s).bind fun s =>
            .done { s with vms := Function.update s.vms v none })
      | _ => none

/-- Behind something undefined nothing more is said. -/
def machine : Machine (CRun LsqState) LsqEvent where
  init := .done ⟨fun _ => none, fun _ => none, fun _ => none, fun _ => false, fun _ => none, 0⟩
  step
    | .done s, e => s.step e
    | _, _ => none

/-! ## The invariant -/

/-- **What holds of every state**: a handle is open, and has its table, exactly if a living database
object owns it, and a statement is there exactly if a living object of an entry owns it. -/
structure Inv (s : LsqState) : Prop where
  handles : ∀ d, s.handles d = true ↔ ∃ o, s.dbs d = some o ∧ o.opened = true
  table : ∀ d, (s.vmTable d).isSome = true ↔ s.handles d = true
  stmts : ∀ v h, s.stmts v = some h ↔ ∃ m, s.vms v = some m ∧ m.vm = true ∧ m.db = h
  listed : ∀ v m, s.vms v = some m → m.vm = true → ∃ keys, s.vmTable m.db = some keys ∧ v ∈ keys
  keys : ∀ d keys, s.vmTable d = some keys →
    keys.Nodup ∧ ∀ v ∈ keys, v < s.next ∧ ∀ m, s.vms v = some m → m.db = d
  fresh : ∀ n, s.next ≤ n → s.dbs n = none ∧ s.vms n = none

/-- No entry of a database's table is the address of an object that has been collected. -/
def EntriesAlive (s : LsqState) (d : ℕ) : Prop :=
  ∀ keys, s.vmTable d = some keys → ∀ v ∈ keys, (s.vms v).isSome = true

/-- Every entry is the address of an object that owns a statement. -/
def Tidy (s : LsqState) : Prop :=
  ∀ d keys v, s.vmTable d = some keys → v ∈ keys → ∃ m, s.vms v = some m ∧ m.vm = true

variable {s s' : LsqState} {d v : ℕ} {m : LsqVm} {keys : List ℕ}

/-- What `cleanupvm` leaves behind. -/
def forget (s : LsqState) (v : ℕ) (m : LsqVm) (keys : List ℕ) : LsqState :=
  { s with
    vmTable := Function.update s.vmTable m.db (some (keys.erase v))
    vms := Function.update s.vms v (some { m with vm := false })
    stmts := Function.update s.stmts v none }

section Forget

variable (s) (v) (m) (keys)

@[simp]
lemma forget_vms : (s.forget v m keys).vms
    = Function.update s.vms v (some { m with vm := false }) := rfl

@[simp]
lemma forget_vmTable : (s.forget v m keys).vmTable
    = Function.update s.vmTable m.db (some (keys.erase v)) := rfl

@[simp]
lemma forget_stmts : (s.forget v m keys).stmts = Function.update s.stmts v none := rfl

@[simp]
lemma forget_dbs : (s.forget v m keys).dbs = s.dbs := rfl

@[simp]
lemma forget_handles : (s.forget v m keys).handles = s.handles := rfl

@[simp]
lemma forget_next : (s.forget v m keys).next = s.next := rfl

end Forget

namespace Inv

lemma stmts_none (h : s.Inv) (hm : s.vms v = some m) (hvm : m.vm = false) : s.stmts v = none := by
  cases hs : s.stmts v with
  | none => rfl
  | some d =>
      obtain ⟨m', hm', hvm', -⟩ := (h.stmts v d).mp hs
      rw [hm] at hm'
      obtain rfl := Option.some.inj hm'
      rw [hvm] at hvm'
      cases hvm'

lemma stmts_some (h : s.Inv) (hm : s.vms v = some m) (hvm : m.vm = true) :
    s.stmts v = some m.db := (h.stmts v m.db).mpr ⟨m, hm, hvm, rfl⟩

lemma finalize (h : s.Inv) (hm : s.vms v = some m) (hvm : m.vm = true) :
    s.finalize v = .done { s with stmts := Function.update s.stmts v none } := by
  rw [LsqState.finalize, h.stmts_some hm hvm]

/-- **`cleanupvm`** of an object that is alive. -/
lemma cleanupvm (h : s.Inv) (hm : s.vms v = some m) (hkeys : s.vmTable m.db = some keys) :
    s.cleanupvm v = .done (s.forget v m keys) := by
  rw [LsqState.cleanupvm, hm]
  simp only [hkeys]
  cases hvm : m.vm with
  | true =>
      have hs := h.stmts_some hm hvm
      simp [LsqState.finalize, hs, forget]
  | false =>
      have hs := h.stmts_none hm hvm
      have hstmts : Function.update s.stmts v none = s.stmts := by
        rw [← hs, Function.update_eq_self]
      have hvms : Function.update s.vms v (some { m with vm := false }) = s.vms := by
        have hsame : { m with vm := false } = m := by
          rw [← hvm]
        rw [hsame, ← hm, Function.update_eq_self]
      simp [forget, hstmts, hvms]

/-- **Another statement object** under an address, with its statement. -/
lemma setVm (h : s.Inv) {x : Option LsqVm} {t : Option ℕ} (hlt : v < s.next)
    (hdb : ∀ m, x = some m → ∀ d keys, s.vmTable d = some keys → v ∈ keys → m.db = d)
    (hstmt : ∀ d, t = some d ↔ ∃ m, x = some m ∧ m.vm = true ∧ m.db = d)
    (hlisted : ∀ m, x = some m → m.vm = true → ∃ keys, s.vmTable m.db = some keys ∧ v ∈ keys) :
    { s with vms := Function.update s.vms v x, stmts := Function.update s.stmts v t }.Inv := by
  refine ⟨h.handles, h.table, fun w d => ?_, fun w m hw hvm => ?_, fun d keys hkeys => ?_,
    fun n hn => ?_⟩
  · by_cases hwv : w = v
    · subst hwv
      simp only [Function.update_self]
      exact hstmt d
    · simp only [Function.update_of_ne hwv]
      exact h.stmts w d
  · by_cases hwv : w = v
    · subst hwv
      simp only [Function.update_self] at hw
      exact hlisted m hw hvm
    · simp only [Function.update_of_ne hwv] at hw
      exact h.listed w m hw hvm
  · refine ⟨(h.keys d keys hkeys).1, fun w hw => ?_⟩
    obtain ⟨hwlt, hwdb⟩ := (h.keys d keys hkeys).2 w hw
    refine ⟨hwlt, fun m hm => ?_⟩
    by_cases hwv : w = v
    · subst hwv
      simp only [Function.update_self] at hm
      exact hdb m hm d keys hkeys hw
    · simp only [Function.update_of_ne hwv] at hm
      exact hwdb m hm
  · have hne : n ≠ v := by
      simp only at hn
      omega
    simp only [Function.update_of_ne hne]
    exact h.fresh n hn

/-- An object that is there is below `next`, and in no table but its database's. -/
lemma vm_lt (h : s.Inv) (hm : s.vms v = some m) : v < s.next := by
  by_contra hge
  rw [(h.fresh v (by omega)).2] at hm
  cases hm

lemma entry_db (h : s.Inv) (hm : s.vms v = some m) :
    ∀ d keys, s.vmTable d = some keys → v ∈ keys → m.db = d :=
  fun d keys hkeys hv => ((h.keys d keys hkeys).2 v hv).2 m hm

/-- The statement is finalized. -/
lemma retire (h : s.Inv) (hm : s.vms v = some m) :
    { s with
      vms := Function.update s.vms v (some { m with vm := false })
      stmts := Function.update s.stmts v none }.Inv := by
  have hentry := h.entry_db hm
  refine h.setVm (h.vm_lt hm) (fun m' hm' => ?_) (fun d => iff_of_false nofun ?_)
    fun m' hm' hvm => ?_
  · rw [← Option.some.inj hm']
    exact hentry
  · rintro ⟨m', hm', hvm, -⟩
    rw [← Option.some.inj hm'] at hvm
    cases hvm
  · rw [← Option.some.inj hm'] at hvm
    cases hvm

/-- The object is collected. -/
lemma free (h : s.Inv) (hm : s.vms v = some m) (hvm : m.vm = false) :
    { s with vms := Function.update s.vms v none }.Inv := by
  have hinv := h.setVm (x := none) (t := s.stmts v) (h.vm_lt hm) nofun
    (fun d => by rw [h.stmts_none hm hvm]; simp) nofun
  rwa [Function.update_eq_self] at hinv

/-- The program loses the object. -/
lemma dropVm (h : s.Inv) (hm : s.vms v = some m) (held : Bool) :
    { s with vms := Function.update s.vms v (some { m with held := held }) }.Inv := by
  have hentry := h.entry_db hm
  have hinv := h.setVm (x := some { m with held := held }) (t := s.stmts v) (h.vm_lt hm)
    (fun m' hm' => by rw [← Option.some.inj hm']; exact hentry)
    (fun d => by rw [h.stmts v d, hm]; simp)
    (fun m' hm' hvm => by
      rw [← Option.some.inj hm'] at hvm ⊢
      exact h.listed v m hm hvm)
  rwa [Function.update_eq_self] at hinv

/-- The object gets its statement. -/
lemma own (h : s.Inv) (hm : s.vms v = some m) (hkeys : s.vmTable m.db = some keys) (hv : v ∈ keys)
    {m' : LsqVm} (hdb : m'.db = m.db) (hvm : m'.vm = true) :
    { s with
      vms := Function.update s.vms v (some m')
      stmts := Function.update s.stmts v (some m.db) }.Inv := by
  refine h.setVm (h.vm_lt hm) (fun m'' hm'' => ?_) (fun d => ?_) fun m'' hm'' _ => ?_
  · rw [← Option.some.inj hm'', hdb]
    exact h.entry_db hm
  · simp [hvm, hdb]
  · rw [← Option.some.inj hm'', hdb]
    exact ⟨keys, hkeys, hv⟩

/-- **Another table** of a database that has one. -/
lemma setTable (h : s.Inv) (hkeys : s.vmTable d = some keys) {keys' : List ℕ}
    (hnodup : keys'.Nodup) (hlt : ∀ v ∈ keys', v < s.next)
    (hdb : ∀ v ∈ keys', ∀ m, s.vms v = some m → m.db = d)
    (hstays : ∀ v ∈ keys, ∀ m, s.vms v = some m → m.vm = true → v ∈ keys') :
    { s with vmTable := Function.update s.vmTable d (some keys') }.Inv := by
  refine ⟨h.handles, fun e => ?_, h.stmts, fun v m hm hvm => ?_, fun e ks he => ?_, h.fresh⟩
  · rw [← h.table e]
    by_cases hed : e = d
    · simp only [hed, Function.update_self, hkeys, Option.isSome_some]
    · simp only [Function.update_of_ne hed]
  · obtain ⟨ks, hks, hv⟩ := h.listed v m hm hvm
    by_cases hed : m.db = d
    · rw [hed, hkeys] at hks
      obtain rfl := Option.some.inj hks
      exact ⟨keys', by simp only [hed, Function.update_self], hstays v hv m hm hvm⟩
    · exact ⟨ks, by simp only [Function.update_of_ne hed, hks], hv⟩
  · by_cases hed : e = d
    · subst hed
      simp only [Function.update_self] at he
      obtain rfl := Option.some.inj he
      exact ⟨hnodup, fun v hv => ⟨hlt v hv, hdb v hv⟩⟩
    · simp only [Function.update_of_ne hed] at he
      exact h.keys e ks he

lemma forget (h : s.Inv) (hm : s.vms v = some m) (hkeys : s.vmTable m.db = some keys) :
    (s.forget v m keys).Inv := by
  obtain ⟨hnodup, hold⟩ := h.keys m.db keys hkeys
  refine (h.retire hm).setTable hkeys (hnodup.erase v)
    (fun w hw => (hold w (List.mem_of_mem_erase hw)).1) (fun w hw m' hm' => ?_)
    fun w hw m' hm' hvm => ?_
  · by_cases hwv : w = v
    · simp only [hwv, Function.update_self] at hm'
      rw [← Option.some.inj hm']
    · simp only [Function.update_of_ne hwv] at hm'
      exact (hold w (List.mem_of_mem_erase hw)).2 m' hm'
  · by_cases hwv : w = v
    · simp only [hwv, Function.update_self] at hm'
      rw [← Option.some.inj hm'] at hvm
      cases hvm
    · exact (List.mem_erase_of_ne hwv).mpr hw

/-- Nothing has the next name. -/
lemma next_free (h : s.Inv) (hn : s.next ≤ v) :
    s.handles v = false ∧ s.vmTable v = none ∧ s.stmts v = none
      ∧ ∀ d keys, s.vmTable d = some keys → v ∉ keys := by
  obtain ⟨hdbs, hvms⟩ := h.fresh v hn
  have hhandle : s.handles v = false := by
    rw [Bool.eq_false_iff]
    intro htrue
    obtain ⟨o, ho, -⟩ := (h.handles v).mp htrue
    rw [hdbs] at ho
    cases ho
  refine ⟨hhandle, ?_, ?_, fun d keys hkeys hv => ?_⟩
  · cases htable : s.vmTable v with
    | none => rfl
    | some keys =>
        have htrue := (h.table v).mp (by rw [htable]; rfl)
        rw [hhandle] at htrue
        cases htrue
  · cases hs : s.stmts v with
    | none => rfl
    | some d =>
        obtain ⟨m, hm, -⟩ := (h.stmts v d).mp hs
        rw [hvms] at hm
        cases hm
  · have hlt := ((h.keys d keys hkeys).2 v hv).1
    omega

lemma newvm (h : s.Inv) (hkeys : s.vmTable d = some keys) (temp held : Bool) :
    (s.newvm d keys temp held).Inv := by
  obtain ⟨hnodup, hold⟩ := h.keys d keys hkeys
  have hfresh := h.next_free (Nat.le_refl s.next)
  have hgrow : { s with next := s.next + 1 }.Inv :=
    ⟨h.handles, h.table, h.stmts, h.listed,
      fun e ks he => ⟨(h.keys e ks he).1, fun v hv =>
        ⟨Nat.lt_succ_of_lt ((h.keys e ks he).2 v hv).1, ((h.keys e ks he).2 v hv).2⟩⟩,
      fun n hn => h.fresh n (Nat.le_of_succ_le hn)⟩
  have hvm := hgrow.setVm (v := s.next) (x := some ⟨d, false, temp, held⟩) (t := s.stmts s.next)
    (Nat.lt_succ_self _)
    (fun m' _ e ks he hv => absurd hv (hfresh.2.2.2 e ks he))
    (fun e => by rw [hfresh.2.2.1]; simp)
    (fun m' hm' hvm => by rw [← Option.some.inj hm'] at hvm; cases hvm)
  rw [Function.update_eq_self] at hvm
  refine hvm.setTable hkeys (List.nodup_cons.mpr ⟨hfresh.2.2.2 d keys hkeys, hnodup⟩)
    (fun w hw => ?_) (fun w hw m' hm' => ?_) fun w hw _ _ _ => List.mem_cons_of_mem _ hw
  · rcases List.mem_cons.mp hw with rfl | hw
    · exact Nat.lt_succ_self _
    · exact Nat.lt_succ_of_lt (hold w hw).1
  · rcases List.mem_cons.mp hw with rfl | hw
    · simp only [Function.update_self] at hm'
      rw [← Option.some.inj hm']
    · have hne : w ≠ s.next := Nat.ne_of_lt (hold w hw).1
      simp only [Function.update_of_ne hne] at hm'
      exact (hold w hw).2 m' hm'

/-- **Another database object** under an address, with its handle and its table. -/
lemma setDb (h : s.Inv) {x : Option LsqDb} {table : Option (List ℕ)} {handle : Bool} {next : ℕ}
    (hnext : s.next ≤ next) (hlt : d < next)
    (hhandle : handle = true ↔ ∃ o, x = some o ∧ o.opened = true)
    (htable : table.isSome = true ↔ handle = true)
    (hkeys : ∀ keys, table = some keys → s.vmTable d = some keys ∨ keys = [])
    (hlisted : ∀ v m, s.vms v = some m → m.vm = true → m.db = d →
      ∃ keys, table = some keys ∧ v ∈ keys) :
    { s with
      dbs := Function.update s.dbs d x
      vmTable := Function.update s.vmTable d table
      handles := Function.update s.handles d handle
      next := next }.Inv := by
  refine ⟨fun e => ?_, fun e => ?_, h.stmts, fun v m hm hvm => ?_, fun e ks he => ?_,
    fun n hn => ?_⟩
  · by_cases hed : e = d
    · subst hed
      simp only [Function.update_self]
      exact hhandle
    · simp only [Function.update_of_ne hed]
      exact h.handles e
  · by_cases hed : e = d
    · subst hed
      simp only [Function.update_self]
      exact htable
    · simp only [Function.update_of_ne hed]
      exact h.table e
  · by_cases hed : m.db = d
    · obtain ⟨ks, hks, hv⟩ := hlisted v m hm hvm hed
      exact ⟨ks, by simp only [hed, Function.update_self, hks], hv⟩
    · simp only [Function.update_of_ne hed]
      exact h.listed v m hm hvm
  · have hsame : s.vmTable e = some ks ∨ ks = [] := by
      by_cases hed : e = d
      · subst hed
        simp only [Function.update_self] at he
        exact hkeys ks he
      · simp only [Function.update_of_ne hed] at he
        exact Or.inl he
    rcases hsame with hold | rfl
    · refine ⟨(h.keys e ks hold).1, fun v hv => ?_⟩
      obtain ⟨hvlt, hdb⟩ := (h.keys e ks hold).2 v hv
      exact ⟨Nat.lt_of_lt_of_le hvlt hnext, hdb⟩
    · exact ⟨List.nodup_nil, nofun⟩
  · simp only at hn
    have hne : n ≠ d := by omega
    simp only [Function.update_of_ne hne]
    exact h.fresh n (by omega)

lemma db_lt (h : s.Inv) (hkeys : s.vmTable d = some keys) : d < s.next := by
  by_contra hge
  rw [(h.next_free (Nat.le_of_not_lt hge)).2.1] at hkeys
  cases hkeys

/-- A database with an open handle has its table. -/
lemma exists_table (h : s.Inv) {o : LsqDb} (ho : s.dbs d = some o) (hopen : o.opened = true) :
    ∃ keys, s.vmTable d = some keys :=
  Option.isSome_iff_exists.mp ((h.table d).mpr ((h.handles d).mpr ⟨o, ho, hopen⟩))

/-- **The loop of `cleanupdb`**, where no entry is stale. -/
lemma cleanupAll (h : s.Inv) (hkeys : s.vmTable d = some keys)
    (halive : ∀ v ∈ keys, (s.vms v).isSome = true) :
    ∃ s', LsqState.cleanupAll keys s = .done s' ∧ s'.Inv ∧ s'.dbs = s.dbs
      ∧ s'.handles = s.handles ∧ s'.next = s.next
      ∧ s'.vmTable = Function.update s.vmTable d (some [])
      ∧ ∀ w, w ∉ keys → s'.vms w = s.vms w := by
  induction keys generalizing s with
  | nil =>
      exact ⟨s, rfl, h, rfl, rfl, rfl, by rw [← hkeys, Function.update_eq_self], fun _ _ => rfl⟩
  | cons v vs ih =>
      obtain ⟨hnodup, hold⟩ := h.keys d (v :: vs) hkeys
      obtain ⟨m, hm⟩ := Option.isSome_iff_exists.mp (halive v List.mem_cons_self)
      obtain rfl := (hold v List.mem_cons_self).2 m hm
      have hkeys' : (s.forget v m (v :: vs)).vmTable m.db = some vs := by
        simp
      obtain ⟨s', hrun, hinv, hdbs, hhandles, hnext, htable, hvms⟩ :=
        ih (h.forget hm hkeys) hkeys' fun w hw => by
          have hne : w ≠ v := fun heq => (List.nodup_cons.mp hnodup).1 (heq ▸ hw)
          rw [forget_vms, Function.update_of_ne hne]
          exact halive w (List.mem_cons_of_mem v hw)
      refine ⟨s', ?_, hinv, hdbs, hhandles, hnext, ?_, fun w hw => ?_⟩
      · rw [LsqState.cleanupAll, h.cleanupvm hm hkeys, CRun.done_bind, hrun]
      · rw [htable, forget_vmTable, Function.update_idem]
      · obtain ⟨hwv, hwvs⟩ := not_or.mp (mt List.mem_cons.mpr hw)
        rw [hvms w hwvs, forget_vms, Function.update_of_ne hwv]

/-- The loop of `cleanupdb` follows the address of an object that has been collected. -/
lemma cleanupAll_undefined (h : s.Inv) (hkeys : s.vmTable d = some keys)
    (hdead : ∃ v ∈ keys, s.vms v = none) : LsqState.cleanupAll keys s = .undefined := by
  induction keys generalizing s with
  | nil =>
      obtain ⟨v, hv, -⟩ := hdead
      cases hv
  | cons v vs ih =>
      obtain ⟨w, hw, hnone⟩ := hdead
      rw [LsqState.cleanupAll]
      cases hm : s.vms v with
      | none =>
          rw [LsqState.cleanupvm, hm]
          rfl
      | some m =>
          obtain rfl := ((h.keys d (v :: vs) hkeys).2 v List.mem_cons_self).2 m hm
          have hne : w ≠ v := by
            rintro rfl
            rw [hnone] at hm
            cases hm
          rw [h.cleanupvm hm hkeys, CRun.done_bind]
          refine ih (h.forget hm hkeys) (by simp) ⟨w, ?_, ?_⟩
          · exact (List.mem_cons.mp hw).resolve_left hne
          · rw [forget_vms, Function.update_of_ne hne, hnone]

/-- Without an entry there is no statement, and `sqlite3_close` closes. -/
lemma not_busy (h : s.Inv) (hkeys : s.vmTable d = some []) : s.busy d = false := by
  rw [busy, List.any_eq_false]
  intro v _ hv
  obtain ⟨m, hm, hvm, rfl⟩ := (h.stmts v d).mp (of_decide_eq_true hv)
  obtain ⟨keys, hkeys', hmem⟩ := h.listed v m hm hvm
  rw [hkeys] at hkeys'
  obtain rfl := Option.some.inj hkeys'
  cases hmem

/-- **`cleanupdb`**, where no entry is stale: the handle is closed. -/
lemma cleanupdb (h : s.Inv) (hkeys : s.vmTable d = some keys)
    (halive : ∀ v ∈ keys, (s.vms v).isSome = true) :
    ∃ s', s.cleanupdb d = .done s' ∧ s'.Inv
      ∧ s'.dbs = Function.update s.dbs d ((s.dbs d).map fun o => { o with opened := false })
      ∧ s'.next = s.next ∧ s'.vmTable = Function.update s.vmTable d none
      ∧ ∀ w, w ∉ keys → s'.vms w = s.vms w := by
  obtain ⟨s₁, hrun, hinv, hdbs, hhandles, hnext, htable, hvms⟩ := h.cleanupAll hkeys halive
  have hempty : s₁.vmTable d = some [] := by rw [htable, Function.update_self]
  rw [LsqState.cleanupdb, hkeys]
  simp only [hrun, CRun.done_bind, hinv.not_busy hempty]
  refine ⟨_, rfl, ?_, ?_, hnext, ?_, hvms⟩
  · refine hinv.setDb (Nat.le_refl _) (hinv.db_lt hempty) (iff_of_false nofun ?_)
      (iff_of_false nofun nofun) nofun fun v m hm hvm hd => ?_
    · rintro ⟨o, ho, hopen⟩
      obtain ⟨o', -, rfl⟩ := Option.map_eq_some_iff.mp ho
      cases hopen
    · obtain ⟨ks, hks, hmem⟩ := hinv.listed v m hm hvm
      rw [hd, hempty] at hks
      obtain rfl := Option.some.inj hks
      cases hmem
  · simp only [hdbs]
  · simp only [htable, Function.update_idem]

/-- The loop of `db_close_vm`, where no entry is stale. -/
lemma closeVms (h : s.Inv) (temp : Bool) (halive : ∀ v ∈ keys, (s.vms v).isSome = true) :
    ∃ s', LsqState.closeVms temp keys s = .done s' ∧ s'.Inv := by
  induction keys generalizing s with
  | nil => exact ⟨s, rfl, h⟩
  | cons v vs ih =>
      obtain ⟨m, hm⟩ := Option.isSome_iff_exists.mp (halive v List.mem_cons_self)
      rw [LsqState.closeVms, hm]
      simp only
      split_ifs with hcloses
      · have hvm := (Bool.and_eq_true_iff.mp hcloses).2
        rw [h.finalize hm hvm, CRun.done_bind]
        refine ih (h.retire hm) fun w hw => ?_
        by_cases hwv : w = v
        · simp [hwv]
        · simp only [Function.update_of_ne hwv]
          exact halive w (List.mem_cons_of_mem v hw)
      · exact ih h fun w hw => halive w (List.mem_cons_of_mem v hw)

/-- The loop of `db_close_vm` follows the address of an object that has been collected. -/
lemma closeVms_undefined (h : s.Inv) (temp : Bool) (hdead : ∃ v ∈ keys, s.vms v = none) :
    LsqState.closeVms temp keys s = .undefined := by
  induction keys generalizing s with
  | nil =>
      obtain ⟨v, hv, -⟩ := hdead
      cases hv
  | cons v vs ih =>
      obtain ⟨w, hw, hnone⟩ := hdead
      rw [LsqState.closeVms]
      cases hm : s.vms v with
      | none => rfl
      | some m =>
          have hne : w ≠ v := by
            rintro rfl
            rw [hnone] at hm
            cases hm
          have hmem := (List.mem_cons.mp hw).resolve_left hne
          simp only
          split_ifs with hcloses
          · have hvm := (Bool.and_eq_true_iff.mp hcloses).2
            rw [h.finalize hm hvm, CRun.done_bind]
            exact ih (h.retire hm) ⟨w, hmem, by simp only [Function.update_of_ne hne, hnone]⟩
          · exact ih h ⟨w, hmem, hnone⟩

lemma newdb (h : s.Inv) (held : Bool) : (s.newdb held).Inv := by
  have hfree := h.next_free (Nat.le_refl s.next)
  refine h.setDb (Nat.le_succ _) (Nat.lt_succ_self _) (iff_of_true rfl ⟨_, rfl, rfl⟩)
    (iff_of_true rfl rfl) (fun keys hkeys => Or.inr (Option.some.inj hkeys).symm)
    fun v m hm hvm hd => ?_
  obtain ⟨keys, hkeys, -⟩ := h.listed v m hm hvm
  rw [hd, hfree.2.1] at hkeys
  cases hkeys

lemma tidy_newdb (ht : s.Tidy) (held : Bool) : (s.newdb held).Tidy := by
  intro e ks w he hw
  by_cases hen : e = s.next
  · subst hen
    have hempty : (s.newdb held).vmTable s.next = some [] := Function.update_self ..
    rw [hempty] at he
    rw [← Option.some.inj he] at hw
    cases hw
  · exact ht e ks w ((Function.update_of_ne hen ..).symm.trans he) hw

/-- A database object is collected, or the program loses it: its handle stays. -/
lemma setOwner (h : s.Inv) {o : LsqDb} (ho : s.dbs d = some o) {x : Option LsqDb}
    (hsame : o.opened = true ↔ ∃ o', x = some o' ∧ o'.opened = true) :
    { s with dbs := Function.update s.dbs d x }.Inv := by
  refine ⟨fun e => ?_, h.table, h.stmts, h.listed, h.keys, fun n hn => ?_⟩
  · by_cases hed : e = d
    · subst hed
      simp only [Function.update_self, ← hsame, h.handles e, ho, Option.some.injEq]
      simp
    · simp only [Function.update_of_ne hed]
      exact h.handles e
  · have hne : n ≠ d := by
      rintro rfl
      rw [(h.fresh n hn).1] at ho
      cases ho
    simp only [Function.update_of_ne hne]
    exact h.fresh n hn

lemma tidy_forget (h : s.Inv) (hm : s.vms v = some m) (hkeys : s.vmTable m.db = some keys)
    (hothers : ∀ e ks w, s.vmTable e = some ks → w ∈ ks → w ≠ v →
      ∃ m, s.vms w = some m ∧ m.vm = true) : (s.forget v m keys).Tidy := by
  intro e ks w he hw
  have hold : ∃ old, s.vmTable e = some old ∧ w ∈ old ∧ w ≠ v := by
    by_cases hed : e = m.db
    · subst hed
      rw [forget_vmTable, Function.update_self] at he
      obtain rfl := Option.some.inj he
      have hmem := ((h.keys _ _ hkeys).1.mem_erase_iff).mp hw
      exact ⟨keys, hkeys, hmem.2, hmem.1⟩
    · rw [forget_vmTable, Function.update_of_ne hed] at he
      refine ⟨ks, he, hw, ?_⟩
      rintro rfl
      exact hed (h.entry_db hm e ks he hw).symm
  obtain ⟨old, hold, hmem, hwv⟩ := hold
  rw [forget_vms, Function.update_of_ne hwv]
  exact hothers e old w hold hmem hwv

/-- A database is closed: the entries of the others are as before. -/
lemma tidy_closed (h : s.Inv) (ht : s.Tidy) (hkeys : s.vmTable d = some keys)
    (htable : s'.vmTable = Function.update s.vmTable d none)
    (hvms : ∀ w, w ∉ keys → s'.vms w = s.vms w) : s'.Tidy := by
  intro e ks w he hw
  have hed : e ≠ d := by
    rintro rfl
    rw [htable, Function.update_self] at he
    cases he
  rw [htable, Function.update_of_ne hed] at he
  obtain ⟨m, hm, hvm⟩ := ht e ks w he hw
  have hwd : w ∉ keys := fun hmem =>
    hed ((h.entry_db hm e ks he hw).symm.trans (h.entry_db hm d keys hkeys hmem))
  exact ⟨m, by rw [hvms w hwd, hm], hvm⟩

lemma prepare (h : s.Inv) (hkeys : s.vmTable d = some keys) (temp : Bool)
    (result : PrepareResult) : ∃ s', s.prepare d temp result = .done s' ∧ s'.Inv
      ∧ (result ≠ .empty → s.Tidy → s'.Tidy) := by
  have hopen : s.handles d = true := (h.table d).mp (by rw [hkeys]; rfl)
  have hne : d ≠ s.next := Nat.ne_of_lt (h.db_lt hkeys)
  have hnew : ∀ held, (s.newvm d keys temp held).vms s.next = some ⟨d, false, temp, held⟩ :=
    fun held => Function.update_self ..
  have htable : ∀ held, (s.newvm d keys temp held).vmTable d = some (s.next :: keys) :=
    fun held => Function.update_self ..
  -- the entries but the new one are as before
  have hothers : s.Tidy → ∀ held e ks w, (s.newvm d keys temp held).vmTable e = some ks → w ∈ ks →
      w ≠ s.next → ∃ m, (s.newvm d keys temp held).vms w = some m ∧ m.vm = true := by
    intro ht held e ks w he hw hne'
    have hold : ∃ old, s.vmTable e = some old ∧ w ∈ old := by
      by_cases hed : e = d
      · rw [hed, htable held] at he
        obtain rfl := Option.some.inj he
        exact ⟨keys, hed ▸ hkeys, (List.mem_cons.mp hw).resolve_left hne'⟩
      · exact ⟨ks, (Function.update_of_ne hed ..).symm.trans he, hw⟩
    obtain ⟨old, hold, hmem⟩ := hold
    obtain ⟨m, hm, hvm⟩ := ht e old w hold hmem
    exact ⟨m, (Function.update_of_ne hne' ..).trans hm, hvm⟩
  rw [LsqState.prepare, hkeys]
  cases result with
  | statement =>
      simp only [hopen, if_true]
      refine ⟨_, rfl, (h.newvm hkeys temp true).own (hnew true) (htable true) List.mem_cons_self
        rfl rfl, fun _ ht e ks w he hw => ?_⟩
      by_cases hwn : w = s.next
      · subst hwn
        exact ⟨⟨d, true, temp, true⟩, Function.update_self .., rfl⟩
      · simp only [Function.update_of_ne hwn]
        exact hothers ht true e ks w he hw hwn
  | empty => exact ⟨_, rfl, h.newvm hkeys temp true, fun hno => absurd rfl hno⟩
  | error =>
      have hinv := h.newvm hkeys temp false
      exact ⟨_, hinv.cleanupvm (hnew false) (htable false),
        hinv.forget (hnew false) (htable false),
        fun _ ht => hinv.tidy_forget (hnew false) (htable false) (hothers ht false)⟩

lemma lastRow (h : s.Inv) (hm : s.vms v = some m) (hvm : m.vm = true) :
    ∃ s', s.lastRow v m = .done s' ∧ s'.Inv ∧ (s.Tidy → s'.Tidy) := by
  rw [LsqState.lastRow]
  split_ifs
  · obtain ⟨keys, hkeys, -⟩ := h.listed v m hm hvm
    have hretire := h.retire hm
    rw [h.finalize hm hvm, CRun.done_bind]
    refine ⟨_, hretire.cleanupvm (Function.update_self ..) hkeys,
      hretire.forget (Function.update_self ..) hkeys, fun ht =>
        hretire.tidy_forget (Function.update_self ..) hkeys fun e ks w he hw hwv => ?_⟩
    simp only [Function.update_of_ne hwv]
    exact ht e ks w he hw
  · exact ⟨s, rfl, h, id⟩

lemma gcVm (h : s.Inv) (hm : s.vms v = some m) :
    ∃ s', ((if m.vm then s.cleanupvm v else .done s).bind fun s =>
      .done { s with vms := Function.update s.vms v none }) = .done s' ∧ s'.Inv
        ∧ (s.Tidy → s'.Tidy) := by
  -- nothing is left of an object without a statement
  have hfree : ∀ t : LsqState, t.Tidy → (∀ m, t.vms v = some m → m.vm = false) →
      { t with vms := Function.update t.vms v none }.Tidy := by
    intro t ht hno e ks w he hw
    obtain ⟨m', hm', hvm'⟩ := ht e ks w he hw
    have hwv : w ≠ v := by
      rintro rfl
      rw [hno m' hm'] at hvm'
      cases hvm'
    exact ⟨m', by simp only [Function.update_of_ne hwv, hm'], hvm'⟩
  split_ifs with hvm
  · obtain ⟨keys, hkeys, -⟩ := h.listed v m hm hvm
    rw [h.cleanupvm hm hkeys, CRun.done_bind]
    refine ⟨_, rfl, (h.forget hm hkeys).free (Function.update_self ..) rfl, fun ht => ?_⟩
    refine hfree _ (h.tidy_forget hm hkeys fun e ks w he hw _ => ht e ks w he hw) fun m' hm' => ?_
    rw [forget_vms, Function.update_self] at hm'
    rw [← Option.some.inj hm']
  · refine ⟨_, rfl, h.free hm (by simpa using hvm), fun ht => hfree s ht fun m' hm' => ?_⟩
    rw [hm] at hm'
    rw [← Option.some.inj hm']
    simpa using hvm

lemma gcDb (h : s.Inv) {o : LsqDb} (ho : s.dbs d = some o) (hempty : (s.vmTable d).getD [] = []) :
    ∃ s', ((if o.opened then s.cleanupdb d else .done s).bind fun s =>
      .done { s with dbs := Function.update s.dbs d none }) = .done s' ∧ s'.Inv
        ∧ (s.Tidy → s'.Tidy) := by
  split_ifs with hopen
  · obtain ⟨keys, hkeys⟩ := h.exists_table ho hopen
    rw [hkeys, Option.getD_some] at hempty
    subst hempty
    obtain ⟨s', hrun, hinv, hdbs, -, htable, hvms⟩ := h.cleanupdb hkeys nofun
    have ho' : s'.dbs d = some { o with opened := false } := by
      rw [hdbs, Function.update_self, ho]
      rfl
    rw [hrun, CRun.done_bind]
    exact ⟨_, rfl, hinv.setOwner ho' (by simp), fun ht => h.tidy_closed ht hkeys htable hvms⟩
  · exact ⟨_, rfl, h.setOwner ho (by simpa using hopen), id⟩

end Inv

/-- **No stale entry is followed.** -/
def Safe (s : LsqState) : LsqEvent → Prop
  | .close d => s.EntriesAlive d
  | .closeVm d _ => s.EntriesAlive d
  | _ => True

/-- A method of a database object answers, or it raises that the database is closed. -/
lemma withDb_cases {method r : CRun LsqState} (h : s.withDb d method = some r) :
    ∃ o, s.dbs d = some o ∧ o.held = true
      ∧ ((o.opened = true ∧ r = method) ∨ (o.opened = false ∧ r = .done s)) := by
  rw [withDb] at h
  split at h
  · rename_i opened hdb
    refine ⟨_, hdb, rfl, ?_⟩
    cases opened with
    | true => exact Or.inl ⟨rfl, (Option.some.inj h).symm⟩
    | false => exact Or.inr ⟨rfl, (Option.some.inj h).symm⟩
  · cases h

/-- A method of a statement object answers, or it raises that the object is closed. -/
lemma withVm_cases {method : LsqVm → CRun LsqState} {r : CRun LsqState}
    (h : s.withVm v method = some r) :
    ∃ m, s.vms v = some m ∧ m.held = true
      ∧ ((m.vm = true ∧ r = method m) ∨ (m.vm = false ∧ r = .done s)) := by
  rw [withVm] at h
  split at h
  · rename_i d vm temp hvm
    refine ⟨_, hvm, rfl, ?_⟩
    cases vm with
    | true => exact Or.inl ⟨rfl, (Option.some.inj h).symm⟩
    | false => exact Or.inr ⟨rfl, (Option.some.inj h).symm⟩
  · cases h

/-- A database that is closed has no entries. -/
lemma Inv.entriesAlive_closed (h : s.Inv) {o : LsqDb} (ho : s.dbs d = some o)
    (hclosed : o.opened = false) : s.EntriesAlive d := by
  intro keys hkeys
  obtain ⟨o', ho', hopen⟩ := (h.handles d).mp ((h.table d).mp (by rw [hkeys]; rfl))
  rw [ho] at ho'
  obtain rfl := Option.some.inj ho'
  rw [hclosed] at hopen
  cases hopen

lemma not_entriesAlive (hkeys : s.vmTable d = some keys) (hdead : ¬ s.EntriesAlive d) :
    ∃ v ∈ keys, s.vms v = none := by
  by_contra hno
  refine hdead fun keys' hkeys' v hv => ?_
  rw [hkeys] at hkeys'
  obtain rfl := Option.some.inj hkeys'
  rw [Option.isSome_iff_ne_none]
  exact fun hnone => hno ⟨v, hv, hnone⟩

/-- The event is defined; the invariant stays, and what is tidy stays tidy. -/
def Keeps (s : LsqState) (e : LsqEvent) (r : CRun LsqState) : Prop :=
  ∃ s', r = .done s' ∧ s'.Inv ∧ (e.Clean → s.Tidy → s'.Tidy)

namespace Inv

variable {e : LsqEvent} {r : CRun LsqState}

/-- The method has raised an error. -/
lemma keeps_self (h : s.Inv) : s.Keeps e (.done s) := ⟨s, rfl, h, fun _ => id⟩

lemma openDb_keeps (h : s.Inv) {opens : Bool} (hstep : s.step (.openDb opens) = some r) :
    s.Keeps (.openDb opens) r := by
  rw [← Option.some.inj hstep]
  cases opens with
  | true => exact ⟨_, rfl, h.newdb true, fun _ ht => Inv.tidy_newdb ht true⟩
  | false =>
      have hinv := h.newdb false
      have hkeys : (s.newdb false).vmTable s.next = some [] := Function.update_self ..
      obtain ⟨s', hrun, hinv', -, -, htable, hvms⟩ := hinv.cleanupdb hkeys nofun
      exact ⟨s', hrun, hinv', fun _ ht =>
        hinv.tidy_closed (Inv.tidy_newdb ht false) hkeys htable hvms⟩

lemma prepare_keeps (h : s.Inv) {temp : Bool} {result : PrepareResult}
    (hstep : s.step (.prepare d temp result) = some r) : s.Keeps (.prepare d temp result) r := by
  obtain ⟨o, ho, -, ⟨hopen, rfl⟩ | ⟨-, rfl⟩⟩ := withDb_cases hstep
  · obtain ⟨keys, hkeys⟩ := h.exists_table ho hopen
    obtain ⟨s', hrun, hinv, htidy⟩ := h.prepare hkeys temp result
    exact ⟨s', hrun, hinv, fun hclean => htidy fun hempty => by
      subst hempty
      exact hclean⟩
  · exact h.keeps_self

lemma useVm_keeps (h : s.Inv) (hstep : s.step (.useVm v) = some r) : s.Keeps (.useVm v) r := by
  rw [step] at hstep
  obtain ⟨m, hm, -, ⟨hvm, rfl⟩ | ⟨-, rfl⟩⟩ := withVm_cases hstep
  · rw [h.stmts_some hm hvm]
    exact h.keeps_self
  · exact h.keeps_self

lemma nextRow_keeps (h : s.Inv) {row : Bool} (hstep : s.step (.nextRow v row) = some r) :
    s.Keeps (.nextRow v row) r := by
  rw [step] at hstep
  obtain ⟨m, hm, -, ⟨hvm, rfl⟩ | ⟨-, rfl⟩⟩ := withVm_cases hstep
  · rw [h.stmts_some hm hvm]
    cases row with
    | true => exact h.keeps_self
    | false =>
        obtain ⟨s', hrun, hinv, htidy⟩ := h.lastRow hm hvm
        exact ⟨s', hrun, hinv, fun _ => htidy⟩
  · exact h.keeps_self

lemma finalize_keeps (h : s.Inv) (hstep : s.step (.finalize v) = some r) :
    s.Keeps (.finalize v) r := by
  rw [step] at hstep
  obtain ⟨m, hm, -, ⟨hvm, rfl⟩ | ⟨-, rfl⟩⟩ := withVm_cases hstep
  · obtain ⟨keys, hkeys, -⟩ := h.listed v m hm hvm
    exact ⟨_, h.cleanupvm hm hkeys, h.forget hm hkeys, fun _ ht =>
      h.tidy_forget hm hkeys fun e ks w he hw _ => ht e ks w he hw⟩
  · exact h.keeps_self

lemma close_spec (h : s.Inv) (hstep : s.step (.close d) = some r) :
    (s.EntriesAlive d → s.Keeps (.close d) r) ∧ (¬ s.EntriesAlive d → r = .undefined) := by
  obtain ⟨o, ho, -, ⟨hopen, rfl⟩ | ⟨hclosed, rfl⟩⟩ := withDb_cases hstep
  · obtain ⟨keys, hkeys⟩ := h.exists_table ho hopen
    constructor
    · intro halive
      obtain ⟨s', hrun, hinv, -, -, htable, hvms⟩ := h.cleanupdb hkeys (halive keys hkeys)
      exact ⟨s', hrun, hinv, fun _ ht => h.tidy_closed ht hkeys htable hvms⟩
    · intro hdead
      rw [LsqState.cleanupdb, hkeys]
      simp only [h.cleanupAll_undefined hkeys (not_entriesAlive hkeys hdead)]
      rfl
  · exact ⟨fun _ => h.keeps_self, fun hdead => absurd (h.entriesAlive_closed ho hclosed) hdead⟩

lemma closeVm_spec (h : s.Inv) {temp : Bool} (hstep : s.step (.closeVm d temp) = some r) :
    (s.EntriesAlive d → s.Keeps (.closeVm d temp) r)
      ∧ (¬ s.EntriesAlive d → r = .undefined) := by
  obtain ⟨o, ho, -, ⟨hopen, rfl⟩ | ⟨hclosed, rfl⟩⟩ := withDb_cases hstep
  · obtain ⟨keys, hkeys⟩ := h.exists_table ho hopen
    rw [hkeys, Option.getD_some]
    refine ⟨fun halive => ?_,
      fun hdead => h.closeVms_undefined temp (not_entriesAlive hkeys hdead)⟩
    obtain ⟨s', hrun, hinv⟩ := h.closeVms temp (halive keys hkeys)
    exact ⟨s', hrun, hinv, False.elim⟩
  · exact ⟨fun _ => h.keeps_self, fun hdead => absurd (h.entriesAlive_closed ho hclosed) hdead⟩

lemma dropDb_keeps (h : s.Inv) (hstep : s.step (.dropDb d) = some r) : s.Keeps (.dropDb d) r := by
  simp only [step] at hstep
  split at hstep
  · rename_i opened hdb
    rw [← Option.some.inj hstep]
    exact ⟨_, rfl, h.setOwner hdb (by simp), fun _ => id⟩
  · cases hstep

lemma dropVm_keeps (h : s.Inv) (hstep : s.step (.dropVm v) = some r) : s.Keeps (.dropVm v) r := by
  simp only [step] at hstep
  split at hstep
  · rename_i d vm temp hvm
    rw [← Option.some.inj hstep]
    refine ⟨_, rfl, h.dropVm hvm false, fun _ ht e ks w he hw => ?_⟩
    obtain ⟨m, hm, hown⟩ := ht e ks w he hw
    by_cases hwv : w = v
    · subst hwv
      rw [hvm] at hm
      rw [← Option.some.inj hm] at hown
      exact ⟨⟨d, vm, temp, false⟩, Function.update_self .., hown⟩
    · exact ⟨m, by simp only [Function.update_of_ne hwv, hm], hown⟩
  · cases hstep

lemma gcDb_keeps (h : s.Inv) (hstep : s.step (.gcDb d) = some r) : s.Keeps (.gcDb d) r := by
  simp only [step] at hstep
  split at hstep
  · rename_i opened hdb hempty
    rw [← Option.some.inj hstep]
    obtain ⟨s', hrun, hinv, htidy⟩ := h.gcDb hdb hempty
    exact ⟨s', hrun, hinv, fun _ => htidy⟩
  · cases hstep

lemma gcVm_keeps (h : s.Inv) (hstep : s.step (.gcVm v) = some r) : s.Keeps (.gcVm v) r := by
  simp only [step] at hstep
  split at hstep
  · rename_i d vm temp hvm
    rw [← Option.some.inj hstep]
    obtain ⟨s', hrun, hinv, htidy⟩ := h.gcVm hvm
    exact ⟨s', hrun, hinv, fun _ => htidy⟩
  · cases hstep

end Inv

/-- **One step**: it is defined exactly if it follows no stale entry, and then the invariant
stays; what is tidy stays tidy. -/
lemma step_spec (h : s.Inv) {e : LsqEvent} {r : CRun LsqState} (hstep : s.step e = some r) :
    (s.Safe e → s.Keeps e r) ∧ (¬ s.Safe e → r = .undefined) := by
  -- all but two events are safe
  have hsafe : s.Keeps e r → s.Safe e →
      (s.Safe e → s.Keeps e r) ∧ (¬ s.Safe e → r = .undefined) :=
    fun hkeeps hs => ⟨fun _ => hkeeps, fun hno => absurd hs hno⟩
  cases e with
  | openDb opens => exact hsafe (h.openDb_keeps hstep) trivial
  | prepare d temp result => exact hsafe (h.prepare_keeps hstep) trivial
  | useVm v => exact hsafe (h.useVm_keeps hstep) trivial
  | nextRow v row => exact hsafe (h.nextRow_keeps hstep) trivial
  | finalize v => exact hsafe (h.finalize_keeps hstep) trivial
  | close d => exact h.close_spec hstep
  | closeVm d temp => exact h.closeVm_spec hstep
  | dropDb d => exact hsafe (h.dropDb_keeps hstep) trivial
  | dropVm v => exact hsafe (h.dropVm_keeps hstep) trivial
  | gcDb d => exact hsafe (h.gcDb_keeps hstep) trivial
  | gcVm v => exact hsafe (h.gcVm_keeps hstep) trivial

lemma inv_init :
    Inv ⟨fun _ => none, fun _ => none, fun _ => none, fun _ => false, fun _ => none, 0⟩ :=
  ⟨by simp, by simp, by simp, nofun, nofun, fun _ _ => ⟨rfl, rfl⟩⟩

/-- The run has been defined so far, and the invariant holds. -/
def Good : CRun LsqState → Prop
  | .done s => s.Inv
  | _ => False

/-- `Safe`, in a run that has been defined so far -/
def SafeRun : CRun LsqState → LsqEvent → Prop
  | .done s, e => s.Safe e
  | _, _ => True

lemma good_step {r r' : CRun LsqState} {e : LsqEvent} (h : Good r)
    (hstep : machine.step r e = some r') : (SafeRun r e → Good r') ∧ (Good r' ↔ r' ≠ .undefined)
      ∧ (r' ≠ .undefined ↔ SafeRun r e) := by
  cases r with
  | running => cases h
  | undefined => cases h
  | done s =>
      obtain ⟨hsafe, hdead⟩ := step_spec h hstep
      have hgood : SafeRun (.done s) e → Good r' ∧ r' ≠ .undefined := by
        intro hs
        obtain ⟨s', rfl, hinv, -⟩ := hsafe hs
        exact ⟨hinv, nofun⟩
      have hback : r' ≠ .undefined → SafeRun (.done s) e := by
        intro hr
        by_contra hno
        exact hr (hdead hno)
      refine ⟨fun hs => (hgood hs).1, ⟨fun hr => ?_, fun hr => (hgood (hback hr)).1⟩,
        hback, fun hs => (hgood hs).2⟩
      rintro rfl
      exact hr

/-- A statement of an empty text is lost, and its database is closed. -/
example : machine.run [.openDb true, .prepare 0 false .empty, .dropVm 1, .gcVm 1, .close 0]
    = some .undefined := rfl

/-- **No handle and no statement is lost**: in every state of every run, what SQLite has open has a
living object that owns it, and the object that owns a statement has its entry with a database
that is open. -/
theorem lsq_owned {es : List LsqEvent} {s : LsqState} (hrun : machine.run es = some (.done s)) :
    (∀ d, s.handles d = true → ∃ o, s.dbs d = some o ∧ o.opened = true)
      ∧ ∀ v d, s.stmts v = some d → s.handles d = true
        ∧ (∃ keys, s.vmTable d = some keys ∧ v ∈ keys)
        ∧ ∃ m, s.vms v = some m ∧ m.vm = true ∧ m.db = d := by
  have hgood : ∀ t, CRun.done s = .done t → t.Inv := Machine.invariant (M := machine)
    (I := fun r => ∀ t, r = .done t → t.Inv)
    (fun t ht => by rw [← CRun.done.inj ht]; exact inv_init)
    (fun r e r' h hstep t ht => by
      subst ht
      cases r with
      | running => cases hstep
      | undefined => cases hstep
      | done u =>
          have hgood : Good (.done u) := h u rfl
          exact (good_step hgood hstep).2.1.mpr nofun) hrun
  have h := hgood s rfl
  refine ⟨fun d hd => (h.handles d).mp hd, fun v d hv => ?_⟩
  obtain ⟨m, hm, hvm, rfl⟩ := (h.stmts v d).mp hv
  obtain ⟨keys, hkeys, hmem⟩ := h.listed v m hm hvm
  exact ⟨(h.table m.db).mp (by rw [hkeys]; rfl), ⟨keys, hkeys, hmem⟩, m, hm, hvm, rfl⟩

/-- The database object is lost, and its statement object is not. -/
def lostDb : List LsqEvent :=
  [.openDb true, .prepare 0 true .statement, .dropDb 0, .nextRow 1 true]

theorem lsq_owned_lostDb : ∃ s, machine.run lostDb = some (.done s)
    ∧ (∀ d, s.handles d = true → ∃ o, s.dbs d = some o ∧ o.opened = true)
    ∧ ∀ v d, s.stmts v = some d → s.handles d = true
      ∧ (∃ keys, s.vmTable d = some keys ∧ v ∈ keys)
      ∧ ∃ m, s.vms v = some m ∧ m.vm = true ∧ m.db = d :=
  ⟨_, rfl, lsq_owned (show machine.run lostDb = some _ from rfl)⟩

/-- The program has lost all its objects. -/
def AllDropped (s : LsqState) : Prop :=
  (∀ d o, s.dbs d = some o → o.held = false) ∧ ∀ v m, s.vms v = some m → m.held = false

/-- The collector finds nothing to collect. -/
def Collected (s : LsqState) : Prop := ∀ n, s.step (.gcDb n) = none ∧ s.step (.gcVm n) = none

/-- A tidy state from which nothing can be collected is empty. -/
lemma Inv.collected (h : s.Inv) (ht : s.Tidy) (hdropped : s.AllDropped) (hcollected : s.Collected)
    (n : ℕ) : s.dbs n = none ∧ s.vms n = none ∧ s.handles n = false ∧ s.stmts n = none := by
  have hvms : ∀ v, s.vms v = none := by
    intro v
    cases hm : s.vms v with
    | none => rfl
    | some m =>
        have hheld := hdropped.2 v m hm
        obtain ⟨d, vm, temp, held⟩ := m
        simp only at hheld
        subst hheld
        have hgc := (hcollected v).2
        simp [step, hm] at hgc
  have hdbs : ∀ d, s.dbs d = none := by
    intro d
    cases ho : s.dbs d with
    | none => rfl
    | some o =>
        have hheld := hdropped.1 d o ho
        obtain ⟨opened, held⟩ := o
        simp only at hheld
        subst hheld
        have hempty : (s.vmTable d).getD [] = [] := by
          cases htable : s.vmTable d with
          | none => rfl
          | some keys =>
              rw [Option.getD_some, List.eq_nil_iff_forall_not_mem]
              intro v hv
              obtain ⟨m, hm, -⟩ := ht d keys v htable hv
              rw [hvms v] at hm
              cases hm
        have hgc := (hcollected d).1
        simp [step, ho, hempty] at hgc
  refine ⟨hdbs n, hvms n, ?_, ?_⟩
  · rw [Bool.eq_false_iff]
    intro htrue
    obtain ⟨o, ho, -⟩ := (h.handles n).mp htrue
    rw [hdbs n] at ho
    cases ho
  · cases hs : s.stmts n with
    | none => rfl
    | some d =>
        obtain ⟨m, hm, -⟩ := (h.stmts n d).mp hs
        rw [hvms n] at hm
        cases hm

/-- A tidy state has no stale entry. -/
lemma Tidy.safe (ht : s.Tidy) (e : LsqEvent) : s.Safe e := by
  have halive : ∀ d, s.EntriesAlive d := by
    intro d keys hkeys v hv
    obtain ⟨m, hm, -⟩ := ht d keys v hkeys hv
    rw [hm]
    rfl
  cases e with
  | close d => exact halive d
  | closeVm d temp => exact halive d
  | _ => trivial

/-- **A program without `close_vm` and without empty texts** does nothing undefined, and when it has
lost all its objects and the collector has taken all that it can, nothing is left: no object, no
open handle and no statement. -/
theorem lsq_collects {es : List LsqEvent} {r : CRun LsqState} (hrun : machine.run es = some r)
    (hclean : ∀ e ∈ es, e.Clean) : ∃ s, r = .done s ∧ (s.AllDropped → s.Collected →
      ∀ n, s.dbs n = none ∧ s.vms n = none ∧ s.handles n = false ∧ s.stmts n = none) := by
  obtain ⟨s, rfl, hinv, htidy⟩ : ∃ s, r = .done s ∧ s.Inv ∧ s.Tidy :=
    Machine.runFrom_invariant (M := machine) (Q := LsqEvent.Clean)
      (I := fun r => ∃ s, r = .done s ∧ s.Inv ∧ s.Tidy)
      (fun r e r' h hclean hstep => by
        obtain ⟨s, rfl, hinv, htidy⟩ := h
        obtain ⟨s', rfl, hinv', htidy'⟩ := (step_spec hinv hstep).1 (htidy.safe e)
        exact ⟨s', rfl, hinv', htidy' hclean htidy⟩)
      ⟨_, rfl, inv_init, nofun⟩ hclean hrun
  exact ⟨s, rfl, hinv.collected htidy⟩

/-- All rows are read, and all objects are lost and collected. -/
def rowsRead : List LsqEvent := lostDb ++ [.nextRow 1 false, .dropVm 1, .gcVm 1, .gcDb 0]

theorem lsq_collects_rowsRead : ∃ r, machine.run rowsRead = some r
    ∧ ∃ s, r = .done s ∧ (s.AllDropped → s.Collected →
      ∀ n, s.dbs n = none ∧ s.vms n = none ∧ s.handles n = false ∧ s.stmts n = none) :=
  ⟨_, rfl, lsq_collects (show machine.run rowsRead = some _ from rfl)
    (by simp [rowsRead, lostDb, LsqEvent.Clean])⟩

end LsqState

end Luan
