import Luan.Core.CRun
import Mathlib.Logic.Function.Basic
import Mathlib.Tactic.Common

/-!
# Converting between character sets

`lua-apple/utlua/luaiconv.c`: objects of Lua that own a descriptor of `iconv`, and a loop that calls
`iconv` with one buffer again and again.  `iconv` is a parameter.  `Iconv.Promises` is what it
promises: a text has one conversion, up to its end or to the first place that cannot be converted,
and texts one behind the other are converted like one text.

* `liconvLoop_spec` — the size of the buffer does not matter.
* `iconv_run` — in every run over any number of objects nothing undefined happens, and what comes
  out of an object is the conversion of what was put in, up to the first error.
-/

namespace Luan

/-! ## `iconv` -/

/-- How the conversion of a text ends: at the end of the text, with `EILSEQ` or with `EINVAL`. -/
inductive IconvEnd
  | converted
  | illegal
  | incomplete
  deriving DecidableEq, Repr

/-- What a call of `iconv` gives; behind `tooBig` is `E2BIG`. -/
inductive IconvResult
  | ends (how : IconvEnd)
  | tooBig
  | unknown
  deriving DecidableEq, Repr

/-- What a call of `iconv` leaves behind. -/
structure IconvCall (State : Type) where
  result : IconvResult
  state : State
  /-- The number of bytes that `inbuf` has moved. -/
  consumed : ℕ
  /-- What was written at `outbuf`. -/
  piece : List UInt8

/-- `iconv_open(tocode, fromcode)`, and `iconv` with the input and the room in the buffer. -/
structure Iconv where
  State : Type
  openWith : List UInt8 → List UInt8 → Option State
  iconv : State → List UInt8 → ℕ → IconvCall State

/-- A call either comes to where the conversion of its input ends, or writes something and leaves
the rest of the conversion. -/
def IconvCall.Keeps {State : Type}
    (C : State → List UInt8 → List UInt8 → IconvEnd → State → Prop) (call : IconvCall State)
    (input out : List UInt8) (how : IconvEnd) (last : State) : Prop :=
  (call.result = .ends how ∧ call.piece = out ∧ call.state = last)
    ∨ (call.result = .tooBig ∧ call.piece ≠ [] ∧ ∃ rest, out = call.piece ++ rest
      ∧ C call.state (input.drop call.consumed) rest how last)

/-- **What `iconv` promises**: `C s input out how last` says that in the state `s` the text `input`
is converted to `out`, that the conversion ends so, and what state it ends in.  A room of 256 bytes
is enough for any character. -/
structure Iconv.Promises (I : Iconv)
    (C : I.State → List UInt8 → List UInt8 → IconvEnd → I.State → Prop) : Prop where
  total : ∀ s input, ∃ out how last, C s input out how last
  start : ∀ s, C s [] [] .converted s
  joins : ∀ s input out mid input' out' how last, C s input out .converted mid →
    C mid input' out' how last → C s (input ++ input') (out ++ out') how last
  call : ∀ s input out how last room, C s input out how last → 256 ≤ room →
    (I.iconv s input room).Keeps C input out how last

/-! ## The objects -/

/-- `ERROR_NO_MEMORY`, `ERROR_INVALID`, `ERROR_INCOMPLETE`, `ERROR_UNKNOWN`, `ERROR_FINALIZED` -/
inductive IconvError
  | noMemory
  | invalid
  | incomplete
  | unknown
  | finalized
  deriving DecidableEq, Repr

/-- What `Liconv` gets to convert. -/
inductive IconvArg
  | string (s : List UInt8)
  | number (s : List UInt8)
  deriving DecidableEq, Repr

/-- The bytes that are converted: `lua_rawlen` of a number is 0, and is asked before
`luaL_checkstring` makes a string of it. -/
def IconvArg.input : IconvArg → List UInt8
  | .string s => s
  | .number _ => []

/-- What Lua gets. -/
inductive IconvAnswer
  | object (c : ℕ)
  | nil
  | text (out : List UInt8) (error : Option IconvError)
  | closed
  | raises
  deriving DecidableEq, Repr

/-- The objects of Lua, and what `iconv_open` has allocated.  A descriptor has the name of the
object that it is made for. -/
structure IconvState (I : Iconv) where
  /-- `false` is that the pointer in the object is `NULL`. -/
  boxes : ℕ → Option Bool
  cds : ℕ → Option I.State
  next : ℕ

/-- What Lua does; a name that no object has stands for a value of another kind. -/
inductive IconvEvent
  | new (tocode fromcode : List UInt8)
  | iconv (c : ℕ) (arg : IconvArg) (malloced : Bool)
  /-- `__gc` of the metatable, called by the script. -/
  | close (c : ℕ) (closes : Bool)
  | collect (c : ℕ) (closes : Bool)
  deriving DecidableEq, Repr

/-- `iconv_close` succeeds. -/
def IconvEvent.Closes : IconvEvent → Prop
  | .close _ closes => closes = true
  | .collect _ closes => closes = true
  | _ => True

/-- The loop of `Liconv`; what is in the buffer is on the Lua stack behind each call. -/
def liconvLoop (I : Iconv) (obsize : ℕ) :
    ℕ → I.State → List UInt8 → List UInt8 → CRun (I.State × List UInt8 × Option IconvError)
  | 0, _, _, _ => .running
  | fuel + 1, cd, input, stack =>
      let call := I.iconv cd input obsize
      let stack := stack ++ call.piece
      match call.result with
      | .ends .converted => .done (call.state, stack, none)
      | .ends .illegal => .done (call.state, stack, some .invalid)
      | .ends .incomplete => .done (call.state, stack, some .incomplete)
      | .tooBig => liconvLoop I obsize fuel call.state (input.drop call.consumed) stack
      | .unknown => .done (call.state, stack, some .unknown)

namespace IconvState

variable {I : Iconv}

/-- `Liconv_open` -/
def liconvOpen (s : IconvState I) (tocode fromcode : List UInt8) : IconvState I × IconvAnswer :=
  match I.openWith tocode fromcode with
  | some cd =>
      ({ boxes := Function.update s.boxes s.next (some true)
         cds := Function.update s.cds s.next (some cd)
         next := s.next + 1 }, .object s.next)
  | none => (s, .nil)

/-- `Liconv` -/
def liconv (fuel : ℕ) (s : IconvState I) (c : ℕ) (arg : IconvArg) (malloced : Bool) :
    CRun (IconvState I × IconvAnswer) :=
  match s.boxes c with
  -- `luaL_checkudata`
  | none => .done (s, .raises)
  | some false => .done (s, .text [] (some .finalized))
  | some true =>
      if malloced then
        match s.cds c with
        -- the descriptor has been closed
        | none => .undefined
        | some cd =>
            let ibleft := arg.input.length
            (liconvLoop I (if 256 < ibleft then ibleft else 256) fuel cd arg.input []).bind fun r =>
              .done ({ s with cds := Function.update s.cds c (some r.1) }, .text r.2.1 r.2.2)
      else .done (s, .text [] (some .noMemory))

/-- `Liconv_close` -/
def liconvClose (s : IconvState I) (c : ℕ) (closes : Bool) : CRun (IconvState I × IconvAnswer) :=
  match s.boxes c with
  | none => .done (s, .raises)
  | some false => .done (s, .nil)
  | some true =>
      match s.cds c with
      | none => .undefined
      | some _ =>
          if closes then
            .done ({ s with
              boxes := Function.update s.boxes c (some false)
              cds := Function.update s.cds c none }, .closed)
          else .done (s, .nil)

/-- One step; the collector takes the object behind its `__gc`. -/
def step (fuel : ℕ) (s : IconvState I) : IconvEvent → CRun (IconvState I × IconvAnswer)
  | .new tocode fromcode => .done (s.liconvOpen tocode fromcode)
  | .iconv c arg malloced => s.liconv fuel c arg malloced
  | .close c closes => s.liconvClose c closes
  | .collect c closes => (s.liconvClose c closes).bind fun r =>
      .done ({ r.1 with boxes := Function.update r.1.boxes c none }, r.2)

/-- A run, with what Lua gets for each event. -/
def run (fuel : ℕ) : IconvState I → List IconvEvent →
    CRun (IconvState I × List (IconvEvent × IconvAnswer))
  | s, [] => .done (s, [])
  | s, e :: es => (s.step fuel e).bind fun r =>
      (run fuel r.1 es).bind fun q => .done (q.1, (e, r.2) :: q.2)

/-- Before the first object. -/
def init (I : Iconv) : IconvState I := ⟨fun _ => none, fun _ => none, 0⟩

end IconvState

/-! ## What comes out of an object -/

/-- What `Liconv` makes of an end. -/
def IconvEnd.error : IconvEnd → Option IconvError
  | converted => none
  | illegal => some .invalid
  | incomplete => some .incomplete

/-- What was put into an object and what came out, up to the first error of its text. -/
def iconvHistory (c : ℕ) : List (IconvEvent × IconvAnswer) → List UInt8 × List UInt8 × IconvEnd
  | [] => ([], [], .converted)
  | (.iconv c' arg _, .text out error) :: log =>
      if c' = c then
        match error with
        | none =>
            let h := iconvHistory c log
            (arg.input ++ h.1, out ++ h.2.1, h.2.2)
        | some .invalid => (arg.input, out, .illegal)
        | some .incomplete => (arg.input, out, .incomplete)
        | some _ => iconvHistory c log
      else iconvHistory c log
  | _ :: log => iconvHistory c log

section Iconv

variable {I : Iconv} {C : I.State → List UInt8 → List UInt8 → IconvEnd → I.State → Prop}

/-- **The loop answers the whole conversion.**  Every piece has something of the output. -/
lemma liconvLoop_spec (hC : I.Promises C) {obsize : ℕ} (hsize : 256 ≤ obsize) {fuel : ℕ}
    {cd last : I.State} {input out : List UInt8} {how : IconvEnd} (h : C cd input out how last)
    (hfuel : out.length < fuel) (stack : List UInt8) :
    liconvLoop I obsize fuel cd input stack = .done (last, stack ++ out, how.error) := by
  induction fuel generalizing cd input out stack with
  | zero => exact absurd hfuel (Nat.not_lt_zero _)
  | succ fuel ih =>
      rcases hC.call cd input out how last obsize h hsize with
        ⟨hresult, hpiece, hstate⟩ | ⟨hresult, hpiece, rest, rfl, hrest⟩
      · rw [liconvLoop, hresult, hpiece, hstate]
        cases how <;> rfl
      · have hless : rest.length < fuel := by
          have hpos := List.length_pos_iff.mpr hpiece
          rw [List.length_append] at hfuel
          omega
        rw [liconvLoop, hresult]
        show liconvLoop I obsize fuel _ _ _ = _
        rw [ih hrest hless, List.append_assoc]

namespace IconvState

/-- **What holds between the calls**: an object whose pointer is not `NULL` has a descriptor. -/
structure Inv (s : IconvState I) : Prop where
  live : ∀ c, s.boxes c = some true → (s.cds c).isSome
  fresh : ∀ c, s.next ≤ c → s.boxes c = none

/-- What an event can do. -/
inductive Reaction (C : I.State → List UInt8 → List UInt8 → IconvEnd → I.State → Prop)
    (s : IconvState I) : IconvEvent → IconvState I → IconvAnswer → Prop
  | opened {tocode fromcode : List UInt8} {cd : I.State}
      (hopen : I.openWith tocode fromcode = some cd) :
      Reaction C s (.new tocode fromcode)
        { boxes := Function.update s.boxes s.next (some true)
          cds := Function.update s.cds s.next (some cd)
          next := s.next + 1 } (.object s.next)
  | notOpened {tocode fromcode : List UInt8} : Reaction C s (.new tocode fromcode) s .nil
  | converted {c : ℕ} {arg : IconvArg} {malloced : Bool} {cd last : I.State} {out : List UInt8}
      {how : IconvEnd} (hbox : s.boxes c = some true) (hcd : s.cds c = some cd)
      (hC : C cd arg.input out how last) :
      Reaction C s (.iconv c arg malloced)
        { s with cds := Function.update s.cds c (some last) } (.text out how.error)
  | notConverted {c : ℕ} {arg : IconvArg} {malloced : Bool} {error : IconvError}
      (herror : error = .noMemory ∨ error = .finalized) :
      Reaction C s (.iconv c arg malloced) s (.text [] (some error))
  | raised {c : ℕ} {arg : IconvArg} {malloced : Bool} :
      Reaction C s (.iconv c arg malloced) s .raises
  | closed {c : ℕ} (hbox : s.boxes c = some true) :
      Reaction C s (.close c true)
        { s with
          boxes := Function.update s.boxes c (some false)
          cds := Function.update s.cds c none } .closed
  | notClosed {c : ℕ} {closes : Bool} {a : IconvAnswer}
      (h : closes = true → s.boxes c ≠ some true) : Reaction C s (.close c closes) s a
  | collected {c : ℕ} {closes : Bool} {a : IconvAnswer} {s' : IconvState I}
      (h : Reaction C s (.close c closes) s' a) :
      Reaction C s (.collect c closes) { s' with boxes := Function.update s'.boxes c none } a

variable {s s' : IconvState I} {e : IconvEvent} {a : IconvAnswer}

/-- `__gc` of an object, in the script or by the collector. -/
lemma liconvClose_reaction (hs : s.Inv) (c : ℕ) (closes : Bool) : ∃ s' a,
    s.liconvClose c closes = .done (s', a) ∧ Reaction C s (.close c closes) s' a := by
  rw [liconvClose]
  cases hbox : s.boxes c with
  | none => exact ⟨s, .raises, rfl, .notClosed fun _ => by simp [hbox]⟩
  | some full =>
      cases full with
      | false => exact ⟨s, .nil, rfl, .notClosed fun _ => by simp [hbox]⟩
      | true =>
          obtain ⟨cd, hcd⟩ := Option.isSome_iff_exists.mp (hs.live c hbox)
          rw [hcd]
          cases closes with
          | true => exact ⟨_, _, rfl, .closed hbox⟩
          | false => exact ⟨s, .nil, rfl, .notClosed nofun⟩

/-- **Every event is defined**, and does one of these. -/
lemma step_reaction (hC : I.Promises C) (hs : s.Inv) (e : IconvEvent) : ∃ N s' a,
    (∀ fuel, N ≤ fuel → s.step fuel e = .done (s', a)) ∧ Reaction C s e s' a := by
  cases e with
  | new tocode fromcode =>
      simp only [step, liconvOpen]
      cases hopen : I.openWith tocode fromcode with
      | none => exact ⟨0, s, .nil, fun _ _ => rfl, .notOpened⟩
      | some cd => exact ⟨0, _, _, fun _ _ => rfl, .opened hopen⟩
  | iconv c arg malloced =>
      simp only [step, liconv]
      cases hbox : s.boxes c with
      | none => exact ⟨0, s, .raises, fun _ _ => rfl, .raised⟩
      | some full =>
          cases full with
          | false => exact ⟨0, s, _, fun _ _ => rfl, .notConverted (.inr rfl)⟩
          | true =>
              cases malloced with
              | false => exact ⟨0, s, _, fun _ _ => rfl, .notConverted (.inl rfl)⟩
              | true =>
                  obtain ⟨cd, hcd⟩ := Option.isSome_iff_exists.mp (hs.live c hbox)
                  obtain ⟨out, how, last, h⟩ := hC.total cd arg.input
                  have hsize : 256 ≤ if 256 < arg.input.length then arg.input.length else 256 := by
                    split_ifs <;> omega
                  refine ⟨out.length + 1, _, _, fun fuel hfuel => ?_, .converted hbox hcd h⟩
                  simp only [hcd, if_true, liconvLoop_spec hC hsize h hfuel, CRun.done_bind,
                    List.nil_append]
  | close c closes =>
      obtain ⟨s', a, hclose, hreaction⟩ := liconvClose_reaction (C := C) hs c closes
      exact ⟨0, s', a, fun _ _ => hclose, hreaction⟩
  | collect c closes =>
      obtain ⟨s', a, hclose, hreaction⟩ := liconvClose_reaction (C := C) hs c closes
      refine ⟨0, _, a, fun _ _ => ?_, .collected hreaction⟩
      rw [step, hclose]
      rfl

lemma Reaction.inv (h : Reaction C s e s' a) (hs : s.Inv) : s'.Inv := by
  induction h with
  | opened hopen =>
      refine ⟨fun c hc => ?_, fun c hc => ?_⟩
      · rcases eq_or_ne c s.next with rfl | hne
        · simp
        · simp only [Function.update_of_ne hne] at hc ⊢
          exact hs.live c hc
      · have hne : c ≠ s.next := by
          rintro rfl
          exact Nat.lt_irrefl _ hc
        simp only [Function.update_of_ne hne]
        exact hs.fresh c (Nat.le_of_succ_le hc)
  | @converted c₀ =>
      refine ⟨fun c hc => ?_, hs.fresh⟩
      rcases eq_or_ne c c₀ with rfl | hne
      · simp
      · simp only [Function.update_of_ne hne]
        exact hs.live c hc
  | @closed c₀ hbox =>
      refine ⟨fun c hc => ?_, fun c hc => ?_⟩
      · rcases eq_or_ne c c₀ with rfl | hne
        · simp at hc
        · simp only [Function.update_of_ne hne] at hc ⊢
          exact hs.live c hc
      · have hne : c ≠ c₀ := by
          rintro rfl
          rw [hs.fresh c hc] at hbox
          cases hbox
        simp only [Function.update_of_ne hne]
        exact hs.fresh c hc
  | @collected c₀ _ _ _ _ ih =>
      refine ⟨fun c hc => ?_, fun c hc => ?_⟩
      · rcases eq_or_ne c c₀ with rfl | hne
        · simp at hc
        · simp only [Function.update_of_ne hne] at hc
          exact ih.live c hc
      · rcases eq_or_ne c c₀ with rfl | hne
        · simp
        · simp only [Function.update_of_ne hne]
          exact ih.fresh c hc
  | notOpened | notConverted _ | raised | notClosed _ => exact hs

/-- What an event does to the descriptor and the history of one object. -/
lemma Reaction.history (h : Reaction C s e s' a) (c : ℕ) (log : List (IconvEvent × IconvAnswer)) :
    (iconvHistory c ((e, a) :: log) = iconvHistory c log
        ∧ (c < s.next → s'.boxes c = some true → s.boxes c = some true ∧ s'.cds c = s.cds c))
      ∨ ∃ arg malloced cd out how last, e = .iconv c arg malloced ∧ a = .text out how.error
        ∧ s.boxes c = some true ∧ s.cds c = some cd ∧ C cd arg.input out how last
        ∧ s'.boxes c = some true ∧ s'.cds c = some last := by
  induction h with
  | opened hopen =>
      refine Or.inl ⟨rfl, fun hlt hbox => ?_⟩
      have hne := Nat.ne_of_lt hlt
      simp only [Function.update_of_ne hne] at hbox ⊢
      exact ⟨hbox, trivial⟩
  | @converted c₀ arg malloced cd last out how hbox hcd hC =>
      rcases eq_or_ne c₀ c with rfl | hne
      · exact Or.inr ⟨arg, malloced, cd, out, how, last, rfl, rfl, hbox, hcd, hC, hbox, by simp⟩
      · refine Or.inl ⟨by simp [iconvHistory, hne], fun _ hbox' => ?_⟩
        simp only [Function.update_of_ne (Ne.symm hne)]
        exact ⟨hbox', trivial⟩
  | notConverted herror =>
      refine Or.inl ⟨?_, fun _ hbox => ⟨hbox, rfl⟩⟩
      rcases herror with rfl | rfl <;> simp [iconvHistory]
  | @closed c₀ _ =>
      refine Or.inl ⟨rfl, fun _ hbox => ?_⟩
      rcases eq_or_ne c c₀ with rfl | hne
      · simp at hbox
      · simp only [Function.update_of_ne hne] at hbox ⊢
        exact ⟨hbox, trivial⟩
  | @collected c₀ _ _ _ _ ih =>
      refine Or.inl ⟨rfl, fun hlt hbox => ?_⟩
      rcases eq_or_ne c c₀ with rfl | hne
      · simp at hbox
      · simp only [Function.update_of_ne hne] at hbox
        rcases ih with ⟨_, hkeeps⟩ | ⟨_, _, _, _, _, _, hiconv, _⟩
        · exact hkeeps hlt hbox
        · cases hiconv
  | notOpened | raised | notClosed _ => exact Or.inl ⟨rfl, fun _ hbox => ⟨hbox, rfl⟩⟩

lemma Reaction.next_le (h : Reaction C s e s' a) : s.next ≤ s'.next := by
  induction h with
  | opened _ => exact Nat.le_succ _
  | collected _ ih => exact ih
  | notOpened | converted _ _ _ | notConverted _ | raised | closed _ | notClosed _ =>
      exact Nat.le_refl _

/-- A run as a chain of reactions. -/
inductive Runs (C : I.State → List UInt8 → List UInt8 → IconvEnd → I.State → Prop) :
    IconvState I → List (IconvEvent × IconvAnswer) → IconvState I → Prop
  | nil {s : IconvState I} : Runs C s [] s
  | cons {s s₁ s' : IconvState I} {e : IconvEvent} {a : IconvAnswer}
      {log : List (IconvEvent × IconvAnswer)} (h : Reaction C s e s₁ a) (rest : Runs C s₁ log s') :
      Runs C s ((e, a) :: log) s'

/-- **Every run is defined.** -/
lemma run_runs (hC : I.Promises C) (hs : s.Inv) (es : List IconvEvent) : ∃ N s' log,
    (∀ fuel, N ≤ fuel → s.run fuel es = .done (s', log)) ∧ Runs C s log s'
      ∧ log.map Prod.fst = es := by
  induction es generalizing s with
  | nil => exact ⟨0, s, [], fun _ _ => rfl, .nil, rfl⟩
  | cons e es ih =>
      obtain ⟨N, s₁, a, hstep, hreaction⟩ := step_reaction hC hs e
      obtain ⟨N', s', log, hrun, hruns, hlog⟩ := ih (hreaction.inv hs)
      refine ⟨max N N', s', (e, a) :: log, fun fuel hfuel => ?_, .cons hreaction hruns, ?_⟩
      · rw [run, hstep fuel (by omega), CRun.done_bind, hrun fuel (by omega), CRun.done_bind]
      · rw [List.map_cons, hlog]

variable {log : List (IconvEvent × IconvAnswer)}

/-- Nothing is converted any more by an object without a descriptor. -/
lemma Runs.history_closed (h : Runs C s log s') {c : ℕ} (hlt : c < s.next)
    (hbox : s.boxes c ≠ some true) : iconvHistory c log = ([], [], .converted) := by
  induction h with
  | nil => rfl
  | @cons s s₁ s' e a log h _ ih =>
      rcases h.history c log with ⟨hsame, hkeeps⟩ | ⟨_, _, _, _, _, _, _, _, hopen, _⟩
      · rw [hsame]
        exact ih (Nat.lt_of_lt_of_le hlt h.next_le) fun hbox' => hbox (hkeeps hlt hbox').1
      · exact absurd hopen hbox

/-- **The history of an object** that has a descriptor is a conversion. -/
lemma Runs.history_open (hC : I.Promises C) (h : Runs C s log s') {c : ℕ} {cd : I.State}
    (hlt : c < s.next) (hbox : s.boxes c = some true) (hcd : s.cds c = some cd) :
    ∃ last, C cd (iconvHistory c log).1 (iconvHistory c log).2.1 (iconvHistory c log).2.2 last := by
  induction h generalizing cd with
  | nil => exact ⟨cd, hC.start cd⟩
  | @cons s s₁ s' e a log h hrest ih =>
      have hlt' := Nat.lt_of_lt_of_le hlt h.next_le
      rcases h.history c log with
        ⟨hsame, hkeeps⟩ | ⟨arg, _, cd', out, how, last, rfl, rfl, _, hcd', hconv, hopen, hlast⟩
      · rw [hsame]
        by_cases hopen : s₁.boxes c = some true
        · exact ih hlt' hopen ((hkeeps hlt hopen).2.trans hcd)
        · rw [hrest.history_closed hlt' hopen]
          exact ⟨cd, hC.start cd⟩
      · obtain rfl : cd' = cd := Option.some.inj (hcd'.symm.trans hcd)
        cases how with
        | converted =>
            obtain ⟨final, hfinal⟩ := ih hlt' hopen hlast
            refine ⟨final, ?_⟩
            simp only [IconvEnd.error, iconvHistory, if_true]
            exact hC.joins _ _ _ _ _ _ _ _ hconv hfinal
        | illegal => exact ⟨last, by simpa [IconvEnd.error, iconvHistory] using hconv⟩
        | incomplete => exact ⟨last, by simpa [IconvEnd.error, iconvHistory] using hconv⟩

/-- The history of an object from where it is made. -/
lemma Runs.history_made (hC : I.Promises C) (h : Runs C s log s')
    {before after : List (IconvEvent × IconvAnswer)} {tocode fromcode : List UInt8} {c : ℕ}
    (hlog : log = before ++ (.new tocode fromcode, .object c) :: after) :
    ∃ cd last, I.openWith tocode fromcode = some cd
      ∧ C cd (iconvHistory c after).1 (iconvHistory c after).2.1 (iconvHistory c after).2.2
        last := by
  induction h generalizing before with
  | nil => simp at hlog
  | cons h hrest ih =>
      cases before with
      | nil =>
          obtain ⟨hentry, rfl⟩ := List.cons.inj hlog
          cases hentry
          cases h with
          | opened hopen =>
              obtain ⟨last, hlast⟩ := hrest.history_open hC (Nat.lt_succ_self _)
                (Function.update_self ..) (Function.update_self ..)
              exact ⟨_, last, hopen, hlast⟩
      | cons entry before => exact ih (List.cons.inj hlog).2

/-- A descriptor has an object that can close it. -/
def Owned (s : IconvState I) : Prop := ∀ c, (s.cds c).isSome → s.boxes c = some true

lemma Reaction.owned (h : Reaction C s e s' a) (hcloses : e.Closes) (hs : s.Owned) : s'.Owned := by
  intro c hc
  cases h with
  | opened _ =>
      rcases eq_or_ne c s.next with rfl | hne
      · simp
      · simp only [Function.update_of_ne hne] at hc ⊢
        exact hs c hc
  | @converted c₀ _ _ _ _ _ _ hbox _ _ =>
      rcases eq_or_ne c c₀ with rfl | hne
      · exact hbox
      · simp only [Function.update_of_ne hne] at hc
        exact hs c hc
  | @closed c₀ _ =>
      rcases eq_or_ne c c₀ with rfl | hne
      · simp at hc
      · simp only [Function.update_of_ne hne] at hc ⊢
        exact hs c hc
  | @collected c₀ _ _ _ h =>
      cases h with
      | closed _ =>
          rcases eq_or_ne c c₀ with rfl | hne
          · simp at hc
          · simp only [Function.update_of_ne hne] at hc ⊢
            exact hs c hc
      | notClosed hnot =>
          have hne : c ≠ c₀ := by
            rintro rfl
            exact hnot hcloses (hs c hc)
          simp only [Function.update_of_ne hne]
          exact hs c hc
  | notOpened | notConverted _ | raised | notClosed _ => exact hs c hc

/-- No descriptor is lost where `iconv_close` does not fail. -/
lemma Runs.owned (h : Runs C s log s') (hcloses : ∀ e ∈ log.map Prod.fst, e.Closes)
    (hs : s.Owned) : s'.Owned := by
  induction h with
  | nil => exact hs
  | cons h _ ih =>
      obtain ⟨hclose, hrest⟩ := List.forall_mem_cons.mp hcloses
      exact ih hrest (h.owned hclose hs)

end IconvState

end Iconv

/-- **Every run over any number of objects** is defined, with enough fuel.  From where an object is
made, what comes out of it is the conversion of what is put in, up to the first error and including
it; and as long as `iconv_close` does not fail, every descriptor has an object that can close it. -/
theorem iconv_run {I : Iconv} {C : I.State → List UInt8 → List UInt8 → IconvEnd → I.State → Prop}
    (hC : I.Promises C) (es : List IconvEvent) : ∃ N s log,
    (∀ fuel, N ≤ fuel → (IconvState.init I).run fuel es = .done (s, log))
      ∧ (∀ before tocode fromcode c after,
          log = before ++ (.new tocode fromcode, .object c) :: after →
          ∃ cd last, I.openWith tocode fromcode = some cd
            ∧ C cd (iconvHistory c after).1 (iconvHistory c after).2.1 (iconvHistory c after).2.2
              last)
      ∧ ((∀ e ∈ es, e.Closes) → ∀ c, (s.cds c).isSome → s.boxes c = some true) := by
  have hinit : (IconvState.init I).Inv := ⟨nofun, fun _ _ => rfl⟩
  obtain ⟨N, s, log, hrun, hruns, hlog⟩ := IconvState.run_runs hC hinit es
  refine ⟨N, s, log, hrun, ?_, fun hcloses => ?_⟩
  · intro before tocode fromcode c after hsplit
    exact hruns.history_made hC hsplit
  · exact hruns.owned (hlog ▸ hcloses) nofun

/-! ## From ISO 8859-1 to UTF-8 -/

namespace Latin1

/-- A byte of ISO 8859-1 in UTF-8. -/
def utf8 (c : UInt8) : List UInt8 := if c < 128 then [c] else [0xC0 + c / 64, 0x80 + c % 64]

/-- The bytes for which there is room: their number, and what they are in UTF-8. -/
def fill : List UInt8 → ℕ → ℕ × List UInt8
  | [], _ => (0, [])
  | c :: s, room =>
      if (utf8 c).length ≤ room then
        let r := fill s (room - (utf8 c).length)
        (r.1 + 1, utf8 c ++ r.2)
      else (0, [])

def iconv (s : List UInt8) (room : ℕ) : IconvCall Unit where
  result := if (fill s room).1 = s.length then .ends .converted else .tooBig
  state := ()
  consumed := (fill s room).1
  piece := (fill s room).2

/-- `iconv` for `"UTF-8"` and `"ISO-8859-1"`. -/
def converter : Iconv where
  State := Unit
  openWith tocode fromcode :=
    if tocode = [85, 84, 70, 45, 56] ∧ fromcode = [73, 83, 79, 45, 56, 56, 53, 57, 45, 49] then
      some ()
    else none
  iconv _ := iconv

/-- Every text can be converted. -/
def Converts (_ : Unit) (s out : List UInt8) (how : IconvEnd) (_ : Unit) : Prop :=
  out = s.flatMap utf8 ∧ how = .converted

lemma utf8_length (c : UInt8) : 0 < (utf8 c).length ∧ (utf8 c).length ≤ 2 := by
  rw [utf8]
  split_ifs <;> simp

/-- What is written, and what is left. -/
lemma fill_spec (s : List UInt8) (room : ℕ) :
    s.flatMap utf8 = (fill s room).2 ++ (s.drop (fill s room).1).flatMap utf8
      ∧ (2 ≤ room → s ≠ [] → (fill s room).2 ≠ []) := by
  induction s generalizing room with
  | nil => exact ⟨rfl, fun _ h => absurd rfl h⟩
  | cons c s ih =>
      rw [fill]
      split_ifs with hroom
      · refine ⟨?_, fun _ _ hnil => ?_⟩
        · rw [List.drop_succ_cons, List.append_assoc, ← (ih _).1, List.flatMap_cons]
        · have hlength := congrArg List.length hnil
          rw [List.length_append, List.length_nil] at hlength
          have hpos := (utf8_length c).1
          omega
      · refine ⟨rfl, fun h => absurd (Nat.le_trans (utf8_length c).2 h) hroom⟩

lemma promises : converter.Promises Converts where
  total s input := ⟨_, .converted, (), rfl, rfl⟩
  start s := ⟨rfl, rfl⟩
  joins s input out mid input' out' how last h h' :=
    ⟨by rw [h.1, h'.1, List.flatMap_append], h'.2⟩
  call s input out how last room h hroom := by
    obtain ⟨rfl, rfl⟩ := h
    obtain ⟨hsplit, hpiece⟩ := fill_spec input room
    by_cases hall : (fill input room).1 = input.length
    · refine Or.inl ⟨if_pos hall, ?_, rfl⟩
      rw [hall, List.drop_length, List.flatMap_nil, List.append_nil] at hsplit
      exact hsplit.symm
    · refine Or.inr ⟨if_neg hall, hpiece (by omega) ?_, _, hsplit, rfl, rfl⟩
      rintro rfl
      exact hall rfl

/-- An object, two conversions, `__gc` by the script and then by the collector. -/
def calls : List IconvEvent :=
  [.new [85, 84, 70, 45, 56] [73, 83, 79, 45, 56, 56, 53, 57, 45, 49],
    .iconv 0 (.string [102, 252, 114]) true, .iconv 0 (.number [49]) true, .close 0 true,
    .iconv 0 (.string [102]) true, .collect 0 true]

end Latin1

theorem iconv_run_latin1 : Latin1.converter.Promises Latin1.Converts ∧ ∃ N s log,
    (∀ fuel, N ≤ fuel → (IconvState.init Latin1.converter).run fuel Latin1.calls = .done (s, log))
      ∧ (∀ before tocode fromcode c after,
          log = before ++ (.new tocode fromcode, .object c) :: after →
          ∃ cd last, Latin1.converter.openWith tocode fromcode = some cd
            ∧ Latin1.Converts cd (iconvHistory c after).1 (iconvHistory c after).2.1
              (iconvHistory c after).2.2 last)
      ∧ ((∀ e ∈ Latin1.calls, e.Closes) → ∀ c, (s.cds c).isSome → s.boxes c = some true) :=
  ⟨Latin1.promises, iconv_run Latin1.promises Latin1.calls⟩

end Luan
