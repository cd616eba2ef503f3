import Luan.Core.FileWrites
import Luan.Core.Machine
import Luan.LuaRunner.ChildOutput
import Mathlib.Data.List.Induction

/-!
# The log that two processes write

The child opens `luan.log` itself, empties it and writes at an offset of its own (`LuanOpenLogFile`,
`luan_emit` and `LuanCloseLogFile` in `LuanMac/LuaBridge.m`).  What comes through its pipes is
written to the same file by the app (`appendChildLog` in `LuanMac/LuaRunner.swift`), which goes to
the end first.  Only one child has the file open at a time, because it has the lock of the document
root; but the steps of child and app interleave.

* `appendChildLog_alone` — without steps of the child in between, the steps of the app are
  `ChildOutput.appendChildLog`.
* `sharedLog_contents_iff` — the log is the text of the child, and behind it what the child has not
  overwritten of the text of the app, exactly as long as the app writes where the file ends.
* `sharedLog_keeps_iff` — nothing of the text of the app is lost exactly if the child writes nothing
  behind it.
-/

namespace Luan

/-- Where `appendChildLog` is. -/
inductive AppendStage
  | idle
  /-- The file was not there. -/
  | creating (data : List UInt8)
  /-- The file was there and has been opened. -/
  | opened (data : List UInt8)
  | sought (data : List UInt8) (pos : ℕ)
  deriving DecidableEq, Repr

/-- The file, and the two that write it. -/
structure SharedLog where
  contents : Option (List UInt8)
  /-- `g_logFile`, with its offset -/
  logFile : Option ℕ
  stage : AppendStage
  deriving DecidableEq, Repr

inductive LogEvent
  /-- `LuanOpenLogFile` -/
  | openLog (opens : Bool)
  /-- `luan_emit`, up to `fflush`; a text longer than the buffer of the `FILE` is several events -/
  | emit (data : List UInt8)
  /-- `LuanCloseLogFile` -/
  | closeLog
  /-- `appendChildLog`, up to `FileHandle(forWritingTo:)` -/
  | append (data : List UInt8) (opens : Bool)
  /-- `createFile(atPath:contents:)` -/
  | create (data : List UInt8)
  /-- `seekToEnd` -/
  | seek
  /-- `write(contentsOf:)` -/
  | write (data : List UInt8)
  deriving DecidableEq, Repr

/-- One step. -/
def SharedLog.step (s : SharedLog) : LogEvent → Option SharedLog
  | .openLog opens =>
      if opens then some { s with contents := some [], logFile := some 0 }
      else some { s with logFile := none }
  | .emit data =>
      match s.contents, s.logFile with
      | some c, some off => some { s with
          contents := some (writeAt c off data)
          logFile := some (off + data.length) }
      | _, _ => none
  | .closeLog => some { s with logFile := none }
  | .append data opens =>
      match s.stage, s.contents with
      | .idle, none => some { s with stage := .creating data }
      | .idle, some _ => some { s with stage := if opens then .opened data else .idle }
      | _, _ => none
  | .create data =>
      if s.stage = .creating data then some { s with contents := some data, stage := .idle }
      else none
  | .seek =>
      match s.stage, s.contents with
      | .opened data, some c => some { s with stage := .sought data c.length }
      | _, _ => none
  | .write data =>
      match s.stage, s.contents with
      | .sought data' pos, some c =>
          if data = data' then some { s with
            contents := some (writeAt c pos data)
            stage := .idle }
          else none
      | _, _ => none

/-- The log from where the app is started; there may be a file of an earlier time. -/
def sharedLog (old : Option (List UInt8)) : Machine SharedLog LogEvent where
  init := ⟨old, none, .idle⟩
  step := SharedLog.step

/-! ## What has been written -/

/-- What the child and the app have written since the file was emptied, and what is left of the text
of the app. -/
structure LogTexts where
  own : List UInt8
  appended : List UInt8
  left : List UInt8
  deriving DecidableEq, Repr

namespace LogTexts

/-- The child overwrites the text of the app from its beginning. -/
def next (t : LogTexts) : LogEvent → LogTexts
  | .openLog true => ⟨[], [], []⟩
  | .emit data => { t with own := t.own ++ data, left := t.left.drop data.length }
  | .create data | .write data =>
      { t with appended := t.appended ++ data, left := t.left ++ data }
  | _ => t

/-- What is in a file of an earlier time counts as text of the app. -/
def ofOld (old : Option (List UInt8)) : LogTexts := ⟨[], old.getD [], old.getD []⟩

/-- The texts behind some events. -/
def after (old : Option (List UInt8)) (es : List LogEvent) : LogTexts := es.foldl next (ofOld old)

end LogTexts

/-- What the app adds comes to the end of the file: the child has not moved the end since the app
has sought it, and has written nothing to a file that the app has not found. -/
def SharedLog.AtEnd (s : SharedLog) : LogEvent → Prop
  | .create _ => s.contents.getD [] = []
  | .write data => ∀ data' pos c, s.stage = .sought data' pos → s.contents = some c →
      data = [] ∨ pos = c.length
  | _ => True

namespace SharedLog

variable {s s' : SharedLog} {t : LogTexts} {e : LogEvent}

/-- **What holds between the steps** as long as the app writes where the file ends. -/
structure Inv (s : SharedLog) (t : LogTexts) : Prop where
  contents : s.contents.getD [] = t.own ++ t.left
  offset : ∀ off, s.logFile = some off → off = t.own.length

/-- The child writes over what is left of the app's lines. -/
lemma Inv.emit_step (hs : s.Inv t) {data : List UInt8} (h : s.step (.emit data) = some s') :
    s'.contents.getD [] = t.own ++ data ++ t.left.drop data.length
      ∧ ∀ off, s'.logFile = some off → off = (t.own ++ data).length := by
  simp only [SharedLog.step] at h
  split at h
  case h_1 c off hc hoff =>
      obtain rfl := Option.some.inj h
      have hoffset := hs.offset off hoff
      have hcontents : c = t.own ++ t.left := by simpa [hc] using hs.contents
      refine ⟨?_, fun off' hoff' => ?_⟩
      · show writeAt c off data = t.own ++ data ++ t.left.drop data.length
        rw [hcontents, hoffset, writeAt_over]
      · rw [← Option.some.inj hoff', hoffset]
        exact List.length_append.symm
  case h_2 => cases h

/-- The app writes behind everything exactly if it has found the end. -/
lemma Inv.write_step (hs : s.Inv t) {data : List UInt8} (h : s.step (.write data) = some s') :
    (s'.contents.getD [] = t.own ++ (t.left ++ data) ↔ s.AtEnd (.write data))
      ∧ s'.logFile = s.logFile := by
  simp only [SharedLog.step] at h
  split at h
  case h_1 data' pos c hstage hc =>
      split_ifs at h
      obtain rfl := Option.some.inj h
      have hcontents : c = t.own ++ t.left := by simpa [hc] using hs.contents
      refine ⟨?_, rfl⟩
      have hatEnd : s.AtEnd (.write data) ↔ data = [] ∨ pos = c.length := by
        constructor
        · exact fun hat => hat data' pos c hstage hc
        · intro hat data'' pos' c' hstage' hc'
          obtain ⟨-, rfl⟩ := AppendStage.sought.inj (hstage'.symm.trans hstage)
          obtain rfl := Option.some.inj (hc'.symm.trans hc)
          exact hat
      rw [hatEnd, ← writeAt_eq_append_iff]
      show writeAt c pos data = t.own ++ (t.left ++ data) ↔ _
      rw [← List.append_assoc, ← hcontents]
  case h_2 => cases h

/-- **One step.** -/
lemma Inv.step (hs : s.Inv t) (h : s.step e = some s') :
    (s'.contents.getD [] = (t.next e).own ++ (t.next e).left ↔ s.AtEnd e)
      ∧ ∀ off, s'.logFile = some off → off = (t.next e).own.length := by
  cases e with
  | openLog opens =>
      cases opens with
      | true =>
          obtain rfl := Option.some.inj h
          exact ⟨⟨fun _ => trivial, fun _ => rfl⟩, fun off hoff => (Option.some.inj hoff).symm⟩
      | false =>
          obtain rfl := Option.some.inj h
          exact ⟨⟨fun _ => trivial, fun _ => hs.contents⟩, nofun⟩
  | emit data =>
      obtain ⟨hcontents, hoffset⟩ := hs.emit_step h
      exact ⟨⟨fun _ => trivial, fun _ => hcontents⟩, hoffset⟩
  | closeLog =>
      obtain rfl := Option.some.inj h
      exact ⟨⟨fun _ => trivial, fun _ => hs.contents⟩, nofun⟩
  | append data opens =>
      simp only [SharedLog.step] at h
      split at h
      case h_1 =>
          obtain rfl := Option.some.inj h
          exact ⟨⟨fun _ => trivial, fun _ => hs.contents⟩, hs.offset⟩
      case h_2 =>
          obtain rfl := Option.some.inj h
          exact ⟨⟨fun _ => trivial, fun _ => hs.contents⟩, hs.offset⟩
      case h_3 => cases h
  | create data =>
      simp only [SharedLog.step] at h
      split_ifs at h
      obtain rfl := Option.some.inj h
      refine ⟨?_, hs.offset⟩
      show data = t.own ++ (t.left ++ data) ↔ s.contents.getD [] = []
      rw [← List.append_assoc, ← hs.contents, List.self_eq_append_left]
  | seek =>
      simp only [SharedLog.step] at h
      split at h
      case h_1 =>
          obtain rfl := Option.some.inj h
          exact ⟨⟨fun _ => trivial, fun _ => hs.contents⟩, hs.offset⟩
      case h_2 => cases h
  | write data =>
      obtain ⟨hiff, hsame⟩ := hs.write_step h
      exact ⟨hiff, fun off hoff => hs.offset off (hsame ▸ hoff)⟩

/-- From any state on. -/
lemma Inv.run_iff {old : Option (List UInt8)} (hs : s.Inv t) (es : List LogEvent) :
    (∀ before rest s', es = before ++ rest → (sharedLog old).runFrom s before = some s' →
      s'.contents.getD [] = (before.foldl LogTexts.next t).own
        ++ (before.foldl LogTexts.next t).left)
      ↔ (sharedLog old).AlongFrom (fun s e _ => s.AtEnd e) s es := by
  induction es generalizing s t with
  | nil =>
      refine ⟨fun _ => trivial, fun _ before rest s' hes hrun => ?_⟩
      obtain ⟨rfl, -⟩ := List.append_eq_nil_iff.mp hes.symm
      exact Option.some.inj hrun ▸ hs.contents
  | cons e es ih =>
      rw [Machine.AlongFrom]
      cases hstep : (sharedLog old).step s e with
      | none =>
          refine ⟨fun _ => trivial, fun _ before rest s' hes hrun => ?_⟩
          cases before with
          | nil => exact Option.some.inj hrun ▸ hs.contents
          | cons e' before =>
              obtain ⟨rfl, -⟩ := List.cons.inj hes
              obtain ⟨mid, hmid, -⟩ := Machine.runFrom_cons hrun
              cases hstep.symm.trans hmid
      | some mid =>
          obtain ⟨hcontents, hoffset⟩ := hs.step hstep
          constructor
          · intro h
            have hmid := h [e] es mid rfl (by rw [Machine.runFrom, hstep]; rfl)
            refine ⟨hcontents.mp hmid, (ih ⟨hmid, hoffset⟩).mp fun before rest s' hes hrun => ?_⟩
            refine h (e :: before) rest s' (by rw [hes]; rfl) ?_
            rw [Machine.runFrom, hstep]
            exact hrun
          · rintro ⟨hat, halong⟩ before rest s' hes hrun
            cases before with
            | nil => exact Option.some.inj hrun ▸ hs.contents
            | cons e' before =>
                obtain ⟨rfl, hes'⟩ := List.cons.inj hes
                obtain ⟨mid', hmid', hrest⟩ := Machine.runFrom_cons hrun
                obtain rfl := Option.some.inj (hstep.symm.trans hmid')
                exact (ih ⟨hcontents.mpr hat, hoffset⟩).mpr halong before rest s' hes' hrest

lemma inv_init (old : Option (List UInt8)) : (sharedLog old).init.Inv (.ofOld old) := ⟨rfl, nofun⟩

end SharedLog

/-! ## What is lost -/

namespace LogTexts

variable {old : Option (List UInt8)}

lemma after_concat (es : List LogEvent) (e : LogEvent) :
    after old (es ++ [e]) = (after old es).next e := List.foldl_concat ..

/-- What is left is an end of what was appended. -/
lemma left_suffix (es : List LogEvent) : (after old es).left <:+ (after old es).appended := by
  induction es using List.reverseRecOn with
  | nil => exact List.suffix_refl _
  | append_singleton es e ih =>
      rw [after_concat]
      cases e with
      | openLog opens => cases opens <;> first | exact List.suffix_refl _ | exact ih
      | emit data => exact (List.drop_suffix _ _).trans ih
      | create data => exact List.suffix_append_self_iff.mpr ih
      | write data => exact List.suffix_append_self_iff.mpr ih
      | closeLog | append _ _ | seek => exact ih

/-- The child writes nothing behind a text of the app. -/
def ChildFirst (old : Option (List UInt8)) (es : List LogEvent) : Prop :=
  ∀ before data rest, es = before ++ .emit data :: rest → .openLog true ∉ rest →
    data = [] ∨ (after old before).appended = []

/-- One more event. -/
lemma childFirst_concat (es : List LogEvent) (e : LogEvent) :
    ChildFirst old (es ++ [e]) ↔ e = .openLog true
      ∨ ChildFirst old es ∧ ∀ data, e = .emit data → data = [] ∨ (after old es).appended = [] := by
  constructor
  · intro h
    by_cases hopen : e = .openLog true
    · exact Or.inl hopen
    · refine Or.inr ⟨fun before data rest hes hrest => ?_, fun data hdata => ?_⟩
      · refine h before data (rest ++ [e]) (by rw [hes]; simp) ?_
        simpa using ⟨hrest, Ne.symm hopen⟩
      · exact h es data [] (by rw [hdata]) (by simp)
  · intro h before data rest hes hrest
    rcases List.eq_nil_or_concat rest with rfl | ⟨rest, last, rfl⟩
    · obtain ⟨rfl, hlast⟩ := List.append_inj' hes rfl
      obtain rfl := List.singleton_inj.mp hlast
      rcases h with h | h
      · cases h
      · exact h.2 data rfl
    · rw [List.concat_eq_append, ← List.cons_append, ← List.append_assoc] at hes
      obtain ⟨rfl, hlast⟩ := List.append_inj' hes rfl
      obtain rfl := List.singleton_inj.mp hlast
      rcases h with rfl | h
      · exact absurd (by simp) hrest
      · exact h.1 before data rest rfl fun hmem => hrest (by simp [hmem])

/-- Nothing is lost by a write of the child only if it writes nothing, or there is nothing. -/
lemma drop_eq_iff {left appended : List UInt8} (h : left <:+ appended) (data : List UInt8) :
    left.drop data.length = appended ↔ left = appended ∧ (data = [] ∨ appended = []) := by
  constructor
  · intro hdrop
    have hlength := congrArg List.length hdrop
    have hle := h.length_le
    rw [List.length_drop] at hlength
    refine ⟨h.eq_of_length (by omega), ?_⟩
    rw [← List.length_eq_zero_iff, ← List.length_eq_zero_iff]
    omega
  · rintro ⟨rfl, rfl | rfl⟩
    · rfl
    · exact List.drop_nil

/-- Nothing of the text of the app is lost exactly if the child writes nothing behind it. -/
lemma left_eq_iff (es : List LogEvent) :
    (after old es).left = (after old es).appended ↔ ChildFirst old es := by
  induction es using List.reverseRecOn with
  | nil => exact ⟨fun _ before data rest h => by simp at h, fun _ => rfl⟩
  | append_singleton es e ih =>
      rw [childFirst_concat, after_concat, ← ih]
      cases e with
      | openLog opens => cases opens <;> simp [next]
      | emit data =>
          simp only [next, reduceCtorEq, false_or, LogEvent.emit.injEq, forall_eq']
          exact drop_eq_iff (left_suffix es) data
      | create data => simp [next]
      | write data => simp [next]
      | closeLog | append _ _ | seek => simp [next]

end LogTexts

/-! ## The log -/

section SharedLog

variable {old : Option (List UInt8)} {es : List LogEvent} {s : SharedLog}

/-- The steps of `appendChildLog`. -/
def appendSteps (contents : Option (List UInt8)) (data : List UInt8) : List LogEvent :=
  match contents with
  | none => [.append data true, .create data]
  | some _ => [.append data true, .seek, .write data]

/-- Where the child does nothing in between, the steps are `appendChildLog` as a whole. -/
theorem appendChildLog_alone {o : ChildOutput} (hpath : o.logPath.isEmpty = false)
    (text : List Char) (logFile : Option ℕ) :
    (sharedLog old).runFrom ⟨o.log, logFile, .idle⟩ (appendSteps o.log (utf8Bytes text))
      = some ⟨(o.appendChildLog text).log, logFile, .idle⟩ := by
  cases hlog : o.log with
  | none =>
      simp [appendSteps, Machine.runFrom, sharedLog, SharedLog.step, ChildOutput.appendChildLog,
        hpath, hlog]
  | some contents =>
      simp [appendSteps, Machine.runFrom, sharedLog, SharedLog.step, ChildOutput.appendChildLog,
        hpath, hlog, writeAt_end]

/-- **What is in the log**: in every state of a run it is all that the child has written since it
has emptied the file, and behind it what the child has not overwritten of what the app has written,
exactly as long as the app writes where the file ends. -/
theorem sharedLog_contents_iff (old : Option (List UInt8)) (es : List LogEvent) :
    (∀ before rest s, es = before ++ rest → (sharedLog old).run before = some s →
      s.contents.getD [] = (LogTexts.after old before).own ++ (LogTexts.after old before).left)
      ↔ (sharedLog old).Meets SharedLog.AtEnd es :=
  (SharedLog.inv_init old).run_iff es

/-- Where it does not, it may write over the text of the child. -/
example : ((sharedLog none).run [.openLog true, .append [33] true, .seek, .emit [97, 98],
    .write [33]]).map (·.contents) = some (some [33, 98]) := by decide

/-- **What is lost**: where the app writes at the end, the log has everything that it has written
exactly if the child writes nothing behind it. -/
theorem sharedLog_keeps_iff (hmeets : (sharedLog old).Meets SharedLog.AtEnd es)
    (hrun : (sharedLog old).run es = some s) :
    s.contents.getD [] = (LogTexts.after old es).own ++ (LogTexts.after old es).appended
      ↔ ∀ before data rest, es = before ++ .emit data :: rest → .openLog true ∉ rest →
        data = [] ∨ (LogTexts.after old before).appended = [] := by
  have hcontents : s.contents.getD []
      = (LogTexts.after old es).own ++ (LogTexts.after old es).left :=
    ((SharedLog.inv_init old).run_iff es).mpr hmeets es [] s (List.append_nil es).symm hrun
  rw [hcontents, List.append_cancel_left_eq]
  exact LogTexts.left_eq_iff es

/-- A start: the app logs `!` from its child, which comes through the pipe, and the child then
prints `ab`, which the app logs as well. -/
def diagnosis : List LogEvent :=
  [.openLog true, .append [33] true, .seek, .write [33], .emit [97, 98], .append [97, 98] true,
    .seek, .write [97, 98]]

/-- The `!` is gone. -/
theorem sharedLog_keeps_iff_diagnosis :
    (sharedLog none).Meets SharedLog.AtEnd diagnosis
      ∧ ∃ s, (sharedLog none).run diagnosis = some s ∧ s.contents = some [97, 98, 97, 98]
        ∧ (s.contents.getD [] = (LogTexts.after none diagnosis).own
            ++ (LogTexts.after none diagnosis).appended
          ↔ ∀ before data rest, diagnosis = before ++ .emit data :: rest → .openLog true ∉ rest →
            data = [] ∨ (LogTexts.after none before).appended = []) := by
  have hmeets : (sharedLog none).Meets SharedLog.AtEnd diagnosis := by
    refine ⟨trivial, trivial, trivial, ?_, trivial, trivial, trivial, ?_, trivial⟩
    · rintro data pos c hstage hc
      exact Or.inr (by cases hstage; cases hc; rfl)
    · rintro data pos c hstage hc
      exact Or.inr (by cases hstage; cases hc; rfl)
  exact ⟨hmeets, _, rfl, by decide, sharedLog_keeps_iff hmeets rfl⟩

end SharedLog

end Luan
