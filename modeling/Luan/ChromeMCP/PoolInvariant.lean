import Luan.ChromeMCP.BrowserWSPool

/-!
# Replies waiting on the shared connection

`run` skips every message that is not the reply to its own command.  With one command in flight
that is right; with several, the reply to one may be handed to the `receive` of another, which
drops it.

`RepliesDelivered` is what the callers count on, and `KeepsReplies` names the steps that do not
lose a reply.  `PoolInv` is the invariant of the runs that only take such steps: each reply is in
the queue of its connection, where its call will find it, or its call has ended with it.  The
pieces of `run` keep it one by one, and `PoolInv.step` puts them together.
-/

namespace Luan

variable {R : Type} [EmptyCollection R]

open BrowserWSPool

/-! ## The contract -/

/-- **Every reply finds its call**: the call of its id has ended with it, or is waiting for it
while it is queued on a connection that is still open. -/
def RepliesDelivered (s : BrowserWSPool R) : Prop :=
  ∀ c w, s.conns c = some w → ∀ r, WSMessage.reply r ∈ w.arrived →
    ∃ call, s.calls r.id = some call ∧ call.conn = c
      ∧ (call.phase = r.outcome
        ∨ (w.cancelled = false ∧ call.phase.pending = true ∧ WSMessage.reply r ∈ w.inbox))

/-- No reply is waiting on the connection. -/
def NoReplyQueued (s : BrowserWSPool R) (c : ℕ) : Prop :=
  ∀ w, s.conns c = some w → ∀ r, WSMessage.reply r ∉ w.inbox

/-- **The steps that lose no reply**: a call is handed no reply to another call's command, and a
connection is not dropped while a reply is waiting on it. -/
def KeepsReplies (s : BrowserWSPool R) : PoolEvent R → Prop
  | .receive id =>
      ∀ call w r rest, s.calls id = some call → s.conns call.conn = some w →
        w.inbox = WSMessage.reply r :: rest → r.id = id
  | .run wsURL _ _ => ∀ c, s.task = some c → s.wsURL ≠ wsURL → NoReplyQueued s c
  | .sendFailed id => ∀ call, s.calls id = some call → NoReplyQueued s call.conn
  | .timeout id => ∀ call, s.calls id = some call → NoReplyQueued s call.conn
  | .receiveFailed id => ∀ call, s.calls id = some call → NoReplyQueued s call.conn
  | _ => True

/-! ## The invariant -/

/-- The messages of a connection, seen from the calls. -/
structure ConnOK (calls : ℕ → Option (RunCall R)) (c : ℕ) (w : WSConn R) : Prop where
  inbox_suffix : w.inbox <:+ w.arrived
  once : (w.arrived.filterMap WSMessage.replyId).Nodup
  waiting : ∀ r, WSMessage.reply r ∈ w.inbox → w.cancelled = false
    ∧ ∃ call, calls r.id = some call ∧ call.conn = c ∧ call.phase.pending = true
  answered : ∀ r, WSMessage.reply r ∈ w.arrived → WSMessage.reply r ∈ w.inbox
    ∨ ∃ call, calls r.id = some call ∧ call.conn = c ∧ call.phase = r.outcome

/-- What holds between two steps. -/
structure PoolInv (s : BrowserWSPool R) : Prop where
  calls_le : ∀ id call, s.calls id = some call → id ≤ s.nextID
  conns_lt : ∀ c w, s.conns c = some w → c < s.nextConn
  conn_ok : ∀ c w, s.conns c = some w → ConnOK s.calls c w

lemma Reply.outcome_not_pending (r : Reply R) : r.outcome.pending = false := by
  simp only [Reply.outcome]
  split <;> rfl

lemma PoolInv.repliesDelivered {s : BrowserWSPool R} (hs : PoolInv s) : RepliesDelivered s := by
  intro c w hw r hr
  have hok := hs.conn_ok c w hw
  rcases hok.answered r hr with hin | ⟨call, hcall, hconn, hphase⟩
  · obtain ⟨hopen, call, hcall, hconn, hpending⟩ := hok.waiting r hin
    exact ⟨call, hcall, hconn, Or.inr ⟨hopen, hpending, hin⟩⟩
  · exact ⟨call, hcall, hconn, Or.inl hphase⟩

omit [EmptyCollection R] in
/-- Messages without two replies to one command. -/
lemma eq_of_replyId {l : List (WSMessage R)} (h : (l.filterMap WSMessage.replyId).Nodup)
    {r r' : Reply R} (hr : WSMessage.reply r ∈ l) (hr' : WSMessage.reply r' ∈ l)
    (hid : r.id = r'.id) : r = r' := by
  induction l with
  | nil => cases hr
  | cons m l ih =>
      cases m with
      | other =>
          rw [List.filterMap_cons, replyId_other] at h
          exact ih h (by simpa using hr) (by simpa using hr')
      | reply r₀ =>
          rw [List.filterMap_cons, replyId_reply, List.nodup_cons] at h
          have hfresh : ∀ r₁, WSMessage.reply r₁ ∈ l → r₁.id ≠ r₀.id := fun r₁ hr₁ heq =>
            h.1 (List.mem_filterMap.mpr ⟨_, hr₁, congrArg some heq⟩)
          rcases List.mem_cons.mp hr with heq | hr <;>
            rcases List.mem_cons.mp hr' with heq' | hr'
          · exact (WSMessage.reply.inj heq).trans (WSMessage.reply.inj heq').symm
          · exact absurd ((WSMessage.reply.inj heq) ▸ hid.symm) (hfresh r' hr')
          · exact absurd ((WSMessage.reply.inj heq') ▸ hid) (hfresh r hr)
          · exact ih h.2 hr hr'

/-- Only the calls with replies on the connection matter to it. -/
lemma ConnOK.congr {calls calls' : ℕ → Option (RunCall R)} {c : ℕ} {w : WSConn R}
    (h : ConnOK calls c w)
    (hsame : ∀ r, WSMessage.reply r ∈ w.arrived → calls' r.id = calls r.id) :
    ConnOK calls' c w where
  inbox_suffix := h.inbox_suffix
  once := h.once
  waiting r hr := by
    rw [hsame r (h.inbox_suffix.subset hr)]
    exact h.waiting r hr
  answered r hr := by
    rw [hsame r hr]
    exact h.answered r hr

/-- A connection is dropped. -/
lemma ConnOK.drop {calls : ℕ → Option (RunCall R)} {c : ℕ} {w : WSConn R} (h : ConnOK calls c w)
    (hqueue : ∀ r, WSMessage.reply r ∉ w.inbox) :
    ConnOK calls c { w with cancelled := true } where
  inbox_suffix := h.inbox_suffix
  once := h.once
  waiting r hr := absurd hr (hqueue r)
  answered := h.answered

/-- The call of a reply that has arrived. -/
lemma ConnOK.exists_call {calls : ℕ → Option (RunCall R)} {c : ℕ} {w : WSConn R}
    (h : ConnOK calls c w) {r : Reply R} (hr : WSMessage.reply r ∈ w.arrived) :
    ∃ call, calls r.id = some call ∧ call.conn = c := by
  rcases h.answered r hr with hin | ⟨call, hcall, hconn, -⟩
  · obtain ⟨-, call, hcall, hconn, -⟩ := h.waiting r hin
    exact ⟨call, hcall, hconn⟩
  · exact ⟨call, hcall, hconn⟩

/-- A suspended call has not ended with a reply. -/
lemma pending_ne_outcome {phase : RunPhase R} (h : phase.pending = true) (r : Reply R) :
    phase ≠ r.outcome := by
  rintro rfl
  rw [r.outcome_not_pending] at h
  cases h

/-! ## The pieces keep the invariant -/

omit [EmptyCollection R] in
lemma cancel_conns {s : BrowserWSPool R} {c c' : ℕ} {w : WSConn R}
    (h : (s.cancel c).conns c' = some w) :
    (c' = c ∧ w.cancelled = true ∧ ∃ w', s.conns c = some w' ∧ w = { w' with cancelled := true })
      ∨ (c' ≠ c ∧ s.conns c' = some w) := by
  by_cases hc : c' = c
  · subst hc
    rw [conns_cancel, Function.update_self, Option.map_eq_some_iff] at h
    obtain ⟨w', hw', rfl⟩ := h
    exact Or.inl ⟨rfl, rfl, w', hw', rfl⟩
  · rw [conns_cancel, Function.update_of_ne hc] at h
    exact Or.inr ⟨hc, h⟩

lemma PoolInv.cancel {s : BrowserWSPool R} (hs : PoolInv s) {c : ℕ} (hqueue : NoReplyQueued s c) :
    PoolInv (s.cancel c) where
  calls_le := hs.calls_le
  conns_lt c' w hw := by
    rcases cancel_conns hw with ⟨rfl, -, w', hw', -⟩ | ⟨-, hw'⟩
    · exact hs.conns_lt _ w' hw'
    · exact hs.conns_lt _ w hw'
  conn_ok c' w hw := by
    rcases cancel_conns hw with ⟨rfl, -, w', hw', rfl⟩ | ⟨-, hw'⟩
    · exact (hs.conn_ok _ w' hw').drop (hqueue w' hw')
    · exact hs.conn_ok _ w hw'

lemma PoolInv.connect {s : BrowserWSPool R} (hs : PoolInv s) (url : String) :
    PoolInv (s.connect url) where
  calls_le := hs.calls_le
  conns_lt c w hw := by
    by_cases hc : c = s.nextConn
    · subst hc
      exact Nat.lt_succ_self _
    · rw [conns_connect, Function.update_of_ne hc] at hw
      exact Nat.lt_succ_of_lt (hs.conns_lt c w hw)
  conn_ok c w hw := by
    by_cases hc : c = s.nextConn
    · subst hc
      rw [conns_connect, Function.update_self] at hw
      obtain rfl := Option.some.inj hw
      exact ⟨List.suffix_refl _, List.nodup_nil, by simp, by simp⟩
    · rw [conns_connect, Function.update_of_ne hc] at hw
      exact hs.conn_ok c w hw

/-- A new id has no replies yet. -/
lemma PoolInv.issue {s : BrowserWSPool R} (hs : PoolInv s) (c : ℕ) (encodes : Bool) :
    PoolInv (s.issue c encodes) where
  calls_le id call hcall := by
    by_cases hid : id = s.nextID + 1
    · exact Nat.le_of_eq hid
    · rw [calls_issue, Function.update_of_ne hid] at hcall
      exact Nat.le_succ_of_le (hs.calls_le id call hcall)
  conns_lt := hs.conns_lt
  conn_ok c' w hw := by
    refine (hs.conn_ok c' w hw).congr fun r hr => ?_
    obtain ⟨call, hcall, -⟩ := (hs.conn_ok c' w hw).exists_call hr
    have hle := hs.calls_le r.id call hcall
    exact Function.update_of_ne (by omega) _ _

lemma PoolInv.enter {s : BrowserWSPool R} (hs : PoolInv s) {url : String}
    (validURL encodes : Bool)
    (hqueue : ∀ c, s.task = some c → s.wsURL ≠ url → NoReplyQueued s c) :
    PoolInv (s.enter url validURL encodes) := by
  simp only [BrowserWSPool.enter]
  split
  · rename_i c htask
    split_ifs with hurl
    · exact hs.issue _ _
    · exact ((hs.cancel (hqueue c htask hurl)).connect url).issue _ _
    · exact hs.cancel (hqueue c htask hurl)
  · split_ifs
    · exact (hs.connect url).issue _ _
    · exact hs

omit [EmptyCollection R] in
lemma setPhase_apply {s : BrowserWSPool R} {id id' : ℕ} {phase : RunPhase R} {call : RunCall R}
    (hcall : s.calls id = some call) :
    (s.setPhase id phase).calls id' = if id' = id then some ⟨call.conn, phase⟩
      else s.calls id' := by
  rw [calls_setPhase hcall, Function.update_apply]

/-- A call changes its phase.  Its connection has been dropped, or the change concerns no reply
that has arrived. -/
lemma PoolInv.setPhase {s : BrowserWSPool R} (hs : PoolInv s) {id : ℕ} {call : RunCall R}
    {phase : RunPhase R} (hcall : s.calls id = some call)
    (hconn : ∀ w, s.conns call.conn = some w → ConnOK (s.setPhase id phase).calls call.conn w) :
    PoolInv (s.setPhase id phase) where
  calls_le id' call' hcall' := by
    rw [setPhase_apply hcall] at hcall'
    split_ifs at hcall' with hid
    · exact hid ▸ hs.calls_le id call hcall
    · exact hs.calls_le id' call' hcall'
  conns_lt := hs.conns_lt
  conn_ok c w hw := by
    by_cases hc : c = call.conn
    · exact hc ▸ hconn w (hc ▸ hw)
    · refine (hs.conn_ok c w hw).congr fun r hr => ?_
      obtain ⟨call', hcall', hconn'⟩ := (hs.conn_ok c w hw).exists_call hr
      rw [setPhase_apply hcall, if_neg]
      rintro rfl
      rw [hcall] at hcall'
      exact hc (Option.some.inj hcall' ▸ hconn'.symm)

/-- A suspended call goes on, and no reply to it is queued if it does not go on waiting. -/
lemma PoolInv.setPhase_pending {s : BrowserWSPool R} (hs : PoolInv s) {id : ℕ} {call : RunCall R}
    {phase : RunPhase R} (hcall : s.calls id = some call) (hpending : call.phase.pending = true)
    (hqueue : phase.pending = true ∨ NoReplyQueued s call.conn) :
    PoolInv (s.setPhase id phase) := by
  refine hs.setPhase hcall fun w hw => ?_
  have hok := hs.conn_ok _ w hw
  refine ⟨hok.inbox_suffix, hok.once, fun r hr => ?_, fun r hr => ?_⟩
  · obtain ⟨hopen, call', hr', hconn, hpending'⟩ := hok.waiting r hr
    rw [setPhase_apply hcall]
    split_ifs with hid
    · exact ⟨hopen, _, rfl, rfl, hqueue.resolve_right fun h => h w hw r hr⟩
    · exact ⟨hopen, call', hr', hconn, hpending'⟩
  · rcases hok.answered r hr with hin | ⟨call', hr', hconn, hphase⟩
    · exact Or.inl hin
    · refine Or.inr ⟨call', ?_, hconn, hphase⟩
      rw [setPhase_apply hcall, if_neg]
      · exact hr'
      · rintro rfl
        obtain rfl := Option.some.inj (hcall.symm.trans hr')
        exact pending_ne_outcome hpending r hphase

lemma PoolInv.fail {s : BrowserWSPool R} (hs : PoolInv s) {id : ℕ} {call : RunCall R}
    (error : ChromeError) (hcall : s.calls id = some call) (hpending : call.phase.pending = true)
    (hqueue : NoReplyQueued s call.conn) : PoolInv (s.fail id call.conn error) := by
  have hempty : NoReplyQueued (s.cancel call.conn) call.conn := by
    intro w hw r hr
    rcases cancel_conns hw with ⟨-, -, w', hw', rfl⟩ | ⟨hne, -⟩
    · exact hqueue w' hw' r hr
    · exact hne rfl
  have hdropped : PoolInv ((s.cancel call.conn).setPhase id (.threw error)) :=
    (hs.cancel hqueue).setPhase_pending hcall hpending (Or.inr hempty)
  exact ⟨hdropped.calls_le, hdropped.conns_lt, hdropped.conn_ok⟩

/-- A change of one connection, and of calls on it. -/
lemma PoolInv.of_update {s s' : BrowserWSPool R} (hs : PoolInv s) {c : ℕ} {w w' : WSConn R}
    (hw : s.conns c = some w) (hconns : s'.conns = Function.update s.conns c (some w'))
    (hcalls : ∀ id, s'.calls id = s.calls id ∨ ∃ call, s.calls id = some call ∧ call.conn = c)
    (hID : s'.nextID = s.nextID) (hConn : s'.nextConn = s.nextConn)
    (hok : ConnOK s'.calls c w') : PoolInv s' where
  calls_le id call hcall := by
    rw [hID]
    rcases hcalls id with hsame | ⟨call', hcall', -⟩
    · exact hs.calls_le id call (hsame ▸ hcall)
    · exact hs.calls_le id call' hcall'
  conns_lt c' w'' hw'' := by
    rw [hConn]
    by_cases hc : c' = c
    · exact hc ▸ hs.conns_lt c w hw
    · rw [hconns, Function.update_of_ne hc] at hw''
      exact hs.conns_lt c' w'' hw''
  conn_ok c' w'' hw'' := by
    by_cases hc : c' = c
    · subst hc
      rw [hconns, Function.update_self] at hw''
      exact Option.some.inj hw'' ▸ hok
    · rw [hconns, Function.update_of_ne hc] at hw''
      refine (hs.conn_ok c' w'' hw'').congr fun r hr => ?_
      obtain ⟨call, hcall, hconn⟩ := (hs.conn_ok c' w'' hw'').exists_call hr
      rcases hcalls r.id with hsame | ⟨call', hcall', hconn'⟩
      · exact hsame
      · rw [hcall] at hcall'
        exact absurd (hconn.symm.trans (Option.some.inj hcall' ▸ hconn')) hc

/-- A message arrives: an event, or the only reply to a command in flight. -/
lemma PoolInv.deliver {s : BrowserWSPool R} (hs : PoolInv s) {c : ℕ} {w : WSConn R}
    {m : WSMessage R} (hw : s.conns c = some w) (hopen : w.cancelled = false)
    (hm : s.mayArrive c w m = true) : PoolInv (s.deliver c w m) := by
  refine hs.of_update hw rfl (fun id => Or.inl rfl) rfl rfl ?_
  have hok := hs.conn_ok c w hw
  obtain ⟨before, hbefore⟩ := hok.inbox_suffix
  have hsuffix : w.inbox ++ [m] <:+ w.arrived ++ [m] :=
    ⟨before, by rw [← List.append_assoc, hbefore]⟩
  cases m with
  | other =>
      refine ⟨hsuffix, ?_, fun r hr => ?_, fun r hr => ?_⟩
      · rw [List.filterMap_append, List.filterMap_cons, replyId_other, List.filterMap_nil,
          List.append_nil]
        exact hok.once
      · exact hok.waiting r (by simpa using hr)
      · rcases hok.answered r (by simpa using hr) with hin | hdone
        · exact Or.inl (by simpa using hin)
        · exact Or.inr hdone
  | reply r =>
      rw [mayArrive, Bool.and_eq_true] at hm
      obtain ⟨hcall, hfresh⟩ := hm
      split at hcall
      · rename_i call hcall'
        rw [Bool.and_eq_true, beq_iff_eq] at hcall
        refine ⟨hsuffix, ?_, fun r' hr' => ?_, fun r' hr' => ?_⟩
        · rw [List.filterMap_append, List.nodup_append]
          refine ⟨hok.once, by simp, ?_⟩
          rintro id hid id' hid' rfl
          obtain rfl : id = r.id := by simpa using hid'
          rw [Bool.not_eq_true', ← Bool.not_eq_true, List.contains_iff_mem] at hfresh
          exact hfresh hid
        · rcases List.mem_append.mp hr' with hin | hnew
          · exact hok.waiting r' hin
          · obtain rfl : r' = r := by simpa using hnew
            exact ⟨hopen, call, hcall', hcall.1, hcall.2⟩
        · rcases List.mem_append.mp hr' with hin | hnew
          · rcases hok.answered r' hin with hin | hdone
            · exact Or.inl (List.mem_append_left _ hin)
            · exact Or.inr hdone
          · exact Or.inl (List.mem_append_right _ hnew)
      · cases hcall

/-- Skipping an event loses no reply. -/
lemma PoolInv.takeOther {s : BrowserWSPool R} (hs : PoolInv s) {c : ℕ} {w : WSConn R}
    {rest : List (WSMessage R)} (hw : s.conns c = some w) (hinbox : w.inbox = .other :: rest) :
    PoolInv (s.take c w rest) := by
  refine hs.of_update hw rfl (fun id => Or.inl rfl) rfl rfl ?_
  have hok := hs.conn_ok c w hw
  refine ⟨(List.suffix_cons _ _).trans (hinbox ▸ hok.inbox_suffix), hok.once,
    fun r hr => hok.waiting r (hinbox ▸ List.mem_cons_of_mem _ hr), fun r hr => ?_⟩
  rcases hok.answered r hr with hin | hdone
  · exact Or.inl (by simpa [hinbox] using hin)
  · exact Or.inr hdone

/-- A call ends with the reply to its command. -/
lemma PoolInv.takeOwn {s : BrowserWSPool R} (hs : PoolInv s) {c : ℕ} {w : WSConn R} {r : Reply R}
    {rest : List (WSMessage R)} {phase : RunPhase R} (hcall : s.calls r.id = some ⟨c, phase⟩)
    (hw : s.conns c = some w) (hinbox : w.inbox = .reply r :: rest) :
    PoolInv ((s.take c w rest).setPhase r.id r.outcome) := by
  have hcalls : ((s.take c w rest).setPhase r.id r.outcome).calls
      = Function.update s.calls r.id (some ⟨c, r.outcome⟩) :=
    calls_setPhase (s := s.take c w rest) hcall r.outcome
  have hok := hs.conn_ok c w hw
  have hr : WSMessage.reply r ∈ w.arrived :=
    hok.inbox_suffix.subset (hinbox ▸ List.mem_cons_self)
  -- the queue holds no second reply to the command
  have hother : ∀ r', WSMessage.reply r' ∈ rest → r'.id ≠ r.id := by
    intro r' hr' hid
    have hnodup := hok.once.sublist (hok.inbox_suffix.sublist.filterMap WSMessage.replyId)
    rw [hinbox, List.filterMap_cons, replyId_reply, List.nodup_cons] at hnodup
    exact hnodup.1 (List.mem_filterMap.mpr ⟨_, hr', congrArg some hid⟩)
  refine hs.of_update hw rfl (fun id => ?_) rfl rfl
    ⟨(List.suffix_cons _ _).trans (hinbox ▸ hok.inbox_suffix), hok.once, fun r' hr' => ?_,
      fun r' hr' => ?_⟩
  · rw [hcalls]
    by_cases hid : id = r.id
    · exact Or.inr ⟨_, hid ▸ hcall, rfl⟩
    · exact Or.inl (Function.update_of_ne hid _ _)
  · obtain ⟨hopen, call, hr, hconn, hpending⟩ :=
      hok.waiting r' (hinbox ▸ List.mem_cons_of_mem _ hr')
    exact ⟨hopen, call, by rwa [hcalls, Function.update_of_ne (hother r' hr')], hconn, hpending⟩
  · rw [hcalls]
    by_cases hid : r'.id = r.id
    · -- the only reply to this command is the one just taken
      obtain rfl := eq_of_replyId hok.once hr' hr hid
      exact Or.inr ⟨⟨c, r'.outcome⟩, Function.update_self _ _ _, rfl, rfl⟩
    · rw [Function.update_of_ne hid]
      rcases hok.answered r' hr' with hin | hdone
      · refine Or.inl ?_
        rw [hinbox] at hin
        rcases List.mem_cons.mp hin with heq | hin
        · exact absurd (congrArg Reply.id (WSMessage.reply.inj heq)) hid
        · exact hin
      · exact Or.inr hdone

/-! ## Steps -/

/-- **Steps that keep the replies keep the invariant.** -/
lemma PoolInv.step {s s' : BrowserWSPool R} {e : PoolEvent R} (hs : PoolInv s)
    (h : s.step e = some s') (hkeeps : KeepsReplies s e) : PoolInv s' := by
  cases step_reaction h with
  | @run wsURL validURL encodes => exact hs.enter validURL encodes hkeeps
  | sent hcall => exact hs.setPhase_pending hcall rfl (Or.inl rfl)
  | sendFailed hcall | receiveFailed hcall => exact hs.fail _ hcall rfl (hkeeps _ hcall)
  | arrive hw hopen hm => exact hs.deliver hw hopen hm
  | @receive id c w m rest hcall hw _ hinbox =>
      cases m with
      | other => exact hs.takeOther hw hinbox
      | reply r =>
          obtain rfl := hkeeps _ w r rest hcall hw hinbox
          rw [handle, if_pos rfl]
          exact hs.takeOwn hcall hw hinbox
  | timeout hcall =>
      have hfail := hs.fail .timeout hcall rfl (hkeeps _ hcall)
      exact ⟨hfail.calls_le, hfail.conns_lt, hfail.conn_ok⟩

end Luan
