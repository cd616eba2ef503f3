import Luan.ChromeMCP.PoolInvariant

/-!
# When replies are lost

* `PoolInv.keepsReplies_of_delivered` — a step after which every reply still finds its call is
  one of those that lose none.
* `replies_delivered_iff` — so the runs without lost replies are known exactly.
* `replies_delivered_of_serial` — with one command at a time, as the comment on the actor has it,
  no reply is handed to another call.
-/

namespace Luan

variable {R : Type} [EmptyCollection R]

open BrowserWSPool

/-! ## Lost replies -/

/-- A reply that was waiting must still be waiting, or its call must have ended with it. -/
lemma RepliesDelivered.of_waiting {s s' : BrowserWSPool R} (hs : PoolInv s)
    (hdelivered : RepliesDelivered s') {c : ℕ} {w w' : WSConn R} (hw : s.conns c = some w)
    (hw' : s'.conns c = some w') (harrived : w'.arrived = w.arrived) {r : Reply R}
    (hr : WSMessage.reply r ∈ w.inbox) :
    (∃ call, s'.calls r.id = some call ∧ call.phase = r.outcome)
      ∨ (w'.cancelled = false ∧ WSMessage.reply r ∈ w'.inbox) := by
  have hin := (hs.conn_ok c w hw).inbox_suffix.subset hr
  obtain ⟨call, hcall, -, hphase | ⟨hopen, -, hqueue⟩⟩ :=
    hdelivered c w' hw' r (harrived ▸ hin)
  · exact Or.inl ⟨call, hcall, hphase⟩
  · exact Or.inr ⟨hopen, hqueue⟩

/-- Dropping a connection with a reply on it loses the reply: its call is still waiting, or it
has just failed. -/
lemma PoolInv.noReplyQueued_of_drop {s s' : BrowserWSPool R} (hs : PoolInv s)
    (hdelivered : RepliesDelivered s') {c : ℕ}
    (hconns : ∀ w, s.conns c = some w → s'.conns c = some { w with cancelled := true })
    (hcalls : ∀ id call, s.calls id = some call → s'.calls id = some call
      ∨ ∃ error, s'.calls id = some ⟨call.conn, .threw error⟩
          ∧ ∀ message, error ≠ .cdpError message) : NoReplyQueued s c := by
  intro w hw r hr
  obtain ⟨-, call, hcall, -, hpending⟩ := (hs.conn_ok c w hw).waiting r hr
  rcases hdelivered.of_waiting hs hw (hconns w hw) rfl hr with
    ⟨call', hcall', hphase⟩ | ⟨hopen, -⟩
  · rcases hcalls r.id call hcall with hsame | ⟨error, hfailed, hother⟩
    · obtain rfl := Option.some.inj (hsame.symm.trans hcall')
      exact pending_ne_outcome hpending r hphase
    · obtain rfl := Option.some.inj (hfailed.symm.trans hcall')
      simp only [Reply.outcome] at hphase
      split at hphase
      · exact hother _ (RunPhase.threw.inj hphase)
      · cases hphase
  · cases hopen

lemma PoolInv.noReplyQueued_of_fail {s s' : BrowserWSPool R} (hs : PoolInv s) {id : ℕ}
    {call : RunCall R} (error : ChromeError) (hcall : s.calls id = some call)
    (hconns : s'.conns = (s.fail id call.conn error).conns)
    (hcalls : s'.calls = (s.fail id call.conn error).calls)
    (herror : ∀ message, error ≠ .cdpError message) (hdelivered : RepliesDelivered s') :
    NoReplyQueued s call.conn := by
  refine hs.noReplyQueued_of_drop hdelivered (fun w hw => ?_) fun id' call' hcall' => ?_
  · rw [hconns]
    show Function.update s.conns call.conn _ call.conn = _
    rw [Function.update_self, hw]
    rfl
  · rw [hcalls]
    show ((s.cancel call.conn).setPhase id (.threw error)).calls id' = _ ∨ _
    rw [setPhase_apply (s := s.cancel call.conn) hcall]
    split_ifs with hid
    · subst hid
      obtain rfl := Option.some.inj (hcall.symm.trans hcall')
      refine Or.inr ⟨error, ?_, herror⟩
      show ((s.cancel call.conn).setPhase id' (.threw error)).calls id' = _
      rw [setPhase_apply (s := s.cancel call.conn) hcall, if_pos rfl]
    · exact Or.inl hcall'

/-- **Steps that deliver the replies keep them.** -/
lemma PoolInv.keepsReplies_of_delivered {s s' : BrowserWSPool R} {e : PoolEvent R}
    (hs : PoolInv s) (h : s.step e = some s') (hdelivered : RepliesDelivered s') :
    KeepsReplies s e := by
  cases step_reaction h with
  | @run wsURL validURL encodes =>
      intro c htask hurl
      have hold : ∀ id call, s.calls id = some call →
          (s.enter wsURL validURL encodes).calls id = some call := by
        intro id call hcall
        have hne : id ≠ s.nextID + 1 := by
          have := hs.calls_le id call hcall
          omega
        simp only [BrowserWSPool.enter, htask, if_neg hurl]
        split_ifs
        · rw [calls_issue]
          exact (Function.update_of_ne hne _ _).trans hcall
        · exact hcall
      refine hs.noReplyQueued_of_drop hdelivered (fun w hw => ?_)
        fun id call hcall => Or.inl (hold id call hcall)
      have hlt := hs.conns_lt c w hw
      have hcancelled : (s.cancel c).conns c = some { w with cancelled := true } := by
        rw [conns_cancel, Function.update_self, hw]
        rfl
      simp only [BrowserWSPool.enter, htask, if_neg hurl]
      split_ifs
      · show ((s.cancel c).connect wsURL).conns c = _
        exact (Function.update_of_ne (Nat.ne_of_lt hlt) _ _).trans hcancelled
      · exact hcancelled
  | sent | arrive => trivial
  | sendFailed hcall | timeout hcall | receiveFailed hcall =>
      intro call hcall'
      obtain rfl := Option.some.inj (hcall'.symm.trans hcall)
      exact hs.noReplyQueued_of_fail _ hcall rfl rfl (by simp) hdelivered
  | @receive id c w m rest hcall hw _ hinbox =>
      intro call w' r rest' hcall' hw' hinbox'
      obtain rfl := Option.some.inj (hcall'.symm.trans hcall)
      obtain rfl := Option.some.inj (hw.symm.trans hw')
      obtain ⟨rfl, rfl⟩ := List.cons.inj (hinbox.symm.trans hinbox')
      by_contra hother
      rw [handle, if_neg hother] at hdelivered
      have hok := hs.conn_ok c w hw
      have hin : WSMessage.reply r ∈ w.inbox := hinbox ▸ List.mem_cons_self
      obtain ⟨-, call, hr, -, hpending⟩ := hok.waiting r hin
      rcases hdelivered.of_waiting hs hw (Function.update_self _ _ _) rfl hin with
        ⟨call', hr', hphase⟩ | ⟨-, hrest⟩
      · obtain rfl := Option.some.inj (hr.symm.trans hr')
        exact pending_ne_outcome hpending r hphase
      · have hnodup := hok.once.sublist (hok.inbox_suffix.sublist.filterMap WSMessage.replyId)
        rw [hinbox, List.filterMap_cons, replyId_reply, List.nodup_cons] at hnodup
        exact hnodup.1 (List.mem_filterMap.mpr ⟨_, hrest, rfl⟩)

lemma poolInv_init : PoolInv (browserWSPool R).init where
  calls_le id call hcall := by cases hcall
  conns_lt c w hw := by cases hw
  conn_ok c w hw := by cases hw

/-- **When every reply finds its call**: in exactly the runs in which no `receive` is handed the
reply to another call's command and no connection is dropped with a reply on it. -/
theorem replies_delivered_iff (es : List (PoolEvent R)) :
    (browserWSPool R).Along (fun _ _ s' => RepliesDelivered s') es
      ↔ (browserWSPool R).Meets KeepsReplies es :=
  Machine.along_iff_meets (I := PoolInv) poolInv_init (fun _ _ _ hs h hkeeps => hs.step h hkeeps)
    (fun _ _ _ hs h =>
      ⟨hs.keepsReplies_of_delivered h, fun hkeeps => (hs.step h hkeeps).repliesDelivered⟩) es

/-- Two commands are sent, Chrome answers the second one first, and the first call is handed the
reply. -/
def crossedReplies : List (PoolEvent (List String)) :=
  [.run "ws://browser" true true, .run "ws://browser" true true, .sent 1, .sent 2,
    .arrive 0 (.reply ⟨2, none, some ["targetId"]⟩), .receive 1]

/-- The reply to command 2 is gone, and its call goes on waiting for it. -/
theorem crossed_reply_lost :
    ∃ s, (browserWSPool (List String)).run crossedReplies = some s
      ∧ s.calls 2 = some ⟨0, .receiving⟩
      ∧ s.conns 0
        = some ⟨"ws://browser", false, [.reply ⟨2, none, some ["targetId"]⟩], []⟩
      ∧ ¬ RepliesDelivered s := by
  refine ⟨_, rfl, rfl, rfl, fun h => ?_⟩
  obtain ⟨call, hcall, -, hfate⟩ := h 0 _ rfl _ List.mem_cons_self
  obtain rfl := Option.some.inj hcall
  rcases hfate with hphase | ⟨-, -, hin⟩
  · cases hphase
  · cases hin

/-! ## One command at a time -/

/-- No call begins while another one is suspended, and no connection is dropped while a reply is
waiting on it. -/
def Serial (s : BrowserWSPool R) : PoolEvent R → Prop
  | .receive _ => True
  | .run wsURL validURL encodes =>
      (∀ id call, s.calls id = some call → call.phase.pending = false)
        ∧ KeepsReplies s (.run wsURL validURL encodes)
  | e => KeepsReplies s e

/-- At most one call is suspended. -/
def OnePending (s : BrowserWSPool R) : Prop :=
  ∀ id id' call call', s.calls id = some call → s.calls id' = some call' →
    call.phase.pending = true → call'.phase.pending = true → id = id'

/-- Only a call of `run` adds a suspended call. -/
lemma pending_of_step {s s' : BrowserWSPool R} {e : PoolEvent R} (h : s.step e = some s')
    (hrun : ∀ wsURL validURL encodes, e ≠ .run wsURL validURL encodes) {id : ℕ}
    {call' : RunCall R} (hcall' : s'.calls id = some call')
    (hpending : call'.phase.pending = true) :
    ∃ call, s.calls id = some call ∧ call.phase.pending = true := by
  -- a change of one call, which was suspended before
  have hset : ∀ {t : BrowserWSPool R} {id₀ : ℕ} {call₀ : RunCall R} {phase : RunPhase R},
      t.calls = s.calls → s.calls id₀ = some call₀ → call₀.phase.pending = true →
      (t.setPhase id₀ phase).calls id = some call' →
      ∃ call, s.calls id = some call ∧ call.phase.pending = true := by
    intro t id₀ call₀ phase ht hcall₀ hpending₀ hcall'
    rw [setPhase_apply (ht ▸ hcall₀)] at hcall'
    split_ifs at hcall' with hid
    · exact ⟨call₀, hid ▸ hcall₀, hpending₀⟩
    · exact ⟨call', ht ▸ hcall', hpending⟩
  cases step_reaction h with
  | run => exact absurd rfl (hrun _ _ _)
  | sent hcall => exact hset rfl hcall rfl hcall'
  | sendFailed hcall | timeout hcall | receiveFailed hcall =>
      exact hset (t := s.cancel _) rfl hcall rfl hcall'
  | arrive => exact ⟨call', hcall', hpending⟩
  | @receive id₀ c w m rest hcall =>
      cases m with
      | other => exact ⟨call', hcall', hpending⟩
      | reply r =>
          rw [handle] at hcall'
          split_ifs at hcall' with hid
          · exact hset (t := s.take c w rest) rfl hcall rfl hcall'
          · exact ⟨call', hcall', hpending⟩

omit [EmptyCollection R] in
/-- A call of `run` adds at most the call with the next id. -/
lemma calls_enter {s : BrowserWSPool R} {url : String} {validURL encodes : Bool} {id : ℕ}
    {call : RunCall R} (h : (s.enter url validURL encodes).calls id = some call) :
    id = s.nextID + 1 ∨ s.calls id = some call := by
  have hissue : ∀ {t : BrowserWSPool R} {c : ℕ}, t.nextID = s.nextID → t.calls = s.calls →
      (t.issue c encodes).calls id = some call → id = s.nextID + 1 ∨ s.calls id = some call := by
    intro t c hID hcalls h
    by_cases hid : id = s.nextID + 1
    · exact Or.inl hid
    · rw [calls_issue, hID, hcalls, Function.update_of_ne hid] at h
      exact Or.inr h
  simp only [enter] at h
  split at h
  · split_ifs at h
    · exact hissue rfl rfl h
    · exact hissue (t := (s.cancel _).connect url) rfl rfl h
    · exact Or.inr h
  · split_ifs at h
    · exact hissue (t := s.connect url) rfl rfl h
    · exact Or.inr h

lemma OnePending.step {s s' : BrowserWSPool R} {e : PoolEvent R} (hs : OnePending s)
    (h : s.step e = some s') (hserial : Serial s e) : OnePending s' := by
  by_cases hrun : ∃ wsURL validURL encodes, e = .run wsURL validURL encodes
  · obtain ⟨wsURL, validURL, encodes, rfl⟩ := hrun
    obtain rfl := Option.some.inj h
    -- there was no suspended call, so the new one is the only one
    have hnew : ∀ id call, (s.enter wsURL validURL encodes).calls id = some call →
        call.phase.pending = true → id = s.nextID + 1 := by
      intro id call hcall hpending
      rcases calls_enter hcall with hid | hold
      · exact hid
      · rw [hserial.1 id call hold] at hpending
        cases hpending
    intro id id' call call' hcall hcall' hpending hpending'
    rw [hnew id call hcall hpending, hnew id' call' hcall' hpending']
  · push Not at hrun
    intro id id' call call' hcall hcall' hpending hpending'
    obtain ⟨call₀, hcall₀, hpending₀⟩ := pending_of_step h hrun hcall hpending
    obtain ⟨call₁, hcall₁, hpending₁⟩ := pending_of_step h hrun hcall' hpending'
    exact hs id id' call₀ call₁ hcall₀ hcall₁ hpending₀ hpending₁

/-- With one suspended call, the reply in the queue is its own. -/
lemma PoolInv.keepsReplies_of_serial {s s' : BrowserWSPool R} {e : PoolEvent R} (hs : PoolInv s)
    (hone : OnePending s) (h : s.step e = some s') (hserial : Serial s e) : KeepsReplies s e := by
  cases step_reaction h with
  | @receive id c _ _ _ hcall' =>
      intro call w r rest hcall hw hinbox
      obtain rfl := Option.some.inj (hcall.symm.trans hcall')
      obtain ⟨-, call', hr, -, hpending⟩ :=
        (hs.conn_ok c w hw).waiting r (hinbox ▸ List.mem_cons_self)
      exact hone _ _ call' _ hr hcall hpending rfl
  | run => exact hserial.2
  | _ => exact hserial

/-- **With one command at a time every reply finds its call.** -/
theorem replies_delivered_of_serial {es : List (PoolEvent R)}
    (h : (browserWSPool R).Meets Serial es) :
    (browserWSPool R).Along (fun _ _ s' => RepliesDelivered s') es := by
  refine Machine.along_of_meets (I := fun s => PoolInv s ∧ OnePending s)
    ⟨poolInv_init, fun id id' call call' hcall => by cases hcall⟩
    (fun s e s' hs hstep hserial => ?_) (fun s e s' hs hstep hserial => ?_) h
  · exact ⟨hs.1.step hstep (hs.1.keepsReplies_of_serial hs.2 hstep hserial),
      hs.2.step hstep hserial⟩
  · exact (hs.1.step hstep
      (hs.1.keepsReplies_of_serial hs.2 hstep hserial)).repliesDelivered

end Luan
