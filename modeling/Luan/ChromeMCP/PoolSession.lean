import Luan.ChromeMCP.BrowserWSPool

/-!
# The connection that sessions live on

A flat session id is good only on the connection it was made on, so the pool should keep its
connection as long as nobody asks for another URL and no command on it fails.  The error paths of
`run` drop the connection the call has in its own variable `task`, but clear the actor's, which may
be another one by then.

* `KeepsConnection` — what a step should leave as it is.
* `keepsConnection_iff` — in which runs it does, and what that means for the commands of a whole
  stretch of a run.
-/

namespace Luan

variable {R : Type}

/-- The event is no reason to give up the connection `c`: no call wants another URL, and it is not
a command on `c` that fails. -/
def LeavesAlone (c : ℕ) (s : BrowserWSPool R) : PoolEvent R → Prop
  | .run wsURL _ _ => wsURL = s.wsURL
  | .sendFailed id | .timeout id | .receiveFailed id =>
      ∀ call, s.calls id = some call → call.conn ≠ c
  | _ => True

/-- The commands of `s'` are those of `s`, and commands on `c`. -/
def SentOn (c : ℕ) (s s' : BrowserWSPool R) : Prop :=
  ∀ id call, s'.calls id = some call →
    (∃ earlier, s.calls id = some earlier ∧ earlier.conn = call.conn) ∨ call.conn = c

/-- **The current connection stays when there is no reason to give it up**, whatever happens on
connections that have been replaced, and new commands are sent on it. -/
def KeepsConnection (s : BrowserWSPool R) (e : PoolEvent R) (s' : BrowserWSPool R) : Prop :=
  ∀ c, s.task = some c → LeavesAlone c s e →
    s'.task = some c ∧ s'.wsURL = s.wsURL ∧ SentOn c s s'

/-- A command fails only on the current connection, or while there is none. -/
def FailsOnCurrent (s : BrowserWSPool R) : PoolEvent R → Prop
  | .sendFailed id | .timeout id | .receiveFailed id =>
      ∀ call, s.calls id = some call → s.task = some call.conn ∨ s.task = none
  | _ => True

/-! ## The commands -/

section Sent

variable {c : ℕ} {s s' s'' : BrowserWSPool R}

lemma SentOn.of_calls (h : s'.calls = s.calls) : SentOn c s s' := by
  intro id call hcall
  rw [h] at hcall
  exact .inl ⟨call, hcall, rfl⟩

lemma SentOn.trans (h : SentOn c s s') (h' : SentOn c s' s'') : SentOn c s s'' := by
  intro id call hcall
  rcases h' id call hcall with ⟨mid, hmid, hconn⟩ | hc
  · rcases h id mid hmid with ⟨first, hfirst, hconn'⟩ | hc
    · exact .inl ⟨first, hfirst, hconn'.trans hconn⟩
    · exact .inr (hconn ▸ hc)
  · exact .inr hc

/-- A call that goes on stays on its connection. -/
lemma sentOn_setPhase (id : ℕ) (phase : RunPhase R) : SentOn c s (s.setPhase id phase) := by
  intro id' call hcall
  simp only [BrowserWSPool.setPhase] at hcall
  by_cases hid : id' = id
  · subst hid
    rw [Function.update_self, Option.map_eq_some_iff] at hcall
    obtain ⟨first, hfirst, rfl⟩ := hcall
    exact .inl ⟨first, hfirst, rfl⟩
  · rw [Function.update_of_ne hid] at hcall
    exact .inl ⟨call, hcall, rfl⟩

/-- A new command. -/
lemma sentOn_issue (encodes : Bool) : SentOn c s (s.issue c encodes) := by
  intro id call hcall
  rw [BrowserWSPool.calls_issue] at hcall
  by_cases hid : id = s.nextID + 1
  · subst hid
    rw [Function.update_self] at hcall
    exact .inr (Option.some.inj hcall ▸ rfl)
  · rw [Function.update_of_ne hid] at hcall
    exact .inl ⟨call, hcall, rfl⟩

end Sent

/-! ## Steps -/

variable [EmptyCollection R]

open BrowserWSPool

omit [EmptyCollection R] in
lemma enter_same {s : BrowserWSPool R} {c : ℕ} (htask : s.task = some c) (validURL encodes : Bool) :
    s.enter s.wsURL validURL encodes = s.issue c encodes := by
  rw [enter, htask]
  exact if_pos rfl

/-- A message that is taken from a connection, and what its call makes of it. -/
lemma keeps_handle {s : BrowserWSPool R} (c : ℕ) (id c' : ℕ) (w : WSConn R)
    (rest : List (WSMessage R)) (m : WSMessage R) :
    ((s.take c' w rest).handle id m).task = s.task
      ∧ ((s.take c' w rest).handle id m).wsURL = s.wsURL
      ∧ SentOn c s ((s.take c' w rest).handle id m) := by
  cases m with
  | other => exact ⟨rfl, rfl, .of_calls rfl⟩
  | reply r =>
      rw [handle]
      split_ifs
      · exact ⟨rfl, rfl, (SentOn.of_calls rfl).trans (sentOn_setPhase id _)⟩
      · exact ⟨rfl, rfl, .of_calls rfl⟩

/-- **A step keeps the connection if and only if no command fails on another than the current
one.** -/
lemma step_keepsConnection_iff {s s' : BrowserWSPool R} {e : PoolEvent R}
    (h : (browserWSPool R).step s e = some s') : KeepsConnection s e s' ↔ FailsOnCurrent s e := by
  -- the three error paths clear the variable
  have hfailed : ∀ {id c₀ : ℕ} {phase : RunPhase R}, s.calls id = some ⟨c₀, phase⟩ →
      s'.task = none →
      ((∀ c, s.task = some c → (∀ call, s.calls id = some call → call.conn ≠ c) →
          s'.task = some c ∧ s'.wsURL = s.wsURL ∧ SentOn c s s')
        ↔ ∀ call, s.calls id = some call → s.task = some call.conn ∨ s.task = none) := by
    intro id c₀ phase hcall hcleared
    constructor
    · intro hkeeps call hcall'
      obtain rfl := Option.some.inj (hcall.symm.trans hcall')
      cases htask : s.task with
      | none => exact .inr rfl
      | some c =>
          by_cases hc : c₀ = c
          · exact .inl (congrArg some hc.symm)
          · obtain ⟨hstays, -⟩ := hkeeps c htask fun call' hcall'' =>
              Option.some.inj (hcall.symm.trans hcall'') ▸ hc
            rw [hcleared] at hstays
            cases hstays
    · intro hcurrent c htask hother
      rcases hcurrent _ hcall with hsame | hnone
      · exact absurd (Option.some.inj (hsame.symm.trans htask)) (hother _ hcall)
      · rw [hnone] at htask
        cases htask
  cases step_reaction h with
  | @run wsURL validURL encodes =>
      refine ⟨fun _ => trivial, fun _ c htask halone => ?_⟩
      obtain rfl : wsURL = s.wsURL := halone
      rw [enter_same htask]
      exact ⟨htask, rfl, sentOn_issue encodes⟩
  | sent hcall =>
      exact ⟨fun _ => trivial, fun _ c htask _ => ⟨htask, rfl, sentOn_setPhase _ _⟩⟩
  | sendFailed hcall => exact hfailed hcall rfl
  | arrive hw hopen hm =>
      exact ⟨fun _ => trivial, fun _ c htask _ => ⟨htask, rfl, .of_calls rfl⟩⟩
  | @receive id c' w m rest hcall hw hopen hinbox =>
      refine ⟨fun _ => trivial, fun _ c htask _ => ?_⟩
      obtain ⟨htask', hurl, hsent⟩ := keeps_handle (s := s) c id c' w rest m
      exact ⟨htask'.trans htask, hurl, hsent⟩
  | timeout hcall => exact hfailed hcall rfl
  | receiveFailed hcall => exact hfailed hcall rfl

/-! ## Runs -/

/-- What one step keeps, a stretch of steps keeps.  Induction on the events. -/
lemma keepsConnection_runFrom {c : ℕ} {es : List (PoolEvent R)} {s s' : BrowserWSPool R}
    (hkeeps : (browserWSPool R).AlongFrom KeepsConnection s es)
    (halone : (browserWSPool R).AlongFrom (fun s e _ => LeavesAlone c s e) s es)
    (hrun : (browserWSPool R).runFrom s es = some s') (htask : s.task = some c) :
    s'.task = some c ∧ s'.wsURL = s.wsURL ∧ SentOn c s s' := by
  induction es generalizing s with
  | nil =>
      obtain rfl := Option.some.inj hrun
      exact ⟨htask, rfl, .of_calls rfl⟩
  | cons e es ih =>
      obtain ⟨mid, hstep, hrest⟩ := Machine.runFrom_cons hrun
      obtain ⟨hkeep, hkeeps⟩ := (Machine.alongFrom_cons hstep).mp hkeeps
      obtain ⟨hleaves, halone⟩ := (Machine.alongFrom_cons hstep).mp halone
      obtain ⟨hmid, hurl, hsent⟩ := hkeep c htask hleaves
      obtain ⟨hend, hurl', hsent'⟩ := ih hkeeps halone hrest hmid
      exact ⟨hend, hurl'.trans hurl, hsent.trans hsent'⟩

/-- **The pool keeps its connection along exactly the runs in which a command fails only on the
current connection, or while there is none.**  In these runs all commands of a stretch in which
nobody asks for another URL and no command on the connection fails are sent on that connection. -/
theorem keepsConnection_iff (es : List (PoolEvent R)) :
    ((browserWSPool R).Along KeepsConnection es ↔ (browserWSPool R).Meets FailsOnCurrent es)
      ∧ ((browserWSPool R).Meets FailsOnCurrent es →
          ∀ es₁ es₂ s₁ s₂ c, es = es₁ ++ es₂ → (browserWSPool R).run es₁ = some s₁ →
            (browserWSPool R).runFrom s₁ es₂ = some s₂ → s₁.task = some c →
            (browserWSPool R).AlongFrom (fun s e _ => LeavesAlone c s e) s₁ es₂ →
            s₂.task = some c ∧ s₂.wsURL = s₁.wsURL ∧ SentOn c s₁ s₂) := by
  have hiff : (browserWSPool R).Along KeepsConnection es
      ↔ (browserWSPool R).Meets FailsOnCurrent es :=
    Machine.along_iff_meets (M := browserWSPool R) (I := fun _ => True) trivial
      (fun _ _ _ _ _ _ => trivial) (fun s e t _ => step_keepsConnection_iff (s := s) (e := e)) es
  refine ⟨hiff, ?_⟩
  rintro hmeets es₁ es₂ s₁ s₂ c rfl hrun₁ hrun₂ htask halone
  exact keepsConnection_runFrom (Machine.alongFrom_of_append (hiff.mpr hmeets) hrun₁) halone hrun₂
    htask

/-- Chrome has come back at another URL; the call that waited on the old connection drops the new
one. -/
theorem keepsConnection_lost :
    ∃ s s', (browserWSPool (List String)).run
          [.run "ws://127.0.0.1:9222/devtools/browser/a" true true, .sent 1,
            .run "ws://127.0.0.1:9222/devtools/browser/b" true true] = some s
      ∧ s.task = some 1 ∧ s.calls 1 = some ⟨0, .receiving⟩
      ∧ s.step (.receiveFailed 1) = some s' ∧ s'.task = none :=
  ⟨_, _, rfl, rfl, rfl, rfl, rfl⟩

end Luan
