import Luan.LuaRunner.Lifecycle

/-!
# Late responses

The healthcheck and the sampler of a start are cancelled when its child has ended.  A response that
they have obtained before is still on its way to the main actor then, and nobody there asks which
start it belongs to, or whether there is a service at all.

* `ResponsesCurrent` — a response of an earlier start changes nothing that is published, the
  service is found alive by its own healthcheck at its own address, and there are no metrics
  without a service.
* `responses_current_iff` — that is so in exactly the runs in which every response meets the state
  it was meant for (`LandsInTime`).
* `late_response_in_next_start` — the healthcheck of the first start reports the second one alive,
  at the first one's port; and the sampler leaves its numbers in a service that has failed.
-/

namespace Luan

open LuaRunner

/-! ## The contract -/

/-- The start whose response comes to the main actor. -/
def RunnerEvent.response : RunnerEvent → Option ℕ
  | .healthHop n => some n
  | .metricsHop n => some n
  | _ => none

/-- What the child of a start was told. -/
def LuaRunner.launches (s : LuaRunner) (n : ℕ) : Option Launch := (s.children n).map Child.launch

/-- There are no metrics. -/
def LuaRunner.NoMetrics (s : LuaRunner) : Prop :=
  s.cpuNow = none ∧ s.rssNowMB = none ∧ s.luaNowMB = none

/-- **Responses matter to their own start only.** -/
structure ResponsesCurrent (s : LuaRunner) (e : RunnerEvent) (s' : LuaRunner) : Prop where
  stale : ∀ n, e.response = some n → n ≠ s.starts → s'.toPublished = s.toPublished
  bound : s.state = .starting → s'.state = .running → e = .healthHop s.starts
    ∧ ∃ l, s.launches s.starts = some l ∧ s'.boundHost = pingHost l.host ∧ s'.boundPort = l.port
  sampled : s'.state = .idle ∨ (∃ message, s'.state = .failed message) → s'.NoMetrics

/-- The numbers of the report are the published ones, as far as it has any. -/
structure AddsNothing (s : LuaRunner) (object : StatusReport) : Prop where
  cpu : ∀ v, object.cpuPercent = some v → s.cpuNow = some v
  rss : ∀ v, object.rssBytes = some v → s.rssNowMB = some (v / (1024 * 1024))
  lua : ∀ v, object.luaMemoryKB = some v → 0 < v → s.luaNowMB = some (v / 1024)

/-- **A response reaches the main actor in time**: an answer to a healthcheck finds no other start
in the state `starting`, and an answer of the status API finds its own start with its service up,
or has nothing new to say. -/
def LandsInTime (s : LuaRunner) : RunnerEvent → Prop
  | .healthHop n => s.state = .starting → n = s.starts
  | .metricsHop n =>
      (n = s.starts ∧ s.canStart = false)
        ∨ ∀ cancelled object, s.samplers n = some ⟨cancelled, .answered (some object)⟩ →
          AddsNothing s object
  | _ => True

lemma canStart_iff {s : LuaRunner} :
    s.canStart = true ↔ s.state = .idle ∨ ∃ message, s.state = .failed message := by
  rw [canStart]
  cases s.state <;> simp

/-! ## What a report changes -/

/-- A report that adds nothing changes nothing, and the other way round. -/
lemma published_parseMetrics {s : LuaRunner} {object : StatusReport} :
    (s.parseMetrics (some object)).toPublished = s.toPublished ↔ AddsNothing s object := by
  constructor
  · intro h
    refine ⟨fun v hv => ?_, fun v hv => ?_, fun v hv hpos => ?_⟩
    · have hcpu := congrArg Published.cpuNow h
      simpa [parseMetrics, hv, eq_comm] using hcpu
    · have hrss := congrArg Published.rssNowMB h
      simpa [parseMetrics, hv, eq_comm] using hrss
    · have hlua := congrArg Published.luaNowMB h
      simpa [parseMetrics, hv, Option.filter, hpos, eq_comm] using hlua
  · intro h
    have hcpu : object.cpuPercent.or s.cpuNow = s.cpuNow := by
      cases hv : object.cpuPercent with
      | none => rfl
      | some v => exact (h.cpu v hv).symm
    have hrss : (object.rssBytes.map (· / (1024 * 1024))).or s.rssNowMB = s.rssNowMB := by
      cases hv : object.rssBytes with
      | none => rfl
      | some v => exact (h.rss v hv).symm
    have hlua : ((object.luaMemoryKB.filter (0 < ·)).map (· / 1024)).or s.luaNowMB
        = s.luaNowMB := by
      cases hv : object.luaMemoryKB with
      | none => rfl
      | some v =>
          by_cases hpos : 0 < v
          · rw [Option.filter_some_pos (by simpa using hpos)]
            exact (h.lua v hv hpos).symm
          · rw [Option.filter_some_neg (by simpa using hpos)]
            rfl
    rw [parseMetrics]
    dsimp only
    rw [hcpu, hrss, hlua]

/-- A report that leaves no metrics behind had nothing to say. -/
lemma AddsNothing.of_noMetrics {s : LuaRunner} {object : StatusReport} (hs : s.NoMetrics)
    (h : (s.parseMetrics (some object)).NoMetrics) : AddsNothing s object := by
  obtain ⟨hcpu, hrss, hlua⟩ := hs
  obtain ⟨hcpu', hrss', hlua'⟩ := h
  rw [← published_parseMetrics]
  rw [parseMetrics] at hcpu' hrss' hlua' ⊢
  dsimp only at hcpu' hrss' hlua' ⊢
  rw [hcpu'.trans hcpu.symm, hrss'.trans hrss.symm, hlua'.trans hlua.symm]

lemma LuaRunner.NoMetrics.congr {s s' : LuaRunner} (h : s'.toPublished = s.toPublished)
    (hs : s.NoMetrics) : s'.NoMetrics := by
  rw [NoMetrics, h]
  exact hs

/-! ## Addresses -/

/-- What a healthcheck asks. -/
def LuaRunner.addresses (s : LuaRunner) (n : ℕ) : Option (String × Int) :=
  (s.healthchecks n).map fun t => (t.pingHost, t.port)

/-- A healthcheck asks the child of its own start. -/
def LuaRunner.Consistent (s : LuaRunner) : Prop :=
  ∀ n a, s.addresses n = some a → ∃ l, s.launches n = some l ∧ a = (pingHost l.host, l.port)

/-- No step but `start` changes who was told what. -/
structure SameTables (s s' : LuaRunner) : Prop where
  launches : s'.launches = s.launches
  addresses : s'.addresses = s.addresses

lemma SameTables.refl (s : LuaRunner) : SameTables s s := ⟨rfl, rfl⟩

lemma SameTables.trans {s s' s'' : LuaRunner} (h : SameTables s s') (h' : SameTables s' s'') :
    SameTables s s'' :=
  ⟨h'.launches.trans h.launches, h'.addresses.trans h.addresses⟩

lemma LuaRunner.Consistent.congr {s s' : LuaRunner} (hs : s.Consistent) (h : SameTables s s') :
    s'.Consistent := by
  intro n a ha
  rw [h.addresses] at ha
  rw [h.launches]
  exact hs n a ha

/-- An entry of a table is replaced by one with the same projection. -/
lemma map_update {α β : Type} (g : α → β) (table : ℕ → Option α) (n : ℕ) {a : Option α}
    (h : a.map g = (table n).map g) :
    (fun m => (Function.update table n a m).map g) = fun m => (table m).map g := by
  funext m
  by_cases hm : m = n
  · subst hm
    rw [Function.update_self, h]
  · rw [Function.update_of_ne hm]

lemma sameTables_updateChild (s : LuaRunner) (n : ℕ) {f : Child → Child}
    (hf : ∀ c, (f c).launch = c.launch) : SameTables s (s.updateChild n f) := by
  refine ⟨map_update Child.launch s.children n ?_, rfl⟩
  rw [Option.map_map]
  exact congrArg (fun g => (s.children n).map g) (funext hf)

lemma sameTables_stopHealthcheck (s : LuaRunner) : SameTables s s.stopHealthcheck := by
  refine ⟨rfl, ?_⟩
  simp only [stopHealthcheck, cancelTask]
  cases s.healthcheckTask with
  | none => rfl
  | some n =>
      refine map_update _ s.healthchecks n ?_
      rw [Option.map_map]
      rfl

lemma sameTables_setHealthcheck {s : LuaRunner} {n : ℕ} {task : Healthcheck}
    (task' : Healthcheck) (h : s.healthchecks n = some task)
    (haddress : task'.pingHost = task.pingHost)
    (hport : task'.port = task.port) : SameTables s (s.setHealthcheck n task') := by
  refine ⟨rfl, map_update _ s.healthchecks n ?_⟩
  rw [h, Option.map_some, Option.map_some, haddress, hport]

/-! ## Starts -/

lemma startHealthcheck_frame (P : Platform) (s : LuaRunner) (host : String) (port : Int) :
    (s.startHealthcheck P host port).state = s.state
      ∧ (s.startHealthcheck P host port).launches = s.launches
      ∧ ((s.startHealthcheck P host port).addresses = s.addresses
        ∨ (s.startHealthcheck P host port).addresses
          = Function.update s.addresses s.starts (some (pingHost host, port))) := by
  rw [startHealthcheck]
  have hstop := (sameTables_stopHealthcheck s).addresses
  split_ifs
  · refine ⟨rfl, rfl, .inr ?_⟩
    rw [← hstop]
    exact Function.comp_update (Option.map fun t : Healthcheck => (t.pingHost, t.port)) _ _ _
  · exact ⟨rfl, rfl, .inl hstop⟩

lemma startMetricsSampling_frame (P : Platform) (s : LuaRunner) (host : String) (port : Int)
    (token : String) :
    (s.startMetricsSampling P host port token).state = s.state
      ∧ (s.startMetricsSampling P host port token).NoMetrics
      ∧ SameTables s (s.startMetricsSampling P host port token) := by
  rw [startMetricsSampling]
  split_ifs <;> exact ⟨rfl, ⟨rfl, rfl, rfl⟩, rfl, rfl⟩

/-- After a call of `start` the service does not run yet, and there are no metrics. -/
lemma start_state {P : Platform} {s s' : LuaRunner} {documentRoot : String}
    {env : String → Option String} {o : StartOutcome} (h : s.start P documentRoot env o = s') :
    s' = s ∨ s'.state ≠ .running ∧ s'.NoMetrics := by
  rcases start_cases P s documentRoot env o rfl rfl h with
    rfl | ⟨-, ⟨message, rfl⟩ | ⟨message, rfl⟩ | ⟨s₂, token, hs₂, rfl⟩⟩
  · exact .inl rfl
  · exact .inr ⟨ServiceState.noConfusion, rfl, rfl, rfl⟩
  · exact .inr ⟨ServiceState.noConfusion, rfl, rfl, rfl⟩
  · obtain ⟨hstate, hmetrics, -⟩ := startMetricsSampling_frame P (s₂.startHealthcheck P
      (launch P documentRoot env).host (launch P documentRoot env).port) _ _ token
    refine .inr ⟨?_, hmetrics⟩
    rw [hstate, (startHealthcheck_frame P s₂ _ _).1, hs₂]
    exact ServiceState.noConfusion

/-- The child of a start has a number of its own. -/
lemma launches_fresh {s : LuaRunner} (hlife : s.lifecycle.Inv) :
    s.launches (s.starts + 1) = none := by
  rw [launches, Option.map_eq_none_iff, Option.eq_none_iff_forall_ne_some]
  intro c hc
  exact absurd (hlife.spawned_le _ c hc) (Nat.not_succ_le_self _)

/-- A child and perhaps its healthcheck are added. -/
lemma LuaRunner.Consistent.register {s s' : LuaRunner} (hs : s.Consistent) {n : ℕ}
    (hfresh : s.launches n = none) {l : Launch}
    (hlaunches : s'.launches = Function.update s.launches n (some l))
    (haddresses : s'.addresses = s.addresses
      ∨ s'.addresses = Function.update s.addresses n (some (pingHost l.host, l.port))) :
    s'.Consistent := by
  intro m a ha
  rw [hlaunches]
  by_cases hm : m = n
  · subst hm
    refine ⟨l, Function.update_self _ _ _, ?_⟩
    rcases haddresses with heq | heq
    · -- there is no healthcheck without a child
      rw [heq] at ha
      obtain ⟨l', hl', -⟩ := hs m a ha
      rw [hfresh] at hl'
      cases hl'
    · rw [heq, Function.update_self] at ha
      exact (Option.some.inj ha).symm
  · rw [Function.update_of_ne hm]
    rcases haddresses with heq | heq
    · exact hs m a (heq ▸ ha)
    · rw [heq, Function.update_of_ne hm] at ha
      exact hs m a ha

lemma LuaRunner.Consistent.start {P : Platform} {s s' : LuaRunner} (hs : s.Consistent)
    (hlife : s.lifecycle.Inv) {documentRoot : String} {env : String → Option String}
    {o : StartOutcome} (h : s.start P documentRoot env o = s') : s'.Consistent := by
  rcases start_cases P s documentRoot env o rfl rfl h with
    rfl | ⟨-, ⟨message, rfl⟩ | ⟨message, rfl⟩ | ⟨s₂, token, hs₂, rfl⟩⟩
  · exact hs
  · exact hs
  · exact hs
  · refine Consistent.congr ?_ (startMetricsSampling_frame P _ _ _ token).2.2
    obtain ⟨-, hlaunches, haddresses⟩ := startHealthcheck_frame P s₂
      (launch P documentRoot env).host (launch P documentRoot env).port
    refine hs.register (launches_fresh hlife) (l := launch P documentRoot env) ?_ ?_
    · rw [hlaunches, hs₂]
      exact Function.comp_update (Option.map Child.launch) _ _ _
    · rw [hs₂] at haddresses ⊢
      exact haddresses

/-! ## What a step can do -/

/-- **What a step can do** to the published variables and the tables. -/
inductive Effect (P : Platform) (s : LuaRunner) : RunnerEvent → LuaRunner → Prop
  /-- nothing is published -/
  | quiet {e : RunnerEvent} {s' : LuaRunner} (hpublished : s'.toPublished = s.toPublished)
      (htables : SameTables s s') (hhealth : ∀ n, e = .healthHop n → s.state ≠ .starting)
      (hmetrics : ∀ n, e ≠ .metricsHop n) : Effect P s e s'
  | start {documentRoot : String} {env : String → Option String} {o : StartOutcome}
      {s' : LuaRunner} (hstart : s.start P documentRoot env o = s') :
      Effect P s (.start documentRoot env o) s'
  /-- the child is asked to stop, or has ended -/
  | halt {e : RunnerEvent} {s' : LuaRunner} (hresponse : e.response = none)
      (hstate : s'.state ≠ .running) (hmetrics : s'.state ≠ .stopping → s'.NoMetrics)
      (htables : SameTables s s') : Effect P s e s'
  /-- the service is found alive -/
  | alive {n : ℕ} {s' : LuaRunner} {address : String × Int} (hstarting : s.state = .starting)
      (haddress : s.addresses n = some address) (hstate : s'.state = .running)
      (hhost : s'.boundHost = address.1) (hport : s'.boundPort = address.2)
      (htables : SameTables s s') : Effect P s (.healthHop n) s'
  | sample {n : ℕ} {s' : LuaRunner} {cancelled : Bool} {object : Option StatusReport}
      (hsampler : s.samplers n = some ⟨cancelled, .answered object⟩)
      (hs' : s' = (s.setSampler n ⟨cancelled, .waiting⟩).parseMetrics object) :
      Effect P s (.metricsHop n) s'

/-- An event without a response that publishes nothing. -/
lemma Effect.silent {P : Platform} {s s' : LuaRunner} {e : RunnerEvent}
    (hresponse : e.response = none) (hpublished : s'.toPublished = s.toPublished)
    (htables : SameTables s s') : Effect P s e s' := by
  refine .quiet hpublished htables (fun n hn => ?_) (fun n hn => ?_)
  · rw [hn] at hresponse
    cases hresponse
  · rw [hn] at hresponse
    cases hresponse

lemma sameTables_halt (s : LuaRunner) (n : ℕ) :
    SameTables s ({ s with state := .stopping }.stopHealthcheck.closeParentPipe.terminate n) :=
  ⟨(sameTables_updateChild s n (f := fun c => { c with terminated := true }) fun _ => rfl).launches,
    (sameTables_stopHealthcheck s).addresses⟩

lemma stop_effect (P : Platform) (s : LuaRunner) : Effect P s .stop s.stop := by
  simp only [stop]
  split
  · rename_i child _ _
    have htables := sameTables_halt s child
    exact .halt rfl ServiceState.noConfusion (fun h => absurd rfl h)
      ⟨htables.launches, htables.addresses⟩
  · exact .silent rfl rfl (.refl s)

lemma terminateForAppExit_effect (P : Platform) (s : LuaRunner) (exit : Option Int) :
    Effect P s (.terminateForAppExit exit) (s.terminateForAppExit exit) := by
  simp only [terminateForAppExit]
  split
  · rename_i child _
    split_ifs
    · have htables := sameTables_halt s child
      cases exit with
      | some status =>
          have hend := htables.trans (sameTables_updateChild _ child
            (f := fun c => { c with status := some status }) fun _ => rfl)
          exact .halt rfl ServiceState.noConfusion (fun h => absurd rfl h)
            ⟨hend.launches, hend.addresses⟩
      | none =>
          have hend := htables.trans (sameTables_updateChild _ child
            (f := fun c => { c with killed := true }) fun _ => rfl)
          exact .halt rfl ServiceState.noConfusion (fun h => absurd rfl h)
            ⟨hend.launches, hend.addresses⟩
    · exact .silent rfl rfl (.refl s)
  · exact .silent rfl rfl (.refl s)

lemma childDidTerminate_effect (P : Platform) (s : LuaRunner) (n : ℕ) (status : Int) :
    Effect P s (.childDidTerminate n)
      ((s.updateChild n fun c => { c with handled := true }).childDidTerminate P status) := by
  have hsettled := settle_isActive P s.state status (startupMessage P.unicode s.startupDiag)
  have htables := (sameTables_updateChild s n (f := fun c => { c with handled := true })
    fun _ => rfl).trans (sameTables_stopHealthcheck _)
  refine .halt rfl (fun h => ?_) (fun _ => ⟨rfl, rfl, rfl⟩) ⟨htables.launches, htables.addresses⟩
  have hrunning := congrArg ServiceState.isActive h
  rw [childDidTerminate] at hrunning
  exact Bool.noConfusion (hsettled.symm.trans hrunning)

/-- **Every step has its effect.** -/
theorem step_effect {P : Platform} {s s' : LuaRunner} {e : RunnerEvent}
    (h : s.step P e = some s') : Effect P s e s' := by
  cases step_reaction h with
  | start => exact .start rfl
  | stop => exact stop_effect P s
  | terminateForAppExit => exact terminateForAppExit_effect P s _
  | @output chunk clock =>
      obtain ⟨diag, deadline, hframe⟩ := consumeChildOutput_frame P.unicode s chunk clock
      rw [hframe]
      exact .silent rfl rfl ⟨rfl, rfl⟩
  | @childExited n => exact .silent rfl rfl (sameTables_updateChild s n fun _ => rfl)
  | childDidTerminate => exact childDidTerminate_effect P s _ _
  | healthReply htask => exact .silent rfl rfl (sameTables_setHealthcheck _ htask rfl rfl)
  | @healthHop n pingHost port cancelled htask =>
      have htables := sameTables_setHealthcheck ⟨pingHost, port, cancelled, .returned⟩ htask
        rfl rfl
      simp only [healthHop]
      split
      case h_1 hstarting =>
          have haddress : s.addresses n = some (pingHost, port) := by
            rw [addresses, htask]
            rfl
          exact .alive hstarting haddress rfl rfl rfl ⟨htables.launches, htables.addresses⟩
      case h_2 hstarting =>
          exact .quiet rfl htables (fun _ _ => hstarting) (fun _ h => by cases h)
  | metricsReply => exact .silent rfl rfl ⟨rfl, rfl⟩
  | metricsHop hsampler => exact .sample hsampler rfl
  | @stopTimeout n task =>
      simp only [stopTimedOut]
      split_ifs
      · have htables := sameTables_updateChild s task.child
          (f := fun c => { c with killed := true }) fun _ => rfl
        exact .silent rfl rfl ⟨htables.launches, htables.addresses⟩
      · exact .silent rfl rfl ⟨rfl, rfl⟩

/-! ## Runs -/

/-- What holds as long as responses land in time. -/
structure ResponseInv (s : LuaRunner) : Prop where
  lifecycle : s.lifecycle.Inv
  consistent : s.Consistent
  sampled : s.canStart = true → s.NoMetrics

/-- A report at the wrong time changes nothing. -/
lemma LandsInTime.sample {s : LuaRunner} {n : ℕ} {cancelled : Bool} {object : Option StatusReport}
    (hlands : LandsInTime s (.metricsHop n))
    (hsampler : s.samplers n = some ⟨cancelled, .answered object⟩) :
    (n = s.starts ∧ s.canStart = false) ∨ ((s.setSampler n ⟨cancelled, .waiting⟩).parseMetrics
      object).toPublished = s.toPublished := by
  rcases hlands with hown | hnothing
  · exact .inl hown
  · right
    cases object with
    | none => rfl
    | some object =>
        have hadds := hnothing cancelled object hsampler
        exact published_parseMetrics (s := s.setSampler n ⟨cancelled, .waiting⟩) |>.mpr
          ⟨hadds.cpu, hadds.rss, hadds.lua⟩

lemma canStart_congr {s s' : LuaRunner} (h : s'.state = s.state) : s'.canStart = s.canStart := by
  rw [canStart, canStart, h]

/-- **Responses that land in time keep the invariant.** -/
lemma ResponseInv.step {P : Platform} {s s' : LuaRunner} {e : RunnerEvent} (hs : ResponseInv s)
    (h : s.step P e = some s') (hlands : LandsInTime s e) : ResponseInv s' := by
  have hlife := hs.lifecycle.moves (step_moves h)
  cases step_effect h with
  | quiet hpublished htables _ _ =>
      refine ⟨hlife, hs.consistent.congr htables, fun hcan => ?_⟩
      have hstate := congrArg Published.state hpublished
      exact NoMetrics.congr hpublished (hs.sampled (canStart_congr hstate ▸ hcan))
  | start hstart =>
      refine ⟨hlife, hs.consistent.start hs.lifecycle hstart, fun hcan => ?_⟩
      rcases start_state hstart with rfl | ⟨-, hmetrics⟩
      · exact hs.sampled hcan
      · exact hmetrics
  | halt _ _ hmetrics htables =>
      refine ⟨hlife, hs.consistent.congr htables, fun hcan => hmetrics fun hstopping => ?_⟩
      rw [canStart, hstopping] at hcan
      cases hcan
  | alive _ _ hstate _ _ htables =>
      refine ⟨hlife, hs.consistent.congr htables, fun hcan => ?_⟩
      rw [canStart, hstate] at hcan
      cases hcan
  | @sample n _ cancelled object hsampler hs' =>
      have htables : SameTables s s' := by
        rw [hs']
        cases object <;> exact ⟨rfl, rfl⟩
      refine ⟨hlife, hs.consistent.congr htables, fun hcan => ?_⟩
      have hstate : s'.state = s.state := by
        rw [hs']
        cases object <;> rfl
      rw [canStart_congr hstate] at hcan
      rcases hlands.sample hsampler with ⟨-, hdown⟩ | hsame
      · rw [hdown] at hcan
        cases hcan
      · exact NoMetrics.congr (hs' ▸ hsame) (hs.sampled hcan)

/-- A response in time is current. -/
lemma ResponseInv.current {P : Platform} {s s' : LuaRunner} {e : RunnerEvent}
    (hs : ResponseInv s) (h : s.step P e = some s') (hlands : LandsInTime s e) :
    ResponsesCurrent s e s' := by
  have hinv := hs.step h hlands
  refine ⟨fun n hn hstale => ?_, fun hstarting hrunning => ?_, fun hdown => ?_⟩
  · cases step_effect h with
    | quiet hpublished _ _ _ => exact hpublished
    | start _ => cases hn
    | halt hresponse _ _ _ =>
        rw [hresponse] at hn
        cases hn
    | alive hstarting _ _ _ _ _ =>
        obtain rfl := Option.some.inj hn
        exact absurd (hlands hstarting) hstale
    | sample hsampler hs' =>
        obtain rfl := Option.some.inj hn
        rcases hlands.sample hsampler with ⟨hown, -⟩ | hsame
        · exact absurd hown hstale
        · exact hs' ▸ hsame
  · cases step_effect h with
    | quiet hpublished _ _ _ =>
        have hstate := congrArg Published.state hpublished
        rw [hstarting, hrunning] at hstate
        cases hstate
    | start hstart =>
        rcases start_state hstart with rfl | ⟨hstate, -⟩
        · rw [hstarting] at hrunning
          cases hrunning
        · exact absurd hrunning hstate
    | halt _ hstate _ _ => exact absurd hrunning hstate
    | alive _ haddress _ hhost hport _ =>
        obtain rfl := hlands hstarting
        obtain ⟨l, hl, rfl⟩ := hs.consistent _ _ haddress
        exact ⟨rfl, l, hl, hhost, hport⟩
    | @sample _ _ _ object _ hs' =>
        have hstate : s'.state = s.state := by
          rw [hs']
          cases object <;> rfl
        rw [hstarting, hrunning] at hstate
        cases hstate
  · exact hinv.sampled (canStart_iff.mpr hdown)

/-- A response that is not in time shows. -/
lemma ResponseInv.lands_of_current {P : Platform} {s s' : LuaRunner} {e : RunnerEvent}
    (hs : ResponseInv s) (h : s.step P e = some s') (hcurrent : ResponsesCurrent s e s') :
    LandsInTime s e := by
  cases step_effect h with
  | @quiet e _ _ _ hhealth hmetrics =>
      cases e with
      | healthHop n => exact fun hstarting => absurd hstarting (hhealth n rfl)
      | metricsHop n => exact absurd rfl (hmetrics n)
      | _ => trivial
  | start _ => trivial
  | @halt e _ hresponse _ _ _ =>
      cases e with
      | healthHop n => cases hresponse
      | metricsHop n => cases hresponse
      | _ => trivial
  | alive hstarting _ hstate _ _ _ =>
      intro _
      by_contra hstale
      have hsame := congrArg Published.state (hcurrent.stale _ rfl hstale)
      rw [hstarting, hstate] at hsame
      cases hsame
  | @sample n _ cancelled object hsampler hs' =>
      by_cases hown : n = s.starts ∧ s.canStart = false
      · exact .inl hown
      · right
        intro cancelled' report hreport
        obtain ⟨rfl, rfl⟩ : cancelled = cancelled' ∧ object = some report := by
          simpa using hsampler.symm.trans hreport
        suffices hadds : AddsNothing (s.setSampler n ⟨cancelled, .waiting⟩) report from
          ⟨hadds.cpu, hadds.rss, hadds.lua⟩
        by_cases hn : n = s.starts
        · have hcan : s.canStart = true := by simpa [hn] using hown
          refine .of_noMetrics (hs.sampled hcan) (hs' ▸ hcurrent.sampled ?_)
          rw [hs']
          exact canStart_iff.mp hcan
        · exact published_parseMetrics.mp (hs' ▸ hcurrent.stale n rfl hn)

lemma responseInv_init (P : Platform) : ResponseInv (luaRunner P).init where
  lifecycle := lifecycle_init P
  consistent n a ha := by cases ha
  sampled _ := ⟨rfl, rfl, rfl⟩

/-- **When responses matter to their own start only**: in exactly the runs in which each of them
lands in time. -/
theorem responses_current_iff (P : Platform) (es : List RunnerEvent) :
    (luaRunner P).Along ResponsesCurrent es ↔ (luaRunner P).Meets LandsInTime es :=
  Machine.along_iff_meets (I := ResponseInv) (responseInv_init P)
    (fun _ _ _ hs h hlands => hs.step h hlands)
    (fun _ _ _ hs h => ⟨hs.lands_of_current h, hs.current h⟩) es

/-- The first child crashes after it has answered, and a service is started on another port before
its answer reaches the main actor. -/
def lateHealth : List RunnerEvent :=
  [launchAt "8080", .healthReply 1, .childExited 1 1, .childDidTerminate 1, launchAt "9090"]

/-- A child crashes after it has reported its resource use. -/
def lateMetrics : List RunnerEvent :=
  [launchAt "8080", .metricsReply 1 (some ⟨some 5, none, none⟩), .childExited 1 1,
    .childDidTerminate 1, .metricsHop 1]

/-- The second service counts as running at the first one's port, and the failed one has a
processor load. -/
theorem late_response_in_next_start :
    (∃ s l, (luaRunner .plain).run (lateHealth ++ [.healthHop 1]) = some s ∧ s.state = .running
        ∧ s.boundPort = 8080 ∧ s.launches s.starts = some l ∧ l.port = 9090)
      ∧ ¬ (luaRunner .plain).Along ResponsesCurrent (lateHealth ++ [.healthHop 1])
      ∧ ∃ s message, (luaRunner .plain).run lateMetrics = some s ∧ s.state = .failed message
        ∧ s.cpuNow = some 5 := by
  refine ⟨⟨_, _, rfl, rfl, by decide, rfl, by decide⟩, fun halong => ?_, ⟨_, _, rfl, rfl, rfl⟩⟩
  have hstale := (Machine.along_concat halong rfl rfl).stale 1 rfl (by decide)
  have hstate := congrArg Published.state hstale
  cases hstate

end Luan
