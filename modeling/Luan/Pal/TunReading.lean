import Luan.Core.Machine

/-!
# Reading packets from the tunnel

The read loop of the tunnel build of `lua-apple/pal/pal_ios.m`.  `readPackets` answers later, a
failed read is tried again after a second, and the packets of a successful one are put as one batch
onto the engine's event queue.  Each of these goes on with `pal_tun_read_loop`, and so does
`pal_tun_start_reading`.

What the callback of a packet does is a matter of the engine: a batch begins and ends in steps of
their own, between which the engine may start and stop reading as at any other time.  Which
allocations succeed is part of an event.

* `inFlight_step` — whatever goes on by itself replaces what has ended.
* `one_in_flight_iff` — at most one request, batch or retry is under way in exactly the runs in
  which reading is started while nothing is (`StartsAlone`).
* `restart_reads_twice` — stopping does not end what is under way, so that a restart adds to it.
-/

namespace Luan

/-! ## The reader -/

/-- A packet from the tunnel. -/
structure TunPacket where
  bytes : List UInt8
  protocol : Int
  deriving DecidableEq, Repr

/-- `struct pal_read_batch_arg` -/
structure ReadBatch (Callback : Type) where
  packets : List TunPacket
  cb : Callback
  deriving DecidableEq, Repr

/-- The static variables of the read loop, and what is under way. -/
structure TunReader (Callback : Type) where
  /-- `s_packetFlow` is set. -/
  packetFlow : Bool
  /-- `s_read_callback` -/
  readCallback : Option Callback
  /-- `s_reading_active` -/
  readingActive : Bool
  /-- The requests that have not been answered, with the callback of their block. -/
  reads : List Callback
  /-- The batches that wait for the engine. -/
  batches : List (ReadBatch Callback)
  /-- The batches that the engine is at. -/
  running : List (ReadBatch Callback)
  /-- The retries that have not come due. -/
  retries : ℕ
  /-- The packets that callbacks were called with. -/
  delivered : List (Callback × TunPacket)
  deriving DecidableEq, Repr

/-- Which allocations of the completion handler succeed. -/
structure BatchMemory where
  arg : Bool
  /-- The three arrays of the batch. -/
  arrays : Bool
  /-- The copy of the packet at an index. -/
  packet : ℕ → Bool
  /-- `evuser_new` -/
  event : Bool

/-- What a completion handler is called with. -/
inductive ReadResult
  | failed
  | packets (packets : List TunPacket) (memory : BatchMemory)

namespace TunReader

variable {Callback : Type}

/-- `pal_tun_read_loop` -/
def palTunReadLoop (s : TunReader Callback) : TunReader Callback :=
  match s.readCallback with
  | none => s
  | some cb =>
      if !s.readingActive || !s.packetFlow then s
      else { s with reads := s.reads ++ [cb] }

/-- `pal_tun_start_reading` -/
def palTunStartReading (s : TunReader Callback) (cb : Option Callback) : TunReader Callback :=
  match cb with
  | none => s
  | some cb => { s with readCallback := some cb, readingActive := true }.palTunReadLoop

/-- `pal_tun_stop_reading` -/
def palTunStopReading (s : TunReader Callback) : TunReader Callback :=
  { s with readingActive := false, readCallback := none }

/-- The completion handler of a request. -/
def completionHandler (s : TunReader Callback) (cb : Callback) : ReadResult → TunReader Callback
  | .failed => { s with retries := s.retries + 1 }
  | .packets packets memory =>
      let validCount := packets.countP fun pkt => 0 < pkt.bytes.length
      if validCount = 0 then s.palTunReadLoop
      else if !memory.arg then s.palTunReadLoop
      else if !memory.arrays then s.palTunReadLoop
      else
        let copied := packets.zipIdx.filter fun pkt =>
          0 < pkt.1.bytes.length && memory.packet pkt.2
        if !memory.event then s.palTunReadLoop
        else { s with batches := s.batches ++ [⟨copied.map Prod.fst, cb⟩] }

/-- `pal_read_batch_cb`: the packets are handed over. -/
def beginBatch (s : TunReader Callback) (batch : ReadBatch Callback) : TunReader Callback :=
  { s with
    running := s.running ++ [batch]
    delivered := s.delivered ++ batch.packets.map fun pkt => (batch.cb, pkt) }

end TunReader

/-! ## Events -/

inductive TunEvent (Callback : Type)
  /-- `pal_ios_set_packet_flow`, with a flow or `nil`. -/
  | setPacketFlow (flow : Bool)
  | startReading (cb : Option Callback)
  | stopReading
  /-- A request is answered. -/
  | readCompleted (i : ℕ) (result : ReadResult)
  /-- The second after a failed read is over. -/
  | retryDue
  /-- The engine comes to a batch. -/
  | batchBegins (i : ℕ)
  /-- The batch has been processed. -/
  | batchEnds (i : ℕ)

namespace TunReader

variable {Callback : Type}

def step (s : TunReader Callback) : TunEvent Callback → Option (TunReader Callback)
  | .setPacketFlow flow => some { s with packetFlow := flow }
  | .startReading cb => some (s.palTunStartReading cb)
  | .stopReading => some s.palTunStopReading
  | .readCompleted i result =>
      match s.reads[i]? with
      | none => none
      | some cb => some ({ s with reads := s.reads.eraseIdx i }.completionHandler cb result)
  | .retryDue =>
      if s.retries = 0 then none
      else some { s with retries := s.retries - 1 }.palTunReadLoop
  | .batchBegins i =>
      match s.batches[i]? with
      | none => none
      | some batch => some ({ s with batches := s.batches.eraseIdx i }.beginBatch batch)
  | .batchEnds i =>
      match s.running[i]? with
      | none => none
      | some _ => some { s with running := s.running.eraseIdx i }.palTunReadLoop

/-- Before anything has been set. -/
def initial : TunReader Callback where
  packetFlow := false
  readCallback := none
  readingActive := false
  reads := []
  batches := []
  running := []
  retries := 0
  delivered := []

end TunReader

/-- The runs of the reader. -/
def tunMachine (Callback : Type) : Machine (TunReader Callback) (TunEvent Callback) where
  init := TunReader.initial
  step := TunReader.step

/-! ## What is under way -/

namespace TunReader

variable {Callback : Type} {s s' : TunReader Callback}

/-- The requests that have not been answered, the batches that have not been processed and the
retries that have not come due. -/
def inFlight (s : TunReader Callback) : ℕ :=
  s.reads.length + s.batches.length + s.running.length + s.retries

/-- **Reading is started while nothing is under way**, unless the call does nothing. -/
def StartsAlone (s : TunReader Callback) : TunEvent Callback → Prop
  | .startReading cb => cb ≠ none → s.packetFlow = true → s.inFlight = 0
  | _ => True

/-- The loop adds at most one request. -/
lemma inFlight_readLoop_le (s : TunReader Callback) :
    s.palTunReadLoop.inFlight ≤ s.inFlight + 1 := by
  simp only [palTunReadLoop]
  split
  · exact Nat.le_succ _
  · split_ifs
    · exact Nat.le_succ _
    · simp only [inFlight, List.length_append, List.length_singleton]
      omega

lemma inFlight_completionHandler_le (s : TunReader Callback) (cb : Callback)
    (result : ReadResult) : (s.completionHandler cb result).inFlight ≤ s.inFlight + 1 := by
  cases result with
  | failed =>
      simp only [completionHandler, inFlight]
      omega
  | packets packets memory =>
      simp only [completionHandler]
      split_ifs
      · exact inFlight_readLoop_le s
      · exact inFlight_readLoop_le s
      · exact inFlight_readLoop_le s
      · exact inFlight_readLoop_le s
      · simp only [inFlight, List.length_append, List.length_singleton]
        omega

/-- What `pal_tun_start_reading` adds. -/
lemma inFlight_startReading (s : TunReader Callback) (cb : Option Callback) :
    (s.palTunStartReading cb).inFlight
      = s.inFlight + if cb ≠ none ∧ s.packetFlow = true then 1 else 0 := by
  cases cb with
  | none => simp [palTunStartReading]
  | some cb =>
      cases hflow : s.packetFlow with
      | false => simp [palTunStartReading, palTunReadLoop, hflow, inFlight]
      | true =>
          simp only [palTunStartReading, palTunReadLoop, hflow, inFlight]
          simp
          omega

/-- An entry that is taken out of a list. -/
lemma length_eraseIdx_of_get? {α : Type} {l : List α} {i : ℕ} {a : α} (h : l[i]? = some a) :
    (l.eraseIdx i).length + 1 = l.length := by
  obtain ⟨hi, -⟩ := List.getElem?_eq_some_iff.mp h
  rw [List.length_eraseIdx_of_lt hi]
  omega

/-- **Whatever goes on by itself replaces what has ended.** -/
lemma inFlight_step {e : TunEvent Callback} (hstep : s.step e = some s')
    (he : ∀ cb, e ≠ .startReading cb) : s'.inFlight ≤ s.inFlight := by
  cases e with
  | setPacketFlow flow =>
      obtain rfl := Option.some.inj hstep
      exact Nat.le_refl _
  | startReading cb => exact absurd rfl (he cb)
  | stopReading =>
      obtain rfl := Option.some.inj hstep
      exact Nat.le_refl _
  | readCompleted i result =>
      simp only [step] at hstep
      cases hget : s.reads[i]? with
      | none => simp [hget] at hstep
      | some cb =>
          rw [hget] at hstep
          obtain rfl := Option.some.inj hstep
          have hlen := length_eraseIdx_of_get? hget
          refine Nat.le_trans (inFlight_completionHandler_le _ cb result) ?_
          simp only [inFlight]
          omega
  | retryDue =>
      simp only [step] at hstep
      split_ifs at hstep with hnone
      obtain rfl := Option.some.inj hstep
      refine Nat.le_trans (inFlight_readLoop_le _) ?_
      simp only [inFlight]
      omega
  | batchBegins i =>
      simp only [step] at hstep
      cases hget : s.batches[i]? with
      | none => simp [hget] at hstep
      | some batch =>
          rw [hget] at hstep
          obtain rfl := Option.some.inj hstep
          have hlen := length_eraseIdx_of_get? hget
          simp only [beginBatch, inFlight, List.length_append, List.length_singleton]
          omega
  | batchEnds i =>
      simp only [step] at hstep
      cases hget : s.running[i]? with
      | none => simp [hget] at hstep
      | some batch =>
          rw [hget] at hstep
          obtain rfl := Option.some.inj hstep
          have hlen := length_eraseIdx_of_get? hget
          refine Nat.le_trans (inFlight_readLoop_le _) ?_
          simp only [inFlight]
          omega

/-- As long as at most one thing is under way, it stays so in exactly the steps that do not start
reading beside it. -/
lemma inFlight_step_le_one_iff {e : TunEvent Callback} (hs : s.inFlight ≤ 1)
    (hstep : s.step e = some s') : s'.inFlight ≤ 1 ↔ s.StartsAlone e := by
  by_cases he : ∃ cb, e = .startReading cb
  · obtain ⟨cb, rfl⟩ := he
    obtain rfl := Option.some.inj hstep
    rw [inFlight_startReading, StartsAlone, ← and_imp]
    split_ifs with hloop
    · rw [forall_prop_of_true hloop]
      omega
    · exact iff_of_true (by omega) fun h => absurd h hloop
  · push Not at he
    refine iff_of_true (Nat.le_trans (inFlight_step hstep he) hs) ?_
    cases e with
    | startReading cb => exact absurd rfl (he cb)
    | _ => trivial

end TunReader

/-- **When at most one request, batch or retry is under way**: in the runs in which reading is only
started while nothing is. -/
theorem one_in_flight_iff {Callback : Type} (es : List (TunEvent Callback)) :
    (tunMachine Callback).Along (fun _ _ s' => s'.inFlight ≤ 1) es
      ↔ (tunMachine Callback).Meets TunReader.StartsAlone es :=
  Machine.along_iff_meets (Nat.zero_le 1)
    (fun _ _ _ hs hstep hC => (TunReader.inFlight_step_le_one_iff hs hstep).mpr hC)
    (fun _ _ _ hs hstep => TunReader.inFlight_step_le_one_iff hs hstep) es

/-- Reading is stopped and started again while a request has not been answered: now there are
two. -/
theorem restart_reads_twice :
    ∃ s, (tunMachine Unit).run
        [.setPacketFlow true, .startReading (some ()), .stopReading, .startReading (some ())]
          = some s
      ∧ s.reads = [(), ()] ∧ 1 < s.inFlight :=
  ⟨_, rfl, rfl, by decide⟩

end Luan
