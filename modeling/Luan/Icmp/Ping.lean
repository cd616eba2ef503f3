import Luan.Core.Machine
import Luan.Icmp.Reply

/-!
# One ping

A call of `lua_send_icmp_ping` of `lua-apple/icmp_sender.m`, with `send_icmp_packet_cfsocket`, the
socket callback and the block that runs after ten seconds.  The callback runs on the run loop of the
thread that called `send_ping`, the block on the main thread.  On two threads they can overlap, so
each is cut behind its test of `use_coroutine`, behind the clear that follows the test, behind
`fan_coro_wake`, and behind `_ref_ = LUA_NOREF`; what the callback reads of the context in front of
its test belongs to the test.  On one thread neither runs inside the other.

`fan_coro_wake` resumes the coroutine and releases the reference it is given.

* `Ping.Safe` — the coroutine is resumed once, its reference is released once, and the context is
  not used after `free`.
* `icmpPing_safe_iff` — in which runs that is so; on the main thread it is so in all of them.
-/

namespace Luan

/-- What has become of the call. -/
inductive PingStage
  | notCalled
  /-- returned before the coroutine was pinned -/
  | refused
  /-- returned because nothing was sent -/
  | notSent
  /-- yielded -/
  | parked
  deriving DecidableEq, Repr

/-- Where the socket callback is. -/
inductive PingCallback
  | idle
  /-- behind its test of `use_coroutine`, which was set -/
  | tested (reply : EchoReply)
  /-- behind `use_coroutine = 0` -/
  | cleared (reply : EchoReply)
  /-- behind `fan_coro_wake` -/
  | woken
  deriving DecidableEq, Repr

/-- Where the block of `dispatch_after` is. -/
inductive PingTimer
  | waiting
  /-- behind its test of `use_coroutine`, which was set -/
  | tested
  /-- behind `use_coroutine = 0` -/
  | cleared
  /-- behind `fan_coro_wake` -/
  | woken
  /-- in front of `CFRunLoopRemoveSource` -/
  | releasing
  | finished
  deriving DecidableEq, Repr

/-- Between the test and `fan_coro_wake`. -/
def PingCallback.beforeWake : PingCallback → Bool
  | .tested _ | .cleared _ => true
  | .idle | .woken => false

/-- Between the clear and the end. -/
def PingCallback.behindClear : PingCallback → Bool
  | .cleared _ | .woken => true
  | .idle | .tested _ => false

/-- Between the test and `fan_coro_wake`. -/
def PingTimer.beforeWake : PingTimer → Bool
  | .tested | .cleared => true
  | _ => false

/-- The `icmp_context` and what hangs on it. -/
structure Ping where
  stage : PingStage
  ctx : IcmpContext
  /-- `_ref_` is the reference and not `LUA_NOREF`. -/
  ref : Bool
  freed : Bool
  /-- The socket is valid and its source is on the run loop of the thread. -/
  attached : Bool
  callback : PingCallback
  timer : PingTimer
  /-- What the coroutine has been resumed with: a reply, or the timeout. -/
  resumed : List (Option EchoReply)
  /-- How often the reference has been released. -/
  released : ℕ
  /-- The context was used after `free`. -/
  usedFreed : Bool

inductive PingEvent
  /-- `send_ping`; `sent` says that `send_icmp_packet_cfsocket` returns 0 -/
  | sendPing (identifier sequence ttl : ℤ) (sent : Bool)
  /-- the callback, up to its test -/
  | datagram (datagram : Datagram)
  | callbackClear
  | callbackWake
  | callbackDropRef
  /-- the block, up to its test -/
  | timer
  | timerClear
  | timerWake
  | timerDropRef
  | timerFree

/-- The callback gets as far as reading `ctx->identifier`. -/
def isEchoReplyPacket (packet : List UInt8) : Bool :=
  match icmpHeaderOffsetInIpv4Packet packet with
  | .done icmpOffset => decide (0 < icmpOffset) && packet.getD icmpOffset 0 == 0
  | _ => false

/-- A packet that passes all tests gets as far as that. -/
lemma isEchoReplyPacket_of_answersAt {ctx : IcmpContext} {packet : List UInt8} {icmpOffset : ℕ}
    (h : AnswersAt ctx packet icmpOffset) : isEchoReplyPacket packet = true := by
  rcases icmpHeaderOffset_cases packet with ⟨i, hheader, hoffset⟩ | ⟨hno, -⟩
  · obtain rfl := h.toHeaderAt.unique hheader
    rw [isEchoReplyPacket, hoffset]
    dsimp only
    rw [h.type, decide_eq_true h.positive]
    rfl
  · exact absurd ⟨icmpOffset, h.toHeaderAt⟩ hno

namespace Ping

def initial : Ping where
  stage := .notCalled
  ctx := ⟨0, 0, false, false⟩
  ref := false
  freed := false
  attached := false
  callback := .idle
  timer := .waiting
  resumed := []
  released := 0
  usedFreed := false

/-! ## The pieces -/

def sendPing (s : Ping) (identifier sequence ttl : ℤ) (sent : Bool) : Ping :=
  if ttl < 1 ∨ ttl > 255 then { s with stage := .refused }
  else if sent then
    { s with
      stage := .parked
      ctx := ⟨UInt16.ofInt identifier, UInt16.ofInt sequence, true, true⟩
      ref := true
      attached := true }
  -- the reference is taken and released, the context freed, the socket invalidated
  else { s with stage := .notSent, released := s.released + 1, freed := true }

/-- `use_coroutine = 0` -/
def clear (s : Ping) : Ping := { s with ctx := { s.ctx with useCoroutine := false } }

/-- `fan_coro_wake(.., ctx->_ref_, 3)` -/
def wake (s : Ping) (answer : Option EchoReply) : Ping :=
  { s with
    resumed := s.resumed ++ [answer]
    released := s.released + s.ref.toNat }

/-- `_ref_ = LUA_NOREF` -/
def dropRef (s : Ping) : Ping := { s with ref := false }

def onDatagram (s : Ping) (order : HostOrder) (datagram : Datagram) : Ping :=
  if isEchoReplyPacket datagram.bytes && s.freed then { s with usedFreed := true }
  else
    match icmpSocketCallback order s.ctx datagram with
    | .done (_, some reply) => { s with callback := .tested reply }
    | _ => s

/-- The callback goes on, and uses the context. -/
def inCallback (s next : Ping) : Ping :=
  if s.freed then { s with callback := .idle, usedFreed := true } else next

def timerBegin (s : Ping) : Ping :=
  { s with timer := if s.ctx.co && s.ctx.useCoroutine then .tested else .releasing }

/-- The source is removed from the main run loop, and the context is freed. -/
def timerFree (s : Ping) (onMain : Bool) : Ping :=
  { s with attached := s.attached && !onMain, freed := true, timer := .finished }

/-- The block is running. -/
def inBlock (s : Ping) : Bool := decide (s.timer ≠ .waiting ∧ s.timer ≠ .finished)

/-- `onMain`: `send_ping` was called on the main thread. -/
def step (order : HostOrder) (onMain : Bool) (s : Ping) : PingEvent → Option Ping
  | .sendPing identifier sequence ttl sent =>
      if s.stage = .notCalled then some (s.sendPing identifier sequence ttl sent) else none
  | .datagram datagram =>
      if s.attached ∧ s.callback = .idle ∧ ¬ (onMain ∧ s.inBlock) then
        some (s.onDatagram order datagram)
      else none
  | .callbackClear =>
      match s.callback with
      | .tested reply => some (s.inCallback { s.clear with callback := .cleared reply })
      | _ => none
  | .callbackWake =>
      match s.callback with
      | .cleared reply => some (s.inCallback { s.wake (some reply) with callback := .woken })
      | _ => none
  | .callbackDropRef =>
      if s.callback = .woken then some (s.inCallback { s.dropRef with callback := .idle })
      else none
  | .timer =>
      if s.stage = .parked ∧ s.timer = .waiting ∧ ¬ (onMain ∧ s.callback ≠ .idle) then
        some s.timerBegin
      else none
  | .timerClear => if s.timer = .tested then some { s.clear with timer := .cleared } else none
  | .timerWake => if s.timer = .cleared then some { s.wake none with timer := .woken } else none
  | .timerDropRef =>
      if s.timer = .woken then some { s.dropRef with timer := .releasing } else none
  | .timerFree => if s.timer = .releasing then some (s.timerFree onMain) else none

/-- What each event leads to, and what it needs to happen. -/
inductive Reaction (order : HostOrder) (onMain : Bool) (s : Ping) : PingEvent → Ping → Prop
  | sendPing {identifier sequence ttl : ℤ} {sent : Bool} (hstage : s.stage = .notCalled) :
      Reaction order onMain s (.sendPing identifier sequence ttl sent)
        (s.sendPing identifier sequence ttl sent)
  | datagram {datagram : Datagram} (hattached : s.attached = true) (hidle : s.callback = .idle)
      (hthread : onMain = true → s.inBlock = false) :
      Reaction order onMain s (.datagram datagram) (s.onDatagram order datagram)
  | callbackClear {reply : EchoReply} (hcallback : s.callback = .tested reply) :
      Reaction order onMain s .callbackClear
        (s.inCallback { s.clear with callback := .cleared reply })
  | callbackWake {reply : EchoReply} (hcallback : s.callback = .cleared reply) :
      Reaction order onMain s .callbackWake
        (s.inCallback { s.wake (some reply) with callback := .woken })
  | callbackDropRef (hcallback : s.callback = .woken) :
      Reaction order onMain s .callbackDropRef (s.inCallback { s.dropRef with callback := .idle })
  | timer (hstage : s.stage = .parked) (htimer : s.timer = .waiting)
      (hthread : onMain = true → s.callback = .idle) : Reaction order onMain s .timer s.timerBegin
  | timerClear (htimer : s.timer = .tested) :
      Reaction order onMain s .timerClear { s.clear with timer := .cleared }
  | timerWake (htimer : s.timer = .cleared) :
      Reaction order onMain s .timerWake { s.wake none with timer := .woken }
  | timerDropRef (htimer : s.timer = .woken) :
      Reaction order onMain s .timerDropRef { s.dropRef with timer := .releasing }
  | timerFree (htimer : s.timer = .releasing) :
      Reaction order onMain s .timerFree (s.timerFree onMain)

/-- **Every step is one of these reactions.** -/
lemma step_reaction {order : HostOrder} {onMain : Bool} {s s' : Ping} {e : PingEvent}
    (h : s.step order onMain e = some s') : Reaction order onMain s e s' := by
  cases e with
  | sendPing identifier sequence ttl sent =>
      simp only [step] at h
      split_ifs at h with hstage
      exact Option.some.inj h ▸ .sendPing hstage
  | datagram datagram =>
      simp only [step] at h
      split_ifs at h with hruns
      exact Option.some.inj h ▸ .datagram hruns.1 hruns.2.1 (by simpa using hruns.2.2)
  | callbackClear =>
      simp only [step] at h
      split at h
      case h_1 hcallback => exact Option.some.inj h ▸ .callbackClear hcallback
      case h_2 => cases h
  | callbackWake =>
      simp only [step] at h
      split at h
      case h_1 hcallback => exact Option.some.inj h ▸ .callbackWake hcallback
      case h_2 => cases h
  | callbackDropRef =>
      simp only [step] at h
      split_ifs at h with hcallback
      exact Option.some.inj h ▸ .callbackDropRef hcallback
  | timer =>
      simp only [step] at h
      split_ifs at h with hruns
      exact Option.some.inj h ▸ .timer hruns.1 hruns.2.1 (by simpa using hruns.2.2)
  | timerClear =>
      simp only [step] at h
      split_ifs at h with htimer
      exact Option.some.inj h ▸ .timerClear htimer
  | timerWake =>
      simp only [step] at h
      split_ifs at h with htimer
      exact Option.some.inj h ▸ .timerWake htimer
  | timerDropRef =>
      simp only [step] at h
      split_ifs at h with htimer
      exact Option.some.inj h ▸ .timerDropRef htimer
  | timerFree =>
      simp only [step] at h
      split_ifs at h with htimer
      exact Option.some.inj h ▸ .timerFree htimer

end Ping

/-- A ping that the thread `caller` sends. -/
def icmpPing {T : Type*} [DecidableEq T] (order : HostOrder) (main caller : T) :
    Machine Ping PingEvent where
  init := .initial
  step := Ping.step order (decide (caller = main))

/-! ## What should be so -/

namespace Ping

/-- **The coroutine is resumed at most once, and once when the block has run; its reference is
released once; and the context is not used after it has been freed.** -/
structure Safe (s : Ping) : Prop where
  resumed : s.resumed.length ≤ 1
  resumedByTimer : s.timer = .finished → s.resumed.length = 1
  released : s.released ≤ 1
  releasedByEnd : s.timer = .finished ∨ s.stage = .notSent → s.released = 1
  notUsed : s.usedFreed = false

/-- The reference is not to be used any more: it is gone, or one of the two is between its
`fan_coro_wake` and `_ref_ = LUA_NOREF`. -/
def handedOver (s : Ping) : Bool :=
  !s.ref || decide (s.callback = .woken) || decide (s.timer = .woken)

/-- The event does no harm: a packet gets to the callback and the callback goes on only before the
context is freed; neither of the two resumes the coroutine behind the other; and the block frees
the context only behind a resumption. -/
def Harmless (s : Ping) : PingEvent → Prop
  | .datagram datagram => isEchoReplyPacket datagram.bytes = true → s.freed = false
  | .callbackClear | .callbackDropRef => s.freed = false
  | .callbackWake => s.freed = false ∧ s.handedOver = false
  | .timerWake => s.handedOver = false
  | .timerFree => s.handedOver = true
  | _ => True

/-- What holds of a ping to which no harm has been done. -/
structure Inv (s : Ping) : Prop where
  /-- Nothing runs unless the coroutine is parked. -/
  quiet : s.stage ≠ .parked → s.timer = .waiting ∧ s.callback = .idle ∧ s.attached = false
    ∧ s.resumed = [] ∧ s.released = if s.stage = .notSent then 1 else 0
  /-- A parked coroutine has its pin until it is resumed. -/
  pinned : s.stage = .parked → s.resumed.length = s.handedOver.toNat
    ∧ s.released = s.handedOver.toNat
  finished : s.timer = .finished → s.handedOver = true
  notUsed : s.usedFreed = false

section Invariant

variable {order : HostOrder} {onMain : Bool} {s s' : Ping}

lemma inv_initial : initial.Inv where
  quiet _ := ⟨rfl, rfl, rfl, rfl, rfl⟩
  pinned h := PingStage.noConfusion h
  finished h := PingTimer.noConfusion h
  notUsed := rfl

/-- A ping to which no harm has been done is as it should be. -/
lemma Inv.safe (h : s.Inv) : s.Safe := by
  by_cases hstage : s.stage = .parked
  · obtain ⟨hresumed, hreleased⟩ := h.pinned hstage
    have hle := Bool.toNat_le s.handedOver
    refine ⟨by omega, fun hend => ?_, by omega, fun hend => ?_, h.notUsed⟩
    · rw [hresumed, h.finished hend]
      rfl
    · rcases hend with hend | hend
      · rw [hreleased, h.finished hend]
        rfl
      · rw [hstage] at hend
        cases hend
  · obtain ⟨htimer, -, -, hresumed, hreleased⟩ := h.quiet hstage
    refine ⟨?_, fun hend => ?_, ?_, fun hend => ?_, h.notUsed⟩
    · rw [hresumed]
      exact Nat.zero_le 1
    · rw [htimer] at hend
      cases hend
    · rw [hreleased]
      split_ifs
      · exact Nat.le_refl 1
      · exact Nat.zero_le 1
    · rcases hend with hend | hend
      · rw [htimer] at hend
        cases hend
      · rw [hreleased, if_pos hend]

/-- Whatever runs beside the call runs only for a parked coroutine. -/
lemma Inv.parked (h : s.Inv)
    (hruns : s.timer ≠ .waiting ∨ s.callback ≠ .idle ∨ s.attached = true) : s.stage = .parked := by
  by_contra hstage
  obtain ⟨htimer, hcallback, hattached, -⟩ := h.quiet hstage
  rcases hruns with hruns | hruns | hruns
  · exact hruns htimer
  · exact hruns hcallback
  · rw [hattached] at hruns
    cases hruns

lemma inCallback_of_not_freed (hfreed : s.freed = false) (next : Ping) :
    s.inCallback next = next := by
  rw [inCallback, hfreed, if_neg Bool.false_ne_true]

/-- A step that resumes nothing. -/
lemma Inv.of_parked (h : s.Inv) (hstage : s.stage = .parked) (hstage' : s'.stage = .parked)
    (hresumed : s'.resumed = s.resumed) (hreleased : s'.released = s.released)
    (hused : s'.usedFreed = s.usedFreed) (hhanded : s'.handedOver = s.handedOver)
    (hfinished : s'.timer = .finished → s.handedOver = true) : s'.Inv := by
  refine ⟨fun hno => absurd hstage' hno, fun _ => ?_, ?_, ?_⟩
  · rw [hresumed, hreleased, hhanded]
    exact h.pinned hstage
  · rwa [hhanded]
  · rw [hused]
    exact h.notUsed

/-- The first resumption. -/
lemma Inv.of_wake (h : s.Inv) (hstage : s.stage = .parked) (hfirst : s.handedOver = false)
    (answer : Option EchoReply) (hstage' : s'.stage = .parked)
    (hresumed : s'.resumed = (s.wake answer).resumed)
    (hreleased : s'.released = (s.wake answer).released) (hused : s'.usedFreed = s.usedFreed)
    (hhanded : s'.handedOver = true) : s'.Inv := by
  have hpinned := h.pinned hstage
  rw [hfirst] at hpinned
  have href : s.ref = true := by
    simp only [handedOver, Bool.or_eq_false_iff, Bool.not_eq_false'] at hfirst
    exact hfirst.1.1
  refine ⟨fun hno => absurd hstage' hno, fun _ => ⟨?_, ?_⟩, fun _ => hhanded, ?_⟩
  · rw [hresumed, hhanded, wake, List.length_append, hpinned.1]
    rfl
  · rw [hreleased, hhanded, wake, hpinned.2, href]
    rfl
  · rw [hused]
    exact h.notUsed

/-- The call itself. -/
lemma Inv.sendPing (h : s.Inv) (hstage : s.stage = .notCalled) (identifier sequence ttl : ℤ)
    (sent : Bool) : (s.sendPing identifier sequence ttl sent).Inv := by
  obtain ⟨htimer, hcallback, hattached, hresumed, hreleased⟩ := h.quiet (by simp [hstage])
  have hunfinished : s.timer ≠ .finished := by simp [htimer]
  simp only [hstage, if_neg (fun h : PingStage.notCalled = .notSent => PingStage.noConfusion h)]
    at hreleased
  rw [Ping.sendPing]
  split_ifs
  · exact ⟨fun _ => ⟨htimer, hcallback, hattached, hresumed, hreleased⟩,
      fun hno => PingStage.noConfusion hno, fun hend => absurd hend hunfinished, h.notUsed⟩
  · exact ⟨fun hno => absurd rfl hno,
      fun _ => by simp [handedOver, hcallback, htimer, hresumed, hreleased],
      fun hend => absurd hend hunfinished, h.notUsed⟩
  · exact ⟨fun _ => ⟨htimer, hcallback, hattached, hresumed, by simp [hreleased]⟩,
      fun hno => PingStage.noConfusion hno, fun hend => absurd hend hunfinished, h.notUsed⟩

/-- A datagram changes at most where the callback is, unless the context has been freed. -/
lemma onDatagram_cases (order : HostOrder) (s : Ping) (datagram : Datagram)
    (hfreed : isEchoReplyPacket datagram.bytes = true → s.freed = false) :
    s.onDatagram order datagram = s
      ∨ ∃ reply, s.onDatagram order datagram = { s with callback := .tested reply }
          ∧ s.ctx.useCoroutine = true := by
  rcases icmpSocketCallback_cases order s.ctx datagram with
    ⟨i, reply, hanswers, hco, hcallback, -⟩ | ⟨hcallback, -⟩
  · have hecho := isEchoReplyPacket_of_answersAt hanswers
    refine .inr ⟨reply, ?_, hco.2⟩
    rw [onDatagram, hecho, hfreed hecho, hcallback]
    rfl
  · refine .inl ?_
    have huse : (isEchoReplyPacket datagram.bytes && s.freed) = false := by
      cases hecho : isEchoReplyPacket datagram.bytes with
      | false => rfl
      | true => rw [hfreed hecho, Bool.and_false]
    rw [onDatagram, huse, hcallback]
    rfl

/-- **A harmless step keeps the invariant.** -/
lemma Inv.step {e : PingEvent} (h : s.Inv) (hstep : s.step order onMain e = some s')
    (hharmless : s.Harmless e) : s'.Inv := by
  cases step_reaction hstep with
  | sendPing hstage => exact h.sendPing hstage _ _ _ _
  | @datagram datagram hattached hidle _ =>
      have hstage := h.parked (.inr (.inr hattached))
      rcases onDatagram_cases order s datagram hharmless with hsame | ⟨reply, hnext, -⟩
      · rwa [hsame]
      · rw [hnext]
        refine h.of_parked hstage hstage rfl rfl rfl ?_ h.finished
        simp [handedOver, hidle]
  | callbackClear hcallback =>
      have hstage := h.parked (.inr (.inl (by simp [hcallback])))
      rw [inCallback_of_not_freed hharmless]
      refine h.of_parked hstage hstage rfl rfl rfl ?_ h.finished
      simp [handedOver, clear, hcallback]
  | @callbackWake reply hcallback =>
      have hstage := h.parked (.inr (.inl (by simp [hcallback])))
      rw [inCallback_of_not_freed hharmless.1]
      exact h.of_wake hstage hharmless.2 (some reply) hstage rfl rfl rfl (by simp [handedOver])
  | callbackDropRef hcallback =>
      have hstage := h.parked (.inr (.inl (by simp [hcallback])))
      rw [inCallback_of_not_freed hharmless]
      refine h.of_parked hstage hstage rfl rfl rfl ?_ h.finished
      simp [handedOver, dropRef, hcallback]
  | timer hstage htimer _ =>
      refine h.of_parked hstage hstage rfl rfl rfl ?_ fun hend => ?_
      · simp only [timerBegin, handedOver, htimer]
        split_ifs <;> rfl
      · simp only [timerBegin] at hend
        split_ifs at hend
  | timerClear htimer =>
      have hstage := h.parked (.inl (by simp [htimer]))
      refine h.of_parked hstage hstage rfl rfl rfl ?_ fun hend => PingTimer.noConfusion hend
      simp [handedOver, clear, htimer]
  | timerWake htimer =>
      have hstage := h.parked (.inl (by simp [htimer]))
      exact h.of_wake hstage hharmless none hstage rfl rfl rfl (by simp [handedOver])
  | timerDropRef htimer =>
      have hstage := h.parked (.inl (by simp [htimer]))
      refine h.of_parked hstage hstage rfl rfl rfl ?_ fun hend => PingTimer.noConfusion hend
      simp [handedOver, dropRef, htimer]
  | timerFree htimer =>
      have hstage := h.parked (.inl (by simp [htimer]))
      refine h.of_parked hstage hstage rfl rfl rfl ?_ fun _ => hharmless
      rw [handedOver, handedOver, htimer]
      rfl

/-- Where the callback uses a freed context, the ping is not as it should be. -/
lemma not_freed_of_safe {next : Ping} (hsafe : (s.inCallback next).Safe) : s.freed = false := by
  by_contra hfreed
  have hused := hsafe.notUsed
  rw [inCallback, if_pos (by simpa using hfreed)] at hused
  cases hused

/-- A second resumption is one too many. -/
lemma Inv.not_handedOver (h : s.Inv) (hstage : s.stage = .parked) {answer : Option EchoReply}
    (honce : (s.wake answer).resumed.length ≤ 1) : s.handedOver = false := by
  rw [wake, List.length_append, (h.pinned hstage).1] at honce
  cases hhanded : s.handedOver with
  | false => rfl
  | true =>
      rw [hhanded] at honce
      exact absurd honce (Nat.not_succ_le_self 1)

/-- **A step that leaves the ping as it should be was harmless.** -/
lemma Inv.harmless {e : PingEvent} (h : s.Inv) (hstep : s.step order onMain e = some s')
    (hsafe : s'.Safe) : s.Harmless e := by
  cases step_reaction hstep with
  | sendPing | timer | timerClear | timerDropRef => trivial
  | datagram hattached hidle _ =>
      intro hecho
      by_contra hfreed
      have hused := hsafe.notUsed
      rw [onDatagram, hecho, Bool.true_and, if_pos (by simpa using hfreed)] at hused
      cases hused
  | callbackClear | callbackDropRef => exact not_freed_of_safe hsafe
  | callbackWake hcallback =>
      have hfreed := not_freed_of_safe hsafe
      rw [inCallback_of_not_freed hfreed] at hsafe
      exact ⟨hfreed, h.not_handedOver (h.parked (.inr (.inl (by simp [hcallback])))) hsafe.resumed⟩
  | timerWake htimer =>
      have honce : (s.wake none).resumed.length ≤ 1 := hsafe.resumed
      exact h.not_handedOver (h.parked (.inl (by simp [htimer]))) honce
  | timerFree htimer =>
      have hpinned := h.pinned (h.parked (.inl (by simp [htimer])))
      have honce : s.resumed.length = 1 := hsafe.resumedByTimer rfl
      rw [hpinned.1] at honce
      exact Bool.toNat_eq_one.mp honce

/-! ## On the main thread -/

/-- What holds when callback and block run on one thread: neither is inside the other, and behind
the block there is no callback. -/
structure OneThread (s : Ping) : Prop where
  inv : s.Inv
  fresh : s.stage = .notCalled → s.freed = false
  pinned : s.stage = .parked → s.ctx.co = true
  callback : s.callback ≠ .idle → s.timer = .waiting ∧ s.freed = false
  /-- Behind its test, neither has been overtaken. -/
  callbackRef : s.callback.beforeWake = true → s.ref = true
  timerRef : s.timer.beforeWake = true → s.ref = true
  behindClear : s.callback.behindClear = true → s.ctx.useCoroutine = false
  /-- While neither runs, `use_coroutine` and `_ref_` say the same. -/
  between : s.stage = .parked → s.callback = .idle → s.timer = .waiting →
    s.ref = s.ctx.useCoroutine
  releasing : s.timer = .releasing → s.ref = false
  finished : s.timer = .finished → s.attached = false
  freed : s.freed = true → s.attached = false

lemma oneThread_initial : initial.OneThread where
  inv := inv_initial
  fresh _ := rfl
  pinned h := PingStage.noConfusion h
  callback h := absurd rfl h
  callbackRef h := by cases h
  timerRef h := by cases h
  behindClear h := by cases h
  between h := PingStage.noConfusion h
  releasing h := PingTimer.noConfusion h
  finished h := PingTimer.noConfusion h
  freed _ := rfl

/-- While the source is on the run loop, the context is there. -/
lemma OneThread.notFreed (h : s.OneThread) (hattached : s.attached = true) : s.freed = false := by
  by_contra hfreed
  rw [h.freed (by simpa using hfreed)] at hattached
  cases hattached

/-- While the source is on the run loop and the block is not running, the timer is to come. -/
lemma OneThread.waiting (h : s.OneThread) (hattached : s.attached = true)
    (hblock : s.inBlock = false) : s.timer = .waiting := by
  cases htimer : s.timer with
  | waiting => rfl
  | finished =>
      rw [h.finished htimer] at hattached
      cases hattached
  | _ => simp [inBlock, htimer] at hblock

/-- While the block runs, the callback does not. -/
lemma OneThread.idle (h : s.OneThread) (htimer : s.timer ≠ .waiting) : s.callback = .idle := by
  by_contra hcallback
  exact htimer (h.callback hcallback).1

lemma OneThread.harmless {e : PingEvent} (h : s.OneThread)
    (hstep : s.step order true e = some s') : s.Harmless e := by
  cases step_reaction hstep with
  | sendPing | timer | timerClear | timerDropRef => trivial
  | datagram hattached hidle _ => exact fun _ => h.notFreed hattached
  | callbackClear hcallback | callbackDropRef hcallback =>
      exact (h.callback (by simp [hcallback])).2
  | callbackWake hcallback =>
      obtain ⟨hwaiting, hfreed⟩ := h.callback (by simp [hcallback])
      have href := h.callbackRef (by rw [hcallback]; rfl)
      exact ⟨hfreed, by simp [handedOver, href, hcallback, hwaiting]⟩
  | timerWake htimer =>
      have href := h.timerRef (by rw [htimer]; rfl)
      have hidle := h.idle (by simp [htimer])
      show s.handedOver = false
      simp [handedOver, href, hidle, htimer]
  | timerFree htimer =>
      show s.handedOver = true
      simp [handedOver, h.releasing htimer]

/-- A step of the callback. -/
lemma OneThread.of_callback (h : s.OneThread) (hinv : s'.Inv) (hwaiting : s.timer = .waiting)
    (hfreed : s.freed = false) (hstage : s'.stage = s.stage) (hco : s'.ctx.co = s.ctx.co)
    (htimer' : s'.timer = s.timer) (hfreed' : s'.freed = s.freed)
    (hbefore : s'.callback.beforeWake = true → s'.ref = true)
    (hclear : s'.callback.behindClear = true → s'.ctx.useCoroutine = false)
    (hbetween : s'.stage = .parked → s'.callback = .idle → s'.ref = s'.ctx.useCoroutine) :
    s'.OneThread := by
  have htimer : s'.timer = .waiting := htimer'.trans hwaiting
  have hthere : s'.freed = false := hfreed'.trans hfreed
  refine ⟨hinv, fun _ => hthere, fun hparked => hco.trans (h.pinned (hstage ▸ hparked)),
    fun _ => ⟨htimer, hthere⟩, hbefore, fun htested => ?_, hclear,
    fun hparked hidle _ => hbetween hparked hidle, ?_, ?_, ?_⟩
  · rw [htimer] at htested
    cases htested
  · rw [htimer]
    exact PingTimer.noConfusion
  · rw [htimer]
    exact PingTimer.noConfusion
  · rw [hthere]
    exact Bool.noConfusion

/-- A step of the block; the callback is not running. -/
lemma OneThread.of_block (h : s.OneThread) (hinv : s'.Inv) (hparked : s.stage = .parked)
    (hidle : s.callback = .idle) (hstage : s'.stage = s.stage) (hco : s'.ctx.co = s.ctx.co)
    (hcallback : s'.callback = s.callback) (hruns : s'.timer ≠ .waiting)
    (hbefore : s'.timer.beforeWake = true → s'.ref = true)
    (hreleasing : s'.timer = .releasing → s'.ref = false)
    (hfinished : s'.timer = .finished → s'.attached = false)
    (hfreed : s'.freed = true → s'.attached = false) : s'.OneThread := by
  have hidle' : s'.callback = .idle := hcallback.trans hidle
  refine ⟨hinv, fun hnew => ?_, fun _ => hco.trans (h.pinned hparked),
    fun hno => absurd hidle' hno, fun htested => ?_, hbefore, fun hclear => ?_,
    fun _ _ hwaiting => absurd hwaiting hruns, hreleasing, hfinished, hfreed⟩
  · rw [hstage, hparked] at hnew
    cases hnew
  · rw [hidle'] at htested
    cases htested
  · rw [hidle'] at hclear
    cases hclear

/-- The call itself. -/
lemma OneThread.sendPing (h : s.OneThread) (hstage : s.stage = .notCalled)
    {identifier sequence ttl : ℤ} {sent : Bool}
    (hinv : (s.sendPing identifier sequence ttl sent).Inv) :
    (s.sendPing identifier sequence ttl sent).OneThread := by
  obtain ⟨htimer, hcallback, hattached, -⟩ := h.inv.quiet (by simp [hstage])
  have hfreed := h.fresh hstage
  refine ⟨hinv, ?_, ?_, ?_, ?_, ?_, ?_, ?_, ?_, ?_, ?_⟩
  all_goals
    rw [Ping.sendPing]
    split_ifs <;> simp [htimer, hcallback, hattached, hfreed, PingCallback.beforeWake,
      PingCallback.behindClear, PingTimer.beforeWake]

/-- The block begins. -/
lemma OneThread.timerBegin (h : s.OneThread) (hparked : s.stage = .parked)
    (htimer : s.timer = .waiting) (hidle : s.callback = .idle) (hinv : s.timerBegin.Inv) :
    s.timerBegin.OneThread := by
  have href := h.between hparked hidle htimer
  have hbegin : s.timerBegin
      = { s with timer := if s.ctx.useCoroutine then .tested else .releasing } := by
    rw [Ping.timerBegin, h.pinned hparked, Bool.true_and]
  rw [hbegin] at hinv ⊢
  refine h.of_block hinv hparked hidle rfl rfl rfl ?_ (fun hbefore => ?_) (fun hends => ?_)
    (fun hends => ?_) h.freed
  · dsimp only
    split_ifs <;> exact PingTimer.noConfusion
  · cases huse : s.ctx.useCoroutine with
    | true => exact href.trans huse
    | false =>
        simp only [huse] at hbefore
        cases hbefore
  · cases huse : s.ctx.useCoroutine with
    | true =>
        simp only [huse] at hends
        cases hends
    | false => exact href.trans huse
  · dsimp only at hends
    split_ifs at hends

lemma OneThread.step {e : PingEvent} (h : s.OneThread)
    (hstep : s.step order true e = some s') : s'.OneThread := by
  have hharmless := h.harmless hstep
  have hinv := h.inv.step hstep hharmless
  cases step_reaction hstep with
  | sendPing hstage => exact h.sendPing hstage hinv
  | @datagram datagram hattached hidle hthread =>
      rcases onDatagram_cases order s datagram hharmless with hsame | ⟨reply, hnext, huse⟩
      · rwa [hsame]
      · rw [hnext] at hinv ⊢
        have hwaiting := h.waiting hattached (hthread rfl)
        have href := h.between (h.inv.parked (.inr (.inr hattached))) hidle hwaiting
        exact h.of_callback hinv hwaiting (h.notFreed hattached) rfl rfl rfl rfl
          (fun _ => href.trans huse) (fun hclear => by cases hclear) fun _ hno => by cases hno
  | callbackClear hcallback =>
      obtain ⟨hwaiting, hfreed⟩ := h.callback (by simp [hcallback])
      have href := h.callbackRef (by rw [hcallback]; rfl)
      rw [inCallback_of_not_freed hfreed] at hinv ⊢
      exact h.of_callback hinv hwaiting hfreed rfl rfl rfl rfl (fun _ => href) (fun _ => rfl)
        fun _ hno => by cases hno
  | callbackWake hcallback =>
      obtain ⟨hwaiting, hfreed⟩ := h.callback (by simp [hcallback])
      have huse := h.behindClear (by rw [hcallback]; rfl)
      rw [inCallback_of_not_freed hfreed] at hinv ⊢
      exact h.of_callback hinv hwaiting hfreed rfl rfl rfl rfl (fun hbefore => by cases hbefore)
        (fun _ => huse) fun _ hno => by cases hno
  | callbackDropRef hcallback =>
      obtain ⟨hwaiting, hfreed⟩ := h.callback (by simp [hcallback])
      have huse := h.behindClear (by rw [hcallback]; rfl)
      rw [inCallback_of_not_freed hfreed] at hinv ⊢
      exact h.of_callback hinv hwaiting hfreed rfl rfl rfl rfl (fun hbefore => by cases hbefore)
        (fun hclear => by cases hclear) fun _ _ => huse.symm
  | timer hparked htimer hthread => exact h.timerBegin hparked htimer (hthread rfl) hinv
  | timerClear htimer =>
      have hparked := h.inv.parked (.inl (by simp [htimer]))
      have href := h.timerRef (by rw [htimer]; rfl)
      exact h.of_block hinv hparked (h.idle (by simp [htimer])) rfl rfl rfl PingTimer.noConfusion
        (fun _ => href) (fun hno => by cases hno) (fun hno => by cases hno) h.freed
  | timerWake htimer =>
      have hparked := h.inv.parked (.inl (by simp [htimer]))
      exact h.of_block hinv hparked (h.idle (by simp [htimer])) rfl rfl rfl PingTimer.noConfusion
        (fun hno => by cases hno) (fun hno => by cases hno) (fun hno => by cases hno) h.freed
  | timerDropRef htimer =>
      have hparked := h.inv.parked (.inl (by simp [htimer]))
      exact h.of_block hinv hparked (h.idle (by simp [htimer])) rfl rfl rfl PingTimer.noConfusion
        (fun hno => by cases hno) (fun _ => rfl) (fun hno => by cases hno) h.freed
  | timerFree htimer =>
      have hparked := h.inv.parked (.inl (by simp [htimer]))
      exact h.of_block hinv hparked (h.idle (by simp [htimer])) rfl rfl rfl PingTimer.noConfusion
        (fun hno => by cases hno) (fun hno => by cases hno) (fun _ => Bool.and_false _)
        fun _ => Bool.and_false _

end Invariant

end Ping

/-- **A ping is as it should be in exactly the runs in which no packet gets to the callback and the
callback does not go on behind the block's `free`, neither of the two resumes the coroutine behind
the other, and the block frees the context only behind a resumption.  On the main thread these are
all runs.** -/
theorem icmpPing_safe_iff {T : Type*} [DecidableEq T] (order : HostOrder) (main caller : T)
    (es : List PingEvent) :
    ((icmpPing order main caller).Along (fun _ _ s' => s'.Safe) es
        ↔ (icmpPing order main caller).Meets Ping.Harmless es)
      ∧ (caller = main → (icmpPing order main caller).Meets Ping.Harmless es) := by
  refine ⟨?_, fun hmain => ?_⟩
  · exact Machine.along_iff_meets Ping.inv_initial
      (fun _ _ _ h hstep hharmless => h.step hstep hharmless)
      (fun _ _ _ h hstep =>
        ⟨fun hsafe => h.harmless hstep hsafe, fun hharmless => (h.step hstep hharmless).safe⟩) es
  · subst hmain
    have hsame : (icmpPing order caller caller).step = Ping.step order true := by
      simp [icmpPing]
    refine Machine.along_of_meets (C := fun _ _ => True) Ping.oneThread_initial
      (fun _ _ _ h hstep _ => Ping.OneThread.step h (hsame ▸ hstep))
      (fun _ _ _ h hstep _ => Ping.OneThread.harmless h (hsame ▸ hstep)) (Machine.meets_true es)

/-- The reply to the request 1, 7. -/
def lateReply : Datagram where
  bytes := [0x45, 0, 0, 28, 0, 0, 0, 0, 64, 1, 0, 0, 127, 0, 0, 1, 127, 0, 0, 1]
    ++ [0, 0, 0, 0, 0, 1, 0, 7]
  fits := by decide

/-- Sent from another thread: the reply that comes behind the block uses what the block has
freed. -/
theorem icmpPing_late_reply :
    ∃ s, (icmpPing .littleEndian true false).run
        [.sendPing 1 7 64 true, .timer, .timerClear, .timerWake, .timerDropRef, .timerFree,
          .datagram lateReply] = some s
      ∧ s.usedFreed = true ∧ ¬ s.Safe :=
  ⟨_, rfl, rfl, fun hsafe => Bool.noConfusion hsafe.notUsed⟩

end Luan
