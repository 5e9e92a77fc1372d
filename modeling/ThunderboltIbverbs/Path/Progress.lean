import ThunderboltIbverbs.Path.Steady
import Mathlib.Data.List.TakeWhile

/-! # Two credit-gated ends make progress

A quiet link, with nothing in flight, can be stuck only when an end is inside a
page stream without a credit: outside a stream an end posts its control frames,
and with them the credits it owes.  Two ends that are both inside a stream hold
back each other's credits; the condition on the runs is that never both have
fewer credits than pages to post. -/
set_option autoImplicit false
namespace Tbv.NativePath

open Tbv.NativeData Trans

/-- The steps of a run that cannot get stuck: of two ends at most one goes into
a stream that it has not the credits to finish. -/
def ProgressOk (l : Link) (e : Event) : Prop :=
  Uncancelled l e ∧
    ∀ side, e = .schedule side → StartsUncovered (l.path side) → ¬ Uncovered (l.path !side)

structure Link.Sound (cfg : Bool → PathConfig) (l : Link) : Prop extends l.Steady cfg where
  apart : ∀ side, Uncovered (l.path side) → ¬ Uncovered (l.path !side)

section Runs
variable {cfg : Bool → PathConfig} {l : Link}

theorem Link.Sound.schedule_apart (sound : l.Sound cfg) (side : Bool)
    (ok : ProgressOk l (.schedule side)) (dir : Bool)
    (uncovered : Uncovered ((l.schedule side).path dir)) :
    ¬ Uncovered ((l.schedule side).path !dir) := by
  obtain ⟨rx, sent, inStep⟩ := sound.credits.inStep side
  rcases scheduleTx_idle_or_posts (l.path side) with idle | ⟨p', pkt, ran⟩
  · rw [Link.schedule_idle idle] at *
    exact sound.apart dir uncovered
  · have still : Uncovered p' → ¬ Uncovered (l.path !side) := by
      intro after
      rcases Uncovered.schedule (sound.credits.ledger side).windowed inStep ran after with
        before | starts
      · exact sound.apart side before
      · exact ok.2 side rfl starts
    have other : (!side) ≠ side := by simp
    rw [Link.schedule_posted ran] at *
    by_cases same : dir = side
    · subst same
      simp only [Function.update_self, Function.update_of_ne other] at *
      exact still uncovered
    · have dirIs : dir = !side := by
        cases dir <;> cases side <;> simp_all
      subst dirIs
      simp only [Bool.not_not, Function.update_self, Function.update_of_ne other] at *
      exact fun two => still two uncovered

theorem Link.Sound.apply (sound : l.Sound cfg) {e : Event} (ok : ProgressOk l e) :
    (l.apply e).Sound cfg := by
  refine { sound.toSteady.apply ok.1 with apart := fun dir => ?_ }
  by_cases scheduled : ∃ side, e = .schedule side
  · obtain ⟨side, rfl⟩ := scheduled
    exact sound.schedule_apart side ok dir
  · have notSchedule : ∀ side, e ≠ .schedule side := fun side same => scheduled ⟨side, same⟩
    have keeps := sound.toSteady.keeps ok.1 notSchedule
    intro uncovered other
    exact sound.apart dir ((keeps dir).covers uncovered) ((keeps !dir).covers other)

theorem Link.init_sound (cfg : Bool → PathConfig) : (Link.init cfg).Sound cfg := by
  refine { Link.init_steady cfg with apart := fun side uncovered => ?_ }
  have idle : ((Link.init cfg).path side).txRawStreamActive = false := rfl
  have running := uncovered.1
  rw [idle] at running
  cases running

/-! ## No stuck state -/

/-- Nothing is in flight, both ends admit packets, a packet is queued, and
neither scheduler posts. -/
structure Link.Stuck (l : Link) : Prop where
  wires : ∀ side, l.wire side = []
  rings : ∀ side, (l.path side).ring = []
  admits : ∀ side, txAdmits (l.path side) = true
  queued : ∃ side, (l.path side).txControlQueue ≠ [] ∨ (l.path side).txDataQueue ≠ []
  idle : ∀ side, (scheduleTx (l.path side) .ok).2 = none

theorem scheduleBlocked_of_idle {p : Path} {fromControlQueue : Bool} {pkt : TxPacket}
    (chosen : scheduleChoice p = some (fromControlQueue, pkt))
    (idle : (scheduleTx p .ok).2 = none) : scheduleBlocked p fromControlQueue pkt = true := by
  unfold scheduleTx at idle
  rw [chosen] at idle
  by_contra free
  simp [free] at idle

/-- With an empty ring only a lack of credits can hold a packet back. -/
theorem blocked_by_credits {p : Path} (staging : Staging p) (empty : p.ring = [])
    {fromControlQueue : Bool} {pkt : TxPacket}
    (blocked : scheduleBlocked p fromControlQueue pkt = true) :
    pkt.control = false ∧ p.txRemoteDataCredits <
      max 1 (startCreditRequired pkt.startCreditGroupFrames p.txRemoteDataCreditMax) := by
  have ringSize := p.cfg.txRingSize_pos
  obtain ⟨inflight, free, frames⟩ := staging
  rw [empty] at inflight free
  simp only [List.length_nil, List.countP_nil, Nat.add_zero] at inflight free
  have limit : txInflightLimit p ≠ 0 → ¬ txInflightLimit p ≤ 0 := by omega
  have reserve : ¬ p.txFrameCount - 0 ≤ txControlFrameReserve p := by
    unfold txControlFrameReserve
    split <;> omega
  have pool : (p.txFree == 0) = false := by
    simp only [beq_eq_false_iff_ne]
    omega
  simp only [scheduleBlocked, inflight, pool, reserve, decide_false, Bool.and_false,
    Bool.or_false, Bool.or_eq_true, Bool.and_eq_true, Bool.not_eq_true', bne_iff_ne,
    decide_eq_true_eq] at blocked
  rcases blocked with tooMany | ⟨⟨data, _⟩, short⟩
  · exact absurd tooMany.2 (limit tooMany.1.2)
  · exact ⟨data, short⟩

/-- A quiet end inside a stream has a page next, of its own owner. -/
theorem Link.Steady.quiet_active (steady : l.Steady cfg) {side : Bool}
    (empty : (l.path side).ring = [])
    (active : (l.path side).txRawStreamActive = true) :
    ∃ pkt rest, (l.path side).txDataQueue = pkt :: rest ∧ pkt.zcopy = true ∧
      scheduleChoice (l.path side) = some (false, pkt) := by
  have raw := (steady.path side).raw
  have none : counted (l.path side) = [] := by simp [counted, empty]
  have mid : midStream (l.path side) = true := by
    by_contra notMid
    obtain ⟨before, last, shape, _⟩ := raw.ending active (by simpa using notMid)
    rw [none] at shape
    simp at shape
  obtain ⟨rx, sent, inStep⟩ := steady.credits.inStep side
  cases queue : (l.path side).txDataQueue with
  | nil => simp [midStream, queue] at mid
  | cons pkt rest =>
      have zcopy : pkt.zcopy = true := by simpa [midStream, queue] using mid
      obtain ⟨emitted, _⟩ := inStep.dataEmitted pkt (by rw [queue]; exact List.mem_cons_self)
      obtain ⟨sid, offset, origin⟩ := emitted.page_of_zcopy zcopy
      have notStart : pkt.rawStreamStart = false := by
        simp only [Emitted, origin] at emitted
        exact emitted.2.2.1
      have owner : pkt.ownerCtx = (l.path side).txRawStreamOwner := by
        have trace := inStep.queueTrace
        rw [queue] at trace
        obtain ⟨_, carries, _⟩ := trace_cons_iff.mp trace
        cases carries with
        | plain plain => simp [origin, Origin.sid?] at plain
        | header headerOrigin _ _ => simp [origin] at headerOrigin
        | page _ owner _ _ => rw [owner, inStep.gate.2.1]
        | lastPage _ owner _ _ => rw [owner, inStep.gate.2.1]
      refine ⟨pkt, rest, rfl, zcopy, ?_⟩
      have admits := (steady.credits.ledger side).admits
      simp [scheduleChoice, admits, active, queue, zcopy, notStart, owner]

/-- A stuck end inside a stream has no credit left, so its stream is uncovered. -/
theorem Link.Steady.stuck_active (steady : l.Steady cfg) (stuck : l.Stuck) {side : Bool}
    (active : (l.path side).txRawStreamActive = true) :
    (l.path side).txRemoteDataCredits = 0 ∧ Uncovered (l.path side) := by
  obtain ⟨pkt, rest, queue, zcopy, chosen⟩ := steady.quiet_active (stuck.rings side) active
  obtain ⟨_, short⟩ := blocked_by_credits (steady.path side).staging (stuck.rings side)
    (scheduleBlocked_of_idle chosen (stuck.idle side))
  have group := (steady.path side).groups.pages pkt (by rw [queue]; exact List.mem_cons_self) zcopy
  have zero : (l.path side).txRemoteDataCredits = 0 := by
    simp only [group, startCreditRequired, if_true] at short
    omega
  refine ⟨zero, active, ?_⟩
  simp only [pagesLeft, queue, List.takeWhile_cons, zcopy, if_true, List.length_cons]
  omega

/-- A stuck end outside a stream owes no credit on its control queue. -/
theorem Link.Steady.stuck_inactive (steady : l.Steady cfg) (stuck : l.Stuck) {side : Bool}
    (inactive : (l.path side).txRawStreamActive = false) :
    (l.path side).txControlQueue = [] := by
  cases queue : (l.path side).txControlQueue with
  | nil => rfl
  | cons pkt rest =>
      have chosen : scheduleChoice (l.path side) = some (true, pkt) := by
        simp [scheduleChoice, (steady.credits.ledger side).admits, inactive, queue]
      obtain ⟨data, _⟩ := blocked_by_credits (steady.path side).staging (stuck.rings side)
        (scheduleBlocked_of_idle chosen (stuck.idle side))
      obtain ⟨rx, sent, inStep⟩ := steady.credits.inStep side
      obtain ⟨emitted, origin⟩ := inStep.controlEmitted pkt
        (by rw [queue]; exact List.mem_cons_self)
      simp only [Emitted, origin] at emitted
      rw [emitted.1] at data
      cases data

/-- Against a stuck end outside a stream, all but an incomplete batch of the
window is back at the sender. -/
theorem Link.Steady.credits_back (steady : l.Steady cfg) (stuck : l.Stuck) (side : Bool)
    (inactive : (l.path !side).txRawStreamActive = false) :
    window cfg side + 1 ≤
      (l.path side).txRemoteDataCredits + creditReturnThreshold (window cfg side) := by
  have covers := steady.credits.covers side
  have pending := (steady.credits.ledger !side).pending_lt
  rw [Bool.not_not] at pending
  unfold Link.balance at covers
  rw [stuck.wires, stuck.wires, steady.stuck_inactive stuck inactive] at covers
  simp only [charged_nil, carried_nil] at covers
  omega

theorem Link.Sound.not_stuck (sound : l.Sound cfg) : ¬ l.Stuck := by
  intro stuck
  -- an active end is uncovered, so one of the two is inactive
  obtain ⟨side, inactive⟩ : ∃ side, (l.path side).txRawStreamActive = false := by
    by_contra allActive
    simp only [not_exists, Bool.not_eq_false] at allActive
    exact sound.apart true (sound.stuck_active stuck (allActive true)).2
      (sound.stuck_active stuck (allActive false)).2
  have threshold := creditReturnThreshold_le_window (window_pos cfg !side)
  -- its peer has credits, so it is not inside a stream either
  have peerBack := sound.credits_back stuck (!side) (by rw [Bool.not_not]; exact inactive)
  have peerInactive : (l.path !side).txRawStreamActive = false := by
    by_contra active
    have := (sound.stuck_active stuck (by simpa using active)).1
    omega
  have allInactive : ∀ end_, (l.path end_).txRawStreamActive = false := by
    intro end_
    cases end_ <;> cases side <;> assumption
  -- so every queued packet is a data packet, and its group may start
  obtain ⟨end_, queued⟩ := stuck.queued
  have control := sound.stuck_inactive stuck (allInactive end_)
  have data := queued.resolve_left fun nonempty => nonempty control
  obtain ⟨pkt, rest, queue⟩ := List.exists_cons_of_ne_nil data
  have chosen : scheduleChoice (l.path end_) = some (false, pkt) := by
    simp [scheduleChoice, (sound.credits.ledger end_).admits, allInactive end_, control, queue]
  obtain ⟨_, short⟩ := blocked_by_credits (sound.path end_).staging (stuck.rings end_)
    (scheduleBlocked_of_idle chosen (stuck.idle end_))
  have back := sound.credits_back stuck end_ (allInactive !end_)
  have fits := (sound.path end_).groups.fits pkt (by rw [queue]; exact List.mem_cons_self)
  have bound := creditReturnThreshold_le_window (window_pos cfg end_)
  rw [(sound.credits.ledger end_).creditMax] at short
  unfold groupFits at fits
  omega

/-- In every run that meets the condition no state reached is stuck: a quiet
link with a queued packet has an end that posts. -/
theorem credit_gated_streams_progress (reached : Link.Reached ProgressOk cfg l) : ¬ l.Stuck := by
  have sound : l.Sound cfg := by
    refine reached.invariant (Link.init_sound cfg) ?_
    intro l next e before meets taken
    cases Option.some.inj taken
    exact before.apply meets
  exact sound.not_stuck

/-- With a queued stream and nothing posted yet, an end posts. -/
theorem credit_gated_streams_progress_queued :
    let l := [Event.stream true twoPageWrite, .control false ackFrame, .schedule false].foldl
      Link.apply (Link.init fun _ => nativeConfig)
    ¬ l.Stuck ∧ (l.path true).txDataQueue ≠ [] := by
  intro l
  have meets : Trans.Meets Link.step ProgressOk
      [.stream true twoPageWrite, .control false ackFrame, .schedule false]
      (Link.init fun _ => nativeConfig) := by
    refine ⟨⟨by unfold Uncancelled groupFits; decide +kernel, nofun⟩, ?_⟩
    rintro _ ⟨⟩
    refine ⟨⟨trivial, nofun⟩, ?_⟩
    rintro _ ⟨⟩
    refine ⟨⟨trivial, ?_⟩, fun _ _ => trivial⟩
    rintro _ ⟨⟩ _
    decide +kernel
  have reached : Link.Reached ProgressOk (fun _ => nativeConfig) l :=
    Trans.reaches_of_run meets (Link.run_step _ _)
  exact ⟨credit_gated_streams_progress reached, nofun⟩

/-! ## Both ends inside a stream

Each exchange below lets both ends post one packet and receive the other's.
Two ends that start a stream of more packets than the window run out of credits
together, and each holds the credits it owes on its control queue. -/

def Link.exchange (l : Link) : Link :=
  [Event.schedule true, .schedule false, .complete true false, .complete false false,
    .deliver true, .deliver false].foldl Link.apply l

/-- A quiet end inside a stream with `credits` left and `pages` to post. -/
structure Ready (credits pages : Nat) (p : Path) : Prop where
  ring : p.ring = []
  active : p.txRawStreamActive = true
  credits_eq : p.txRemoteDataCredits = credits
  pages_eq : pagesLeft p = pages

structure Posts (credits pages : Nat) (p p' : Path) (pkt : TxPacket) : Prop where
  ran : scheduleTx p .ok = (p', some pkt)
  ring : p'.ring = [pkt]
  active : p'.txRawStreamActive = true
  data : pkt.control = false
  credits_eq : p'.txRemoteDataCredits = credits
  pages_eq : pagesLeft p' = pages + 1

theorem midStream_of_pagesLeft {p : Path} {n : Nat} (left : pagesLeft p = n + 1) :
    midStream p = true := by
  unfold pagesLeft at left
  unfold midStream
  cases queue : p.txDataQueue with
  | nil => simp [queue] at left
  | cons pkt rest =>
      cases zcopy : pkt.zcopy with
      | true => simp [zcopy]
      | false => simp [queue, zcopy] at left

theorem Posts.complete {p p' : Path} {pkt : TxPacket} {credits pages : Nat}
    (posts : Posts credits pages p p' pkt) (raw : RawExact p') :
    Ready credits (pages + 1) (txComplete p' false) := by
  have mid := midStream_of_pagesLeft posts.pages_eq
  have counts : pkt.rawStreamCounted = true → pkt ∈ counted p' := by
    intro isCounted
    simp [counted, posts.ring, isCounted]
  have active : (txComplete p' false).txRawStreamActive = true := by
    rw [txComplete_cons posts.ring]
    by_cases isCounted : pkt.rawStreamCounted = true
    · rw [finishRawStreamIfNeeded_open (p := retireDescriptor p' pkt []) isCounted posts.active
        (raw.owned posts.active pkt (counts isCounted))
        (raw.inside posts.active mid pkt (counts isCounted)) (raw.notSeen posts.active)]
      exact posts.active
    · rw [finishRawStreamIfNeeded_uncounted (by simpa using isCounted)]
      exact posts.active
  refine ⟨?_, active, ?_, ?_⟩
  · rw [txComplete_cons posts.ring, finishRawStreamIfNeeded_frame]
    rfl
  · rw [(txComplete_sameLedger p' false).credits, posts.credits_eq]
  · rw [pagesLeft, (txComplete_sameData p' false).1]
    exact posts.pages_eq

theorem Link.Steady.posts_page (steady : l.Steady cfg) {side : Bool} {credits pages : Nat}
    (ready : Ready (credits + 1) (pages + 2) (l.path side)) :
    ∃ p' pkt, Posts credits pages (l.path side) p' pkt := by
  obtain ⟨pkt, rest, queue, zcopy, chosen⟩ := steady.quiet_active ready.ring ready.active
  have sound := steady.path side
  obtain ⟨rx, sent, inStep⟩ := steady.credits.inStep side
  have ledger := steady.credits.ledger side
  have group := sound.groups.pages pkt (by rw [queue]; exact List.mem_cons_self) zcopy
  have free : scheduleBlocked (l.path side) false pkt = false := by
    by_contra blocked
    obtain ⟨_, short⟩ := blocked_by_credits sound.staging ready.ring
      (by simpa using blocked : scheduleBlocked (l.path side) false pkt = true)
    simp only [group, startCreditRequired, if_true, ready.credits_eq] at short
    omega
  have ran : scheduleTx (l.path side) .ok =
      ({ (scheduleTake (l.path side) false pkt).1 with
          ring := (scheduleTake (l.path side) false pkt).1.ring ++
            [(scheduleTake (l.path side) false pkt).2] },
        some (scheduleTake (l.path side) false pkt).2) := by
    simp [scheduleTx, chosen, free]
  obtain ⟨_, data⟩ := inStep.dataEmitted pkt (by rw [queue]; exact List.mem_cons_self)
  have kept : (scheduleTake (l.path side) false pkt).2.control = false := by
    rw [(scheduleTake_samePacket _ false pkt).control, data]
  obtain ⟨charge, _⟩ :=
    scheduleTx_credits ran ledger.windowed inStep.dataEmitted inStep.controlEmitted
  refine ⟨_, _, ran, ?_, ?_, kept, ?_, ?_⟩
  · simp [scheduleTake_eq, ready.ring]
  · simp [scheduleTake_eq, ready.active]
  · rw [kept, ready.credits_eq] at charge
    simpa using charge
  · have left := ready.pages_eq
    simp only [pagesLeft, queue, List.takeWhile_cons, zcopy, if_true, List.length_cons] at left
    simp only [pagesLeft, scheduleTake_eq, queue, List.tail_cons, Bool.false_eq_true, if_false]
    omega

theorem Link.exchange_path {p' : Bool → Path} {pkt : Bool → TxPacket}
    (wires : ∀ side, l.wire side = [])
    (ran : ∀ side, scheduleTx (l.path side) .ok = (p' side, some (pkt side))) :
    let posted := [Event.schedule true, .schedule false, .complete true false,
      .complete false false].foldl Link.apply l
    (∀ side, posted.path side = txComplete (p' side) false ∧ posted.wire side = [pkt side]) ∧
    (∀ side, l.exchange.wire side = []) ∧
    ∀ side, l.exchange.path side =
      rxComplete (txComplete (p' side) false) (pkt !side).frame := by
  refine ⟨?_, ?_, ?_⟩ <;> intro side <;> cases side <;>
    simp [Link.exchange, Link.apply, Link.schedule, Link.setPath, Link.deliver, ran, wires,
      Function.update]

theorem Link.Steady.foldl (steady : l.Steady cfg) {events : List Event}
    (ok : ∀ e ∈ events, ∀ l, Uncancelled l e) : (events.foldl Link.apply l).Steady cfg := by
  induction events generalizing l with
  | nil => exact steady
  | cons e rest ih =>
      exact ih (steady.apply (ok e List.mem_cons_self l))
        fun later member => ok later (List.mem_cons_of_mem _ member)

/-- A received data frame changes no credits at the end that receives it. -/
theorem Link.Steady.rxComplete_data (steady : l.Steady cfg) {side : Bool} {pkt : TxPacket}
    {rest : List TxPacket} (wire : l.wire side = pkt :: rest) (data : pkt.control = false)
    {credits pages : Nat} (ready : Ready credits pages (l.path !side)) :
    Ready credits pages (rxComplete (l.path !side) pkt.frame) := by
  obtain ⟨rx, sent, inStep⟩ := steady.credits.inStep side
  rw [wire] at inStep
  have peer := steady.credits.ledger !side
  obtain ⟨returned, added⟩ := inStep.refund
  obtain ⟨_, _, kept⟩ := rxComplete_credits pkt.frame peer.admits peer.windowed
    (by rw [peer.creditMax]; exact peer.credits_le) peer.threshold
    (by rw [returned]; split <;> omega)
  rw [added, (inStep.wireEmitted pkt List.mem_cons_self).creditsIn_data data, peer.creditMax]
    at kept
  have same := rxComplete_sameTx (l.path !side) pkt.frame
  have bound := peer.credits_le
  refine ⟨by rw [same.ring, ready.ring], by rw [same.active, ready.active], ?_, ?_⟩
  · rw [kept, ← ready.credits_eq]
    omega
  · rw [pagesLeft, same.data]
    exact ready.pages_eq

/-- Both ends post a packet of their stream: one credit and one page less. -/
theorem Link.Steady.exchange (steady : l.Steady cfg) {credits pages : Nat} {p' : Bool → Path}
    {pkt : Bool → TxPacket} (wires : ∀ side, l.wire side = [])
    (posts : ∀ side, Posts credits pages (l.path side) (p' side) (pkt side)) :
    l.exchange.Steady cfg ∧ (∀ side, l.exchange.wire side = []) ∧
      ∀ side, Ready credits (pages + 1) (l.exchange.path side) := by
  obtain ⟨posted, quiet, paths⟩ := Link.exchange_path wires fun side => (posts side).ran
  have middle : ([Event.schedule true, .schedule false, .complete true false,
      .complete false false].foldl Link.apply l).Steady cfg :=
    steady.foldl (by simp [Uncancelled])
  have after : ([Event.schedule true, .schedule false, .complete true false,
      .complete false false, .deliver true].foldl Link.apply l).Steady cfg :=
    steady.foldl (by simp [Uncancelled])
  have exact_ : ∀ side, RawExact (p' side) := by
    intro side
    obtain ⟨rx, sent, inStep⟩ := steady.credits.inStep side
    exact (steady.path side).raw.schedule inStep (posts side).ran
  have completed : ∀ side, Ready credits (pages + 1) (txComplete (p' side) false) :=
    fun side => (posts side).complete (exact_ side)
  refine ⟨steady.foldl (by simp [Uncancelled]), quiet, ?_⟩
  intro side
  rw [paths side]
  cases side with
  | false =>
      have readyHere := completed false
      rw [← (posted false).1] at readyHere ⊢
      exact middle.rxComplete_data (posted true).2 (posts true).data readyHere
  | true =>
      -- the second delivery finds the path of end `true` unchanged
      have readyHere := completed true
      have wire : ([Event.schedule true, .schedule false, .complete true false,
          .complete false false, .deliver true].foldl Link.apply l).wire false = [pkt false] := by
        simp [Link.apply, Link.schedule, Link.setPath, Link.deliver, (posts _).ran, wires,
          Function.update]
      have path : ([Event.schedule true, .schedule false, .complete true false,
          .complete false false, .deliver true].foldl Link.apply l).path true =
            txComplete (p' true) false := by
        simp [Link.apply, Link.schedule, Link.setPath, Link.deliver, (posts _).ran, wires,
          Function.update]
      rw [← path] at readyHere ⊢
      exact after.rxComplete_data wire (posts false).data readyHere

/-- Both ends run their credits down to nothing. -/
theorem Link.Steady.drain (credits pages : Nat) (steady : l.Steady cfg)
    (wires : ∀ side, l.wire side = [])
    (ready : ∀ side, Ready credits (pages + 1 + credits) (l.path side)) :
    ∃ events : List Event, (∀ e ∈ events, ∀ l, Uncancelled l e) ∧
      (∀ side, (events.foldl Link.apply l).wire side = []) ∧
      ∀ side, Ready 0 (pages + 1) ((events.foldl Link.apply l).path side) := by
  induction credits generalizing l with
  | zero => exact ⟨[], by simp, wires, ready⟩
  | succ credits ih =>
      have one (side : Bool) :
          ∃ p' pkt, Posts credits (pages + credits) (l.path side) p' pkt := by
        refine steady.posts_page ?_
        have here := ready side
        rwa [show pages + 1 + (credits + 1) = pages + credits + 2 by omega] at here
      choose p' pkt posts using one
      obtain ⟨kept, quiet, fewer⟩ := steady.exchange wires posts
      rw [show pages + credits + 1 = pages + 1 + credits by omega] at fewer
      obtain ⟨events, free, drained⟩ := ih kept quiet fewer
      refine ⟨[.schedule true, .schedule false, .complete true false, .complete false false,
        .deliver true, .deliver false] ++ events, ?_, ?_⟩
      · intro e member
        rcases List.mem_append.mp member with round | later
        · have rounds : ∀ e ∈ [Event.schedule true, .schedule false, .complete true false,
              .complete false false, .deliver true, .deliver false], ∀ l, Uncancelled l e := by
            simp [Uncancelled]
          exact rounds e round
        · exact free e later
      · rw [List.foldl_append]
        exact drained

/-- Two quiet ends inside a stream and without a credit are stuck. -/
theorem Link.Steady.stuck_of_drained (steady : l.Steady cfg) {pages : Nat}
    (wires : ∀ side, l.wire side = []) (ready : ∀ side, Ready 0 (pages + 1) (l.path side)) :
    l.Stuck := by
  have head (side : Bool) := steady.quiet_active (ready side).ring (ready side).active
  refine ⟨wires, fun side => (ready side).ring, fun side => (steady.credits.ledger side).admits,
    ⟨true, .inr ?_⟩, fun side => ?_⟩
  · obtain ⟨pkt, rest, queue, _⟩ := head true
    simp [queue]
  · obtain ⟨pkt, rest, queue, zcopy, chosen⟩ := head side
    obtain ⟨rx, sent, inStep⟩ := steady.credits.inStep side
    obtain ⟨_, data⟩ := inStep.dataEmitted pkt (by rw [queue]; exact List.mem_cons_self)
    have positive : 0 < max 1 (startCreditRequired pkt.startCreditGroupFrames
        (l.path side).txRemoteDataCreditMax) := by omega
    have blocked : scheduleBlocked (l.path side) false pkt = true := by
      simp [scheduleBlocked, data, (steady.credits.ledger side).windowed,
        (ready side).credits_eq, positive]
    simp [scheduleTx, chosen, blocked]

theorem Link.reaches_foldl {ok : Link → Event → Prop} {events : List Event}
    (free : ∀ e ∈ events, ∀ l, ok l e) (l : Link) :
    Trans.Reaches Link.step ok l (events.foldl Link.apply l) := by
  refine Trans.reaches_of_run ?_ (Link.run_step events l)
  induction events generalizing l with
  | nil => trivial
  | cons e rest ih =>
      exact ⟨free e List.mem_cons_self l,
        fun next _ => ih (fun later member => free later (List.mem_cons_of_mem _ member)) next⟩

end Runs

theorem sendPageStream_room {p : Path} {s : PageStream} (admits : txAdmits p = true)
    (fits : s.pages.length + 1 ≤ p.txDataQueueLimit)
    (room : p.txDataQueued + p.txDataReserved ≤ p.txDataQueueLimit - (s.pages.length + 1)) :
    sendPageStream p s =
      { p with
        txDataQueue := p.txDataQueue ++
          markGroup (s.pages.length + 1) (s.packets p.nextStream)
        txDataQueued := p.txDataQueued + (s.pages.length + 1)
        nextStream := p.nextStream + 1 } := by
  have enough : ¬ (p.txDataQueueLimit < s.pages.length + 1 ∨
      p.txDataQueueLimit - (s.pages.length + 1) < p.txDataQueued + p.txDataReserved) := by
    omega
  have enqueued : enqueueDataList p (s.packets p.nextStream) = .ok { p with
      txDataQueue := p.txDataQueue ++ markGroup (s.pages.length + 1) (s.packets p.nextStream)
      txDataQueued := p.txDataQueued + (s.pages.length + 1) } := by
    unfold enqueueDataList
    dsimp only
    rw [s.packets_length, if_neg (Nat.succ_ne_zero _), admits, if_neg (by simp), if_neg enough]
  rw [sendPageStream, enqueued]

/-- A fresh end whose only packets are a stream posts its header. -/
theorem Link.Steady.posts_header {cfg : Bool → PathConfig} {l : Link} (steady : l.Steady cfg)
    (side : Bool) {s : PageStream} {sid : Nat} (credits : Nat) (ring : (l.path side).ring = [])
    (inactive : (l.path side).txRawStreamActive = false)
    (control : (l.path side).txControlQueue = [])
    (queue : (l.path side).txDataQueue = markGroup (s.pages.length + 1) (s.packets sid))
    (enough : (l.path side).txRemoteDataCredits = credits + 1)
    (starts : creditReturnThreshold (window cfg side) ≤ credits + 1) :
    ∃ p' pkt, Posts credits (s.pages.length - 1) (l.path side) p' pkt := by
  have sound := steady.path side
  have ledger := steady.credits.ledger side
  obtain ⟨rx, sent, inStep⟩ := steady.credits.inStep side
  let pkt : TxPacket :=
    { s.headerPacket sid with startCreditGroupFrames := s.pages.length + 1 }
  let pages : List TxPacket :=
    (payloadPackets s.owner s.pageDone s.pageCtx sid 0 s.pages).map
      fun q => { q with startCreditGroupFrames := 0 }
  have data : (l.path side).txDataQueue = pkt :: pages := queue
  have chosen : scheduleChoice (l.path side) = some (false, pkt) := by
    simp [scheduleChoice, ledger.admits, inactive, control, data]
  have free : scheduleBlocked (l.path side) false pkt = false := by
    by_contra blocked
    obtain ⟨_, short⟩ := blocked_by_credits sound.staging ring
      (by simpa using blocked : scheduleBlocked (l.path side) false pkt = true)
    rw [startCreditRequired_eq_min, ledger.creditMax, enough] at short
    omega
  have ran : scheduleTx (l.path side) .ok =
      ({ (scheduleTake (l.path side) false pkt).1 with
          ring := (scheduleTake (l.path side) false pkt).1.ring ++
            [(scheduleTake (l.path side) false pkt).2] },
        some (scheduleTake (l.path side) false pkt).2) := by
    simp [scheduleTx, chosen, free]
  obtain ⟨charge, _⟩ :=
    scheduleTx_credits ran ledger.windowed inStep.dataEmitted inStep.controlEmitted
  have ofData : (scheduleTake (l.path side) false pkt).2.control = false := by
    rw [(scheduleTake_samePacket _ false pkt).control]
    rfl
  have allPages : (pages.takeWhile fun next => next.zcopy) = pages := by
    rw [List.takeWhile_eq_self_iff]
    intro next member
    obtain ⟨old, oldMember, rfl⟩ := List.mem_map.mp member
    obtain ⟨_, _, _, _, _, _, zcopy, _⟩ := payloadPackets_mem oldMember
    exact zcopy
  have count : pages.length = s.pages.length := by
    simp [pages, payloadPackets_length]
  have positive : 0 < s.pages.length := List.length_pos_iff.mpr s.nonempty
  refine ⟨_, _, ran, ?_, ?_, ofData, ?_, ?_⟩
  · simp [scheduleTake_eq, ring]
  · simp [scheduleTake_eq, pkt, PageStream.headerPacket]
  · rw [ofData, enough] at charge
    simpa using charge
  · simp only [pagesLeft, scheduleTake_eq, data, List.tail_cons, Bool.false_eq_true, if_false]
    rw [allPages, count]
    omega

/-- A write of 16 MiB, the longest there is. -/
def fullWrite : PageStream where
  hdr := { opcode := .rdmaWrite }
  owner := 1
  pageCtx := 2
  metaDone := 3
  pageDone := 4
  pages := List.replicate 4096 ⟨4096, none⟩
  isWrite := twoPageWrite.isWrite
  knownFlags := twoPageWrite.knownFlags
  nonempty := by
    rw [ne_eq, List.replicate_eq_nil_iff]
    decide
  pageLen := by
    intro page member
    rw [(List.mem_replicate.mp member).2]
    decide
  fits := by
    rw [List.map_replicate, List.sum_replicate_nat]
    decide

theorem fullWrite_pages : fullWrite.pages.length = 4096 := List.length_replicate

/-- Both ends write 16 MiB to each other under the native ring sizes.  After
3840 packets each, both have used their window, and the fifteen `PATH_CREDIT`
frames either owes the other wait behind its own stream. -/
theorem credit_gated_streams_deadlock :
    ¬ ∀ (cfg : Bool → PathConfig) (l : Link), Link.Reached Uncancelled cfg l → ¬ l.Stuck := by
  intro never
  let cfg : Bool → PathConfig := fun _ => nativeConfig
  have windows (side : Bool) : window cfg side = 3840 := by
    cases side <;> decide +kernel
  have fits (l : Link) (steady : l.Steady cfg) (side : Bool) :
      Uncancelled l (.stream side fullWrite) := by
    simp only [Uncancelled, (steady.credits.ledger side).creditMax, windows, fullWrite_pages]
    unfold groupFits
    decide
  have one := (Link.init_steady cfg).apply (fits _ (Link.init_steady cfg) true)
  have two := one.apply (fits _ one false)
  have reached : Link.Reached Uncancelled cfg
      (((Link.init cfg).apply (.stream true fullWrite)).apply (.stream false fullWrite)) :=
    .step (.step .init (fits _ (Link.init_steady cfg) true) rfl) (fits _ one false) rfl
  generalize start :
    ((Link.init cfg).apply (.stream true fullWrite)).apply (.stream false fullWrite) = l at *
  have path (side : Bool) : l.path side =
      sendPageStream ((Link.init cfg).path side) fullWrite := by
    rw [← start]
    cases side <;> simp [Link.apply, Link.setPath, Function.update]
  have limit (side : Bool) : ((Link.init cfg).path side).txDataQueueLimit = 262144 := by
    cases side <;> decide +kernel
  have credits (side : Bool) : ((Link.init cfg).path side).txRemoteDataCredits = 3840 := by
    cases side <;> decide +kernel
  have queued (side : Bool) := sendPageStream_room (p := (Link.init cfg).path side)
    (s := fullWrite) rfl (by rw [fullWrite_pages, limit]; decide)
    (by rw [fullWrite_pages, limit]; exact Nat.zero_le _)
  have wires (side : Bool) : l.wire side = [] := by
    rw [← start]
    rfl
  have header (side : Bool) : ∃ p' pkt, Posts 3839 4095 (l.path side) p' pkt := by
    have enough : (l.path side).txRemoteDataCredits = 3840 := by
      rw [path, queued]
      dsimp only
      rw [credits]
    have posts := two.posts_header side (s := fullWrite) 3839
      (by rw [path, queued]; rfl) (by rw [path, queued]; rfl) (by rw [path, queued]; rfl)
      (by rw [path, queued]; rfl) enough (by rw [windows]; decide)
    rwa [fullWrite_pages] at posts
  choose p' pkt posts using header
  obtain ⟨running, quiet, ready⟩ := two.exchange wires posts
  obtain ⟨events, free, drainedWires, drained⟩ := running.drain 3839 256 quiet ready
  have inside : Trans.Reaches Link.step Uncancelled l l.exchange :=
    Link.reaches_foldl (by simp [Uncancelled]) l
  have rest := Link.reaches_foldl free l.exchange
  exact never cfg _ ((reached.trans inside).trans rest)
    ((running.foldl free).stuck_of_drained drainedWires drained)

end Tbv.NativePath
