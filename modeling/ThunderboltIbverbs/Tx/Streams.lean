import ThunderboltIbverbs.Tx.Books

/-! # Raw streams while nothing fails

With a ring that takes every frame and no cancel, the raw stream fields follow the queue: an
active stream either has its next page at the head of the data queue, or its last page has
been taken and something of it is still in flight.  Completions may come in any order. -/
set_option autoImplicit false
namespace Tbv.Tx

open Threads Trans

/-! ## The domain -/

/-- Nothing is canceled and the ring takes every frame. -/
def Steady (_ : St) : Lbl → Prop
  | .run _ ret => ret = 0
  | .event (.cancel _) | .event .cancelQueued | .event .ringStop | .event .destroy => False
  | .event _ => True

instance (st : St) (label : Lbl) : Decidable (Steady st label) := by
  cases label with
  | run thread ret => exact inferInstanceAs (Decidable (ret = 0))
  | event event =>
      cases event with
      | cancel m => exact .isFalse id
      | cancelQueued => exact .isFalse id
      | ringStop => exact .isFalse id
      | destroy => exact .isFalse id
      | _ => exact .isTrue trivial

def steadyFrame : Frame → Bool
  | .schedule | .iterate | .attach _ | .ringTx _ | .inflightDec | .finishRawStream _
  | .release _ _ | .callback _ _ | .completed _ _ => true
  | _ => false

theorem exec_steadyFrame {p p' : Path} {frame : Frame} {pushed : List Frame}
    (steady : steadyFrame frame = true) (ran : exec p frame 0 = some (p', pushed)) :
    ∀ other ∈ pushed, steadyFrame other = true := by
  cases frame with
  | iterate =>
      rcases execIterate_cases ran with ⟨-, rfl⟩ | ⟨_, _, -, -, -, -, rfl⟩ <;> simp [steadyFrame]
  | callback desc canceled =>
      rcases execCallback_cases ran with ⟨-, -, rfl⟩ | ⟨_, -, -, rfl⟩ <;> simp [steadyFrame]
  | schedule | attach hand | ringTx hand | inflightDec | finishRawStream pkt | release pkt status
  | completed pkt canceled =>
      simp only [exec, execAttach, execRingTx, if_true] at ran
      repeat' split at ran
      all_goals cases ran
      all_goals simp [steadyFrame]
  | _ => cases steady

/-! ## The data queue as a row of streams -/

/-- Pages stand behind their stream's first packet; the cursor is the stream that is open. -/
def Flow : Option Nat → List TxPacket → Prop
  | none, [] => True
  | some _, [] => False
  | none, pkt :: rest => pkt.zcopy = false ∧ pkt.rawStreamEnd = false ∧
      (pkt.rawStreamStart = false ∧ Flow none rest ∨
        pkt.rawStreamStart = true ∧ ∃ owner, pkt.ownerCtx = some owner ∧ Flow (some owner) rest)
  | some owner, pkt :: rest => pkt.zcopy = true ∧ pkt.rawStreamStart = false ∧
      pkt.ownerCtx = some owner ∧
      (pkt.rawStreamEnd = true ∧ Flow none rest ∨
        pkt.rawStreamEnd = false ∧ Flow (some owner) rest)

theorem flow_append {cursor : Option Nat} {queue more : List TxPacket} (flow : Flow cursor queue)
    (next : Flow none more) : Flow cursor (queue ++ more) := by
  induction queue generalizing cursor with
  | nil =>
      cases cursor with
      | none => exact next
      | some owner => exact flow.elim
  | cons pkt rest ih =>
      cases cursor with
      | none =>
          obtain ⟨copied, inner, plain | ⟨starts, owner, owned, later⟩⟩ := flow
          · exact ⟨copied, inner, .inl ⟨plain.1, ih plain.2⟩⟩
          · exact ⟨copied, inner, .inr ⟨starts, owner, owned, ih later⟩⟩
      | some owner =>
          obtain ⟨page, plain, owned, last | further⟩ := flow
          · exact ⟨page, plain, owned, .inl ⟨last.1, ih last.2⟩⟩
          · exact ⟨page, plain, owned, .inr ⟨further.1, ih further.2⟩⟩

theorem flow_core {cursor : Option Nat} {queue : List TxPacket} :
    Flow cursor (queue.map TxPacket.core) ↔ Flow cursor queue := by
  induction queue generalizing cursor with
  | nil => rfl
  | cons pkt rest ih =>
      cases cursor <;> simp only [List.map_cons, Flow, ih, TxPacket.core]

theorem flow_pages {owner : Nat} {pages : List TxPacket} (is : Pages owner pages) :
    Flow (some owner) pages := by
  induction pages with
  | nil => exact is.elim
  | cons page rest ih =>
      cases rest with
      | nil =>
          obtain ⟨zcopy, plain, owned, last⟩ := is
          exact ⟨zcopy, plain, owned, .inl ⟨last, trivial⟩⟩
      | cons next more =>
          obtain ⟨⟨zcopy, plain, owned, further⟩, later⟩ := is
          exact ⟨zcopy, plain, owned, .inr ⟨further, ih later⟩⟩

theorem flow_group {pkts : List TxPacket} (group : Group pkts) : Flow none pkts := by
  cases group with
  | copied plain =>
      induction pkts with
      | nil => trivial
      | cons pkt rest ih =>
          obtain ⟨copied, starts, inner⟩ := plain pkt (List.mem_cons_self ..)
          exact ⟨copied, inner, .inl ⟨starts,
            ih fun other among => plain other (List.mem_cons_of_mem _ among)⟩⟩
  | stream copied starts inner owned rest =>
      exact ⟨copied, inner, .inr ⟨starts, _, owned, flow_pages rest⟩⟩

/-! ## What is in flight -/

/-- The packet of a submission or of a completion that has not left its stream yet. -/
def flyingOf : Frame → Option TxPacket
  | .attach hand | .ringTx hand => some hand.pkt
  | .callback desc _ => some desc.pkt
  | .finishRawStream pkt => some pkt
  | _ => none

def Flying (st : St) (pkt : TxPacket) : Prop :=
  (∃ desc ∈ st.shared.ring, desc.pkt = pkt) ∨ ∃ frame, st.Has frame ∧ flyingOf frame = some pkt

def isCounted (pkt : TxPacket) : Nat := if pkt.rawStreamCounted then 1 else 0

def countedWeight (frame : Frame) : Nat := (flyingOf frame).elim 0 isCounted

def countedOf (p : Path) : Nat := (p.ring.map fun desc => isCounted desc.pkt).sum

/-- The stream that is open, beside what is in flight. -/
def Cursor (st : St) : Option Nat → Prop
  | some owner => st.shared.rawStream.active = true ∧ st.shared.rawStream.owner = some owner ∧
      st.shared.rawStream.endSeen = false ∧
      ∀ pkt, Flying st pkt → pkt.rawStreamCounted = true → pkt.rawStreamEnd = false
  | none => st.shared.rawStream.active = true → st.shared.rawStream.endSeen = true ∨
      ∃ pkt, Flying st pkt ∧ pkt.rawStreamCounted = true ∧ pkt.rawStreamEnd = true

structure Streams (st : St) : Prop where
  steady : ∀ frame, st.Has frame → steadyFrame frame = true
  control : ∀ pkt ∈ st.shared.txControlQueue, pkt.rawStreamCounted = false ∧
    pkt.rawStreamStart = false
  data : ∀ pkt ∈ st.shared.txDataQueue, pkt.rawStreamCounted = false
  balance : Balanced (fun p => p.rawStream.inflight) countedOf countedWeight st
  idle : st.shared.rawStream.active = false → st.shared.rawStream.inflight = 0
  owned : ∀ pkt, Flying st pkt → pkt.rawStreamCounted = true →
    st.shared.rawStream.active = true ∧ pkt.ownerCtx = st.shared.rawStream.owner
  ending : st.shared.rawStream.active = true → st.shared.rawStream.endSeen = true →
    st.shared.rawStream.inflight ≠ 0
  flow : ∃ cursor, Flow cursor st.shared.txDataQueue ∧ Cursor st cursor

/-! ## One step -/

inductive Streaming (p : Path) : Frame → Path → List Frame → Prop
  | still {frame : Frame} {p' : Path} {pushed : List Frame} (raw : p'.rawStream = p.rawStream)
      (control : p'.txControlQueue = p.txControlQueue) (data : p'.txDataQueue = p.txDataQueue)
      (ring : p'.ring = p.ring) (light : flyingOf frame = none)
      (none : ∀ other ∈ pushed, flyingOf other = none) : Streaming p frame p' pushed
  | takes {fromControlQueue : Bool} {pkt : TxPacket}
      (chosen : p.choose = some (fromControlQueue, pkt)) :
      Streaming p .iterate (p.dequeue fromControlQueue pkt).1
        [.attach (p.dequeue fromControlQueue pkt).2]
  | carries {frame next : Frame} {p' : Path} {pkt : TxPacket} {pushed : List Frame}
      (raw : p'.rawStream = p.rawStream) (control : p'.txControlQueue = p.txControlQueue)
      (data : p'.txDataQueue = p.txDataQueue) (ring : p'.ring = p.ring)
      (flies : flyingOf frame = some pkt) (further : flyingOf next = some pkt)
      (none : ∀ other ∈ pushed, flyingOf other = none) : Streaming p frame p' (next :: pushed)
  | submits (hand : Hand) : Streaming p (.ringTx hand)
      { p with ring := p.ring ++ [⟨hand.frame, hand.pkt⟩] } [.iterate]
  | finishes (pkt : TxPacket) : Streaming p (.finishRawStream pkt)
      { p with rawStream := p.rawStream.finish pkt } []

theorem exec_streaming {p p' : Path} {frame : Frame} {pushed : List Frame}
    (steady : steadyFrame frame = true)
    (finds : ∀ desc canceled, frame = .callback desc canceled → p.descPacket desc = some desc.pkt)
    (ran : exec p frame 0 = some (p', pushed)) : Streaming p frame p' pushed := by
  cases frame with
  | iterate =>
      rcases execIterate_cases ran with ⟨rfl, rfl⟩ | ⟨_, _, -, chosen, -, rfl, rfl⟩
      · exact .still rfl rfl rfl rfl rfl (by simp)
      · exact .takes chosen
  | attach hand =>
      simp only [exec, execAttach] at ran
      split at ran <;> cases ran <;> exact .carries rfl rfl rfl rfl rfl rfl (by simp)
  | ringTx hand =>
      simp only [exec, execRingTx, if_true] at ran
      split at ran <;> cases ran
      exact .submits hand
  | callback desc canceled =>
      have freed : (p.freeDesc desc).rawStream = p.rawStream ∧
          (p.freeDesc desc).txControlQueue = p.txControlQueue ∧
          (p.freeDesc desc).txDataQueue = p.txDataQueue ∧ (p.freeDesc desc).ring = p.ring := by
        unfold Path.freeDesc
        split <;> exact ⟨rfl, rfl, rfl, rfl⟩
      have found := finds desc canceled rfl
      rcases execCallback_cases ran with ⟨missing, -, -⟩ | ⟨pkt, is, rfl, rfl⟩
      · rw [found] at missing
        cases missing
      · rw [found] at is
        cases is
        exact .carries freed.1 freed.2.1 freed.2.2.1 freed.2.2.2 rfl rfl (by simp [flyingOf])
  | finishRawStream pkt =>
      cases ran
      exact .finishes pkt
  | schedule | inflightDec | release pkt status | completed pkt canceled =>
      simp only [exec] at ran
      repeat' split at ran
      all_goals cases ran
      all_goals exact .still rfl rfl rfl rfl rfl (by simp [flyingOf])
  | _ => cases steady

section Flight
variable {st : St} {thread : Nat} {frame : Frame} {rest pushed : List Frame} {p : Path}

theorem flying_before (found : st.threads[thread]? = some (frame :: rest)) {fresh : TxPacket → Prop}
    (ring : ∀ desc ∈ p.ring, desc ∈ st.shared.ring ∨ flyingOf frame = some desc.pkt)
    (news : ∀ other ∈ pushed, ∀ pkt, flyingOf other = some pkt →
      flyingOf frame = some pkt ∨ fresh pkt) {pkt : TxPacket}
    (flying : Flying ⟨p, st.threads.set thread (pushed ++ rest)⟩ pkt) : Flying st pkt ∨ fresh pkt := by
  have top := State.has_of_top found
  rcases flying with ⟨desc, among, rfl⟩ | ⟨other, has, is⟩
  · rcases ring desc among with old | this
    · exact .inl (.inl ⟨desc, old, rfl⟩)
    · exact .inl (.inr ⟨frame, top, this⟩)
  · rcases State.has_of_run found has with new | old
    · rcases news other new pkt is with this | fresh
      · exact .inl (.inr ⟨frame, top, this⟩)
      · exact .inr fresh
    · exact .inl (.inr ⟨other, old, is⟩)

theorem flying_after (found : st.threads[thread]? = some (frame :: rest)) {gone : TxPacket → Prop}
    (kept : ∀ desc ∈ st.shared.ring, desc ∈ p.ring)
    (moved : ∀ pkt, flyingOf frame = some pkt → (∃ desc ∈ p.ring, desc.pkt = pkt) ∨
      (∃ other ∈ pushed, flyingOf other = some pkt) ∨ gone pkt) {pkt : TxPacket}
    (flying : Flying st pkt) :
    Flying ⟨p, st.threads.set thread (pushed ++ rest)⟩ pkt ∨ gone pkt := by
  rcases flying with ⟨desc, among, rfl⟩ | ⟨other, has, is⟩
  · exact .inl (.inl ⟨desc, kept desc among, rfl⟩)
  · rcases State.has_after_run found has with rfl | still
    · rcases moved pkt is with ring | ⟨next, new, is⟩ | gone
      · exact .inl (.inl ring)
      · exact .inl (.inr ⟨next, State.has_of_pushed found new, is⟩)
      · exact .inr gone
    · exact .inl (.inr ⟨other, still, is⟩)

end Flight

/-- Nothing of the streams changes but what is queued behind them. -/
theorem Streams.same {st st' : St} (streams : Streams st)
    (steady : ∀ frame, st'.Has frame → steadyFrame frame = true)
    (raw : st'.shared.rawStream = st.shared.rawStream)
    (control : ∀ pkt ∈ st'.shared.txControlQueue, pkt.rawStreamCounted = false ∧
      pkt.rawStreamStart = false)
    (data : ∀ pkt ∈ st'.shared.txDataQueue, pkt.rawStreamCounted = false)
    (flow : ∀ cursor, Flow cursor st.shared.txDataQueue → Flow cursor st'.shared.txDataQueue)
    (flying : ∀ pkt, Flying st' pkt ↔ Flying st pkt)
    (balance : Balanced (fun p => p.rawStream.inflight) countedOf countedWeight st') :
    Streams st' := by
  refine ⟨steady, control, data, balance, ?_, ?_, ?_, ?_⟩
  · rw [raw]
    exact streams.idle
  · intro pkt flies
    rw [raw]
    exact streams.owned pkt ((flying pkt).mp flies)
  · rw [raw]
    exact streams.ending
  · obtain ⟨cursor, before, at_⟩ := streams.flow
    refine ⟨cursor, flow cursor before, ?_⟩
    cases cursor with
    | none =>
        intro active
        rw [raw] at active ⊢
        rcases at_ active with seen | ⟨pkt, flies, last⟩
        · exact .inl seen
        · exact .inr ⟨pkt, (flying pkt).mpr flies, last⟩
    | some owner =>
        obtain ⟨active, owned, unseen, inner⟩ := at_
        refine ⟨by rw [raw]; exact active, by rw [raw]; exact owned, by rw [raw]; exact unseen, ?_⟩
        exact fun pkt flies => inner pkt ((flying pkt).mp flies)

theorem weigh_countedWeight {pushed : List Frame} (none : ∀ other ∈ pushed, flyingOf other = none) :
    weigh countedWeight pushed = 0 :=
  weigh_eq_zero fun other among => by simp [countedWeight, none other among]

theorem counted_le {st : St} {pkt : TxPacket} (flying : Flying st pkt)
    (counted : pkt.rawStreamCounted = true) :
    1 ≤ countedOf st.shared + st.total countedWeight := by
  have one : isCounted pkt = 1 := by simp [isCounted, counted]
  rcases flying with ⟨desc, among, rfl⟩ | ⟨frame, has, is⟩
  · have below := @weight_le_weigh _ (fun desc : Desc => isCounted desc.pkt) _ _ among
    have same : weigh (fun desc : Desc => isCounted desc.pkt) st.shared.ring = countedOf st.shared := rfl
    omega
  · have below := State.weight_le_total countedWeight has
    simp only [countedWeight, is, Option.elim_some] at below
    omega

section Run
variable {st : St} {thread : Nat} {frame : Frame} {rest pushed : List Frame} {p : Path}

/-- The flight is the same before and after. -/
theorem Streams.moved (streams : Streams st) (found : st.threads[thread]? = some (frame :: rest))
    (steady : ∀ other ∈ pushed, steadyFrame other = true)
    (raw : p.rawStream = st.shared.rawStream) (control : p.txControlQueue = st.shared.txControlQueue)
    (data : p.txDataQueue = st.shared.txDataQueue)
    (ring : ∀ desc ∈ p.ring, desc ∈ st.shared.ring ∨ flyingOf frame = some desc.pkt)
    (kept : ∀ desc ∈ st.shared.ring, desc ∈ p.ring)
    (news : ∀ other ∈ pushed, ∀ pkt, flyingOf other = some pkt → flyingOf frame = some pkt)
    (onward : ∀ pkt, flyingOf frame = some pkt → (∃ desc ∈ p.ring, desc.pkt = pkt) ∨
      ∃ other ∈ pushed, flyingOf other = some pkt)
    (weights : countedOf st.shared + countedWeight frame =
      countedOf p + weigh countedWeight pushed) :
    Streams ⟨p, st.threads.set thread (pushed ++ rest)⟩ := by
  refine streams.same ?_ raw ?_ ?_ ?_ ?_ (streams.balance.run found ?_)
  · intro other has
    rcases State.has_of_run found has with new | old
    · exact steady other new
    · exact streams.steady other old
  · dsimp only
    rw [control]
    exact streams.control
  · dsimp only
    rw [data]
    exact streams.data
  · intro cursor
    dsimp only
    rw [data]
    exact id
  · intro pkt
    constructor
    · intro flies
      rcases @flying_before _ _ _ _ _ _ found (fun _ => False) ring
        (fun other among pkt is => .inl (news other among pkt is)) _ flies with before | never
      · exact before
      · exact never.elim
    · intro flies
      rcases @flying_after _ _ _ _ _ _ found (fun _ => False) kept
        (fun pkt is => (onward pkt is).imp_right .inl) _ flies with after | never
      · exact after
      · exact never.elim
  · rw [raw]
    omega

end Run

/-! ### A dequeue -/

theorem count_start {raw : RawStream} {pkt : TxPacket} (starts : pkt.rawStreamStart = true) :
    raw.count pkt = (⟨true, pkt.ownerCtx, false, 1⟩, { pkt with rawStreamCounted := true }) := by
  simp [RawStream.count, starts]

theorem count_page {raw : RawStream} {pkt : TxPacket} (plain : pkt.rawStreamStart = false)
    (active : raw.active = true) (owned : pkt.ownerCtx = raw.owner) :
    raw.count pkt = ({ raw with inflight := raw.inflight + 1 },
      { pkt with rawStreamCounted := true }) := by
  simp [RawStream.count, plain, active, owned]

theorem count_plain {raw : RawStream} {pkt : TxPacket} (plain : pkt.rawStreamStart = false)
    (inactive : raw.active = false) : raw.count pkt = (raw, pkt) := by
  simp [RawStream.count, plain, inactive]

theorem choose_active {p : Path} {fromControlQueue : Bool} {pkt : TxPacket}
    (active : p.rawStream.active = true) (chosen : p.choose = some (fromControlQueue, pkt)) :
    fromControlQueue = false ∧ pkt.zcopy = true ∧ pkt.rawStreamStart = false ∧
      pkt.ownerCtx = p.rawStream.owner ∧ ∃ rest, p.txDataQueue = pkt :: rest := by
  simp only [Path.choose, active, if_true] at chosen
  split at chosen
  · cases chosen
  · rename_i queue
    split at chosen <;> cases chosen
    rename_i page
    simp only [Bool.or_eq_true, Bool.not_eq_true', bne_iff_ne, ne_eq, not_or, Bool.not_eq_false,
      Bool.not_eq_true, not_not] at page
    exact ⟨rfl, page.1.1, page.1.2, page.2, _, queue⟩

section Dequeue
variable {st : St} {thread : Nat} {rest : List Frame} {p : Path} {hand : Hand}

/-- What a dequeue leaves beside its raw stream and the data queue. -/
structure Taken (p : Path) (hand : Hand) (st : St) (thread : Nat) (rest : List Frame) : Prop where
  found : st.threads[thread]? = some (.iterate :: rest)
  ring : p.ring = st.shared.ring
  control : ∀ other ∈ p.txControlQueue, other ∈ st.shared.txControlQueue

theorem Taken.before (taken : Taken p hand st thread rest) {other : TxPacket}
    (flies : Flying ⟨p, st.threads.set thread ([.attach hand] ++ rest)⟩ other) :
    Flying st other ∨ other = hand.pkt := by
  refine @flying_before _ _ _ _ _ _ taken.found (fun pkt => pkt = hand.pkt)
    (fun desc among => .inl (taken.ring ▸ among)) ?_ _ flies
  intro next among pkt is
  cases List.mem_singleton.mp among
  cases is
  exact .inr rfl

theorem Taken.here (taken : Taken p hand st thread rest) :
    Flying ⟨p, st.threads.set thread ([.attach hand] ++ rest)⟩ hand.pkt :=
  .inr ⟨.attach hand, State.has_of_pushed taken.found (List.mem_singleton_self _), rfl⟩

theorem Streams.taken (streams : Streams st) (taken : Taken p hand st thread rest)
    (data : ∀ other ∈ p.txDataQueue, other ∈ st.shared.txDataQueue)
    (weights : p.rawStream.inflight = st.shared.rawStream.inflight + isCounted hand.pkt)
    (idle : p.rawStream.active = false → p.rawStream.inflight = 0)
    (old : ∀ pkt, Flying st pkt → pkt.rawStreamCounted = true →
      p.rawStream.active = true ∧ pkt.ownerCtx = p.rawStream.owner)
    (new : hand.pkt.rawStreamCounted = true →
      p.rawStream.active = true ∧ hand.pkt.ownerCtx = p.rawStream.owner)
    (ending : p.rawStream.active = true → p.rawStream.endSeen = true → p.rawStream.inflight ≠ 0)
    (flow : ∃ cursor, Flow cursor p.txDataQueue ∧
      Cursor ⟨p, st.threads.set thread ([.attach hand] ++ rest)⟩ cursor) :
    Streams ⟨p, st.threads.set thread ([.attach hand] ++ rest)⟩ where
  steady := by
    intro other has
    rcases State.has_of_run taken.found has with new | old
    · cases List.mem_singleton.mp new
      rfl
    · exact streams.steady other old
  control := fun pkt among => streams.control pkt (taken.control pkt among)
  data := fun pkt among => streams.data pkt (data pkt among)
  balance := by
    refine streams.balance.run taken.found ?_
    have same : countedOf p = countedOf st.shared := by
      unfold countedOf
      rw [taken.ring]
    have none : countedWeight .iterate = 0 := rfl
    have one : weigh countedWeight [.attach hand] = isCounted hand.pkt := rfl
    omega
  idle := idle
  owned := by
    intro pkt flies counted
    rcases taken.before flies with before | rfl
    · exact old pkt before counted
    · exact new counted
  ending := ending
  flow := flow

end Dequeue

section Dequeue
variable {st : St} {thread : Nat} {rest : List Frame} {fromControlQueue : Bool} {pkt : TxPacket}

theorem Streams.takes_page (streams : Streams st)
    (chosen : st.shared.choose = some (fromControlQueue, pkt))
    (active : st.shared.rawStream.active = true) {p : Path} {hand : Hand}
    (taken : Taken p hand st thread rest)
    (raw : p.rawStream = (st.shared.rawStream.count { pkt with startCreditGroupFrames := 0 }).1)
    (holds : hand.pkt = (st.shared.rawStream.count { pkt with startCreditGroupFrames := 0 }).2)
    (queue : p.txDataQueue = if fromControlQueue then st.shared.txDataQueue
      else st.shared.txDataQueue.tail) :
    Streams ⟨p, st.threads.set thread ([.attach hand] ++ rest)⟩ := by
  obtain ⟨rfl, zcopy, plain, owned, later, before⟩ := choose_active active chosen
  rw [@count_page _ { pkt with startCreditGroupFrames := 0 } plain active owned] at raw holds
  simp only [before, List.tail_cons, Bool.false_eq_true, if_false] at queue
  have active' : p.rawStream.active = true := by
    rw [raw]
    exact active
  have owner' : p.rawStream.owner = st.shared.rawStream.owner := by rw [raw]
  have counted : hand.pkt.rawStreamCounted = true := by rw [holds]
  have one : p.rawStream.inflight = st.shared.rawStream.inflight + 1 := by rw [raw]
  refine streams.taken taken ?_ ?_ ?_ ?_ ?_ ?_ ?_
  · rw [queue, before]
    exact fun other among => List.mem_cons_of_mem _ among
  · simp [one, isCounted, counted]
  · rw [active']
    nofun
  · intro other flies is
    exact ⟨active', owner' ▸ (streams.owned other flies is).2⟩
  · intro _
    refine ⟨active', ?_⟩
    rw [holds, owner']
    exact owned
  · intro _ _
    omega
  · obtain ⟨cursor, flow, at_⟩ := streams.flow
    rw [before] at flow
    rw [queue]
    cases cursor with
    | none =>
        rw [flow.1] at zcopy
        cases zcopy
    | some owner =>
        obtain ⟨-, ownerIs, unseen, inner⟩ := at_
        rcases flow.2.2.2 with ⟨last, further⟩ | ⟨middle, further⟩
        · refine ⟨none, further, fun _ => .inr ⟨hand.pkt, taken.here, counted, ?_⟩⟩
          rw [holds]
          exact last
        · refine ⟨some owner, further, active', owner' ▸ ownerIs, ?_, ?_⟩
          · rw [raw]
            exact unseen
          · intro other flies is
            rcases taken.before flies with before | rfl
            · exact inner other before is
            · rw [holds]
              exact middle

/-- With no stream open, a packet that starts none is not counted. -/
theorem Streams.takes_plain (streams : Streams st)
    (chosen : st.shared.choose = some (fromControlQueue, pkt))
    (inactive : st.shared.rawStream.active = false) (plain : pkt.rawStreamStart = false)
    (fresh : pkt.rawStreamCounted = false) {p : Path} {hand : Hand}
    (taken : Taken p hand st thread rest)
    (raw : p.rawStream = (st.shared.rawStream.count { pkt with startCreditGroupFrames := 0 }).1)
    (holds : hand.pkt = (st.shared.rawStream.count { pkt with startCreditGroupFrames := 0 }).2)
    (queue : p.txDataQueue = if fromControlQueue then st.shared.txDataQueue
      else st.shared.txDataQueue.tail) :
    Streams ⟨p, st.threads.set thread ([.attach hand] ++ rest)⟩ := by
  rw [@count_plain _ { pkt with startCreditGroupFrames := 0 } plain inactive] at raw holds
  have uncounted : hand.pkt.rawStreamCounted = false := by
    rw [holds]
    exact fresh
  have inactive' : p.rawStream.active = false := by
    rw [raw]
    exact inactive
  refine streams.taken taken ?_ ?_ ?_ ?_ ?_ ?_ ?_
  · rw [queue]
    split
    · exact fun other among => among
    · exact fun other among => List.mem_of_mem_tail among
  · simp [raw, isCounted, uncounted]
  · rw [raw]
    exact streams.idle
  · rw [raw]
    exact streams.owned
  · rw [uncounted]
    nofun
  · rw [raw]
    exact streams.ending
  · obtain ⟨cursor, flow, at_⟩ := streams.flow
    cases cursor with
    | some owner =>
        have active := at_.1
        rw [inactive] at active
        cases active
    | none =>
        refine ⟨none, ?_, fun active => ?_⟩
        · rcases choose_cases chosen with ⟨rfl, -⟩ | ⟨rfl, later, before⟩
          · rw [queue]
            exact flow
          · rw [before] at flow
            simp only [before, List.tail_cons, Bool.false_eq_true, if_false] at queue
            rw [queue]
            rcases flow.2.2 with further | starts
            · exact further.2
            · rw [starts.1] at plain
              cases plain
        · dsimp only at active
          rw [inactive'] at active
          cases active

theorem Streams.takes_first (streams : Streams st)
    (chosen : st.shared.choose = some (fromControlQueue, pkt))
    (inactive : st.shared.rawStream.active = false) (starts : pkt.rawStreamStart = true)
    {p : Path} {hand : Hand} (taken : Taken p hand st thread rest)
    (raw : p.rawStream = (st.shared.rawStream.count { pkt with startCreditGroupFrames := 0 }).1)
    (holds : hand.pkt = (st.shared.rawStream.count { pkt with startCreditGroupFrames := 0 }).2)
    (queue : p.txDataQueue = if fromControlQueue then st.shared.txDataQueue
      else st.shared.txDataQueue.tail) :
    Streams ⟨p, st.threads.set thread ([.attach hand] ++ rest)⟩ := by
  rw [@count_start _ { pkt with startCreditGroupFrames := 0 } starts] at raw holds
  have none : ∀ other, Flying st other → other.rawStreamCounted = true → False := by
    intro other flies is
    have active := (streams.owned other flies is).1
    rw [inactive] at active
    cases active
  have zero := streams.idle inactive
  have before : ∃ later, fromControlQueue = false ∧ st.shared.txDataQueue = pkt :: later := by
    rcases choose_cases chosen with ⟨rfl, -, later, is⟩ | ⟨rfl, later, is⟩
    · have := (streams.control pkt (by rw [is]; exact List.mem_cons_self ..)).2
      rw [starts] at this
      cases this
    · exact ⟨later, rfl, is⟩
  obtain ⟨later, rfl, before⟩ := before
  simp only [before, List.tail_cons, Bool.false_eq_true, if_false] at queue
  refine streams.taken taken ?_ ?_ ?_ ?_ ?_ ?_ ?_
  · rw [queue, before]
    exact fun other among => List.mem_cons_of_mem _ among
  · simp [raw, holds, isCounted, zero]
  · rw [raw]
    nofun
  · exact fun other flies is => (none other flies is).elim
  · intro _
    rw [raw, holds]
    exact ⟨rfl, rfl⟩
  · rw [raw]
    nofun
  · obtain ⟨cursor, flow, at_⟩ := streams.flow
    rw [before] at flow
    cases cursor with
    | some owner =>
        rw [flow.2.1] at starts
        cases starts
    | none =>
        obtain ⟨-, inner, plain | ⟨-, owner, owned, further⟩⟩ := flow
        · rw [plain.1] at starts
          cases starts
        · refine ⟨some owner, by rw [queue]; exact further, ?_⟩
          rw [Cursor]
          dsimp only
          rw [raw]
          refine ⟨rfl, owned, rfl, ?_⟩
          intro other flies is
          rcases taken.before flies with before | rfl
          · exact (none other before is).elim
          · rw [holds]
            exact inner

theorem Streams.takes (streams : Streams st) (found : st.threads[thread]? = some (.iterate :: rest))
    (chosen : st.shared.choose = some (fromControlQueue, pkt)) :
    Streams ⟨(st.shared.dequeue fromControlQueue pkt).1,
      st.threads.set thread ([.attach (st.shared.dequeue fromControlQueue pkt).2] ++ rest)⟩ := by
  have taken : Taken (st.shared.dequeue fromControlQueue pkt).1
      (st.shared.dequeue fromControlQueue pkt).2 st thread rest := by
    refine ⟨found, rfl, ?_⟩
    simp only [Path.dequeue]
    split
    · exact fun other among => List.mem_of_mem_tail among
    · exact fun other among => among
  have fresh : pkt.rawStreamCounted = false := by
    rcases choose_cases chosen with ⟨-, -, later, is⟩ | ⟨-, later, is⟩
    · exact (streams.control pkt (by rw [is]; exact List.mem_cons_self ..)).1
    · exact streams.data pkt (by rw [is]; exact List.mem_cons_self ..)
  cases active : st.shared.rawStream.active with
  | true => exact streams.takes_page chosen active taken rfl rfl rfl
  | false =>
      cases starts : pkt.rawStreamStart with
      | true => exact streams.takes_first chosen active starts taken rfl rfl rfl
      | false => exact streams.takes_plain chosen active starts fresh taken rfl rfl rfl

end Dequeue

/-! ### A completion leaves its stream -/

theorem finish_uncounted {raw : RawStream} {pkt : TxPacket} (plain : pkt.rawStreamCounted = false) :
    raw.finish pkt = raw := by
  simp [RawStream.finish, plain]

theorem finish_counted {raw : RawStream} {pkt : TxPacket} (counted : pkt.rawStreamCounted = true)
    (active : raw.active = true) (owned : pkt.ownerCtx = raw.owner) :
    raw.finish pkt = if (pkt.rawStreamEnd || raw.endSeen) && raw.inflight - 1 == 0 then {}
      else { raw with inflight := raw.inflight - 1, endSeen := pkt.rawStreamEnd || raw.endSeen } := by
  simp only [RawStream.finish, counted, owned, Bool.not_true, Bool.false_eq_true, if_false,
    BEq.rfl, if_true]
  split
  · rfl
  · simp only [active]

section Finish
variable {st : St} {thread : Nat} {rest : List Frame} {pkt : TxPacket} {p : Path}

/-- What a completion leaves beside the raw stream. -/
structure Left (p : Path) (pkt : TxPacket) (st : St) (thread : Nat) (rest : List Frame) : Prop where
  found : st.threads[thread]? = some (.finishRawStream pkt :: rest)
  raw : p.rawStream = st.shared.rawStream.finish pkt
  control : p.txControlQueue = st.shared.txControlQueue
  data : p.txDataQueue = st.shared.txDataQueue
  ring : p.ring = st.shared.ring

theorem Left.here (left : Left p pkt st thread rest) : Flying st pkt :=
  .inr ⟨_, State.has_of_top left.found, rfl⟩

theorem Left.before (left : Left p pkt st thread rest) {other : TxPacket}
    (flies : Flying ⟨p, st.threads.set thread ([] ++ rest)⟩ other) : Flying st other := by
  rcases @flying_before _ _ _ _ _ _ left.found (fun _ => False)
    (fun desc among => .inl (left.ring ▸ among)) (by simp) _ flies with old | never
  · exact old
  · exact never.elim

theorem Left.after (left : Left p pkt st thread rest) {other : TxPacket}
    (flies : Flying st other) :
    Flying ⟨p, st.threads.set thread ([] ++ rest)⟩ other ∨ other = pkt := by
  refine @flying_after _ _ _ _ [] p left.found (fun other => other = pkt)
    (fun desc among => left.ring ▸ among) ?_ _ flies
  intro gone is
  cases is
  exact .inr (.inr rfl)

theorem Left.some_inflight (left : Left p pkt st thread rest) (streams : Streams st)
    (counted : pkt.rawStreamCounted = true) : 1 ≤ st.shared.rawStream.inflight := by
  have below := counted_le left.here counted
  have balance : st.shared.rawStream.inflight = _ := streams.balance
  omega

theorem Left.balance (left : Left p pkt st thread rest) (streams : Streams st) :
    Balanced (fun p => p.rawStream.inflight) countedOf countedWeight
      ⟨p, st.threads.set thread ([] ++ rest)⟩ := by
  have inflight : p.rawStream.inflight + isCounted pkt = st.shared.rawStream.inflight := by
    cases counted : pkt.rawStreamCounted with
    | false => simp [left.raw, finish_uncounted counted, isCounted, counted]
    | true =>
        have one := left.some_inflight streams counted
        obtain ⟨active, owned⟩ := streams.owned pkt left.here counted
        rw [left.raw, finish_counted counted active owned]
        simp only [isCounted, counted, if_true]
        split
        · rename_i last
          simp only [Bool.and_eq_true, beq_iff_eq] at last
          change 0 + 1 = _
          omega
        · change _ - 1 + 1 = _
          omega
  refine streams.balance.run left.found ?_
  have same : countedOf p = countedOf st.shared := by
    unfold countedOf
    rw [left.ring]
  have weight : countedWeight (.finishRawStream pkt) = isCounted pkt := rfl
  simp only [weigh_nil]
  omega

/-- The rest of the invariant, once the raw stream after the completion is known. -/
theorem Streams.left (streams : Streams st) (left : Left p pkt st thread rest)
    (idle : p.rawStream.active = false → p.rawStream.inflight = 0)
    (owned : ∀ other, Flying ⟨p, st.threads.set thread ([] ++ rest)⟩ other →
      other.rawStreamCounted = true →
      p.rawStream.active = true ∧ other.ownerCtx = p.rawStream.owner)
    (ending : p.rawStream.active = true → p.rawStream.endSeen = true → p.rawStream.inflight ≠ 0)
    (at_ : ∀ cursor, Cursor st cursor → Cursor ⟨p, st.threads.set thread ([] ++ rest)⟩ cursor) :
    Streams ⟨p, st.threads.set thread ([] ++ rest)⟩ where
  steady := by
    intro frame has
    rcases State.has_of_run left.found has with new | old
    · cases new
    · exact streams.steady frame old
  control := left.control ▸ streams.control
  data := left.data ▸ streams.data
  balance := left.balance streams
  idle := idle
  owned := owned
  ending := ending
  flow := by
    obtain ⟨cursor, flow, was⟩ := streams.flow
    exact ⟨cursor, left.data ▸ flow, at_ cursor was⟩

theorem Streams.left_closed (streams : Streams st) (left : Left p pkt st thread rest)
    (counted : pkt.rawStreamCounted = true)
    (last : (pkt.rawStreamEnd || st.shared.rawStream.endSeen) = true)
    (closed : p.rawStream = {}) : Streams ⟨p, st.threads.set thread ([] ++ rest)⟩ := by
  refine streams.left left ?_ ?_ ?_ ?_
  · rw [closed]
    exact fun _ => rfl
  · intro other flies is
    have below := counted_le flies is
    have balance : p.rawStream.inflight = _ := left.balance streams
    rw [closed] at balance
    change 0 = _ at balance
    omega
  · rw [closed]
    nofun
  · intro cursor at_
    cases cursor with
    | none =>
        intro active
        dsimp only at active
        rw [closed] at active
        cases active
    | some owner =>
        obtain ⟨-, -, unseen, inner⟩ := at_
        rw [unseen, inner pkt left.here counted] at last
        cases last

theorem Streams.left_open (streams : Streams st) (left : Left p pkt st thread rest)
    (counted : pkt.rawStreamCounted = true) (active : st.shared.rawStream.active = true)
    (more : ¬((pkt.rawStreamEnd || st.shared.rawStream.endSeen) &&
      st.shared.rawStream.inflight - 1 == 0) = true)
    (is : p.rawStream = { st.shared.rawStream with
      inflight := st.shared.rawStream.inflight - 1
      endSeen := pkt.rawStreamEnd || st.shared.rawStream.endSeen }) :
    Streams ⟨p, st.threads.set thread ([] ++ rest)⟩ := by
  have active' : p.rawStream.active = true := by
    rw [is]
    exact active
  have owner' : p.rawStream.owner = st.shared.rawStream.owner := by rw [is]
  have seen' : p.rawStream.endSeen = (pkt.rawStreamEnd || st.shared.rawStream.endSeen) := by rw [is]
  refine streams.left left ?_ ?_ ?_ ?_
  · rw [active']
    nofun
  · intro other flies isCounted
    exact ⟨active', owner' ▸ (streams.owned other (left.before flies) isCounted).2⟩
  · intro _ seen none
    rw [seen'] at seen
    rw [is] at none
    dsimp only at none
    exact more (by simp [seen, none])
  · intro cursor at_
    cases cursor with
    | none =>
        intro _
        dsimp only
        rw [seen']
        rcases at_ active with seen | ⟨other, flies, is, last⟩
        · exact .inl (by simp [seen])
        · rcases left.after flies with after | rfl
          · exact .inr ⟨other, after, is, last⟩
          · exact .inl (by simp [last])
    | some owner =>
        obtain ⟨-, owned, unseen, inner⟩ := at_
        refine ⟨active', owner' ▸ owned, ?_, ?_⟩
        · dsimp only
          rw [seen', unseen, inner pkt left.here counted]
          rfl
        · exact fun other flies => inner other (left.before flies)

theorem Streams.finishes (streams : Streams st) (left : Left p pkt st thread rest) :
    Streams ⟨p, st.threads.set thread ([] ++ rest)⟩ := by
  have raw := left.raw
  cases counted : pkt.rawStreamCounted with
  | true =>
      obtain ⟨active, owned⟩ := streams.owned pkt left.here counted
      rw [finish_counted counted active owned] at raw
      split at raw
      · rename_i last
        simp only [Bool.and_eq_true] at last
        exact streams.left_closed left counted last.1 raw
      · rename_i more
        exact streams.left_open left counted active more raw
  | false =>
      rw [finish_uncounted counted] at raw
      refine streams.left left ?_ ?_ ?_ ?_
      · rw [raw]
        exact streams.idle
      · intro other flies
        rw [raw]
        exact streams.owned other (left.before flies)
      · rw [raw]
        exact streams.ending
      · intro cursor at_
        cases cursor with
        | none =>
            intro active
            dsimp only at active ⊢
            rw [raw] at active ⊢
            rcases at_ active with seen | ⟨other, flies, is, last⟩
            · exact .inl seen
            · rcases left.after flies with after | rfl
              · exact .inr ⟨other, after, is, last⟩
              · rw [is] at counted
                cases counted
        | some owner =>
            obtain ⟨active, owned, unseen, inner⟩ := at_
            exact ⟨raw ▸ active, raw ▸ owned, raw ▸ unseen,
              fun other flies => inner other (left.before flies)⟩

end Finish

/-! ## Every step -/

section Step
variable {st st' : St} {label : Lbl}

theorem steadyFrame_releases {pkts : List TxPacket} {status : Int} :
    ∀ frame ∈ releases pkts status, steadyFrame frame = true := by
  intro frame among
  obtain ⟨pkt, -, rfl⟩ := List.mem_map.mp among
  rfl

theorem reactPageStream_steadyFrame {p p' : Path} {s : PageStream} {code : List Frame}
    (reacted : reactPageStream p s = some (p', code)) :
    ∀ frame ∈ code, steadyFrame frame = true := by
  simp only [reactPageStream] at reacted
  split at reacted
  · split at reacted <;> cases reacted
    simp [steadyFrame]
  · simp only [Option.map_eq_some_iff] at reacted
    obtain ⟨prepared, -, made⟩ := reacted
    split at made
    · cases made
      intro frame among
      rcases List.mem_cons.mp among with rfl | later
      · rfl
      · exact steadyFrame_releases frame later
    · split at made
      · cases made
        exact steadyFrame_releases
      · split at made <;> cases made
        · simp [steadyFrame]
        · exact steadyFrame_releases

theorem react_steadyFrame {event : Event} {p p' : Path} {code : List Frame}
    (steady : Steady st (.event event)) (reacted : react p event = some (p', code)) :
    ∀ frame ∈ code, steadyFrame frame = true := by
  cases event with
  | sendPageStream s => exact reactPageStream_steadyFrame reacted
  | cancel m | cancelQueued | ringStop | destroy => exact steady.elim
  | _ =>
      simp only [react, Path.send] at reacted
      repeat' split at reacted
      all_goals cases reacted
      all_goals simp [steadyFrame]

/-- What an event starts to retire was on the ring. -/
theorem reacts_flyingOf {p p' : Path} {code : List Frame} (reacts : Reacts p p' code) :
    ∀ frame ∈ code, flyingOf frame = (attachedAs frame).map Desc.pkt := by
  cases reacts with
  | fail ids fresh each error =>
      intro frame among
      obtain ⟨call, -, rfl⟩ := List.mem_map.mp among
      rfl
  | _ => simp [flyingOf, attachedAs]

theorem flying_event {p : Path} {code : List Frame} (reacts : Reacts st.shared p code)
    (pkt : TxPacket) : Flying ⟨p, st.threads ++ [code]⟩ pkt ↔ Flying st pkt := by
  obtain ⟨-, ring, started, kept⟩ := reacts_attached reacts
  have flies := reacts_flyingOf reacts
  constructor
  · rintro (⟨desc, among, rfl⟩ | ⟨frame, has, is⟩)
    · exact .inl ⟨desc, ring desc among, rfl⟩
    · rcases State.has_of_event has with new | old
      · rw [flies frame new, Option.map_eq_some_iff] at is
        obtain ⟨desc, isDesc, rfl⟩ := is
        exact .inl ⟨desc, started frame new desc isDesc, rfl⟩
      · exact .inr ⟨frame, old, is⟩
  · rintro (⟨desc, among, rfl⟩ | ⟨frame, ⟨stack, inside, standing⟩, is⟩)
    · rcases kept desc among with still | ⟨frame, new, is⟩
      · exact .inl ⟨desc, still, rfl⟩
      · exact .inr ⟨frame, ⟨code, by simp, new⟩, by rw [flies frame new, is]; rfl⟩
    · exact .inr ⟨frame, ⟨stack, List.mem_append_left _ inside, standing⟩, is⟩

theorem reacts_counted {p p' : Path} {code : List Frame} (reacts : Reacts p p' code) :
    p'.rawStream = p.rawStream ∧ countedOf p = countedOf p' + weigh countedWeight code := by
  cases reacts with
  | fail ids fresh each error =>
      exact ⟨rfl, by rw [weigh_calls_zero fun _ _ => rfl]; rfl⟩
  | retire canceled found =>
      have moved := sum_eraseIdx (fun desc => isCounted desc.pkt) found
      refine ⟨rfl, ?_⟩
      simp only [countedOf, weigh_cons, weigh_nil, countedWeight, flyingOf, Option.elim_some]
      omega
  | _ => exact ⟨rfl, rfl⟩

theorem Streams.queues (streams : Streams st) {p : Path} {code : List Frame}
    (reacts : Reacts st.shared p code) :
    (∀ pkt ∈ p.txControlQueue, pkt.rawStreamCounted = false ∧ pkt.rawStreamStart = false) ∧
    (∀ pkt ∈ p.txDataQueue, pkt.rawStreamCounted = false) ∧
    ∀ cursor, Flow cursor st.shared.txDataQueue → Flow cursor p.txDataQueue := by
  cases reacts with
  | @sendControl pkt ids fresh copied plain admits =>
      refine ⟨fun other among => ?_, streams.data, fun cursor flow => flow⟩
      rcases List.mem_append.mp among with old | new
      · exact streams.control other old
      · cases List.mem_singleton.mp new
        have uncounted := congrArg TxPacket.rawStreamCounted (fresh pkt new).2
        exact ⟨uncounted.symm, plain⟩
  | @sendData pkts queued reserved ids fresh group same uncounted admits room =>
      refine ⟨streams.control, fun other among => ?_, fun cursor flow => ?_⟩
      · rcases List.mem_append.mp among with old | new
        · exact streams.data other old
        · exact uncounted other new
      · refine flow_append flow (flow_core.mp ?_)
        rw [same]
        exact flow_group group
  | _ => exact ⟨streams.control, streams.data, fun cursor flow => flow⟩

theorem Streams.event (streams : Streams st) {event : Event} (steady : Steady st (.event event))
    {p : Path} {code : List Frame} (reacted : react st.shared event = some (p, code)) :
    Streams ⟨p, st.threads ++ [code]⟩ := by
  have reacts := react_cases reacted
  obtain ⟨raw, counted⟩ := reacts_counted reacts
  obtain ⟨control, data, flow⟩ := streams.queues reacts
  refine streams.same ?_ raw control data flow (flying_event reacts) (streams.balance.event ?_)
  · intro frame has
    rcases State.has_of_event has with new | old
    · exact react_steadyFrame steady reacted frame new
    · exact streams.steady frame old
  · rw [raw]
    omega

theorem Streams.run (streams : Streams st) (table : Table st) {thread : Nat} {frame : Frame}
    {rest pushed : List Frame} {p : Path} (found : st.threads[thread]? = some (frame :: rest))
    (ran : exec st.shared frame 0 = some (p, pushed)) :
    Streams ⟨p, st.threads.set thread (pushed ++ rest)⟩ := by
  have has := State.has_of_top found
  have steady := exec_steadyFrame (streams.steady frame has) ran
  have streaming := exec_streaming (streams.steady frame has) (by
    rintro desc canceled rfl
    exact table.finds desc (.inr ⟨_, has, rfl⟩)) ran
  cases streaming with
  | still raw control data ring light none =>
      refine streams.moved found steady raw control data (fun desc among => .inl (ring ▸ among))
        (fun desc among => ring ▸ among) ?_ ?_ ?_
      · intro other among pkt is
        rw [none other among] at is
        cases is
      · intro pkt is
        rw [light] at is
        cases is
      · simp only [countedOf, ring, weigh_countedWeight none, countedWeight, light, Option.elim_none]
  | takes chosen => exact streams.takes found chosen
  | @carries _ next _ pkt pushed raw control data ring flies further none =>
      refine streams.moved found steady raw control data (fun desc among => .inl (ring ▸ among))
        (fun desc among => ring ▸ among) ?_ ?_ ?_
      · intro other among pkt is
        rcases List.mem_cons.mp among with rfl | later
        · rw [flies, ← further, is]
        · rw [none other later] at is
          cases is
      · intro pkt is
        refine .inr ⟨next, List.mem_cons_self .., ?_⟩
        rw [further, ← flies, is]
      · simp only [countedOf, ring, weigh_cons, weigh_countedWeight none, countedWeight, flies,
          further, Option.elim_some, Nat.add_zero]
  | submits hand =>
      refine streams.moved found steady rfl rfl rfl ?_ ?_ ?_ ?_ ?_
      · intro desc among
        rcases List.mem_append.mp among with old | new
        · exact .inl old
        · cases List.mem_singleton.mp new
          exact .inr rfl
      · exact fun desc among => List.mem_append_left _ among
      · intro other among pkt is
        cases List.mem_singleton.mp among
        cases is
      · intro pkt is
        cases is
        exact .inl ⟨_, List.mem_append_right _ (List.mem_singleton_self _), rfl⟩
      · simp [countedOf, countedWeight, flyingOf]
  | finishes pkt => exact streams.finishes ⟨found, rfl, rfl, rfl, rfl⟩

theorem Streams.step (streams : Streams st) (table : Table st) (steady : Steady st label)
    (stepped : step st label = some st') : Streams st' := by
  cases label with
  | event event =>
      obtain ⟨p, code, reacted, rfl⟩ := step_event stepped
      exact streams.event steady reacted
  | run thread ret =>
      obtain ⟨frame, rest, p, pushed, found, executed, rfl⟩ := step_run stepped
      cases steady
      exact streams.run table found executed

end Step

theorem streams_start (cfg : Config) : Streams (start cfg) where
  steady := by
    rintro frame ⟨stack, among, -⟩
    cases among
  control := fun pkt among => absurd among List.not_mem_nil
  data := fun pkt among => absurd among List.not_mem_nil
  balance := rfl
  idle := fun _ => rfl
  owned := by
    rintro pkt (⟨desc, among, -⟩ | ⟨frame, ⟨stack, among, -⟩, -⟩) <;> cases among
  ending := by nofun
  flow := ⟨none, trivial, by nofun⟩

end Tbv.Tx
