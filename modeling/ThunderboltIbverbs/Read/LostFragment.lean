import ThunderboltIbverbs.Read.Response

/-! # One lost fragment of a read response

Every fragment behind the gap is answered with its own RETRY, and every RETRY makes the
worker resend the whole response at once.  Four of them can spend the retries before the
first resent fragment has arrived.  As long as the worker does not find the response
expired with three retransmissions on their way, the response is never dropped: once one
of them has arrived, it is acknowledged. -/
set_option autoImplicit false
namespace Tbv.ReadQueue

open Tbv.NativeData
open Trans

/-- When the response has been resent three times, the worker finds it expired only once
every frame sent, and every acknowledgement for them, has arrived. -/
def LostFragment.Spaced (link : LostFragment) (s : Exchange) : ExchangeEvent → Prop
  | .reap late => link.expired s late = true →
      s.transmissions ≤ readRespMaxRetries ∨ s.data = [] ∧ s.acks = []
  | _ => True

instance (link : LostFragment) (s : Exchange) (event : ExchangeEvent) :
    Decidable (link.Spaced s event) := by
  cases event <;> unfold LostFragment.Spaced <;> infer_instance

/-! ## What the requester holds -/

/-- The fragment is in the prefix or kept above it, or the read has completed. -/
def Requester.Holds (q : Requester) (read : PostedRead) (frag : Nat) : Prop :=
  ∀ ctx, q.findRead read.psn = some ctx → frag * maxPayload < ctx.received ∨
    ∃ stored ∈ ctx.respFrags, stored.offset = frag * maxPayload

section Solo
variable {link : LostFragment} {q next : Requester} {ctx : ReadCtx}
    {done readsBefore readsAfter : List PostedRead} {before after : List ReadCtx}

/-- The one read of the QP is alone on the list. -/
theorem Placed.solo
    (place : Placed link.reads q link.read ctx done readsBefore readsAfter before after) :
    before = [] ∧ after = [] := by
  have list : [link.read] = done ++ (readsBefore ++ link.read :: readsAfter) := place.list
  have lengths := congrArg List.length list
  simp only [List.length_append, List.length_cons, List.length_nil] at lengths
  have one := place.allBefore.length_eq
  have two := place.allAfter.length_eq
  exact ⟨List.eq_nil_of_length_eq_zero (by omega), List.eq_nil_of_length_eq_zero (by omega)⟩

/-- A pending read does not hold the fragment its prefix ends at. -/
theorem Assembled.some_not_held (inv : Assembled link.reads q)
    (found : q.findRead link.read.psn = some ctx) :
    ∃ frag < responseCount link.read.total, ¬ q.Holds link.read frag := by
  obtain ⟨_, _, _, before, after, place⟩ := inv.placed (List.mem_singleton.mpr rfl) found
  have state := place.state
  have part : ctx.received < link.read.total := by
    have pending := place.pending
    rw [place.solo.1, place.solo.2] at pending
    have notReady := inv.head ctx (by rw [pending]; rfl)
    have within := state.within
    have ready := state.ready
    rw [notReady] at ready
    have : ctx.received ≠ link.read.total := by simpa using ready
    omega
  have aligned : ctx.received % maxPayload = 0 := by
    rcases state.aligned with whole | aligned
    · omega
    · exact aligned
  have payload : maxPayload = 4048 := rfl
  have ends : ctx.received / maxPayload * maxPayload = ctx.received :=
    Nat.div_mul_cancel (Nat.dvd_of_mod_eq_zero aligned)
  refine ⟨ctx.received / maxPayload, ?_, fun holds => ?_⟩
  · rw [responseCount, if_neg (by omega)]
    simp only [payload] at aligned ⊢
    omega
  · rcases holds ctx found with below | ⟨frag, among, same⟩
    · omega
    · exact findFrag_none state.clear frag among (same.trans ends)

theorem Placed.found
    (place : Placed link.reads q link.read ctx done readsBefore readsAfter before after) :
    q.findRead link.read.psn = some ctx := by
  rw [Requester.findRead, place.pending]
  exact find?_split place.others place.here

theorem holds_of_solo (pending : q.pendingReads = [ctx]) (here : ctx.psn = link.read.psn)
    {frag : Nat} (holds : frag * maxPayload < ctx.received ∨
      ∃ stored ∈ ctx.respFrags, stored.offset = frag * maxPayload) :
    q.Holds link.read frag := by
  intro other found
  rw [Requester.findRead, pending, List.find?_cons_of_pos (by simpa using here)] at found
  cases found
  exact holds

theorem holds_of_empty (pending : q.pendingReads = []) {frag : Nat} :
    q.Holds link.read frag := by
  intro ctx found
  rw [Requester.findRead, pending] at found
  cases found

/-- Nothing that is held is lost, and the fragment taken is held. -/
theorem Taken.holds {frag : Nat}
    (taken : Taken link.reads q link.read (frag * maxPayload) true next) :
    (∀ other, q.Holds link.read other → next.Holds link.read other) ∧
      next.Holds link.read frag := by
  cases taken with
  | absent gone => exact ⟨fun _ holds => holds, fun ctx found => by cases gone.symm.trans found⟩
  | @behind ctx found below =>
      refine ⟨fun _ holds => holds, fun other same => ?_⟩
      cases found.symm.trans same
      exact .inl below
  | kept place state _ same keeps stored =>
      obtain ⟨rfl, rfl⟩ := place.solo
      refine ⟨fun other holds => holds_of_solo rfl state.same.2.1 ?_,
        holds_of_solo rfl state.same.2.1 (.inr (stored rfl))⟩
      rcases holds _ place.found with below | ⟨kept, among, offset⟩
      · exact .inl (by omega)
      · exact .inr ⟨kept, keeps kept among, offset⟩
  | grown place own state _ here more keeps =>
      obtain ⟨rfl, rfl⟩ := place.solo
      refine ⟨fun other holds => holds_of_solo rfl state.same.2.1 ?_,
        holds_of_solo rfl state.same.2.1 (.inl (by omega))⟩
      rcases holds _ place.found with below | ⟨kept, among, offset⟩
      · exact .inl (by omega)
      · rcases keeps kept among with below | stays
        · exact .inl (by omega)
        · exact .inr ⟨kept, stays, offset⟩
  | whole place own state all =>
      obtain ⟨rfl, rfl⟩ := place.solo
      have empty := @List.dropWhile_cons_of_pos _ ReadCtx.ready _ [] (state.ready.mpr all)
      exact ⟨fun other _ => holds_of_empty empty, holds_of_empty empty⟩

/-- A read that is off the list has just been acknowledged, if it was not before. -/
theorem Taken.acks_ok {offset : Nat} (taken : Taken link.reads q link.read offset true next)
    (gone : next.findRead link.read.psn = none) :
    ReadAckStatus.ok ∈ (next.acks.drop q.acks.length).map Prod.snd := by
  cases taken with
  | absent => simp [Requester.sendReadAck]
  | behind found => cases found.symm.trans gone
  | kept place state =>
      obtain ⟨rfl, rfl⟩ := place.solo
      rw [Requester.findRead, List.nil_append,
        List.find?_cons_of_pos (by simpa using state.same.2.1)] at gone
      cases gone
  | grown place own state =>
      obtain ⟨rfl, rfl⟩ := place.solo
      rw [Requester.findRead, List.nil_append,
        List.find?_cons_of_pos (by simpa using state.same.2.1)] at gone
      cases gone
  | whole => simp

end Solo

/-! ## The invariant -/

structure Healthy (link : LostFragment) (s : Exchange) : Prop where
  requester : Assembled link.reads s.requester
  covered : 2 ≤ s.transmissions → ∀ frag < responseCount link.read.total,
    s.requester.Holds link.read frag ∨ frag ∈ s.data
  completed : s.requester.findRead link.read.psn = none →
    .ok ∈ s.acks ∨ s.ctx.listed = false
  spent : s.ctx.retries < s.transmissions
  closing : ∀ wasSent, s.work = .checked true wasSent → s.ctx.closing = true
  sent : ∀ wasSent, s.work = .sent wasSent →
    s.ctx.retries + 1 < s.transmissions ∨ s.ctx.closing = true
  kept : s.dropped = false

theorem healthy_start (link : LostFragment) (now : Int) : Healthy link (link.start now) where
  requester := assembled_start link.reads
  covered := by simp [LostFragment.start]
  completed := by
    intro gone
    simp [LostFragment.start, LostFragment.reads, PostedReads.start, Requester.findRead,
      PostedRead.ctx] at gone
  spent := Nat.zero_lt_one
  closing := by simp [LostFragment.start]
  sent := by simp [LostFragment.start]
  kept := rfl

/-- With everything resent delivered and acknowledged, the context is off the list. -/
theorem Healthy.off_list {link : LostFragment} {s : Exchange} (inv : Healthy link s)
    (resent : 2 ≤ s.transmissions) (noData : s.data = []) (noAcks : s.acks = []) :
    s.ctx.listed = false := by
  cases found : s.requester.findRead link.read.psn with
  | some ctx =>
      obtain ⟨frag, inside, notHeld⟩ := inv.requester.some_not_held found
      rcases inv.covered resent frag inside with held | inFlight
      · exact absurd held notHeld
      · rw [noData] at inFlight
        cases inFlight
  | none =>
      rcases inv.completed found with acked | off
      · rw [noAcks] at acked
        cases acked
      · exact off

theorem mem_eraseIdx_of_ne {α : Type} {list : List α} {index : Nat} {one other : α}
    (at_ : list[index]? = some one) (among : other ∈ list) (apart : other ≠ one) :
    other ∈ list.eraseIdx index := by
  obtain ⟨place, here⟩ := List.getElem?_of_mem among
  refine List.mem_eraseIdx_iff_getElem?.mpr ⟨place, ?_, here⟩
  rintro rfl
  exact apart (Option.some.inj (here.symm.trans at_))

/-! ## The steps -/

section Steps
variable {link : LostFragment} {s next : Exchange}

theorem Healthy.deliver (inv : Healthy link s) {index : Nat}
    (taken : link.step s (.deliver index) = some next) : Healthy link next := by
  simp only [LostFragment.step] at taken
  split at taken
  · cases taken
  · rename_i frag at_
    obtain ⟨requester, stepped, rfl⟩ := Option.map_eq_some_iff.mp taken
    obtain ⟨frame, framed, handled⟩ := Option.bind_eq_some_iff.mp stepped
    change link.read.response[frag]? = some frame at framed
    have posted : link.read ∈ link.reads.list := List.mem_singleton.mpr rfl
    obtain ⟨_, handled', outcome⟩ := inv.requester.taken posted framed true
    cases handled'.symm.trans handled
    have holds := outcome.holds
    refine { inv with requester := ?_, covered := ?_, completed := ?_ }
    · exact outcome.assembled inv.requester
    · intro resent other inside
      rcases inv.covered resent other inside with held | inFlight
      · exact .inl (holds.1 other held)
      · by_cases same : other = frag
        · rw [same]
          exact .inl holds.2
        · exact .inr (mem_eraseIdx_of_ne at_ inFlight same)
    · intro gone
      exact .inl (List.mem_append_right _ (outcome.acks_ok gone))

theorem Healthy.ack (inv : Healthy link s) {index : Nat}
    (taken : link.step s (.ack index) = some next) : Healthy link next := by
  simp only [LostFragment.step] at taken
  split at taken
  · cases taken
  · rename_i status at_
    cases taken
    by_cases retry : status = .retry
    · have same : (s.ctx.retry s.now link.timeout).listed = s.ctx.listed ∧
          (s.ctx.retry s.now link.timeout).retries = s.ctx.retries ∧
          (s.ctx.retry s.now link.timeout).closing = s.ctx.closing := by
        unfold RespCtx.retry
        split <;> exact ⟨rfl, rfl, rfl⟩
      simp only [retry, if_true]
      refine { inv with completed := ?_, spent := ?_, closing := ?_, sent := ?_ }
      · intro gone
        rcases inv.completed gone with acked | off
        · exact .inl (mem_eraseIdx_of_ne at_ acked (by rw [retry]; simp))
        · exact .inr (same.1.trans off)
      · exact same.2.1 ▸ inv.spent
      · exact fun wasSent stage => same.2.2.trans (inv.closing wasSent stage)
      · intro wasSent stage
        rw [same.2.1, same.2.2]
        exact inv.sent wasSent stage
    · have off : s.ctx.take.listed = false ∧ s.ctx.take.retries = s.ctx.retries ∧
          (s.ctx.closing = true → s.ctx.take.closing = true) := by
        unfold RespCtx.take
        split
        · exact ⟨rfl, rfl, fun _ => rfl⟩
        · rename_i notListed
          exact ⟨by simpa using notListed, rfl, id⟩
      simp only [retry, if_false]
      refine { inv with completed := ?_, spent := ?_, closing := ?_, sent := ?_ }
      · exact fun _ => .inr off.1
      · exact off.2.1 ▸ inv.spent
      · exact fun wasSent stage => off.2.2 (inv.closing wasSent stage)
      · intro wasSent stage
        rw [off.2.1]
        exact (inv.sent wasSent stage).imp_right off.2.2

theorem Healthy.reap (inv : Healthy link s) {late : Nat} (spaced : link.Spaced s (.reap late))
    (taken : link.step s (.reap late) = some next) : Healthy link next := by
  simp only [LostFragment.step] at taken
  split at taken
  · cases taken
  unfold RespCtx.reap at taken
  by_cases stays : (!s.ctx.listed ||
      !entryExpired s.ctx.queuedJiffies (s.now - late) link.timeout || s.ctx.retrying) = true
  · rw [if_pos stays] at taken
    cases taken
    exact inv
  rw [if_neg stays] at taken
  simp only [Bool.or_eq_true, Bool.not_eq_true', not_or, Bool.not_eq_false] at stays
  obtain ⟨⟨listed, expired⟩, _⟩ := stays
  have few : s.transmissions ≤ readRespMaxRetries := by
    rcases spaced (by simp [LostFragment.expired, listed, expired]) with few | ⟨noData, noAcks⟩
    · exact few
    · by_contra resent
      have most : readRespMaxRetries = 3 := rfl
      have off := inv.off_list (by omega) noData noAcks
      rw [listed] at off
      cases off
  have spent := inv.spent
  rw [if_neg (by omega)] at taken
  cases taken
  exact { inv with
    closing := by simp
    sent := by simp }

theorem Healthy.note (inv : Healthy link s) (taken : link.step s .note = some next) :
    Healthy link next := by
  simp only [LostFragment.step] at taken
  split at taken
  · cases taken
  · cases taken
    have same : (s.ctx.noteSent s.now).listed = s.ctx.listed ∧
        (s.ctx.noteSent s.now).retries = s.ctx.retries ∧
        (s.ctx.noteSent s.now).closing = s.ctx.closing := by
      unfold RespCtx.noteSent
      split <;> exact ⟨rfl, rfl, rfl⟩
    refine { inv with completed := ?_, spent := ?_, closing := ?_, sent := ?_ }
    · exact fun gone => (inv.completed gone).imp_right same.1.trans
    · exact same.2.1 ▸ inv.spent
    · exact fun wasSent stage => same.2.2.trans (inv.closing wasSent stage)
    · intro wasSent stage
      rw [same.2.1, same.2.2]
      exact inv.sent wasSent stage

theorem Healthy.check (inv : Healthy link s) (taken : link.step s .check = some next) :
    Healthy link next := by
  simp only [LostFragment.step] at taken
  split at taken
  · cases taken
  · cases taken
    refine { inv with closing := ?_, sent := by simp }
    intro wasSent stage
    injection stage

theorem Healthy.send (inv : Healthy link s) (taken : link.step s .send = some next) :
    Healthy link next := by
  simp only [LostFragment.step] at taken
  split at taken
  · rename_i wasSent stage
    cases taken
    exact { inv with
      closing := by simp
      sent := fun _ _ => .inr (inv.closing wasSent stage) }
  · cases taken
    have spent := inv.spent
    refine { inv with covered := ?_, spent := ?_, closing := by simp, sent := ?_ }
    · intro _ frag inside
      exact .inr (List.mem_append_right _ (List.mem_range.mpr inside))
    · exact Nat.lt_succ_of_lt spent
    · exact fun _ _ => .inl (Nat.succ_lt_succ spent)
  · cases taken

theorem Healthy.finish (inv : Healthy link s) (taken : link.step s .finish = some next) :
    Healthy link next := by
  simp only [LostFragment.step] at taken
  split at taken
  · rename_i wasSent stage
    cases taken
    refine { inv with
      completed := ?_, spent := ?_, closing := by simp, sent := by simp }
    · intro gone
      refine (inv.completed gone).imp_right fun off => ?_
      unfold RespCtx.resent
      split <;> exact off
    · have spent := inv.spent
      rcases inv.sent wasSent stage with resent | closing
      · unfold RespCtx.resent
        split
        · exact spent
        · simp only
          split <;> omega
      · rw [RespCtx.resent, if_pos closing]
        exact spent
  · cases taken

end Steps

/-- As long as the worker does not find the response expired with three retransmissions on
their way, the response is never put on the drop list. -/
theorem lost_fragment_not_dropped (link : LostFragment) (now : Int) {s : Exchange}
    (reached : Reaches link.step link.Spaced (link.start now) s) : s.dropped = false := by
  suffices inv : Healthy link s from inv.kept
  refine reached.invariant (healthy_start link now) fun {state next event} inv spaced taken => ?_
  cases event with
  | tick jiffies =>
      cases taken
      exact { inv with }
  | note => exact inv.note taken
  | deliver index => exact inv.deliver taken
  | ack index => exact inv.ack taken
  | reap late => exact inv.reap spaced taken
  | check => exact inv.check taken
  | send => exact inv.send taken
  | finish => exact inv.finish taken

def fiveFragments : LostFragment where
  read :=
    { psn := 0, segs := [⟨0, 16193, by decide⟩], data := List.replicate 16193 0
      positive := by decide, bounded := by decide, snapshot := List.length_replicate }
  lost := 0
  inside := by decide
  qpTimeout := 100
  retryJiffies := 100

def retryPass : List ExchangeEvent := [.ack 0, .reap 0, .check, .send, .finish]

/-- The four fragments behind the gap arrive; the RETRY for each is handled before the
next, and nothing of what is resent arrives in between. -/
theorem lost_fragment_dropped :
    ¬ ∀ (link : LostFragment) (now : Int) (s : Exchange),
      Reaches link.step (fun _ _ => True) (link.start now) s → s.dropped = false := by
  intro never
  obtain ⟨s, reached, dropped⟩ := @exists_reaches_of_guarded _ _ fiveFragments.step
    (fun _ _ => True) _ ([.note, .deliver 0, .deliver 0, .deliver 0, .deliver 0] ++ retryPass ++
      retryPass ++ retryPass ++ [.ack 0, .reap 0]) (fiveFragments.start 1000) Exchange.dropped
    (by decide +kernel)
  rw [never fiveFragments 1000 s reached] at dropped
  cases dropped

def threeFragments : LostFragment where
  read :=
    { psn := 0, segs := [⟨0, 8097, Nat.succ_pos _⟩], data := List.replicate 8097 0
      positive := by decide, bounded := by decide, snapshot := List.length_replicate }
  lost := 0
  inside := by decide
  qpTimeout := 100
  retryJiffies := 100

/-- The fragments behind the gap come in the wrong order.  Both RETRYs are handled, the second one
with a resent fragment and two acknowledgements on their way. -/
theorem lost_fragment_not_dropped_resent :
    ∃ s, Reaches threeFragments.step threeFragments.Spaced (threeFragments.start 1000) s ∧
      s.transmissions = 3 ∧ s.ctx.listed = false ∧ s.dropped = false := by
  obtain ⟨s, reached, found⟩ := @exists_reaches_of_guarded _ _ threeFragments.step
    threeFragments.Spaced _ ([.note, .deliver 1, .deliver 0] ++ retryPass ++
      [.deliver 0, .deliver 1] ++ retryPass ++ [.deliver 0, .ack 1])
    (threeFragments.start 1000) (fun s => decide (s.transmissions = 3) && !s.ctx.listed)
    (by decide +kernel)
  simp only [Bool.and_eq_true, decide_eq_true_eq, Bool.not_eq_true'] at found
  exact ⟨s, reached, found.1, found.2, lost_fragment_not_dropped threeFragments 1000 reached⟩

end Tbv.ReadQueue
