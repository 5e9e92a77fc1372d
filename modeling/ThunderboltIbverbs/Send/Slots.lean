import Mathlib.Data.List.Nodup
import Mathlib.Data.List.Perm.Subperm
import ThunderboltIbverbs.Send.Turns

/-! # The slots of the send queue

`sendq_count` is charged by every request before it takes its PSN and discharged in
many places.  `Covered` says that the requests with `sq_counted` set are no more than the
count; `Slots` lists what a section can do to them, next to what it does to the two
pending lists. -/
set_option autoImplicit false
namespace Tbv.SendQueue

open Tbv.NativeData

/-- The request holds a slot, as a READ or as a send. -/
def Qp.counted (q : Qp) (read : Bool) (op : Nat) : Bool :=
  if read then (q.read op).sqCounted else (q.ctx op).sqCounted

/-- Some list, no longer than the count, has every request that holds a slot. -/
def Covered (q : Qp) : Prop :=
  ∃ holders : List (Bool × Nat), holders.length ≤ q.sendqCount ∧
    ∀ {read op}, q.counted read op = true → (read, op) ∈ holders

/-- Slots are given back, at most those of `given`; READs only leave their list. -/
structure Gives (q q' : Qp) (given : Bool → Nat → Prop) : Prop where
  fewer : ∀ {read op}, q'.counted read op = true → q.counted read op = true
  kept : ∀ {read op}, q.counted read op = true → ¬ given read op → q'.counted read op = true
  count : q'.sendqCount ≤ q.sendqCount
  covered : Covered q → Covered q'
  reads : ∀ {r}, r ∈ q'.pendingReads → r ∈ q.pendingReads

/-- Nothing about the slots differs. -/
structure SameSlots (q q' : Qp) : Prop where
  counted : ∀ read op, q'.counted read op = q.counted read op
  count : q'.sendqCount = q.sendqCount
  pendingReads : q'.pendingReads = q.pendingReads

section
variable {q q' q'' : Qp} {given given' : Bool → Nat → Prop} {c r op : Nat}

theorem SameSlots.refl (q : Qp) : SameSlots q q := ⟨fun _ _ => rfl, rfl, rfl⟩

theorem SameSlots.trans (first : SameSlots q q') (second : SameSlots q' q'') :
    SameSlots q q'' where
  counted := fun read op => (second.counted read op).trans (first.counted read op)
  count := second.count.trans first.count
  pendingReads := second.pendingReads.trans first.pendingReads

theorem SameSlots.gives (same : SameSlots q q') : Gives q q' given where
  fewer := fun has => by rwa [same.counted] at has
  kept := fun has _ => by rwa [same.counted]
  count := le_of_eq same.count
  covered := by
    rintro ⟨holders, enough, all⟩
    refine ⟨holders, by rw [same.count]; exact enough, fun has => all ?_⟩
    rwa [same.counted] at has
  reads := fun listed => by rwa [same.pendingReads] at listed

theorem Gives.trans (first : Gives q q' given) (second : Gives q' q'' given) :
    Gives q q'' given where
  fewer := fun has => first.fewer (second.fewer has)
  kept := fun has not => second.kept (first.kept has not) not
  count := second.count.trans first.count
  covered := fun covered => second.covered (first.covered covered)
  reads := fun listed => first.reads (second.reads listed)

theorem Gives.mono (gives : Gives q q' given)
    (implied : ∀ {read op}, given read op → given' read op) : Gives q q' given' :=
  { gives with kept := fun has not => gives.kept has fun was => not (implied was) }

/-! ## Sections that leave the slots alone -/

theorem sameSlots_modCtx (q : Qp) (c : Nat) (f : SendCtx → SendCtx)
    (kept : (f (q.ctx c)).sqCounted = (q.ctx c).sqCounted) : SameSlots q (q.modCtx c f) where
  counted := by
    intro read op
    cases read with
    | true => rfl
    | false =>
        simp only [Qp.counted, Bool.false_eq_true, if_false, modCtx_ctx]
        split
        · rename_i same
          rw [same, kept]
        · rfl
  count := rfl
  pendingReads := rfl

theorem sameSlots_modRead (q : Qp) (r : Nat) (f : ReadCtx → ReadCtx)
    (kept : (f (q.read r)).sqCounted = (q.read r).sqCounted) : SameSlots q (q.modRead r f) where
  counted := by
    intro read op
    cases read with
    | false => rfl
    | true =>
        simp only [Qp.counted, if_true, Qp.modRead, Function.update_apply]
        split
        · rename_i same
          rw [same, kept]
        · rfl
  count := rfl
  pendingReads := rfl

theorem sameSlots_note (q : Qp) (entry : Entry) : SameSlots q (q.note entry) :=
  ⟨fun _ _ => rfl, rfl, rfl⟩

theorem sameSlots_scheduleTimeout (q : Qp) : SameSlots q q.scheduleTimeout := by
  unfold Qp.scheduleTimeout
  split
  · exact .refl q
  · exact ⟨fun _ _ => rfl, rfl, rfl⟩

theorem sameSlots_chargeTx (q : Qp) (c : Nat) (frames : Int) : SameSlots q (q.chargeTx c frames) :=
  sameSlots_modCtx q c _ rfl

theorem sameSlots_clearRetrying (q : Qp) (c : Nat) : SameSlots q (q.clearRetrying c) :=
  sameSlots_modCtx q c _ rfl

theorem sameSlots_rearm (q : Qp) (c : Nat) : SameSlots q (q.markQueued c).scheduleTimeout :=
  (sameSlots_modCtx q c _ rfl).trans (sameSlots_scheduleTimeout _)

theorem sameSlots_countRetry (q : Qp) (c : Nat) (reason : PostReason) :
    SameSlots q (q.countRetry c reason) := by
  refine sameSlots_modCtx q c _ ?_
  split <;> rfl

theorem sameSlots_spendRecvCredit (q : Qp) (spends : Bool) :
    SameSlots q (q.spendRecvCredit spends) := by
  unfold Qp.spendRecvCredit
  split <;> exact ⟨fun _ _ => rfl, rfl, rfl⟩

theorem sameSlots_returnRemoteRecvCredit (q : Qp) : SameSlots q q.returnRemoteRecvCredit := by
  unfold Qp.returnRemoteRecvCredit
  split <;> exact ⟨fun _ _ => rfl, rfl, rfl⟩

theorem sameSlots_armSendTimeout (q : Qp) (c : Nat) : SameSlots q (q.armSendTimeout c) := by
  unfold Qp.armSendTimeout
  split
  · exact sameSlots_rearm q c
  · exact .refl q

theorem sameSlots_noteTxDone (q : Qp) (c : Nat) (status : Int) :
    SameSlots q (q.noteTxDone c status) := by
  unfold Qp.noteTxDone
  dsimp only
  split
  · exact sameSlots_chargeTx q c _
  · split
    · exact (sameSlots_chargeTx q c _).trans
        ((sameSlots_clearRetrying _ c).trans (sameSlots_rearm _ c))
    · exact (sameSlots_chargeTx q c _).trans (sameSlots_clearRetrying _ c)

theorem sameSlots_markReady (q : Qp) (c : Nat) (status : Int) :
    SameSlots q (q.markReady c status) := by
  unfold Qp.markReady
  split
  · exact .refl q
  · exact sameSlots_modCtx q c _ rfl

theorem sameSlots_markReadyRead (q : Qp) (r : Nat) (status : Int) :
    SameSlots q (q.markReadyRead r status) := by
  unfold Qp.markReadyRead
  split
  · exact .refl q
  · exact sameSlots_modRead q r _ rfl

theorem sameSlots_startRnrWait (q : Qp) (c : Nat) : SameSlots q (q.startRnrWait c) := by
  unfold Qp.startRnrWait Qp.markQueued
  exact (sameSlots_modCtx q c _ rfl).trans (sameSlots_modCtx _ c _ rfl)

theorem sameSlots_startRetry (q : Qp) (c : Nat) (reason : PostReason) :
    SameSlots q (q.startRetry c reason) :=
  sameSlots_modCtx q c _ rfl

theorem sameSlots_pendingSends (q : Qp) (sends : List Nat) :
    SameSlots q { q with pendingSends := sends } :=
  ⟨fun _ _ => rfl, rfl, rfl⟩

theorem sameSlots_queueSend (q : Qp) (c : Nat) : SameSlots q (q.queueSend c) :=
  (sameSlots_pendingSends q (q.pendingSends ++ [c])).trans (sameSlots_modCtx _ c _ rfl)

theorem sameSlots_advancePsn (q : Qp) (op : Nat) : SameSlots q (q.advancePsn op) :=
  ⟨fun _ _ => rfl, rfl, rfl⟩

theorem sameSlots_takePsn (q : Qp) (c : Nat) : SameSlots q (q.takePsn c) :=
  (sameSlots_advancePsn q c).trans (sameSlots_modCtx _ c _ rfl)

theorem sameSlots_takePsnRead (q : Qp) (r : Nat) : SameSlots q (q.takePsnRead r) :=
  (sameSlots_advancePsn q r).trans (sameSlots_modRead _ r _ rfl)

/-! ## Giving slots back -/

/-- Slots of distinct requests are given back together. -/
theorem Covered.give (covered : Covered q) {gone : List (Bool × Nat)} (distinct : gone.Nodup)
    (held : ∀ {read op}, (read, op) ∈ gone → q.counted read op = true)
    (count : q'.sendqCount = q.sendqCount - gone.length)
    (counted : ∀ {read op}, q'.counted read op = true →
      q.counted read op = true ∧ (read, op) ∉ gone) : Covered q' := by
  obtain ⟨holders, enough, all⟩ := covered
  refine ⟨holders.filter (· ∉ gone), ?_, fun has => ?_⟩
  · have inside : gone.length ≤ (holders.filter (· ∈ gone)).length := by
      refine (List.subperm_of_subset distinct fun pair among => ?_).length_le
      exact List.mem_filter.mpr ⟨all (held among), by simpa using among⟩
    have split := @List.length_eq_length_filter_add _ holders fun pair => decide (pair ∈ gone)
    have same : holders.filter (fun pair => !decide (pair ∈ gone)) =
        holders.filter (· ∉ gone) := by
      simp only [decide_not]
    rw [same] at split
    omega
  · obtain ⟨had, stays⟩ := counted has
    exact List.mem_filter.mpr ⟨all had, by simpa using stays⟩

theorem releaseRead_counted (q : Qp) (r : Nat) (read : Bool) (op : Nat) :
    (q.releaseSendqCountedRead r).counted read op = true ↔
      q.counted read op = true ∧ (read, op) ≠ (true, r) := by
  unfold Qp.releaseSendqCountedRead
  cases read with
  | false => split <;> simp [Qp.counted, Qp.modRead]
  | true =>
      split
      · by_cases same : op = r
        · subst same
          simp [Qp.counted, Qp.modRead]
        · simp [Qp.counted, Qp.modRead, same]
      · rename_i free
        by_cases same : op = r
        · subst same
          simpa [Qp.counted] using free
        · simp [Qp.counted, same]

theorem gives_releaseRead (q : Qp) (r : Nat) :
    Gives q (q.releaseSendqCountedRead r) (fun read op => read = true ∧ op = r) := by
  have counted := releaseRead_counted q r
  refine ⟨fun has => ((counted _ _).mp has).1, fun has not => ?_, ?_, fun covered => ?_, ?_⟩
  · refine (counted _ _).mpr ⟨has, fun same => not ?_⟩
    simpa using same
  · unfold Qp.releaseSendqCountedRead
    split
    · exact Nat.sub_le _ _
    · exact le_rfl
  · by_cases held : (q.read r).sqCounted = true
    · refine @Covered.give _ _ covered [(true, r)] (by simp) ?_ ?_ fun has => ?_
      · intro read op among
        obtain ⟨rfl, rfl⟩ := Prod.mk.inj (List.mem_singleton.mp among)
        exact held
      · simp [Qp.releaseSendqCountedRead, held, Qp.modRead]
      · simpa using (counted _ _).mp has
    · have same : q.releaseSendqCountedRead r = q := by
        simp [Qp.releaseSendqCountedRead, held]
      rwa [same]
  · intro d listed
    unfold Qp.releaseSendqCountedRead at listed
    split at listed <;> exact listed

theorem gives_releaseReads (reads : List Nat) (q : Qp) :
    Gives q (reads.foldl Qp.releaseSendqCountedRead q) (fun read op => read = true ∧ op ∈ reads) := by
  induction reads generalizing q with
  | nil => exact (SameSlots.refl q).gives
  | cons r rest ih =>
      refine Gives.trans ((gives_releaseRead q r).mono ?_) ((ih _).mono ?_)
      · rintro read op ⟨isRead, rfl⟩
        exact ⟨isRead, List.mem_cons_self ..⟩
      · rintro read op ⟨isRead, among⟩
        exact ⟨isRead, List.mem_cons_of_mem _ among⟩

theorem gives_pendingReads (q : Qp) {reads : List Nat} (fewer : reads ⊆ q.pendingReads) :
    Gives q { q with pendingReads := reads } given where
  fewer := id
  kept := fun has _ => has
  count := le_rfl
  covered := id
  reads := fun listed => fewer listed

theorem detach_counted (q : Qp) (cs : List Nat) (read : Bool) (op : Nat) :
    (q.detach cs).counted read op = true ↔
      q.counted read op = true ∧ ¬ (read = false ∧ op ∈ cs) := by
  cases read with
  | true => simp [Qp.counted, Qp.detach]
  | false =>
      by_cases among : op ∈ cs
      · simp [Qp.counted, Qp.detach, among, SendCtx.detached]
      · simp [Qp.counted, Qp.detach, among]

theorem gives_detach (q : Qp) {cs : List Nat} (distinct : cs.Nodup) :
    Gives q (q.detach cs) (fun read op => read = false ∧ op ∈ cs) := by
  have counted := detach_counted q cs
  refine ⟨fun has => ((counted _ _).mp has).1, fun has not => (counted _ _).mpr ⟨has, not⟩,
    Nat.sub_le _ _, fun covered => ?_, id⟩
  refine @Covered.give _ _ covered ((cs.filter fun c => (q.ctx c).sqCounted).map (Prod.mk false))
    ?_ ?_ ?_ fun has => ?_
  · exact List.Nodup.map (Prod.mk_right_injective false) (distinct.filter _)
  · intro read op among
    obtain ⟨c, held, same⟩ := List.mem_map.mp among
    obtain ⟨rfl, rfl⟩ := Prod.mk.inj same
    exact (List.mem_filter.mp held).2
  · simp [Qp.detach]
  · obtain ⟨had, stays⟩ := (counted _ _).mp has
    refine ⟨had, fun among => stays ?_⟩
    obtain ⟨c, held, same⟩ := List.mem_map.mp among
    obtain ⟨rfl, rfl⟩ := Prod.mk.inj same
    exact ⟨rfl, (List.mem_filter.mp held).1⟩

/-! ## Draining the list of sends -/

/-- A front part of the list is detached with its slots. -/
structure Drains (q q' : Qp) (gone : List Nat) : Prop where
  pending : q.pendingSends = gone ++ q'.pendingSends
  gives : Gives q q' (fun read op => read = false ∧ op ∈ gone)
  dropped : ∀ c ∈ gone, (q'.ctx c).sqCounted = false
  expired : ∀ now, q'.expiredReads now = q.expiredReads now
  reads : q'.pendingReads = q.pendingReads

variable {gone : List Nat}

theorem Drains.refl (q : Qp) : Drains q q [] :=
  ⟨rfl, (SameSlots.refl q).gives, fun _ among => (nomatch among), fun _ => rfl, rfl⟩

theorem expiredReads_congr (cfg : q'.cfg = q.cfg) (read : q'.read = q.read)
    (reads : q'.pendingReads = q.pendingReads) (now : Nat) :
    q'.expiredReads now = q.expiredReads now := by
  unfold Qp.expiredReads
  rw [cfg, read, reads]

theorem Drains.same (drains : Drains q q' gone) (same : SameSlots q' q'')
    (pending : q''.pendingSends = q'.pendingSends) (cfg : q''.cfg = q'.cfg)
    (read : q''.read = q'.read) : Drains q q'' gone where
  pending := by rw [pending]; exact drains.pending
  gives := drains.gives.trans same.gives
  dropped := fun c among => by
    have kept := same.counted false c
    simp only [Qp.counted, Bool.false_eq_true, if_false] at kept
    rw [kept]
    exact drains.dropped c among
  expired := fun now =>
    (expiredReads_congr cfg read same.pendingReads now).trans (drains.expired now)
  reads := same.pendingReads.trans drains.reads

theorem Drains.markReady (drains : Drains q q' gone) (c : Nat) (status : Int) :
    Drains q (q'.markReady c status) gone := by
  refine drains.same (sameSlots_markReady q' c status) (markReady_pendingSends q' c status) ?_ ?_
  all_goals
    unfold Qp.markReady
    split <;> rfl

theorem Drains.drain (drains : Drains q q' gone) (distinct : q.pendingSends.Nodup) :
    Drains q q'.drainReadySends (gone ++ q'.readyPrefix) := by
  rw [drains.pending] at distinct
  have front : q'.readyPrefix.Nodup :=
    (List.takeWhile_sublist _).nodup (List.nodup_append.mp distinct).2.1
  have detached := gives_detach
    { q' with pendingSends := q'.pendingSends.dropWhile fun c => (q'.ctx c).ready } front
  refine ⟨?_, ?_, fun c among => ?_, fun now => ?_, drains.reads⟩
  · rw [drains.pending, List.append_assoc, ← drain_split q']
  · refine (drains.gives.mono ?_).trans
      (((sameSlots_pendingSends q' _).gives).trans (detached.mono ?_))
    · rintro read op ⟨isSend, among⟩
      exact ⟨isSend, List.mem_append_left _ among⟩
    · rintro read op ⟨isSend, among⟩
      exact ⟨isSend, List.mem_append_right _ among⟩
  · by_cases front : c ∈ q'.readyPrefix
    · simp [Qp.drainReadySends, Qp.detach, front, SendCtx.detached]
    · have before := (List.mem_append.mp among).resolve_right front
      simpa [Qp.drainReadySends, Qp.detach, front] using drains.dropped c before
  · exact (expiredReads_congr rfl rfl rfl now).trans (drains.expired now)

theorem drains_completeSendOrdered (distinct : q.pendingSends.Nodup) (psn : Nat) (status : Int) :
    Drains q (q.completeSendOrdered psn status).1 (q.completeSendOrdered psn status).2 := by
  unfold Qp.completeSendOrdered
  split
  · exact .refl q
  · rename_i c _
    exact ((Drains.refl q).markReady c status).drain distinct

theorem drains_noteRnrAck (distinct : q.pendingSends.Nodup) (psn : Nat) :
    Drains q (q.noteRnrAck psn).1 (q.noteRnrAck psn).2 := by
  unfold Qp.noteRnrAck
  split
  · exact .refl q
  · rename_i c _
    have waits := (Drains.refl q).same (sameSlots_startRnrWait q c) rfl rfl rfl
    split
    · exact ((Drains.refl q).markReady c eagain).drain distinct
    · split
      · exact waits
      · refine waits.same (sameSlots_scheduleTimeout _) ?_ ?_ ?_
        all_goals
          unfold Qp.scheduleTimeout
          split <;> rfl

theorem drains_handleAck (distinct : q.pendingSends.Nodup) (psn : Nat) (status : SendAckStatus) :
    Drains q (q.handleAck psn status).1 (q.handleAck psn status).2 := by
  cases status with
  | ok => exact drains_completeSendOrdered distinct psn 0
  | rnr => exact drains_noteRnrAck distinct psn
  | error => exact drains_completeSendOrdered distinct psn eio

theorem drains_flushSends (distinct : q.pendingSends.Nodup) :
    Drains q q.flushSends q.pendingSends := by
  have judged : SameSlots q q.judgeFlushed := by
    refine ⟨fun read op => ?_, rfl, rfl⟩
    cases read with
    | true => rfl
    | false =>
        simp only [Qp.counted, Bool.false_eq_true, if_false, Qp.judgeFlushed]
        split <;> rfl
  refine ⟨by simp [Qp.flushSends, Qp.judgeFlushed, Qp.detach], judged.gives.trans
    (gives_detach _ distinct), fun c among => ?_, fun now => expiredReads_congr rfl rfl rfl now, rfl⟩
  simp [Qp.flushSends, Qp.detach, among, SendCtx.detached]

theorem reapSend_drains {now : Nat} {r r' : Reap} {next : Option Nat}
    (distinct : q.pendingSends.Nodup) (drains : Drains q r.qp gone)
    (reaped : reapSend now r c next = some r') : ∃ gone', Drains q r'.qp gone' := by
  unfold reapSend at reaped
  split at reaped
  · cases Option.some.inj reaped
    exact ⟨gone, drains⟩
  · cases Option.some.inj reaped
    rename_i reason takesCredit _
    refine ⟨gone, drains.same ((sameSlots_spendRecvCredit _ takesCredit).trans
      (sameSlots_startRetry _ c reason)) ?_ ?_ ?_⟩
    all_goals
      unfold Qp.startRetry Qp.spendRecvCredit
      split <;> rfl
  · dsimp only at reaped
    split at reaped
    · cases reaped
    · cases Option.some.inj reaped
      exact ⟨_, (drains.markReady c _).drain distinct⟩

theorem reapSends_drains {now : Nat} {cs : List Nat} {r r' : Reap}
    (distinct : q.pendingSends.Nodup) (drains : Drains q r.qp gone)
    (reaped : reapSends now cs r = some r') : ∃ gone', Drains q r'.qp gone' := by
  induction cs generalizing r gone with
  | nil =>
      cases Option.some.inj reaped
      exact ⟨gone, drains⟩
  | cons c rest ih =>
      obtain ⟨middle, first, later⟩ := Option.bind_eq_some_iff.mp reaped
      obtain ⟨gone', drains⟩ := reapSend_drains distinct drains first
      exact ih drains later

/-! ## One section -/

/-- The requests whose slots a section gives back while others may still be pending: a
post that is refused after it took its PSN, and READs that fail, time out or finish. -/
def Frame.gives (q : Qp) : Frame → List (Bool × Nat)
  | .post c (.framesPosted _ ret) => if ret = 0 then [] else [(false, c)]
  | .postRead r (.unqueue _) | .postRead r (.failed _) => [(true, r)]
  | .readTxDone r status => if status = 0 ∨ r ∉ q.pendingReads then [] else [(true, r)]
  | .completeRead r _ =>
      if r ∈ q.pendingReads then
        (q.pendingReads.takeWhile fun d => d == r || (q.read d).ready).map (Prod.mk true)
      else []
  | .worker (.reap now) => (q.expiredReads now).map (Prod.mk true)
  | .flushReads => q.pendingReads.map (Prod.mk true)
  | _ => []

inductive Slots (q : Qp) (f : Frame) (q' : Qp) : Prop
  | same (only : SameSlots q q') (pending : q'.pendingSends = q.pendingSends)
  | queueSend {c : Nat} {credit : Bool} (is : f = .post c (.queue credit))
      (eq : q' = q.queueSend c)
  | queueRead {r : Nat} (is : f = .postRead r .queue) (eq : q' = q.queueRead r)
  | take {c : Nat} {credit : Bool} (is : f = .post c (.reserve credit))
      (room : q.sendqCount < q.cfg.maxSendWr) (eq : q' = q.takeSlot c)
  | takeRead {r : Nat} (is : f = .postRead r .reserve)
      (room : q.sendqCount < q.cfg.maxSendWr) (eq : q' = q.takeSlotRead r)
  | drain {gone : List Nat} (pending : q.pendingSends = gone ++ q'.pendingSends)
      (readsOnly : ∀ op, (false, op) ∉ f.gives q)
      (gives : Gives q q' fun read op => read = false ∧ op ∈ gone ∨ (read, op) ∈ f.gives q)
      (dropped : ∀ c ∈ gone, (q'.ctx c).sqCounted = false)
  | unqueue {c : Nat} {credit : Bool} {ret : Int} (is : f = .post c (.framesPosted credit ret))
      (negative : ret ≠ 0) (pending : q'.pendingSends = q.pendingSends.erase c)
      (gives : Gives q q' fun read op => read = false ∧ op = c)
      (dropped : (q'.ctx c).sqCounted = false)
  | release {c : Nat} (is : f = .releaseSendq c) (eq : q' = q.releaseSendqCounted c)

variable {choice : Choice} {pushed : List Frame} {f : Frame}

theorem Drains.slots (drains : Drains q q' gone) (none : f.gives q = []) : Slots q f q' := by
  refine .drain drains.pending (fun op => by simp [none]) (drains.gives.mono ?_) drains.dropped
  intro read op given
  exact .inl given

theorem Gives.slots (gives : Gives q q' fun read op => (read, op) ∈ f.gives q)
    (readsOnly : ∀ op, (false, op) ∉ f.gives q) (pending : q'.pendingSends = q.pendingSends) :
    Slots q f q' := by
  refine @Slots.drain _ _ _ [] pending.symm readsOnly (gives.mono ?_) fun c among => (nomatch among)
  intro read op given
  exact .inr given

theorem execPost_slots {c : Nat} {stage : PostStage}
    (executed : execPost q c choice stage = some (q', pushed)) : Slots q (.post c stage) q' := by
  cases stage with
  | start =>
      simp only [execPost, Qp.returnPost] at executed
      repeat' split at executed
      all_goals cases executed
      all_goals exact .same ⟨fun _ _ => rfl, rfl, rfl⟩ rfl
  | takeCredit =>
      simp only [execPost, Qp.returnPost] at executed
      repeat' split at executed
      all_goals cases executed
      all_goals exact .same ⟨fun _ _ => rfl, rfl, rfl⟩ rfl
  | reserve credit =>
      simp only [execPost, Qp.refusePost, Qp.returnPost] at executed
      repeat' split at executed
      all_goals cases executed
      all_goals first
        | exact .same ⟨fun _ _ => rfl, rfl, rfl⟩ rfl
        | exact .take rfl (by omega) rfl
  | takePsn credit =>
      cases executed
      exact .same (sameSlots_takePsn q c) rfl
  | queue credit =>
      simp only [execPost] at executed
      split at executed
      all_goals cases executed
      all_goals exact .queueSend rfl rfl
  | arm credit =>
      cases executed
      refine .same (sameSlots_armSendTimeout q c) ?_
      exact (quiet_armSendTimeout q c).pendingSends
  | framesPosted credit ret =>
      simp only [execPost, Qp.refusePost, Qp.returnPost] at executed
      have single : Gives q (q.unqueueSend c) fun read op => read = false ∧ op = c := by
        refine ((sameSlots_pendingSends q _).gives).trans
          ((gives_detach _ (List.nodup_singleton c)).mono ?_)
        rintro read op ⟨isSend, among⟩
        exact ⟨isSend, List.mem_singleton.mp among⟩
      have dropped : ((q.unqueueSend c).ctx c).sqCounted = false := by
        simp [Qp.unqueueSend, Qp.detach, SendCtx.detached]
      split at executed
      · cases executed
        exact .same ⟨fun _ _ => rfl, rfl, rfl⟩ rfl
      · rename_i negative
        split at executed
        · split at executed
          · cases executed
            exact .unqueue rfl negative rfl single dropped
          · cases executed
            exact .unqueue rfl negative rfl (single.trans (sameSlots_note _ _).gives) dropped
        · cases executed
          exact .same ⟨fun _ _ => rfl, rfl, rfl⟩ rfl
  | giveBack ret =>
      cases executed
      refine .same ((sameSlots_returnRemoteRecvCredit q).trans (sameSlots_note _ _)) ?_
      exact (quiet_returnRemoteRecvCredit q).pendingSends

theorem execPostFrames_slots {reason : PostReason} {caller : Caller} {stage : FramesStage}
    (executed : execPostFrames q c reason caller choice stage = some (q', pushed)) :
    Slots q (.postFrames c reason stage caller) q' := by
  cases stage with
  | select =>
      simp only [execPostFrames] at executed
      repeat' split at executed
      all_goals cases executed
      all_goals exact .same (sameSlots_note q _) rfl
  | raw =>
      simp only [execPostFrames] at executed
      have charged := fun frames => (sameSlots_note q (.rawStream c)).trans (sameSlots_chargeTx _ c frames)
      repeat' split at executed
      all_goals cases executed
      · exact .same ((charged _).trans ⟨fun _ _ => rfl, rfl, rfl⟩) rfl
      · exact .same (charged _) rfl
  | copy offset frames =>
      simp only [execPostFrames] at executed
      repeat' split at executed
      all_goals cases executed
      all_goals exact .same ⟨fun _ _ => rfl, rfl, rfl⟩ rfl
  | charge frames =>
      simp only [execPostFrames] at executed
      repeat' split at executed
      all_goals cases executed
      · exact .same (sameSlots_chargeTx q c _) rfl
      · exact .same (.refl q) rfl
  | enqueue frames =>
      simp only [execPostFrames] at executed
      repeat' split at executed
      all_goals cases executed
      all_goals exact .same ⟨fun _ _ => rfl, rfl, rfl⟩ rfl
  | uncharge frames ret =>
      cases executed
      exact .same (sameSlots_chargeTx q c _) rfl

theorem gives_unqueueRead (q : Qp) (r : Nat) :
    Gives q (q.unqueueRead r) fun read op => read = true ∧ op = r :=
  (gives_pendingReads q List.erase_subset).trans (gives_releaseRead _ r)

theorem releaseRead_pendingSends (q : Qp) (r : Nat) :
    (q.releaseSendqCountedRead r).pendingSends = q.pendingSends :=
  (quiet_releaseSendqCountedRead q r).pendingSends

theorem execPostRead_slots {stage : ReadStage}
    (executed : execPostRead q r choice stage = some (q', pushed)) :
    Slots q (.postRead r stage) q' := by
  have own : ∀ {read op}, (read = true ∧ op = r) → (read, op) ∈ [(true, r)] := by
    rintro read op ⟨rfl, rfl⟩
    exact List.mem_singleton.mpr rfl
  cases stage with
  | start =>
      simp only [execPostRead, Qp.returnRead] at executed
      repeat' split at executed
      all_goals cases executed
      all_goals exact .same ⟨fun _ _ => rfl, rfl, rfl⟩ rfl
  | reserve =>
      simp only [execPostRead, Qp.returnRead] at executed
      repeat' split at executed
      all_goals cases executed
      all_goals first
        | exact .same ⟨fun _ _ => rfl, rfl, rfl⟩ rfl
        | exact .takeRead rfl (by omega) rfl
  | takePsn =>
      cases executed
      exact .same (sameSlots_takePsnRead q r) rfl
  | build =>
      simp only [execPostRead] at executed
      repeat' split at executed
      all_goals cases executed
      all_goals exact .same (.refl q) rfl
  | queue =>
      cases executed
      exact .queueRead rfl rfl
  | send =>
      simp only [execPostRead, Qp.returnRead] at executed
      repeat' split at executed
      all_goals cases executed
      all_goals exact .same ⟨fun _ _ => rfl, rfl, rfl⟩ rfl
  | unqueue ret =>
      cases executed
      split
      · exact Gives.slots ((gives_unqueueRead q r).mono own) (by simp [Frame.gives])
          (quiet_unqueueRead q r).pendingSends
      · exact .same (.refl q) rfl
  | failed ret =>
      cases executed
      exact Gives.slots (((gives_releaseRead q r).mono own).trans (sameSlots_note _ _).gives)
        (by simp [Frame.gives]) (releaseRead_pendingSends q r)

theorem reads_not_sends (reads : List Nat) (op : Nat) :
    ((false, op) : Bool × Nat) ∉ reads.map (Prod.mk true) := by
  simp

theorem execWorker_slots {stage : WorkerStage} (distinct : q.pendingSends.Nodup)
    (executed : execWorker q choice stage = some (q', pushed)) : Slots q (.worker stage) q' := by
  cases stage with
  | start =>
      cases executed
      exact .same ⟨fun _ _ => rfl, rfl, rfl⟩ rfl
  | reap now =>
      simp only [execWorker, Option.map_eq_some_iff] at executed
      obtain ⟨reap, reaped, executed⟩ := executed
      cases executed
      obtain ⟨gone, drains⟩ := reapSends_drains distinct (.refl q) reaped
      have reads : Gives reap.qp (reap.qp.reapReads now)
          fun read op => read = true ∧ op ∈ q.expiredReads now := by
        rw [← drains.expired now]
        refine (gives_pendingReads _ ?_).trans (gives_releaseReads _ _)
        exact List.filter_sublist.subset
      refine @Slots.drain _ _ _ gone ?_ (reads_not_sends _) ((drains.gives.mono ?_).trans (reads.mono ?_)) ?_
      · rw [drains.pending, (quiet_reapReads reap.qp now).pendingSends]
      · exact fun given => .inl given
      · rintro read op ⟨rfl, among⟩
        exact .inr (List.mem_map_of_mem among)
      · intro c among
        have before := drains.dropped c among
        have after : (reap.qp.reapReads now).counted false c ≠ true := by
          intro has
          have had := reads.fewer has
          simp only [Qp.counted, Bool.false_eq_true, if_false] at had
          rw [before] at had
          cases had
        simpa [Qp.counted] using after
  | retryNext w =>
      simp only [execWorker] at executed
      repeat' split at executed
      all_goals cases executed
      all_goals exact .same (.refl q) rfl
  | retryPending d reason w =>
      simp only [execWorker] at executed
      split at executed
      all_goals cases executed
      · exact .same (.refl q) rfl
      · exact .same (sameSlots_clearRetrying q d) rfl
  | retried d reason ret w =>
      simp only [execWorker] at executed
      split at executed
      · split at executed
        · cases executed
          refine .same ((sameSlots_countRetry q d reason).trans (sameSlots_rearm _ d)) ?_
          exact (quiet_rearm _ d).pendingSends
        · split at executed
          · cases executed
            refine .same ((sameSlots_clearRetrying q d).trans (sameSlots_rearm _ d)) ?_
            exact (quiet_rearm _ d).pendingSends
          · split at executed
            · cases executed
              refine .same ((sameSlots_countRetry q d .retryTimeout).trans
                ((sameSlots_clearRetrying _ d).trans (sameSlots_rearm _ d))) ?_
              exact (quiet_rearm _ d).pendingSends
            · cases executed
              exact (((Drains.refl q).markReady d etimedout).drain distinct).slots rfl
      · cases executed
        exact .same (sameSlots_clearRetrying q d) rfl
  | afterRetry w =>
      cases executed
      exact .same (.refl q) rfl
  | finishSends w =>
      cases executed
      exact .same (.refl q) rfl
  | done needResched =>
      simp only [execWorker] at executed
      split at executed
      all_goals cases executed
      · refine .same (SameSlots.trans ?_ (sameSlots_scheduleTimeout _)) ?_
        · exact ⟨fun _ _ => rfl, rfl, rfl⟩
        · exact (quiet_scheduleTimeout _).pendingSends
      · exact .same ⟨fun _ _ => rfl, rfl, rfl⟩ rfl

theorem gives_completeReadOrdered (q : Qp) (r : Nat) (status : Int) :
    Gives q (q.completeReadOrdered r status).1
      fun read op => (read, op) ∈ (Frame.completeRead r status).gives q := by
  unfold Qp.completeReadOrdered
  split
  · rename_i listed
    have marked := sameSlots_markReadyRead q r status
    have front : (q.pendingReads.takeWhile fun d => ((q.markReadyRead r status).read d).ready) =
        q.pendingReads.takeWhile fun d => d == r || (q.read d).ready := by
      congr 1
      funext d
      unfold Qp.markReadyRead
      by_cases same : d = r
      · subst same
        split <;> simp_all [Qp.modRead]
      · split <;> simp [Qp.modRead, same]
    dsimp only
    rw [marked.pendingReads, front]
    refine marked.gives.trans (Gives.trans (gives_pendingReads _ ?_)
      ((gives_releaseReads _ _).mono ?_))
    · rw [marked.pendingReads]
      exact (List.dropWhile_sublist _).subset
    · rintro read op ⟨rfl, among⟩
      simp only [Frame.gives, if_pos listed]
      exact List.mem_map_of_mem among
  · exact (SameSlots.refl q).gives

theorem exec_slots (distinct : q.pendingSends.Nodup)
    (executed : exec q f choice = some (q', pushed)) : Slots q f q' := by
  cases f with
  | post c stage => exact execPost_slots executed
  | postFrames c reason stage caller => exact execPostFrames_slots executed
  | postRead r stage => exact execPostRead_slots executed
  | txDone c status =>
      simp only [exec, execTxDone] at executed
      have quiet := (quiet_noteTxDone (q.note (.txDone c status)) c status).pendingSends
      repeat' split at executed
      all_goals cases executed
      all_goals exact .same ((sameSlots_note q _).trans (sameSlots_noteTxDone _ c status)) quiet
  | txFailed c status =>
      cases executed
      exact (drains_completeSendOrdered distinct _ status).slots rfl
  | releaseSendq c =>
      cases executed
      exact .release rfl rfl
  | sendComplete c status =>
      simp only [exec] at executed
      split at executed
      all_goals cases executed
      · exact .same (.refl q) rfl
      · exact .same (sameSlots_modCtx q c _ rfl) rfl
  | cancelPackets c =>
      simp only [exec] at executed
      repeat' split at executed
      all_goals cases executed
      exact .same ⟨fun _ _ => rfl, rfl, rfl⟩ rfl
  | cqPush c status =>
      simp only [exec] at executed
      repeat' split at executed
      all_goals cases executed
      all_goals exact .same ⟨fun _ _ => rfl, rfl, rfl⟩ rfl
  | ack psn status =>
      cases executed
      exact .same (.refl q) rfl
  | ackHandle psn status =>
      cases executed
      exact (drains_handleAck distinct psn status).slots rfl
  | wireAcked c =>
      cases executed
      exact .same (sameSlots_modCtx q c _ rfl) rfl
  | finish who sends err =>
      cases sends with
      | nil =>
          cases executed
          exact .same (.refl q) rfl
      | cons c rest =>
          cases executed
          exact .same (.refl q) rfl
  | worker stage => exact execWorker_slots distinct executed
  | markError =>
      simp only [exec] at executed
      split at executed
      all_goals cases executed
      all_goals exact .same ⟨fun _ _ => rfl, rfl, rfl⟩ rfl
  | flushSends =>
      cases executed
      exact (drains_flushSends distinct).slots rfl
  | flushReads =>
      cases executed
      refine Gives.slots ?_ (reads_not_sends _) (quiet_flushReads q).pendingSends
      refine (gives_pendingReads q (List.nil_subset _)).trans ((gives_releaseReads _ _).mono ?_)
      rintro read op ⟨rfl, among⟩
      exact List.mem_map_of_mem among
  | readTxDone r status =>
      simp only [exec] at executed
      split at executed
      · cases executed
        split
        · refine .same ((sameSlots_modRead q r _ rfl).trans (sameSlots_scheduleTimeout _)) ?_
          exact (quiet_scheduleTimeout _).pendingSends
        · exact .same (.refl q) rfl
      · rename_i failed
        split at executed
        · rename_i listed
          cases executed
          have gives : (Frame.readTxDone r status).gives q = [(true, r)] := by
            simp [Frame.gives, failed, listed]
          refine Gives.slots ((gives_unqueueRead q r).mono ?_) (by simp [gives])
            (quiet_unqueueRead q r).pendingSends
          rintro read op ⟨rfl, rfl⟩
          rw [gives]
          exact List.mem_singleton.mpr rfl
        · cases executed
          exact .same (.refl q) rfl
  | completeRead r status =>
      cases executed
      refine Gives.slots (gives_completeReadOrdered q r status) (fun op => ?_)
        (quiet_completeReadOrdered q r status).pendingSends
      simp only [Frame.gives]
      split
      · exact reads_not_sends _ op
      · exact List.not_mem_nil
  | finishReads reads status =>
      simp only [exec] at executed
      split at executed
      all_goals cases executed
      all_goals exact .same (.refl q) rfl
  | readComplete r status =>
      simp only [exec] at executed
      split at executed
      all_goals cases executed
      · exact .same (.refl q) rfl
      · exact .same (sameSlots_modRead q r _ rfl) rfl
  | cqPushRead r status =>
      simp only [exec] at executed
      repeat' split at executed
      all_goals cases executed
      all_goals exact .same ⟨fun _ _ => rfl, rfl, rfl⟩ rfl

/-! ## How slots are gained and lost -/

theorem queueRead_counted (q : Qp) (r : Nat) (read : Bool) (op : Nat) :
    (q.queueRead r).counted read op = q.counted read op :=
  (sameSlots_modRead { q with pendingReads := q.pendingReads ++ [r] } r _ rfl).counted read op

theorem takeSlot_counted (q : Qp) (c : Nat) (read : Bool) (op : Nat) :
    (q.takeSlot c).counted read op = (q.counted read op || (read, op) == (false, c)) := by
  cases read with
  | true => simp [Qp.counted, Qp.takeSlot, Qp.modCtx]
  | false =>
      by_cases same : op = c
      · subst same
        simp [Qp.counted, Qp.takeSlot, Qp.modCtx]
      · simp [Qp.counted, Qp.takeSlot, modCtx_ctx, same]

theorem takeSlotRead_counted (q : Qp) (r : Nat) (read : Bool) (op : Nat) :
    (q.takeSlotRead r).counted read op = (q.counted read op || (read, op) == (true, r)) := by
  cases read with
  | false => simp [Qp.counted, Qp.takeSlotRead, Qp.modRead]
  | true =>
      by_cases same : op = r
      · subst same
        simp [Qp.counted, Qp.takeSlotRead, Qp.modRead]
      · simp [Qp.counted, Qp.takeSlotRead, Qp.modRead, same]

/-- Why a request lost its slot. -/
inductive Loses (q : Qp) (f : Frame) (q' : Qp) : Bool → Nat → Prop
  | drained {gone : List Nat} {c : Nat} (pending : q.pendingSends = gone ++ q'.pendingSends)
      (among : c ∈ gone) : Loses q f q' false c
  | given {read : Bool} {op : Nat} (given : (read, op) ∈ f.gives q) : Loses q f q' read op
  | released {c : Nat} (is : f = .releaseSendq c) (held : (q.ctx c).sqCounted = true) :
      Loses q f q' false c

theorem Slots.kept (slots : Slots q f q') {read : Bool} (has : q.counted read op = true) :
    q'.counted read op = true ∨ Loses q f q' read op := by
  cases slots with
  | same only pending => exact .inl (by rwa [only.counted])
  | queueSend is eq => exact .inl (by rwa [eq, (sameSlots_queueSend _ _).counted])
  | queueRead is eq => exact .inl (by rwa [eq, queueRead_counted])
  | take is room eq => exact .inl (by rw [eq, takeSlot_counted, has, Bool.true_or])
  | takeRead is room eq => exact .inl (by rw [eq, takeSlotRead_counted, has, Bool.true_or])
  | @drain gone pending readsOnly gives dropped =>
      by_cases lost : read = false ∧ op ∈ gone ∨ (read, op) ∈ f.gives q
      · rcases lost with ⟨rfl, among⟩ | given
        · exact .inr (.drained pending among)
        · exact .inr (.given given)
      · exact .inl (gives.kept has lost)
  | @unqueue c credit ret is negative pending gives dropped =>
      by_cases lost : read = false ∧ op = c
      · obtain ⟨rfl, rfl⟩ := lost
        refine .inr (.given ?_)
        simp [is, Frame.gives, negative]
      · exact .inl (gives.kept has lost)
  | @release c is eq =>
      by_cases held : (q.ctx c).sqCounted = true
      · by_cases mine : read = false ∧ op = c
        · obtain ⟨rfl, rfl⟩ := mine
          exact .inr (.released is held)
        · left
          subst eq
          cases read with
          | true => simpa [Qp.releaseSendqCounted, held, Qp.counted, Qp.modCtx] using has
          | false =>
              have other : op ≠ c := fun same => mine ⟨rfl, same⟩
              simpa [Qp.releaseSendqCounted, held, Qp.counted, modCtx_ctx, other] using has
      · exact .inl (by simpa [eq, Qp.releaseSendqCounted, held] using has)

/-- A send that has its slot had it before or has just taken it. -/
theorem Slots.held_before (slots : Slots q f q') {c : Nat} (has : (q'.ctx c).sqCounted = true) :
    (q.ctx c).sqCounted = true ∨ ∃ credit, f = .post c (.reserve credit) ∧ q' = q.takeSlot c := by
  have counted : q'.counted false c = true := by simpa [Qp.counted] using has
  have before : q.counted false c = true ∨
      ∃ credit, f = .post c (.reserve credit) ∧ q' = q.takeSlot c := by
    cases slots with
    | same only pending => exact .inl (by rwa [only.counted] at counted)
    | queueSend is eq => exact .inl (by rwa [eq, (sameSlots_queueSend _ _).counted] at counted)
    | queueRead is eq => exact .inl (by rwa [eq, queueRead_counted] at counted)
    | @take d credit is room eq =>
        rw [eq, takeSlot_counted, Bool.or_eq_true] at counted
        rcases counted with old | new
        · exact .inl old
        · obtain rfl : c = d := by simpa using new
          exact .inr ⟨credit, is, eq⟩
    | takeRead is room eq => exact .inl (by simpa [eq, takeSlotRead_counted] using counted)
    | drain pending readsOnly gives dropped => exact .inl (gives.fewer counted)
    | unqueue is negative pending gives dropped => exact .inl (gives.fewer counted)
    | @release d is eq =>
        left
        subst eq
        unfold Qp.releaseSendqCounted at counted
        split at counted
        · by_cases same : c = d
          · subst same
            simp [Qp.counted, Qp.modCtx] at counted
          · simpa [Qp.counted, modCtx_ctx, same] using counted
        · exact counted
  simpa [Qp.counted] using before

theorem Slots.covered (slots : Slots q f q') (covered : Covered q)
    (kept : ∀ c, f = .releaseSendq c → (q.ctx c).sqCounted = false) : Covered q' := by
  obtain ⟨holders, enough, all⟩ := covered
  cases slots with
  | same only pending => exact (@SameSlots.gives _ _ (fun _ _ => False) only).covered ⟨holders, enough, all⟩
  | queueSend is eq =>
      subst eq
      exact (@SameSlots.gives _ _ (fun _ _ => False) (sameSlots_queueSend q _)).covered
        ⟨holders, enough, all⟩
  | queueRead is eq =>
      subst eq
      exact ⟨holders, enough, fun has => all (by rwa [queueRead_counted] at has)⟩
  | @take c credit is room eq =>
      subst eq
      refine ⟨(false, c) :: holders, Nat.succ_le_succ enough, fun {read op} has => ?_⟩
      rw [takeSlot_counted, Bool.or_eq_true, beq_iff_eq] at has
      exact List.mem_cons.mpr (has.symm.imp id all)
  | @takeRead r is room eq =>
      subst eq
      refine ⟨(true, r) :: holders, Nat.succ_le_succ enough, fun {read op} has => ?_⟩
      rw [takeSlotRead_counted, Bool.or_eq_true, beq_iff_eq] at has
      exact List.mem_cons.mpr (has.symm.imp id all)
  | drain pending readsOnly gives dropped => exact gives.covered ⟨holders, enough, all⟩
  | unqueue is negative pending gives dropped => exact gives.covered ⟨holders, enough, all⟩
  | @release c is eq =>
      have same : q' = q := by simp [eq, Qp.releaseSendqCounted, kept c is]
      rw [same]
      exact ⟨holders, enough, all⟩

theorem Slots.count_le (slots : Slots q f q') (bounded : q.sendqCount ≤ q.cfg.maxSendWr) :
    q'.sendqCount ≤ q.cfg.maxSendWr := by
  cases slots with
  | same only pending => rwa [only.count]
  | queueSend is eq => rwa [eq]
  | queueRead is eq => rwa [eq]
  | take is room eq =>
      subst eq
      exact room
  | takeRead is room eq =>
      subst eq
      exact room
  | drain pending readsOnly gives dropped => exact gives.count.trans bounded
  | unqueue is negative pending gives dropped => exact gives.count.trans bounded
  | release is eq =>
      subst eq
      unfold Qp.releaseSendqCounted
      split
      · exact (Nat.sub_le _ _).trans bounded
      · exact bounded

theorem Slots.pendingReads (slots : Slots q f q') (among : r ∈ q'.pendingReads) :
    r ∈ q.pendingReads ∨ f = .postRead r .queue := by
  cases slots with
  | same only pending => exact .inl (by rwa [only.pendingReads] at among)
  | queueSend is eq => exact .inl (by rwa [eq] at among)
  | @queueRead d is eq =>
      subst eq
      rcases List.mem_append.mp among with old | new
      · exact .inl old
      · cases List.mem_singleton.mp new
        exact .inr is
  | take is room eq => exact .inl (by rwa [eq] at among)
  | takeRead is room eq => exact .inl (by rwa [eq] at among)
  | drain pending readsOnly gives dropped => exact .inl (gives.reads among)
  | unqueue is negative pending gives dropped => exact .inl (gives.reads among)
  | release is eq =>
      subst eq
      unfold Qp.releaseSendqCounted at among
      split at among <;> exact .inl among

theorem Slots.left_list (slots : Slots q f q') {c : Nat} (listed : c ∈ q.pendingSends)
    (left : c ∉ q'.pendingSends) : (q'.ctx c).sqCounted = false := by
  cases slots with
  | same only pending => exact absurd (pending ▸ listed) left
  | queueSend is eq =>
      subst eq
      exact absurd (List.mem_append_left _ listed) left
  | queueRead is eq => exact absurd (eq ▸ listed) left
  | take is room eq => exact absurd (eq ▸ listed) left
  | takeRead is room eq => exact absurd (eq ▸ listed) left
  | drain pending readsOnly gives dropped =>
      rw [pending] at listed
      exact dropped c ((List.mem_append.mp listed).resolve_right left)
  | @unqueue d credit ret is negative pending gives dropped =>
      by_cases same : c = d
      · rw [same]
        exact dropped
      · rw [pending] at left
        exact absurd ((List.mem_erase_of_ne same).mpr listed) left
  | release is eq =>
      subst eq
      refine absurd ?_ left
      unfold Qp.releaseSendqCounted
      split <;> exact listed

/-- An event takes no slot and gives none back; the context of a new request is clean. -/
theorem react_slots {event : Event} {code : List Frame}
    (reacted : react q event = some (q', code)) :
    q'.sendqCount = q.sendqCount ∧ q'.pendingReads = q.pendingReads ∧
      (∀ {read op}, q'.counted read op = true → q.counted read op = true) ∧
      ∀ {read op}, op < q.nextOp → q.counted read op = true → q'.counted read op = true := by
  have same : ∀ {p : Qp}, SameSlots q p → p.sendqCount = q.sendqCount ∧
      p.pendingReads = q.pendingReads ∧
      (∀ {read op}, p.counted read op = true → q.counted read op = true) ∧
      ∀ {read op}, op < q.nextOp → q.counted read op = true → p.counted read op = true :=
    fun same => ⟨same.count, same.pendingReads, fun has => by rwa [same.counted] at has,
      fun _ has => by rwa [same.counted]⟩
  cases event with
  | postSend wr =>
      cases reacted
      refine ⟨rfl, rfl, fun {read op} has => ?_, fun {read op} old has => ?_⟩
      · cases read with
        | true => exact has
        | false =>
            by_cases new : op = q.nextOp
            · subst new
              simp [Qp.counted, newCtx] at has
            · simpa [Qp.counted, Function.update_of_ne new] using has
      · cases read with
        | true => exact has
        | false => simpa [Qp.counted, Function.update_of_ne old.ne] using has
  | postRead signaled =>
      cases reacted
      refine ⟨rfl, rfl, fun {read op} has => ?_, fun {read op} old has => ?_⟩
      · cases read with
        | false => exact has
        | true =>
            by_cases new : op = q.nextOp
            · subst new
              simp [Qp.counted] at has
            · simpa [Qp.counted, Function.update_of_ne new] using has
      · cases read with
        | false => exact has
        | true => simpa [Qp.counted, Function.update_of_ne old.ne] using has
  | recvCredit credits =>
      simp only [react] at reacted
      split at reacted
      all_goals cases reacted
      refine same (SameSlots.trans ?_ (sameSlots_scheduleTimeout _))
      exact ⟨fun _ _ => rfl, rfl, rfl⟩
  | _ =>
      simp only [react] at reacted
      repeat' split at reacted
      all_goals cases reacted
      all_goals exact same ⟨fun _ _ => rfl, rfl, rfl⟩

end

end Tbv.SendQueue
