import ThunderboltIbverbs.Timer.Spec
import ThunderboltIbverbs.Lib.Run

/-! # Whatever is pending has a timer

As long as a send, a READ, a READ response or the receive side has an entry with a timer, the
work is armed, or a run of it will look at the entry, flush it or ask for another run, or the
receive handler that made the entry is about to arm the work.  There are two ways out of this:
an RNR acknowledgement that stamps a send without arming the work, and a worker that finds
something timed out on a QP that is in error already, whose flush is not its own. -/
set_option autoImplicit false
namespace Tbv.Timer

open Trans
open Tbv.SendQueue (Timing)

/-! ## The invariant -/

/-- Entries of the kind are looked after. -/
def Watching (st : St) (kind : Kind) : Prop :=
  st.shared.sq.Armed ∨ (∃ code ∈ st.threads, minding kind code = true) ∨
    (kind = .rx ∧ st.Has (.schedule true))

def Covered (st : St) : Prop := ∀ kind, st.shared.Stamped kind → Watching st kind

section Invariant
variable {st : St} {q' : Qp} {choice : Choice} {pushed rest : List Frame} {f : Frame} {thread : Nat}

/-- What the running frame leaves looked after stays so in the next state. -/
theorem watching_of_pushed {kind : Kind} (found : st.threads[thread]? = some (f :: rest))
    (minds : minding kind (pushed ++ rest) = true) :
    Watching ⟨q', st.threads.set thread (pushed ++ rest)⟩ kind := by
  have inside : thread < st.threads.length := (List.getElem?_eq_some_iff.mp found).1
  exact .inr (.inl ⟨pushed ++ rest,
    List.mem_of_getElem? (List.getElem?_set_self inside), minds⟩)

theorem exec_stamped {q : Qp} {kind : Kind} (executed : exec q f choice = some (q', pushed))
    (timing : Timing q.sq q'.sq) (stamped : q'.Stamped kind) :
    q.Stamped kind ∨ q'.sq.Armed ∨ minding kind pushed = true ∨
      (kind = .rx ∧ .schedule true ∈ pushed) := by
  cases kind with
  | sends => exact (timing.sends stamped).imp_right .inl
  | reads => exact (timing.reads stamped).imp_right .inl
  | resps =>
      rcases exec_resps executed stamped with before | armed | ⟨g, among, minds⟩
      · exact .inl before
      · exact .inr (.inl armed)
      · exact .inr (.inr (.inl (minding_of_mem among minds)))
  | rx =>
      rcases exec_rx executed stamped with before | scheduled | ⟨g, among, minds⟩
      · exact .inl before
      · exact .inr (.inr (.inr ⟨rfl, scheduled⟩))
      · exact .inr (.inr (.inl (minding_of_mem among minds)))

theorem Covered.run (covered : Covered st) (found : st.threads[thread]? = some (f :: rest))
    (live : f = .timedOut → st.shared.sq.live = true)
    (watched : ∀ psn, f = .sq (.ackHandle psn .rnr) → st.shared.sq.stampsUnwatched psn = false)
    (executed : exec st.shared f choice = some (q', pushed)) :
    Covered ⟨q', st.threads.set thread (pushed ++ rest)⟩ := by
  intro kind stamped
  dsimp only at stamped
  by_cases begun : f = .sq (.worker .start)
  · subst begun
    rcases exec_start executed with armed | minds
    · exact .inl armed
    · exact watching_of_pushed found (minding_append_left minds rest)
  have timing := exec_timing executed begun watched
  rcases exec_stamped executed timing stamped with before | armed | minds | ⟨rfl, scheduled⟩
  · -- The entry was there before: who looked after it still does.
    rcases covered kind before with armed | ⟨code, among, minds⟩ | ⟨rfl, scheduled⟩
    · exact .inl (timing.stays armed)
    · obtain ⟨place, bound, rfl⟩ := List.mem_iff_getElem.mp among
      by_cases same : place = thread
      · subst same
        have stack : st.threads[place] = f :: rest := by
          have := List.getElem?_eq_getElem bound
          rw [found] at this
          exact (Option.some.inj this).symm
        rw [stack] at minds
        simp only [minding, Bool.or_eq_true, Bool.and_eq_true] at minds
        rcases minds with (own | ⟨flushes, works⟩) | later
        · rcases exec_minds own executed stamped with armed | minds
          · exact .inl armed
          · exact watching_of_pushed found (minding_append_left minds rest)
        · exact watching_of_pushed found (exec_flushes flushes works live executed stamped)
        · exact watching_of_pushed found (minding_append pushed later)
      · refine .inr (.inl ⟨st.threads[place], ?_, minds⟩)
        refine List.mem_of_getElem? (i := place) ?_
        rw [List.getElem?_set_ne (Ne.symm same), List.getElem?_eq_getElem bound]
    · rcases Threads.State.has_after_run found scheduled with rfl | stays
      · cases executed
        exact .inl (armed_schedule st.shared)
      · exact .inr (.inr ⟨rfl, stays⟩)
  · exact .inl armed
  · exact watching_of_pushed found (minding_append_left minds rest)
  · exact .inr (.inr ⟨rfl, Threads.State.has_of_pushed found scheduled⟩)

theorem react_timing {q : Qp} {event : Event} {code : List Frame}
    (reacted : react q event = some (q', code)) : Timing q.sq q'.sq := by
  cases event with
  | sq event =>
      simp only [react] at reacted
      split at reacted
      · cases reacted
      · cases reacted
      · cases reacted
      · obtain ⟨out, own, made⟩ := Option.map_eq_some_iff.mp reacted
        cases made
        exact SendQueue.timing_react (by simp) own
      · obtain ⟨out, own, made⟩ := Option.map_eq_some_iff.mp reacted
        cases made
        exact SendQueue.timing_react (fun same => by simp_all) own
  | timeoutWork =>
      simp only [react] at reacted
      split at reacted <;> cases reacted
      exact SendQueue.timing_of_eq rfl rfl rfl rfl rfl rfl rfl
  | readReqWork psn responds =>
      simp only [react] at reacted
      repeat' split at reacted
      all_goals cases reacted
      all_goals exact .refl q.sq
  | _ =>
      cases reacted
      exact .refl _

/-- What an event leaves of READ responses and of the receive side. -/
theorem react_others {q : Qp} {event : Event} {code : List Frame}
    (reacted : react q event = some (q', code)) :
    (q'.Stamped .resps → q.Stamped .resps) ∧ q'.rx = q.rx := by
  cases event with
  | sq event =>
      simp only [react] at reacted
      split at reacted
      · cases reacted
      · cases reacted
      · cases reacted
      all_goals
        obtain ⟨out, own, made⟩ := Option.map_eq_some_iff.mp reacted
        cases made
        exact ⟨id, rfl⟩
  | timeoutWork =>
      simp only [react] at reacted
      split at reacted <;> cases reacted
      exact ⟨id, rfl⟩
  | readReqWork psn responds =>
      simp only [react] at reacted
      repeat' split at reacted
      all_goals cases reacted
      · refine ⟨fun ⟨p, listed, runs⟩ => ⟨p, listed, ?_⟩, rfl⟩
        simp only [Function.update_apply] at runs
        split at runs
        · exact absurd rfl runs
        · exact runs
      · exact ⟨id, rfl⟩
  | _ =>
      cases reacted
      exact ⟨id, rfl⟩

theorem Covered.event {event : Event} {code : List Frame} (covered : Covered st)
    (reacted : react st.shared event = some (q', code)) :
    Covered ⟨q', st.threads ++ [code]⟩ := by
  intro kind stamped
  dsimp only at stamped
  have timing := react_timing reacted
  obtain ⟨resps, rx⟩ := react_others reacted
  have before : st.shared.Stamped kind ∨ q'.sq.Armed := by
    cases kind with
    | sends => exact timing.sends stamped
    | reads => exact timing.reads stamped
    | resps => exact .inl (resps stamped)
    | rx =>
        simp only [Qp.Stamped, rx] at stamped
        exact .inl stamped
  rcases before with before | armed
  · rcases covered kind before with armed | ⟨stack, among, minds⟩ | ⟨rfl, stack, among, inside⟩
    · exact .inl (timing.stays armed)
    · exact .inr (.inl ⟨stack, List.mem_append_left _ among, minds⟩)
    · exact .inr (.inr ⟨rfl, stack, List.mem_append_left _ among, inside⟩)
  · exact .inl armed

end Invariant

/-! ## The work item -/

/-- While the work is armed it is queued, or a worker has just been taken off the queue. -/
def Queued (st : St) : Prop :=
  st.shared.sq.timeoutArmed = true →
    st.shared.workQueued = true ∨ st.Has (.sq (.worker .start))

section Queued
variable {st : St} {q q' : Qp} {choice : Choice} {pushed rest : List Frame} {f : Frame}
  {thread : Nat}

/-- Nothing but the section that clears `timeout_work_armed` and an event takes the work off
the queue. -/
def Requeues (q q' : Qp) : Prop :=
  q'.sq.timeoutArmed = true → q'.workQueued = true ∨
    (q.sq.timeoutArmed = true ∧ (q.workQueued = true → q'.workQueued = true))

theorem requeues_of_eq (armed : q'.sq.timeoutArmed = q.sq.timeoutArmed)
    (queued : q'.workQueued = q.workQueued) : Requeues q q' :=
  fun now => .inr ⟨armed.symm.trans now, fun was => queued.trans was⟩

theorem requeues_withSq (q : Qp) (sq : SendQueue.Qp) (replaces : Bool) :
    Requeues q (q.withSq sq replaces) := by
  intro now
  have now : sq.timeoutArmed = true := now
  cases was : q.sq.timeoutArmed with
  | false => exact .inl (by simp [Qp.withSq, now, was])
  | true => exact .inr ⟨rfl, fun queued => by simp [Qp.withSq, queued]⟩

theorem execSq_requeues {g : SendQueue.Frame} {own : SendQueue.Choice}
    (executed : execSq q own g = some (q', pushed)) : Requeues q q' := by
  unfold execSq markError at executed
  repeat' split at executed
  all_goals first
    | (cases executed; first | exact requeues_of_eq rfl rfl | exact requeues_withSq q _ _)
    | (obtain ⟨out, -, made⟩ := Option.map_eq_some_iff.mp executed
       cases made
       exact requeues_withSq q _ _)
    | cases executed

theorem exec_requeues (executed : exec q f choice = some (q', pushed)) : Requeues q q' := by
  cases f with
  | sq g =>
      simp only [exec] at executed
      split at executed
      · exact execSq_requeues executed
      · cases executed
  | schedule idle =>
      cases executed
      exact requeues_withSq q _ _
  | readReq p stage =>
      cases stage with
      | queue =>
          cases executed
          exact requeues_of_eq rfl rfl
      | send =>
          simp only [exec, execReq] at executed
          split at executed <;> cases executed
          exact requeues_of_eq rfl rfl
      | sent =>
          cases executed
          unfold Qp.noteReadRespSent
          split
          · exact requeues_withSq (q.modResp p _) _ _
          · exact requeues_of_eq rfl rfl
      | arm =>
          cases executed
          unfold Qp.armReadRespTimeout
          split
          · exact requeues_withSq (q.modResp p _) _ _
          · exact requeues_of_eq rfl rfl
      | take =>
          cases executed
          unfold Qp.takeReadResp
          split <;> exact requeues_of_eq rfl rfl
  | retryReadResp psn =>
      cases executed
      unfold Qp.retryReadResp
      split
      · exact requeues_of_eq rfl rfl
      · rename_i p found
        split
        · exact requeues_of_eq rfl rfl
        · exact requeues_withSq (q.modResp p _) _ _
  | takeReadResp psn =>
      cases executed
      unfold Qp.takeReadResp
      split <;> exact requeues_of_eq rfl rfl
  | timedOut =>
      simp only [exec, markError] at executed
      split at executed <;> cases executed <;> exact requeues_of_eq rfl rfl
  | final needResched =>
      cases executed
      dsimp only
      split
      · exact requeues_withSq { q with sq := { q.sq with timeoutRunning := false } } _ _
      · exact requeues_of_eq rfl rfl
  | _ =>
      simp only [exec] at executed
      repeat' split at executed
      all_goals cases executed
      all_goals exact requeues_of_eq rfl rfl

theorem Queued.run (queued : Queued st) (found : st.threads[thread]? = some (f :: rest))
    (executed : exec st.shared f choice = some (q', pushed)) :
    Queued ⟨q', st.threads.set thread (pushed ++ rest)⟩ := by
  intro armed
  rcases exec_requeues executed armed with now | ⟨was, kept⟩
  · exact .inl now
  rcases queued was with before | has
  · exact .inl (kept before)
  rcases Threads.State.has_after_run found has with rfl | stays
  · -- The section that runs is the one that clears the flag.
    simp only [exec] at executed
    split at executed <;> cases executed
    cases armed
  · exact .inr stays

theorem Queued.event {event : Event} {code : List Frame} (queued : Queued st)
    (reacted : react st.shared event = some (q', code)) : Queued ⟨q', st.threads ++ [code]⟩ := by
  have stays : st.Has (.sq (.worker .start)) →
      @Threads.State.Has Qp Frame ⟨q', st.threads ++ [code]⟩ (.sq (.worker .start)) := by
    rintro ⟨stack, among, inside⟩
    exact ⟨stack, List.mem_append_left _ among, inside⟩
  have kept : Requeues st.shared q' → Queued ⟨q', st.threads ++ [code]⟩ := by
    intro requeues armed
    rcases requeues armed with now | ⟨was, kept⟩
    · exact .inl now
    · exact (queued was).imp kept stays
  cases event with
  | sq event =>
      refine kept ?_
      simp only [react] at reacted
      split at reacted
      · cases reacted
      · cases reacted
      · cases reacted
      all_goals
        obtain ⟨out, own, made⟩ := Option.map_eq_some_iff.mp reacted
        cases made
        exact requeues_withSq _ _ _
  | timeoutWork =>
      simp only [react] at reacted
      split at reacted <;> cases reacted
      exact fun _ => .inr ⟨_, List.mem_append_right _ (List.mem_singleton_self _),
        List.mem_singleton_self _⟩
  | readReqWork psn responds =>
      refine kept ?_
      simp only [react] at reacted
      repeat' split at reacted
      all_goals cases reacted
      all_goals exact requeues_of_eq rfl rfl
  | _ =>
      refine kept ?_
      cases reacted
      exact requeues_of_eq rfl rfl

end Queued

/-! ## The condition -/

/-- The steps that leave no entry unwatched: a worker that found something timed out marks the
error on a live QP, and so flushes it; no RNR acknowledgement gives a send its first stamp
without arming the work. -/
def Tended (st : St) : Lbl → Prop
  | .event _ => True
  | .run thread _ =>
      match st.top thread with
      | some .timedOut => st.shared.sq.live = true
      | some (.sq (.ackHandle psn .rnr)) => st.shared.sq.stampsUnwatched psn = false
      | _ => True

instance (st : St) (label : Lbl) : Decidable (Tended st label) := by
  unfold Tended
  cases label with
  | event _ => exact .isTrue trivial
  | run thread _ =>
      dsimp only
      split
      · infer_instance
      · infer_instance
      · exact .isTrue trivial

/-! ## Runs -/

/-- `timeout_work_armed` is set and the work is queued, or about to be run; or a run of it has
not yet decided whether to arm it again; or, for what the receive side waits for, a handler that
found nothing active and nothing buffered is on its way to `tbv_qp_schedule_timeout`. -/
def HasTimer (kind : Kind) (st : St) : Prop :=
  (st.shared.sq.timeoutArmed = true ∧
    (st.shared.workQueued = true ∨ st.Has (.sq (.worker .start)))) ∨
  (∃ f, st.Has f ∧ f.working = true) ∨ (kind = .rx ∧ st.Has (.schedule true))

/-- Everything a run keeps. -/
structure Kept (cfg : SendQueue.QpConfig) (st : St) : Prop where
  cfg : st.shared.sq.cfg = cfg
  open_ : st.shared.sq.closing = false
  covered : Covered st
  queued : Queued st

theorem kept_step {cfg : SendQueue.QpConfig} {st st' : St} {label : Lbl} (kept : Kept cfg st)
    (tended : Tended st label) (stepped : step st label = some st') : Kept cfg st' := by
  cases label with
  | event event =>
      obtain ⟨q, code, reacted, rfl⟩ := Threads.step_event stepped
      have timing := react_timing reacted
      exact ⟨timing.cfg.trans kept.cfg, timing.closing.trans kept.open_,
        kept.covered.event reacted, kept.queued.event reacted⟩
  | run thread choice =>
      obtain ⟨f, rest, q, pushed, found, executed, rfl⟩ := Threads.step_run stepped
      simp only [Tended, Threads.State.top_of_getElem? found] at tended
      have live : f = .timedOut → st.shared.sq.live = true := by
        rintro rfl
        exact tended
      have watched : ∀ psn, f = .sq (.ackHandle psn .rnr) →
          st.shared.sq.stampsUnwatched psn = false := by
        rintro psn rfl
        exact tended
      have fixed : q.sq.cfg = st.shared.sq.cfg ∧ q.sq.closing = st.shared.sq.closing := by
        by_cases begun : f = .sq (.worker .start)
        · subst begun
          simp only [exec] at executed
          split at executed <;> cases executed
          exact ⟨rfl, rfl⟩
        · have timing := exec_timing executed begun watched
          exact ⟨timing.cfg, timing.closing⟩
      exact ⟨fixed.1.trans kept.cfg, fixed.2.trans kept.open_,
        kept.covered.run found live watched executed, kept.queued.run found executed⟩

/-- In every run in which a worker that found something timed out marks the error on a live QP,
and no RNR acknowledgement stamps a send without arming the work, whatever has a timer to wait
for has one. -/
theorem pending_has_timer (cfg : SendQueue.QpConfig) (memory : Nat → UInt8)
    (rxCfg : RecvQueue.RxConfig) (attrs : RecvQueue.Attrs) (respRetryJiffies : Nat)
    (timeout : cfg.timeout ≠ 0) (st : St)
    (reached : Reaches step Tended (start cfg memory rxCfg attrs respRetryJiffies) st)
    (kind : Kind) (stamped : st.shared.Stamped kind) : HasTimer kind st := by
  have kept : Kept cfg st := by
    refine Reaches.invariant ?_ kept_step reached
    refine ⟨rfl, rfl, fun kind stamped => ?_, fun armed => by cases armed⟩
    cases kind with
    | sends =>
        obtain ⟨c, listed, -⟩ := stamped
        cases listed
    | reads =>
        obtain ⟨r, listed, -⟩ := stamped
        cases listed
    | resps =>
        obtain ⟨p, listed, -⟩ := stamped
        cases listed
    | rx => exact absurd ⟨rfl, rfl, rfl⟩ stamped
  rcases kept.covered kind stamped with armed | ⟨code, among, minds⟩ | scheduled
  · rcases armed with armed | off | closing
    · exact .inl ⟨armed, kept.queued armed⟩
    · rw [kept.cfg] at off
      exact absurd off timeout
    · rw [kept.open_] at closing
      cases closing
  · obtain ⟨f, inside, works⟩ := working_of_minding minds
    exact .inr (.inl ⟨f, ⟨code, among, inside⟩, works⟩)
  · exact .inr (.inr scheduled)

/-! ## Concrete runs -/

def ucTen : SendQueue.QpConfig where
  type := .uc
  maxSendWr := 4
  timeout := 10
  rnrTimeout := 1
  retryCnt := 7
  rnrRetry := 7
  zcopyMinBytes := 0
  initialPsn := 0

def startTen : St :=
  start ucTen (fun _ => 0) { qpNum := 1, recvqSize := 1, striping := false } {} 100

def emptyWrite : SendQueue.SendWr := { opcode := .rdmaWrite, segs := [] }

def ok (thread : Nat) : Lbl := .run thread (.sq .ok)

def tick : Lbl := .event (.sq .tick)

/-- The kernel as the runs below meet it: nothing fails and no MR is registered. -/
def plainEnv : RecvQueue.Env where
  allocMsg := true
  allocFrag := true
  cqFull := false
  recvMr := fun _ _ => true
  mr := fun _ => none
  iova := fun _ _ _ => false
  creditSent := true

/-- The end of a run of the work that has no response to send again. -/
def lastSections (thread : Nat) : List Lbl :=
  [ok thread, ok thread, ok thread, .run thread (.reap plainEnv ⟨false, false, fun _ => false⟩),
    ok thread]

/-- A post from its PSN to its return: the context is queued and stamped, its one frame is
taken. -/
def restOfPost (thread : Nat) : List Lbl :=
  List.replicate 5 (ok thread) ++ [.run thread (.sq (.queued 1 0)), ok thread]

def oneWrite : List Lbl :=
  [.event (.sq (.postSend emptyWrite)), ok 0, ok 0, ok 0, ok 0] ++ restOfPost 0 ++
    [tick, .event .timeoutWork] ++ List.replicate 8 (ok 2) ++ lastSections 2

theorem pending_has_timer_oneWrite : ∃ st, Reaches step Tended startTen st ∧
    st.shared.sq.pendingSends = [0] ∧ st.shared.Stamped .sends ∧ HasTimer .sends st := by
  obtain ⟨st, reached, is⟩ := @exists_reaches_of_guarded _ _ step Tended _ oneWrite startTen
    (fun st => (st.shared.sq.pendingSends == [0]) && (st.shared.sq.ctx 0).queuedJiffies == 1 &&
      st.threads.all List.isEmpty) (by decide +kernel)
  simp only [Bool.and_eq_true, beq_iff_eq] at is
  have stamped : st.shared.Stamped .sends := by
    refine ⟨0, ?_, ?_⟩
    · rw [is.1.1]
      exact List.mem_singleton_self 0
    · rw [is.1.2]
      exact Nat.one_ne_zero
  exact ⟨st, reached, is.1.1, stamped,
    pending_has_timer ucTen _ _ _ _ (by decide) st reached .sends stamped⟩

/-- Two WRITEs take their PSNs, the QP goes to ERR and is flushed, the WRITEs are queued one
jiffy apart, and the work runs when the first has timed out. -/
def queuedAfterFlush : List Lbl :=
  [.event (.sq (.postSend emptyWrite)), ok 0, ok 0, ok 0, ok 0,
    .event (.sq (.postSend emptyWrite)), ok 1, ok 1, ok 1, ok 1,
    .event (.sq .error), ok 2, ok 2, ok 2, ok 2, ok 2, ok 2, .run 2 (.rx plainEnv)] ++
  restOfPost 0 ++ [tick] ++ restOfPost 1 ++ List.replicate 9 tick ++
  [.event .timeoutWork] ++ List.replicate 7 (ok 13) ++
  [.run 13 (.sq (.cancelled 0 0)), ok 13, .run 13 (.sq (.cancelled 0 0))] ++
  List.replicate 3 (ok 13) ++ lastSections 13

/-- The worker completes the first WRITE and leaves the second to a flush that nobody runs. -/
theorem queued_after_flush_has_no_timer : ¬ ∀ (cfg : SendQueue.QpConfig) (memory : Nat → UInt8)
    (rxCfg : RecvQueue.RxConfig) (attrs : RecvQueue.Attrs) (respRetryJiffies : Nat),
    cfg.timeout ≠ 0 → ∀ st : St,
      Reaches step (fun _ _ => True) (start cfg memory rxCfg attrs respRetryJiffies) st →
      ∀ kind, st.shared.Stamped kind → HasTimer kind st := by
  intro claim
  obtain ⟨st, reached, is⟩ := @exists_reaches_of_guarded _ _ step (fun _ _ => True)
    (fun _ _ => .isTrue trivial) queuedAfterFlush startTen
    (fun st => (st.shared.sq.pendingSends == [1]) && (st.shared.sq.ctx 1).queuedJiffies == 2 &&
      !st.shared.sq.timeoutArmed && st.threads.all List.isEmpty) (by decide +kernel)
  simp only [Bool.and_eq_true, beq_iff_eq, Bool.not_eq_true', List.all_eq_true,
    List.isEmpty_iff] at is
  obtain ⟨⟨⟨listed, runs⟩, off⟩, done⟩ := is
  have stamped : st.shared.Stamped .sends := by
    refine ⟨1, ?_, ?_⟩
    · rw [listed]
      exact List.mem_singleton_self 1
    · rw [runs]
      decide
  have none : ∀ f, ¬ st.Has f := by
    rintro f ⟨code, among, inside⟩
    rw [done code among] at inside
    cases inside
  rcases claim ucTen _ _ _ _ (by decide) st reached .sends stamped with
    ⟨armed, -⟩ | ⟨f, has, -⟩ | ⟨is, -⟩
  · rw [off] at armed
    cases armed
  · exact none f has
  · cases is

end Tbv.Timer
