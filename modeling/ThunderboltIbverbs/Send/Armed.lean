import ThunderboltIbverbs.Send.Posting

/-! # The reaper comes back while a send is pending

Once `tbv_qp_timeout_work` is armed it stays armed, or some frame arms it again, until
the pending list is empty or the QP is in error; and only an RNR acknowledgement of a
live QP makes a send wait for its receiver. -/
set_option autoImplicit false
namespace Tbv.SendQueue

open Tbv.NativeData

/-- Nothing is disarmed or put in error, and no send starts to wait. -/
structure Calm (q q' : Qp) : Prop where
  armed : q.timeoutArmed = true → q'.timeoutArmed = true
  live : q'.live = q.live
  waiting : ∀ c, (q'.ctx c).rnrWaiting = true → (q.ctx c).rnrWaiting = true

section Calm
variable {q q' q'' : Qp}

theorem Calm.refl (q : Qp) : Calm q q := ⟨id, rfl, fun _ => id⟩

theorem Calm.trans (first : Calm q q') (second : Calm q' q'') : Calm q q'' :=
  ⟨second.armed ∘ first.armed, second.live.trans first.live,
    fun c => first.waiting c ∘ second.waiting c⟩

theorem calm_of_eq (armed : q'.timeoutArmed = q.timeoutArmed) (live : q'.live = q.live)
    (ctx : q'.ctx = q.ctx) : Calm q q' := by
  refine ⟨fun was => armed.trans was, live, fun c => ?_⟩
  rw [ctx]
  exact id

theorem calm_modCtx (q : Qp) (c : Nat) (f : SendCtx → SendCtx)
    (kept : (f (q.ctx c)).rnrWaiting = true → (q.ctx c).rnrWaiting = true) :
    Calm q (q.modCtx c f) := by
  refine ⟨id, rfl, fun d => ?_⟩
  unfold Qp.modCtx
  by_cases same : d = c
  · subst same
    simpa using kept
  · simp [Function.update_of_ne same]

theorem calm_sendqCount (q : Qp) (count : Nat) : Calm q { q with sendqCount := count } :=
  calm_of_eq rfl rfl rfl

theorem calm_pendingSends (q : Qp) (sends : List Nat) : Calm q { q with pendingSends := sends } :=
  calm_of_eq rfl rfl rfl

theorem calm_pendingReads (q : Qp) (reads : List Nat) : Calm q { q with pendingReads := reads } :=
  calm_of_eq rfl rfl rfl

theorem calm_scheduleTimeout (q : Qp) : Calm q q.scheduleTimeout := by
  unfold Qp.scheduleTimeout
  split
  · exact .refl q
  · exact ⟨fun _ => rfl, rfl, fun _ => id⟩

theorem calm_note (q : Qp) (entry : Entry) : Calm q (q.note entry) := calm_of_eq rfl rfl rfl

theorem calm_markQueued (q : Qp) (c : Nat) : Calm q (q.markQueued c) := calm_modCtx q c _ id

theorem calm_rearm (q : Qp) (c : Nat) : Calm q (q.markQueued c).scheduleTimeout :=
  (calm_markQueued q c).trans (calm_scheduleTimeout _)

theorem calm_clearRetrying (q : Qp) (c : Nat) : Calm q (q.clearRetrying c) := calm_modCtx q c _ id

theorem calm_countRetry (q : Qp) (c : Nat) (reason : PostReason) :
    Calm q (q.countRetry c reason) := by
  refine calm_modCtx q c _ fun waits => ?_
  split at waits <;> exact waits

theorem calm_detach (q : Qp) (cs : List Nat) : Calm q (q.detach cs) := by
  refine ⟨id, rfl, fun c waits => ?_⟩
  simp only [Qp.detach] at waits
  split at waits
  · cases waits
  · exact waits

theorem calm_releaseSendqCounted (q : Qp) (c : Nat) : Calm q (q.releaseSendqCounted c) := by
  unfold Qp.releaseSendqCounted
  split
  · exact (calm_sendqCount q _).trans (calm_modCtx _ c _ id)
  · exact .refl q

theorem calm_releaseReads (reads : List Nat) (q : Qp) :
    Calm q (reads.foldl Qp.releaseSendqCountedRead q) := by
  induction reads generalizing q with
  | nil => exact .refl q
  | cons r rest ih =>
      refine Calm.trans ?_ (ih _)
      unfold Qp.releaseSendqCountedRead
      split
      · exact calm_of_eq rfl rfl rfl
      · exact .refl q

theorem calm_queueSend (q : Qp) (c : Nat) : Calm q (q.queueSend c) :=
  (calm_pendingSends q _).trans (calm_modCtx _ c _ fun waits => by cases waits)

theorem calm_takePsn (q : Qp) (c : Nat) : Calm q (q.takePsn c) := by
  have advanced : Calm q (q.advancePsn c) := calm_of_eq rfl rfl rfl
  exact advanced.trans (calm_modCtx _ c _ id)

theorem calm_armSendTimeout (q : Qp) (c : Nat) : Calm q (q.armSendTimeout c) := by
  unfold Qp.armSendTimeout
  split
  · exact calm_rearm q c
  · exact .refl q

theorem calm_noteTxDone (q : Qp) (c : Nat) (status : Int) : Calm q (q.noteTxDone c status) := by
  have charged : Calm q (q.chargeTx c (-1)) := calm_modCtx q c _ id
  unfold Qp.noteTxDone
  dsimp only
  split
  · exact charged
  split
  · exact charged.trans ((calm_clearRetrying _ c).trans (calm_rearm _ c))
  · exact charged.trans (calm_clearRetrying _ c)

theorem calm_markReady (q : Qp) (c : Nat) (status : Int) : Calm q (q.markReady c status) := by
  unfold Qp.markReady
  split
  · exact .refl q
  · exact calm_modCtx q c _ fun waits => by cases waits

theorem calm_drainReadySends (q : Qp) : Calm q q.drainReadySends :=
  (calm_pendingSends q _).trans (calm_detach _ _)

theorem calm_completeSendOrdered (q : Qp) (psn : Nat) (status : Int) :
    Calm q (q.completeSendOrdered psn status).1 := by
  unfold Qp.completeSendOrdered
  split
  · exact .refl q
  · exact (calm_markReady ..).trans (calm_drainReadySends _)

theorem calm_flushSends (q : Qp) : Calm q q.flushSends := by
  have judged : Calm q q.judgeFlushed := by
    refine ⟨id, rfl, fun c waits => ?_⟩
    simp only [Qp.judgeFlushed] at waits
    split at waits <;> exact waits
  exact judged.trans (calm_detach _ _)

theorem calm_spendRecvCredit (q : Qp) (spends : Bool) : Calm q (q.spendRecvCredit spends) := by
  unfold Qp.spendRecvCredit
  split
  · exact calm_of_eq rfl rfl rfl
  · exact .refl q

theorem calm_startRetry (q : Qp) (c : Nat) (reason : PostReason) :
    Calm q (q.startRetry c reason) :=
  calm_modCtx q c _ fun waits => by cases waits

theorem calm_reapSends {now : Nat} {cs : List Nat} {r r' : Reap}
    (reaped : reapSends now cs r = some r') : Calm r.qp r'.qp := by
  induction cs generalizing r with
  | nil =>
      cases Option.some.inj reaped
      exact .refl _
  | cons c rest ih =>
      obtain ⟨middle, first, later⟩ := Option.bind_eq_some_iff.mp reaped
      refine Calm.trans ?_ (ih later)
      unfold reapSend at first
      split at first
      · cases Option.some.inj first
        exact .refl _
      · cases Option.some.inj first
        exact (calm_spendRecvCredit _ _).trans (calm_startRetry _ c _)
      · dsimp only at first
        split at first
        · cases first
        · cases Option.some.inj first
          exact (calm_markReady ..).trans (calm_drainReadySends _)

theorem calm_reapReads (q : Qp) (now : Nat) : Calm q (q.reapReads now) :=
  (calm_pendingReads q _).trans (calm_releaseReads _ _)

theorem calm_flushReads (q : Qp) : Calm q q.flushReads :=
  (calm_pendingReads q _).trans (calm_releaseReads _ _)

theorem calm_markReadyRead (q : Qp) (r : Nat) (status : Int) :
    Calm q (q.markReadyRead r status) := by
  unfold Qp.markReadyRead
  split
  · exact .refl q
  · exact calm_of_eq rfl rfl rfl

theorem calm_completeReadOrdered (q : Qp) (r : Nat) (status : Int) :
    Calm q (q.completeReadOrdered r status).1 := by
  unfold Qp.completeReadOrdered
  split
  · exact (calm_markReadyRead q r status).trans
      ((calm_pendingReads _ _).trans (calm_releaseReads _ _))
  · exact .refl q

end Calm

/-! ## Frames -/

section Exec
variable {q q' : Qp} {choice : Choice} {pushed : List Frame}

theorem calm_execPost {c : Nat} {stage : PostStage}
    (executed : execPost q c choice stage = some (q', pushed)) : Calm q q' := by
  cases stage with
  | queue credit =>
      simp only [execPost] at executed
      split at executed <;> cases executed
      all_goals exact calm_queueSend q c
  | takePsn credit =>
      cases executed
      exact calm_takePsn q c
  | arm credit =>
      cases executed
      exact calm_armSendTimeout q c
  | reserve credit =>
      simp only [execPost, Qp.refusePost, Qp.returnPost] at executed
      repeat' split at executed
      all_goals cases executed
      all_goals first
        | exact calm_of_eq rfl rfl rfl
        | exact (calm_sendqCount q _).trans (calm_modCtx _ c _ id)
  | framesPosted credit ret =>
      have unqueued : Calm q (q.unqueueSend c) :=
        (calm_pendingSends q _).trans (calm_detach _ _)
      simp only [execPost, Qp.refusePost, Qp.returnPost] at executed
      repeat' split at executed
      all_goals cases executed
      · exact calm_note ..
      · exact unqueued
      · exact unqueued.trans (calm_note ..)
      · exact calm_note ..
  | giveBack ret =>
      cases executed
      refine Calm.trans ?_ (calm_note _ _)
      unfold Qp.returnRemoteRecvCredit
      split
      · exact calm_of_eq rfl rfl rfl
      · exact .refl q
  | _ =>
      simp only [execPost, Qp.returnPost] at executed
      repeat' split at executed
      all_goals cases executed
      all_goals exact calm_of_eq rfl rfl rfl

theorem calm_execPostFrames {c : Nat} {reason : PostReason} {caller : Caller}
    {stage : FramesStage}
    (executed : execPostFrames q c reason caller choice stage = some (q', pushed)) :
    Calm q q' := by
  have charged : ∀ (q : Qp) (frames : Int), Calm q (q.chargeTx c frames) :=
    fun q frames => calm_modCtx q c _ id
  cases stage with
  | raw =>
      simp only [execPostFrames] at executed
      repeat' split at executed
      all_goals cases executed
      · have added : ∀ q : Qp, ∀ frames, Calm q (q.addRawInFlight c frames) :=
          fun q frames => calm_of_eq rfl rfl rfl
        exact (calm_note ..).trans ((charged ..).trans (added ..))
      · exact (calm_note ..).trans (charged ..)
  | charge frames =>
      simp only [execPostFrames] at executed
      repeat' split at executed
      all_goals cases executed
      · exact charged ..
      · exact .refl q
  | uncharge frames ret =>
      cases executed
      exact charged ..
  | _ =>
      simp only [execPostFrames] at executed
      repeat' split at executed
      all_goals cases executed
      all_goals exact calm_of_eq rfl rfl rfl

theorem calm_execPostRead {r : Nat} {stage : ReadStage}
    (executed : execPostRead q r choice stage = some (q', pushed)) : Calm q q' := by
  have released : ∀ q : Qp, Calm q (q.releaseSendqCountedRead r) :=
    fun q => calm_releaseReads [r] q
  cases stage with
  | unqueue ret =>
      simp only [execPostRead] at executed
      split at executed <;> cases executed
      · exact (calm_pendingReads q _).trans (released _)
      · exact .refl q
  | failed ret =>
      cases executed
      exact (released q).trans (calm_note ..)
  | _ =>
      simp only [execPostRead, Qp.returnRead] at executed
      repeat' split at executed
      all_goals cases executed
      all_goals exact calm_of_eq rfl rfl rfl

theorem calm_execWorker {stage : WorkerStage} (begun : stage ≠ .start)
    (executed : execWorker q choice stage = some (q', pushed)) : Calm q q' := by
  cases stage with
  | start => exact absurd rfl begun
  | reap now =>
      simp only [execWorker, Option.map_eq_some_iff] at executed
      obtain ⟨reap, reaped, made⟩ := executed
      cases made
      exact Calm.trans (calm_reapSends reaped) (calm_reapReads _ _)
  | retryPending c reason w =>
      simp only [execWorker] at executed
      split at executed <;> cases executed
      · exact .refl q
      · exact calm_clearRetrying q c
  | retried c reason ret w =>
      simp only [execWorker] at executed
      repeat' split at executed
      all_goals cases executed
      · exact (calm_countRetry ..).trans (calm_rearm _ c)
      · exact (calm_clearRetrying ..).trans (calm_rearm _ c)
      · exact (calm_countRetry ..).trans ((calm_clearRetrying ..).trans (calm_rearm _ c))
      · exact (calm_markReady ..).trans (calm_drainReadySends _)
      · exact calm_clearRetrying q c
  | done needResched =>
      have stopped : Calm q { q with timeoutRunning := false } := calm_of_eq rfl rfl rfl
      simp only [execWorker] at executed
      split at executed <;> cases executed
      · exact stopped.trans (calm_scheduleTimeout _)
      · exact stopped
  | _ =>
      simp only [execWorker] at executed
      repeat' split at executed
      all_goals cases executed
      all_goals exact .refl q

/-- What an RNR acknowledgement does: the send it names waits, if the QP is live. -/
theorem noteRnrAck_waiting (q : Qp) (psn : Nat) :
    (q.timeoutArmed = true → (q.noteRnrAck psn).1.timeoutArmed = true) ∧
    (q.noteRnrAck psn).1.live = q.live ∧
    ∀ c, ((q.noteRnrAck psn).1.ctx c).rnrWaiting = true → (q.ctx c).rnrWaiting = true ∨
      q.live = true ∧ q.matchPsn psn = some c := by
  have calm : ∀ {q' : Qp}, Calm q q' → (q.timeoutArmed = true → q'.timeoutArmed = true) ∧
      q'.live = q.live ∧ ∀ c, (q'.ctx c).rnrWaiting = true →
        (q.ctx c).rnrWaiting = true ∨ q.live = true ∧ q.matchPsn psn = some c :=
    fun calm => ⟨calm.armed, calm.live, fun c waits => .inl (calm.waiting c waits)⟩
  unfold Qp.noteRnrAck
  split
  · exact calm (.refl q)
  rename_i d found
  split
  · exact calm ((calm_markReady ..).trans (calm_drainReadySends _))
  rename_i live
  have live : q.live = true := by
    cases dead : q.live <;> simp_all
  have started : ∀ c, ((q.startRnrWait d).ctx c).rnrWaiting = true →
      (q.ctx c).rnrWaiting = true ∨ q.live = true ∧ q.matchPsn psn = some c := by
    intro c waits
    by_cases same : c = d
    · exact .inr ⟨live, by rw [same, found]⟩
    · left
      simpa [Qp.startRnrWait, Qp.markQueued, Qp.modCtx, Function.update_of_ne same] using waits
  split
  · exact ⟨id, rfl, started⟩
  · have scheduled := calm_scheduleTimeout (q.startRnrWait d)
    exact ⟨scheduled.armed, scheduled.live, fun c waits => started c (scheduled.waiting c waits)⟩

/-- What a frame does that neither starts a run of the reaper nor puts the QP in error. -/
theorem exec_armed {f : Frame} (executed : exec q f choice = some (q', pushed))
    (begun : f ≠ .worker .start) (error : f ≠ .markError) :
    (q.timeoutArmed = true → q'.timeoutArmed = true) ∧ q'.live = q.live ∧
    ∀ c, (q'.ctx c).rnrWaiting = true → (q.ctx c).rnrWaiting = true ∨
      ∃ psn, f = .ackHandle psn .rnr ∧ q.live = true ∧ q.matchPsn psn = some c := by
  have calm : Calm q q' → (q.timeoutArmed = true → q'.timeoutArmed = true) ∧
      q'.live = q.live ∧ ∀ c, (q'.ctx c).rnrWaiting = true → (q.ctx c).rnrWaiting = true ∨
        ∃ psn, f = .ackHandle psn .rnr ∧ q.live = true ∧ q.matchPsn psn = some c :=
    fun calm => ⟨calm.armed, calm.live, fun c waits => .inl (calm.waiting c waits)⟩
  cases f with
  | post c stage => exact calm (calm_execPost executed)
  | postFrames c reason stage caller => exact calm (calm_execPostFrames executed)
  | postRead r stage => exact calm (calm_execPostRead executed)
  | txDone c status =>
      refine calm ?_
      have done := (calm_note q (.txDone c status)).trans (calm_noteTxDone _ c status)
      simp only [exec, execTxDone] at executed
      repeat' split at executed
      all_goals cases executed
      all_goals exact done
  | txFailed c status =>
      cases executed
      exact calm (calm_completeSendOrdered ..)
  | releaseSendq c =>
      cases executed
      exact calm (calm_releaseSendqCounted q c)
  | sendComplete c status =>
      simp only [exec] at executed
      split at executed <;> cases executed
      · exact calm (.refl q)
      · exact calm (calm_modCtx q c _ id)
  | wireAcked c =>
      cases executed
      exact calm (calm_modCtx q c _ id)
  | ackHandle psn status =>
      cases executed
      cases status with
      | ok => exact calm (calm_completeSendOrdered ..)
      | error => exact calm (calm_completeSendOrdered ..)
      | rnr =>
          obtain ⟨armed, live, waiting⟩ := noteRnrAck_waiting q psn
          exact ⟨armed, live, fun c waits => (waiting c waits).imp id fun new => ⟨psn, rfl, new⟩⟩
  | finish who sends err =>
      simp only [exec] at executed
      cases sends <;> cases executed <;> exact calm (.refl q)
  | worker stage => exact calm (calm_execWorker (fun same => begun (by rw [same])) executed)
  | markError => exact absurd rfl error
  | flushSends =>
      cases executed
      exact calm (calm_flushSends q)
  | flushReads =>
      cases executed
      exact calm (calm_flushReads q)
  | readTxDone r status =>
      simp only [exec] at executed
      repeat' split at executed
      all_goals cases executed
      · have stamped : ∀ f, Calm q (q.modRead r f) := fun f => calm_of_eq rfl rfl rfl
        exact calm ((stamped _).trans (calm_scheduleTimeout _))
      · exact calm (.refl q)
      · exact calm ((calm_pendingReads q _).trans (calm_releaseReads [r] _))
      · exact calm (.refl q)
  | completeRead r status =>
      cases executed
      exact calm (calm_completeReadOrdered ..)
  | finishReads reads status =>
      simp only [exec] at executed
      split at executed <;> cases executed <;> exact calm (.refl q)
  | _ =>
      simp only [exec] at executed
      repeat' split at executed
      all_goals cases executed
      all_goals exact calm (calm_of_eq rfl rfl rfl)

/-! ## The reaper -/

def Worker.returns (w : Worker) : Bool := w.needResched || w.txTimedOut

/-- The stages of a run of `tbv_qp_timeout_work` that ends with the work armed again or
the QP in error, as long as something is pending when the reaper has passed. -/
def WorkerStage.returns : WorkerStage → Bool
  | .start | .reap _ => true
  | .retryNext w | .retryPending _ _ w | .retried _ _ _ w | .afterRetry w => w.returns
  | .finishSends w => w.needResched && !w.txTimedOut
  | .done needResched => needResched

def Frame.returns : Frame → Bool
  | .worker stage => stage.returns
  | .postFrames _ _ _ (.worker w) => w.returns
  | .markError => true
  | _ => false

/-- The reaper is armed, or a frame will arm it or end the connection. -/
def Hot (st : St) : Prop :=
  st.shared.timeoutArmed = true ∨ st.shared.live = false ∨ ∃ f, st.Has f ∧ f.returns = true

theorem armed_or_dead_of_scheduleTimeout (timeout : q.cfg.timeout ≠ 0) :
    q.scheduleTimeout.timeoutArmed = true ∨ q.scheduleTimeout.live = false := by
  unfold Qp.scheduleTimeout
  split
  · rename_i stopped
    have closing : q.closing = true := stopped.resolve_left timeout
    exact .inr (by simp [Qp.live, closing])
  · exact .inl rfl

theorem execPostFrames_returns {c : Nat} {reason : PostReason} {stage : FramesStage} {w : Worker}
    (returns : w.returns = true)
    (executed : execPostFrames q c reason (.worker w) choice stage = some (q', pushed)) :
    ∃ g ∈ pushed, g.returns = true := by
  have resumed : ∀ ret, ((Caller.worker w).resume c reason ret).returns = true :=
    fun ret => returns
  have stays : ∀ stage, (Frame.postFrames c reason stage (.worker w)).returns = true :=
    fun stage => returns
  cases stage <;> simp only [execPostFrames] at executed
  all_goals repeat' split at executed
  all_goals cases executed
  all_goals simp [resumed, stays]

/-- What a frame of the reaper leaves behind. -/
theorem exec_returns {f : Frame} (timeout : q.cfg.timeout ≠ 0) (returns : f.returns = true)
    (executed : exec q f choice = some (q', pushed)) :
    q'.timeoutArmed = true ∨ q'.live = false ∨ (∃ g ∈ pushed, g.returns = true) ∨
      q'.pendingSends = [] := by
  cases f with
  | postFrames c reason stage caller =>
      cases caller with
      | post credit => cases returns
      | worker w => exact .inr (.inr (.inl (execPostFrames_returns returns executed)))
  | markError =>
      simp only [exec] at executed
      split at executed
      · cases executed
        exact .inr (.inl (by simp [Qp.live]))
      · rename_i dead
        cases executed
        exact .inr (.inl (by simpa using dead))
  | worker stage =>
      cases stage with
      | start =>
          cases executed
          simp [timeout, Frame.returns, WorkerStage.returns]
      | reap now =>
          simp only [exec, execWorker, Option.map_eq_some_iff] at executed
          obtain ⟨reap, reaped, made⟩ := executed
          cases made
          by_cases closing : (reap.qp.reapReads now).closing = true
          · exact .inr (.inl (by simp [Qp.live, closing]))
          by_cases empty : (reap.qp.reapReads now).pendingSends = []
          · exact .inr (.inr (.inr empty))
          · simp [Frame.returns, WorkerStage.returns, Worker.returns, closing, empty]
      | retryNext w =>
          simp only [exec, execWorker] at executed
          repeat' split at executed
          all_goals cases executed
          all_goals exact .inr (.inr (.inl ⟨_, List.mem_singleton_self _, returns⟩))
      | retryPending c reason w =>
          simp only [exec, execWorker] at executed
          split at executed <;> cases executed
          all_goals exact .inr (.inr (.inl ⟨_, List.mem_singleton_self _, returns⟩))
      | retried c reason ret w =>
          simp only [exec, execWorker] at executed
          split at executed
          · repeat' split at executed
            all_goals cases executed
            all_goals simp [Frame.returns, WorkerStage.returns, Worker.returns]
          · cases executed
            exact .inr (.inr (.inl ⟨_, List.mem_singleton_self _, returns⟩))
      | afterRetry w =>
          cases executed
          cases timedOut : w.txTimedOut with
          | true => simp [Frame.returns]
          | false =>
              have again : w.needResched = true := by
                simpa [Frame.returns, WorkerStage.returns, Worker.returns, timedOut] using returns
              simp [Frame.returns, WorkerStage.returns, again, timedOut]
      | finishSends w =>
          cases executed
          exact .inr (.inr (.inl ⟨_, List.mem_cons_of_mem _ (List.mem_cons_of_mem _
            (List.mem_singleton_self _)), returns⟩))
      | done needResched =>
          have again : needResched = true := returns
          subst again
          cases executed
          rcases @armed_or_dead_of_scheduleTimeout { q with timeoutRunning := false } timeout with
            armed | dead
          · exact .inl armed
          · exact .inr (.inl dead)
  | _ => cases returns

theorem Hot.run {st : St} {thread : Nat} {f : Frame} {rest : List Frame} (hot : Hot st)
    (timeout : st.shared.cfg.timeout ≠ 0) (found : st.threads[thread]? = some (f :: rest))
    (executed : exec st.shared f choice = some (q', pushed)) :
    Hot ⟨q', st.threads.set thread (pushed ++ rest)⟩ ∨ q'.pendingSends = [] := by
  have ran : f.returns = true →
      Hot ⟨q', st.threads.set thread (pushed ++ rest)⟩ ∨ q'.pendingSends = [] := by
    intro returns
    rcases exec_returns timeout returns executed with armed | dead | ⟨g, among, again⟩ | empty
    · exact .inl (.inl armed)
    · exact .inl (.inr (.inl dead))
    · exact .inl (.inr (.inr ⟨g, Threads.State.has_of_pushed found among, again⟩))
    · exact .inr empty
  by_cases begun : f = .worker .start
  · exact ran (by rw [begun]; rfl)
  by_cases error : f = .markError
  · exact ran (by rw [error]; rfl)
  obtain ⟨armed, live, -⟩ := exec_armed executed begun error
  rcases hot with was | was | ⟨g, has, returns⟩
  · exact .inl (.inl (armed was))
  · exact .inl (.inr (.inl (live.trans was)))
  · rcases Threads.State.has_after_run found has with rfl | stays
    · exact ran returns
    · exact .inl (.inr (.inr ⟨g, stays, returns⟩))

/-! ## Events -/

theorem calm_react {event : Event} {code : List Frame} (open_ : event ≠ .close)
    (reacted : react q event = some (q', code)) : Calm q q' := by
  cases event with
  | postSend wr =>
      cases reacted
      refine ⟨id, rfl, fun c waits => ?_⟩
      simp only [Function.update_apply] at waits
      split at waits
      · cases waits
      · exact waits
  | recvCredit credits =>
      simp only [react] at reacted
      split at reacted
      · cases reacted
        have added : Calm q { q with remoteRecvCredits := q.remoteRecvCredits + credits } :=
          calm_of_eq rfl rfl rfl
        exact added.trans (calm_scheduleTimeout _)
      · cases reacted
  | close => exact absurd rfl open_
  | _ =>
      simp only [react] at reacted
      repeat' split at reacted
      all_goals cases reacted
      all_goals exact calm_of_eq rfl rfl rfl

theorem Hot.event {st : St} {event : Event} {code : List Frame} (hot : Hot st)
    (open_ : event ≠ .close) (reacted : react st.shared event = some (q', code)) :
    Hot ⟨q', st.threads ++ [code]⟩ := by
  have calm := calm_react open_ reacted
  rcases hot with was | was | ⟨g, ⟨stack, among, inside⟩, returns⟩
  · exact .inl (calm.armed was)
  · exact .inr (.inl (calm.live.trans was))
  · exact .inr (.inr ⟨g, ⟨stack, List.mem_append_left _ among, inside⟩, returns⟩)

/-! ## Waiting for a receiver -/

theorem mem_of_matchPsn {psn c : Nat} (found : q.matchPsn psn = some c) :
    c ∈ q.pendingSends ∧ (q.ctx c).psn = psn % psnMod := by
  refine ⟨List.mem_of_find?_eq_some found, ?_⟩
  simpa using List.find?_some found

/-- A pending send that waits did so before, or has just been answered with RNR. -/
theorem exec_waiting {f : Frame} {c : Nat} (wf : f.WellFormed)
    (executed : exec q f choice = some (q', pushed)) (listed : c ∈ q'.pendingSends)
    (waits : (q'.ctx c).rnrWaiting = true) :
    (c ∈ q.pendingSends ∧ (q.ctx c).rnrWaiting = true) ∨
      ∃ psn, f = .ackHandle psn .rnr ∧ q.live = true ∧ q.matchPsn psn = some c := by
  by_cases begun : f = .worker .start
  · subst begun
    cases executed
    exact .inl ⟨listed, waits⟩
  by_cases error : f = .markError
  · subst error
    simp only [exec] at executed
    split at executed <;> cases executed <;> exact .inl ⟨listed, waits⟩
  rcases (exec_armed executed begun error).2.2 c waits with before | answered
  · rcases (exec_effect wf executed).pending with fewer | ⟨d, credit, rfl, grown⟩
    · exact .inl ⟨fewer.subset listed, before⟩
    · -- the queued send itself does not wait
      have fresh : (q'.ctx d).rnrWaiting = false := by
        simp only [exec, execPost] at executed
        split at executed <;> cases executed <;> simp [Qp.queueSend, Qp.modCtx]
      rw [grown] at listed
      rcases List.mem_append.mp listed with old | new
      · exact .inl ⟨old, before⟩
      · cases List.mem_singleton.mp new
        rw [fresh] at waits
        cases waits
  · exact .inr answered

def Abandoned (st : St) : Prop :=
  st.shared.live = false → ∀ c ∈ st.shared.pendingSends, (st.shared.ctx c).rnrWaiting = true →
    st.Has .flushSends

theorem exec_live {f : Frame} (executed : exec q f choice = some (q', pushed))
    (lost : q'.live = false) : q.live = false ∨ .flushSends ∈ pushed := by
  by_cases error : f = .markError
  · subst error
    simp only [exec] at executed
    split at executed
    · cases executed
      exact .inr (by simp)
    · cases executed
      exact .inl lost
  by_cases begun : f = .worker .start
  · subst begun
    cases executed
    exact .inl lost
  · exact .inl ((exec_armed executed begun error).2.1.symm.trans lost)

theorem Abandoned.run {st : St} {thread : Nat} {f : Frame} {rest : List Frame}
    (abandoned : Abandoned st) (wf : f.WellFormed)
    (found : st.threads[thread]? = some (f :: rest))
    (executed : exec st.shared f choice = some (q', pushed)) :
    Abandoned ⟨q', st.threads.set thread (pushed ++ rest)⟩ := by
  intro lost c listed waits
  dsimp only at lost listed waits
  rcases exec_live executed lost with dead | flushed
  · rcases exec_waiting wf executed listed waits with ⟨was, waited⟩ | ⟨psn, _, live, _⟩
    · rcases Threads.State.has_after_run found (abandoned dead c was waited) with rfl | stays
      · cases executed
        cases listed
      · exact stays
    · rw [dead] at live
      cases live
  · exact Threads.State.has_of_pushed found flushed

theorem Abandoned.event {st : St} {event : Event} {code : List Frame} (abandoned : Abandoned st)
    (open_ : event ≠ .close) (reacted : react st.shared event = some (q', code)) :
    Abandoned ⟨q', st.threads ++ [code]⟩ := by
  intro lost c listed waits
  dsimp only at lost listed waits
  have calm := calm_react open_ reacted
  rw [(react_reacts reacted).pendingSends] at listed
  obtain ⟨stack, among, inside⟩ :=
    abandoned (calm.live.symm.trans lost) c listed (calm.waiting c waits)
  exact ⟨stack, List.mem_append_left _ among, inside⟩

end Exec

end Tbv.SendQueue
