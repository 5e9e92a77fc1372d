import ThunderboltIbverbs.Send.Exec

/-! # Stamps of the send queue

A pending send or READ has a timer once `queued_jiffies` is set.  Every section of the send
queue that sets it arms the timeout work as well, but one: an RNR acknowledgement of a send
that waits for a receive credit when there is none. -/
set_option autoImplicit false
namespace Tbv.SendQueue

open Tbv.NativeData

def Qp.sendStamped (q : Qp) : Prop := ∃ c ∈ q.pendingSends, (q.ctx c).queuedJiffies ≠ 0

def Qp.readStamped (q : Qp) : Prop := ∃ r ∈ q.pendingReads, (q.read r).queuedJiffies ≠ 0

def Qp.Armed (q : Qp) : Prop :=
  q.timeoutArmed = true ∨ q.cfg.timeout = 0 ∨ q.closing = true

structure Timing (q q' : Qp) : Prop where
  cfg : q'.cfg = q.cfg
  closing : q'.closing = q.closing
  armed : q.timeoutArmed = true → q'.timeoutArmed = true
  sends : q'.sendStamped → q.sendStamped ∨ q'.Armed
  reads : q'.readStamped → q.readStamped ∨ q'.Armed

section Timing
variable {q q' q'' : Qp}

theorem Timing.stays (timing : Timing q q') (armed : q.Armed) : q'.Armed := by
  rcases armed with armed | off | closing
  · exact .inl (timing.armed armed)
  · exact .inr (.inl (by rw [timing.cfg]; exact off))
  · exact .inr (.inr (by rw [timing.closing]; exact closing))

theorem Timing.refl (q : Qp) : Timing q q := ⟨rfl, rfl, id, .inl, .inl⟩

theorem Timing.trans (first : Timing q q') (second : Timing q' q'') : Timing q q'' where
  cfg := second.cfg.trans first.cfg
  closing := second.closing.trans first.closing
  armed := second.armed ∘ first.armed
  sends := by
    intro stamped
    rcases second.sends stamped with before | armed
    · exact (first.sends before).imp_right second.stays
    · exact .inr armed
  reads := by
    intro stamped
    rcases second.reads stamped with before | armed
    · exact (first.reads before).imp_right second.stays
    · exact .inr armed

/-- Nothing is stamped, and nothing stamped is queued. -/
theorem timing_of_fewer (cfg : q'.cfg = q.cfg) (closing : q'.closing = q.closing)
    (armed : q'.timeoutArmed = q.timeoutArmed)
    (sends : ∀ c ∈ q'.pendingSends, (q'.ctx c).queuedJiffies ≠ 0 →
      c ∈ q.pendingSends ∧ (q.ctx c).queuedJiffies ≠ 0)
    (reads : ∀ r ∈ q'.pendingReads, (q'.read r).queuedJiffies ≠ 0 →
      r ∈ q.pendingReads ∧ (q.read r).queuedJiffies ≠ 0) : Timing q q' where
  cfg := cfg
  closing := closing
  armed := fun was => armed.trans was
  sends := fun ⟨c, listed, stamped⟩ => .inl ⟨c, sends c listed stamped⟩
  reads := fun ⟨r, listed, stamped⟩ => .inl ⟨r, reads r listed stamped⟩

theorem timing_of_eq (cfg : q'.cfg = q.cfg) (closing : q'.closing = q.closing)
    (armed : q'.timeoutArmed = q.timeoutArmed) (sends : q'.pendingSends = q.pendingSends)
    (reads : q'.pendingReads = q.pendingReads) (ctx : q'.ctx = q.ctx) (read : q'.read = q.read) :
    Timing q q' := by
  refine timing_of_fewer cfg closing armed ?_ ?_
  · rw [sends, ctx]
    exact fun c listed stamped => ⟨listed, stamped⟩
  · rw [reads, read]
    exact fun r listed stamped => ⟨listed, stamped⟩

theorem timing_modCtx (q : Qp) (c : Nat) (f : SendCtx → SendCtx)
    (kept : (f (q.ctx c)).queuedJiffies ≠ 0 → (q.ctx c).queuedJiffies ≠ 0) :
    Timing q (q.modCtx c f) := by
  refine timing_of_fewer rfl rfl rfl (fun d listed stamped => ⟨listed, ?_⟩)
    fun r listed stamped => ⟨listed, stamped⟩
  by_cases same : d = c
  · subst same
    simp only [Qp.modCtx, Function.update_self] at stamped
    exact kept stamped
  · simpa [Qp.modCtx, Function.update_of_ne same] using stamped

theorem timing_modRead (q : Qp) (r : Nat) (f : ReadCtx → ReadCtx)
    (kept : (f (q.read r)).queuedJiffies ≠ 0 → (q.read r).queuedJiffies ≠ 0) :
    Timing q (q.modRead r f) := by
  refine timing_of_fewer rfl rfl rfl (fun c listed stamped => ⟨listed, stamped⟩)
    fun d listed stamped => ⟨listed, ?_⟩
  by_cases same : d = r
  · subst same
    simp only [Qp.modRead, Function.update_self] at stamped
    exact kept stamped
  · simpa [Qp.modRead, Function.update_of_ne same] using stamped

theorem timing_pendingSends (q : Qp) {sends : List Nat} (fewer : sends ⊆ q.pendingSends) :
    Timing q { q with pendingSends := sends } :=
  timing_of_fewer rfl rfl rfl (fun _ listed stamped => ⟨fewer listed, stamped⟩)
    fun _ listed stamped => ⟨listed, stamped⟩

theorem timing_pendingReads (q : Qp) {reads : List Nat} (fewer : reads ⊆ q.pendingReads) :
    Timing q { q with pendingReads := reads } :=
  timing_of_fewer rfl rfl rfl (fun _ listed stamped => ⟨listed, stamped⟩)
    fun _ listed stamped => ⟨fewer listed, stamped⟩

theorem timing_sendqCount (q : Qp) (count : Nat) : Timing q { q with sendqCount := count } :=
  timing_of_eq rfl rfl rfl rfl rfl rfl rfl

theorem timing_note (q : Qp) (entry : Entry) : Timing q (q.note entry) :=
  timing_of_eq rfl rfl rfl rfl rfl rfl rfl

theorem armed_scheduleTimeout (q : Qp) : q.scheduleTimeout.Armed := by
  unfold Qp.scheduleTimeout
  split
  · exact .inr ‹_›
  · exact .inl rfl

/-- Whatever the section has stamped, it arms the work. -/
theorem timing_scheduleTimeout (cfg : q'.cfg = q.cfg) (closing : q'.closing = q.closing)
    (armed : q'.timeoutArmed = q.timeoutArmed) : Timing q q'.scheduleTimeout := by
  have scheduled := armed_scheduleTimeout q'
  refine ⟨?_, ?_, ?_, fun _ => .inr scheduled, fun _ => .inr scheduled⟩
  all_goals
    unfold Qp.scheduleTimeout
    split
  · exact cfg
  · exact cfg
  · exact closing
  · exact closing
  · exact fun was => armed.trans was
  · exact fun _ => rfl

theorem timing_rearm (q : Qp) (c : Nat) : Timing q (q.markQueued c).scheduleTimeout :=
  timing_scheduleTimeout rfl rfl rfl

theorem timing_clearRetrying (q : Qp) (c : Nat) : Timing q (q.clearRetrying c) :=
  timing_modCtx q c _ id

theorem timing_countRetry (q : Qp) (c : Nat) (reason : PostReason) :
    Timing q (q.countRetry c reason) := by
  refine timing_modCtx q c _ fun stamped => ?_
  split at stamped <;> exact stamped

theorem timing_chargeTx (q : Qp) (c : Nat) (frames : Int) : Timing q (q.chargeTx c frames) :=
  timing_modCtx q c _ id

theorem timing_detach (q : Qp) (cs : List Nat) : Timing q (q.detach cs) := by
  refine timing_of_fewer rfl rfl rfl (fun c listed stamped => ⟨listed, ?_⟩)
    fun r listed stamped => ⟨listed, stamped⟩
  simp only [Qp.detach] at stamped
  split at stamped <;> exact stamped

theorem timing_releaseSendqCounted (q : Qp) (c : Nat) : Timing q (q.releaseSendqCounted c) := by
  unfold Qp.releaseSendqCounted
  split
  · exact (timing_sendqCount q _).trans (timing_modCtx _ c _ id)
  · exact .refl q

theorem timing_releaseReads (reads : List Nat) (q : Qp) :
    Timing q (reads.foldl Qp.releaseSendqCountedRead q) := by
  induction reads generalizing q with
  | nil => exact .refl q
  | cons r rest ih =>
      refine Timing.trans ?_ (ih _)
      unfold Qp.releaseSendqCountedRead
      split
      · exact (timing_sendqCount q _).trans (timing_modRead _ r _ id)
      · exact .refl q

theorem pendingReads_releaseReads (reads : List Nat) (q : Qp) :
    (reads.foldl Qp.releaseSendqCountedRead q).pendingReads = q.pendingReads := by
  induction reads generalizing q with
  | nil => rfl
  | cons r rest ih =>
      refine (ih _).trans ?_
      unfold Qp.releaseSendqCountedRead
      split <;> rfl

theorem timing_queueSend (q : Qp) (c : Nat) : Timing q (q.queueSend c) := by
  refine timing_of_fewer rfl rfl rfl (fun d listed stamped => ?_)
    fun r listed stamped => ⟨listed, stamped⟩
  by_cases same : d = c
  · simp [Qp.queueSend, Qp.modCtx, same] at stamped
  · simp only [Qp.queueSend, Qp.modCtx, List.mem_append, List.mem_singleton] at listed
    exact ⟨listed.resolve_right same,
      by simpa [Qp.queueSend, Qp.modCtx, Function.update_of_ne same] using stamped⟩

theorem timing_queueRead (q : Qp) (r : Nat) : Timing q (q.queueRead r) := by
  refine timing_of_fewer rfl rfl rfl (fun c listed stamped => ⟨listed, stamped⟩)
    fun d listed stamped => ?_
  by_cases same : d = r
  · simp [Qp.queueRead, Qp.modRead, same] at stamped
  · simp only [Qp.queueRead, Qp.modRead, List.mem_append, List.mem_singleton] at listed
    exact ⟨listed.resolve_right same,
      by simpa [Qp.queueRead, Qp.modRead, Function.update_of_ne same] using stamped⟩

theorem timing_takePsn (q : Qp) (c : Nat) : Timing q (q.takePsn c) := by
  have advanced : Timing q (q.advancePsn c) := timing_of_eq rfl rfl rfl rfl rfl rfl rfl
  exact advanced.trans (timing_modCtx _ c _ id)

theorem timing_takePsnRead (q : Qp) (r : Nat) : Timing q (q.takePsnRead r) := by
  have advanced : Timing q (q.advancePsn r) := timing_of_eq rfl rfl rfl rfl rfl rfl rfl
  exact advanced.trans (timing_modRead _ r _ id)

theorem timing_armSendTimeout (q : Qp) (c : Nat) : Timing q (q.armSendTimeout c) := by
  unfold Qp.armSendTimeout
  split
  · exact timing_rearm q c
  · exact .refl q

theorem timing_noteTxDone (q : Qp) (c : Nat) (status : Int) : Timing q (q.noteTxDone c status) := by
  unfold Qp.noteTxDone
  dsimp only
  split
  · exact timing_chargeTx ..
  split
  · exact (timing_chargeTx ..).trans ((timing_clearRetrying _ c).trans (timing_rearm _ c))
  · exact (timing_chargeTx ..).trans (timing_clearRetrying _ c)

theorem timing_markReady (q : Qp) (c : Nat) (status : Int) : Timing q (q.markReady c status) := by
  unfold Qp.markReady
  split
  · exact .refl q
  · exact timing_modCtx q c _ id

theorem timing_drainReadySends (q : Qp) : Timing q q.drainReadySends :=
  (timing_pendingSends q (List.dropWhile_suffix _).subset).trans (timing_detach _ _)

/-- A verdict, and what it frees at the head of the list. -/
theorem timing_settle (q : Qp) (c : Nat) (status : Int) :
    Timing q (q.markReady c status).drainReadySends :=
  (timing_markReady q c status).trans (timing_drainReadySends _)

theorem timing_completeSendOrdered (q : Qp) (psn : Nat) (status : Int) :
    Timing q (q.completeSendOrdered psn status).1 := by
  unfold Qp.completeSendOrdered
  split
  · exact .refl q
  · exact timing_settle ..

theorem timing_flushSends (q : Qp) : Timing q q.flushSends := by
  have judged : Timing q q.judgeFlushed :=
    timing_of_fewer rfl rfl rfl (fun c listed => by cases listed)
      fun r listed stamped => ⟨listed, stamped⟩
  exact judged.trans (timing_detach _ _)

theorem timing_unqueueSend (q : Qp) (c : Nat) : Timing q (q.unqueueSend c) :=
  (timing_pendingSends q List.erase_subset).trans (timing_detach _ _)

theorem timing_unqueueRead (q : Qp) (r : Nat) : Timing q (q.unqueueRead r) :=
  (timing_pendingReads q List.erase_subset).trans (timing_releaseReads [r] _)

theorem timing_spendRecvCredit (q : Qp) (spends : Bool) : Timing q (q.spendRecvCredit spends) := by
  unfold Qp.spendRecvCredit
  split
  · exact timing_of_eq rfl rfl rfl rfl rfl rfl rfl
  · exact .refl q

theorem timing_startRetry (q : Qp) (c : Nat) (reason : PostReason) :
    Timing q (q.startRetry c reason) :=
  timing_modCtx q c _ id

theorem timing_reapSends {now : Nat} {cs : List Nat} {r r' : Reap}
    (reaped : reapSends now cs r = some r') : Timing r.qp r'.qp := by
  induction cs generalizing r with
  | nil =>
      cases Option.some.inj reaped
      exact .refl _
  | cons c rest ih =>
      obtain ⟨middle, first, later⟩ := Option.bind_eq_some_iff.mp reaped
      refine Timing.trans ?_ (ih later)
      unfold reapSend at first
      split at first
      · cases Option.some.inj first
        exact .refl _
      · cases Option.some.inj first
        exact (timing_spendRecvCredit _ _).trans (timing_startRetry _ c _)
      · dsimp only at first
        split at first
        · cases first
        · cases Option.some.inj first
          exact timing_settle ..

theorem timing_reapReads (q : Qp) (now : Nat) : Timing q (q.reapReads now) :=
  (timing_pendingReads q (List.filter_subset_self _)).trans (timing_releaseReads _ _)

theorem timing_flushReads (q : Qp) : Timing q q.flushReads :=
  (timing_pendingReads q (List.nil_subset _)).trans (timing_releaseReads _ _)

theorem timing_completeReadOrdered (q : Qp) (r : Nat) (status : Int) :
    Timing q (q.completeReadOrdered r status).1 := by
  unfold Qp.completeReadOrdered
  split
  · have marked : Timing q (q.markReadyRead r status) := by
      unfold Qp.markReadyRead
      split
      · exact .refl q
      · exact timing_modRead q r _ id
    exact marked.trans ((timing_pendingReads _ (List.dropWhile_suffix _).subset).trans
      (timing_releaseReads _ _))
  · exact .refl q

end Timing

/-! ## Frames -/

section Exec
variable {q q' : Qp} {choice : Choice} {pushed : List Frame}

theorem timing_execPost {c : Nat} {stage : PostStage}
    (executed : execPost q c choice stage = some (q', pushed)) : Timing q q' := by
  cases stage with
  | queue credit =>
      simp only [execPost] at executed
      split at executed <;> cases executed
      all_goals exact timing_queueSend q c
  | takePsn credit =>
      cases executed
      exact timing_takePsn q c
  | arm credit =>
      cases executed
      exact timing_armSendTimeout q c
  | reserve credit =>
      simp only [execPost, Qp.refusePost, Qp.returnPost] at executed
      repeat' split at executed
      all_goals cases executed
      all_goals first
        | exact timing_of_eq rfl rfl rfl rfl rfl rfl rfl
        | exact (timing_sendqCount q _).trans (timing_modCtx _ c _ id)
  | framesPosted credit ret =>
      simp only [execPost, Qp.refusePost, Qp.returnPost] at executed
      repeat' split at executed
      all_goals cases executed
      · exact timing_note ..
      · exact timing_unqueueSend q c
      · exact (timing_unqueueSend q c).trans (timing_note ..)
      · exact timing_note ..
  | giveBack ret =>
      cases executed
      refine Timing.trans ?_ (timing_note _ _)
      unfold Qp.returnRemoteRecvCredit
      split
      · exact timing_of_eq rfl rfl rfl rfl rfl rfl rfl
      · exact .refl q
  | _ =>
      simp only [execPost, Qp.returnPost, Qp.spendRecvCredit] at executed
      repeat' split at executed
      all_goals cases executed
      all_goals exact timing_of_eq rfl rfl rfl rfl rfl rfl rfl

theorem timing_execPostFrames {c : Nat} {reason : PostReason} {caller : Caller}
    {stage : FramesStage}
    (executed : execPostFrames q c reason caller choice stage = some (q', pushed)) :
    Timing q q' := by
  cases stage with
  | raw =>
      have added : ∀ (q : Qp) (frames : Nat), Timing q (q.addRawInFlight c frames) :=
        fun q frames => timing_of_eq rfl rfl rfl rfl rfl rfl rfl
      simp only [execPostFrames] at executed
      repeat' split at executed
      all_goals cases executed
      · exact (timing_note ..).trans ((timing_chargeTx ..).trans (added ..))
      · exact (timing_note ..).trans (timing_chargeTx ..)
  | charge frames =>
      simp only [execPostFrames] at executed
      repeat' split at executed
      all_goals cases executed
      · exact timing_chargeTx ..
      · exact .refl q
  | uncharge frames ret =>
      cases executed
      exact timing_chargeTx ..
  | _ =>
      simp only [execPostFrames] at executed
      repeat' split at executed
      all_goals cases executed
      all_goals exact timing_of_eq rfl rfl rfl rfl rfl rfl rfl

theorem timing_execPostRead {r : Nat} {stage : ReadStage}
    (executed : execPostRead q r choice stage = some (q', pushed)) : Timing q q' := by
  cases stage with
  | reserve =>
      simp only [execPostRead, Qp.returnRead] at executed
      repeat' split at executed
      all_goals cases executed
      · exact timing_note ..
      · exact timing_note ..
      · exact (timing_sendqCount q _).trans (timing_modRead _ r _ id)
  | takePsn =>
      cases executed
      exact timing_takePsnRead q r
  | queue =>
      cases executed
      exact timing_queueRead q r
  | unqueue ret =>
      simp only [execPostRead] at executed
      split at executed <;> cases executed
      · exact timing_unqueueRead q r
      · exact .refl q
  | failed ret =>
      cases executed
      exact (timing_releaseReads [r] q).trans (timing_note ..)
  | _ =>
      simp only [execPostRead, Qp.returnRead] at executed
      repeat' split at executed
      all_goals cases executed
      all_goals exact timing_of_eq rfl rfl rfl rfl rfl rfl rfl

theorem timing_execWorker {stage : WorkerStage} (begun : stage ≠ .start)
    (executed : execWorker q choice stage = some (q', pushed)) : Timing q q' := by
  cases stage with
  | start => exact absurd rfl begun
  | reap now =>
      simp only [execWorker, Option.map_eq_some_iff] at executed
      obtain ⟨reap, reaped, made⟩ := executed
      cases made
      exact Timing.trans (timing_reapSends reaped) (timing_reapReads _ _)
  | retryPending c reason w =>
      simp only [execWorker] at executed
      split at executed <;> cases executed
      · exact .refl q
      · exact timing_clearRetrying q c
  | retried c reason ret w =>
      simp only [execWorker] at executed
      repeat' split at executed
      all_goals cases executed
      · exact (timing_countRetry ..).trans (timing_rearm _ c)
      · exact (timing_clearRetrying ..).trans (timing_rearm _ c)
      · exact (timing_countRetry ..).trans ((timing_clearRetrying ..).trans (timing_rearm _ c))
      · exact timing_settle ..
      · exact timing_clearRetrying q c
  | done needResched =>
      simp only [execWorker] at executed
      split at executed <;> cases executed
      · exact timing_scheduleTimeout rfl rfl rfl
      · exact timing_of_eq rfl rfl rfl rfl rfl rfl rfl
  | _ =>
      simp only [execWorker] at executed
      repeat' split at executed
      all_goals cases executed
      all_goals exact .refl q

/-- The acknowledgement makes a send wait for a receive credit, gives it its first stamp and
finds the timeout work not armed. -/
def Qp.stampsUnwatched (q : Qp) (psn : Nat) : Bool :=
  (q.matchPsn psn).any fun c =>
    q.live && !(q.ctx c).rnrRetryExhausted && (q.ctx c).rnrWaitsForRecvCredit &&
      q.remoteRecvCredits == 0 && (q.ctx c).queuedJiffies == 0 && !q.timeoutArmed

theorem timing_noteRnrAck (psn : Nat) (watched : q.stampsUnwatched psn = false) :
    Timing q (q.noteRnrAck psn).1 := by
  unfold Qp.noteRnrAck
  split
  · exact .refl q
  rename_i c found
  split
  · exact timing_settle ..
  rename_i goes
  split
  · rename_i waits
    simp only [Bool.or_eq_true, Bool.not_eq_true', not_or, Bool.not_eq_true, Bool.not_eq_false,
      Bool.and_eq_true, beq_iff_eq] at goes waits
    have listed : c ∈ q.pendingSends := List.mem_of_find?_eq_some found
    refine ⟨rfl, rfl, id, fun ⟨d, also, stamped⟩ => ?_, .inl⟩
    by_cases same : d = c
    · by_cases first : (q.ctx c).queuedJiffies = 0
      · right
        left
        by_contra off
        have off : q.timeoutArmed = false := by
          simpa [Qp.startRnrWait, Qp.markQueued, Qp.modCtx] using off
        simp [Qp.stampsUnwatched, found, goes, waits, first, off] at watched
      · exact .inl ⟨c, listed, first⟩
    · refine .inl ⟨d, also, ?_⟩
      simpa [Qp.startRnrWait, Qp.markQueued, Qp.modCtx, Function.update_of_ne same] using stamped
  · exact timing_scheduleTimeout rfl rfl rfl

/-- What a frame does that does not start a run of the timeout work. -/
theorem exec_timing {f : Frame} (executed : exec q f choice = some (q', pushed))
    (begun : f ≠ .worker .start)
    (watched : ∀ psn, f = .ackHandle psn .rnr → q.stampsUnwatched psn = false) : Timing q q' := by
  cases f with
  | post c stage => exact timing_execPost executed
  | postFrames c reason stage caller => exact timing_execPostFrames executed
  | postRead r stage => exact timing_execPostRead executed
  | txDone c status =>
      have done := (timing_note q (.txDone c status)).trans (timing_noteTxDone _ c status)
      simp only [exec, execTxDone] at executed
      repeat' split at executed
      all_goals cases executed
      all_goals exact done
  | txFailed c status =>
      cases executed
      exact timing_completeSendOrdered ..
  | releaseSendq c =>
      cases executed
      exact timing_releaseSendqCounted q c
  | sendComplete c status =>
      simp only [exec] at executed
      split at executed <;> cases executed
      · exact .refl q
      · exact timing_modCtx q c _ id
  | wireAcked c =>
      cases executed
      exact timing_modCtx q c _ id
  | ackHandle psn status =>
      cases executed
      cases status with
      | ok => exact timing_completeSendOrdered ..
      | error => exact timing_completeSendOrdered ..
      | rnr => exact timing_noteRnrAck psn (watched psn rfl)
  | finish who sends err =>
      simp only [exec] at executed
      cases sends <;> cases executed <;> exact .refl q
  | worker stage => exact timing_execWorker (fun same => begun (by rw [same])) executed
  | flushSends =>
      cases executed
      exact timing_flushSends q
  | flushReads =>
      cases executed
      exact timing_flushReads q
  | readTxDone r status =>
      simp only [exec] at executed
      repeat' split at executed
      all_goals cases executed
      · exact timing_scheduleTimeout rfl rfl rfl
      · exact .refl q
      · exact timing_unqueueRead q r
      · exact .refl q
  | completeRead r status =>
      cases executed
      exact timing_completeReadOrdered ..
  | finishReads reads status =>
      simp only [exec] at executed
      split at executed <;> cases executed <;> exact .refl q
  | readComplete r status =>
      simp only [exec] at executed
      split at executed <;> cases executed
      · exact .refl q
      · exact timing_modRead q r _ id
  | _ =>
      simp only [exec] at executed
      repeat' split at executed
      all_goals cases executed
      all_goals exact timing_of_eq rfl rfl rfl rfl rfl rfl rfl

/-- A request that is being posted has no timer yet. -/
theorem timing_react {event : Event} {code : List Frame} (open_ : event ≠ .close)
    (reacted : react q event = some (q', code)) : Timing q q' := by
  cases event with
  | postSend wr =>
      cases reacted
      refine timing_of_fewer rfl rfl rfl (fun c listed stamped => ⟨listed, ?_⟩)
        fun r listed stamped => ⟨listed, stamped⟩
      simp only [Function.update_apply] at stamped
      split at stamped
      · exact absurd rfl stamped
      · exact stamped
  | postRead signaled =>
      cases reacted
      refine timing_of_fewer rfl rfl rfl (fun c listed stamped => ⟨listed, stamped⟩)
        fun r listed stamped => ⟨listed, ?_⟩
      simp only [Function.update_apply] at stamped
      split at stamped
      · exact absurd rfl stamped
      · exact stamped
  | recvCredit credits =>
      simp only [react] at reacted
      split at reacted
      · cases reacted
        exact timing_scheduleTimeout rfl rfl rfl
      · cases reacted
  | close => exact absurd rfl open_
  | _ =>
      simp only [react] at reacted
      repeat' split at reacted
      all_goals cases reacted
      all_goals exact timing_of_eq rfl rfl rfl rfl rfl rfl rfl

end Exec

end Tbv.SendQueue
