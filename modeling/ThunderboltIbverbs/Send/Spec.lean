import ThunderboltIbverbs.Send.Exec
import Mathlib.Data.List.TakeWhile

/-! # What a step of the send queue can do

The bookkeeping of a context (timers, retry counts, list flags) is set in many
places; what the properties depend on is changed in few.  `Quiet` says that only
bookkeeping changed, `Effect` lists everything else a frame can do, and `exec_effect`
reduces the whole step function to it. -/
set_option autoImplicit false
namespace Tbv.SendQueue

open Tbv.NativeData

/-- The fields of a context that are not bookkeeping. -/
structure Core where
  wr : SendWr
  psn : Nat
  retryable : Bool
  completed : Bool
  ready : Bool
  completionStatus : Int

def SendCtx.core (x : SendCtx) : Core :=
  ⟨x.wr, x.psn, x.retryable, x.completed, x.ready, x.completionStatus⟩

structure Quiet (q q' : Qp) : Prop where
  cfg : q'.cfg = q.cfg
  nextOp : q'.nextOp = q.nextOp
  memory : q'.memory = q.memory
  posted : q'.posted = q.posted
  log : q'.log = q.log
  pendingSends : q'.pendingSends = q.pendingSends
  ticket : q'.ticket = q.ticket
  taken : q'.taken = q.taken
  sendPsn : q'.sendPsn = q.sendPsn
  inFlight : q'.inFlight = q.inFlight
  rawInFlight : q'.rawInFlight = q.rawInFlight
  core : ∀ c, (q'.ctx c).core = (q.ctx c).core
  readPsn : ∀ r, (q'.read r).psn = (q.read r).psn

section
variable {q q' q'' : Qp}

theorem Quiet.refl (q : Qp) : Quiet q q := by
  constructor <;> intros <;> rfl

theorem Quiet.trans (first : Quiet q q') (second : Quiet q' q'') : Quiet q q'' where
  cfg := second.cfg.trans first.cfg
  nextOp := second.nextOp.trans first.nextOp
  memory := second.memory.trans first.memory
  posted := second.posted.trans first.posted
  log := second.log.trans first.log
  pendingSends := second.pendingSends.trans first.pendingSends
  ticket := second.ticket.trans first.ticket
  taken := second.taken.trans first.taken
  sendPsn := second.sendPsn.trans first.sendPsn
  inFlight := second.inFlight.trans first.inFlight
  rawInFlight := second.rawInFlight.trans first.rawInFlight
  core := fun c => (second.core c).trans (first.core c)
  readPsn := fun r => (second.readPsn r).trans (first.readPsn r)

theorem quiet_modCtx (q : Qp) (c : Nat) (f : SendCtx → SendCtx)
    (kept : (f (q.ctx c)).core = (q.ctx c).core) : Quiet q (q.modCtx c f) := by
  refine { Quiet.refl q with core := fun d => ?_ }
  unfold Qp.modCtx
  by_cases same : d = c
  · subst same
    simpa using kept
  · simp [Function.update_of_ne same]

theorem quiet_modRead (q : Qp) (r : Nat) (f : ReadCtx → ReadCtx)
    (kept : (f (q.read r)).psn = (q.read r).psn) : Quiet q (q.modRead r f) := by
  refine { Quiet.refl q with readPsn := fun d => ?_ }
  unfold Qp.modRead
  by_cases same : d = r
  · subst same
    simpa using kept
  · simp [Function.update_of_ne same]

theorem quiet_scheduleTimeout (q : Qp) : Quiet q q.scheduleTimeout := by
  unfold Qp.scheduleTimeout
  split
  · exact .refl q
  · exact { Quiet.refl q with }

theorem quiet_markQueued (q : Qp) (c : Nat) : Quiet q (q.markQueued c) :=
  quiet_modCtx q c _ rfl

theorem quiet_rearm (q : Qp) (c : Nat) : Quiet q (q.markQueued c).scheduleTimeout :=
  (quiet_markQueued q c).trans (quiet_scheduleTimeout _)

theorem quiet_detach (q : Qp) (cs : List Nat) : Quiet q (q.detach cs) := by
  refine { Quiet.refl q with core := fun c => ?_ }
  simp only [Qp.detach]
  split <;> rfl

theorem quiet_sendqCount (q : Qp) (count : Nat) : Quiet q { q with sendqCount := count } :=
  { Quiet.refl q with }

theorem quiet_releaseSendqCounted (q : Qp) (c : Nat) : Quiet q (q.releaseSendqCounted c) := by
  unfold Qp.releaseSendqCounted
  split
  · exact (quiet_sendqCount q _).trans (quiet_modCtx _ c _ rfl)
  · exact .refl q

theorem quiet_releaseSendqCountedRead (q : Qp) (r : Nat) :
    Quiet q (q.releaseSendqCountedRead r) := by
  unfold Qp.releaseSendqCountedRead
  split
  · exact (quiet_sendqCount q _).trans (quiet_modRead _ r _ rfl)
  · exact .refl q

theorem quiet_releaseReads (reads : List Nat) (q : Qp) :
    Quiet q (reads.foldl Qp.releaseSendqCountedRead q) := by
  induction reads generalizing q with
  | nil => exact .refl q
  | cons r rest ih => exact (quiet_releaseSendqCountedRead q r).trans (ih _)

theorem quiet_pendingReads (q : Qp) (reads : List Nat) :
    Quiet q { q with pendingReads := reads } :=
  { Quiet.refl q with }

theorem quiet_unqueueRead (q : Qp) (r : Nat) : Quiet q (q.unqueueRead r) :=
  (quiet_pendingReads q _).trans (quiet_releaseSendqCountedRead _ r)

theorem quiet_queueRead (q : Qp) (r : Nat) : Quiet q (q.queueRead r) :=
  (quiet_pendingReads q _).trans (quiet_modRead _ r _ rfl)

theorem quiet_flushReads (q : Qp) : Quiet q q.flushReads :=
  (quiet_pendingReads q _).trans (quiet_releaseReads _ _)

theorem quiet_reapReads (q : Qp) (now : Nat) : Quiet q (q.reapReads now) :=
  (quiet_pendingReads q _).trans (quiet_releaseReads _ _)

theorem quiet_markReadyRead (q : Qp) (r : Nat) (status : Int) :
    Quiet q (q.markReadyRead r status) := by
  unfold Qp.markReadyRead
  split
  · exact .refl q
  · exact quiet_modRead q r _ rfl

theorem quiet_completeReadOrdered (q : Qp) (r : Nat) (status : Int) :
    Quiet q (q.completeReadOrdered r status).1 := by
  unfold Qp.completeReadOrdered
  split
  · exact (quiet_markReadyRead q r status).trans
      ((quiet_pendingReads _ _).trans (quiet_releaseReads _ _))
  · exact .refl q

theorem quiet_takeSlot (q : Qp) (c : Nat) : Quiet q (q.takeSlot c) :=
  (quiet_sendqCount q _).trans (quiet_modCtx _ c _ rfl)

theorem quiet_takeSlotRead (q : Qp) (r : Nat) : Quiet q (q.takeSlotRead r) :=
  (quiet_sendqCount q _).trans (quiet_modRead _ r _ rfl)

theorem quiet_spendRecvCredit (q : Qp) (spends : Bool) : Quiet q (q.spendRecvCredit spends) := by
  unfold Qp.spendRecvCredit
  split
  · exact { Quiet.refl q with }
  · exact .refl q

theorem quiet_returnRemoteRecvCredit (q : Qp) : Quiet q q.returnRemoteRecvCredit := by
  unfold Qp.returnRemoteRecvCredit
  split
  · exact { Quiet.refl q with }
  · exact .refl q

theorem quiet_armSendTimeout (q : Qp) (c : Nat) : Quiet q (q.armSendTimeout c) := by
  unfold Qp.armSendTimeout
  split
  · exact quiet_rearm q c
  · exact .refl q

theorem quiet_countRetry (q : Qp) (c : Nat) (reason : PostReason) :
    Quiet q (q.countRetry c reason) := by
  refine quiet_modCtx q c _ ?_
  split <;> rfl

theorem quiet_clearRetrying (q : Qp) (c : Nat) : Quiet q (q.clearRetrying c) :=
  quiet_modCtx q c _ rfl

theorem quiet_chargeTx (q : Qp) (c : Nat) (frames : Int) : Quiet q (q.chargeTx c frames) :=
  quiet_modCtx q c _ rfl

theorem quiet_startRetry (q : Qp) (c : Nat) (reason : PostReason) :
    Quiet q (q.startRetry c reason) :=
  quiet_modCtx q c _ rfl

theorem quiet_noteTxDone (q : Qp) (c : Nat) (status : Int) : Quiet q (q.noteTxDone c status) := by
  unfold Qp.noteTxDone
  dsimp only
  split
  · exact quiet_chargeTx q c _
  · split
    · exact (quiet_chargeTx q c _).trans ((quiet_clearRetrying _ c).trans (quiet_rearm _ c))
    · exact (quiet_chargeTx q c _).trans (quiet_clearRetrying _ c)

end

/-! ## Verdicts -/

/-- A step may set the verdict of pending contexts, each once, and take a part of the
front of the list off it. -/
structure Decides (verdict : Nat → Int → Prop) (q q' : Qp) (gone : List Nat) : Prop where
  pendingSends : q.pendingSends = gone ++ q'.pendingSends
  base : Quiet q { q' with pendingSends := q.pendingSends, ctx := q.ctx }
  core : ∀ c, (q'.ctx c).core = (q.ctx c).core ∨
    (q.ctx c).ready = false ∧ ∃ status, verdict c status ∧
      (q'.ctx c).core = { (q.ctx c).core with ready := true, completionStatus := status }
  ready : ∀ c ∈ gone, (q'.ctx c).ready = true

section
variable {verdict : Nat → Int → Prop} {q q' : Qp} {gone : List Nat}

theorem drain_split (q : Qp) : q.pendingSends = q.readyPrefix ++ q.drainReadySends.pendingSends := by
  simp [Qp.readyPrefix, Qp.drainReadySends, Qp.detach]

theorem ready_of_mem_readyPrefix {c : Nat} (among : c ∈ q.readyPrefix) :
    (q.ctx c).ready = true := by
  exact List.mem_takeWhile_imp (p := fun c => (q.ctx c).ready) among

theorem quiet_drain (q : Qp) :
    Quiet { q with pendingSends := q.drainReadySends.pendingSends } q.drainReadySends :=
  quiet_detach { q with pendingSends := q.pendingSends.dropWhile fun c => (q.ctx c).ready } _

theorem Decides.refl (verdict : Nat → Int → Prop) (q : Qp) : Decides verdict q q [] where
  pendingSends := rfl
  base := .refl q
  core := fun _ => .inl rfl
  ready := by simp

theorem Decides.quiet (decided : Decides verdict q q' gone) {q'' : Qp} (quiet : Quiet q' q'') :
    Decides verdict q q'' gone where
  pendingSends := by rw [quiet.pendingSends]; exact decided.pendingSends
  base := by
    obtain ⟨cfg, nextOp, memory, posted, log, _, ticket, taken, sendPsn, inFlight, raw, _, psn⟩ :=
      decided.base
    exact
      { cfg := quiet.cfg.trans cfg
        nextOp := quiet.nextOp.trans nextOp
        memory := quiet.memory.trans memory
        posted := quiet.posted.trans posted
        log := quiet.log.trans log
        pendingSends := rfl
        ticket := quiet.ticket.trans ticket
        taken := quiet.taken.trans taken
        sendPsn := quiet.sendPsn.trans sendPsn
        inFlight := quiet.inFlight.trans inFlight
        rawInFlight := quiet.rawInFlight.trans raw
        core := fun _ => rfl
        readPsn := fun r => (quiet.readPsn r).trans (psn r) }
  core := fun c => by rw [quiet.core c]; exact decided.core c
  ready := fun c among => by
    have same : (q''.ctx c).ready = (q'.ctx c).ready := congrArg Core.ready (quiet.core c)
    rw [same]
    exact decided.ready c among

theorem Decides.ready_mono (decided : Decides verdict q q' gone) {c : Nat}
    (unready : (q'.ctx c).ready = false) : (q'.ctx c).core = (q.ctx c).core := by
  rcases decided.core c with same | ⟨_, status, _, set⟩
  · exact same
  · have : (q'.ctx c).ready = true := congrArg Core.ready set
    rw [this] at unready
    cases unready

theorem Decides.markReady (decided : Decides verdict q q' gone) {c : Nat} {status : Int}
    (given : verdict c status) : Decides verdict q (q'.markReady c status) gone := by
  unfold Qp.markReady
  split
  · exact decided
  · rename_i unready
    have unready : (q'.ctx c).ready = false := by simpa using unready
    have same := decided.ready_mono unready
    have before : (q.ctx c).ready = false := by
      rw [← unready]
      exact (congrArg Core.ready same).symm
    refine ⟨decided.pendingSends, ?_, fun d => ?_, fun d listed => ?_⟩
    · exact { decided.base with }
    · by_cases eq : d = c
      · subst eq
        refine .inr ⟨before, status, given, ?_⟩
        have wr := congrArg Core.wr same
        have psn := congrArg Core.psn same
        have retryable := congrArg Core.retryable same
        have completed := congrArg Core.completed same
        simp only [SendCtx.core] at wr psn retryable completed
        simp [Qp.modCtx, SendCtx.core, wr, psn, retryable, completed]
      · have kept : (q'.modCtx c fun x => { x with
            ready := true, completionStatus := status, retrying := false,
            rnrWaiting := false }).ctx d = q'.ctx d := by
          simp [Qp.modCtx, Function.update_of_ne eq]
        rw [kept]
        exact decided.core d
    · by_cases eq : d = c
      · subst eq
        simp [Qp.modCtx]
      · have := decided.ready d listed
        simpa [Qp.modCtx, Function.update_of_ne eq] using this

theorem Decides.drain (decided : Decides verdict q q' gone) :
    Decides verdict q q'.drainReadySends (gone ++ q'.readyPrefix) where
  pendingSends := by
    rw [decided.pendingSends, List.append_assoc, ← drain_split q']
  base := { decided.base with }
  core := fun c => by
    have same : (q'.drainReadySends.ctx c).core = (q'.ctx c).core := (quiet_drain q').core c
    rw [same]
    exact decided.core c
  ready := fun c listed => by
    have same : (q'.drainReadySends.ctx c).ready = (q'.ctx c).ready :=
      congrArg Core.ready ((quiet_drain q').core c)
    rw [same]
    rcases List.mem_append.mp listed with old | new
    · exact decided.ready c old
    · exact ready_of_mem_readyPrefix new

theorem Decides.flush (q : Qp) (given : ∀ c ∈ q.pendingSends, verdict c ecanceled) :
    Decides verdict q q.flushSends q.pendingSends := by
  have judged : Decides verdict q q.judgeFlushed q.pendingSends := by
    refine ⟨by simp [Qp.judgeFlushed], .refl q, fun c => ?_, fun c among => ?_⟩
    · by_cases flushed : c ∈ q.pendingSends ∧ (q.ctx c).ready = false
      · refine .inr ⟨flushed.2, ecanceled, given c flushed.1, ?_⟩
        simp [Qp.judgeFlushed, flushed, SendCtx.core]
      · exact .inl (by simp [Qp.judgeFlushed, flushed])
    · cases ready : (q.ctx c).ready <;> simp [Qp.judgeFlushed, among, ready]
  exact judged.quiet (quiet_detach _ _)

theorem decides_completeSendOrdered (q : Qp) (psn : Nat) (status : Int)
    (given : ∀ c, q.matchPsn psn = some c → verdict c status) :
    Decides verdict q (q.completeSendOrdered psn status).1 (q.completeSendOrdered psn status).2 := by
  unfold Qp.completeSendOrdered
  split
  · exact .refl verdict q
  · rename_i c found
    exact ((Decides.refl verdict q).markReady (given c found)).drain

theorem decides_noteRnrAck (q : Qp) (psn : Nat)
    (given : ∀ c, q.matchPsn psn = some c → verdict c eagain) :
    Decides verdict q (q.noteRnrAck psn).1 (q.noteRnrAck psn).2 := by
  unfold Qp.noteRnrAck
  split
  · exact .refl verdict q
  · rename_i c found
    split
    · exact ((Decides.refl verdict q).markReady (given c found)).drain
    · have quiet : Quiet q (q.startRnrWait c) :=
        (quiet_modCtx q c _ rfl).trans (quiet_markQueued _ c)
      split
      · exact (Decides.refl verdict q).quiet quiet
      · exact (Decides.refl verdict q).quiet (quiet.trans (quiet_scheduleTimeout _))

/-! ### The reaper -/

theorem reapSend_decides {now : Nat} {r r' : Reap} {c : Nat} {next : Option Nat}
    (given : ∀ status, status ≠ 0 → verdict c status)
    (decided : Decides verdict q r.qp r.completed)
    (reaped : reapSend now r c next = some r') : Decides verdict q r'.qp r'.completed := by
  have failing : ∀ status, reapVerdict r.qp now (r.qp.ctx c) = .fail status → status ≠ 0 := by
    intro status judged
    unfold reapVerdict at judged
    dsimp only at judged
    repeat' split at judged
    all_goals first | cases judged; decide | cases judged
  unfold reapSend at reaped
  split at reaped
  · cases Option.some.inj reaped
    exact decided
  · cases Option.some.inj reaped
    exact decided.quiet ((quiet_spendRecvCredit _ _).trans (quiet_startRetry _ c _))
  · rename_i status judged
    dsimp only at reaped
    split at reaped
    · cases reaped
    · cases Option.some.inj reaped
      exact (decided.markReady (given status (failing status judged))).drain

theorem reapSends_decides {now : Nat} {cs : List Nat} {r r' : Reap}
    (given : ∀ c status, status ≠ 0 → verdict c status)
    (decided : Decides verdict q r.qp r.completed)
    (reaped : reapSends now cs r = some r') : Decides verdict q r'.qp r'.completed := by
  induction cs generalizing r with
  | nil =>
      cases Option.some.inj reaped
      exact decided
  | cons c rest ih =>
      obtain ⟨middle, first, later⟩ := Option.bind_eq_some_iff.mp reaped
      exact ih (reapSend_decides (given c) decided first) later

end

/-! ## Effects -/

def PostStage.early : PostStage → Bool
  | .start | .takeCredit | .reserve _ | .giveBack _ => true
  | _ => false

def ReadStage.early : ReadStage → Bool
  | .start | .reserve => true
  | _ => false

/-- Error codes carried in frames are not zero. -/
def Frame.WellFormed : Frame → Prop
  | .post _ (.giveBack ret) => ret ≠ 0
  | .postRead _ (.unqueue ret) => ret ≠ 0
  | .postRead _ (.failed ret) => ret ≠ 0
  | .txFailed _ status => status ≠ 0
  | _ => True

/-- What a frame adds to the log. -/
inductive Emits (q : Qp) : Frame → Entry → Prop
  | transmit (c : Nat) (reason : PostReason) (caller : Caller) :
      Emits q (.postFrames c reason .select caller) (.transmit c reason caller.isWorker)
  | rawStream (c : Nat) (reason : PostReason) (caller : Caller) :
      Emits q (.postFrames c reason .raw caller) (.rawStream c)
  | fragment {c offset : Nat} {payload : List UInt8} (reason : PostReason) (frames : Nat)
      (caller : Caller)
      (copied : copySendRange q.memory (q.ctx c).wr.segs offset
        (fragLen (totalLen (q.ctx c).wr.segs) offset) = some payload) :
      Emits q (.postFrames c reason (.copy offset frames) caller) (.fragment c offset payload)
  | txDone (c : Nat) (status : Int) : Emits q (.txDone c status) (.txDone c status)
  | completion (c : Nat) (status : Int) :
      Emits q (.cqPush c status) (.completion c (wcStatus status))
  | readCompletion (r : Nat) (status : Int) :
      Emits q (.cqPushRead r status) (.readCompletion r status)
  | refused {c : Nat} {stage : PostStage} {ret : Int} (psn : Nat) (early : stage.early = true)
      (negative : ret ≠ 0) : Emits q (.post c stage) (.returned c psn ret)
  | failed (c : Nat) (credit : Bool) {ret : Int} (negative : ret ≠ 0) :
      Emits q (.post c (.framesPosted credit ret)) (.returned c (q.ctx c).psn ret)
  | posted (c : Nat) (credit : Bool) :
      Emits q (.post c (.framesPosted credit 0)) (.returned c (q.ctx c).psn 0)
  | refusedRead {r : Nat} {stage : ReadStage} {ret : Int} (psn : Nat)
      (early : stage.early = true) (negative : ret ≠ 0) :
      Emits q (.postRead r stage) (.returnedRead r psn ret)
  | failedRead (r : Nat) {ret : Int} (negative : ret ≠ 0) :
      Emits q (.postRead r (.failed ret)) (.returnedRead r (q.read r).psn ret)
  | postedRead (r : Nat) : Emits q (.postRead r .send) (.returnedRead r (q.read r).psn 0)

/-- The verdict a frame may set for a pending context. -/
def Verdict (q : Qp) : Frame → Nat → Int → Prop
  | .txFailed d status, c, verdict => verdict = status ∧ q.matchPsn (q.ctx d).psn = some c
  | .ackHandle psn .ok, c, verdict => verdict = 0 ∧ q.matchPsn psn = some c
  | .ackHandle _ _, _, verdict => verdict ≠ 0
  | .worker _, _, verdict => verdict ≠ 0
  | .flushSends, _, verdict => verdict ≠ 0
  | _, _, _ => False

/-- Everything a frame can do to the QP. -/
inductive Effect (q : Qp) (f : Frame) (q' : Qp) : Prop
  | quiet (only : Quiet q q')
  | emit {entry : Entry} (emits : Emits q f entry) (only : Quiet (q.note entry) q')
  | takePsn {c : Nat} {credit : Bool} (is : f = .post c (.takePsn credit)) (eq : q' = q.takePsn c)
  | takePsnRead {r : Nat} (is : f = .postRead r .takePsn) (eq : q' = q.takePsnRead r)
  | queue {c : Nat} {credit : Bool} (is : f = .post c (.queue credit))
      (only : Quiet { q with pendingSends := q.pendingSends ++ [c] } q')
  | unqueue {c : Nat} {credit : Bool} {ret : Int} (is : f = .post c (.framesPosted credit ret))
      (negative : ret ≠ 0) (listed : c ∈ q.pendingSends)
      (only : Quiet { q with pendingSends := q.pendingSends.erase c } q')
  | unqueueReturn {c : Nat} {credit : Bool} {ret : Int}
      (is : f = .post c (.framesPosted credit ret)) (negative : ret ≠ 0)
      (listed : c ∈ q.pendingSends)
      (only : Quiet ({ q with pendingSends := q.pendingSends.erase c }.note
        (.returned c (q.ctx c).psn ret)) q')
  | decide {gone : List Nat} (decided : Decides (Verdict q f) q q' gone)
  | complete {c : Nat} {status : Int} (is : f = .sendComplete c status)
      (fresh : (q.ctx c).completed = false) (eq : q' = q.setCompleted c)
  | enqueue {c frames taken : Nat} {reason : PostReason} {caller : Caller}
      (is : f = .postFrames c reason (.enqueue frames) caller) (eq : q' = q.addInFlight c taken)
  | stream {c frames : Nat} {reason : PostReason} {caller : Caller}
      (is : f = .postFrames c reason .raw caller)
      (only : Quiet ((q.note (.rawStream c)).addRawInFlight c frames) q')
  | cancel {c framed raw : Nat} (is : f = .cancelPackets c)
      (eq : q' = q.dropInFlight c framed raw)

section
variable {q q' : Qp} {choice : Choice} {pushed : List Frame}

theorem execPost_effect {c : Nat} {stage : PostStage}
    (wf : (Frame.post c stage).WellFormed)
    (executed : execPost q c choice stage = some (q', pushed)) :
    Effect q (.post c stage) q' := by
  cases stage with
  | start =>
      simp only [execPost, Qp.returnPost] at executed
      repeat' split at executed
      all_goals cases executed
      · exact .emit (.refused 0 rfl (by decide)) (.refl _)
      · exact .emit (.refused 0 rfl (by decide)) (.refl _)
      · exact .quiet (.refl _)
      · exact .emit (.refused 0 rfl (by omega)) (.refl _)
  | takeCredit =>
      simp only [execPost, Qp.returnPost] at executed
      repeat' split at executed
      all_goals cases executed
      · exact .quiet (.refl _)
      · exact .emit (.refused 0 rfl (by decide)) (.refl _)
      · exact .quiet (.refl _)
      · exact .quiet (quiet_spendRecvCredit _ _)
  | reserve credit =>
      simp only [execPost, Qp.refusePost, Qp.returnPost] at executed
      repeat' split at executed
      all_goals cases executed
      · exact .quiet (.refl _)
      · exact .emit (.refused _ rfl (by decide)) (.refl _)
      · exact .quiet (.refl _)
      · exact .emit (.refused _ rfl (by decide)) (.refl _)
      · exact .quiet (quiet_takeSlot _ _)
      · exact .quiet (.refl _)
      · exact .emit (.refused _ rfl (by omega)) (.refl _)
  | takePsn credit =>
      cases executed
      exact .takePsn rfl rfl
  | queue credit =>
      simp only [execPost] at executed
      split at executed <;> cases executed <;> exact .queue rfl (quiet_modCtx _ c _ rfl)
  | arm credit =>
      cases executed
      exact .quiet (quiet_armSendTimeout q c)
  | framesPosted credit ret =>
      simp only [execPost, Qp.refusePost, Qp.returnPost] at executed
      repeat' split at executed
      all_goals cases executed
      · rename_i zero
        subst zero
        exact .emit (.posted c credit) (.refl _)
      · rename_i negative listed _
        exact .unqueue rfl negative listed (quiet_detach _ _)
      · rename_i negative listed _
        have kept := quiet_detach { q with pendingSends := q.pendingSends.erase c } [c]
        have psn : ((q.unqueueSend c).ctx c).psn = (q.ctx c).psn :=
          congrArg Core.psn (kept.core c)
        rw [psn]
        exact .unqueueReturn rfl negative listed { kept with log := rfl }
      · rename_i negative _
        exact .emit (.failed c credit negative) (.refl _)
  | giveBack ret =>
      cases executed
      refine .emit (.refused (q.ctx c).psn rfl wf) ?_
      exact { quiet_returnRemoteRecvCredit q with
        log := congrArg (· ++ _) (quiet_returnRemoteRecvCredit q).log }

theorem Quiet.note {q q' : Qp} (only : Quiet q q') (entry : Entry) :
    Quiet (q.note entry) (q'.note entry) :=
  { only with log := congrArg (· ++ [entry]) only.log }

theorem execPostFrames_effect {c : Nat} {reason : PostReason} {caller : Caller}
    {stage : FramesStage}
    (executed : execPostFrames q c reason caller choice stage = some (q', pushed)) :
    Effect q (.postFrames c reason stage caller) q' := by
  cases stage with
  | select =>
      simp only [execPostFrames] at executed
      repeat' split at executed
      all_goals cases executed
      all_goals exact .emit (.transmit c reason caller) (.refl _)
  | raw =>
      simp only [execPostFrames] at executed
      repeat' split at executed
      all_goals cases executed
      · exact .stream rfl { quiet_chargeTx (q.note (.rawStream c)) c _ with rawInFlight := rfl }
      · exact .emit (.rawStream c reason caller) (quiet_chargeTx _ c _)
  | copy offset frames =>
      simp only [execPostFrames] at executed
      repeat' split at executed
      all_goals cases executed
      · exact .quiet (.refl _)
      · rename_i copied _
        exact .emit (.fragment reason frames caller copied) (.refl _)
      · rename_i copied _
        exact .emit (.fragment reason frames caller copied) (.refl _)
      · exact .quiet (.refl _)
  | charge frames =>
      simp only [execPostFrames] at executed
      repeat' split at executed
      all_goals cases executed
      · exact .quiet (quiet_chargeTx q c _)
      · exact .quiet (.refl _)
  | enqueue frames =>
      simp only [execPostFrames] at executed
      repeat' split at executed
      all_goals cases executed
      all_goals exact .enqueue rfl rfl
  | uncharge frames ret =>
      cases executed
      exact .quiet (quiet_chargeTx q c _)

theorem execPostRead_effect {r : Nat} {stage : ReadStage}
    (wf : (Frame.postRead r stage).WellFormed)
    (executed : execPostRead q r choice stage = some (q', pushed)) :
    Effect q (.postRead r stage) q' := by
  cases stage with
  | start =>
      simp only [execPostRead, Qp.returnRead] at executed
      repeat' split at executed
      all_goals cases executed
      · exact .quiet (.refl _)
      · exact .emit (.refusedRead 0 rfl (by decide)) (.refl _)
      · exact .emit (.refusedRead 0 rfl (by omega)) (.refl _)
  | reserve =>
      simp only [execPostRead, Qp.returnRead] at executed
      repeat' split at executed
      all_goals cases executed
      · exact .emit (.refusedRead 0 rfl (by decide)) (.refl _)
      · exact .emit (.refusedRead 0 rfl (by decide)) (.refl _)
      · exact .quiet (quiet_takeSlotRead q r)
  | takePsn =>
      cases executed
      exact .takePsnRead rfl rfl
  | build =>
      simp only [execPostRead] at executed
      repeat' split at executed
      all_goals cases executed
      all_goals exact .quiet (.refl _)
  | queue =>
      cases executed
      exact .quiet (quiet_queueRead q r)
  | send =>
      simp only [execPostRead, Qp.returnRead] at executed
      repeat' split at executed
      all_goals cases executed
      · exact .emit (.postedRead r) { Quiet.refl (q.note _) with }
      · exact .quiet (.refl _)
  | unqueue ret =>
      simp only [execPostRead] at executed
      cases executed
      split
      · exact .quiet (quiet_unqueueRead q r)
      · exact .quiet (.refl _)
  | failed ret =>
      cases executed
      exact .emit (.failedRead r wf) ((quiet_releaseSendqCountedRead q r).note _)

theorem execTxDone_effect {c : Nat} {status : Int}
    (executed : execTxDone q c status = some (q', pushed)) :
    Effect q (.txDone c status) q' := by
  simp only [execTxDone] at executed
  repeat' split at executed
  all_goals cases executed
  all_goals exact .emit (.txDone c status) (quiet_noteTxDone _ c status)

theorem execWorker_effect {stage : WorkerStage}
    (executed : execWorker q choice stage = some (q', pushed)) :
    Effect q (.worker stage) q' := by
  cases stage with
  | start =>
      cases executed
      exact .quiet { Quiet.refl q with }
  | reap now =>
      simp only [execWorker, Option.map_eq_some_iff] at executed
      obtain ⟨reap, reaped, made⟩ := executed
      cases made
      have decided : Decides (Verdict q (.worker (.reap now))) q reap.qp reap.completed :=
        reapSends_decides (fun _ _ nonzero => nonzero) (.refl _ q) reaped
      exact .decide (decided.quiet (quiet_reapReads reap.qp now))
  | retryNext w =>
      simp only [execWorker] at executed
      repeat' split at executed
      all_goals cases executed
      all_goals exact .quiet (.refl _)
  | retryPending c reason w =>
      simp only [execWorker] at executed
      split at executed
      all_goals cases executed
      · exact .quiet (.refl _)
      · exact .quiet (quiet_clearRetrying q c)
  | retried c reason ret w =>
      simp only [execWorker] at executed
      split at executed
      · repeat' split at executed
        all_goals cases executed
        · exact .quiet ((quiet_countRetry q c reason).trans (quiet_rearm _ c))
        · exact .quiet ((quiet_clearRetrying q c).trans (quiet_rearm _ c))
        · exact .quiet ((quiet_countRetry q c _).trans
            ((quiet_clearRetrying _ c).trans (quiet_rearm _ c)))
        · refine .decide ((Decides.refl _ q).markReady ?_).drain
          change etimedout ≠ 0
          decide
      · cases executed
        exact .quiet (quiet_clearRetrying q c)
  | afterRetry w =>
      cases executed
      exact .quiet (.refl _)
  | finishSends w =>
      cases executed
      exact .quiet (.refl _)
  | done needResched =>
      have stopped : Quiet q { q with timeoutRunning := false } := { Quiet.refl q with }
      simp only [execWorker] at executed
      split at executed
      all_goals cases executed
      · exact .quiet (stopped.trans (quiet_scheduleTimeout _))
      · exact .quiet stopped

theorem handleAck_decides (q : Qp) (psn : Nat) (status : SendAckStatus) :
    Decides (Verdict q (.ackHandle psn status)) q (q.handleAck psn status).1
      (q.handleAck psn status).2 := by
  cases status with
  | ok => exact decides_completeSendOrdered q psn 0 fun c found => ⟨rfl, found⟩
  | rnr =>
      refine decides_noteRnrAck q psn fun c _ => ?_
      change eagain ≠ 0
      decide
  | error =>
      refine decides_completeSendOrdered q psn eio fun c _ => ?_
      change eio ≠ 0
      decide

theorem exec_effect {f : Frame} (wf : f.WellFormed)
    (executed : exec q f choice = some (q', pushed)) : Effect q f q' := by
  cases f with
  | post c stage => exact execPost_effect wf executed
  | postFrames c reason stage caller => exact execPostFrames_effect executed
  | postRead r stage => exact execPostRead_effect wf executed
  | txDone c status => exact execTxDone_effect executed
  | txFailed c status =>
      cases executed
      exact .decide (decides_completeSendOrdered q (q.ctx c).psn status fun d found => ⟨rfl, found⟩)
  | releaseSendq c =>
      cases executed
      exact .quiet (quiet_releaseSendqCounted q c)
  | sendComplete c status =>
      simp only [exec] at executed
      split at executed
      all_goals cases executed
      · exact .quiet (.refl _)
      · rename_i fresh
        exact .complete rfl (by simpa using fresh) rfl
  | cancelPackets c =>
      simp only [exec] at executed
      repeat' split at executed
      all_goals cases executed
      exact .cancel rfl rfl
  | cqPush c status =>
      simp only [exec] at executed
      repeat' split at executed
      all_goals cases executed
      · exact .emit (.completion c status) (.refl _)
      · exact .quiet (.refl _)
  | ack psn status =>
      cases executed
      exact .quiet (.refl _)
  | ackHandle psn status =>
      cases executed
      exact .decide (handleAck_decides q psn status)
  | wireAcked c =>
      cases executed
      exact .quiet (quiet_modCtx q c _ rfl)
  | finish who sends err =>
      cases sends with
      | nil =>
          cases executed
          exact .quiet (.refl _)
      | cons c rest =>
          cases executed
          exact .quiet (.refl _)
  | worker stage => exact execWorker_effect executed
  | markError =>
      simp only [exec] at executed
      split at executed
      all_goals cases executed
      · exact .quiet { Quiet.refl q with }
      · exact .quiet (.refl _)
  | flushSends =>
      cases executed
      refine .decide (Decides.flush q fun c _ => ?_)
      change ecanceled ≠ 0
      decide
  | flushReads =>
      cases executed
      exact .quiet (quiet_flushReads q)
  | readTxDone r status =>
      simp only [exec] at executed
      repeat' split at executed
      all_goals cases executed
      · exact .quiet ((quiet_modRead q r _ rfl).trans (quiet_scheduleTimeout _))
      · exact .quiet (.refl _)
      · exact .quiet (quiet_unqueueRead q r)
      · exact .quiet (.refl _)
  | completeRead r status =>
      cases executed
      exact .quiet (quiet_completeReadOrdered q r status)
  | finishReads reads status =>
      simp only [exec] at executed
      split at executed
      all_goals cases executed
      all_goals exact .quiet (.refl _)
  | readComplete r status =>
      simp only [exec] at executed
      split at executed
      all_goals cases executed
      · exact .quiet (.refl _)
      · exact .quiet (quiet_modRead q r _ rfl)
  | cqPushRead r status =>
      simp only [exec] at executed
      repeat' split at executed
      all_goals cases executed
      · exact .emit (.readCompletion r status) (.refl _)
      · exact .quiet (.refl _)

end

/-! ## What every effect keeps -/

/-- The fields no frame changes. -/
structure Static (q q' : Qp) : Prop where
  cfg : q'.cfg = q.cfg
  nextOp : q'.nextOp = q.nextOp
  memory : q'.memory = q.memory
  posted : q'.posted = q.posted
  wr : ∀ c, (q'.ctx c).wr = (q.ctx c).wr
  retryable : ∀ c, (q'.ctx c).retryable = (q.ctx c).retryable

section
variable {q q' : Qp} {f : Frame}

theorem Quiet.static (only : Quiet q q') : Static q q' :=
  ⟨only.cfg, only.nextOp, only.memory, only.posted, fun c => congrArg Core.wr (only.core c),
    fun c => congrArg Core.retryable (only.core c)⟩

theorem modCtx_ctx (q : Qp) (c d : Nat) (f : SendCtx → SendCtx) :
    (q.modCtx c f).ctx d = if d = c then f (q.ctx c) else q.ctx d := by
  simp [Qp.modCtx, Function.update_apply]

theorem Effect.static (effect : Effect q f q') : Static q q' := by
  cases effect with
  | quiet only => exact only.static
  | emit emits only => exact ⟨only.static.1, only.static.2, only.static.3, only.static.4,
      only.static.5, only.static.6⟩
  | @takePsn c credit is eq =>
      subst eq
      refine ⟨rfl, rfl, rfl, rfl, fun d => ?_, fun d => ?_⟩ <;>
        simp only [Qp.takePsn, modCtx_ctx] <;> split <;> simp_all [Qp.advancePsn]
  | takePsnRead is eq =>
      subst eq
      exact ⟨rfl, rfl, rfl, rfl, fun _ => rfl, fun _ => rfl⟩
  | queue is only => exact ⟨only.static.1, only.static.2, only.static.3, only.static.4,
      only.static.5, only.static.6⟩
  | unqueue is negative listed only => exact ⟨only.static.1, only.static.2, only.static.3,
      only.static.4, only.static.5, only.static.6⟩
  | unqueueReturn is negative listed only => exact ⟨only.static.1, only.static.2, only.static.3,
      only.static.4, only.static.5, only.static.6⟩
  | decide decided =>
      have base := decided.base
      refine ⟨base.cfg, base.nextOp, base.memory, base.posted, fun c => ?_, fun c => ?_⟩
      · rcases decided.core c with same | ⟨_, status, _, set⟩
        · exact congrArg Core.wr same
        · exact congrArg Core.wr set
      · rcases decided.core c with same | ⟨_, status, _, set⟩
        · exact congrArg Core.retryable same
        · exact congrArg Core.retryable set
  | complete is fresh eq =>
      subst eq
      refine ⟨rfl, rfl, rfl, rfl, fun d => ?_, fun d => ?_⟩ <;>
        simp only [Qp.setCompleted, modCtx_ctx] <;> split <;> simp_all
  | enqueue is eq =>
      subst eq
      exact ⟨rfl, rfl, rfl, rfl, fun _ => rfl, fun _ => rfl⟩
  | stream is only => exact ⟨only.static.1, only.static.2, only.static.3, only.static.4,
      only.static.5, only.static.6⟩
  | cancel is eq =>
      subst eq
      exact ⟨rfl, rfl, rfl, rfl, fun _ => rfl, fun _ => rfl⟩

theorem Effect.log (effect : Effect q f q') :
    q'.log = q.log ∨ ∃ entry, q'.log = q.log ++ [entry] ∧ Emits q f entry := by
  cases effect with
  | quiet only => exact .inl only.log
  | emit emits only => exact .inr ⟨_, only.log, emits⟩
  | takePsn is eq => exact .inl (by subst eq; rfl)
  | takePsnRead is eq => exact .inl (by subst eq; rfl)
  | queue is only => exact .inl only.log
  | unqueue is negative listed only => exact .inl only.log
  | unqueueReturn is negative listed only =>
      subst is
      exact .inr ⟨_, only.log, .failed _ _ negative⟩
  | decide decided => exact .inl decided.base.log
  | complete is fresh eq => exact .inl (by subst eq; rfl)
  | enqueue is eq => exact .inl (by subst eq; rfl)
  | stream is only =>
      subst is
      exact .inr ⟨_, only.log, .rawStream _ _ _⟩
  | cancel is eq => exact .inl (by subst eq; rfl)

/-- The pending list only loses members, except where a post queues its request. -/
theorem Effect.pending (effect : Effect q f q') :
    q'.pendingSends.Sublist q.pendingSends ∨
      ∃ c credit, f = .post c (.queue credit) ∧ q'.pendingSends = q.pendingSends ++ [c] := by
  cases effect with
  | quiet only => exact .inl (by rw [only.pendingSends])
  | emit emits only => exact .inl (by rw [only.pendingSends]; exact .refl _)
  | takePsn is eq => exact .inl (by subst eq; exact .refl _)
  | takePsnRead is eq => exact .inl (by subst eq; exact .refl _)
  | queue is only => exact .inr ⟨_, _, is, only.pendingSends⟩
  | unqueue is negative listed only =>
      exact .inl (by rw [only.pendingSends]; exact List.erase_sublist)
  | unqueueReturn is negative listed only =>
      exact .inl (by rw [only.pendingSends]; exact List.erase_sublist)
  | decide decided =>
      exact .inl (by rw [decided.pendingSends]; exact List.sublist_append_right _ _)
  | complete is fresh eq => exact .inl (by subst eq; exact .refl _)
  | enqueue is eq => exact .inl (by subst eq; exact .refl _)
  | stream is only => exact .inl (by rw [only.pendingSends]; exact .refl _)
  | cancel is eq => exact .inl (by subst eq; exact .refl _)

end

end Tbv.SendQueue
