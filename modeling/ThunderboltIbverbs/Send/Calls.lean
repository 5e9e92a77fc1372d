import ThunderboltIbverbs.Send.Spec

/-! # Which frames follow which

The requests a frame refers to were referred to by the frame before it or stood on
the pending list, and the post of a request is carried on by exactly one frame until
it returns. -/
set_option autoImplicit false
namespace Tbv.SendQueue

open Tbv.NativeData

def Worker.refs (w : Worker) : List Nat := w.retry ++ w.completed

def Caller.refs : Caller → List Nat
  | .post _ => []
  | .worker w => w.refs

def WorkerStage.refs : WorkerStage → List Nat
  | .start | .reap _ | .done _ => []
  | .retryNext w | .afterRetry w | .finishSends w => w.refs
  | .retryPending c _ w => c :: w.refs
  | .retried c _ _ w => c :: w.refs

def Frame.refs : Frame → List Nat
  | .post c _ => [c]
  | .postFrames c _ _ caller => c :: caller.refs
  | .txDone c _ | .txFailed c _ | .releaseSendq c | .sendComplete c _ | .cancelPackets c
  | .cqPush c _ | .wireAcked c => [c]
  | .finish _ sends _ => sends
  | .worker stage => stage.refs
  | _ => []

/-- Where `tbv_post_send_one` can go on to in one section. -/
def PostStage.Next : PostStage → PostStage → Prop
  | .start, .takeCredit => True
  | .takeCredit, .reserve _ => True
  | .reserve _, .giveBack ret => ret ≠ 0
  | .reserve credit, .takePsn credit' => credit = credit'
  | .takePsn credit, .queue credit' => credit = credit'
  | .queue credit, .arm credit' => credit = credit'
  | .framesPosted _ ret, .giveBack ret' => ret' = ret ∧ ret ≠ 0
  | _, _ => False

/-- Where `tbv_post_rdma_read` can go on to. -/
def ReadStage.Next : ReadStage → ReadStage → Prop
  | .start, .reserve => True
  | .reserve, .takePsn => True
  | .takePsn, .build => True
  | .build, .queue => True
  | .queue, .send => True
  | .build, .failed ret => ret ≠ 0
  | .send, .unqueue ret => ret ≠ 0
  | .unqueue ret, .failed ret' => ret' = ret
  | _, _ => False

/-- The lists of the worker at a stage between the reap and the end. -/
def WorkerStage.lists : WorkerStage → Option Worker
  | .retryNext w | .retryPending _ _ w | .retried _ _ _ w | .afterRetry w | .finishSends w => some w
  | _ => none

/-- The retry the worker has picked and not yet handed to
`tbv_native_send_ctx_post_frames`. -/
def WorkerStage.picked : WorkerStage → Option Nat
  | .retryPending c _ _ => some c
  | _ => none

/-- The frames that drain the pending list where they give a verdict. -/
def Frame.mayDrain : Frame → Bool
  | .txFailed _ _ | .ackHandle _ _ | .worker (.reap _) | .worker (.retried _ _ _ _)
  | .flushSends => true
  | _ => false

/-- The frames that can take the place of a frame. -/
inductive Follows (q : Qp) : Frame → List Frame → Prop
  | nothing (f : Frame) : Follows q f []
  | post {c : Nat} {stage stage' : PostStage} (next : stage.Next stage') :
      Follows q (.post c stage) [.post c stage']
  | toFrames {c : Nat} {stage : PostStage} {credit : Bool}
      (late : stage = .queue credit ∨ stage = .arm credit) :
      Follows q (.post c stage) [.postFrames c .initial .select (.post credit)]
  | frames {c : Nat} {reason : PostReason} {stage stage' : FramesStage} {caller : Caller}
      (entered : stage' ≠ .select) :
      Follows q (.postFrames c reason stage caller) [.postFrames c reason stage' caller]
  | resume {c : Nat} {reason : PostReason} {stage : FramesStage} {caller : Caller} (ret : Int) :
      Follows q (.postFrames c reason stage caller) [caller.resume c reason ret]
  | streamRefused {c : Nat} {reason : PostReason} {caller : Caller} (pages : Nat) (ret : Int) :
      Follows q (.postFrames c reason .raw caller)
        (List.replicate pages (.txDone c ret) ++ [caller.resume c reason ret])
  | read {r : Nat} {stage stage' : ReadStage} (next : stage.Next stage') :
      Follows q (.postRead r stage) [.postRead r stage']
  | txFailed {c : Nat} {status : Int} (nonzero : status ≠ 0) :
      Follows q (.txDone c status) [.txFailed c status]
  | drained {c : Nat} (last : (q.ctx c).txPending = 1) (uc : (q.ctx c).retryable = false) :
      Follows q (.txDone c 0) [.sendComplete c 0, .releaseSendq c]
  | detach {f : Frame} (may : f.mayDrain = true) (who : Finisher) {gone : List Nat}
      (listed : ∀ c ∈ gone, c ∈ q.pendingSends) : Follows q f [.finish who gone false]
  | claim {c : Nat} {status : Int} {push : List Frame}
      (fresh : (q.ctx c).completed = false)
      (one : push = [] ∨ push = [.cqPush c status]) :
      Follows q (.sendComplete c status) (.cancelPackets c :: push)
  | cancelled {c : Nat} (packets : Nat) :
      Follows q (.cancelPackets c) (List.replicate packets (.txDone c ecanceled))
  | ack (psn : Nat) (status : SendAckStatus) : Follows q (.ack psn status) [.ackHandle psn status]
  | finish {who : Finisher} {c : Nat} {rest : List Nat} {err err' : Bool} :
      Follows q (.finish who (c :: rest) err) (finishOne q c who ++ [.finish who rest err'])
  | error (f : Frame) : Follows q f [.markError]
  | flush : Follows q .markError [.flushSends, .flushReads]
  | workerStart {stage : WorkerStage} (idle : stage.lists = none) :
      Follows q (.worker .start) [.worker stage]
  | reap {now : Nat} {w : Worker} {r : Reap}
      (reaped : reapSends now q.pendingSends { qp := q } = some r)
      (retry : w.retry = r.retry) (completed : w.completed = r.completed) :
      Follows q (.worker (.reap now)) [.worker (.retryNext w)]
  | pick {w : Worker} {c : Nat} {rest : List Nat} (head : w.retry = c :: rest)
      (reason : PostReason) : Follows q (.worker (.retryNext w))
        [.worker (.retryPending c reason { w with retry := rest })]
  | retry {c : Nat} {reason : PostReason} {w : Worker} (pending : q.sendRetryPending c = true) :
      Follows q (.worker (.retryPending c reason w)) [.postFrames c reason .select (.worker w)]
  | worker {stage stage' : WorkerStage} {w w' : Worker} (has : stage.lists = some w)
      (has' : stage'.lists = some w') (idle : stage'.picked = none)
      (noRef : stage'.refs = w'.refs)
      (retry : ∀ c ∈ w'.retry, c ∈ w.retry)
      (completed : ∀ c ∈ w'.completed,
        c ∈ w.completed ∨ (Frame.worker stage).mayDrain = true ∧ c ∈ q.pendingSends) :
      Follows q (.worker stage) [.worker stage']
  | workerError {w : Worker} :
      Follows q (.worker (.afterRetry w)) [.markError, .worker (.finishSends w)]
  | workerFinish {w : Worker} (reads : List Nat) (status : Option Int) (needResched : Bool) :
      Follows q (.worker (.finishSends w))
        [.finish .worker w.completed false, .finishReads reads status,
          .worker (.done needResched)]
  | readComplete {f : Frame} (r : Nat) (status : Int) : Follows q f [.readComplete r status]
  | finishReads {f : Frame} (reads : List Nat) (status : Option Int) :
      Follows q f [.finishReads reads status]
  | finishRead {f : Frame} (r : Nat) (status : Int) (reads : List Nat) (status' : Option Int) :
      Follows q f [.readComplete r status, .finishReads reads status']
  | cqPushRead {f : Frame} (r : Nat) (status : Int) : Follows q f [.cqPushRead r status]

section
variable {q q' : Qp} {choice : Choice} {pushed : List Frame} {c : Nat}

theorem readyPrefix_subset (among : c ∈ q.readyPrefix) : c ∈ q.pendingSends :=
  (List.takeWhile_prefix _).subset among

theorem markReady_pendingSends (q : Qp) (c : Nat) (status : Int) :
    (q.markReady c status).pendingSends = q.pendingSends := by
  unfold Qp.markReady
  split <;> rfl

theorem completeSendOrdered_subset {psn : Nat} {status : Int}
    (among : c ∈ (q.completeSendOrdered psn status).2) : c ∈ q.pendingSends := by
  have decided : Decides (fun _ _ => True) q _ _ :=
    decides_completeSendOrdered q psn status fun _ _ => trivial
  rw [decided.pendingSends]
  exact List.mem_append_left _ among

theorem handleAck_subset {psn : Nat} {status : SendAckStatus}
    (among : c ∈ (q.handleAck psn status).2) : c ∈ q.pendingSends := by
  rw [(handleAck_decides q psn status).pendingSends]
  exact List.mem_append_left _ among

theorem reapSends_retry {now : Nat} {cs : List Nat} {r r' : Reap}
    (reaped : reapSends now cs r = some r') (among : c ∈ r'.retry) : c ∈ r.retry ∨ c ∈ cs := by
  induction cs generalizing r with
  | nil =>
      cases Option.some.inj reaped
      exact .inl among
  | cons d rest ih =>
      obtain ⟨middle, first, later⟩ := Option.bind_eq_some_iff.mp reaped
      rcases ih later with old | new
      · have grown : c ∈ r.retry ∨ c = d := by
          unfold reapSend at first
          split at first
          · cases Option.some.inj first
            exact .inl old
          · cases Option.some.inj first
            simpa using old
          · dsimp only at first
            split at first
            · cases first
            · cases Option.some.inj first
              exact .inl old
        rcases grown with before | rfl
        · exact .inl before
        · exact .inr (List.mem_cons_self ..)
      · exact .inr (List.mem_cons_of_mem _ new)

theorem reapSends_completed {now : Nat} {r : Reap}
    (reaped : reapSends now q.pendingSends { qp := q } = some r) (among : c ∈ r.completed) :
    c ∈ q.pendingSends := by
  have decided : Decides (fun _ _ => True) q r.qp r.completed :=
    reapSends_decides (fun _ _ _ => trivial) (.refl _ q) reaped
  rw [decided.pendingSends]
  exact List.mem_append_left _ among

theorem execPost_follows {c : Nat} {stage : PostStage}
    (executed : execPost q c choice stage = some (q', pushed)) :
    Follows q (.post c stage) pushed := by
  cases stage with
  | start =>
      simp only [execPost, Qp.returnPost] at executed
      repeat' split at executed
      all_goals cases executed
      all_goals first | exact .nothing _ | exact .post trivial
  | takeCredit =>
      simp only [execPost, Qp.returnPost] at executed
      repeat' split at executed
      all_goals cases executed
      all_goals first | exact .nothing _ | exact .post trivial
  | reserve credit =>
      simp only [execPost, Qp.refusePost, Qp.returnPost] at executed
      repeat' split at executed
      all_goals cases executed
      · exact .post (by change einval ≠ 0; decide)
      · exact .nothing _
      · exact .post (by change enomem ≠ 0; decide)
      · exact .nothing _
      · exact .post rfl
      · rename_i negative _
        exact .post (Int.ne_of_lt negative)
      · exact .nothing _
  | takePsn credit =>
      cases executed
      exact .post rfl
  | queue credit =>
      simp only [execPost] at executed
      split at executed
      all_goals cases executed
      · exact .toFrames (.inl rfl)
      · exact .post rfl
  | arm credit =>
      cases executed
      exact .toFrames (.inr rfl)
  | framesPosted credit ret =>
      simp only [execPost, Qp.refusePost, Qp.returnPost] at executed
      repeat' split at executed
      all_goals cases executed
      · exact .nothing _
      · rename_i nonzero _ _
        exact .post ⟨rfl, nonzero⟩
      · exact .nothing _
      · exact .nothing _
  | giveBack ret =>
      cases executed
      exact .nothing _

theorem execPostFrames_follows {c : Nat} {reason : PostReason} {caller : Caller}
    {stage : FramesStage}
    (executed : execPostFrames q c reason caller choice stage = some (q', pushed)) :
    Follows q (.postFrames c reason stage caller) pushed := by
  cases stage with
  | select =>
      simp only [execPostFrames] at executed
      repeat' split at executed
      all_goals cases executed
      · exact .frames (by simp)
      · exact .frames (by simp)
      · exact .resume _
  | raw =>
      simp only [execPostFrames] at executed
      repeat' split at executed
      all_goals cases executed
      · exact .resume _
      · exact .streamRefused _ _
  | copy offset frames =>
      simp only [execPostFrames] at executed
      repeat' split at executed
      all_goals cases executed
      · exact .resume _
      · exact .frames (by simp)
      · exact .frames (by simp)
      · exact .resume _
  | charge frames =>
      simp only [execPostFrames] at executed
      repeat' split at executed
      all_goals cases executed
      · exact .frames (by simp)
      · exact .resume _
  | enqueue frames =>
      simp only [execPostFrames] at executed
      repeat' split at executed
      all_goals cases executed
      · exact .resume _
      · exact .frames (by simp)
      · exact .frames (by simp)
  | uncharge frames ret =>
      cases executed
      exact .resume _

theorem execPostRead_follows {r : Nat} {stage : ReadStage}
    (executed : execPostRead q r choice stage = some (q', pushed)) :
    Follows q (.postRead r stage) pushed := by
  cases stage <;> simp only [execPostRead, Qp.returnRead] at executed <;>
    repeat' split at executed
  all_goals cases executed
  all_goals first
    | exact .nothing _
    | exact .read trivial
    | exact .read (Int.ne_of_lt (by assumption))
    | exact .read rfl

theorem execWorker_follows {stage : WorkerStage}
    (executed : execWorker q choice stage = some (q', pushed)) :
    Follows q (.worker stage) pushed := by
  cases stage with
  | start =>
      cases executed
      exact .workerStart (by split <;> rfl)
  | reap now =>
      simp only [execWorker, Option.map_eq_some_iff] at executed
      obtain ⟨reap, reaped, made⟩ := executed
      cases made
      exact .reap reaped rfl rfl
  | retryNext w =>
      simp only [execWorker] at executed
      repeat' split at executed
      all_goals cases executed
      · exact .worker rfl rfl rfl rfl (fun _ among => among) fun _ among => .inl among
      · rename_i head _
        refine .worker rfl rfl rfl rfl (fun d among => ?_) fun _ among => .inl among
        rw [head]
        exact List.mem_cons_of_mem _ among
      · rename_i head _
        exact .pick head _
  | retryPending c reason w =>
      simp only [execWorker] at executed
      split at executed
      all_goals cases executed
      · rename_i pending
        exact .retry pending
      · exact .worker rfl rfl rfl rfl (fun _ among => among) fun _ among => .inl among
  | retried c reason ret w =>
      simp only [execWorker] at executed
      repeat' split at executed
      all_goals cases executed
      case isTrue.isFalse.isFalse.isFalse.refl =>
        refine .worker rfl rfl rfl rfl (fun _ among => among) fun d among => ?_
        rcases List.mem_append.mp among with old | new
        · exact .inl old
        · have listed := readyPrefix_subset new
          rw [markReady_pendingSends] at listed
          exact .inr ⟨rfl, listed⟩
      all_goals exact .worker rfl rfl rfl rfl (fun _ among => among) fun _ among => .inl among
  | afterRetry w =>
      cases executed
      split
      · exact .workerError
      · exact .worker rfl rfl rfl rfl (fun _ among => among) fun _ among => .inl among
  | finishSends w =>
      cases executed
      exact .workerFinish _ _ _
  | done needResched =>
      simp only [execWorker] at executed
      split at executed
      all_goals cases executed
      all_goals exact .nothing _

theorem exec_follows {f : Frame} (executed : exec q f choice = some (q', pushed)) :
    Follows q f pushed := by
  cases f with
  | post c stage => exact execPost_follows executed
  | postFrames c reason stage caller => exact execPostFrames_follows executed
  | postRead r stage => exact execPostRead_follows executed
  | worker stage => exact execWorker_follows executed
  | txDone c status =>
      simp only [exec, execTxDone] at executed
      repeat' split at executed
      all_goals cases executed
      · rename_i nonzero
        exact .txFailed nonzero
      · rename_i zero uc
        have zero : status = 0 := by simpa using zero
        subst zero
        exact .drained uc.1 uc.2
      · exact .nothing _
  | txFailed c status =>
      cases executed
      exact .detach rfl _ fun d among => completeSendOrdered_subset among
  | releaseSendq c =>
      cases executed
      exact .nothing _
  | sendComplete c status =>
      simp only [exec] at executed
      split at executed
      all_goals cases executed
      · exact .nothing _
      · rename_i fresh
        refine .claim (by simpa using fresh) ?_
        split
        · exact .inr rfl
        · exact .inl rfl
  | cancelPackets c =>
      simp only [exec] at executed
      repeat' split at executed
      all_goals cases executed
      exact .cancelled _
  | cqPush c status =>
      simp only [exec] at executed
      repeat' split at executed
      all_goals cases executed
      all_goals exact .nothing _
  | ack psn status =>
      cases executed
      split
      · exact .ack psn status
      · exact .nothing _
  | ackHandle psn status =>
      cases executed
      exact .detach rfl _ fun d among => handleAck_subset among
  | wireAcked c =>
      cases executed
      exact .nothing _
  | finish who sends err =>
      cases sends with
      | nil =>
          cases executed
          split
          · exact .error _
          · exact .nothing _
      | cons c rest =>
          cases executed
          exact .finish
  | markError =>
      simp only [exec] at executed
      split at executed
      all_goals cases executed
      · exact .flush
      · exact .nothing _
  | flushSends =>
      cases executed
      exact .detach rfl _ fun d among => among
  | flushReads =>
      cases executed
      exact .finishReads _ _
  | readTxDone r status =>
      simp only [exec] at executed
      repeat' split at executed
      all_goals cases executed
      all_goals first | exact .nothing _ | exact .readComplete _ _
  | completeRead r status =>
      cases executed
      exact .finishReads _ _
  | finishReads reads status =>
      simp only [exec] at executed
      split at executed
      all_goals cases executed
      · exact .nothing _
      · exact .finishRead _ _ _ _
  | readComplete r status =>
      simp only [exec] at executed
      split at executed
      all_goals cases executed
      · exact .nothing _
      · split
        · exact .cqPushRead _ _
        · exact .nothing _
  | cqPushRead r status =>
      simp only [exec] at executed
      repeat' split at executed
      all_goals cases executed
      all_goals exact .nothing _

/-! ## References -/

theorem Caller.resume_refs {caller : Caller} {reason : PostReason} {ret : Int} :
    (caller.resume c reason ret).refs = c :: caller.refs := by
  cases caller <;> rfl

theorem WorkerStage.refs_of_lists {stage : WorkerStage} {w : Worker}
    (has : stage.lists = some w) {c : Nat} (among : c ∈ w.refs) : c ∈ stage.refs := by
  cases stage <;> simp_all [WorkerStage.lists, WorkerStage.refs]

theorem finishOne_refs {who : Finisher} {d : Nat} {g : Frame} (among : g ∈ finishOne q d who) :
    g.refs = [d] := by
  cases who <;> simp only [finishOne, List.mem_cons, List.not_mem_nil, or_false] at among
  · subst among
    rfl
  · rcases among with rfl | rfl | rfl <;> rfl
  · rcases among with rfl | rfl <;> rfl
  · rcases among with rfl | rfl <;> rfl

/-- A frame refers to nothing new: only to what its predecessor referred to or what
stood on the pending list. -/
theorem Follows.refs {f g : Frame} (follows : Follows q f pushed) (among : g ∈ pushed)
    (refers : c ∈ g.refs) : c ∈ f.refs ∨ c ∈ q.pendingSends := by
  cases follows with
  | nothing => cases among
  | post next =>
      cases List.mem_singleton.mp among
      exact .inl refers
  | toFrames late =>
      cases List.mem_singleton.mp among
      exact .inl refers
  | frames entered =>
      cases List.mem_singleton.mp among
      exact .inl refers
  | resume ret =>
      cases List.mem_singleton.mp among
      rw [Caller.resume_refs] at refers
      exact .inl refers
  | streamRefused pages ret =>
      rcases List.mem_append.mp among with callback | last
      · cases (List.mem_replicate.mp callback).2
        exact .inl (List.mem_cons.mpr (.inl (List.mem_singleton.mp refers)))
      · cases List.mem_singleton.mp last
        rw [Caller.resume_refs] at refers
        exact .inl refers
  | read next =>
      cases List.mem_singleton.mp among
      cases refers
  | txFailed nonzero =>
      cases List.mem_singleton.mp among
      exact .inl refers
  | drained last uc =>
      simp only [List.mem_cons, List.not_mem_nil, or_false] at among
      rcases among with rfl | rfl <;> exact .inl refers
  | detach may who listed =>
      cases List.mem_singleton.mp among
      exact .inr (listed c refers)
  | claim fresh one =>
      rcases List.mem_cons.mp among with rfl | pushes
      · exact .inl refers
      · rcases one with rfl | rfl
        · cases pushes
        · cases List.mem_singleton.mp pushes
          exact .inl refers
  | cancelled packets =>
      cases (List.mem_replicate.mp among).2
      exact .inl refers
  | ack psn status =>
      cases List.mem_singleton.mp among
      cases refers
  | finish =>
      rcases List.mem_append.mp among with one | last
      · rw [finishOne_refs one] at refers
        exact .inl (List.mem_cons.mpr (.inl (List.mem_singleton.mp refers)))
      · cases List.mem_singleton.mp last
        exact .inl (List.mem_cons_of_mem _ refers)
  | error =>
      cases List.mem_singleton.mp among
      cases refers
  | flush =>
      simp only [List.mem_cons, List.not_mem_nil, or_false] at among
      rcases among with rfl | rfl <;> cases refers
  | workerStart idle =>
      cases List.mem_singleton.mp among
      rename_i stage
      cases stage <;> simp_all [WorkerStage.lists, Frame.refs, WorkerStage.refs]
  | reap reaped retry completed =>
      cases List.mem_singleton.mp among
      refine .inr ?_
      rcases List.mem_append.mp refers with inRetry | inCompleted
      · rw [retry] at inRetry
        rcases reapSends_retry reaped inRetry with none | some
        · cases none
        · exact some
      · rw [completed] at inCompleted
        exact reapSends_completed reaped inCompleted
  | pick head reason =>
      cases List.mem_singleton.mp among
      refine .inl ?_
      simp_all [Frame.refs, WorkerStage.refs, Worker.refs]
  | retry pending =>
      cases List.mem_singleton.mp among
      exact .inl refers
  | worker has has' idle noRef retry completed =>
      cases List.mem_singleton.mp among
      simp only [Frame.refs, noRef] at refers
      rcases List.mem_append.mp refers with inRetry | inCompleted
      · exact .inl (WorkerStage.refs_of_lists has (List.mem_append_left _ (retry c inRetry)))
      · rcases completed c inCompleted with old | ⟨_, new⟩
        · exact .inl (WorkerStage.refs_of_lists has (List.mem_append_right _ old))
        · exact .inr new
  | workerError =>
      simp only [List.mem_cons, List.not_mem_nil, or_false] at among
      rcases among with rfl | rfl
      · cases refers
      · exact .inl refers
  | workerFinish reads status needResched =>
      simp only [List.mem_cons, List.not_mem_nil, or_false] at among
      rcases among with rfl | rfl | rfl
      · exact .inl (List.mem_append_right _ refers)
      · cases refers
      · cases refers
  | readComplete r status =>
      cases List.mem_singleton.mp among
      cases refers
  | finishReads reads status =>
      cases List.mem_singleton.mp among
      cases refers
  | finishRead r status reads status' =>
      simp only [List.mem_cons, List.not_mem_nil, or_false] at among
      rcases among with rfl | rfl <;> cases refers
  | cqPushRead r status =>
      cases List.mem_singleton.mp among
      cases refers

theorem Follows.wellFormed {f g : Frame} (follows : Follows q f pushed) (wf : f.WellFormed)
    (among : g ∈ pushed) : g.WellFormed := by
  cases follows with
  | nothing => cases among
  | post next =>
      cases List.mem_singleton.mp among
      rename_i stage stage'
      cases stage' <;> first | trivial | skip
      cases stage <;> simp_all [PostStage.Next, Frame.WellFormed]
  | read next =>
      cases List.mem_singleton.mp among
      rename_i stage stage'
      cases stage' <;> first | trivial | skip
      all_goals cases stage <;> simp_all [ReadStage.Next, Frame.WellFormed]
  | txFailed nonzero =>
      cases List.mem_singleton.mp among
      exact nonzero
  | resume ret =>
      rename_i caller
      cases List.mem_singleton.mp among
      cases caller <;> trivial
  | streamRefused pages ret =>
      rename_i caller
      rcases List.mem_append.mp among with callback | last
      · cases (List.mem_replicate.mp callback).2
        trivial
      · cases List.mem_singleton.mp last
        cases caller <;> trivial
  | claim fresh one =>
      rcases List.mem_cons.mp among with rfl | pushes
      · trivial
      · rcases one with rfl | rfl
        · cases pushes
        · cases List.mem_singleton.mp pushes
          trivial
  | cancelled packets =>
      cases (List.mem_replicate.mp among).2
      trivial
  | finish =>
      rename_i who d rest err err'
      rcases List.mem_append.mp among with one | last
      · cases who <;> simp only [finishOne, List.mem_cons, List.not_mem_nil, or_false] at one
        · subst one
          trivial
        · rcases one with rfl | rfl | rfl <;> trivial
        · rcases one with rfl | rfl <;> trivial
        · rcases one with rfl | rfl <;> trivial
      · cases List.mem_singleton.mp last
        trivial
  | drained last uc =>
      simp only [List.mem_cons, List.not_mem_nil, or_false] at among
      rcases among with rfl | rfl <;> trivial
  | flush =>
      simp only [List.mem_cons, List.not_mem_nil, or_false] at among
      rcases among with rfl | rfl <;> trivial
  | workerError =>
      simp only [List.mem_cons, List.not_mem_nil, or_false] at among
      rcases among with rfl | rfl <;> trivial
  | workerFinish reads status needResched =>
      simp only [List.mem_cons, List.not_mem_nil, or_false] at among
      rcases among with rfl | rfl | rfl <;> trivial
  | finishRead r status reads status' =>
      simp only [List.mem_cons, List.not_mem_nil, or_false] at among
      rcases among with rfl | rfl <;> trivial
  | _ =>
      cases List.mem_singleton.mp among
      trivial

end

/-! ## Every reachable state -/

section
variable {ok : St → Lbl → Prop} {cfg : QpConfig} {memory : Nat → UInt8} {st st' : St}

/-- One step: either an event of the environment or a frame with its effect. -/
theorem step_cases {label : Lbl} (taken : step st label = some st') :
    (∃ event q' code, label = .event event ∧ react st.shared event = some (q', code) ∧
      st' = ⟨q', st.threads ++ [code]⟩) ∨
    (∃ thread choice f rest q' pushed, label = .run thread choice ∧
      st.threads[thread]? = some (f :: rest) ∧ exec st.shared f choice = some (q', pushed) ∧
      st' = ⟨q', st.threads.set thread (pushed ++ rest)⟩) := by
  cases label with
  | event event =>
      obtain ⟨q', code, reacted, rfl⟩ := Threads.step_event taken
      exact .inl ⟨event, q', code, rfl, reacted, rfl⟩
  | run thread choice =>
      obtain ⟨f, rest, q', pushed, found, executed, rfl⟩ := Threads.step_run taken
      exact .inr ⟨thread, choice, f, rest, q', pushed, rfl, found, executed, rfl⟩

/-- The first frame of a thread that belongs to no post and no callback. -/
def Frame.isEntry : Frame → Bool
  | .ack _ _ | .readTxDone _ _ | .completeRead _ _ | .worker .start | .markError | .flushSends
  | .flushReads => true
  | _ => false

/-- Everything the environment can do. -/
inductive Reacts (q : Qp) : Event → Qp → List Frame → Prop
  | postSend (wr : SendWr) : Reacts q (.postSend wr)
      { q with
        nextOp := q.nextOp + 1
        ctx := Function.update q.ctx q.nextOp (newCtx q.cfg wr)
        posted := Function.update q.posted q.nextOp (gather q.memory wr.segs) }
      [.post q.nextOp .start]
  | postRead (signaled : Bool) : Reacts q (.postRead signaled)
      { q with
        nextOp := q.nextOp + 1
        read := Function.update q.read q.nextOp { signaled := signaled } }
      [.postRead q.nextOp .start]
  | txRetired {c framed raw : Nat} {isRaw : Bool} (status : Int)
      (flying : framed ≤ q.inFlight c ∧ raw ≤ q.rawInFlight c ∧ framed + raw = 1) :
      Reacts q (.txRetired c isRaw status) (q.dropInFlight c framed raw) [.txDone c status]
  | dma {c offset len : Nat} (flying : 0 < q.rawInFlight c) :
      Reacts q (.dma c offset len) (q.note (.fragment c offset
        (((gather q.memory (q.ctx c).wr.segs).drop offset).take len))) []
  | memWrite (addr : Nat) (byte : UInt8) : Reacts q (.memWrite addr byte)
      { q with memory := Function.update q.memory addr byte } []
  | quiet {event : Event} {q' : Qp} {code : List Frame} (only : Quiet q q')
      (entry : ∀ g ∈ code, g.isEntry = true) : Reacts q event q' code

theorem react_reacts {q q' : Qp} {event : Event} {code : List Frame}
    (reacted : react q event = some (q', code)) : Reacts q event q' code := by
  cases event with
  | postSend wr =>
      cases reacted
      exact .postSend wr
  | postRead signaled =>
      cases reacted
      exact .postRead signaled
  | ack psn status =>
      cases reacted
      exact .quiet (.refl q) (by simp [Frame.isEntry])
  | txRetired c raw status =>
      simp only [react] at reacted
      repeat' split at reacted
      all_goals cases reacted
      · exact .txRetired status ⟨by omega, by omega, by omega⟩
      · exact .txRetired status ⟨by omega, by omega, by omega⟩
  | dma c offset len =>
      simp only [react] at reacted
      split at reacted
      · rename_i posted
        cases reacted
        exact .dma posted.1
      · cases reacted
  | readRetired r status =>
      simp only [react] at reacted
      split at reacted
      all_goals cases reacted
      exact .quiet { Quiet.refl q with } (by simp [Frame.isEntry])
  | readResponse r status =>
      cases reacted
      exact .quiet (.refl q) (by simp [Frame.isEntry])
  | recvCredit credits =>
      simp only [react] at reacted
      split at reacted
      all_goals cases reacted
      refine .quiet (Quiet.trans ?_ (quiet_scheduleTimeout _)) (by simp)
      exact { Quiet.refl q with }
  | timeoutWork =>
      simp only [react] at reacted
      split at reacted
      all_goals cases reacted
      exact .quiet { Quiet.refl q with } (by simp [Frame.isEntry])
  | error =>
      cases reacted
      exact .quiet (.refl q) (by simp [Frame.isEntry])
  | close =>
      cases reacted
      exact .quiet { Quiet.refl q with } (by simp)
  | stopProducers =>
      simp only [react] at reacted
      split at reacted
      all_goals cases reacted
      exact .quiet (.refl q) (by simp [Frame.isEntry])
  | tick =>
      cases reacted
      exact .quiet { Quiet.refl q with } (by simp)
  | memWrite addr byte =>
      cases reacted
      exact .memWrite addr byte

theorem Frame.wellFormed_of_isEntry {f : Frame} (entry : f.isEntry = true) : f.WellFormed := by
  cases f <;> trivial

theorem Frame.refs_of_isEntry {f : Frame} (entry : f.isEntry = true) : f.refs = [] := by
  cases f with
  | worker stage => cases stage <;> first | rfl | cases entry
  | _ => first | rfl | cases entry

theorem Reacts.wellFormed {q q' : Qp} {event : Event} {code : List Frame}
    (reacts : Reacts q event q' code) {g : Frame} (among : g ∈ code) : g.WellFormed := by
  cases reacts with
  | quiet only entry => exact Frame.wellFormed_of_isEntry (entry g among)
  | dma => cases among
  | memWrite => cases among
  | _ =>
      cases List.mem_singleton.mp among
      trivial

theorem wellFormed_of_reaches (reached : Trans.Reaches step ok (start cfg memory) st)
    {f : Frame} (has : st.Has f) : f.WellFormed := by
  induction reached generalizing f with
  | init =>
      obtain ⟨code, among, _⟩ := has
      cases among
  | step before meets taken ih =>
      rcases step_cases taken with ⟨event, q', code, _, reacted, rfl⟩ |
        ⟨thread, choice, g, rest, q', pushed, _, found, executed, rfl⟩
      · rcases Threads.State.has_of_event has with new | old
        · exact (react_reacts reacted).wellFormed new
        · exact ih old
      · rcases Threads.State.has_of_run found has with new | old
        · exact (exec_follows executed).wellFormed (ih (Threads.State.has_of_top found)) new
        · exact ih old

/-- The invariant rule of the send queue: one obligation for the environment, one for
the frames, whose error codes are known to be well formed. -/
theorem reaches_invariant_react {Inv : St → Prop} (atStart : Inv (start cfg memory))
    (onEvent : ∀ {st : St} {event : Event} {q' : Qp} {code : List Frame}, Inv st →
      ok st (.event event) → react st.shared event = some (q', code) →
      Inv ⟨q', st.threads ++ [code]⟩)
    (onRun : ∀ {st : St} {thread : Nat} {choice : Choice} {f : Frame} {rest : List Frame}
      {q' : Qp} {pushed : List Frame}, Inv st → f.WellFormed → ok st (.run thread choice) →
      st.threads[thread]? = some (f :: rest) → exec st.shared f choice = some (q', pushed) →
      Inv ⟨q', st.threads.set thread (pushed ++ rest)⟩)
    (reached : Trans.Reaches step ok (start cfg memory) st) : Inv st := by
  induction reached with
  | init => exact atStart
  | step before meets taken ih =>
      rcases step_cases taken with ⟨event, q', code, rfl, reacted, rfl⟩ |
        ⟨thread, choice, f, rest, q', pushed, rfl, found, executed, rfl⟩
      · exact onEvent ih meets reacted
      · have wf := wellFormed_of_reaches before (Threads.State.has_of_top found)
        exact onRun ih wf meets found executed

theorem reaches_invariant {Inv : St → Prop} (atStart : Inv (start cfg memory))
    (onEvent : ∀ {st : St} {event : Event} {q' : Qp} {code : List Frame}, Inv st →
      ok st (.event event) → Reacts st.shared event q' code → Inv ⟨q', st.threads ++ [code]⟩)
    (onRun : ∀ {st : St} {thread : Nat} {choice : Choice} {f : Frame} {rest : List Frame}
      {q' : Qp} {pushed : List Frame}, Inv st → f.WellFormed → ok st (.run thread choice) →
      st.threads[thread]? = some (f :: rest) → exec st.shared f choice = some (q', pushed) →
      Inv ⟨q', st.threads.set thread (pushed ++ rest)⟩)
    (reached : Trans.Reaches step ok (start cfg memory) st) : Inv st :=
  reaches_invariant_react atStart
    (fun inv meets reacted => onEvent inv meets (react_reacts reacted)) onRun reached

end

end Tbv.SendQueue
