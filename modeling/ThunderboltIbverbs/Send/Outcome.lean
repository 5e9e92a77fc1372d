import ThunderboltIbverbs.Send.Turns
import ThunderboltIbverbs.Send.RawOnce
import Mathlib.Data.List.Nodup

/-! # One outcome for each request

`completed` is claimed once, so no request completes twice.  A post that fails behind its
queue section may leave a request others still refer to, and a verdict does not know of
the callbacks that came before it; the other two halves need that neither happens. -/
set_option autoImplicit false
namespace Tbv.SendQueue

open Tbv.NativeData

def Entry.errorOf (c : Nat) : Entry → Bool
  | .txDone d status => d == c && status != 0
  | _ => false

/-- A request completes at most once, not at all if its post returned an error, and
successfully only if no callback of it reported an error before. -/
structure OneOutcome (st : St) : Prop where
  once : (completions st.shared.log).Nodup
  refused : ∀ c psn ret, .returned c psn ret ∈ st.shared.log → ret ≠ 0 →
    c ∉ completions st.shared.log
  success : st.shared.log.Pairwise fun first later =>
    ∀ c, first.errorOf c = true → later ≠ .completion c .success

def SendCtx.Sure (x : SendCtx) : Prop :=
  x.ready = true ∧ x.completionStatus = 0 ∧ x.completed = false

instance (x : SendCtx) : Decidable x.Sure :=
  inferInstanceAs (Decidable (_ ∧ _ ∧ _))

def Frame.succeeds (q : Qp) (c : Nat) : Frame → Bool
  | .cqPush d status => d == c && status == 0
  | .sendComplete d status => d == c && status == 0 && !(q.ctx c).completed
  | _ => false

def Succeeding (st : St) (c : Nat) : Prop :=
  (st.shared.ctx c).Sure ∨ ∃ g, st.Has g ∧ g.succeeds st.shared c = true

instance (st : St) (c : Nat) : Decidable (Succeeding st c) :=
  inferInstanceAs (Decidable (_ ∨ ∃ g, st.Has g ∧ _))

/-- The request whose post fails behind its queue section. -/
def Frame.refuses : Frame → Option Nat
  | .post c (.framesPosted _ ret) => if ret = 0 then none else some c
  | _ => none

/-- The request an error callback is about. -/
def Frame.fails : Frame → Option Nat
  | .txDone c status => if status = 0 then none else some c
  | _ => none

/-- The request a frame decides to be successful: an acknowledgement, or the drain of a
request that is not retryable. -/
def Frame.grants (q : Qp) : Frame → Option Nat
  | .ackHandle psn .ok =>
      (q.matchPsn psn).filter fun c => !(q.ctx c).ready && !(q.ctx c).completed
  | .txDone c status =>
      if status = 0 ∧ (q.ctx c).txPending = 1 ∧ (q.ctx c).retryable = false ∧
        (q.ctx c).completed = false then some c else none
  | _ => none

/-- A post fails behind its queue section only while its request is pending, nothing of it
is in flight and nobody else refers to it; an error callback does not come between a
successful verdict and its push, and a successful verdict not after an error callback. -/
def OutcomesApart (st : St) : Lbl → Prop
  | .event _ => True
  | .run thread _ => ∀ f ∈ st.top thread,
      (∀ c ∈ f.refuses, c ∈ st.shared.pendingSends ∧ (st.shared.ctx c).completed = false ∧
        st.shared.inFlight c = 0 ∧ st.shared.rawInFlight c = 0 ∧
        ¬ ∃ g, st.Has g ∧ c ∈ g.refs ∧ g ≠ f) ∧
      (∀ c ∈ f.fails, ¬ Succeeding st c) ∧
      (∀ c ∈ f.grants st.shared, ∀ entry ∈ st.shared.log, entry.errorOf c = false)

instance (st : St) (label : Lbl) : Decidable (OutcomesApart st label) :=
  match label with
  | .event _ => isTrue trivial
  | .run thread _ => inferInstanceAs (Decidable (∀ f ∈ st.top thread, _ ∧ _ ∧ _))

/-- The request is not queued yet, or no longer. -/
def Frame.unqueued : Frame → Bool
  | .post _ .start | .post _ .takeCredit | .post _ (.reserve _) | .post _ (.takePsn _)
  | .post _ (.queue _) | .post _ (.giveBack _) => true
  | _ => false

/-- Nobody but its own post knows of the request. -/
structure Untouched (st : St) (c : Nat) : Prop where
  pending : c ∉ st.shared.pendingSends
  inFlight : st.shared.inFlight c = 0
  rawInFlight : st.shared.rawInFlight c = 0
  open_ : (st.shared.ctx c).completed = false
  refs : ∀ {g}, st.Has g → c ∈ g.refs → g.unqueued = true

section
variable {st : St} {q q' : Qp} {choice : Choice} {pushed : List Frame} {f : Frame} {c : Nat}

/-! ## Requests nobody refers to -/

/-- Only `tbv_native_send_ctx_post_frames` puts frames of a request in flight. -/
theorem Effect.flight (effect : Effect q f q') (c : Nat) :
    (q'.inFlight c ≤ q.inFlight c ∧ q'.rawInFlight c ≤ q.rawInFlight c) ∨
      ∃ reason stage caller, f = .postFrames c reason stage caller := by
  have same : ∀ {p : Qp}, Quiet p q' → p.inFlight = q.inFlight →
      p.rawInFlight = q.rawInFlight →
      q'.inFlight c ≤ q.inFlight c ∧ q'.rawInFlight c ≤ q.rawInFlight c := by
    intro p only framed raw
    rw [only.inFlight, only.rawInFlight, framed, raw]
    exact ⟨Nat.le_refl _, Nat.le_refl _⟩
  cases effect with
  | quiet only => exact .inl (same only rfl rfl)
  | emit emits only => exact .inl (same only rfl rfl)
  | takePsn is eq => exact .inl (by subst eq; exact ⟨Nat.le_refl _, Nat.le_refl _⟩)
  | takePsnRead is eq => exact .inl (by subst eq; exact ⟨Nat.le_refl _, Nat.le_refl _⟩)
  | queue is only => exact .inl (same only rfl rfl)
  | unqueue is negative listed only => exact .inl (same only rfl rfl)
  | unqueueReturn is negative listed only => exact .inl (same only rfl rfl)
  | decide decided =>
      have base := decided.base
      exact .inl ⟨Nat.le_of_eq (congrFun base.inFlight c), Nat.le_of_eq (congrFun base.rawInFlight c)⟩
  | complete is fresh eq => exact .inl (by subst eq; exact ⟨Nat.le_refl _, Nat.le_refl _⟩)
  | @enqueue d frames taken reason caller is eq =>
      by_cases mine : c = d
      · subst mine
        exact .inr ⟨_, _, _, is⟩
      · refine .inl ?_
        subst eq
        simp [Qp.addInFlight, Function.update_of_ne mine]
  | @stream d frames reason caller is only =>
      by_cases mine : c = d
      · subst mine
        exact .inr ⟨_, _, _, is⟩
      · refine .inl ?_
        rw [only.inFlight, only.rawInFlight]
        simp [Qp.addRawInFlight, Function.update_of_ne mine, Qp.note]
  | @cancel d framed raw is eq =>
      refine .inl ?_
      subst eq
      simp only [Qp.dropInFlight, Function.update_apply]
      constructor <;> split <;> simp_all

/-- `completed` is set by `tbv_send_complete` and never cleared. -/
theorem Effect.completed (effect : Effect q f q') (c : Nat) :
    (q'.ctx c).completed = (q.ctx c).completed ∨
      ∃ status, f = .sendComplete c status ∧ (q'.ctx c).completed = true := by
  cases effect with
  | quiet only => exact .inl (congrArg Core.completed (only.core c))
  | emit emits only => exact .inl (congrArg Core.completed (only.core c))
  | takePsn is eq =>
      refine .inl ?_
      subst eq
      simp only [Qp.takePsn, modCtx_ctx]
      split <;> simp_all [Qp.advancePsn]
  | takePsnRead is eq => exact .inl (by subst eq; rfl)
  | queue is only => exact .inl (congrArg Core.completed (only.core c))
  | unqueue is negative listed only => exact .inl (congrArg Core.completed (only.core c))
  | unqueueReturn is negative listed only => exact .inl (congrArg Core.completed (only.core c))
  | decide decided =>
      rcases decided.core c with same | ⟨_, status, _, set⟩
      · exact .inl (congrArg Core.completed same)
      · exact .inl (congrArg Core.completed set)
  | @complete d status is fresh eq =>
      subst eq
      by_cases mine : c = d
      · subst mine
        exact .inr ⟨status, is, by simp [Qp.setCompleted, modCtx_ctx]⟩
      · exact .inl (by simp [Qp.setCompleted, modCtx_ctx, mine])
  | enqueue is eq => exact .inl (by subst eq; rfl)
  | stream is only => exact .inl (congrArg Core.completed (only.core c))
  | cancel is eq => exact .inl (by subst eq; rfl)

theorem Frame.eq_post_of_unqueued (unqueued : f.unqueued = true) : ∃ d stage, f = .post d stage := by
  cases f with
  | post d stage => exact ⟨d, stage, rfl⟩
  | _ => cases unqueued

/-- What follows the post of a request that is not queued refers to it in the same way. -/
theorem Follows.unqueued {g : Frame} (follows : Follows q f pushed) (unqueued : f.unqueued = true)
    (idle : f.queues = none) (among : g ∈ pushed) (refers : c ∈ g.refs) : g.unqueued = true := by
  obtain ⟨d, stage, rfl⟩ := Frame.eq_post_of_unqueued unqueued
  cases follows with
  | nothing => cases among
  | @post _ _ stage' next =>
      cases List.mem_singleton.mp among
      cases stage <;> cases stage' <;>
        simp_all [PostStage.Next, Frame.unqueued, Frame.queues]
  | toFrames late => rcases late with rfl | rfl <;> simp_all [Frame.queues, Frame.unqueued]
  | detach may => cases may
  | finishRead =>
      simp only [List.mem_cons, List.not_mem_nil, or_false] at among
      rcases among with rfl | rfl <;> cases refers
  | _ =>
      cases List.mem_singleton.mp among
      cases refers

theorem Untouched.run (untouched : Untouched st c) {thread : Nat} {rest : List Frame}
    (wf : f.WellFormed) (found : st.threads[thread]? = some (f :: rest))
    (executed : exec st.shared f choice = some (q', pushed)) (idle : f.queues ≠ some c) :
    Untouched ⟨q', st.threads.set thread (pushed ++ rest)⟩ c := by
  have top := Threads.State.has_of_top found
  have effect := exec_effect wf executed
  have flight : q'.inFlight c ≤ st.shared.inFlight c ∧
      q'.rawInFlight c ≤ st.shared.rawInFlight c := by
    rcases effect.flight c with fewer | ⟨reason, stage, caller, rfl⟩
    · exact fewer
    · cases untouched.refs top (List.mem_cons_self ..)
  refine ⟨?_, ?_, ?_, ?_, fun {g} has refers => ?_⟩
  · rcases effect.pending with shrinks | ⟨d, credit, rfl, grown⟩
    · exact fun listed => untouched.pending (shrinks.subset listed)
    · dsimp only
      rw [grown]
      intro listed
      rcases List.mem_append.mp listed with old | new
      · exact untouched.pending old
      · exact idle (congrArg some (List.mem_singleton.mp new).symm)
  · have := untouched.inFlight
    dsimp only
    omega
  · have := untouched.rawInFlight
    dsimp only
    omega
  · rcases effect.completed c with same | ⟨status, rfl, _⟩
    · exact same.trans untouched.open_
    · cases untouched.refs top (List.mem_cons_self ..)
  · rcases Threads.State.has_of_run found has with new | old
    · rcases (exec_follows executed).refs new refers with mine | listed
      · have unqueued := untouched.refs top mine
        obtain ⟨d, stage, rfl⟩ := Frame.eq_post_of_unqueued unqueued
        cases List.mem_singleton.mp mine
        refine (exec_follows executed).unqueued unqueued ?_ new refers
        cases stage <;> first | rfl | exact absurd rfl idle
      · exact absurd listed untouched.pending
    · exact untouched.refs old refers

/-! ## Completions are claimed once -/

/-- The completion of the request is about to be pushed. -/
def pushesOf (c : Nat) : Frame → Nat
  | .cqPush d _ => if d = c then 1 else 0
  | _ => 0

theorem weigh_pushes_replicate (count d : Nat) (status : Int) :
    Threads.weigh (pushesOf c) (List.replicate count (.txDone d status)) = 0 :=
  Threads.weigh_eq_zero fun g among => by
    cases (List.mem_replicate.mp among).2
    rfl

theorem Caller.resume_pushes {caller : Caller} {reason : PostReason} {ret : Int} {d : Nat} :
    pushesOf c (caller.resume d reason ret) = 0 := by
  cases caller <;> rfl

theorem Follows.pushes (follows : Follows q f pushed) (c : Nat) :
    Threads.weigh (pushesOf c) pushed = 0 ∨ Threads.weigh (pushesOf c) pushed = 1 ∧
      (q.ctx c).completed = false ∧ ∃ status, f = .sendComplete c status := by
  cases follows with
  | @claim d status push fresh one =>
      rcases one with rfl | rfl
      · exact .inl rfl
      · by_cases mine : d = c
        · subst mine
          exact .inr ⟨by simp [pushesOf], fresh, status, rfl⟩
        · exact .inl (by simp [pushesOf, mine])
  | resume ret => exact .inl (by simp [Caller.resume_pushes])
  | streamRefused pages ret =>
      exact .inl (by simp [weigh_pushes_replicate, Caller.resume_pushes])
  | cancelled packets => exact .inl (weigh_pushes_replicate _ _ _)
  | @finish who d rest err err' => exact .inl (by cases who <;> rfl)
  | _ => exact .inl rfl

theorem exec_sendComplete {status : Int}
    (executed : exec q (.sendComplete c status) choice = some (q', pushed))
    (fresh : (q.ctx c).completed = false) : (q'.ctx c).completed = true := by
  simp only [exec, fresh] at executed
  cases executed
  simp [Qp.setCompleted, modCtx_ctx]

theorem Effect.completions (effect : Effect q f q') (c : Nat) :
    (completions q'.log).count c ≤ (completions q.log).count c + pushesOf c f := by
  rcases effect.log with same | ⟨entry, grown, emits⟩
  · rw [same]
    exact Nat.le_add_right _ _
  · rw [grown, completions_append, List.count_append]
    cases emits with
    | completion d status =>
        have one : SendQueue.completions [Entry.completion d (wcStatus status)] = [d] := rfl
        rw [one, List.count_singleton]
        by_cases mine : d = c <;> simp [pushesOf, mine]
    | _ => exact Nat.le_add_right _ _

/-- What is pushed or about to be pushed has been claimed, once. -/
def Claimed (st : St) : Prop :=
  ∀ c, (completions st.shared.log).count c + st.total (pushesOf c) ≤
    if (st.shared.ctx c).completed then 1 else 0

theorem Claimed.run (claimed : Claimed st) {thread : Nat} {rest : List Frame}
    (wf : f.WellFormed) (found : st.threads[thread]? = some (f :: rest))
    (executed : exec st.shared f choice = some (q', pushed)) :
    Claimed ⟨q', st.threads.set thread (pushed ++ rest)⟩ := by
  intro c
  have effect := exec_effect wf executed
  have before := claimed c
  have logged := effect.completions c
  have moved := @Threads.State.total_run _ _ st (pushesOf c) _ _ _ pushed q' found
  have grows : (st.shared.ctx c).completed = true → (q'.ctx c).completed = true := by
    intro set
    rcases effect.completed c with same | ⟨_, _, now⟩
    · exact same.trans set
    · exact now
  dsimp only
  rcases (exec_follows executed).pushes c with
    none | ⟨one, fresh, status, rfl⟩
  · cases set : (st.shared.ctx c).completed with
    | true =>
        rw [set, if_pos rfl] at before
        rw [grows set, if_pos rfl]
        omega
    | false =>
        rw [set] at before
        simp only [Bool.false_eq_true, if_false] at before
        omega
  · rw [fresh] at before
    simp only [Bool.false_eq_true, if_false] at before
    rw [exec_sendComplete executed fresh, if_pos rfl]
    have silent : pushesOf c (.sendComplete c status) = 0 := rfl
    omega

/-! ## Requests with a verdict -/

/-- The requests a frame has taken off the pending list for completion. -/
def Frame.drained : Frame → List Nat
  | .finish _ sends _ => sends
  | .worker stage => stage.lists.elim [] Worker.completed
  | .postFrames _ _ _ (.worker w) => w.completed
  | _ => []

theorem Follows.drained_of_quiet (follows : Follows q f pushed) (still : f.mayDrain = false)
    {g : Frame} (among : g ∈ pushed) (listed : c ∈ g.drained) : c ∈ f.drained := by
  cases follows with
  | nothing => cases among
  | post next =>
      cases List.mem_singleton.mp among
      cases listed
  | toFrames late =>
      cases List.mem_singleton.mp among
      cases listed
  | @frames d reason stage stage' caller entered =>
      cases List.mem_singleton.mp among
      cases caller <;> exact listed
  | @resume d reason stage caller ret =>
      cases List.mem_singleton.mp among
      cases caller <;> exact listed
  | @streamRefused d reason caller pages ret =>
      rcases List.mem_append.mp among with callback | last
      · cases (List.mem_replicate.mp callback).2
        cases listed
      · cases List.mem_singleton.mp last
        cases caller <;> exact listed
  | cancelled packets =>
      cases (List.mem_replicate.mp among).2
      cases listed
  | claim fresh one =>
      rcases one with rfl | rfl <;> simp only [List.mem_cons, List.not_mem_nil, or_false] at among
      · subst among
        cases listed
      · rcases among with rfl | rfl <;> cases listed
  | @finish who d rest err err' =>
      rcases List.mem_append.mp among with one | last
      · cases who <;> simp only [finishOne, List.mem_cons, List.not_mem_nil, or_false] at one
        · subst one
          cases listed
        · rcases one with rfl | rfl | rfl <;> cases listed
        · rcases one with rfl | rfl <;> cases listed
        · rcases one with rfl | rfl <;> cases listed
      · cases List.mem_singleton.mp last
        exact List.mem_cons_of_mem _ listed
  | detach may =>
      rw [still] at may
      cases may
  | reap => cases still
  | pick head reason =>
      cases List.mem_singleton.mp among
      exact listed
  | retry pending =>
      cases List.mem_singleton.mp among
      exact listed
  | worker has has' idle noRef retry completed =>
      cases List.mem_singleton.mp among
      simp only [Frame.drained, has', has, Option.elim_some] at listed ⊢
      rcases completed c listed with old | ⟨may, _⟩
      · exact old
      · rw [still] at may
        cases may
  | @workerStart stage idle =>
      cases List.mem_singleton.mp among
      simp [Frame.drained, idle] at listed
  | workerError =>
      simp only [List.mem_cons, List.not_mem_nil, or_false] at among
      rcases among with rfl | rfl
      · cases listed
      · exact listed
  | workerFinish reads status needResched =>
      simp only [List.mem_cons, List.not_mem_nil, or_false] at among
      rcases among with rfl | rfl | rfl
      · exact listed
      · cases listed
      · cases listed
  | drained last uc =>
      simp only [List.mem_cons, List.not_mem_nil, or_false] at among
      rcases among with rfl | rfl <;> cases listed
  | flush =>
      simp only [List.mem_cons, List.not_mem_nil, or_false] at among
      rcases among with rfl | rfl <;> cases listed
  | finishRead r status reads status' =>
      simp only [List.mem_cons, List.not_mem_nil, or_false] at among
      rcases among with rfl | rfl <;> cases listed
  | _ =>
      cases List.mem_singleton.mp among
      cases listed

theorem exec_drained (executed : exec q f choice = some (q', pushed)) {g : Frame}
    (among : g ∈ pushed) (listed : c ∈ g.drained) :
    c ∈ f.drained ∨ (q'.ctx c).ready = true := by
  have quiet : f.mayDrain = false → c ∈ f.drained := fun still =>
    (exec_follows executed).drained_of_quiet still among listed
  cases f with
  | txFailed d status =>
      have decided : Decides (fun _ _ => True) q _ _ :=
        decides_completeSendOrdered q (q.ctx d).psn status fun _ _ => trivial
      cases executed
      cases List.mem_singleton.mp among
      exact .inr (decided.ready c listed)
  | ackHandle psn status =>
      have decided := handleAck_decides q psn status
      cases executed
      cases List.mem_singleton.mp among
      exact .inr (decided.ready c listed)
  | flushSends =>
      have decided : Decides (fun _ _ => True) q _ _ := Decides.flush q fun _ _ => trivial
      cases executed
      cases List.mem_singleton.mp among
      exact .inr (decided.ready c listed)
  | worker stage =>
      cases stage with
      | reap now =>
          simp only [exec, execWorker, Option.map_eq_some_iff] at executed
          obtain ⟨reap, reaped, made⟩ := executed
          cases made
          cases List.mem_singleton.mp among
          have decided : Decides (fun _ _ => True) q reap.qp reap.completed :=
            reapSends_decides (fun _ _ _ => trivial) (.refl _ q) reaped
          exact .inr ((decided.quiet (quiet_reapReads reap.qp now)).ready c listed)
      | retried d reason ret w =>
          simp only [exec, execWorker] at executed
          repeat' split at executed
          case isTrue.isFalse.isFalse.isFalse =>
            cases executed
            cases List.mem_singleton.mp among
            rcases List.mem_append.mp listed with old | new
            · exact .inl old
            · have decided : Decides (fun _ _ => True) q (q.markReady d etimedout).drainReadySends
                  ([] ++ (q.markReady d etimedout).readyPrefix) :=
                ((Decides.refl _ q).markReady trivial).drain
              exact .inr (decided.ready c new)
          all_goals
            cases executed
            cases List.mem_singleton.mp among
            exact .inl listed
      | _ => exact .inl (quiet rfl)
  | _ => exact .inl (quiet rfl)

/-- A verdict is never taken back. -/
theorem Effect.ready (effect : Effect q f q') (c : Nat) (ready : (q.ctx c).ready = true) :
    (q'.ctx c).ready = true ∧ (q'.ctx c).completionStatus = (q.ctx c).completionStatus := by
  have same : ∀ {p : Qp}, Quiet p q' → p.ctx c = q.ctx c →
      (q'.ctx c).ready = true ∧ (q'.ctx c).completionStatus = (q.ctx c).completionStatus := by
    intro p only eq
    have core := only.core c
    rw [eq] at core
    exact ⟨(congrArg Core.ready core).trans ready, congrArg Core.completionStatus core⟩
  cases effect with
  | quiet only => exact same only rfl
  | emit emits only => exact same only rfl
  | takePsn is eq =>
      subst eq
      simp only [Qp.takePsn, modCtx_ctx]
      split <;> simp_all [Qp.advancePsn]
  | takePsnRead is eq => exact by subst eq; exact ⟨ready, rfl⟩
  | queue is only => exact same only rfl
  | unqueue is negative listed only => exact same only rfl
  | unqueueReturn is negative listed only => exact same only rfl
  | decide decided =>
      rcases decided.core c with core | ⟨unready, _⟩
      · exact ⟨(congrArg Core.ready core).trans ready, congrArg Core.completionStatus core⟩
      · rw [ready] at unready
        cases unready
  | complete is fresh eq =>
      subst eq
      simp only [Qp.setCompleted, modCtx_ctx]
      split <;> simp_all
  | enqueue is eq => exact by subst eq; exact ⟨ready, rfl⟩
  | stream is only => exact same only rfl
  | cancel is eq => exact by subst eq; exact ⟨ready, rfl⟩

theorem SendCtx.sure_of_core {x y : SendCtx} (same : x.core = y.core) (sure : x.Sure) : y.Sure :=
  ⟨(congrArg Core.ready same).symm.trans sure.1,
    (congrArg Core.completionStatus same).symm.trans sure.2.1,
    (congrArg Core.completed same).symm.trans sure.2.2⟩

/-- A successful verdict comes from an acknowledgement. -/
theorem grants_of_verdict (wf : f.WellFormed) (given : Verdict q f c 0)
    (unready : (q.ctx c).ready = false) (fresh : (q.ctx c).completed = false) :
    f.grants q = some c := by
  cases f with
  | ackHandle psn status =>
      cases status with
      | ok =>
          have matched : q.matchPsn psn = some c := given.2
          simp [Frame.grants, matched, unready, fresh]
      | rnr => exact absurd rfl given
      | error => exact absurd rfl given
  | txFailed d status => exact absurd given.1.symm wf
  | worker stage => exact absurd rfl given
  | flushSends => exact absurd rfl given
  | _ => exact absurd given id

theorem Effect.sure (effect : Effect q f q') (wf : f.WellFormed) (sure : (q'.ctx c).Sure) :
    (q.ctx c).Sure ∨ f.grants q = some c := by
  cases effect with
  | quiet only => exact .inl (SendCtx.sure_of_core (only.core c) sure)
  | emit emits only => exact .inl (SendCtx.sure_of_core (only.core c) sure)
  | takePsn is eq =>
      refine .inl ?_
      subst eq
      simp only [Qp.takePsn, modCtx_ctx] at sure
      split at sure
      · rename_i same
        exact same ▸ sure
      · exact sure
  | takePsnRead is eq => exact .inl (by subst eq; exact sure)
  | queue is only => exact .inl (SendCtx.sure_of_core (only.core c) sure)
  | unqueue is negative listed only => exact .inl (SendCtx.sure_of_core (only.core c) sure)
  | unqueueReturn is negative listed only => exact .inl (SendCtx.sure_of_core (only.core c) sure)
  | decide decided =>
      rcases decided.core c with same | ⟨unready, status, given, set⟩
      · exact .inl (SendCtx.sure_of_core same sure)
      · have zero : status = 0 := (congrArg Core.completionStatus set).symm.trans sure.2.1
        have fresh : (q.ctx c).completed = false :=
          (congrArg Core.completed set).symm.trans sure.2.2
        subst zero
        exact .inr (grants_of_verdict wf given unready fresh)
  | @complete d status is fresh eq =>
      refine .inl ?_
      subst eq
      simp only [Qp.setCompleted, modCtx_ctx] at sure
      split at sure
      · cases sure.2.2
      · exact sure
  | enqueue is eq => exact .inl (by subst eq; exact sure)
  | stream is only => exact .inl (SendCtx.sure_of_core (only.core c) sure)
  | cancel is eq => exact .inl (by subst eq; exact sure)

/-- A frame that will complete the request successfully was led to by one that would, by
the drain of an unretryable request, or by the list of a drain that found it sure. -/
theorem Follows.succeeds (follows : Follows q f pushed)
    (ripe : ∀ c ∈ f.drained, (q.ctx c).ready = true) {g : Frame} (among : g ∈ pushed)
    (succeeds : g.succeeds q c = true) :
    f.succeeds q c = true ∨ (q.ctx c).Sure ∨ f.grants q = some c := by
  cases follows with
  | @drained d last uc =>
      simp only [List.mem_cons, List.not_mem_nil, or_false] at among
      rcases among with rfl | rfl
      · simp only [Frame.succeeds, Bool.and_eq_true, beq_iff_eq, Bool.not_eq_true'] at succeeds
        obtain ⟨⟨rfl, _⟩, fresh⟩ := succeeds
        exact .inr (.inr (by simp [Frame.grants, last, uc, fresh]))
      · cases succeeds
  | @claim d status push fresh one =>
      rcases one with rfl | rfl <;> simp only [List.mem_cons, List.not_mem_nil, or_false] at among
      · subst among
        cases succeeds
      · rcases among with rfl | rfl
        · cases succeeds
        · simp only [Frame.succeeds, Bool.and_eq_true, beq_iff_eq] at succeeds
          obtain ⟨rfl, rfl⟩ := succeeds
          exact .inl (by simp [Frame.succeeds, fresh])
  | @finish who d rest err err' =>
      have ready : (q.ctx d).ready = true := ripe d (List.mem_cons_self ..)
      have judged : (Frame.sendComplete d (q.ctx d).completionStatus).succeeds q c = true →
          (q.ctx c).Sure := by
        intro succeeds
        simp only [Frame.succeeds, Bool.and_eq_true, beq_iff_eq, Bool.not_eq_true'] at succeeds
        obtain ⟨⟨rfl, zero⟩, fresh⟩ := succeeds
        exact ⟨ready, zero, fresh⟩
      rcases List.mem_append.mp among with one | last
      · refine .inr (.inl ?_)
        cases who <;> simp only [finishOne, List.mem_cons, List.not_mem_nil, or_false] at one
        · subst one
          exact judged succeeds
        · rcases one with rfl | rfl | rfl
          · cases succeeds
          · cases succeeds
          · exact judged succeeds
        · rcases one with rfl | rfl
          · cases succeeds
          · exact judged succeeds
        · rcases one with rfl | rfl
          · cases succeeds
          · exact judged succeeds
      · cases List.mem_singleton.mp last
        cases succeeds
  | nothing => cases among
  | @resume d reason stage caller ret =>
      cases List.mem_singleton.mp among
      cases caller <;> cases succeeds
  | @streamRefused d reason caller pages ret =>
      rcases List.mem_append.mp among with callback | last
      · cases (List.mem_replicate.mp callback).2
        cases succeeds
      · cases List.mem_singleton.mp last
        cases caller <;> cases succeeds
  | cancelled packets =>
      cases (List.mem_replicate.mp among).2
      cases succeeds
  | flush =>
      simp only [List.mem_cons, List.not_mem_nil, or_false] at among
      rcases among with rfl | rfl <;> cases succeeds
  | workerError =>
      simp only [List.mem_cons, List.not_mem_nil, or_false] at among
      rcases among with rfl | rfl <;> cases succeeds
  | workerFinish reads status needResched =>
      simp only [List.mem_cons, List.not_mem_nil, or_false] at among
      rcases among with rfl | rfl | rfl <;> cases succeeds
  | finishRead r status reads status' =>
      simp only [List.mem_cons, List.not_mem_nil, or_false] at among
      rcases among with rfl | rfl <;> cases succeeds
  | _ =>
      cases List.mem_singleton.mp among
      cases succeeds

theorem Frame.succeeds_mono {g : Frame}
    (kept : (q'.ctx c).completed = false → (q.ctx c).completed = false)
    (succeeds : g.succeeds q' c = true) : g.succeeds q c = true := by
  cases g with
  | sendComplete d status =>
      simp only [Frame.succeeds, Bool.and_eq_true, beq_iff_eq, Bool.not_eq_true'] at succeeds ⊢
      exact ⟨succeeds.1, kept succeeds.2⟩
  | cqPush d status => exact succeeds
  | _ => cases succeeds

/-- A request comes to succeed only by a frame that decides so. -/
theorem Succeeding.of_run {thread : Nat} {rest : List Frame} (wf : f.WellFormed)
    (ripe : ∀ c ∈ f.drained, (st.shared.ctx c).ready = true)
    (found : st.threads[thread]? = some (f :: rest))
    (executed : exec st.shared f choice = some (q', pushed))
    (succeeding : Succeeding ⟨q', st.threads.set thread (pushed ++ rest)⟩ c) :
    Succeeding st c ∨ f.grants st.shared = some c := by
  have top := Threads.State.has_of_top found
  have effect := exec_effect wf executed
  have kept : (q'.ctx c).completed = false → (st.shared.ctx c).completed = false := by
    intro fresh
    rcases effect.completed c with same | ⟨_, _, set⟩
    · exact same.symm.trans fresh
    · rw [fresh] at set
      cases set
  rcases succeeding with sure | ⟨g, has, succeeds⟩
  · rcases effect.sure wf sure with before | grants
    · exact .inl (.inl before)
    · exact .inr grants
  · have before := Frame.succeeds_mono kept succeeds
    rcases Threads.State.has_of_run found has with new | old
    · rcases (exec_follows executed).succeeds ripe new before with mine | sure | grants
      · exact .inl (.inr ⟨f, top, mine⟩)
      · exact .inl (.inl sure)
      · exact .inr grants
    · exact .inl (.inr ⟨g, old, before⟩)

end

/-! ## The invariant -/

/-- Nobody refers to a request before it is queued and after its post has failed, and
none succeeds after an error callback. -/
structure Outcomes (st : St) : Prop where
  posting : Posting st
  nodup : st.shared.pendingSends.Nodup
  fresh : ∀ {c}, st.shared.nextOp ≤ c → Untouched st c
  unqueued : ∀ {g c}, st.Has g → g.unqueued = true → g.posts = some c → Untouched st c
  refused : ∀ {c psn ret}, .returned c psn ret ∈ st.shared.log → ret ≠ 0 → Untouched st c
  claimed : Claimed st
  ripe : ∀ {g c}, st.Has g → c ∈ g.drained → (st.shared.ctx c).ready = true
  apart : ∀ {c entry}, entry ∈ st.shared.log → entry.errorOf c = true → ¬ Succeeding st c
  success : st.shared.log.Pairwise fun first later =>
    ∀ c, first.errorOf c = true → later ≠ .completion c .success

section
variable {st : St} {q q' : Qp} {choice : Choice} {pushed : List Frame} {f : Frame} {c : Nat}

/-- A post that fails behind its queue section as the condition says leaves its request
untouched. -/
theorem Outcomes.refuse (outcomes : Outcomes st) {thread : Nat} {rest : List Frame}
    {credit : Bool} {ret : Int} (negative : ret ≠ 0)
    (found : st.threads[thread]? = some (.post c (.framesPosted credit ret) :: rest))
    (executed : exec st.shared (.post c (.framesPosted credit ret)) choice = some (q', pushed))
    (listed : c ∈ st.shared.pendingSends) (fresh : (st.shared.ctx c).completed = false)
    (framed : st.shared.inFlight c = 0) (raw : st.shared.rawInFlight c = 0)
    (alone : ¬ ∃ g, st.Has g ∧ c ∈ g.refs ∧ g ≠ .post c (.framesPosted credit ret)) :
    Untouched ⟨q', st.threads.set thread (pushed ++ rest)⟩ c := by
  have wf : (Frame.post c (.framesPosted credit ret)).WellFormed := trivial
  have effect := exec_effect wf executed
  have after := outcomes.posting.run wf found executed
  have shape : q'.pendingSends = st.shared.pendingSends.erase c ∧
      (pushed = [.post c (.giveBack ret)] ∨ pushed = [] ∧ c ∈ returns q'.log) := by
    simp only [exec, execPost, Qp.refusePost, Qp.returnPost, if_neg negative, if_pos listed]
      at executed
    split at executed <;> cases executed
    · exact ⟨rfl, .inl rfl⟩
    · exact ⟨rfl, .inr ⟨rfl, by simp [Qp.note, returns, Entry.returns]⟩⟩
  obtain ⟨pending, kind⟩ := shape
  refine ⟨?_, ?_, ?_, ?_, fun {g} has refers => ?_⟩
  · dsimp only
    rw [pending]
    exact List.Nodup.not_mem_erase outcomes.nodup
  · rcases effect.flight c with fewer | ⟨_, _, _, no⟩
    · exact Nat.le_zero.mp (framed ▸ fewer.1)
    · cases no
  · rcases effect.flight c with fewer | ⟨_, _, _, no⟩
    · exact Nat.le_zero.mp (raw ▸ fewer.2)
    · cases no
  · rcases effect.completed c with same | ⟨_, no, _⟩
    · exact same.trans fresh
    · cases no
  · -- The frame itself is gone: it has returned, or `giveBack` stands in its place.
    have gone : g ≠ .post c (.framesPosted credit ret) := by
      rintro rfl
      rcases kind with rfl | ⟨rfl, returned⟩
      · have inNext : Threads.State.Has ⟨q', st.threads.set thread
            ([.post c (.giveBack ret)] ++ rest)⟩ (.post c (.giveBack ret)) := by
          have inside : thread < st.threads.length := (List.getElem?_eq_some_iff.mp found).1
          exact ⟨_, List.mem_of_getElem? (List.getElem?_set_self inside), List.mem_cons_self ..⟩
        have same := after.carried.unique has inNext rfl rfl
        cases same
      · exact absurd returned (after.carried.unreturned has rfl)
    rcases Threads.State.has_of_run found has with new | old
    · rcases kind with rfl | ⟨rfl, _⟩
      · cases List.mem_singleton.mp new
        rfl
      · cases new
    · exact absurd ⟨g, old, refers, gone⟩ alone

/-- The request behind a frame that stands on a stack and is not queued is not the one
being queued now. -/
theorem Outcomes.not_queueing (outcomes : Outcomes st) {thread : Nat} {rest : List Frame}
    (wf : f.WellFormed) (found : st.threads[thread]? = some (f :: rest))
    (executed : exec st.shared f choice = some (q', pushed)) {g : Frame}
    (has : Threads.State.Has ⟨q', st.threads.set thread (pushed ++ rest)⟩ g)
    (unqueued : g.unqueued = true) (posts : g.posts = some c) : f.queues ≠ some c := by
  intro queues
  have after := outcomes.posting.run wf found executed
  obtain ⟨next, rfl, nextPosts, _⟩ := exec_queue queues executed
  have inNext : Threads.State.Has ⟨q', st.threads.set thread ([next] ++ rest)⟩ next := by
    have inside : thread < st.threads.length := (List.getElem?_eq_some_iff.mp found).1
    exact ⟨_, List.mem_of_getElem? (List.getElem?_set_self inside), List.mem_cons_self ..⟩
  have same := after.carried.unique has inNext posts nextPosts
  subst same
  have follows := exec_follows executed
  cases f with
  | post d stage =>
      cases stage <;> cases queues
      cases follows with
      | @post _ _ stage' next => cases stage' <;> simp_all [PostStage.Next, Frame.unqueued]
      | _ => cases unqueued
  | _ => cases queues

/-- A frame on its way in or out was led to by such a frame, or by a post that failed. -/
theorem Follows.unqueued_source {g : Frame} (follows : Follows q f pushed) (among : g ∈ pushed)
    (unqueued : g.unqueued = true) :
    f.unqueued = true ∨ ∃ d credit ret, f = .post d (.framesPosted credit ret) ∧ ret ≠ 0 := by
  obtain ⟨d, stage', rfl⟩ := Frame.eq_post_of_unqueued unqueued
  cases follows with
  | @post _ stage _ next =>
      cases List.mem_singleton.mp among
      cases stage with
      | arm credit => cases next
      | framesPosted credit ret =>
          cases stage' <;> first | exact .inr ⟨_, _, _, rfl, next.2⟩ | cases next
      | _ => exact .inl rfl
  | @resume _ _ _ caller _ =>
      cases caller <;> cases List.mem_singleton.mp among
      cases unqueued
  | @streamRefused _ _ caller _ _ =>
      rcases List.mem_append.mp among with callback | last
      · cases (List.mem_replicate.mp callback).2
      · cases caller <;> cases List.mem_singleton.mp last
        cases unqueued
  | cancelled packets => cases (List.mem_replicate.mp among).2
  | claim fresh one => rcases one with rfl | rfl <;> simp at among
  | @finish who d rest err err' => cases who <;> simp [finishOne] at among
  | _ => simp at among

/-- One step keeps the requests that must stay untouched so. -/
theorem Outcomes.run_untouched (outcomes : Outcomes st) {thread : Nat} {rest : List Frame}
    (wf : f.WellFormed) (meets : OutcomesApart st (.run thread choice))
    (found : st.threads[thread]? = some (f :: rest))
    (executed : exec st.shared f choice = some (q', pushed)) :
    (∀ {c}, q'.nextOp ≤ c → Untouched ⟨q', st.threads.set thread (pushed ++ rest)⟩ c) ∧
    (∀ {g c}, Threads.State.Has ⟨q', st.threads.set thread (pushed ++ rest)⟩ g →
      g.unqueued = true → g.posts = some c →
      Untouched ⟨q', st.threads.set thread (pushed ++ rest)⟩ c) ∧
    (∀ {c psn ret}, .returned c psn ret ∈ q'.log → ret ≠ 0 →
      Untouched ⟨q', st.threads.set thread (pushed ++ rest)⟩ c) := by
  have top := Threads.State.has_of_top found
  have effect := exec_effect wf executed
  have condition := (meets f (Threads.State.top_of_getElem? found)).1
  have failing : ∀ {d credit ret}, f = .post d (.framesPosted credit ret) → ret ≠ 0 →
      Untouched ⟨q', st.threads.set thread (pushed ++ rest)⟩ d := by
    rintro d credit ret rfl negative
    obtain ⟨listed, fresh, framed, raw, alone⟩ := condition d (by simp [Frame.refuses, negative])
    exact outcomes.refuse negative found executed listed fresh framed raw alone
  refine ⟨fun {c} new => ?_, fun {g c} has unqueued posts => ?_, fun {c psn ret} among negative => ?_⟩
  · have beyond : st.shared.nextOp ≤ c := effect.static.nextOp ▸ new
    refine (outcomes.fresh beyond).run wf found executed fun queues => ?_
    have old := outcomes.posting.carried.old top (Frame.posts_of_queues queues)
    omega
  · have idle := outcomes.not_queueing wf found executed has unqueued posts
    rcases Threads.State.has_of_run found has with new | old
    · have mine := exec_posts_of_mem wf executed new posts
      rcases (exec_follows executed).unqueued_source new unqueued with
        source | ⟨d, credit, ret, is, negative⟩
      · exact (outcomes.unqueued top source mine).run wf found executed idle
      · have same : d = c := by
          subst is
          exact Option.some.inj mine
        exact same ▸ failing is negative
    · exact (outcomes.unqueued old unqueued posts).run wf found executed idle
  · have known : .returned c psn ret ∈ st.shared.log →
        Untouched ⟨q', st.threads.set thread (pushed ++ rest)⟩ c := by
      intro old
      refine (outcomes.refused old negative).run wf found executed fun queues => ?_
      refine outcomes.posting.carried.unreturned top (Frame.posts_of_queues queues) ?_
      exact List.mem_filterMap.mpr ⟨_, old, rfl⟩
    rcases effect.log with same | ⟨entry, grown, emits⟩
    · exact known (same ▸ among)
    · rw [grown] at among
      rcases List.mem_append.mp among with old | new
      · exact known old
      · cases List.mem_singleton.mp new
        cases emits with
        | @refused _ stage _ _ early _ =>
            have unqueued : (Frame.post c stage).unqueued = true := by
              cases stage <;> first | rfl | cases early
            refine (outcomes.unqueued top unqueued rfl).run wf found executed ?_
            cases stage <;> simp_all [Frame.queues, PostStage.early]
        | failed _ credit _ => exact failing rfl negative
        | posted _ credit => exact absurd rfl negative

theorem wcStatus_success {status : Int} (success : wcStatus status = .success) : status = 0 := by
  unfold wcStatus at success
  repeat' split at success
  all_goals first | assumption | cases success

theorem Outcomes.run_apart (outcomes : Outcomes st) {thread : Nat} {rest : List Frame}
    (wf : f.WellFormed) (meets : OutcomesApart st (.run thread choice))
    (found : st.threads[thread]? = some (f :: rest))
    (executed : exec st.shared f choice = some (q', pushed)) :
    (∀ {c entry}, entry ∈ q'.log → entry.errorOf c = true →
      ¬ Succeeding ⟨q', st.threads.set thread (pushed ++ rest)⟩ c) ∧
    q'.log.Pairwise fun first later =>
      ∀ c, first.errorOf c = true → later ≠ .completion c .success := by
  have top := Threads.State.has_of_top found
  have effect := exec_effect wf executed
  obtain ⟨_, failing, granting⟩ := meets f (Threads.State.top_of_getElem? found)
  have stays : ∀ {c}, ¬ Succeeding st c → f.grants st.shared ≠ some c →
      ¬ Succeeding ⟨q', st.threads.set thread (pushed ++ rest)⟩ c := by
    intro c before silent now
    rcases now.of_run wf (fun c listed => outcomes.ripe top listed) found executed with
      already | grants
    · exact before already
    · exact silent grants
  have known : ∀ {c entry}, entry ∈ st.shared.log → entry.errorOf c = true →
      ¬ Succeeding ⟨q', st.threads.set thread (pushed ++ rest)⟩ c := by
    intro c entry old error
    refine stays (outcomes.apart old error) fun grants => ?_
    rw [granting c grants entry old] at error
    cases error
  rcases effect.log with same | ⟨entry, grown, emits⟩
  · rw [same]
    exact ⟨known, outcomes.success⟩
  · rw [grown]
    constructor
    · intro c other among error
      rcases List.mem_append.mp among with old | new
      · exact known old error
      · cases List.mem_singleton.mp new
        cases emits with
        | txDone d status =>
            simp only [Entry.errorOf, Bool.and_eq_true, beq_iff_eq, bne_iff_ne, ne_eq] at error
            obtain ⟨rfl, nonzero⟩ := error
            refine stays (failing d (by simp [Frame.fails, nonzero])) ?_
            simp [Frame.grants, nonzero]
        | _ => cases error
    · refine List.pairwise_append.mpr ⟨outcomes.success, List.pairwise_singleton _ _, ?_⟩
      intro first old later new c error isSuccess
      cases List.mem_singleton.mp new
      subst isSuccess
      generalize eq : Entry.completion c .success = pushed at emits
      cases emits with
      | completion d status =>
          injection eq with mine success
          have zero := wcStatus_success success.symm
          refine outcomes.apart old error (.inr ⟨_, top, ?_⟩)
          simp [Frame.succeeds, mine, zero]
      | _ => cases eq

theorem Outcomes.run (outcomes : Outcomes st) {thread : Nat} {rest : List Frame}
    (wf : f.WellFormed) (meets : OutcomesApart st (.run thread choice))
    (found : st.threads[thread]? = some (f :: rest))
    (executed : exec st.shared f choice = some (q', pushed)) :
    Outcomes ⟨q', st.threads.set thread (pushed ++ rest)⟩ := by
  have top := Threads.State.has_of_top found
  have effect := exec_effect wf executed
  obtain ⟨fresh, unqueued, refused⟩ := outcomes.run_untouched wf meets found executed
  obtain ⟨apart, success⟩ := outcomes.run_apart wf meets found executed
  refine ⟨outcomes.posting.run wf found executed, ?_, fresh, unqueued, refused,
    outcomes.claimed.run wf found executed, fun {g c} has listed => ?_, apart, success⟩
  · rcases effect.pending with shrinks | ⟨c, credit, rfl, grown⟩
    · exact outcomes.nodup.sublist shrinks
    · dsimp only
      rw [grown]
      have absent := (outcomes.unqueued top rfl rfl).pending
      refine List.nodup_append.mpr ⟨outcomes.nodup, List.pairwise_singleton _ _, ?_⟩
      intro a old b new same
      cases List.mem_singleton.mp new
      exact absent (same ▸ old)
  · rcases Threads.State.has_of_run found has with new | old
    · rcases exec_drained executed new listed with before | ready
      · exact (effect.ready c (outcomes.ripe top before)).1
      · exact ready
    · exact (effect.ready c (outcomes.ripe old listed)).1

/-! ## Events -/

/-- A context differs after an event only where a request is posted into it. -/
theorem Reacts.ctx {event : Event} {code : List Frame} (reacts : Reacts q event q' code)
    (c : Nat) : (q'.ctx c).core = (q.ctx c).core ∨
      c = q.nextOp ∧ (q'.ctx c).completed = false ∧ (q'.ctx c).ready = false := by
  cases reacts with
  | quiet only entry => exact .inl (only.core c)
  | postSend wr =>
      by_cases new : c = q.nextOp
      · subst new
        exact .inr ⟨rfl, by simp [newCtx], by simp [newCtx]⟩
      · exact .inl (by simp [Function.update_of_ne new])
  | _ => exact .inl rfl

theorem Reacts.code {event : Event} {code : List Frame} (reacts : Reacts q event q' code)
    {g : Frame} (among : g ∈ code) :
    g.drained = [] ∧ (∀ c, g.succeeds q' c = false) ∧ (∀ c, pushesOf c g = 0) ∧
      ∀ c ∈ g.refs, g.unqueued = true ∨ 0 < q.inFlight c ∨ 0 < q.rawInFlight c := by
  cases reacts with
  | quiet only entry =>
      have first := entry g among
      refine ⟨?_, fun c => ?_, fun c => ?_, fun c refers => ?_⟩
      · cases g with
        | worker stage => cases stage <;> first | rfl | cases first
        | _ => first | rfl | cases first
      · cases g <;> first | rfl | cases first
      · cases g <;> first | rfl | cases first
      · rw [Frame.refs_of_isEntry first] at refers
        cases refers
  | dma => cases among
  | memWrite => cases among
  | @txRetired d framed raw isRaw status flying =>
      cases List.mem_singleton.mp among
      refine ⟨rfl, fun _ => rfl, fun _ => rfl, fun c refers => .inr ?_⟩
      cases List.mem_singleton.mp refers
      omega
  | postSend wr =>
      cases List.mem_singleton.mp among
      exact ⟨rfl, fun _ => rfl, fun _ => rfl, fun _ _ => .inl rfl⟩
  | postRead signaled =>
      cases List.mem_singleton.mp among
      exact ⟨rfl, fun _ => rfl, fun _ => rfl, nofun⟩

theorem Reacts.flight {event : Event} {code : List Frame} (reacts : Reacts q event q' code)
    (c : Nat) : q'.inFlight c ≤ q.inFlight c ∧ q'.rawInFlight c ≤ q.rawInFlight c := by
  cases reacts with
  | quiet only entry =>
      rw [only.inFlight, only.rawInFlight]
      exact ⟨Nat.le_refl _, Nat.le_refl _⟩
  | @txRetired d framed raw isRaw status flying =>
      simp only [Qp.dropInFlight, Function.update_apply]
      constructor <;> split <;> simp_all
  | _ => exact ⟨Nat.le_refl _, Nat.le_refl _⟩

theorem Untouched.event (untouched : Untouched st c) {event : Event} {code : List Frame}
    (reacts : Reacts st.shared event q' code) : Untouched ⟨q', st.threads ++ [code]⟩ c := by
  have fewer := reacts.flight c
  have framed := untouched.inFlight
  have raw := untouched.rawInFlight
  refine ⟨?_, ?_, ?_, ?_, fun {g} has refers => ?_⟩
  · dsimp only
    rw [reacts.pendingSends]
    exact untouched.pending
  · dsimp only
    omega
  · dsimp only
    omega
  · rcases reacts.ctx c with same | ⟨_, fresh, _⟩
    · exact (congrArg Core.completed same).trans untouched.open_
    · exact fresh
  · rcases Threads.State.has_of_event has with new | old
    · rcases (reacts.code new).2.2.2 c refers with unqueued | flying | flying
      · exact unqueued
      · omega
      · omega
    · exact untouched.refs old refers

theorem Frame.drained_subset (listed : c ∈ f.drained) : c ∈ f.refs := by
  cases f with
  | finish who sends err => exact listed
  | worker stage =>
      cases has : stage.lists with
      | none => simp [Frame.drained, has] at listed
      | some w =>
          simp only [Frame.drained, has, Option.elim_some] at listed
          exact WorkerStage.refs_of_lists has (List.mem_append_right _ listed)
  | postFrames d reason stage caller =>
      cases caller with
      | post credit => cases listed
      | worker w => exact List.mem_cons_of_mem _ (List.mem_append_right _ listed)
  | _ => cases listed

theorem Frame.drained_of_unqueued (unqueued : f.unqueued = true) : f.drained = [] := by
  obtain ⟨d, stage, rfl⟩ := Frame.eq_post_of_unqueued unqueued
  rfl

theorem Reacts.log {event : Event} {code : List Frame} (reacts : Reacts q event q' code) :
    q'.log = q.log ∨ ∃ c offset payload, q'.log = q.log ++ [.fragment c offset payload] := by
  cases reacts with
  | quiet only entry => exact .inl only.log
  | dma flying => exact .inr ⟨_, _, _, rfl⟩
  | _ => exact .inl rfl

theorem Outcomes.event (outcomes : Outcomes st) {event : Event} {code : List Frame}
    (reacts : Reacts st.shared event q' code) : Outcomes ⟨q', st.threads ++ [code]⟩ := by
  have nextOp := reacts.samePsns.nextOp
  have known : ∀ {entry : Entry}, entry ∈ q'.log → (∀ c offset payload,
      entry ≠ .fragment c offset payload) → entry ∈ st.shared.log := by
    intro entry among noFragment
    rcases reacts.log with same | ⟨c, offset, payload, grown⟩
    · exact same ▸ among
    · rw [grown] at among
      rcases List.mem_append.mp among with old | new
      · exact old
      · exact absurd (List.mem_singleton.mp new) (noFragment c offset payload)
  refine ⟨outcomes.posting.event reacts, ?_, ?_, ?_, ?_, ?_, ?_, ?_, ?_⟩
  · dsimp only
    rw [reacts.pendingSends]
    exact outcomes.nodup
  · intro c beyond
    exact (outcomes.fresh (Nat.le_trans nextOp beyond)).event reacts
  · intro g c has unqueued posts
    rcases Threads.State.has_of_event has with new | old
    · have listed : c ∈ code.filterMap Frame.posts := List.mem_filterMap.mpr ⟨g, new, posts⟩
      rcases reacts.posts with ⟨isNew, _, _⟩ | ⟨none, _⟩
      · rw [isNew] at listed
        cases List.mem_singleton.mp listed
        exact (outcomes.fresh (Nat.le_refl _)).event reacts
      · rw [none] at listed
        cases listed
    · exact (outcomes.unqueued old unqueued posts).event reacts
  · intro c psn ret among negative
    exact (outcomes.refused (known among nofun) negative).event reacts
  · intro c
    have before := outcomes.claimed c
    have silent : Threads.weigh (pushesOf c) code = 0 :=
      Threads.weigh_eq_zero fun g among => (reacts.code among).2.2.1 c
    have logged : completions q'.log = completions st.shared.log := by
      rcases reacts.log with same | ⟨_, _, _, grown⟩
      · rw [same]
      · rw [grown, completions_append]
        exact List.append_nil _
    rw [Threads.State.total_event, silent]
    dsimp only
    rw [logged]
    rcases reacts.ctx c with same | ⟨rfl, fresh, _⟩
    · have kept : (q'.ctx c).completed = (st.shared.ctx c).completed :=
        congrArg Core.completed same
      rw [kept]
      exact before
    · rw [fresh]
      rw [(outcomes.fresh (Nat.le_refl _)).open_] at before
      exact before
  · intro g c has listed
    rcases Threads.State.has_of_event has with new | old
    · rw [(reacts.code new).1] at listed
      cases listed
    · rcases reacts.ctx c with same | ⟨rfl, _, _⟩
      · exact (congrArg Core.ready same).trans (outcomes.ripe old listed)
      · have unqueued :=
          (outcomes.fresh (Nat.le_refl _)).refs old (Frame.drained_subset listed)
        rw [Frame.drained_of_unqueued unqueued] at listed
        cases listed
  · intro c entry among error succeeding
    have old : entry ∈ st.shared.log := known among (by rintro _ _ _ rfl; cases error)
    refine outcomes.apart old error ?_
    rcases succeeding with sure | ⟨g, has, succeeds⟩
    · rcases reacts.ctx c with same | ⟨_, _, unready⟩
      · exact .inl (SendCtx.sure_of_core same sure)
      · have ready := sure.1
        rw [unready] at ready
        cases ready
    · rcases Threads.State.has_of_event has with new | stood
      · rw [(reacts.code new).2.1 c] at succeeds
        cases succeeds
      · refine .inr ⟨g, stood, Frame.succeeds_mono (fun fresh => ?_) succeeds⟩
        rcases reacts.ctx c with same | ⟨rfl, _, _⟩
        · exact (congrArg Core.completed same).symm.trans fresh
        · exact (outcomes.fresh (Nat.le_refl _)).open_
  · rcases reacts.log with same | ⟨_, _, _, grown⟩
    · dsimp only
      rw [same]
      exact outcomes.success
    · dsimp only
      rw [grown]
      refine List.pairwise_append.mpr ⟨outcomes.success, List.pairwise_singleton _ _, ?_⟩
      intro first _ later new c _ isSuccess
      cases List.mem_singleton.mp new
      cases isSuccess

theorem outcomes_start (cfg : QpConfig) (memory : Nat → UInt8) : Outcomes (start cfg memory) where
  posting := posting_start cfg memory
  nodup := List.Pairwise.nil
  fresh := fun _ => ⟨nofun, rfl, rfl, rfl, fun ⟨_, among, _⟩ => nomatch among⟩
  unqueued := fun ⟨_, among, _⟩ => nomatch among
  refused := fun among => nomatch among
  claimed := fun _ => Nat.zero_le _
  ripe := fun ⟨_, among, _⟩ => nomatch among
  apart := fun among => nomatch among
  success := List.Pairwise.nil

theorem Outcomes.oneOutcome (outcomes : Outcomes st) : OneOutcome st := by
  have atMost : ∀ c, (completions st.shared.log).count c ≤
      if (st.shared.ctx c).completed then 1 else 0 := by
    intro c
    have := outcomes.claimed c
    omega
  refine ⟨List.nodup_iff_count_le_one.mpr fun c => ?_, fun c psn ret among negative => ?_,
    outcomes.success⟩
  · have := atMost c
    split at this <;> omega
  · have none := atMost c
    rw [(outcomes.refused among negative).open_] at none
    exact List.count_eq_zero.mp (Nat.le_zero.mp none)

/-- In every run in which posts fail only while nobody else knows of the request, and
error callbacks and successful verdicts of one request do not cross, every request has one
outcome. -/
theorem requests_have_one_outcome (cfg : QpConfig) (memory : Nat → UInt8) (st : St)
    (reached : Trans.Reaches step OutcomesApart (start cfg memory) st) : OneOutcome st := by
  have outcomes : Outcomes st := by
    refine reaches_invariant (outcomes_start cfg memory) ?_ ?_ reached
    · intro st event q' code outcomes _ reacts
      exact outcomes.event reacts
    · intro st thread choice f rest q' pushed outcomes wf meets found executed
      exact outcomes.run wf meets found executed
  exact outcomes.oneOutcome

/-! ## A refused post and an accepted one -/

/-- The first post finds no path; the second is accepted and acknowledged. -/
def refusedThenAcked : List Lbl :=
  [(.event (.postSend oneByteSend) : Lbl)] ++
    runs 0 [.ok, .ok, .ok, .ok, .ok, .fail enotconn, .ok] ++
  [(.event (.postSend oneByteSend) : Lbl)] ++ runs 1 postTaken ++
  [(.event (.ack 0 .ok) : Lbl)] ++ runs 2 [.ok, .ok, .ok, .ok, .ok, .ok, .cancelled 0 0, .ok, .ok]

theorem requests_have_one_outcome_acked :
    ∃ st, Trans.Reaches step OutcomesApart (start rcConfig fun _ => 7) st ∧
      .returned 0 (2 ^ 24 - 1) enotconn ∈ st.shared.log ∧
      completions st.shared.log = [1] ∧ OneOutcome st := by
  have ran : (Trans.guarded step OutcomesApart refusedThenAcked
      (start rcConfig fun _ => 7)).any (fun st =>
        decide (.returned 0 (2 ^ 24 - 1) enotconn ∈ st.shared.log) &&
        decide (completions st.shared.log = [1])) = true := by
    decide +kernel
  obtain ⟨st, reached, found⟩ := Trans.exists_reaches_of_guarded ran
  simp only [Bool.and_eq_true, decide_eq_true_eq] at found
  exact ⟨st, reached, found.1, found.2, requests_have_one_outcome _ _ st reached⟩

/-- The path refuses a page stream after it has prepared its page: the callbacks of the
header and of the page complete the request before the post returns. -/
def streamRefused : List Lbl :=
  [.event (.postSend oneByteWrite)] ++ runs 0 [.ok, .ok, .ok, .ok, .ok, .ok, .ok,
    .pages 1 enomem, .ok, .ok, .ok, .ok, .cancelled 0 0, .ok, .ok, .ok, .ok, .ok, .ok]

theorem refused_post_completes :
    ¬ ∀ (cfg : QpConfig) (memory : Nat → UInt8) (st : St),
      Trans.Reaches step (fun _ _ => True) (start cfg memory) st → OneOutcome st := by
  intro always
  have ran : (Trans.guarded step (fun _ _ => True) streamRefused
      (start zcopyConfig fun _ => 7)).any (fun st =>
        decide (.returned 0 0 enomem ∈ st.shared.log) &&
        decide (0 ∈ completions st.shared.log)) = true := by
    decide +kernel
  obtain ⟨st, reached, found⟩ := Trans.exists_reaches_of_guarded ran
  simp only [Bool.and_eq_true, decide_eq_true_eq] at found
  have outcome := always zcopyConfig (fun _ => 7) st reached
  exact outcome.refused 0 0 enomem found.1 (by decide) found.2

end

end Tbv.SendQueue
