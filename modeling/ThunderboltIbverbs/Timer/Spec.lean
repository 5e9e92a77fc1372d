import ThunderboltIbverbs.Timer.Stamps
import ThunderboltIbverbs.Timer.Idle

/-! # What a run of the timeout work looks after

The timeout work looks at four things: sends, READs, READ responses and the receive side.  A
section that gives an entry of one of them a timer arms the work, or belongs to a run of it that
will ask for another; and a run of the work goes on looking after what it has found until it
arms the work again or flushes the QP. -/
set_option autoImplicit false
namespace Tbv.Timer

open Tbv.SendQueue (Worker WorkerStage Timing)

inductive Kind where
  | sends | reads | resps | rx
  deriving DecidableEq, Repr

/-- There is an entry whose timer runs. -/
def Qp.Stamped (q : Qp) : Kind → Prop
  | .sends => q.sq.sendStamped
  | .reads => q.sq.readStamped
  | .resps => ∃ p ∈ q.pendingReadResps, (q.resp p).queuedJiffies ≠ 0
  | .rx => ¬ Idle q.rx

/-- The frames of a run of `tbv_qp_timeout_work` between the section that clears
`timeout_work_armed` and the decision to arm it again. -/
def Frame.working : Frame → Bool
  | .sq (.worker .start) => false
  | .sq (.worker _) | .sq (.postFrames _ _ _ (.worker _)) => true
  | .reapResps _ _ | .retryResps _ | .resend _ _ _ | .resent _ _ _ _ | .dropResps _ | .reapRx _
  | .final _ => true
  | _ => false

/-- The frames after which the work is armed again, or the QP flushed, if entries of the kind
are left. -/
def Frame.minds (kind : Kind) : Frame → Bool
  | .sq (.worker (.reap _)) => true
  | .sq (.worker (.retryNext w)) | .sq (.worker (.retryPending _ _ w))
  | .sq (.worker (.retried _ _ _ w)) | .sq (.worker (.afterRetry w))
  | .sq (.postFrames _ _ _ (.worker w)) => kind == .rx || w.needResched || w.txTimedOut
  | .reapResps _ w => kind == .rx || kind == .resps || w.needResched
  | .sq (.worker (.finishSends w)) => kind == .rx || (w.needResched && !w.txTimedOut)
  | .sq (.worker (.done needResched)) | .retryResps needResched | .resend _ _ needResched
  | .resent _ _ _ needResched | .dropResps needResched | .reapRx needResched =>
      kind == .rx || needResched
  | .final needResched => needResched
  | _ => false

/-- The frames that take every entry of the kind away. -/
def Frame.flushes (kind : Kind) : Frame → Bool
  | .timedOut => kind != .rx
  | .sq .flushSends => kind == .sends
  | .sq .flushReads => kind == .reads
  | .cancelResps => kind == .resps
  | _ => false

/-- A run of the work on this stack minds the entries of the kind, or is about to flush them. -/
def minding (kind : Kind) : List Frame → Bool
  | [] => false
  | f :: rest => f.minds kind || (f.flushes kind && rest.any Frame.working) || minding kind rest

section Minding
variable {kind : Kind} {code rest : List Frame} {f g : Frame}

theorem working_of_minds (minds : f.minds kind = true) : f.working = true := by
  unfold Frame.minds at minds
  split at minds <;> first | rfl | cases minds

theorem minding_of_mem (among : g ∈ code) (minds : g.minds kind = true) :
    minding kind code = true := by
  induction code with
  | nil => cases among
  | cons f rest ih =>
      rcases List.mem_cons.mp among with rfl | later
      · simp [minding, minds]
      · simp [minding, ih later]

theorem minding_append (first : List Frame) (minds : minding kind rest = true) :
    minding kind (first ++ rest) = true := by
  induction first with
  | nil => exact minds
  | cons f first ih => simp [minding, ih]

theorem minding_append_left (minds : minding kind code = true) (rest : List Frame) :
    minding kind (code ++ rest) = true := by
  induction code with
  | nil => cases minds
  | cons f first ih =>
      simp only [minding, Bool.or_eq_true, Bool.and_eq_true] at minds
      simp only [List.cons_append, minding, Bool.or_eq_true, Bool.and_eq_true, List.any_append]
      rcases minds with (own | ⟨flushes, below⟩) | later
      · exact .inl (.inl own)
      · exact .inl (.inr ⟨flushes, .inl below⟩)
      · exact .inr (ih later)

theorem working_of_minding (minds : minding kind code = true) :
    ∃ f ∈ code, f.working = true := by
  induction code with
  | nil => cases minds
  | cons f rest ih =>
      simp only [minding, Bool.or_eq_true, Bool.and_eq_true, List.any_eq_true] at minds
      rcases minds with (own | ⟨-, g, among, works⟩) | later
      · exact ⟨f, List.mem_cons_self .., working_of_minds own⟩
      · exact ⟨g, List.mem_cons_of_mem _ among, works⟩
      · obtain ⟨g, among, works⟩ := ih later
        exact ⟨g, List.mem_cons_of_mem _ among, works⟩

end Minding

/-! ## What a frame does to the send queue -/

section Exec
variable {q q' : Qp} {choice : Choice} {pushed : List Frame} {f : Frame}

theorem execSq_timing {g : SendQueue.Frame} {own : SendQueue.Choice}
    (executed : execSq q own g = some (q', pushed)) (begun : g ≠ .worker .start)
    (watched : ∀ psn, g = .ackHandle psn .rnr → q.sq.stampsUnwatched psn = false) :
    Timing q.sq q'.sq := by
  unfold execSq at executed
  split at executed
  · split at executed
    · rename_i reaped
      cases executed
      exact SendQueue.exec_timing reaped (by simp) (by simp)
    · cases executed
  · cases executed
    exact .refl q.sq
  · cases executed
    exact .refl q.sq
  · unfold markError at executed
    split at executed <;> cases executed
    · exact SendQueue.timing_of_eq rfl rfl rfl rfl rfl rfl rfl
    · exact .refl q.sq
  · obtain ⟨out, ran, made⟩ := Option.map_eq_some_iff.mp executed
    cases made
    exact SendQueue.exec_timing ran begun watched

theorem timing_schedule (q : Qp) : Timing q.sq q.scheduleTimeout.sq :=
  SendQueue.timing_scheduleTimeout rfl rfl rfl

theorem execReq_timing {p : Nat} {stage : ReqStage}
    (executed : execReq q p choice stage = some (q', pushed)) : Timing q.sq q'.sq := by
  cases stage with
  | queue =>
      cases executed
      exact .refl q.sq
  | send =>
      simp only [execReq] at executed
      split at executed <;> cases executed
      exact .refl q.sq
  | sent =>
      cases executed
      unfold Qp.noteReadRespSent
      split
      · exact timing_schedule _
      · exact .refl q.sq
  | arm =>
      cases executed
      unfold Qp.armReadRespTimeout
      split
      · exact timing_schedule _
      · exact .refl q.sq
  | take =>
      cases executed
      unfold Qp.takeReadResp
      split <;> exact .refl q.sq

/-- What a frame does to the send queue that does not start a run of the timeout work. -/
theorem exec_timing (executed : exec q f choice = some (q', pushed))
    (begun : f ≠ .sq (.worker .start))
    (watched : ∀ psn, f = .sq (.ackHandle psn .rnr) → q.sq.stampsUnwatched psn = false) :
    Timing q.sq q'.sq := by
  cases f with
  | sq g =>
      simp only [exec] at executed
      split at executed
      · exact execSq_timing executed (fun same => begun (by rw [same]))
          fun psn same => watched psn (by rw [same])
      · cases executed
  | schedule idle =>
      cases executed
      exact timing_schedule q
  | readReq p stage => exact execReq_timing executed
  | retryReadResp psn =>
      cases executed
      unfold Qp.retryReadResp
      split
      · exact .refl q.sq
      · split
        · exact .refl q.sq
        · exact SendQueue.timing_scheduleTimeout rfl rfl rfl
  | takeReadResp psn =>
      cases executed
      unfold Qp.takeReadResp
      split <;> exact .refl q.sq
  | timedOut =>
      simp only [exec, markError] at executed
      split at executed <;> cases executed
      · exact SendQueue.timing_of_eq rfl rfl rfl rfl rfl rfl rfl
      · exact .refl q.sq
  | final needResched =>
      cases executed
      have stopped : Timing q.sq { q.sq with timeoutRunning := false } :=
        SendQueue.timing_of_eq rfl rfl rfl rfl rfl rfl rfl
      dsimp only
      split
      · exact stopped.trans (timing_schedule { q with sq := { q.sq with timeoutRunning := false } })
      · exact stopped
  | _ =>
      simp only [exec] at executed
      repeat' split at executed
      all_goals cases executed
      all_goals exact .refl q.sq

/-! ## What a frame does to READ responses and to the receive side -/

theorem kept_nil_of_reapReadResps {now : Nat} (done : (q.reapReadResps now).needResched = false) :
    (q.reapReadResps now).kept = [] := by
  have fold : ∀ (ps : List Nat) (r : RespReap), (r.needResched = false → r.kept = []) →
      (ps.foldl (reapResp q now) r).needResched = false →
      (ps.foldl (reapResp q now) r).kept = [] := by
    intro ps
    induction ps with
    | nil => exact fun r before => before
    | cons p rest ih =>
        intro r before
        refine ih _ ?_
        unfold reapResp
        dsimp only
        split
        · exact fun done => by cases done
        · split
          · exact before
          · exact fun done => by cases done
  exact fold _ _ (fun _ => rfl) done

/-- A response that is not stamped is none of the stamped ones. -/
theorem stamped_modResp {p : Nat} {x : RespCtx → RespCtx}
    (kept : (x (q.resp p)).queuedJiffies ≠ 0 → (q.resp p).queuedJiffies ≠ 0)
    (stamped : (q.modResp p x).Stamped .resps) : q.Stamped .resps := by
  obtain ⟨d, listed, runs⟩ := stamped
  refine ⟨d, listed, ?_⟩
  by_cases same : d = p
  · subst same
    simp only [Qp.modResp, Function.update_self] at runs
    exact kept runs
  · simpa [Qp.modResp, Function.update_of_ne same] using runs

theorem stamped_takeReadResp {psn : Nat} (stamped : (q.takeReadResp psn).Stamped .resps) :
    q.Stamped .resps := by
  unfold Qp.takeReadResp at stamped
  split at stamped
  · exact stamped
  · obtain ⟨d, listed, runs⟩ := stamped_modResp (fun runs => runs) stamped
    exact ⟨d, List.mem_of_mem_erase listed, runs⟩

theorem stamped_queueReadResp {p : Nat} (stamped : (q.queueReadResp p).Stamped .resps) :
    q.Stamped .resps := by
  obtain ⟨d, listed, runs⟩ := stamped
  by_cases same : d = p
  · simp [Qp.queueReadResp, Qp.modResp, same] at runs
  · simp only [Qp.queueReadResp, Qp.modResp, List.mem_append, List.mem_singleton] at listed
    exact ⟨d, listed.resolve_right same,
      by simpa [Qp.queueReadResp, Qp.modResp, Function.update_of_ne same] using runs⟩

theorem execSq_resps {g : SendQueue.Frame} {own : SendQueue.Choice}
    (executed : execSq q own g = some (q', pushed)) :
    q'.pendingReadResps = q.pendingReadResps ∧ q'.resp = q.resp := by
  unfold execSq markError at executed
  repeat' split at executed
  all_goals first
    | (cases executed; exact ⟨rfl, rfl⟩)
    | (obtain ⟨out, -, made⟩ := Option.map_eq_some_iff.mp executed
       cases made
       exact ⟨rfl, rfl⟩)
    | cases executed

theorem armed_schedule (q : Qp) : q.scheduleTimeout.sq.Armed := SendQueue.armed_scheduleTimeout q.sq

theorem exec_resps (executed : exec q f choice = some (q', pushed))
    (stamped : q'.Stamped .resps) :
    q.Stamped .resps ∨ q'.sq.Armed ∨ ∃ g ∈ pushed, g.minds .resps = true := by
  cases f with
  | sq g =>
      simp only [exec] at executed
      split at executed
      · obtain ⟨listed, same⟩ := execSq_resps executed
        simp only [Qp.Stamped, listed, same] at stamped
        exact .inl stamped
      · cases executed
  | readReq p stage =>
      cases stage with
      | queue =>
          cases executed
          exact .inl (stamped_queueReadResp stamped)
      | send =>
          simp only [exec, execReq] at executed
          split at executed <;> cases executed
          exact .inl stamped
      | sent =>
          cases executed
          unfold Qp.noteReadRespSent at stamped ⊢
          split at stamped
          · rename_i goes
            rw [if_pos goes]
            exact .inr (.inl (armed_schedule _))
          · exact .inl stamped
      | arm =>
          cases executed
          unfold Qp.armReadRespTimeout at stamped ⊢
          split at stamped
          · rename_i goes
            rw [if_pos goes]
            exact .inr (.inl (armed_schedule _))
          · exact .inl stamped
      | take =>
          cases executed
          exact .inl (stamped_takeReadResp stamped)
  | retryReadResp psn =>
      cases executed
      unfold Qp.retryReadResp at stamped ⊢
      split at stamped
      · exact .inl stamped
      · split at stamped
        · exact .inl stamped
        · rename_i open_
          rw [if_neg open_]
          exact .inr (.inl (SendQueue.armed_scheduleTimeout _))
  | takeReadResp psn =>
      cases executed
      exact .inl (stamped_takeReadResp stamped)
  | reapResps now w =>
      cases executed
      cases again : (q.reapReadResps now).needResched with
      | true => simp [Frame.minds]
      | false =>
          obtain ⟨p, listed, -⟩ := stamped
          dsimp only at listed
          rw [kept_nil_of_reapReadResps again] at listed
          cases listed
  | resent p wasSent ret needResched =>
      cases executed
      cases closing : (q.resp p).closing with
      | false => simp [Frame.minds]
      | true =>
          refine .inl (stamped_modResp (fun runs => ?_) stamped)
          simpa [RespCtx.resent, closing] using runs
  | cancelResps =>
      cases executed
      obtain ⟨p, listed, -⟩ := stamped
      cases listed
  | final needResched =>
      cases executed
      dsimp only at stamped
      split at stamped <;> exact .inl stamped
  | timedOut =>
      simp only [exec, markError] at executed
      split at executed <;> cases executed <;> exact .inl stamped
  | _ =>
      simp only [exec] at executed
      repeat' split at executed
      all_goals cases executed
      all_goals exact .inl stamped

theorem execSq_rx {g : SendQueue.Frame} {own : SendQueue.Choice}
    (executed : execSq q own g = some (q', pushed)) (idle : Idle q.rx) : Idle q'.rx := by
  unfold execSq markError at executed
  repeat' split at executed
  all_goals first
    | (cases executed; exact idle.of_eq rfl rfl rfl)
    | (obtain ⟨out, -, made⟩ := Option.map_eq_some_iff.mp executed
       cases made
       exact idle)
    | cases executed

theorem execReq_rx {p : Nat} {stage : ReqStage}
    (executed : execReq q p choice stage = some (q', pushed)) : q'.rx = q.rx := by
  cases stage with
  | queue =>
      cases executed
      rfl
  | send =>
      simp only [execReq] at executed
      split at executed <;> cases executed
      rfl
  | sent =>
      cases executed
      unfold Qp.noteReadRespSent
      split <;> rfl
  | arm =>
      cases executed
      unfold Qp.armReadRespTimeout
      split <;> rfl
  | take =>
      cases executed
      unfold Qp.takeReadResp
      split <;> rfl

theorem exec_rx (executed : exec q f choice = some (q', pushed)) (stamped : q'.Stamped .rx) :
    q.Stamped .rx ∨ .schedule true ∈ pushed ∨ ∃ g ∈ pushed, g.minds .rx = true := by
  by_cases idle : Idle q.rx
  · right
    have busyNow : ¬ Idle q'.rx := stamped
    cases f with
    | sq g =>
        simp only [exec] at executed
        split at executed
        · exact absurd (execSq_rx executed idle) busyNow
        · cases executed
    | rxHandle hdr payload =>
        simp only [exec] at executed
        repeat' split at executed
        all_goals cases executed
        · simp [idle_iff_busy.mp idle]
        · rename_i quiet
          exact absurd (idle.handle payload (by simpa using quiet)) busyNow
    | rxPost wqe =>
        cases executed
        exact absurd (idle.postOne wqe) busyNow
    | rxAdvertise =>
        simp only [exec] at executed
        split at executed <;> cases executed
        exact absurd idle.advertiseRecvCredits busyNow
    | rxDrain =>
        simp only [exec] at executed
        repeat' split at executed
        all_goals cases executed
        refine absurd ?_ busyNow
        simp only [Qp.setRx]
        rw [idle.drainReorder]
        exact idle
    | reapRx needResched =>
        simp only [exec] at executed
        split at executed
        · rename_i env overdue
          split at executed <;> cases executed
          have still : busy (reapRx q.rx env overdue).1 = true := by
            simpa [idle_iff_busy, Qp.setRx] using busyNow
          exact .inr ⟨_, List.mem_append_right _ (List.mem_singleton_self _),
            by simp [Frame.minds, still]⟩
        · cases executed
    | flushRx =>
        simp only [exec] at executed
        repeat' split at executed
        all_goals cases executed
        exact absurd idle.flushError busyNow
    | final needResched =>
        cases executed
        dsimp only at busyNow
        split at busyNow <;> exact absurd idle busyNow
    | timedOut =>
        simp only [exec, markError] at executed
        split at executed <;> cases executed
        · exact absurd (idle.of_eq rfl rfl rfl) busyNow
        · exact absurd idle busyNow
    | readReq p stage =>
        refine absurd ?_ busyNow
        rw [execReq_rx executed]
        exact idle
    | retryReadResp psn =>
        cases executed
        refine absurd ?_ busyNow
        simp only [Qp.retryReadResp]
        repeat' split
        all_goals exact idle
    | takeReadResp psn =>
        cases executed
        refine absurd ?_ busyNow
        simp only [Qp.takeReadResp]
        split <;> exact idle
    | _ =>
        simp only [exec] at executed
        repeat' split at executed
        all_goals cases executed
        all_goals exact absurd idle busyNow
  · exact .inl idle

/-! ## A run of the work goes on minding what it minds -/

theorem execPostFrames_minds {kind : Kind} {sq sq' : SendQueue.Qp} {own : SendQueue.Choice}
    {later : List SendQueue.Frame} {c : Nat} {reason : SendQueue.PostReason}
    {stage : SendQueue.FramesStage} {w : Worker}
    (minds : (kind == .rx || w.needResched || w.txTimedOut) = true)
    (executed : SendQueue.execPostFrames sq c reason (.worker w) own stage = some (sq', later)) :
    minding kind (later.map .sq) = true := by
  have resumed : ∀ ret,
      (Frame.sq ((SendQueue.Caller.worker w).resume c reason ret)).minds kind = true :=
    fun ret => minds
  have stays : ∀ stage,
      (Frame.sq (.postFrames c reason stage (.worker w))).minds kind = true :=
    fun stage => minds
  cases stage <;> simp only [SendQueue.execPostFrames] at executed
  all_goals repeat' split at executed
  all_goals cases executed
  all_goals first
    | exact minding_of_mem (List.mem_singleton_self _) (resumed _)
    | exact minding_of_mem (List.mem_singleton_self _) (stays _)
    | (rw [List.map_append]
       exact minding_append _ (minding_of_mem (List.mem_singleton_self _) (resumed _)))

/-- The reaper leaves nothing on the two lists, or it will look again. -/
theorem execSq_reap {kind : Kind} {own : SendQueue.Choice} {now : Nat}
    (executed : execSq q own (.worker (.reap now)) = some (q', pushed))
    (stamped : q'.Stamped kind) : q'.sq.Armed ∨ minding kind pushed = true := by
  simp only [execSq, SendQueue.exec, SendQueue.execWorker] at executed
  split at executed
  · rename_i sq w reaped
    cases executed
    split
    · rename_i timedOut
      exact .inr (minding_of_mem (List.mem_singleton_self _) (by simp [Frame.minds, timedOut]))
    · -- With nothing to look at again, the lists of requests are empty.
      obtain ⟨reap, -, made⟩ := Option.map_eq_some_iff.mp reaped
      simp only [Prod.mk.injEq, List.cons.injEq, SendQueue.Frame.worker.injEq,
        WorkerStage.retryNext.injEq, and_true] at made
      obtain ⟨rfl, rfl⟩ := made
      by_cases closing : (reap.qp.reapReads now).closing = true
      · exact .inl (.inr (.inr closing))
      right
      refine minding_of_mem (List.mem_singleton_self _) ?_
      cases kind with
      | sends =>
          obtain ⟨c, listed, -⟩ := stamped
          have some : (reap.qp.reapReads now).pendingSends ≠ [] := List.ne_nil_of_mem listed
          simp [Frame.minds, closing, some]
      | reads =>
          obtain ⟨r, listed, -⟩ := stamped
          have some : (reap.qp.reapReads now).pendingReads ≠ [] := List.ne_nil_of_mem listed
          simp [Frame.minds, closing, some]
      | resps => rfl
      | rx => rfl
  · cases executed

theorem execSq_minds {kind : Kind} {g : SendQueue.Frame} {own : SendQueue.Choice}
    (minds : (Frame.sq g).minds kind = true) (executed : execSq q own g = some (q', pushed))
    (stamped : q'.Stamped kind) : q'.sq.Armed ∨ minding kind pushed = true := by
  cases g with
  | postFrames c reason stage caller =>
      cases caller with
      | post credit => cases minds
      | worker w =>
          obtain ⟨out, ran, made⟩ := Option.map_eq_some_iff.mp executed
          cases made
          exact .inr (execPostFrames_minds minds ran)
  | worker stage =>
      cases stage with
      | start => cases minds
      | reap now => exact execSq_reap executed stamped
      | retryNext w =>
          obtain ⟨out, ran, made⟩ := Option.map_eq_some_iff.mp executed
          cases made
          simp only [SendQueue.exec, SendQueue.execWorker] at ran
          repeat' split at ran
          all_goals cases ran
          all_goals exact .inr (minding_of_mem (List.mem_singleton_self _) minds)
      | retryPending c reason w =>
          obtain ⟨out, ran, made⟩ := Option.map_eq_some_iff.mp executed
          cases made
          simp only [SendQueue.exec, SendQueue.execWorker] at ran
          split at ran <;> cases ran
          all_goals exact .inr (minding_of_mem (List.mem_singleton_self _) minds)
      | retried c reason ret w =>
          obtain ⟨out, ran, made⟩ := Option.map_eq_some_iff.mp executed
          cases made
          simp only [SendQueue.exec, SendQueue.execWorker] at ran
          repeat' split at ran
          all_goals cases ran
          all_goals refine .inr (minding_of_mem (List.mem_singleton_self _) ?_)
          all_goals first
            | exact minds
            | simp [Frame.minds]
      | afterRetry w =>
          cases executed
          right
          cases timedOut : w.txTimedOut with
          | true => cases kind <;> simp [minding, Frame.minds, Frame.flushes, Frame.working]
          | false =>
              have again : (kind == .rx || w.needResched) = true := by
                simpa [Frame.minds, timedOut] using minds
              refine minding_of_mem (List.mem_singleton_self _) ?_
              simpa [Frame.minds, timedOut] using again
      | finishSends w =>
          simp only [execSq, SendQueue.exec, SendQueue.execWorker, Option.map_some] at executed
          cases executed
          exact .inr (minding_of_mem (List.mem_cons_of_mem _ (List.mem_cons_of_mem _
            (List.mem_singleton_self _))) minds)
      | done needResched =>
          cases executed
          exact .inr (minding_of_mem (List.mem_singleton_self _) minds)
  | _ => cases minds

theorem exec_minds {kind : Kind} (minds : f.minds kind = true)
    (executed : exec q f choice = some (q', pushed)) (stamped : q'.Stamped kind) :
    q'.sq.Armed ∨ minding kind pushed = true := by
  cases f with
  | sq g =>
      simp only [exec] at executed
      split at executed
      · exact execSq_minds minds executed stamped
      · cases executed
  | reapResps now w =>
      cases executed
      cases kind with
      | resps =>
          obtain ⟨p, listed, -⟩ := stamped
          have again : (q.reapReadResps now).needResched = true := by
            by_contra done
            have none := kept_nil_of_reapReadResps (by simpa using done)
            dsimp only at listed
            rw [none] at listed
            cases listed
          exact .inr (minding_of_mem (List.mem_singleton_self _) (by simp [Frame.minds, again]))
      | sends =>
          have again : w.needResched = true := minds
          exact .inr (minding_of_mem (List.mem_singleton_self _) (by simp [Frame.minds, again]))
      | reads =>
          have again : w.needResched = true := minds
          exact .inr (minding_of_mem (List.mem_singleton_self _) (by simp [Frame.minds, again]))
      | rx => exact .inr (minding_of_mem (List.mem_singleton_self _) rfl)
  | retryResps needResched =>
      simp only [exec] at executed
      split at executed <;> cases executed
      · exact .inr (minding_of_mem (List.mem_singleton_self _) minds)
      · refine .inr (minding_of_mem (List.mem_singleton_self _) ?_)
        split <;> exact minds
  | resend p wasSent needResched =>
      simp only [exec] at executed
      split at executed <;> cases executed
      exact .inr (minding_of_mem (List.mem_singleton_self _) minds)
  | resent p wasSent ret needResched =>
      cases executed
      refine .inr (minding_of_mem (List.mem_singleton_self _) ?_)
      simp only [Frame.minds, Bool.or_eq_true] at minds ⊢
      exact minds.imp_right .inl
  | dropResps needResched =>
      cases executed
      exact .inr (minding_append _ (minding_of_mem (List.mem_singleton_self _) minds))
  | reapRx needResched =>
      simp only [exec] at executed
      split at executed
      · rename_i env overdue
        split at executed <;> cases executed
        refine .inr (minding_append _ (minding_of_mem (List.mem_singleton_self _) ?_))
        cases kind with
        | rx =>
            have still : busy (reapRx q.rx env overdue).1 = true := by
              simpa [Qp.Stamped, idle_iff_busy, Qp.setRx] using stamped
            simp [Frame.minds, still]
        | _ =>
            have again : needResched = true := minds
            simp [Frame.minds, again]
      · cases executed
  | final needResched =>
      have again : needResched = true := minds
      subst again
      cases executed
      exact .inl (armed_schedule _)
  | _ => cases minds

theorem exec_start {kind : Kind}
    (executed : exec q (.sq (.worker .start)) choice = some (q', pushed)) :
    q'.sq.Armed ∨ minding kind pushed = true := by
  simp only [exec] at executed
  split at executed
  · cases executed
    by_cases off : q.sq.cfg.timeout = 0
    · exact .inl (.inr (.inl off))
    · exact .inr (minding_of_mem (List.mem_singleton_self _) (by simp [Frame.minds, off]))
  · cases executed

/-- The flush takes the entries away; the worker's `tbv_qp_mark_error` leads to one. -/
theorem exec_flushes {kind : Kind} {rest : List Frame} (flushes : f.flushes kind = true)
    (works : rest.any Frame.working = true) (live : f = .timedOut → q.sq.live = true)
    (executed : exec q f choice = some (q', pushed)) (stamped : q'.Stamped kind) :
    minding kind (pushed ++ rest) = true := by
  cases f with
  | timedOut =>
      simp only [exec, markError, live rfl, if_true] at executed
      cases executed
      cases kind with
      | rx => cases flushes
      | _ => simp [minding, Frame.flushes, works]
  | sq g =>
      simp only [exec] at executed
      split at executed
      · cases g with
        | flushSends =>
            cases kind with
            | sends =>
                cases executed
                obtain ⟨c, listed, -⟩ := stamped
                cases listed
            | _ => cases flushes
        | flushReads =>
            cases kind with
            | reads =>
                cases executed
                obtain ⟨r, listed, -⟩ := stamped
                have none : q.sq.flushReads.pendingReads = [] :=
                  SendQueue.pendingReads_releaseReads _ _
                simp only [Qp.withSq] at listed
                rw [none] at listed
                cases listed
            | _ => cases flushes
        | _ => cases flushes
      · cases executed
  | cancelResps =>
      cases kind with
      | resps =>
          cases executed
          obtain ⟨p, listed, -⟩ := stamped
          cases listed
      | _ => cases flushes
  | _ => cases flushes

end Exec

end Tbv.Timer
