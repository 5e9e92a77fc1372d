import ThunderboltIbverbs.Send.SameBytes

/-! # Raw page streams and the timeout worker

A raw stream carries no header per frame, so it must not be sent twice.  Only requests
that are not retryable use one; but the reaper retransmits those too, for as long as
the peer has not acknowledged them. -/
set_option autoImplicit false
namespace Tbv.SendQueue

open Tbv.NativeData

/-- The timeout worker never posts the frames of a request again that once went out as
a raw stream. -/
def RawOnce (st : St) : Prop :=
  st.shared.log.Pairwise fun first later =>
    ∀ c reason, first = .rawStream c → later ≠ .transmit c reason true

/-- The reaper retransmits the request: it has no verdict, the wire is still open,
nothing of it is in flight, its retries are not used up and its timer has run out (or
the peer has told of a receive). -/
def RetryDue (q : Qp) (now : Nat) (x : SendCtx) : Prop :=
  x.ready = false ∧ x.wireOpen = true ∧ x.retrying = false ∧ x.txPending = 0 ∧ q.live = true ∧
    if x.rnrWaiting then
      x.rnrRetryAllowed = true ∧
        (x.wr.opcode.recvCreditRequired = true ∧ 0 < q.remoteRecvCredits ∨
          x.rnrWaitsForRecvCredit = false ∧
            entryExpired x.queuedJiffies now q.cfg.rnrTimeout = true)
    else entryExpired x.queuedJiffies now q.cfg.timeout = true ∧ x.retries < x.reapRetries

instance (q : Qp) (now : Nat) (x : SendCtx) : Decidable (RetryDue q now x) := by
  unfold RetryDue
  infer_instance

def Frame.retries : Frame → List Nat
  | .postFrames c _ .select (.worker w) => c :: w.retry
  | .postFrames _ _ _ (.worker w) => w.retry
  | .worker stage => stage.gathers
  | _ => []

def Frame.reapTime : Frame → Option Nat
  | .worker (.reap now) => some now
  | _ => none

def Frame.streams : Frame → Option Nat
  | .postFrames c _ .raw _ => some c
  | _ => none

/-- No raw stream is due for a retry when the reaper looks, and none is posted while
a retry of it is under way. -/
def StreamsNotDue (st : St) : Lbl → Prop
  | .event _ => True
  | .run thread _ => ∀ f ∈ st.top thread,
      (∀ now ∈ f.reapTime, ∀ c ∈ st.shared.pendingSends, .rawStream c ∈ st.shared.log →
        ¬ RetryDue st.shared now (st.shared.ctx c)) ∧
      (∀ c ∈ f.streams, ¬ ∃ g, st.Has g ∧ c ∈ g.retries)

instance (st : St) (label : Lbl) : Decidable (StreamsNotDue st label) :=
  match label with
  | .event _ => isTrue trivial
  | .run thread _ => inferInstanceAs (Decidable (∀ f ∈ st.top thread, _ ∧ _))

section
variable {q q' : Qp} {choice : Choice} {pushed : List Frame} {c : Nat}

/-! ## The reaper retries only what is due -/

/-- A context the loop has changed is not retried by it again. -/
def Settled (q q' : Qp) (c : Nat) : Prop :=
  q'.ctx c = q.ctx c ∨ (q'.ctx c).retrying = true ∨ (q'.ctx c).ready = true

/-- What the loop of the reaper has done so far, as far as its verdicts depend on it. -/
structure Reaping (q q' : Qp) : Prop where
  cfg : q'.cfg = q.cfg
  live : q'.live = q.live
  credits : q'.remoteRecvCredits ≤ q.remoteRecvCredits
  settled : ∀ c, Settled q q' c

theorem retryDue_of_reapVerdict {now : Nat} {x : SendCtx} {reason : PostReason} {takes : Bool}
    (judged : reapVerdict q now x = .retry reason takes) : RetryDue q now x := by
  unfold reapVerdict at judged
  dsimp only at judged
  split at judged
  · cases judged
  rename_i unready
  split at judged
  · rename_i waiting
    -- The RNR half: a credit, or the timer where credits are not waited for.
    split at judged
    · cases judged
    rename_i creditOk
    split at judged
    · cases judged
    rename_i timerOk
    split at judged
    · rename_i open_
      simp only [Bool.and_eq_true, Bool.not_eq_true', beq_iff_eq] at open_
      refine ⟨by simpa using unready, open_.1.1.1.1, open_.1.1.1.2, open_.1.1.2, open_.2, ?_⟩
      rw [if_pos waiting]
      refine ⟨open_.1.2, ?_⟩
      cases required : x.wr.opcode.recvCreditRequired with
      | false => simp_all
      | true =>
          by_cases credit : q.remoteRecvCredits = 0
          · simp_all
          · exact .inl ⟨rfl, Nat.pos_of_ne_zero credit⟩
    · cases judged
  · rename_i waiting
    split at judged
    · cases judged
    rename_i expired
    split at judged
    · cases judged
    split at judged
    · rename_i open_
      simp only [Bool.and_eq_true, Bool.not_eq_true', beq_iff_eq, decide_eq_true_eq] at open_
      refine ⟨by simpa using unready, open_.1.1.1.1, open_.1.1.1.2, open_.1.1.2, open_.2, ?_⟩
      rw [if_neg waiting]
      exact ⟨by simpa using expired, open_.1.2⟩
    · cases judged

theorem Reaping.retryDue {now : Nat} (reaping : Reaping q q')
    (due : RetryDue q' now (q'.ctx c)) : RetryDue q now (q.ctx c) := by
  have same : q'.ctx c = q.ctx c := by
    rcases reaping.settled c with same | retrying | ready
    · exact same
    · rw [due.2.2.1] at retrying
      cases retrying
    · rw [due.1] at ready
      cases ready
  rw [same] at due
  obtain ⟨unready, wireOpen, idle, drained, live, rest⟩ := due
  refine ⟨unready, wireOpen, idle, drained, reaping.live ▸ live, ?_⟩
  rw [reaping.cfg] at rest
  split
  · rename_i waiting
    rw [if_pos waiting] at rest
    refine ⟨rest.1, ?_⟩
    rcases rest.2 with ⟨required, credit⟩ | timer
    · exact .inl ⟨required, Nat.lt_of_lt_of_le credit reaping.credits⟩
    · exact .inr timer
  · rename_i waiting
    rwa [if_neg waiting] at rest

theorem Reaping.refl (q : Qp) : Reaping q q := ⟨rfl, rfl, Nat.le_refl _, fun _ => .inl rfl⟩

theorem Settled.step {q'' : Qp} (settled : Settled q q' c)
    (next : q''.ctx c = q'.ctx c ∨ (q''.ctx c).retrying = true ∨ (q''.ctx c).ready = true) :
    Settled q q'' c := by
  rcases next with same | retrying | ready
  · unfold Settled
    rw [same]
    exact settled
  · exact .inr (.inl retrying)
  · exact .inr (.inr ready)

theorem Reaping.startRetry {d : Nat} {reason : PostReason} {takes : Bool}
    (reaping : Reaping q q') : Reaping q ((q'.spendRecvCredit takes).startRetry d reason) := by
  refine ⟨?_, ?_, ?_, fun c => (reaping.settled c).step ?_⟩
  · cases takes <;> exact reaping.cfg
  · cases takes <;> exact reaping.live
  · cases takes
    · exact reaping.credits
    · have := reaping.credits
      change q'.remoteRecvCredits - 1 ≤ _
      omega
  · by_cases same : c = d
    · refine .inr (.inl ?_)
      simp [Qp.startRetry, modCtx_ctx, same]
    · refine .inl ?_
      cases takes <;> simp [Qp.startRetry, modCtx_ctx, same, Qp.spendRecvCredit]

theorem Reaping.drain {d : Nat} {status : Int} (reaping : Reaping q q') :
    Reaping q (q'.markReady d status).drainReadySends := by
  have marked : Reaping q (q'.markReady d status) := by
    unfold Qp.markReady
    split
    · exact reaping
    · refine ⟨reaping.cfg, reaping.live, reaping.credits, fun c => (reaping.settled c).step ?_⟩
      by_cases same : c = d
      · refine .inr (.inr ?_)
        simp [modCtx_ctx, same]
      · refine .inl ?_
        simp [modCtx_ctx, same]
  refine ⟨marked.cfg, marked.live, marked.credits, fun c => (marked.settled c).step ?_⟩
  by_cases gone : c ∈ (q'.markReady d status).readyPrefix
  · have ready := ready_of_mem_readyPrefix gone
    refine .inr (.inr ?_)
    have same : ((q'.markReady d status).drainReadySends.ctx c).ready =
        ((q'.markReady d status).ctx c).ready :=
      congrArg Core.ready ((quiet_drain (q'.markReady d status)).core c)
    rw [same]
    exact ready
  · exact .inl (by simp [Qp.drainReadySends, Qp.detach, gone])

theorem reapSends_due {now : Nat} {cs : List Nat} {r r' : Reap} (reaping : Reaping q r.qp)
    (reaped : reapSends now cs r = some r') (among : c ∈ r'.retry) :
    c ∈ r.retry ∨ RetryDue q now (q.ctx c) := by
  induction cs generalizing r with
  | nil =>
      cases Option.some.inj reaped
      exact .inl among
  | cons d rest ih =>
      obtain ⟨middle, first, later⟩ := Option.bind_eq_some_iff.mp reaped
      unfold reapSend at first
      split at first
      · cases Option.some.inj first
        have found := ih (by exact reaping) later
        exact found
      · rename_i judged
        cases Option.some.inj first
        rcases ih reaping.startRetry later with old | due
        · rcases List.mem_append.mp old with before | new
          · exact .inl before
          · cases List.mem_singleton.mp new
            exact .inr (reaping.retryDue (retryDue_of_reapVerdict judged))
        · exact .inr due
      · dsimp only at first
        split at first
        · cases first
        · cases Option.some.inj first
          have found := ih (by exact reaping.drain) later
          exact found

/-! ## Retries come from the reaper -/

theorem Caller.retries_resume {caller : Caller} {reason : PostReason} {stage : FramesStage}
    {ret : Int} {d : Nat} (retries : c ∈ (caller.resume d reason ret).retries) :
    c ∈ (Frame.postFrames d reason stage caller).retries := by
  cases caller with
  | post credit => cases retries
  | worker w =>
      have among : c ∈ w.retry := retries
      cases stage <;> first | exact among | exact List.mem_cons_of_mem _ among

theorem Follows.retries {f : Frame} (follows : Follows q f pushed)
    (retries : c ∈ pushed.flatMap Frame.retries) :
    c ∈ f.retries ∨ ∃ now, f = .worker (.reap now) ∧ c ∈ q.pendingSends ∧
      RetryDue q now (q.ctx c) := by
  cases follows with
  | resume ret =>
      simp only [List.flatMap_cons, List.flatMap_nil, List.append_nil] at retries
      exact .inl (Caller.retries_resume retries)
  | streamRefused pages ret =>
      simp only [List.flatMap_append, List.mem_append, List.flatMap_cons, List.flatMap_nil,
        List.append_nil] at retries
      rcases retries with callback | last
      · obtain ⟨g, among, refers⟩ := List.mem_flatMap.mp callback
        cases (List.mem_replicate.mp among).2
        cases refers
      · exact .inl (Caller.retries_resume last)
  | @frames d reason stage stage' caller entered =>
      simp only [List.flatMap_cons, List.flatMap_nil, List.append_nil] at retries
      cases caller with
      | post credit => cases stage' <;> cases retries
      | worker w =>
          have among : c ∈ w.retry := by
            cases stage' <;> first | exact absurd rfl entered | exact retries
          refine .inl ?_
          cases stage <;> first | exact among | exact List.mem_cons_of_mem _ among
  | cancelled packets =>
      obtain ⟨g, among, refers⟩ := List.mem_flatMap.mp retries
      cases (List.mem_replicate.mp among).2
      cases refers
  | claim fresh one =>
      rcases one with rfl | rfl <;> cases retries
  | @finish who d rest err err' =>
      rw [List.flatMap_append] at retries
      cases who <;> cases retries
  | workerStart idle =>
      rename_i stage
      cases stage <;> simp_all [Frame.retries, WorkerStage.gathers, WorkerStage.lists,
        WorkerStage.picked]
  | @reap now w r reaped retry completed =>
      have among : c ∈ r.retry := by
        rw [← retry]
        simpa [Frame.retries, WorkerStage.gathers, WorkerStage.lists, WorkerStage.picked]
          using retries
      rcases reapSends_due (.refl q) reaped among with none | due
      · cases none
      · rcases reapSends_retry reaped among with none | listed
        · cases none
        · exact .inr ⟨now, rfl, listed, due⟩
  | pick head reason =>
      refine .inl ?_
      simp_all [Frame.retries, WorkerStage.gathers, WorkerStage.lists, WorkerStage.picked]
  | worker has has' idle noRef retry completed =>
      refine .inl ?_
      simp only [List.flatMap_cons, List.flatMap_nil, List.append_nil, Frame.retries,
        WorkerStage.gathers, idle, has', Option.toList_none, Option.elim_some,
        List.nil_append] at retries
      simp only [Frame.retries, WorkerStage.gathers, has, Option.elim_some, List.mem_append]
      exact .inr (retry c retries)
  | _ =>
      simp_all [Frame.retries, WorkerStage.gathers, WorkerStage.lists, WorkerStage.picked]

/-! ## The invariant -/

/-- No retry of a raw stream has ever been made or is under way. -/
structure Streamed (st : St) : Prop where
  once : RawOnce st
  idle : ∀ c, .rawStream c ∈ st.shared.log → ∀ f, st.Has f → c ∉ f.retries

theorem Frame.retries_of_isEntry {f : Frame} (entry : f.isEntry = true) : f.retries = [] := by
  cases f with
  | worker stage => cases stage <;> first | rfl | cases entry
  | _ => first | rfl | cases entry

theorem RawOnce.note {st : St} {entry : Entry} (once : RawOnce st)
    (fresh : ∀ c reason, entry = .transmit c reason true → .rawStream c ∉ st.shared.log) :
    (st.shared.log ++ [entry]).Pairwise fun first later =>
      ∀ c reason, first = .rawStream c → later ≠ .transmit c reason true := by
  refine List.pairwise_append.mpr ⟨once, List.pairwise_singleton _ _, ?_⟩
  rintro first among later new c reason rfl rfl
  exact fresh c reason (List.mem_singleton.mp new).symm among

theorem Streamed.event {st : St} {event : Event} {code : List Frame} (streamed : Streamed st)
    (reacts : Reacts st.shared event q' code) : Streamed ⟨q', st.threads ++ [code]⟩ := by
  have noRetry : ∀ g ∈ code, g.retries = [] := by
    intro g among
    cases reacts with
    | quiet only entry => exact Frame.retries_of_isEntry (entry g among)
    | dma => cases among
    | memWrite => cases among
    | _ =>
        cases List.mem_singleton.mp among
        rfl
  have log : q'.log = st.shared.log ∨ ∃ c offset payload,
      q'.log = st.shared.log ++ [.fragment c offset payload] := by
    cases reacts with
    | quiet only entry => exact .inl only.log
    | dma => exact .inr ⟨_, _, _, rfl⟩
    | _ => exact .inl rfl
  have raw : ∀ c, .rawStream c ∈ q'.log → .rawStream c ∈ st.shared.log := by
    intro c among
    rcases log with same | ⟨d, offset, payload, grown⟩
    · rwa [same] at among
    · rw [grown] at among
      simpa using among
  refine ⟨?_, ?_⟩
  · change q'.log.Pairwise _
    rcases log with same | ⟨d, offset, payload, grown⟩
    · rw [same]
      exact streamed.once
    · rw [grown]
      exact streamed.once.note fun _ _ is => by cases is
  · intro c among g has
    rcases Threads.State.has_of_event has with new | old
    · simp [noRetry g new]
    · exact streamed.idle c (raw c among) g old

theorem Emits.transmit_worker {f : Frame} {reason : PostReason}
    (emits : Emits q f (.transmit c reason true)) :
    ∃ w, f = .postFrames c reason .select (.worker w) := by
  generalize made : Entry.transmit c reason true = entry at emits
  cases emits with
  | transmit d reason' caller =>
      cases caller with
      | post credit => simp [Caller.isWorker] at made
      | worker w =>
          injection made with sameC sameReason
          subst sameC sameReason
          exact ⟨w, rfl⟩
  | _ => cases made

theorem Streamed.run {st : St} {thread : Nat} {f : Frame} {rest : List Frame}
    (streamed : Streamed st) (wf : f.WellFormed)
    (notDue : StreamsNotDue st (.run thread choice))
    (found : st.threads[thread]? = some (f :: rest))
    (executed : exec st.shared f choice = some (q', pushed)) :
    Streamed ⟨q', st.threads.set thread (pushed ++ rest)⟩ := by
  have top := Threads.State.has_of_top found
  have condition := notDue f (Threads.State.top_of_getElem? found)
  have log := (exec_effect wf executed).log
  -- A stream in the log is not on any retry list, be it old or new.
  have idle : ∀ c, .rawStream c ∈ q'.log → ∀ g, st.Has g → c ∉ g.retries := by
    intro c among g has
    rcases log with same | ⟨entry, grown, emits⟩
    · rw [same] at among
      exact streamed.idle c among g has
    · rw [grown] at among
      rcases List.mem_append.mp among with old | new
      · exact streamed.idle c old g has
      · cases List.mem_singleton.mp new
        cases emits
        exact fun retries => condition.2 c rfl ⟨g, has, retries⟩
  refine ⟨?_, fun c among g has => ?_⟩
  · change q'.log.Pairwise _
    rcases log with same | ⟨entry, grown, emits⟩
    · rw [same]
      exact streamed.once
    · rw [grown]
      refine streamed.once.note ?_
      rintro c reason rfl among
      obtain ⟨w, rfl⟩ := emits.transmit_worker
      exact streamed.idle c among _ top (List.mem_cons_self ..)
  · rcases Threads.State.has_of_run found has with new | old
    · intro retries
      rcases (exec_follows executed).retries (List.mem_flatMap.mpr ⟨g, new, retries⟩) with
        before | ⟨now, rfl, listed, due⟩
      · exact idle c among f top before
      · have known : .rawStream c ∈ st.shared.log := by
          rcases log with same | ⟨entry, grown, emits⟩
          · rwa [same] at among
          · cases emits
        exact condition.1 now rfl c listed known due
    · exact idle c among g old

/-- In every run in which no raw stream is due for a retry when the reaper looks, a
request that went out as a raw stream is never transmitted again. -/
theorem raw_stream_never_retransmitted (cfg : QpConfig) (memory : Nat → UInt8) (st : St)
    (reached : Trans.Reaches step StreamsNotDue (start cfg memory) st) : RawOnce st := by
  have streamed : Streamed st := by
    refine reaches_invariant ⟨List.Pairwise.nil, ?_⟩ ?_ ?_ reached
    · intro c among
      cases among
    · intro st event q' code streamed _ reacts
      exact streamed.event reacts
    · intro st thread choice f rest q' pushed streamed wf meets found executed
      exact streamed.run wf meets found executed
  exact streamed.once

/-! ## A raw stream on a UC queue pair -/

def zcopyConfig : QpConfig := { ucConfig with zcopyMinBytes := 1 }

def oneByteWrite : SendWr where
  opcode := .rdmaWrite
  segs := [⟨0, 1, Nat.zero_lt_one⟩]

/-- A post that goes out as a header and one page, and the callbacks of both. -/
def postStreamAndDrain : List Lbl :=
  [(.event (.postSend oneByteWrite) : Lbl)] ++
    runs 0 [.ok, .ok, .ok, .ok, .ok, .ok, .ok, .pages 1 0, .ok] ++
  [(.event (.txRetired 0 true 0) : Lbl)] ++ runs 1 [.ok] ++
  [(.event (.txRetired 0 true 0) : Lbl)] ++ runs 2 [.ok, .ok, .cancelled 0 0, .ok, .ok]

/-- The acknowledgement comes before the timer runs out: the reaper finds nothing. -/
def ackAndReap : List Lbl :=
  [(.event (.ack 0 .ok) : Lbl)] ++ runs 3 [.ok, .ok, .ok, .ok, .ok, .ok, .ok] ++
  [(.event .tick : Lbl), .event .timeoutWork] ++ runs 5 [.ok, .ok, .ok]

theorem raw_stream_never_retransmitted_acked :
    ∃ st, Trans.Reaches step StreamsNotDue (start zcopyConfig fun _ => 7) st ∧
      .rawStream 0 ∈ st.shared.log ∧ .completion 0 .success ∈ st.shared.log ∧
      st.shared.pendingSends = [] ∧ RawOnce st := by
  have ran : (Trans.guarded step StreamsNotDue (postStreamAndDrain ++ ackAndReap)
      (start zcopyConfig fun _ => 7)).any (fun st =>
        decide (.rawStream 0 ∈ st.shared.log) &&
        decide (.completion 0 .success ∈ st.shared.log) &&
        decide (st.shared.pendingSends = [])) = true := by
    decide +kernel
  obtain ⟨st, reached, found⟩ := Trans.exists_reaches_of_guarded ran
  simp only [Bool.and_eq_true, decide_eq_true_eq] at found
  exact ⟨st, reached, found.1.1, found.1.2, found.2,
    raw_stream_never_retransmitted _ _ st reached⟩

/-- The acknowledgement does not come: the reaper finds the stream drained and its
timer run out, and the worker posts its frames again. -/
def reapStream : List Lbl :=
  [.event .tick, .event .timeoutWork] ++ runs 4 [.fail 0, .ok, .ok, .ok, .ok]

theorem raw_stream_retransmitted :
    ¬ ∀ (cfg : QpConfig) (memory : Nat → UInt8) (st : St),
      Trans.Reaches step (fun _ _ => True) (start cfg memory) st → RawOnce st := by
  intro always
  have ran : (Trans.guarded step (fun _ _ => True) (postStreamAndDrain ++ reapStream)
      (start zcopyConfig fun _ => 7)).any (fun st => decide (st.shared.log =
        [.transmit 0 .initial false, .rawStream 0, .returned 0 0 0, .txDone 0 0, .txDone 0 0,
          .completion 0 .success, .transmit 0 .retryTimeout true])) = true := by
    decide +kernel
  obtain ⟨st, reached, found⟩ := Trans.exists_reaches_of_guarded ran
  have once := always zcopyConfig (fun _ => 7) st reached
  rw [RawOnce, decide_eq_true_eq.mp found] at once
  simp only [List.pairwise_cons] at once
  exact once.2.1 (.transmit 0 .retryTimeout true) (by simp) 0 .retryTimeout rfl rfl

end

end Tbv.SendQueue
