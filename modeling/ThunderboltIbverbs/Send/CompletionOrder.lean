import ThunderboltIbverbs.Send.Turns

/-! # The order of send completions

A section that completes requests takes the ready prefix off the pending list under the
lock and pushes it to the CQ after the lock is dropped.  The completions stay in order
as long as nobody takes the next prefix while another one is on its way. -/
set_option autoImplicit false
namespace Tbv.SendQueue

open Tbv.NativeData

/-- The completions come in the order in which the requests took their PSNs. -/
def CompletionsInOrder (st : St) : Prop :=
  (completions st.shared.log).Pairwise st.shared.Earlier

/-- The requests a frame has taken off the pending list and not yet pushed, in order. -/
def Frame.held : Frame → List Nat
  | .sendComplete c _ | .cqPush c _ => [c]
  | .finish _ sends _ => sends
  | .worker stage => stage.lists.elim [] Worker.completed
  | .postFrames _ _ _ (.worker w) => w.completed
  | _ => []

def heldBy (st : St) (thread : Nat) : List Nat :=
  ((st.threads[thread]?).getD []).flatMap Frame.held

/-- The frame gives the pending request a verdict. -/
def Frame.judges (q : Qp) (d : Nat) : Frame → Bool
  | .txFailed c _ => q.matchPsn (q.ctx c).psn == some d
  | .ackHandle psn .rnr =>
      q.matchPsn psn == some d && ((q.ctx d).rnrRetryExhausted || !q.live)
  | .ackHandle psn _ => q.matchPsn psn == some d
  | .worker (.reap now) =>
      match reapVerdict q now (q.ctx d) with
      | .fail _ => true
      | _ => false
  | .worker (.retried c _ ret _) =>
      c == d && q.retryOpen c && ret != 0 && ret != enomem && ret != enotconn
  | .flushSends => true
  | _ => false

/-- The frame takes the head off the pending list: it judges it, or finds it judged. -/
def Frame.drains (q : Qp) (f : Frame) : Bool :=
  match q.pendingSends with
  | [] => false
  | head :: _ => f.judges q head || f.mayDrain && (q.ctx head).ready

/-- Posts queue their requests in the order of their PSNs, and the head is taken off
the pending list only when no other thread, and no caller of the section, still has to
push requests taken off before. -/
def DrainsInTurn (st : St) : Lbl → Prop
  | .event _ => True
  | .run thread _ => ∀ f ∈ st.top thread,
      (∀ c ∈ f.queues, ¬ ∃ g, st.Has g ∧ ∃ d ∈ g.queues, st.shared.Earlier d c) ∧
      (f.drains st.shared = true →
        (∀ other < st.threads.length, other ≠ thread → heldBy st other = []) ∧
        (((st.threads[thread]?).getD []).tail).flatMap Frame.held = [])

instance (st : St) (label : Lbl) : Decidable (DrainsInTurn st label) :=
  match label with
  | .event _ => isTrue trivial
  | .run thread _ => inferInstanceAs (Decidable (∀ f ∈ st.top thread, _ ∧ (_ → _ ∧ _)))

section
variable {q q' : Qp} {choice : Choice} {pushed : List Frame} {f : Frame} {c : Nat}

/-! ## What is drained -/

theorem markReady_ready {d : Nat} {status : Int} (ready : ((q.markReady c status).ctx d).ready = true) :
    d = c ∨ (q.ctx d).ready = true := by
  unfold Qp.markReady at ready
  split at ready
  · exact .inr ready
  · by_cases same : d = c
    · exact .inl same
    · rw [modCtx_ctx, if_neg same] at ready
      exact .inr ready

/-- Nothing is drained unless the head has or gets its verdict. -/
theorem readyPrefix_markReady {status : Int} (some_ : (q.markReady c status).readyPrefix ≠ []) :
    ∃ head rest, q.pendingSends = head :: rest ∧ (head = c ∨ (q.ctx head).ready = true) := by
  unfold Qp.readyPrefix at some_
  rw [markReady_pendingSends] at some_
  cases listed : q.pendingSends with
  | nil => simp [listed] at some_
  | cons head rest =>
      refine ⟨head, rest, rfl, ?_⟩
      rw [listed, List.takeWhile_cons] at some_
      split at some_
      · rename_i ready
        exact markReady_ready ready
      · exact absurd rfl some_

theorem drains_of_head {head : Nat} {rest : List Nat} (listed : q.pendingSends = head :: rest)
    (drains : f.judges q head = true ∨ f.mayDrain = true ∧ (q.ctx head).ready = true) :
    f.drains q = true := by
  unfold Frame.drains
  rw [listed]
  simpa using drains

theorem completeSendOrdered_drains {psn : Nat} {status : Int} (may : f.mayDrain = true)
    (judges : ∀ d, q.matchPsn psn = some d → f.judges q d = true)
    (gone : (q.completeSendOrdered psn status).2 ≠ []) : f.drains q = true := by
  unfold Qp.completeSendOrdered at gone
  split at gone
  · exact absurd rfl gone
  · rename_i d found
    obtain ⟨head, rest, listed, same | ready⟩ := readyPrefix_markReady gone
    · exact drains_of_head listed (.inl (same ▸ judges d found))
    · exact drains_of_head listed (.inr ⟨may, ready⟩)

theorem noteRnrAck_drains {psn : Nat} (gone : (q.noteRnrAck psn).2 ≠ []) :
    (Frame.ackHandle psn .rnr).drains q = true := by
  unfold Qp.noteRnrAck at gone
  repeat' split at gone
  · exact absurd rfl gone
  · rename_i d found exhausted
    obtain ⟨head, rest, listed, same | ready⟩ := readyPrefix_markReady gone
    · refine drains_of_head listed (.inl ?_)
      subst same
      simpa [Frame.judges, found] using exhausted
    · exact drains_of_head listed (.inr ⟨rfl, ready⟩)
  · exact absurd rfl gone
  · exact absurd rfl gone

theorem handleAck_drains {psn : Nat} {status : SendAckStatus}
    (gone : (q.handleAck psn status).2 ≠ []) : (Frame.ackHandle psn status).drains q = true := by
  cases status with
  | ok => exact completeSendOrdered_drains rfl (by simp [Frame.judges]) gone
  | rnr => exact noteRnrAck_drains gone
  | error => exact completeSendOrdered_drains rfl (by simp [Frame.judges]) gone

/-! ### The reaper -/

/-- While the head has no verdict the loop drains nothing. -/
theorem reapSends_head {now head : Nat} {rest cs : List Nat} {r r' : Reap}
    (listed : r.qp.pendingSends = head :: rest) (unready : (r.qp.ctx head).ready = false)
    (others : head ∉ cs) (empty : r.completed = [])
    (reaped : reapSends now cs r = some r') : r'.completed = [] := by
  induction cs generalizing r with
  | nil =>
      cases Option.some.inj reaped
      exact empty
  | cons d later ih =>
      obtain ⟨middle, first, reapedLater⟩ := Option.bind_eq_some_iff.mp reaped
      have distinct : head ≠ d := fun same => others (same ▸ List.mem_cons_self ..)
      have laterOthers : head ∉ later := fun among => others (List.mem_cons_of_mem _ among)
      unfold reapSend at first
      split at first
      · cases Option.some.inj first
        exact ih (by exact listed) (by exact unready) laterOthers (by exact empty) reapedLater
      · rename_i reason takes _
        cases Option.some.inj first
        refine ih ?_ ?_ laterOthers (by exact empty) reapedLater
        · cases takes <;> exact listed
        · cases takes <;> simpa [Qp.startRetry, modCtx_ctx, distinct, Qp.spendRecvCredit] using unready
      · rename_i status _
        dsimp only at first
        split at first
        · cases first
        · cases Option.some.inj first
          have none : (r.qp.markReady d status).readyPrefix = [] := by
            by_contra some_
            obtain ⟨head', rest', listed', same | ready⟩ := readyPrefix_markReady some_
            · rw [listed] at listed'
              cases listed'
              exact distinct same
            · rw [listed] at listed'
              cases listed'
              rw [unready] at ready
              cases ready
          have split := drain_split (r.qp.markReady d status)
          rw [none, List.nil_append, markReady_pendingSends] at split
          refine ih ?_ ?_ laterOthers ?_ reapedLater
          · exact split.symm.trans listed
          · have kept : ((r.qp.markReady d status).drainReadySends.ctx head).ready =
                ((r.qp.markReady d status).ctx head).ready :=
              congrArg Core.ready ((quiet_drain (r.qp.markReady d status)).core head)
            dsimp only
            rw [kept]
            by_contra ready
            rcases markReady_ready (by simpa using ready) with same | before
            · exact distinct same
            · rw [unready] at before
              cases before
          · dsimp only
            rw [none, empty]
            rfl

theorem reap_drains {now : Nat} {r : Reap} (nodup : q.pendingSends.Nodup)
    (reaped : reapSends now q.pendingSends { qp := q } = some r) (gone : r.completed ≠ []) :
    (Frame.worker (.reap now)).drains q = true := by
  cases listed : q.pendingSends with
  | nil =>
      rw [listed] at reaped
      cases Option.some.inj reaped
      exact absurd rfl gone
  | cons head rest =>
      refine drains_of_head listed ?_
      by_contra neither
      rw [not_or] at neither
      have unready : (q.ctx head).ready = false := by
        cases ready : (q.ctx head).ready with
        | false => rfl
        | true => exact absurd ⟨rfl, ready⟩ neither.2
      rw [listed] at reaped nodup
      obtain ⟨middle, first, later⟩ := Option.bind_eq_some_iff.mp reaped
      have others : head ∉ rest := (List.nodup_cons.mp nodup).1
      unfold reapSend at first
      split at first
      · cases Option.some.inj first
        exact gone (reapSends_head listed unready others rfl later)
      · rename_i reason takes _
        cases Option.some.inj first
        refine gone (@reapSends_head now head rest _ _ _ ?_ ?_ others rfl later)
        · cases takes <;> exact listed
        · cases takes <;> simpa [Qp.startRetry, modCtx_ctx, Qp.spendRecvCredit] using unready
      · rename_i status judged
        refine neither.1 ?_
        simp only at judged
        simp [Frame.judges, judged]

/-! ## Requests on their way to the CQ -/

/-- How a frame moves requests along: from the head of the pending list to the frames
that hold them, and from these to the CQ. -/
inductive Flow (q : Qp) (f : Frame) (q' : Qp) (pushed : List Frame) : Prop
  | keep (log : completions q'.log = completions q.log)
      (held : (pushed.flatMap Frame.held).Sublist f.held)
      (pending : q'.pendingSends.Sublist (q.pendingSends ++ f.queues.toList))
  | push {c : Nat} (log : completions q'.log = completions q.log ++ [c]) (mine : f.held = [c])
      (held : pushed.flatMap Frame.held = []) (pending : q'.pendingSends = q.pendingSends)
  | drain {gone : List Nat} (log : completions q'.log = completions q.log)
      (drains : f.drains q = true) (held : pushed.flatMap Frame.held = f.held ++ gone)
      (pending : q.pendingSends = gone ++ q'.pendingSends)

theorem flatMap_held_replicate (count : Nat) (status : Int) :
    (List.replicate count (Frame.txDone c status)).flatMap Frame.held = [] :=
  List.flatMap_eq_nil_iff.mpr fun g among => by
    cases (List.mem_replicate.mp among).2
    rfl

theorem finishOne_held {who : Finisher} : (finishOne q c who).flatMap Frame.held = [c] := by
  cases who <;> rfl

theorem execPost_held {stage : PostStage}
    (executed : execPost q c choice stage = some (q', pushed)) :
    pushed.flatMap Frame.held = [] := by
  cases stage <;> simp only [execPost, Qp.refusePost, Qp.returnPost] at executed <;>
    repeat' split at executed
  all_goals cases executed
  all_goals rfl

theorem execPostRead_held {r : Nat} {stage : ReadStage}
    (executed : execPostRead q r choice stage = some (q', pushed)) :
    pushed.flatMap Frame.held = [] := by
  cases stage <;> simp only [execPostRead, Qp.returnRead] at executed <;>
    repeat' split at executed
  all_goals cases executed
  all_goals rfl

theorem execPostFrames_held {reason : PostReason} {caller : Caller} {stage : FramesStage}
    (executed : execPostFrames q c reason caller choice stage = some (q', pushed)) :
    pushed.flatMap Frame.held = (Frame.postFrames c reason stage caller).held := by
  cases stage <;> simp only [execPostFrames] at executed <;> repeat' split at executed
  all_goals cases executed
  all_goals
    simp only [List.flatMap_append, flatMap_held_replicate, List.flatMap_cons, List.flatMap_nil,
      List.nil_append, List.append_nil]
    cases caller <;> rfl

theorem flow_keep (effect : Effect q f q') (silent : ∀ c status, f ≠ .cqPush c status)
    (held : (pushed.flatMap Frame.held).Sublist f.held) : Flow q f q' pushed := by
  refine .keep ?_ held ?_
  · rcases effect.log with same | ⟨entry, grown, emits⟩
    · rw [same]
    · rw [grown, completions_append]
      cases emits with
      | completion d status => exact absurd rfl (silent d status)
      | _ => exact List.append_nil _
  · rcases effect.pending with shrinks | ⟨d, credit, rfl, grown⟩
    · exact shrinks.trans (List.sublist_append_left _ _)
    · rw [grown]
      exact .refl _

/-- A frame that takes a part of the front of the list, possibly nothing. -/
theorem flow_drain {verdict : Nat → Int → Prop} {gone : List Nat} (effect : Effect q f q')
    (silent : ∀ c status, f ≠ .cqPush c status)
    (decided : Decides verdict q q' gone) (drains : gone ≠ [] → f.drains q = true)
    (held : pushed.flatMap Frame.held = f.held ++ gone) : Flow q f q' pushed := by
  cases gone with
  | nil =>
      rw [List.append_nil] at held
      exact flow_keep effect silent (by rw [held])
  | cons d rest =>
      refine .drain ?_ (drains (by simp)) held decided.pendingSends
      rw [decided.base.log]

theorem execWorker_flow {stage : WorkerStage} (nodup : q.pendingSends.Nodup)
    (executed : execWorker q choice stage = some (q', pushed)) :
    Flow q (.worker stage) q' pushed := by
  have effect := execWorker_effect executed
  have keep : pushed.flatMap Frame.held = (Frame.worker stage).held →
      Flow q (.worker stage) q' pushed := fun held => flow_keep effect (by simp) (by rw [held])
  cases stage with
  | start =>
      refine keep ?_
      cases executed
      split <;> rfl
  | reap now =>
      simp only [execWorker, Option.map_eq_some_iff] at executed
      obtain ⟨reap, reaped, made⟩ := executed
      cases made
      have decided : Decides (fun _ _ => True) q reap.qp reap.completed :=
        reapSends_decides (fun _ _ _ => trivial) (.refl _ q) reaped
      exact flow_drain effect (by simp) (decided.quiet (quiet_reapReads reap.qp now))
        (reap_drains nodup reaped) (List.append_nil _)
  | retryNext w =>
      refine keep ?_
      simp only [execWorker] at executed
      repeat' split at executed
      all_goals cases executed
      all_goals exact List.append_nil _
  | retryPending c reason w =>
      refine keep ?_
      simp only [execWorker] at executed
      split at executed <;> cases executed
      all_goals exact List.append_nil _
  | retried c reason ret w =>
      simp only [execWorker] at executed
      repeat' split at executed
      case isTrue.isFalse.isFalse.isFalse open_ nonzero noMem noConn =>
        cases executed
        have decided : Decides (fun _ _ => True) q (q.markReady c etimedout).drainReadySends
            ([] ++ (q.markReady c etimedout).readyPrefix) :=
          ((Decides.refl _ q).markReady trivial).drain
        refine flow_drain effect (by simp) decided (fun gone => ?_) (List.append_nil _)
        obtain ⟨head, rest, listed, same | ready⟩ := readyPrefix_markReady gone
        · refine drains_of_head listed (.inl ?_)
          simp [Frame.judges, same, open_, nonzero, noMem, noConn]
        · exact drains_of_head listed (.inr ⟨rfl, ready⟩)
      all_goals
        cases executed
        exact keep (List.append_nil _)
  | afterRetry w =>
      refine keep ?_
      cases executed
      cases w.txTimedOut <;> exact List.append_nil _
  | finishSends w =>
      refine keep ?_
      cases executed
      exact List.append_nil _
  | done needResched =>
      refine keep ?_
      simp only [execWorker] at executed
      split at executed <;> cases executed
      all_goals rfl

theorem exec_flow (wf : f.WellFormed) (retryable : ∀ c, (q.ctx c).retryable = true)
    (nodup : q.pendingSends.Nodup) (executed : exec q f choice = some (q', pushed)) :
    Flow q f q' pushed := by
  have effect := exec_effect wf executed
  cases f with
  | post c stage => exact flow_keep effect (by simp) (by rw [execPost_held executed]; exact .refl _)
  | postFrames c reason stage caller =>
      exact flow_keep effect (by simp) (by rw [execPostFrames_held executed])
  | postRead r stage =>
      exact flow_keep effect (by simp) (by rw [execPostRead_held executed]; exact .refl _)
  | worker stage => exact execWorker_flow nodup executed
  | txDone c status =>
      refine flow_keep effect (by simp) ?_
      simp only [exec, execTxDone] at executed
      repeat' split at executed
      all_goals cases executed
      · exact .refl _
      · rename_i drained
        rw [retryable c] at drained
        cases drained.2
      · exact .refl _
  | txFailed c status =>
      cases executed
      have decided : Decides (fun _ _ => True) q _ _ :=
        decides_completeSendOrdered q (q.ctx c).psn status fun _ _ => trivial
      refine flow_drain effect (by simp) decided (fun gone => ?_) (List.append_nil _)
      exact completeSendOrdered_drains rfl (by simp [Frame.judges]) gone
  | ackHandle psn status =>
      cases executed
      exact flow_drain effect (by simp) (handleAck_decides q psn status) handleAck_drains
        (List.append_nil _)
  | flushSends =>
      cases executed
      have decided : Decides (fun _ _ => True) q _ _ := Decides.flush q fun _ _ => trivial
      refine flow_drain effect (by simp) decided (fun gone => ?_) (List.append_nil _)
      obtain ⟨head, rest, listed⟩ := List.exists_cons_of_ne_nil gone
      exact drains_of_head listed (.inl rfl)
  | sendComplete c status =>
      refine flow_keep effect (by simp) ?_
      simp only [exec] at executed
      split at executed <;> cases executed
      · exact List.nil_sublist _
      · split
        · exact .refl _
        · exact List.nil_sublist _
  | cqPush c status =>
      simp only [exec] at executed
      repeat' split at executed
      all_goals cases executed
      · exact .push (completions_append _ _) rfl rfl rfl
      · exact .keep rfl (List.nil_sublist _) (List.sublist_append_left _ _)
  | finish who sends err =>
      refine flow_keep effect (by simp) ?_
      cases sends with
      | nil =>
          cases executed
          split <;> exact .refl _
      | cons c rest =>
          cases executed
          rw [List.flatMap_append, finishOne_held]
          simp [Frame.held]
  | cancelPackets c =>
      refine flow_keep effect (by simp) ?_
      simp only [exec] at executed
      repeat' split at executed
      all_goals cases executed
      rw [flatMap_held_replicate]
      exact .refl _
  | ack psn status =>
      refine flow_keep effect (by simp) ?_
      cases executed
      split <;> exact .refl _
  | finishReads reads status =>
      refine flow_keep effect (by simp) ?_
      simp only [exec] at executed
      split at executed <;> cases executed
      all_goals exact .refl _
  | readComplete r status =>
      refine flow_keep effect (by simp) ?_
      simp only [exec] at executed
      split at executed <;> cases executed
      · exact .refl _
      · split <;> exact .refl _
  | _ =>
      refine flow_keep effect (by simp) ?_
      simp only [exec] at executed
      repeat' split at executed
      all_goals cases executed
      all_goals exact .refl _

/-! ## Threads that hold requests -/

theorem flatten_eq_of_alone {lists : List (List Nat)} {thread : Nat}
    (alone : ∀ other, other ≠ thread → (lists[other]?).getD [] = []) :
    lists.flatten = (lists[thread]?).getD [] := by
  induction lists generalizing thread with
  | nil => rfl
  | cons head rest ih =>
      cases thread with
      | zero =>
          have empty : ∀ list ∈ rest, list = [] := by
            intro list among
            obtain ⟨other, found⟩ := List.mem_iff_getElem?.mp among
            have := alone (other + 1) (by omega)
            simpa [found] using this
          simp [List.flatten_eq_nil_iff.mpr empty]
      | succ thread =>
          have first : head = [] := by simpa using alone 0 (by omega)
          have later : rest.flatten = (rest[thread]?).getD [] := ih fun other distinct => by
            simpa using alone (other + 1) (by omega)
          simpa [first] using later

theorem flatten_set_sublist {lists : List (List Nat)} {thread : Nat} {old new : List Nat}
    (found : lists[thread]? = some old) (fewer : new.Sublist old) :
    (lists.set thread new).flatten.Sublist lists.flatten := by
  induction lists generalizing thread with
  | nil => simp at found
  | cons head rest ih =>
      cases thread with
      | zero =>
          cases Option.some.inj found
          exact fewer.append (.refl _)
      | succ thread => exact List.Sublist.append (.refl _) (ih (by simpa using found))

end

def heldLists (st : St) : List (List Nat) := st.threads.map fun code => code.flatMap Frame.held

/-- The completed, the held and the pending requests, in this order. -/
def chain (st : St) : List Nat :=
  completions st.shared.log ++ (heldLists st).flatten ++ st.shared.pendingSends

/-- One thread at most holds requests, and all requests stand in the order of their
PSNs from the CQ to the end of the pending list. -/
structure Draining (st : St) : Prop where
  posting : Posting st
  retryable : ∀ c, (st.shared.ctx c).retryable = true
  turn : InTurn st (chain st)
  alone : ∀ one two, one ≠ two → heldBy st one = [] ∨ heldBy st two = []

section
variable {st : St} {q q' : Qp} {choice : Choice} {pushed : List Frame} {f : Frame} {c : Nat}

theorem heldLists_getElem? (st : St) (thread : Nat) :
    ((heldLists st)[thread]?).getD [] = heldBy st thread := by
  unfold heldLists heldBy
  rw [List.getElem?_map]
  cases st.threads[thread]? <;> rfl

theorem heldBy_set {thread other : Nat} {code : List Frame} {shared : Qp}
    (inside : thread < st.threads.length) :
    heldBy ⟨shared, st.threads.set thread code⟩ other =
      if other = thread then code.flatMap Frame.held else heldBy st other := by
  unfold heldBy
  by_cases same : other = thread
  · subst same
    simp [inside]
  · simp [same, List.getElem?_set_ne (Ne.symm same)]

theorem heldLists_set {thread : Nat} {code : List Frame} {shared : Qp} :
    heldLists ⟨shared, st.threads.set thread code⟩ =
      (heldLists st).set thread (code.flatMap Frame.held) := by
  simp [heldLists, List.map_set]

theorem heldLists_of_alone {thread : Nat} (alone : ∀ other, other ≠ thread → heldBy st other = []) :
    (heldLists st).flatten = heldBy st thread := by
  rw [← heldLists_getElem?]
  refine flatten_eq_of_alone fun other distinct => ?_
  rw [heldLists_getElem?]
  exact alone other distinct

/-- The requests of the running thread come first among all that are held, if it holds
any. -/
theorem Draining.others (draining : Draining st) {thread : Nat} (holds : heldBy st thread ≠ []) :
    ∀ other, other ≠ thread → heldBy st other = [] := by
  intro other distinct
  rcases draining.alone other thread distinct with none | none
  · exact none
  · exact absurd none holds

theorem Draining.alone_set (draining : Draining st) {thread : Nat} {code : List Frame} {shared : Qp}
    (inside : thread < st.threads.length)
    (either : (code.flatMap Frame.held).Sublist (heldBy st thread) ∨
      ∀ other, other ≠ thread → heldBy st other = []) (one two : Nat) (distinct : one ≠ two) :
    heldBy ⟨shared, st.threads.set thread code⟩ one = [] ∨
      heldBy ⟨shared, st.threads.set thread code⟩ two = [] := by
  have shrunk : heldBy st thread = [] ∨ (∀ other, other ≠ thread → heldBy st other = []) := by
    by_cases holds : heldBy st thread = []
    · exact .inl holds
    · exact .inr (draining.others holds)
  rw [heldBy_set inside, heldBy_set inside]
  by_cases first : one = thread <;> by_cases second : two = thread
  · exact absurd (first.trans second.symm) distinct
  · rw [if_pos first, if_neg second]
    rcases either with fewer | others
    · rcases shrunk with none | others
      · rw [none] at fewer
        exact .inl (List.sublist_nil.mp fewer)
      · exact .inr (others two second)
    · exact .inr (others two second)
  · rw [if_neg first, if_pos second]
    rcases either with fewer | others
    · rcases shrunk with none | others
      · rw [none] at fewer
        exact .inr (List.sublist_nil.mp fewer)
      · exact .inl (others one first)
    · exact .inl (others one first)
  · rw [if_neg first, if_neg second]
    exact draining.alone one two distinct

/-- When no other thread holds any, all requests held are those of the thread. -/
theorem heldLists_set_of_alone {thread : Nat} {code : List Frame} {shared : Qp}
    (inside : thread < st.threads.length)
    (others : ∀ other, other ≠ thread → heldBy st other = []) :
    (heldLists ⟨shared, st.threads.set thread code⟩).flatten = code.flatMap Frame.held := by
  have alone := @heldLists_of_alone ⟨shared, st.threads.set thread code⟩ thread
    fun other distinct => by
      rw [heldBy_set inside, if_neg distinct]
      exact others other distinct
  rw [alone, heldBy_set inside, if_pos rfl]

/-- The chain loses members at most, and one thread at most holds any afterwards. -/
theorem Draining.moved (draining : Draining st) {thread : Nat} {rest : List Frame}
    (found : st.threads[thread]? = some (f :: rest)) (flow : Flow st.shared f q' pushed)
    (drainAlone : f.drains st.shared = true →
      (∀ other < st.threads.length, other ≠ thread → heldBy st other = []) ∧
      (((st.threads[thread]?).getD []).tail).flatMap Frame.held = []) :
    (chain ⟨q', st.threads.set thread (pushed ++ rest)⟩).Sublist (chain st ++ f.queues.toList) ∧
    ∀ one two, one ≠ two →
      heldBy ⟨q', st.threads.set thread (pushed ++ rest)⟩ one = [] ∨
      heldBy ⟨q', st.threads.set thread (pushed ++ rest)⟩ two = [] := by
  have inside : thread < st.threads.length := (List.getElem?_eq_some_iff.mp found).1
  have mine : heldBy st thread = f.held ++ rest.flatMap Frame.held := by
    simp [heldBy, found]
  cases flow with
  | keep log held pending =>
      have fewer : ((pushed ++ rest).flatMap Frame.held).Sublist (heldBy st thread) := by
        rw [mine, List.flatMap_append]
        exact held.append (.refl _)
      refine ⟨?_, draining.alone_set inside (.inl fewer)⟩
      have listed : (heldLists st)[thread]? = some (heldBy st thread) := by
        simp [heldLists, heldBy, found]
      have heldFewer := flatten_set_sublist listed fewer
      simp only [chain, log, heldLists_set, List.append_assoc]
      exact List.Sublist.append (.refl _) (heldFewer.append pending)
  | @push c log isC held pending =>
      have others := draining.others (by rw [mine, isC]; simp)
      have after : (pushed ++ rest).flatMap Frame.held = rest.flatMap Frame.held := by
        rw [List.flatMap_append, held, List.nil_append]
      refine ⟨?_, draining.alone_set inside (.inl ?_)⟩
      · have same : chain ⟨q', st.threads.set thread (pushed ++ rest)⟩ = chain st := by
          simp only [chain, log, pending, heldLists_set_of_alone inside others, after,
            heldLists_of_alone others, mine, isC, List.append_assoc]
        rw [same]
        exact List.sublist_append_left _ _
      · rw [after, mine]
        exact List.sublist_append_right _ _
  | @drain gone log drains held pending =>
      obtain ⟨othersBelow, below⟩ := drainAlone drains
      have others : ∀ other, other ≠ thread → heldBy st other = [] := by
        intro other distinct
        by_cases bound : other < st.threads.length
        · exact othersBelow other bound distinct
        · simp [heldBy, List.getElem?_eq_none (Nat.le_of_not_lt bound)]
      have alone : rest.flatMap Frame.held = [] := by simpa [found] using below
      have after : (pushed ++ rest).flatMap Frame.held = f.held ++ gone := by
        rw [List.flatMap_append, held, alone, List.append_nil]
      refine ⟨?_, draining.alone_set inside (.inr others)⟩
      have same : chain ⟨q', st.threads.set thread (pushed ++ rest)⟩ = chain st := by
        simp only [chain, log, pending, heldLists_set_of_alone inside others, after,
          heldLists_of_alone others, mine, alone, List.append_nil, List.append_assoc]
      rw [same]
      exact List.sublist_append_left _ _

theorem Draining.run (draining : Draining st) {thread : Nat} {rest : List Frame}
    (wf : f.WellFormed) (meets : DrainsInTurn st (.run thread choice))
    (found : st.threads[thread]? = some (f :: rest))
    (executed : exec st.shared f choice = some (q', pushed)) :
    Draining ⟨q', st.threads.set thread (pushed ++ rest)⟩ := by
  obtain ⟨queueFirst, drainAlone⟩ := meets f (Threads.State.top_of_getElem? found)
  have static := (exec_effect wf executed).static
  have nodup : st.shared.pendingSends.Nodup :=
    nodup_of_earlier (List.pairwise_append.mp draining.turn.sorted).2.1
  have moved := draining.moved found (exec_flow wf draining.retryable nodup executed) drainAlone
  refine ⟨draining.posting.run wf found executed, fun c => ?_,
    draining.turn.run draining.posting wf found executed queueFirst moved.1, moved.2⟩
  dsimp only
  rw [static.retryable c]
  exact draining.retryable c

theorem Frame.held_of_isEntry {g : Frame} (entry : g.isEntry = true) : g.held = [] := by
  cases g with
  | worker stage => cases stage <;> first | rfl | cases entry
  | _ => first | rfl | cases entry

theorem Reacts.held {event : Event} {code : List Frame} (reacts : Reacts q event q' code) :
    code.flatMap Frame.held = [] := by
  refine List.flatMap_eq_nil_iff.mpr fun g among => ?_
  cases reacts with
  | quiet only entry => exact Frame.held_of_isEntry (entry g among)
  | dma => cases among
  | memWrite => cases among
  | _ =>
      cases List.mem_singleton.mp among
      rfl

theorem Reacts.completions {event : Event} {code : List Frame}
    (reacts : Reacts q event q' code) : completions q'.log = completions q.log := by
  cases reacts with
  | quiet only entry => rw [only.log]
  | dma flying => simp [Qp.note, SendQueue.completions, Entry.completes]
  | _ => rfl

theorem Reacts.retryable {event : Event} {code : List Frame} (reacts : Reacts q event q' code)
    (rc : q.cfg.type = .rc) (before : ∀ c, (q.ctx c).retryable = true) (c : Nat) :
    (q'.ctx c).retryable = true := by
  cases reacts with
  | quiet only entry =>
      have same : (q'.ctx c).retryable = (q.ctx c).retryable := congrArg Core.retryable (only.core c)
      rw [same]
      exact before c
  | postSend wr =>
      simp only [Function.update_apply]
      split
      · simp [newCtx, rc]
      · exact before c
  | _ => exact before c

theorem Draining.event (draining : Draining st) {event : Event} {code : List Frame}
    (rc : st.shared.cfg.type = .rc) (reacts : Reacts st.shared event q' code) :
    Draining ⟨q', st.threads ++ [code]⟩ := by
  have same : chain ⟨q', st.threads ++ [code]⟩ = chain st := by
    simp [chain, heldLists, reacts.held, reacts.completions, reacts.pendingSends]
  refine ⟨draining.posting.event reacts, reacts.retryable rc draining.retryable, ?_, ?_⟩
  · rw [same]
    exact draining.turn.event reacts
  · have kept : ∀ thread, heldBy ⟨q', st.threads ++ [code]⟩ thread = heldBy st thread ∨
        heldBy ⟨q', st.threads ++ [code]⟩ thread = [] := by
      intro thread
      by_cases old : thread < st.threads.length
      · exact .inl (by simp [heldBy, List.getElem?_append_left old])
      · by_cases new : thread = st.threads.length
        · subst new
          exact .inr (by simp [heldBy, reacts.held])
        · refine .inr ?_
          have out : (st.threads ++ [code])[thread]? = none := by
            rw [List.getElem?_eq_none]
            simp
            omega
          simp [heldBy, out]
    intro one two distinct
    rcases kept one with first | none
    · rcases kept two with second | none
      · rw [first, second]
        exact draining.alone one two distinct
      · exact .inr none
    · exact .inl none

theorem draining_start (cfg : QpConfig) (rc : cfg.type = .rc) (memory : Nat → UInt8) :
    Draining (start cfg memory) where
  posting := posting_start cfg memory
  retryable := fun c => by simp [start, Qp.fresh, newCtx, rc]
  turn := inTurn_start cfg memory
  alone := fun one two _ => .inl (by simp [heldBy, start])

/-- On an RC queue pair, in every run in which the head of the pending list is taken off
only while nobody still has requests to push, the completions come in the order of the
PSNs. -/
theorem completions_in_posting_order (cfg : QpConfig) (rc : cfg.type = .rc)
    (memory : Nat → UInt8) (st : St)
    (reached : Trans.Reaches step DrainsInTurn (start cfg memory) st) : CompletionsInOrder st := by
  have draining : st.shared.cfg = cfg ∧ Draining st := by
    refine @reaches_invariant DrainsInTurn cfg memory st
      (fun st => st.shared.cfg = cfg ∧ Draining st) ⟨rfl, draining_start cfg rc memory⟩ ?_ ?_ reached
    · rintro st event q' code ⟨same, draining⟩ _ reacts
      refine ⟨reacts.samePsns.cfg.trans same, draining.event (by rw [same]; exact rc) reacts⟩
    · rintro st thread choice f rest q' pushed ⟨same, draining⟩ wf meets found executed
      exact ⟨(exec_effect wf executed).static.cfg.trans same,
        draining.run wf meets found executed⟩
  refine draining.2.turn.sorted.sublist ?_
  rw [chain, List.append_assoc]
  exact List.sublist_append_left _ _

/-! ## Two sends of an RC queue pair -/

def postTwo : List Lbl :=
  [(.event (.postSend oneByteSend) : Lbl)] ++ runs 0 postTaken ++
  [(.event (.postSend oneByteSend) : Lbl)] ++ runs 1 postTaken

/-- The acknowledgement of one send, from its arrival to the push of the completion. -/
def ackChoices : List Choice := [.ok, .ok, .ok, .ok, .ok, .ok, .cancelled 0 0, .ok, .ok]

def ackTwo : List Lbl :=
  [(.event (.ack (2 ^ 24 - 1) .ok) : Lbl)] ++ runs 2 ackChoices ++
  [(.event (.ack 0 .ok) : Lbl)] ++ runs 3 ackChoices

theorem completions_in_posting_order_acked :
    rcConfig.type = .rc ∧
    ∃ st, Trans.Reaches step DrainsInTurn (start rcConfig fun _ => 7) st ∧
      completions st.shared.log = [0, 1] ∧ CompletionsInOrder st := by
  have ran : (Trans.guarded step DrainsInTurn (postTwo ++ ackTwo)
      (start rcConfig fun _ => 7)).any (fun st =>
        decide (completions st.shared.log = [0, 1])) = true := by
    decide +kernel
  obtain ⟨st, reached, found⟩ := Trans.exists_reaches_of_guarded ran
  exact ⟨rfl, st, reached, decide_eq_true_eq.mp found,
    completions_in_posting_order _ rfl _ st reached⟩

/-- The frame of the first send comes back one tick before that of the second. -/
def drainTwo : List Lbl :=
  [.event (.txRetired 0 false 0), .run 2 .ok, .event .tick,
    .event (.txRetired 1 false 0), .run 4 .ok]

/-- The first send has timed out: the worker takes it off the list, flushes the second
one and only then completes the first. -/
def timeoutOne : List Lbl :=
  [.event .timeoutWork] ++ runs 5 [.ok, .ok, .ok, .ok, .ok, .ok, .ok, .cancelled 0 0, .ok,
    .cancelled 0 0, .ok, .ok, .ok, .ok, .ok, .ok, .cancelled 0 0, .ok, .cancelled 0 0, .ok]

theorem completion_overtakes :
    ¬ ∀ (cfg : QpConfig), cfg.type = .rc → ∀ (memory : Nat → UInt8) (st : St),
      Trans.Reaches step (fun _ _ => True) (start cfg memory) st → CompletionsInOrder st := by
  intro always
  have ran : (Trans.guarded step (fun _ _ => True) (postTwo ++ drainTwo ++ timeoutOne)
      (start { rcConfig with retryCnt := 0 } fun _ => 7)).any (fun st =>
        decide (completions st.shared.log = [1, 0]) &&
        decide (¬ st.shared.Earlier 1 0)) = true := by
    decide +kernel
  obtain ⟨st, reached, found⟩ := Trans.exists_reaches_of_guarded ran
  simp only [Bool.and_eq_true, decide_eq_true_eq] at found
  have order := always { rcConfig with retryCnt := 0 } rfl (fun _ => 7) st reached
  rw [CompletionsInOrder, found.1, List.pairwise_pair] at order
  exact found.2 order

end

end Tbv.SendQueue
