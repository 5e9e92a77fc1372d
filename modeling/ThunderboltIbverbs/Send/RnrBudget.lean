import ThunderboltIbverbs.Send.ReapWalk

/-! # The budget for a receiver that is not ready

`tbv_qp_note_rnr_ack` and `tbv_qp_timeout_reap_tx` both end a send with `-EAGAIN`.  The first
asks `tbv_send_rnr_retry_exhausted`; the second fails every waiting send whose turn has come
and whose next attempt cannot start at that moment. -/
set_option autoImplicit false
namespace Tbv.SendQueue

open Tbv.NativeData

/-! ## A request is queued once -/

/-- No request is on the list twice, and none that a post still has to queue is on it. -/
structure QueuedOnce (st : St) : Prop where
  posting : Posting st
  nodup : st.shared.pendingSends.Nodup
  waiting : ∀ {g c}, st.Has g → g.queues = some c → c ∉ st.shared.pendingSends

section
variable {st : St} {q q' : Qp} {choice : Choice} {pushed : List Frame} {f : Frame} {c : Nat}

theorem QueuedOnce.run (once : QueuedOnce st) {thread : Nat} {rest : List Frame}
    (wf : f.WellFormed) (found : st.threads[thread]? = some (f :: rest))
    (executed : exec st.shared f choice = some (q', pushed)) :
    QueuedOnce ⟨q', st.threads.set thread (pushed ++ rest)⟩ := by
  have top := Threads.State.has_of_top found
  have effect := exec_effect wf executed
  -- what still has to be queued now was not on the list before
  have outside {g : Frame} {d : Nat}
      (has : Threads.State.Has ⟨q', st.threads.set thread (pushed ++ rest)⟩ g)
      (queues : g.queues = some d) : d ∉ st.shared.pendingSends := by
    rcases Threads.State.has_of_run found has with new | old
    · intro listed
      obtain ⟨n, ticket, _⟩ := once.posting.pending d listed
      have takes := (exec_follows executed).queues new queues
      have posts := exec_posts_of_mem wf executed new (Frame.posts_of_queues queues)
      rw [once.posting.early top posts (Frame.beforePsn_of_takesPsn takes)] at ticket
      cases ticket
    · exact once.waiting old queues
  refine ⟨once.posting.run wf found executed, ?_, fun {g d} has queues listed => ?_⟩
  · rcases effect.pending with fewer | ⟨c, credit, rfl, grown⟩
    · exact once.nodup.sublist fewer
    · dsimp only
      rw [grown]
      refine List.nodup_append.mpr ⟨once.nodup, List.pairwise_singleton _ c, fun d old e new is => ?_⟩
      rw [List.mem_singleton.mp new] at is
      exact once.waiting top rfl (is ▸ old)
  · rcases effect.pending with fewer | ⟨c, credit, rfl, grown⟩
    · exact outside has queues (fewer.subset listed)
    · dsimp only at listed
      rw [grown] at listed
      rcases List.mem_append.mp listed with old | new
      · exact outside has queues old
      · exact once.posting.queued_once wf found executed has queues rfl (List.mem_singleton.mp new)

theorem QueuedOnce.event (once : QueuedOnce st) {event : Event} {code : List Frame}
    (reacts : Reacts st.shared event q' code) : QueuedOnce ⟨q', st.threads ++ [code]⟩ := by
  have same := reacts.pendingSends
  refine ⟨once.posting.event reacts, same ▸ once.nodup, fun has queues => ?_⟩
  dsimp only
  rw [same]
  rcases Threads.State.has_of_event has with new | old
  · rw [reacts.queues new] at queues
    cases queues
  · exact once.waiting old queues

theorem queuedOnce_of_reaches {ok : St → Lbl → Prop} {cfg : QpConfig} {memory : Nat → UInt8}
    (reached : Trans.Reaches step ok (start cfg memory) st) : QueuedOnce st :=
  reaches_invariant ⟨posting_start cfg memory, List.nodup_nil, fun ⟨_, among, _⟩ => nomatch among⟩
    (fun once _ reacts => once.event reacts)
    (fun once wf _ found executed => once.run wf found executed) reached

end

/-! ## The walk, also where it leaves the list -/

/-- The walk has not left the list among the sends `before`. -/
def Qp.StraightUntil (q : Qp) (now : Nat) (before rest : List Nat) : Prop :=
  ∀ earlier c later, before = earlier ++ c :: later → ¬ q.StraysAt now earlier c (later ++ rest)

def Node.drained (completed : List Nat) : Node → Prop
  | .pendingSends => False
  | .completedSends => True
  | .entry c => c ∈ completed

/-- The walk behind the round in which it has left the list: all it meets is decided. -/
structure Strayed (r : Reap) (w : Walk) : Prop where
  qp : w.reap.qp = r.qp
  completed : w.reap.completed = r.completed
  pos : w.pos.drained r.completed
  saved : w.saved.drained r.completed

section
variable {q : Qp} {now : Nat} {before rest kept : List Nat} {w : Walk} {c : Nat}

theorem mem_of_successor {d : Nat} {list : List Nat} (next : successor c list = some d) :
    d ∈ list := by
  induction list with
  | nil => cases next
  | cons e list ih =>
      rw [successor] at next
      split at next
      · exact List.mem_cons_of_mem e (List.mem_of_mem_head? next)
      · exact List.mem_cons_of_mem e (ih next)

/-- From the list of the drained sends the links lead back into it. -/
theorem Reap.next_drained {r : Reap} (apart : ∀ d ∈ r.completed, d ∉ r.qp.pendingSends)
    {node : Node} (inside : node.drained r.completed) : (r.next node).drained r.completed := by
  cases node with
  | pendingSends => exact inside.elim
  | completedSends =>
      show (r.completed.head?.elim Node.completedSends Node.entry).drained r.completed
      cases head : r.completed.head? with
      | none => trivial
      | some d => exact List.mem_of_mem_head? head
  | entry d =>
      rw [Reap.next, if_neg (apart d inside)]
      cases next : successor d r.completed with
      | none => trivial
      | some e => exact mem_of_successor next

theorem Strayed.step {r : Reap} {w' : Walk} (strayed : Strayed r w)
    (apart : ∀ d ∈ r.completed, d ∉ r.qp.pendingSends)
    (ready : ∀ d ∈ r.completed, (r.qp.ctx d).ready = true) (stepped : w.step now = some w') :
    Strayed r w' := by
  unfold Walk.step at stepped
  cases pos : w.pos with
  | pendingSends =>
      rw [pos] at stepped
      cases stepped
  | completedSends =>
      rw [pos] at stepped
      cases stepped
  | entry d =>
      rw [pos] at stepped
      cases stepped
      have inside : d ∈ r.completed := by
        have := strayed.pos
        rwa [pos] at this
      have judged : reapVerdict w.reap.qp now (w.reap.qp.ctx d) = .skip true :=
        reapVerdict_ready (by rw [strayed.qp, ready d inside])
      refine ⟨?_, ?_, strayed.saved, ?_⟩
      · dsimp only
        rw [reapBody_skip judged]
        exact strayed.qp
      · dsimp only
        rw [reapBody_skip judged]
        exact strayed.completed
      · dsimp only
        rw [reapBody_skip judged]
        have next := @Reap.next_drained
          { w.reap with needResched := w.reap.needResched || true } (by
            rw [strayed.qp, strayed.completed]
            exact apart) w.saved (by
            rw [strayed.completed]
            exact strayed.saved)
        rwa [strayed.completed] at next

theorem Qp.StraightUntil.front {earlier more : List Nat}
    (straight : q.StraightUntil now (earlier ++ more) rest) :
    q.StraightUntil now earlier (more ++ rest) := by
  intro first c later is
  have inner := straight first c (later ++ more) (by rw [is]; simp)
  rwa [List.append_assoc] at inner

/-- Where the walk stands: at the head of `rest`, or behind the send, the last of `before`, at
which it has left the list. -/
structure WalkAt (q : Qp) (now : Nat) (before rest : List Nat) (w : Walk) : Prop where
  split : q.pendingSends = before ++ rest
  straight : ∀ earlier c later, before = earlier ++ c :: later →
    q.StraightUntil now earlier (c :: later ++ rest)
  given : ∀ d status, Given q w.reap.qp d status ↔ ∃ earlier later,
    before = earlier ++ d :: later ∧ q.verdictAfter now earlier d = .fail status
  stands : (q.StraightUntil now before rest ∧ ∃ kept, AtRound q now before rest kept w) ∨
    ∃ r, Strayed r w ∧ (∀ d ∈ r.completed, d ∉ r.qp.pendingSends) ∧
      ∀ d ∈ r.completed, (r.qp.ctx d).ready = true

/-- Among the sends up to `c`, which the walk has examined, it has left the list at `c` at the
earliest. -/
theorem straight_snoc (straight : q.StraightUntil now before (c :: rest)) :
    ∀ earlier d later, before ++ [c] = earlier ++ d :: later →
      q.StraightUntil now earlier (d :: later ++ rest) := by
  intro earlier d later is
  rcases List.eq_nil_or_concat later with rfl | ⟨later, last, rfl⟩
  · obtain ⟨rfl, same⟩ := List.append_inj' is rfl
    rw [← (List.cons.inj same).1]
    exact straight
  · have parts : before ++ [c] = (earlier ++ d :: later) ++ [last] := by
      rw [is]
      simp
    obtain ⟨rfl, same⟩ := List.append_inj' parts rfl
    have front := straight.front
    rw [(List.cons.inj same).1] at front
    simpa using front

theorem Qp.StraightUntil.snoc (straight : q.StraightUntil now before (c :: rest))
    (onList : ¬ q.StraysAt now before c rest) : q.StraightUntil now (before ++ [c]) rest := by
  intro earlier d later is
  rcases List.eq_nil_or_concat later with rfl | ⟨later, last, rfl⟩
  · obtain ⟨rfl, same⟩ := List.append_inj' is rfl
    rw [← (List.cons.inj same).1]
    exact onList
  · have parts : before ++ [c] = (earlier ++ d :: later) ++ [last] := by
      rw [is]
      simp
    obtain ⟨rfl, same⟩ := List.append_inj' parts rfl
    have front := straight earlier d later rfl
    rw [(List.cons.inj same).1] at front
    simpa using front

theorem AtRound.leave (at_ : AtRound q now before (c :: rest) kept w)
    (distinct : q.pendingSends.Nodup) (straight : q.StraightUntil now before (c :: rest))
    (strays : q.StraysAt now before c rest) {w' : Walk} (stepped : w.step now = some w') :
    WalkAt q now (before ++ [c]) rest w' := by
  obtain ⟨d, v, ran, pos, inside, _⟩ := at_.stray distinct strays
  obtain rfl := Option.some.inj (stepped.symm.trans ran)
  obtain ⟨_, ⟨status, judged⟩, _⟩ := strays
  have same : w'.reap = reapBody now w.reap c ∧ w'.saved = w'.reap.next w'.pos := by
    rw [Walk.step, at_.pos] at stepped
    cases stepped
    exact ⟨rfl, rfl⟩
  obtain ⟨lists, ready, given⟩ := at_.failing judged
  rw [← same.1] at lists ready given
  have apart : ∀ e ∈ w'.reap.completed, e ∉ w'.reap.qp.pendingSends := fun e old new =>
    (List.nodup_append.mp (lists ▸ distinct)).2.2 e old e new rfl
  refine ⟨by rw [at_.split]; simp, straight_snoc straight, given,
    .inr ⟨w'.reap, ⟨rfl, rfl, ?_, ?_⟩, apart, ready⟩⟩
  · rw [pos]
    exact inside
  · rw [same.2, pos]
    exact Reap.next_drained apart inside

theorem rounds_walkAt (distinct : q.pendingSends.Nodup) {n : Nat}
    (ran : q.beginWalk.rounds now n = some w) :
    ∃ before rest, WalkAt q now before rest w := by
  induction n generalizing w with
  | zero =>
      obtain rfl := Option.some.inj ran
      have begun := atRound_begin q now
      exact ⟨[], q.pendingSends, rfl, fun _ _ _ is => by simp at is, begun.given,
        .inl ⟨fun _ _ _ is => by simp at is, [], begun⟩⟩
  | succ n ih =>
      obtain ⟨v, earlier, stepped⟩ := Option.bind_eq_some_iff.mp ran
      obtain ⟨before, rest, walked⟩ := ih earlier
      rcases walked.stands with ⟨straight, kept, at_⟩ | ⟨r, strayed, apart, ready⟩
      · cases rest with
        | nil =>
            rw [Walk.step, at_.pos] at stepped
            cases stepped
        | cons c rest =>
            by_cases strays : q.StraysAt now before c rest
            · exact ⟨_, rest, at_.leave distinct straight strays stepped⟩
            · obtain ⟨kept', v', ran', after⟩ := at_.step distinct strays
              obtain rfl := Option.some.inj (stepped.symm.trans ran')
              exact ⟨_, rest, after.split, straight_snoc straight, after.given,
                .inl ⟨straight.snoc strays, kept', after⟩⟩
      · have next := strayed.step apart ready stepped
        refine ⟨before, rest, walked.split, walked.straight, fun d status => ?_,
          .inr ⟨r, next, apart, ready⟩⟩
        rw [next.qp, ← strayed.qp]
        exact walked.given d status

/-- The walk fails a send exactly when it comes to it on the list and the verdict is so. -/
theorem walk_gives_iff (distinct : q.pendingSends.Nodup) (status : Int) :
    (∃ n w, q.beginWalk.rounds now n = some w ∧ Given q w.reap.qp c status) ↔
      ∃ before rest, q.pendingSends = before ++ c :: rest ∧
        q.StraightUntil now before (c :: rest) ∧ q.verdictAfter now before c = .fail status := by
  constructor
  · rintro ⟨n, w, ran, given⟩
    obtain ⟨before, rest, walked⟩ := rounds_walkAt distinct ran
    obtain ⟨earlier, later, is, judged⟩ := (walked.given c status).mp given
    refine ⟨earlier, later ++ rest, ?_, walked.straight earlier c later is, judged⟩
    rw [walked.split, is]
    simp
  · rintro ⟨before, rest, split, straight, judged⟩
    obtain ⟨kept, v, ran, at_⟩ := rounds_atRound now distinct split straight
    obtain ⟨w, stepped⟩ : ∃ w, v.step now = some w := by
      rw [Walk.step, at_.pos]
      exact ⟨_, rfl⟩
    refine ⟨before.length + 1, w, ?_, ?_⟩
    · rw [Walk.rounds, ran]
      exact stepped
    · have same : w.reap = reapBody now v.reap c := by
        rw [Walk.step, at_.pos] at stepped
        cases stepped
        rfl
      rw [same]
      exact ((at_.failing judged).2.2 c status).mpr ⟨before, [], rfl, judged⟩

end

/-! ## The verdict on a send whose receiver was not ready -/

/-- The turn of a waiting send has come: a receive credit of the peer is left for it, or its
timer has run out. -/
def Qp.rnrDue (q : Qp) (now credits : Nat) (x : SendCtx) : Bool :=
  (x.wr.opcode.recvCreditRequired && credits != 0) ||
    (!x.rnrWaitsForRecvCredit && entryExpired x.queuedJiffies now q.cfg.rnrTimeout)

/-- The next attempt cannot start: one is being started already, frames of the last one are
still in the TX path, or the peer has everything. -/
def SendCtx.attemptBlocked (x : SendCtx) : Bool := x.retrying || x.txPending != 0 || !x.wireOpen

/-- `-EAGAIN` is for sends whose budget is spent. -/
def EagainOnlyWhenSpent (now : Nat) (q : Qp) : Prop :=
  (∀ psn c, Given q (q.noteRnrAck psn).1 c eagain → (q.ctx c).rnrRetryExhausted = true) ∧
    ∀ n w c, q.beginWalk.rounds now n = some w → Given q w.reap.qp c eagain →
      (q.ctx c).rnrRetryExhausted = true

/-- No waiting send with budget left has its turn, on a walk that is still on the list, while
its next attempt cannot start. -/
def NoTurnWhileBlocked (now : Nat) (q : Qp) : Prop :=
  ∀ before c rest, q.pendingSends = before ++ c :: rest →
    q.StraightUntil now before (c :: rest) →
    (q.ctx c).ready = false → (q.ctx c).rnrWaiting = true →
    (q.ctx c).rnrRetryExhausted = false →
    q.rnrDue now (q.creditsAfter now before) (q.ctx c) = true →
    (q.ctx c).attemptBlocked = false

section
variable {q : Qp} {now : Nat}

theorem SendCtx.rnrRetryAllowed_eq (x : SendCtx) : x.rnrRetryAllowed = !x.rnrRetryExhausted := by
  unfold rnrRetryAllowed rnrRetryExhausted
  by_cases infinite : x.maxRnrRetries = sendRnrRetriesInfinite
  · simp [infinite]
  · rw [Bool.eq_iff_iff]
    simp [infinite]

theorem reapVerdict_eagain_iff {x : SendCtx} (live : q.live = true) :
    reapVerdict q now x = .fail eagain ↔ x.ready = false ∧ x.rnrWaiting = true ∧
      q.rnrDue now q.remoteRecvCredits x = true ∧
      (x.attemptBlocked = true ∨ x.rnrRetryExhausted = true) := by
  have other : etimedout ≠ eagain := by decide
  cases ready : x.ready with
  | true => simp [reapVerdict_ready ready]
  | false =>
      cases waiting : x.rnrWaiting with
      | false =>
          unfold reapVerdict
          rw [ready, waiting]
          simp only [Bool.false_eq_true, if_false, false_and, and_false, iff_false]
          repeat' split
          all_goals simp [other]
      | true =>
          simp only [reapVerdict, ready, waiting, live, Qp.rnrDue, SendCtx.attemptBlocked,
            SendCtx.rnrRetryAllowed_eq, if_true, Bool.false_eq_true, if_false,
            bne, true_and, Bool.and_true]
          -- the five conjuncts of the retry branch, and what makes the turn come
          generalize (x.wr.opcode.recvCreditRequired && !(q.remoteRecvCredits == 0)) = credit
          generalize entryExpired x.queuedJiffies now q.cfg.rnrTimeout = expired
          generalize (x.txPending == 0) = idle
          cases credit <;> cases x.rnrWaitsForRecvCredit <;> cases expired <;> simp
          all_goals cases x.wireOpen <;> cases x.retrying <;> cases idle <;>
            cases x.rnrRetryExhausted <;> simp

theorem noteRnrAck_given {psn c : Nat} (live : q.live = true)
    (given : Given q (q.noteRnrAck psn).1 c eagain) : (q.ctx c).rnrRetryExhausted = true := by
  obtain ⟨unready, ready, _⟩ := given
  unfold Qp.noteRnrAck at ready
  split at ready
  · rw [unready] at ready
    cases ready
  · rename_i d _
    split at ready
    · rename_i spent
      rw [(drainReadySends_verdict _ c).1] at ready
      by_cases same : c = d
      · rw [same]
        simpa [live] using spent
      · rw [markReady_ctx_of_ne same, unready] at ready
        cases ready
    · have waits : ((q.startRnrWait d).ctx c).ready = (q.ctx c).ready := by
        by_cases same : c = d
        · rw [same]
          simp [Qp.startRnrWait, Qp.markQueued, Qp.modCtx]
        · simp [Qp.startRnrWait, Qp.markQueued, Qp.modCtx, Function.update_of_ne same]
      have quiet : ((q.startRnrWait d).scheduleTimeout.ctx c).ready = (q.ctx c).ready := by
        rw [← waits]
        unfold Qp.scheduleTimeout
        split <;> rfl
      split at ready
      · rw [waits, unready] at ready
        cases ready
      · rw [quiet, unready] at ready
        cases ready

end

/-- From every reachable state of a live QP: `-EAGAIN` is for spent budgets exactly when no send
with budget left has its turn while its next attempt cannot start. -/
theorem eagain_only_when_spent_iff {ok : St → Lbl → Prop} {cfg : QpConfig}
    {memory : Nat → UInt8} {st : St} (reached : Trans.Reaches step ok (start cfg memory) st)
    (live : st.shared.live = true) (now : Nat) :
    EagainOnlyWhenSpent now st.shared ↔ NoTurnWhileBlocked now st.shared := by
  have distinct := (queuedOnce_of_reaches reached).nodup
  have verdict (before : List Nat) (c : Nat) :=
    @reapVerdict_eagain_iff
      { st.shared with remoteRecvCredits := st.shared.creditsAfter now before } now
      (st.shared.ctx c) live
  constructor
  · rintro ⟨_, walk⟩ before c rest split straight unready waiting left due
    by_contra blocked
    obtain ⟨n, w, ran, given⟩ := (walk_gives_iff distinct eagain).mpr ⟨before, rest, split, straight,
      (verdict before c).mpr ⟨unready, waiting, due, .inl (by simpa using blocked)⟩⟩
    rw [walk n w c ran given] at left
    cases left
  · intro free
    refine ⟨fun psn c => noteRnrAck_given live, fun n w c ran given => ?_⟩
    obtain ⟨before, rest, split, straight, judged⟩ :=
      (walk_gives_iff distinct eagain).mp ⟨n, w, ran, given⟩
    obtain ⟨unready, waiting, due, blocked | spent⟩ := (verdict before c).mp judged
    · by_contra left
      rw [free before c rest split straight unready waiting (by simpa using left) due] at blocked
      cases blocked
    · exact spent

/-- An RC send with three RNR retries whose first frame still stands in the TX path when the
receiver's answer comes, and its RNR timer. -/
def answeredEarly : List Lbl :=
  [(.event (.postSend oneByteSend) : Lbl)] ++ runs 0 postTaken ++
  [(.event (.ack (2 ^ 24 - 1) .rnr) : Lbl)] ++ runs 1 [.ok, .ok, .ok] ++
  [(.event .tick : Lbl), .event .tick]

/-- The reaper fails the send although it has not been retried once. -/
theorem eagain_with_budget_left : ∃ st : St,
    Trans.Reaches step (fun _ _ => True)
      (start { rcConfig with rnrRetry := 3 } fun _ => 7) st ∧
    st.shared.live = true ∧ st.shared.timeoutArmed = true ∧
    (st.shared.ctx 0).maxRnrRetries = 3 ∧ (st.shared.ctx 0).rnrRetries = 0 ∧
    ¬ EagainOnlyWhenSpent st.shared.jiffies st.shared := by
  have ran : (Trans.guarded step (fun _ _ => True) answeredEarly
      (start { rcConfig with rnrRetry := 3 } fun _ => 7)).any (fun st =>
        st.shared.live && st.shared.timeoutArmed &&
        decide (st.shared.pendingSends = [0]) &&
        decide ((st.shared.ctx 0).maxRnrRetries = 3 ∧ (st.shared.ctx 0).rnrRetries = 0) &&
        decide (st.shared.verdictAfter st.shared.jiffies [] 0 = .fail eagain)) = true := by
    decide +kernel
  obtain ⟨st, reached, found⟩ := Trans.exists_reaches_of_guarded ran
  simp only [Bool.and_eq_true, decide_eq_true_eq] at found
  obtain ⟨⟨⟨⟨live, armed⟩, pending⟩, budget, used⟩, failed⟩ := found
  refine ⟨st, reached, live, armed, budget, used, fun spent => ?_⟩
  have distinct := (queuedOnce_of_reaches reached).nodup
  obtain ⟨n, w, ran, given⟩ := (walk_gives_iff distinct eagain).mpr
    ⟨[], [], pending, fun _ _ _ is => by simp at is, failed⟩
  have exhausted := spent.2 n w 0 ran given
  rw [SendCtx.rnrRetryExhausted, budget, used] at exhausted
  cases exhausted

/-- Two RC sends are answered with RNR: the first one after its frame has come back, the second
one, whose frame still stands in the TX path, two ticks later. -/
def answeredTwice : List Lbl :=
  postTwo ++ [(.event (.txRetired 0 false 0) : Lbl), .run 2 .ok, .event (.ack (2 ^ 24 - 1) .rnr)] ++
  runs 3 [.ok, .ok, .ok] ++ [(.event .tick : Lbl), .event .tick, .event (.ack 0 .rnr)] ++
  runs 6 [.ok, .ok, .ok]

/-- It is the turn of the first send, which is retried; the second one is blocked, and waits. -/
theorem eagain_only_when_spent_waiting : ∃ st : St,
    Trans.Reaches step (fun _ _ => True)
      (start { rcConfig with rnrRetry := 3 } fun _ => 7) st ∧
    st.shared.pendingSends = [0, 1] ∧ (st.shared.ctx 0).rnrWaiting = true ∧
    (st.shared.ctx 1).rnrWaiting = true ∧ (st.shared.ctx 1).attemptBlocked = true ∧
    EagainOnlyWhenSpent st.shared.jiffies st.shared := by
  have ran : (Trans.guarded step (fun _ _ => True) answeredTwice
      (start { rcConfig with rnrRetry := 3 } fun _ => 7)).any (fun st =>
        st.shared.live && decide (st.shared.pendingSends = [0, 1]) &&
        (st.shared.ctx 0).rnrWaiting && (st.shared.ctx 1).rnrWaiting &&
        !(st.shared.ctx 0).attemptBlocked && (st.shared.ctx 1).attemptBlocked &&
        !st.shared.rnrDue st.shared.jiffies (st.shared.creditsAfter st.shared.jiffies [0])
          (st.shared.ctx 1)) = true := by
    decide +kernel
  obtain ⟨st, reached, found⟩ := Trans.exists_reaches_of_guarded ran
  simp only [Bool.and_eq_true, decide_eq_true_eq, Bool.not_eq_true'] at found
  obtain ⟨⟨⟨⟨⟨⟨live, pending⟩, first⟩, second⟩, free⟩, blocked⟩, early⟩ := found
  refine ⟨st, reached, pending, first, second, blocked,
    (eagain_only_when_spent_iff reached live st.shared.jiffies).mpr ?_⟩
  intro before c rest split _ _ _ _ due
  rw [pending] at split
  cases before with
  | nil =>
      obtain ⟨rfl, -⟩ := List.cons.inj split
      exact free
  | cons d before =>
      obtain ⟨rfl, behind⟩ := List.cons.inj split
      cases before with
      | nil =>
          obtain ⟨rfl, -⟩ := List.cons.inj behind
          rw [early] at due
          cases due
      | cons e before => simp at behind

end Tbv.SendQueue
