import ThunderboltIbverbs.Sq.Window
import ThunderboltIbverbs.Lib.Trail

/-! # The order of the completions of an Apple QP

A section takes sends off `pending_sends` and whoever holds them completes them without the
lock, at once or from a delayed work each.  The completions stay in order as long as one hand
holds what was taken off: nobody takes more before it is pushed, and a send is delayed only
when nothing is behind it in its hand. -/
set_option autoImplicit false
namespace Tbv.Sq

open Threads Trans

/-- The sends that a frame has taken off the pending list and that are not pushed, in order. -/
def Frame.held : Frame → List Nat
  | .complete s _ | .pushWc s _ | .completeStatus s => [s]
  | .completeSends sends => sends
  | .retry _ _ gone | .retryPosted _ _ _ gone => gone
  | _ => []

def handOf (stack : List Frame) : List Nat := stack.flatMap Frame.held

def Frame.takes (q : Qp) (choice : Choice) : Frame → List Nat
  | .transmitFailed s _ | .flushEntry s => if s ∈ q.pendingSends then [s] else []
  | .completeOrdered psn status _ => (q.completeSendOrdered psn status).2
  | .reap expired => (q.reapTx expired).gone
  | .retryPosted s _ _ _ =>
      if (q.sends s).pending && !q.closing && q.state != .err && decide (choice ≠ 0) &&
          decide (choice ≠ enomem) && decide (choice ≠ enotconn) then
        ((q.modCtx s fun c => c.markReady etimedout).drainReady).2
      else []
  | .flushSends => q.pendingSends
  | _ => []

def Frame.delays (q : Qp) (choice : Choice) : Frame → Bool
  | .completeSends (s :: _) => decide ((q.sends s).completionStatus = 0 ∧ choice ≠ 0)
  | _ => false

/-- A retransmission of the timeout worker completes its send from where it stands. -/
def Frame.retransmitted (q : Qp) : Frame → Bool
  | .sendTxDone s status => decide (status = 0 ∧ (q.sends s).txPending ≤ 1)
  | _ => false

def NoHand (st : St) : Prop := st.shared.delayed = [] ∧ ∀ stack ∈ st.threads, handOf stack = []

instance (st : St) : Decidable (NoHand st) := inferInstanceAs (Decidable (_ ∧ _))

/-- Sends are taken off from the front and only when all that was taken off before has been
pushed; a send is delayed only as the last one in its hand; and no retransmission of the timeout
worker completes a send. -/
def InTurn (st : St) : Lbl → Prop
  | .event _ => True
  | .run thread choice => ∀ frame ∈ st.top thread,
      (frame.takes st.shared choice ≠ [] →
        NoHand st ∧ frame.takes st.shared choice <+: st.shared.pendingSends) ∧
      (frame.delays st.shared choice = true →
        (handOf ((st.threads[thread]?).getD [])).length ≤ 1) ∧
      frame.retransmitted st.shared = false

instance (st : St) : (label : Lbl) → Decidable (InTurn st label)
  | .event _ => .isTrue trivial
  | .run thread choice => inferInstanceAs (Decidable (∀ frame ∈ st.top thread,
      (frame.takes st.shared choice ≠ [] →
        NoHand st ∧ frame.takes st.shared choice <+: st.shared.pendingSends) ∧
      (frame.delays st.shared choice = true →
        (handOf ((st.threads[thread]?).getD [])).length ≤ 1) ∧
      frame.retransmitted st.shared = false))

def Frame.queues : Frame → Option Nat
  | .queueSend s => some s
  | _ => none

/-- The send that a step puts on `pending_sends`. -/
def queuedBy (st : St) : Lbl → Option Nat
  | .event _ => none
  | .run thread _ => (st.top thread).bind Frame.queues

/-- The sends of a run in the order in which they were posted. -/
def queued (labels : List Lbl) (start : St) : List Nat := trail step queuedBy labels start

/-! ## What a section does to the order -/

@[simp] theorem handOf_nil : handOf [] = [] := rfl

@[simp] theorem handOf_cons (frame : Frame) (rest : List Frame) :
    handOf (frame :: rest) = frame.held ++ handOf rest := rfl

@[simp] theorem handOf_append (first second : List Frame) :
    handOf (first ++ second) = handOf first ++ handOf second := List.flatMap_append

theorem handOf_completeStatus (sends : List Nat) : handOf (sends.map .completeStatus) = sends := by
  induction sends with
  | nil => rfl
  | cons s rest ih =>
      rw [List.map_cons, handOf_cons, ih]
      rfl

theorem handOf_eq_nil {code : List Frame} (empty : ∀ frame ∈ code, frame.held = []) :
    handOf code = [] := List.flatMap_eq_nil_iff.mpr empty

/-- The pending list, the delayed works and the completions are the same. -/
structure Still (q q' : Qp) : Prop where
  pending : q'.pendingSends = q.pendingSends
  delayed : q'.delayed = q.delayed
  completions : q'.completions = q.completions

inductive Handling (q : Qp) (choice : Choice) : Frame → Qp → List Frame → Prop
  | calm {frame : Frame} {q' : Qp} {pushed : List Frame} (still : Still q q')
      (hand : handOf pushed = frame.held) (other : frame.queues = none) :
      Handling q choice frame q' pushed
  | queues (s : Nat) {q' : Qp} (pending : q'.pendingSends = q.pendingSends ++ [s])
      (delayed : q'.delayed = q.delayed) (completions : q'.completions = q.completions) :
      Handling q choice (.queueSend s) q' [.queueEntry s]
  | takes {frame : Frame} {q' : Qp} {pushed : List Frame} (gone : List Nat)
      (is : frame.takes q choice = gone) (some_ : gone ≠ [])
      (pending : q.pendingSends = gone ++ q'.pendingSends) (delayed : q'.delayed = q.delayed)
      (completions : q'.completions = q.completions)
      (hand : handOf pushed = frame.held ++ gone) :
      Handling q choice frame q' pushed
  | drops (s : Nat) (status : Int) : Handling q choice (.complete s status) q []
  | delays (s : Nat) (rest : List Nat)
      (is : Frame.delays q choice (.completeSends (s :: rest)) = true) :
      Handling q choice (.completeSends (s :: rest)) { q with delayed := q.delayed ++ [s] }
        [.completeSends rest]
  | pushes (s : Nat) (status : Int) (completions : List (Nat × Int))
      (is : completions = q.completions ++ [(s, status)] ∨ completions = q.completions) :
      Handling q choice (.pushWc s status) { q with completions := completions } []

section Cases
variable {q q' : Qp} {choice : Choice} {pushed : List Frame}

/-- A section that takes a prefix off, or nothing. -/
theorem Handling.of_taken {frame : Frame} (gone : List Nat) (is : frame.takes q choice = gone)
    (pending : q.pendingSends = gone ++ q'.pendingSends) (delayed : q'.delayed = q.delayed)
    (completions : q'.completions = q.completions) (hand : handOf pushed = frame.held ++ gone)
    (other : frame.queues = none) : Handling q choice frame q' pushed := by
  by_cases none : gone = []
  · subst none
    exact .calm ⟨pending.symm, delayed, completions⟩ (by simpa using hand) other
  · exact .takes gone is none pending delayed completions hand

theorem drainReady_split (q : Qp) :
    q.pendingSends = q.drainReady.2 ++ q.drainReady.1.pendingSends :=
  (List.prefix_iff_eq_append.mp (List.takeWhile_prefix _)).symm

theorem completeSendOrdered_split (q : Qp) (psn : Nat) (status : Int) :
    q.pendingSends = (q.completeSendOrdered psn status).2 ++
        (q.completeSendOrdered psn status).1.pendingSends ∧
      (q.completeSendOrdered psn status).1.delayed = q.delayed ∧
      (q.completeSendOrdered psn status).1.completions = q.completions := by
  unfold Qp.completeSendOrdered
  split
  · exact ⟨rfl, rfl, rfl⟩
  · rename_i s _
    exact ⟨drainReady_split (q.modCtx s fun c => c.markReady status), rfl, rfl⟩

/-- A walk of the reaper takes a prefix off, whatever was taken before. -/
theorem reapTx_split (q : Qp) (expired : List Nat) :
    q.pendingSends = (q.reapTx expired).gone ++ (q.reapTx expired).qp.pendingSends ∧
      (q.reapTx expired).qp.delayed = q.delayed ∧
      (q.reapTx expired).qp.completions = q.completions := by
  refine reapTx_invariant (P := fun r => q.pendingSends = r.gone ++ r.qp.pendingSends ∧
    r.qp.delayed = q.delayed ∧ r.qp.completions = q.completions) expired ⟨rfl, rfl, rfl⟩ ?_
  rintro r s ⟨split, delayed, completions⟩
  have drained := drainReady_split (r.qp.modCtx s fun c => c.markReady etimedout)
  unfold Reaped.send
  dsimp only
  split
  · exact ⟨split, delayed, completions⟩
  · split
    · exact ⟨split, delayed, completions⟩
    · refine ⟨?_, delayed, completions⟩
      rw [List.append_assoc, ← drained]
      exact split

/-- A send that is failed alone is the oldest one. -/
theorem unqueueSend_handling {frame : Frame} {s : Nat} {status : Int}
    (is : frame.takes q choice = if s ∈ q.pendingSends then [s] else [])
    (front : frame.takes q choice <+: q.pendingSends) (empty : frame.held = [])
    (other : frame.queues = none) :
    Handling q choice frame (q.unqueueSend s).1
      (if (q.unqueueSend s).2 then [.complete s status] else []) := by
  rw [is] at front
  unfold Qp.unqueueSend
  split at front
  · rename_i among
    rw [if_pos among] at is ⊢
    obtain ⟨rest, pending⟩ := front
    refine .of_taken [s] is ?_ rfl rfl (by rw [empty]; rfl) other
    simp only [Qp.takeOff, ← pending, List.cons_append, List.nil_append, List.erase_cons_head]
  · rename_i absent
    rw [if_neg absent]
    exact .calm ⟨rfl, rfl, rfl⟩ empty.symm other

theorem still_releaseWr (q : Qp) (s : Nat) (wr : Bool) : Still q (q.releaseWr s wr) := by
  unfold Qp.releaseWr
  split <;> exact ⟨rfl, rfl, rfl⟩

theorem still_releaseFrames (q : Qp) (s frames : Nat) : Still q (q.releaseFrames s frames) := by
  unfold Qp.releaseFrames
  split <;> exact ⟨rfl, rfl, rfl⟩

theorem execRetryPosted_handling {s : Nat} {sends gone : List Nat} {failed : Bool}
    (ran : execRetryPosted q s sends failed gone choice = some (q', pushed)) :
    Handling q choice (.retryPosted s sends failed gone) q' pushed := by
  have drained := drainReady_split (q.modCtx s fun c => c.markReady etimedout)
  by_cases took : choice = 0
  · simp only [execRetryPosted, took, if_true] at ran
    split at ran <;> cases ran
    all_goals exact .calm ⟨rfl, rfl, rfl⟩ (by simp [Frame.held]) rfl
  · simp only [execRetryPosted, if_neg took] at ran
    split at ran
    · rename_i live
      split at ran
      · cases ran
        exact .calm ⟨rfl, rfl, rfl⟩ (by simp [Frame.held]) rfl
      · rename_i memory
        split at ran
        · cases ran
          exact .calm ⟨rfl, rfl, rfl⟩ (by simp [Frame.held]) rfl
        · rename_i connected
          cases ran
          refine .of_taken _ ?_ drained rfl rfl (by simp [Frame.held]) rfl
          simp only [Frame.takes, live, took, memory, connected, ne_eq, not_false_eq_true,
            decide_true, Bool.and_self, if_true]
    · cases ran
      exact .calm ⟨rfl, rfl, rfl⟩ (by simp [Frame.held]) rfl

theorem exec_handling {frame : Frame} (ran : exec q frame choice = some (q', pushed))
    (front : frame.takes q choice <+: q.pendingSends) (posted : frame.retransmitted q = false) :
    Handling q choice frame q' pushed := by
  cases frame with
  | queueSend s =>
      cases ran
      exact .queues s rfl rfl rfl
  | giveBack s wr frames ret =>
      cases ran
      exact .calm (still_releaseWr q s wr) (by simp [Frame.held]) rfl
  | giveBackFrames s frames ret =>
      cases ran
      refine .calm (still_releaseFrames q s frames) ?_ rfl
      split <;> rfl
  | releaseFrames s frames =>
      cases ran
      exact .calm (still_releaseFrames q s frames) rfl rfl
  | releaseWindow s =>
      simp only [exec, execReleaseWindow] at ran
      split at ran <;> cases ran
      · have still := still_releaseWr q s (q.sends s).windowWrAcquired
        exact .calm ⟨still.pending, still.delayed, still.completions⟩ rfl rfl
      · exact .calm ⟨rfl, rfl, rfl⟩ rfl rfl
  | transmitFailed s ret | flushEntry s =>
      cases ran
      exact unqueueSend_handling rfl front rfl rfl
  | complete s status =>
      simp only [exec] at ran
      split at ran <;> cases ran
      · exact .drops s status
      · exact .calm ⟨rfl, rfl, rfl⟩ rfl rfl
  | pushWc s status =>
      cases ran
      split
      · exact .pushes s status _ (.inl rfl)
      · exact .pushes s status _ (.inr rfl)
  | completeOrdered psn status delays =>
      cases ran
      obtain ⟨pending, delayed, completions⟩ := completeSendOrdered_split q psn status
      refine .of_taken (q.completeSendOrdered psn status).2 rfl pending delayed completions ?_ rfl
      split
      · simp [Frame.held]
      · simp [Frame.held, handOf_completeStatus]
  | completeSends sends =>
      cases sends with
      | nil =>
          cases ran
          exact .calm ⟨rfl, rfl, rfl⟩ rfl rfl
      | cons s rest =>
          simp only [exec] at ran
          split at ran <;> cases ran
          · rename_i later
            exact .delays s rest (decide_eq_true later)
          · exact .calm ⟨rfl, rfl, rfl⟩ (by simp [Frame.held]) rfl
  | sendTxDone s status =>
      cases ran
      refine .calm ⟨rfl, rfl, rfl⟩ ?_ rfl
      simp only [Frame.retransmitted, decide_eq_false_iff_not] at posted
      split
      · rename_i success
        rw [if_neg fun few => posted ⟨success, few⟩]
        rfl
      · rfl
  | reap expired =>
      cases ran
      obtain ⟨pending, delayed, completions⟩ := reapTx_split q expired
      refine .of_taken (q.reapTx expired).gone rfl pending delayed completions ?_ rfl
      simp [Frame.held]
  | retry sends failed gone =>
      cases sends with
      | nil =>
          cases ran
          refine .calm ⟨rfl, rfl, rfl⟩ ?_ rfl
          rw [handOf_append, handOf_completeStatus]
          split <;> rfl
      | cons s rest =>
          simp only [exec] at ran
          split at ran <;> cases ran
          all_goals exact .calm ⟨rfl, rfl, rfl⟩ (by simp [Frame.held]) rfl
  | retryPosted s sends failed gone => exact execRetryPosted_handling ran
  | flushSq =>
      cases ran
      refine .calm ⟨rfl, rfl, rfl⟩ (handOf_eq_nil fun frame among => ?_) rfl
      obtain ⟨s, -, rfl⟩ := List.mem_map.mp among
      rfl
  | flushSends =>
      cases ran
      refine .of_taken q.pendingSends rfl (by simp [Qp.flushSends]) rfl rfl ?_ rfl
      rw [handOf_completeStatus]
      rfl
  | _ =>
      simp only [exec, execTryAcquire, execPost, execWaitGroup, nextAfter] at ran
      repeat' split at ran
      all_goals cases ran
      all_goals refine .calm ⟨rfl, rfl, rfl⟩ ?_ rfl
      all_goals rfl

end Cases

/-! ## One hand -/

/-- All that was taken off and not pushed is with one delayed work or on one stack. -/
inductive Hand (st : St) : List Nat → Prop
  | parked (quiet : ∀ stack ∈ st.threads, handOf stack = []) (few : st.shared.delayed.length ≤ 1) :
      Hand st st.shared.delayed
  | carried (thread : Nat) (stack : List Frame) (found : st.threads[thread]? = some stack)
      (quiet : ∀ other code, other ≠ thread → st.threads[other]? = some code → handOf code = [])
      (none : st.shared.delayed = []) : Hand st (handOf stack)

/-- What was posted so far has been pushed or dropped, is in one hand, or is pending. -/
def OneHand (posted : List Nat) (st : St) : Prop :=
  ∃ past hand, posted = past ++ hand ++ st.shared.pendingSends ∧ Hand st hand ∧
    (st.shared.completions.map Prod.fst).Sublist past

section Run
variable {st : St} {thread : Nat} {frame : Frame} {rest pushed : List Frame} {q : Qp}

theorem NoHand.hand (none : NoHand st) {hand : List Nat} (holds : Hand st hand) : hand = [] := by
  cases holds with
  | parked quiet few => exact none.1
  | carried thread stack found quiet _ => exact none.2 stack (List.mem_of_getElem? found)

theorem Hand.of_holder {hand : List Nat} (holds : Hand st hand)
    (found : st.threads[thread]? = some (frame :: rest)) (some_ : frame.held ≠ []) :
    hand = frame.held ++ handOf rest ∧ st.shared.delayed = [] ∧
      ∀ other code, other ≠ thread → st.threads[other]? = some code → handOf code = [] := by
  have here : handOf (frame :: rest) ≠ [] := by simp [some_]
  cases holds with
  | parked quiet few => exact absurd (quiet _ (List.mem_of_getElem? found)) here
  | carried holder stack at_ quiet none =>
      by_cases same : holder = thread
      · subst same
        cases at_.symm.trans found
        exact ⟨rfl, none, quiet⟩
      · exact absurd (quiet thread _ (Ne.symm same) found) here

/-- The stacks beside the one that ran. -/
theorem others_after_run
    (quiet : ∀ other code, other ≠ thread → st.threads[other]? = some code → handOf code = []) :
    ∀ other code, other ≠ thread →
      (st.threads.set thread (pushed ++ rest))[other]? = some code → handOf code = [] := by
  intro other code apart at_
  rw [List.getElem?_set_ne (Ne.symm apart)] at at_
  exact quiet other code apart at_

theorem found_after_run (found : st.threads[thread]? = some (frame :: rest)) :
    (st.threads.set thread (pushed ++ rest))[thread]? = some (pushed ++ rest) :=
  List.getElem?_set_self (List.getElem?_eq_some_iff.mp found).1

/-- A section that leaves its hand as it is. -/
theorem Hand.run {hand : List Nat} (holds : Hand st hand)
    (found : st.threads[thread]? = some (frame :: rest)) (delayed : q.delayed = st.shared.delayed)
    (same : handOf pushed = frame.held) :
    Hand ⟨q, st.threads.set thread (pushed ++ rest)⟩ hand := by
  have stack : handOf (pushed ++ rest) = handOf (frame :: rest) := by
    rw [handOf_append, handOf_cons, same]
  cases holds with
  | parked quiet few =>
      rw [← delayed] at few ⊢
      refine .parked (fun code among => ?_) few
      rcases List.mem_or_eq_of_mem_set among with old | rfl
      · exact quiet code old
      · rw [stack]
        exact quiet _ (List.mem_of_getElem? found)
  | carried holder code at_ quiet none =>
      by_cases here : holder = thread
      · subst here
        cases at_.symm.trans found
        rw [← stack]
        exact .carried holder _ (found_after_run found) (others_after_run quiet)
          (delayed.trans none)
      · refine .carried holder code ?_ (fun other more apart at' => ?_) (delayed.trans none)
        · rw [List.getElem?_set_ne (Ne.symm here)]
          exact at_
        · by_cases this : other = thread
          · subst this
            cases (found_after_run found).symm.trans at'
            rw [stack]
            exact quiet other _ apart found
          · rw [List.getElem?_set_ne (Ne.symm this)] at at'
            exact quiet other more apart at'

theorem OneHand.run {posted : List Nat} {choice : Choice} (one : OneHand posted st)
    (found : st.threads[thread]? = some (frame :: rest))
    (handling : Handling st.shared choice frame q pushed)
    (inTurn : frame.takes st.shared choice ≠ [] → NoHand st)
    (alone : frame.delays st.shared choice = true → (handOf (frame :: rest)).length ≤ 1) :
    OneHand (posted ++ (queuedBy st (.run thread choice)).toList)
      ⟨q, st.threads.set thread (pushed ++ rest)⟩ := by
  obtain ⟨past, hand, split, holds, pushedBefore⟩ := one
  have marks : queuedBy st (.run thread choice) = frame.queues := by
    rw [queuedBy, State.top_of_getElem? found]
    rfl
  rw [marks]
  cases handling with
  | calm still same other =>
      rw [other, Option.toList_none, List.append_nil]
      refine ⟨past, hand, ?_, holds.run found still.delayed same, ?_⟩
      · rw [still.pending]
        exact split
      · rw [still.completions]
        exact pushedBefore
  | queues s pending delayed completions =>
      refine ⟨past, hand, ?_, holds.run found delayed rfl, ?_⟩
      · rw [pending, split, List.append_assoc _ st.shared.pendingSends]
        rfl
      · rw [completions]
        exact pushedBefore
  | takes gone is some_ pending delayed completions same =>
      have none := inTurn (is ▸ some_)
      cases none.hand holds
      have empty : handOf (frame :: rest) = [] := none.2 _ (List.mem_of_getElem? found)
      rw [handOf_cons] at empty
      obtain ⟨noneHeld, noneBelow⟩ := List.append_eq_nil_iff.mp empty
      have queues : frame.queues = Option.none := by
        cases frame <;> first | rfl | exact absurd is.symm some_
      have stack : handOf (pushed ++ rest) = gone := by
        rw [handOf_append, same, noneHeld, noneBelow, List.nil_append, List.append_nil]
      rw [queues, Option.toList_none, List.append_nil]
      refine ⟨past, gone, ?_, ?_, ?_⟩
      · rw [split, pending, List.append_nil, List.append_assoc]
      · rw [← stack]
        exact .carried thread _ (found_after_run found)
          (others_after_run fun other code _ at_ => none.2 code (List.mem_of_getElem? at_))
          (delayed.trans none.1)
      · rw [completions]
        exact pushedBefore
  | drops s status =>
      obtain ⟨rfl, none, quiet⟩ := holds.of_holder found (List.cons_ne_nil s [])
      refine ⟨past ++ [s], handOf rest, ?_, ?_, pushedBefore.trans (List.sublist_append_left _ _)⟩
      · simpa [Frame.held, Frame.queues] using split
      · exact .carried thread _ (found_after_run found) (others_after_run quiet) none
  | delays s more is =>
      obtain ⟨rfl, none, quiet⟩ := holds.of_holder found (List.cons_ne_nil s more)
      -- the send is all of its hand: nothing stays behind it on the stack
      have last := alone is
      simp only [handOf_cons, Frame.held, List.cons_append, List.length_cons,
        List.length_append] at last
      have noMore : more = [] := List.eq_nil_of_length_eq_zero (by omega)
      have noneBelow : handOf rest = [] := List.eq_nil_of_length_eq_zero (by omega)
      subst noMore
      have parked : Hand ⟨{ st.shared with delayed := st.shared.delayed ++ [s] },
          st.threads.set thread ([.completeSends []] ++ rest)⟩ (st.shared.delayed ++ [s]) := by
        refine .parked (fun code among => ?_) ?_
        · obtain ⟨other, at_⟩ := List.mem_iff_getElem?.mp among
          by_cases here : other = thread
          · subst here
            cases (found_after_run found).symm.trans at_
            exact noneBelow
          · exact others_after_run quiet other code here at_
        · simp [none]
      refine ⟨past, _, ?_, parked, pushedBefore⟩
      simpa [Frame.held, Frame.queues, none, noneBelow] using split
  | pushes s status completions is =>
      obtain ⟨rfl, none, quiet⟩ := holds.of_holder found (List.cons_ne_nil s [])
      refine ⟨past ++ [s], handOf rest, ?_, ?_, ?_⟩
      · simpa [Frame.held, Frame.queues] using split
      · exact .carried thread _ (found_after_run found) (others_after_run quiet) none
      · rcases is with rfl | rfl
        · rw [List.map_append]
          exact pushedBefore.append (List.Sublist.refl _)
        · exact pushedBefore.trans (List.sublist_append_left _ _)

theorem react_handling {event : Event} {code : List Frame} {q' : Qp}
    (reacted : react q event = some (q', code)) :
    Still q q' ∧ handOf code = [] ∨ ∃ place s, q.delayed[place]? = some s ∧
      q' = { q with delayed := q.delayed.eraseIdx place } ∧ code = [.complete s 0] := by
  cases event with
  | completeWork place =>
      simp only [react] at reacted
      split at reacted <;> cases reacted
      rename_i s at_
      exact .inr ⟨place, s, at_, rfl, rfl⟩
  | modify next sqPsn =>
      cases reacted
      refine .inl ⟨⟨rfl, rfl, rfl⟩, ?_⟩
      split <;> rfl
  | _ =>
      simp only [react] at reacted
      repeat' split at reacted
      all_goals cases reacted
      all_goals exact .inl ⟨⟨rfl, rfl, rfl⟩, rfl⟩

theorem Hand.event {hand : List Nat} {code : List Frame} (holds : Hand st hand)
    (delayed : q.delayed = st.shared.delayed) (empty : handOf code = []) :
    Hand ⟨q, st.threads ++ [code]⟩ hand := by
  cases holds with
  | parked quiet few =>
      rw [← delayed] at few ⊢
      refine .parked (fun stack among => ?_) few
      rcases List.mem_append.mp among with old | new
      · exact quiet stack old
      · cases List.mem_singleton.mp new
        exact empty
  | carried holder stack at_ quiet none =>
      have inside : holder < st.threads.length := (List.getElem?_eq_some_iff.mp at_).1
      refine .carried holder stack ?_ (fun other more apart at' => ?_) (delayed.trans none)
      · rw [List.getElem?_append_left inside]
        exact at_
      · by_cases old : other < st.threads.length
        · rw [List.getElem?_append_left old] at at'
          exact quiet other more apart at'
        · rw [List.getElem?_append_right (by omega)] at at'
          cases List.mem_singleton.mp (List.mem_of_getElem? at')
          exact empty

/-- A delayed work has all that is held. -/
theorem Hand.of_delayed {hand : List Nat} (holds : Hand st hand) {place s : Nat}
    (at_ : st.shared.delayed[place]? = some s) :
    hand = [s] ∧ Hand ⟨{ st.shared with delayed := st.shared.delayed.eraseIdx place },
      st.threads ++ [[.complete s 0]]⟩ [s] := by
  cases holds with
  | parked quiet few =>
      have inside : place < st.shared.delayed.length := (List.getElem?_eq_some_iff.mp at_).1
      have first : place = 0 := by omega
      have one : st.shared.delayed = [s] := by
        obtain ⟨head, alone⟩ := List.length_eq_one_iff.mp (by omega : st.shared.delayed.length = 1)
        rw [alone, first] at at_
        cases at_
        exact alone
      refine ⟨one, .carried st.threads.length [.complete s 0] ?_ (fun other code apart at' => ?_) ?_⟩
      · simp
      · by_cases old : other < st.threads.length
        · rw [List.getElem?_append_left old] at at'
          exact quiet code (List.mem_of_getElem? at')
        · rw [List.getElem?_append_right (by omega)] at at'
          have none : other - st.threads.length = 0 := by
            by_contra later
            rw [List.getElem?_eq_none (by simp; omega)] at at'
            cases at'
          omega
      · rw [one, first]
        rfl
  | carried holder stack found quiet none =>
      rw [none] at at_
      cases at_

theorem OneHand.event {posted : List Nat} {event : Event} {code : List Frame}
    (one : OneHand posted st) (reacted : react st.shared event = some (q, code)) :
    OneHand posted ⟨q, st.threads ++ [code]⟩ := by
  obtain ⟨past, hand, split, holds, pushedBefore⟩ := one
  rcases react_handling reacted with ⟨still, empty⟩ | ⟨place, s, at_, rfl, rfl⟩
  · refine ⟨past, hand, ?_, holds.event still.delayed empty, ?_⟩
    · rw [still.pending]
      exact split
    · rw [still.completions]
      exact pushedBefore
  · obtain ⟨rfl, moved⟩ := holds.of_delayed at_
    exact ⟨past, [s], split, moved, pushedBefore⟩

end Run

/-! ## Each send once -/

def Frame.posting (s : Nat) (frame : Frame) : Prop := frame = .takePsn s ∨ frame = .queueSend s

/-- Only a post gets to the sections that queue its send. -/
theorem exec_posting {q q' : Qp} {frame : Frame} {choice : Choice} {pushed : List Frame}
    (ran : exec q frame choice = some (q', pushed)) {s : Nat} {next : Frame} (among : next ∈ pushed)
    (posts : next.posting s) :
    frame = .takePsn s ∨ s = q.posted ∧ ∃ length signaled, frame = .reserveSlot length signaled := by
  cases frame with
  | takePsn other =>
      cases ran
      cases List.mem_singleton.mp among
      rcases posts with is | is <;> cases is
      exact .inl rfl
  | reserveSlot length signaled =>
      simp only [exec] at ran
      repeat' split at ran
      all_goals cases ran
      · cases among
      · cases among
      · cases List.mem_singleton.mp among
        rcases posts with is | is <;> cases is
        exact .inr ⟨rfl, length, signaled, rfl⟩
  | completeSends sends | retry sends _ _ =>
      cases sends <;> simp only [exec] at ran <;> (repeat' split at ran) <;> cases ran <;>
        rcases posts with rfl | rfl <;> simp at among
  | _ =>
      simp only [exec, execTryAcquire, execPost, execWaitGroup, execReleaseWindow, execRetryPosted,
        nextAfter] at ran
      repeat' split at ran
      all_goals cases ran
      all_goals rcases posts with rfl | rfl
      all_goals simp [flush] at among

theorem Frame.posting.entry {s : Nat} {frame : Frame} (posts : frame.posting s) :
    entryWeight s frame = 1 := by
  rcases posts with rfl | rfl <;> simp [entryWeight, entryOf]

structure Distinct (posted : List Nat) (st : St) : Prop where
  nodup : posted.Nodup
  inside : ∀ s ∈ posted, s < st.shared.posted
  settled : ∀ s ∈ posted, ∀ frame, st.Has frame → ¬ frame.posting s

section Distinct
variable {st : St} {thread : Nat} {frame : Frame} {rest pushed : List Frame} {q : Qp}
  {posted : List Nat} {choice : Choice}

/-- A section that does not queue a send. -/
theorem Distinct.run (distinct : Distinct posted st)
    (found : st.threads[thread]? = some (frame :: rest))
    (ran : exec st.shared frame choice = some (q, pushed)) :
    Distinct posted ⟨q, st.threads.set thread (pushed ++ rest)⟩ := by
  refine ⟨distinct.nodup, fun s among => ?_, fun s among other has posts => ?_⟩
  · exact Nat.lt_of_lt_of_le (distinct.inside s among) (exec_windowing ran).posted_le
  · rcases State.has_of_run found has with new | old
    · rcases exec_posting ran new posts with is | ⟨is, -⟩
      · subst is
        exact distinct.settled s among _ (State.has_of_top found) (.inl rfl)
      · have := distinct.inside s among
        omega
    · exact distinct.settled s among other old posts

theorem Distinct.queues (distinct : Distinct posted st) (ledger : Ledger st) {s : Nat}
    (found : st.threads[thread]? = some (.queueSend s :: rest))
    (ran : exec st.shared (.queueSend s) choice = some (q, pushed)) :
    Distinct (posted ++ [s]) ⟨q, st.threads.set thread (pushed ++ rest)⟩ := by
  have kept := distinct.run found ran
  have next := ledger.run found (exec_windowing ran)
  have has : st.Has (.queueSend s) := State.has_of_top found
  have new : s ∉ posted := fun among => distinct.settled s among _ has (.inr rfl)
  obtain ⟨-, -, below⟩ := ledger.places.unmarked found rfl
  refine ⟨?_, fun other among => ?_, fun other among frame hasFrame posts => ?_⟩
  · rw [List.nodup_append]
    refine ⟨distinct.nodup, List.pairwise_singleton _ s, ?_⟩
    rintro a old b this rfl
    cases List.mem_singleton.mp this
    exact new old
  · rcases List.mem_append.mp among with old | this
    · exact kept.inside other old
    · cases List.mem_singleton.mp this
      exact Nat.lt_of_lt_of_le below (exec_windowing ran).posted_le
  · rcases List.mem_append.mp among with old | this
    · exact kept.settled other old frame hasFrame posts
    · cases List.mem_singleton.mp this
      obtain ⟨-, rfl⟩ := Prod.mk.inj (Option.some.inj ran)
      -- the entry is with the next section now
      have entry := @State.has_of_pushed _ _ st thread _ (.queueEntry s) rest [.queueEntry s] q found
        (List.mem_singleton_self _)
      have once := next.places.once s
      have weight : entryWeight s (.queueEntry s) = 1 := by simp [entryWeight, entryOf]
      have least := State.weight_le_total (entryWeight s) entry
      unfold entries at once
      have heavy : 0 < entryWeight s frame := by rw [posts.entry]; exact Nat.one_pos
      have same := State.eq_of_total_one (by omega) hasFrame entry heavy
        (Nat.lt_of_lt_of_eq Nat.one_pos weight.symm)
      subst same
      rcases posts with is | is <;> cases is

theorem Distinct.event {event : Event} {code : List Frame} (distinct : Distinct posted st)
    (reacted : react st.shared event = some (q, code)) :
    Distinct posted ⟨q, st.threads ++ [code]⟩ := by
  obtain ⟨same, -, light⟩ := react_light reacted
  refine ⟨distinct.nodup, fun s among => ?_, fun s among frame has posts => ?_⟩
  · rw [same.posted]
    exact distinct.inside s among
  · rcases State.has_of_event has with new | old
    · have none := (light frame new).1
      rcases posts with rfl | rfl <;> cases none
    · exact distinct.settled s among frame old posts

end Distinct

/-! ## Every run -/

/-- What every run with one hand keeps. -/
structure Ordered (posted : List Nat) (st : St) : Prop where
  ledger : Ledger st
  one : OneHand posted st
  distinct : Distinct posted st

theorem ordered_start (knobs : Knobs) (maxSendWr : Nat) : Ordered [] (start knobs maxSendWr) where
  ledger := ledger_start knobs maxSendWr
  one := ⟨[], _, rfl, .parked (fun _ among => by cases among) (Nat.zero_le 1), .refl _⟩
  distinct := ⟨List.nodup_nil, (fun _ among => by cases among), fun _ among => by cases among⟩

theorem Ordered.step {posted : List Nat} {st next : St} {label : Lbl} (ordered : Ordered posted st)
    (inTurn : InTurn st label) (taken : step st label = some next) :
    Ordered (posted ++ (queuedBy st label).toList) next := by
  cases label with
  | event event =>
      obtain ⟨q, code, reacted, rfl⟩ := step_event taken
      rw [queuedBy, Option.toList_none, List.append_nil]
      exact ⟨ordered.ledger.event reacted, ordered.one.event reacted,
        ordered.distinct.event reacted⟩
  | run thread choice =>
      obtain ⟨frame, rest, q, pushed, found, executed, rfl⟩ := step_run taken
      have top := State.top_of_getElem? found
      obtain ⟨takes, delays, alone⟩ := inTurn frame (by rw [top]; rfl)
      rw [found] at delays
      have front : frame.takes st.shared choice <+: st.shared.pendingSends := by
        by_cases none : frame.takes st.shared choice = []
        · rw [none]
          exact List.nil_prefix
        · exact (takes none).2
      refine ⟨ordered.ledger.run found (exec_windowing executed), ordered.one.run found
        (exec_handling executed front alone) (fun some_ => (takes some_).1) delays, ?_⟩
      rw [queuedBy, top]
      cases frame with
      | queueSend s => exact ordered.distinct.queues ordered.ledger found executed
      | _ =>
          show Distinct (posted ++ []) _
          rw [List.append_nil]
          exact ordered.distinct.run found executed

/-- In every run in which all that was taken off the pending list is in one hand, the
completions come in the order in which the sends were posted, each at most once. -/
theorem completions_follow_the_posts (knobs : Knobs) (maxSendWr : Nat) (labels : List Lbl) (st : St)
    (meets : Meets step InTurn labels (start knobs maxSendWr))
    (ran : run step labels (start knobs maxSendWr) = some st) :
    (st.shared.completions.map Prod.fst).Sublist (queued labels (start knobs maxSendWr)) ∧
      (st.shared.completions.map Prod.fst).Nodup := by
  have ordered : Ordered ([] ++ queued labels (start knobs maxSendWr)) st :=
    run_trail_invariant (fun ordered inTurn taken => ordered.step inTurn taken)
      (ordered_start knobs maxSendWr) meets ran
  obtain ⟨past, hand, split, -, pushed⟩ := ordered.one
  have among : (st.shared.completions.map Prod.fst).Sublist
      (queued labels (start knobs maxSendWr)) := by
    rw [List.nil_append, List.append_assoc] at split
    rw [split]
    exact pushed.trans (List.sublist_append_left _ _)
  exact ⟨among, among.nodup ordered.distinct.nodup⟩

def twoOnPath : List Lbl :=
  toRts ++ [(.event (.postSend 100 true) : Lbl)] ++ List.replicate 4 (.run 3 0 : Lbl) ++
    [(.event (.postSend 100 true) : Lbl)] ++ List.replicate 4 (.run 4 0 : Lbl) ++
    [(.event .sqWork : Lbl)] ++ List.replicate 23 (.run 5 0 : Lbl)

/-- The first completion is delayed, and its work has run when the second send is done. -/
def delayedInTurn : List Lbl :=
  twoOnPath ++ [(.event (.appleTxDone 0 0) : Lbl)] ++ List.replicate 4 (.run 6 1 : Lbl) ++
    [(.event (.completeWork 0) : Lbl)] ++ List.replicate 5 (.run 7 0 : Lbl) ++
    [(.event (.appleTxDone 0 0) : Lbl)] ++ List.replicate 8 (.run 8 0 : Lbl)

theorem completions_follow_the_posts_two : ∃ st,
    run step delayedInTurn (start { pipeline := true } 4) = some st ∧
      st.shared.completions = [(0, 0), (1, 0)] ∧
      (st.shared.completions.map Prod.fst).Sublist
        (queued delayedInTurn (start { pipeline := true } 4)) ∧
      (st.shared.completions.map Prod.fst).Nodup := by
  have meets : Meets step InTurn delayedInTurn (start { pipeline := true } 4) :=
    meets_of_isSome (by decide +kernel)
  have found : (run step delayedInTurn (start { pipeline := true } 4)).any
      (fun st => st.shared.completions == [(0, 0), (1, 0)]) = true := by decide +kernel
  obtain ⟨st, ran, is⟩ := (Option.any_eq_true _ _).mp found
  exact ⟨st, ran, eq_of_beq is, completions_follow_the_posts _ 4 delayedInTurn st meets ran⟩

/-- Both completions are delayed, and the second work runs first. -/
def delayedOutOfTurn : List Lbl :=
  twoOnPath ++ [(.event (.appleTxDone 0 0) : Lbl)] ++ List.replicate 4 (.run 6 1 : Lbl) ++
    [(.event (.appleTxDone 0 0) : Lbl)] ++ List.replicate 4 (.run 7 1 : Lbl) ++
    [(.event (.completeWork 1) : Lbl)] ++ List.replicate 5 (.run 8 0 : Lbl) ++
    [(.event (.completeWork 0) : Lbl)] ++ List.replicate 5 (.run 9 0 : Lbl)

theorem delayed_completion_overtaken : ¬ ∀ (knobs : Knobs) (maxSendWr : Nat) (labels : List Lbl)
    (st : St), run step labels (start knobs maxSendWr) = some st →
      (st.shared.completions.map Prod.fst).Sublist (queued labels (start knobs maxSendWr)) ∧
        (st.shared.completions.map Prod.fst).Nodup := by
  intro always
  have found : (run step delayedOutOfTurn (start { pipeline := true } 4)).any
      (fun st => st.shared.completions.map Prod.fst == [1, 0]) = true := by decide +kernel
  have posted : queued delayedOutOfTurn (start { pipeline := true } 4) = [0, 1] := by
    decide +kernel
  obtain ⟨st, ran, is⟩ := (Option.any_eq_true _ _).mp found
  have inOrder := (always _ _ _ st ran).1
  rw [eq_of_beq is, posted] at inOrder
  exact absurd inOrder (by decide)

end Tbv.Sq
