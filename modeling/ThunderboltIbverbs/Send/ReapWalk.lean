import Mathlib.Data.List.Induction
import ThunderboltIbverbs.Send.CompletionOrder

/-! # The walk of the reaper over the pending list

`tbv_qp_timeout_reap_tx` runs `list_for_each_entry_safe` over `pending_sends`: the next
entry is read before the body runs.  The body may drain ready sends to `completed_sends`,
the saved entry among them; the walk then follows the links of that list.  Here the links
are read as the code reads them. -/
set_option autoImplicit false
namespace Tbv.SendQueue

open Tbv.NativeData

/-! ## The links -/

/-- What a `list_head` pointer of the loop may point to: the head of one of the two lists,
or the node of a send. -/
inductive Node where
  | pendingSends | completedSends
  | entry (c : Nat)
  deriving DecidableEq, Repr

def successor (c : Nat) : List Nat → Option Nat
  | [] => none
  | d :: rest => if d = c then rest.head? else successor c rest

def Reap.next (r : Reap) : Node → Node
  | .pendingSends => r.qp.pendingSends.head?.elim .pendingSends .entry
  | .completedSends => r.completed.head?.elim .completedSends .entry
  | .entry c =>
      if c ∈ r.qp.pendingSends then (successor c r.qp.pendingSends).elim .pendingSends .entry
      else (successor c r.completed).elim .completedSends .entry

/-- The loop of `tbv_qp_drain_ready_sends_locked` on its two lists. -/
def drainLoop (ready : Nat → Bool) : List Nat → List Nat → List Nat × List Nat
  | [], complete => ([], complete)
  | c :: rest, complete =>
      if ready c then drainLoop ready rest (complete ++ [c]) else (c :: rest, complete)

theorem drainLoop_eq (ready : Nat → Bool) (pending complete : List Nat) :
    drainLoop ready pending complete =
      (pending.dropWhile ready, complete ++ pending.takeWhile ready) := by
  induction pending generalizing complete with
  | nil => simp [drainLoop]
  | cons c rest ih =>
      unfold drainLoop
      split
      · rename_i ready
        rw [ih, List.dropWhile_cons_of_pos ready, List.takeWhile_cons_of_pos ready,
          List.append_assoc, List.singleton_append]
      · rename_i blocked
        rw [List.dropWhile_cons_of_neg blocked, List.takeWhile_cons_of_neg blocked,
          List.append_nil]

/-- The lists after `tbv_qp_drain_ready_sends_locked`, moved one by one. -/
theorem drainReadySends_loop (q : Qp) (complete : List Nat) :
    drainLoop (fun c => (q.ctx c).ready) q.pendingSends complete =
      (q.drainReadySends.pendingSends, complete ++ q.readyPrefix) :=
  drainLoop_eq _ _ _

/-- The loop moves entries from the front of one list to the end of the other. -/
theorem drainLoop_lists (ready : Nat → Bool) (pending complete : List Nat) :
    (drainLoop ready pending complete).2 ++ (drainLoop ready pending complete).1 =
      complete ++ pending := by
  induction pending generalizing complete with
  | nil => rfl
  | cons c rest ih =>
      unfold drainLoop
      split
      · rw [ih, List.append_assoc, List.singleton_append]
      · rfl

/-- A drain loses no entry and changes no order. -/
theorem drained_lists (q : Qp) (complete : List Nat) :
    (complete ++ q.readyPrefix) ++ q.drainReadySends.pendingSends = complete ++ q.pendingSends := by
  have moved := drainLoop_lists (fun c => (q.ctx c).ready) q.pendingSends complete
  rwa [drainReadySends_loop] at moved

/-! ## The loop -/

/-- The body of the loop of `tbv_qp_timeout_reap_tx`, for the send at the cursor. -/
def reapBody (now : Nat) (r : Reap) (c : Nat) : Reap :=
  match reapVerdict r.qp now (r.qp.ctx c) with
  | .skip needResched => { r with needResched := r.needResched || needResched }
  | .retry reason takesCredit =>
      { r with
        qp := (r.qp.spendRecvCredit takesCredit).startRetry c reason
        retry := r.retry ++ [c] }
  | .fail status =>
      { r with
        qp := (r.qp.markReady c status).drainReadySends
        completed := r.completed ++ (r.qp.markReady c status).readyPrefix
        txFailed := true }

/-- The loop between two rounds: `pos` is its cursor, `saved` the entry read ahead. -/
structure Walk where
  reap : Reap
  pos : Node
  saved : Node
  examined : List Nat

/-- One round.  The loop ends at the head of `pending_sends`; at the other head the body
would take a list head for a send, which has no meaning. -/
def Walk.step (now : Nat) (w : Walk) : Option Walk :=
  match w.pos with
  | .entry c =>
      let reap := reapBody now w.reap c
      some { reap, pos := w.saved, saved := reap.next w.saved, examined := w.examined ++ [c] }
  | _ => none

/-- `completed_sends` is an empty list of the caller. -/
def Qp.beginWalk (q : Qp) : Walk :=
  let reap : Reap := { qp := q }
  { reap
    pos := reap.next .pendingSends
    saved := reap.next (reap.next .pendingSends)
    examined := [] }

def Walk.rounds (now : Nat) : Nat → Walk → Option Walk
  | 0, w => some w
  | n + 1, w => (w.rounds now n).bind (Walk.step now)

/-- As long as the saved entry is not drained, a round of the list model is this body. -/
theorem reapSend_eq_body {now : Nat} {r r' : Reap} {c : Nat} {next : Option Nat}
    (reaped : reapSend now r c next = some r') : r' = reapBody now r c := by
  unfold reapSend at reaped
  unfold reapBody
  cases judged : reapVerdict r.qp now (r.qp.ctx c) with
  | skip needResched =>
      rw [judged] at reaped
      exact (Option.some.inj reaped).symm
  | retry reason takesCredit =>
      rw [judged] at reaped
      exact (Option.some.inj reaped).symm
  | fail status =>
      rw [judged] at reaped
      dsimp only at reaped
      split at reaped
      · cases reaped
      · exact (Option.some.inj reaped).symm

/-! ## What the call decides, read off the state before it -/

/-- The receive credits left when the sends before a position have had their turn. -/
def Qp.creditsAfter (q : Qp) (now : Nat) (before : List Nat) : Nat :=
  before.foldl (fun credits c =>
    match reapVerdict { q with remoteRecvCredits := credits } now (q.ctx c) with
    | .retry _ true => credits - 1
    | _ => credits) q.remoteRecvCredits

/-- The verdict on `c` when the sends `before` it have had their turn. -/
def Qp.verdictAfter (q : Qp) (now : Nat) (before : List Nat) (c : Nat) : ReapVerdict :=
  reapVerdict { q with remoteRecvCredits := q.creditsAfter now before } now (q.ctx c)

/-- Every send of a front part of the list is ready, or this call fails it. -/
def Qp.FrontSettled (q : Qp) (now : Nat) (before : List Nat) : Prop :=
  ∀ earlier c later, before = earlier ++ c :: later →
    (q.ctx c).ready = true ∨ ∃ status, q.verdictAfter now earlier c = .fail status

/-- The drain that follows the failure of `c` goes on to the entry behind it. -/
def Qp.StraysAt (q : Qp) (now : Nat) (before : List Nat) (c : Nat) (behind : List Nat) : Prop :=
  q.FrontSettled now before ∧ (∃ status, q.verdictAfter now before c = .fail status) ∧
    ∃ d, behind.head? = some d ∧ (q.ctx d).ready = true

theorem Qp.creditsAfter_snoc (q : Qp) (now : Nat) (before : List Nat) (c : Nat) :
    q.creditsAfter now (before ++ [c]) =
      match q.verdictAfter now before c with
      | .retry _ true => q.creditsAfter now before - 1
      | _ => q.creditsAfter now before := by
  rw [creditsAfter, List.foldl_append]
  rfl

theorem Qp.frontSettled_snoc (q : Qp) (now : Nat) (before : List Nat) (c : Nat) :
    q.FrontSettled now (before ++ [c]) ↔ q.FrontSettled now before ∧
      ((q.ctx c).ready = true ∨ ∃ status, q.verdictAfter now before c = .fail status) := by
  constructor
  · intro settled
    exact ⟨fun earlier d later is => settled earlier d (later ++ [c]) (by rw [is]; simp),
      settled before c [] rfl⟩
  · rintro ⟨settled, own⟩ earlier d later is
    rcases List.eq_nil_or_concat later with rfl | ⟨later, last, rfl⟩
    · obtain ⟨rfl, same⟩ := List.append_inj' is rfl
      rw [← (List.cons.inj same).1]
      exact own
    · have parts : before ++ [c] = (earlier ++ d :: later) ++ [last] := by
        rw [is]
        simp
      exact settled earlier d later (List.append_inj' parts rfl).1

/-- A verdict depends on the QP only through its configuration, its state and its credits. -/
theorem reapVerdict_congr {q q' : Qp} (cfg : q'.cfg = q.cfg) (live : q'.live = q.live)
    (credits : q'.remoteRecvCredits = q.remoteRecvCredits) (now : Nat) (x : SendCtx) :
    reapVerdict q' now x = reapVerdict q now x := by
  unfold reapVerdict
  rw [cfg, live, credits]

theorem reapVerdict_ready {q : Qp} {now : Nat} {x : SendCtx} (ready : x.ready = true) :
    reapVerdict q now x = .skip true := by
  unfold reapVerdict
  rw [if_pos ready]

theorem reapVerdict_unready {q : Qp} {now : Nat} {x : SendCtx} {verdict : ReapVerdict}
    (judged : reapVerdict q now x = verdict) (other : verdict ≠ .skip true) :
    x.ready = false := by
  by_contra ready
  rw [reapVerdict_ready (by simpa using ready)] at judged
  exact other judged.symm

/-! ## One round -/

theorem drainReadySends_ctx (q : Qp) (d : Nat) :
    q.drainReadySends.ctx d =
      if d ∈ q.readyPrefix then (q.ctx d).detached else q.ctx d := rfl

theorem drainReadySends_verdict (q : Qp) (d : Nat) :
    (q.drainReadySends.ctx d).ready = (q.ctx d).ready ∧
      (q.drainReadySends.ctx d).completionStatus = (q.ctx d).completionStatus := by
  rw [drainReadySends_ctx]
  split
  · exact ⟨rfl, rfl⟩
  · exact ⟨rfl, rfl⟩

theorem spendRecvCredit_ctx (q : Qp) (spends : Bool) : (q.spendRecvCredit spends).ctx = q.ctx := by
  unfold Qp.spendRecvCredit
  split <;> rfl

theorem startRetry_ready (q : Qp) (c d : Nat) (reason : PostReason) :
    ((q.startRetry c reason).ctx d).ready = (q.ctx d).ready := by
  by_cases same : d = c
  · rw [same]
    simp [Qp.startRetry, Qp.modCtx]
  · simp [Qp.startRetry, Qp.modCtx, Function.update_of_ne same]

theorem startRetry_ctx_of_ne {q : Qp} {c d : Nat} {reason : PostReason} (other : d ≠ c) :
    (q.startRetry c reason).ctx d = q.ctx d :=
  Function.update_of_ne other _ _

theorem markReady_ctx_of_ne {q : Qp} {c d : Nat} {status : Int} (other : d ≠ c) :
    (q.markReady c status).ctx d = q.ctx d := by
  unfold Qp.markReady
  split
  · rfl
  · exact Function.update_of_ne other _ _

theorem markReady_verdict {q : Qp} {c : Nat} {status : Int} (unready : (q.ctx c).ready = false) :
    ((q.markReady c status).ctx c).ready = true ∧
      ((q.markReady c status).ctx c).completionStatus = status := by
  unfold Qp.markReady
  rw [if_neg (by rw [unready]; decide)]
  simp [Qp.modCtx]

/-- What the body keeps of the QP, whatever it decides. -/
structure SameQueue (q q' : Qp) : Prop where
  cfg : q'.cfg = q.cfg
  live : q'.live = q.live

theorem reapBody_skip {now : Nat} {r : Reap} {c : Nat} {needResched : Bool}
    (judged : reapVerdict r.qp now (r.qp.ctx c) = .skip needResched) :
    reapBody now r c = { r with needResched := r.needResched || needResched } := by
  unfold reapBody
  rw [judged]

theorem reapBody_retry {now : Nat} {r : Reap} {c : Nat} {reason : PostReason}
    {takesCredit : Bool} (judged : reapVerdict r.qp now (r.qp.ctx c) = .retry reason takesCredit) :
    reapBody now r c = { r with
      qp := (r.qp.spendRecvCredit takesCredit).startRetry c reason
      retry := r.retry ++ [c] } := by
  unfold reapBody
  rw [judged]

theorem reapBody_fail {now : Nat} {r : Reap} {c : Nat} {status : Int}
    (judged : reapVerdict r.qp now (r.qp.ctx c) = .fail status) :
    reapBody now r c = { r with
      qp := (r.qp.markReady c status).drainReadySends
      completed := r.completed ++ (r.qp.markReady c status).readyPrefix
      txFailed := true } := by
  unfold reapBody
  rw [judged]

theorem reapBody_same (now : Nat) (r : Reap) (c : Nat) :
    SameQueue r.qp (reapBody now r c).qp := by
  unfold reapBody
  split
  · exact ⟨rfl, rfl⟩
  · dsimp only [Qp.startRetry, Qp.modCtx, Qp.spendRecvCredit]
    split <;> exact ⟨rfl, rfl⟩
  · dsimp only [Qp.drainReadySends, Qp.detach, Qp.markReady]
    split <;> exact ⟨rfl, rfl⟩

/-! ## The walk as long as it stays on the list -/

/-- What the call gave the sends it has examined. -/
def Given (q q' : Qp) (c : Nat) (status : Int) : Prop :=
  (q.ctx c).ready = false ∧ (q'.ctx c).ready = true ∧ (q'.ctx c).completionStatus = status

/-- The walk when it has examined the sends `before` and stands at the head of `rest`: `kept`
of the examined ones are still pending. -/
structure AtRound (q : Qp) (now : Nat) (before rest kept : List Nat) (w : Walk) : Prop where
  split : q.pendingSends = before ++ rest
  examined : w.examined = before
  pos : w.pos = rest.head?.elim .pendingSends .entry
  saved : rest ≠ [] → w.saved = rest.tail.head?.elim .pendingSends .entry
  same : SameQueue q w.reap.qp
  credits : w.reap.qp.remoteRecvCredits = q.creditsAfter now before
  later : ∀ c ∈ rest, w.reap.qp.ctx c = q.ctx c
  pending : w.reap.qp.pendingSends = kept ++ rest
  lists : w.reap.completed ++ w.reap.qp.pendingSends = q.pendingSends
  gone : ∀ c ∈ w.reap.completed, (w.reap.qp.ctx c).ready = true
  settled : q.FrontSettled now before ↔ ∀ c ∈ kept, (w.reap.qp.ctx c).ready = true
  given : ∀ c status, Given q w.reap.qp c status ↔
    ∃ earlier later, before = earlier ++ c :: later ∧ q.verdictAfter now earlier c = .fail status

section
variable {q : Qp} {now : Nat} {before rest kept : List Nat} {w : Walk} {c : Nat}

theorem AtRound.verdict (at_ : AtRound q now before (c :: rest) kept w) :
    reapVerdict w.reap.qp now (w.reap.qp.ctx c) = q.verdictAfter now before c := by
  rw [at_.later c List.mem_cons_self]
  exact reapVerdict_congr (q := { q with remoteRecvCredits := q.creditsAfter now before })
    at_.same.cfg at_.same.live at_.credits now _

theorem successor_append {c : Nat} {front behind : List Nat} (apart : c ∉ front) :
    successor c (front ++ c :: behind) = behind.head? := by
  induction front with
  | nil =>
      rw [List.nil_append, successor, if_pos rfl]
  | cons d front ih =>
      rw [List.mem_cons, not_or] at apart
      rw [List.cons_append, successor, if_neg (Ne.symm apart.1), ih apart.2]

theorem Reap.next_entry {r : Reap} {front behind : List Nat}
    (pending : r.qp.pendingSends = front ++ c :: behind) (apart : c ∉ front) :
    r.next (.entry c) = behind.head?.elim .pendingSends .entry := by
  rw [Reap.next, pending, if_pos (by simp), successor_append apart]

theorem exists_split_snoc {d : Nat} {holds : List Nat → Prop} :
    (∃ earlier later, before ++ [c] = earlier ++ d :: later ∧ holds earlier) ↔
      (∃ earlier later, before = earlier ++ d :: later ∧ holds earlier) ∨ d = c ∧ holds before := by
  constructor
  · rintro ⟨earlier, later, is, here⟩
    rcases List.eq_nil_or_concat later with rfl | ⟨later, last, rfl⟩
    · obtain ⟨rfl, same⟩ := List.append_inj' is rfl
      exact .inr ⟨(List.cons.inj same).1.symm, here⟩
    · have parts : before ++ [c] = (earlier ++ d :: later) ++ [last] := by
        rw [is]
        simp
      exact .inl ⟨earlier, later, (List.append_inj' parts rfl).1, here⟩
  · rintro (⟨earlier, later, rfl, here⟩ | ⟨rfl, here⟩)
    · exact ⟨earlier, later ++ [c], by simp, here⟩
    · exact ⟨before, [], rfl, here⟩

/-- The cursor after a round that left the rest of the list in place. -/
theorem AtRound.advance {reap : Reap} {kept' : List Nat}
    (at_ : AtRound q now before (c :: rest) kept w) (distinct : q.pendingSends.Nodup)
    (same : SameQueue q reap.qp)
    (credits : reap.qp.remoteRecvCredits = q.creditsAfter now (before ++ [c]))
    (later : ∀ d ∈ rest, reap.qp.ctx d = q.ctx d)
    (pending : reap.qp.pendingSends = kept' ++ rest)
    (lists : reap.completed ++ reap.qp.pendingSends = q.pendingSends)
    (gone : ∀ d ∈ reap.completed, (reap.qp.ctx d).ready = true)
    (settled : q.FrontSettled now (before ++ [c]) ↔ ∀ d ∈ kept', (reap.qp.ctx d).ready = true)
    (given : ∀ d status, Given q reap.qp d status ↔
      ∃ earlier later, before ++ [c] = earlier ++ d :: later ∧
        q.verdictAfter now earlier d = .fail status) :
    AtRound q now (before ++ [c]) rest kept'
      { reap, pos := w.saved, saved := reap.next w.saved, examined := w.examined ++ [c] } := by
  have saved : w.saved = rest.head?.elim .pendingSends .entry :=
    at_.saved (List.cons_ne_nil c rest)
  refine ⟨by rw [at_.split]; simp, by rw [at_.examined], saved, fun more => ?_, same, credits,
    later, pending, lists, gone, settled, given⟩
  obtain ⟨d, behind, rfl⟩ := List.exists_cons_of_ne_nil more
  rw [show w.saved = .entry d from saved]
  refine Reap.next_entry pending ?_
  rw [← lists, pending, List.nodup_append] at distinct
  have inner := (List.nodup_append.mp distinct.2.1).2.2
  exact fun among => inner d among d List.mem_cons_self rfl

theorem AtRound.skip {needResched : Bool} (at_ : AtRound q now before (c :: rest) kept w)
    (distinct : q.pendingSends.Nodup) (judged : q.verdictAfter now before c = .skip needResched) :
    AtRound q now (before ++ [c]) rest (kept ++ [c])
      { reap := reapBody now w.reap c, pos := w.saved
        saved := (reapBody now w.reap c).next w.saved, examined := w.examined ++ [c] } := by
  have body := reapBody_skip (at_.verdict.trans judged)
  have quiet (status : Int) : q.verdictAfter now before c ≠ .fail status := by
    rw [judged]
    nofun
  rw [body]
  refine at_.advance distinct at_.same ?_ (fun d among => at_.later d (List.mem_cons_of_mem c among))
    (by rw [List.append_assoc]; exact at_.pending) at_.lists at_.gone ?_ fun d status => ?_
  · rw [Qp.creditsAfter_snoc, judged]
    exact at_.credits
  · rw [Qp.frontSettled_snoc, at_.settled, List.forall_mem_append, List.forall_mem_singleton,
      at_.later c List.mem_cons_self]
    exact and_congr_right fun _ => or_iff_left fun ⟨status, failed⟩ => quiet status failed
  · rw [exists_split_snoc, ← at_.given d status]
    exact (or_iff_left fun ⟨is, failed⟩ => quiet status (is ▸ failed)).symm

theorem AtRound.retry {reason : PostReason} {takesCredit : Bool}
    (at_ : AtRound q now before (c :: rest) kept w) (distinct : q.pendingSends.Nodup)
    (judged : q.verdictAfter now before c = .retry reason takesCredit) :
    AtRound q now (before ++ [c]) rest (kept ++ [c])
      { reap := reapBody now w.reap c, pos := w.saved
        saved := (reapBody now w.reap c).next w.saved, examined := w.examined ++ [c] } := by
  have body := reapBody_retry (at_.verdict.trans judged)
  have same := reapBody_same now w.reap c
  have quiet (status : Int) : q.verdictAfter now before c ≠ .fail status := by
    rw [judged]
    nofun
  have unready : (q.ctx c).ready = false := reapVerdict_unready judged nofun
  have here : w.reap.qp.ctx c = q.ctx c := at_.later c List.mem_cons_self
  rw [body] at same ⊢
  obtain ⟨reap, reapEq⟩ : ∃ reap, reap = { w.reap with
      qp := (w.reap.qp.spendRecvCredit takesCredit).startRetry c reason
      retry := w.reap.retry ++ [c] } := ⟨_, rfl⟩
  have other {d : Nat} (apart : d ≠ c) : reap.qp.ctx d = w.reap.qp.ctx d := by
    rw [reapEq, ← spendRecvCredit_ctx w.reap.qp takesCredit]
    exact startRetry_ctx_of_ne apart
  have verdicts (d : Nat) : (reap.qp.ctx d).ready = (w.reap.qp.ctx d).ready := by
    rw [reapEq, ← spendRecvCredit_ctx w.reap.qp takesCredit]
    exact startRetry_ready _ c d reason
  have own : (reap.qp.ctx c).ready = false := by rw [verdicts, here, unready]
  have lists : reap.qp.pendingSends = w.reap.qp.pendingSends := by
    rw [reapEq]
    show (w.reap.qp.spendRecvCredit takesCredit).pendingSends = _
    unfold Qp.spendRecvCredit
    split <;> rfl
  have apart : ∀ d ∈ rest, d ≠ c := by
    have behind := at_.split ▸ distinct
    have tail := List.nodup_cons.mp (List.nodup_append.mp behind).2.1
    exact fun d among is => tail.1 (is ▸ among)
  rw [← reapEq] at same ⊢
  refine at_.advance distinct ⟨same.cfg.trans at_.same.cfg, same.live.trans at_.same.live⟩ ?_ ?_ ?_
    ?_ ?_ ?_ fun d status => ?_
  · rw [Qp.creditsAfter_snoc, judged, ← at_.credits, reapEq]
    cases takesCredit
    · rfl
    · rfl
  · intro d among
    rw [other (apart d among), at_.later d (List.mem_cons_of_mem c among)]
  · rw [lists, at_.pending, List.append_assoc, List.singleton_append]
  · rw [lists, reapEq]
    exact at_.lists
  · intro d among
    rw [verdicts]
    exact at_.gone d (by rw [reapEq] at among; exact among)
  · rw [Qp.frontSettled_snoc, at_.settled, List.forall_mem_append, List.forall_mem_singleton,
      own, unready]
    simp only [verdicts]
    exact and_congr_right fun _ => or_iff_left fun ⟨status, failed⟩ => quiet status failed
  · rw [exists_split_snoc, ← at_.given d status]
    have same : Given q reap.qp d status ↔ Given q w.reap.qp d status := by
      by_cases eq : d = c
      · rw [Given, Given, eq, own, here, unready]
        simp
      · rw [Given, Given, other eq]
    rw [same]
    exact (or_iff_left fun ⟨is, failed⟩ => quiet status (is ▸ failed)).symm

theorem forall_mem_dropWhile {α : Type} {p : α → Bool} {list : List α} :
    (∀ x ∈ list.dropWhile p, p x = true) ↔ ∀ x ∈ list, p x = true := by
  constructor
  · intro behind x among
    rw [← List.takeWhile_append_dropWhile (p := p) (l := list)] at among
    rcases List.mem_append.mp among with front | rest
    · exact List.mem_takeWhile_imp front
    · exact behind x rest
  · intro all x among
    exact all x ((List.dropWhile_suffix p).subset among)

theorem dropWhile_append_of_head {α : Type} {p : α → Bool} {front rest : List α}
    (stops : (∀ x ∈ front, p x = true) → ∀ x, rest.head? = some x → p x = false) :
    (front ++ rest).dropWhile p = front.dropWhile p ++ rest := by
  rw [List.dropWhile_append]
  split
  · rename_i empty
    have all : ∀ x ∈ front, p x = true := by
      apply forall_mem_dropWhile.mp
      rw [List.isEmpty_iff.mp empty]
      nofun
    rw [List.isEmpty_iff.mp empty, List.nil_append]
    cases rest with
    | nil => rfl
    | cons x rest => exact List.dropWhile_cons_of_neg (by rw [stops all x rfl]; decide)
  · rfl

/-- What the round of a failing send does, wherever the drain stops. -/
theorem AtRound.failing {status : Int} (at_ : AtRound q now before (c :: rest) kept w)
    (judged : q.verdictAfter now before c = .fail status) :
    (reapBody now w.reap c).completed ++ (reapBody now w.reap c).qp.pendingSends =
        q.pendingSends ∧
      (∀ d ∈ (reapBody now w.reap c).completed, ((reapBody now w.reap c).qp.ctx d).ready = true) ∧
      ∀ d given, Given q (reapBody now w.reap c).qp d given ↔
        ∃ earlier later, before ++ [c] = earlier ++ d :: later ∧
          q.verdictAfter now earlier d = .fail given := by
  have body := reapBody_fail (at_.verdict.trans judged)
  have unready : (q.ctx c).ready = false := reapVerdict_unready judged nofun
  have here : w.reap.qp.ctx c = q.ctx c := at_.later c List.mem_cons_self
  obtain ⟨marked, markedEq⟩ : ∃ marked, marked = w.reap.qp.markReady c status := ⟨_, rfl⟩
  rw [body, ← markedEq]
  have own : (marked.ctx c).ready = true ∧ (marked.ctx c).completionStatus = status := by
    rw [markedEq]
    exact markReady_verdict (by rw [here, unready])
  have other {d : Nat} (ne : d ≠ c) : marked.ctx d = w.reap.qp.ctx d := by
    rw [markedEq]
    exact markReady_ctx_of_ne ne
  have verdict (d : Nat) := drainReadySends_verdict marked d
  refine ⟨?_, fun d among => ?_, fun d given => ?_⟩
  · show (w.reap.completed ++ marked.readyPrefix) ++ marked.drainReadySends.pendingSends = _
    rw [drained_lists, markedEq, markReady_pendingSends, at_.lists]
  · show (marked.drainReadySends.ctx d).ready = true
    rw [(verdict d).1]
    rcases List.mem_append.mp among with old | new
    · by_cases eq : d = c
      · rw [eq]
        exact own.1
      · rw [other eq]
        exact at_.gone d old
    · exact ready_of_mem_readyPrefix new
  · rw [exists_split_snoc, ← at_.given d given]
    show (_ ∧ (marked.drainReadySends.ctx d).ready = true ∧
      (marked.drainReadySends.ctx d).completionStatus = given) ↔ _
    rw [(verdict d).1, (verdict d).2]
    by_cases eq : d = c
    · rw [eq, own.1, own.2, unready]
      have before : ¬ Given q w.reap.qp c given := by
        rw [Given, here, unready]
        nofun
      rw [or_iff_right before, judged]
      simp
    · rw [other eq]
      exact (or_iff_left fun failed => eq failed.1).symm

theorem AtRound.fail {status : Int} (at_ : AtRound q now before (c :: rest) kept w)
    (distinct : q.pendingSends.Nodup) (judged : q.verdictAfter now before c = .fail status)
    (straight : ¬ q.StraysAt now before c rest) :
    ∃ kept', AtRound q now (before ++ [c]) rest kept'
      { reap := reapBody now w.reap c, pos := w.saved
        saved := (reapBody now w.reap c).next w.saved, examined := w.examined ++ [c] } := by
  have body := reapBody_fail (at_.verdict.trans judged)
  have same := reapBody_same now w.reap c
  obtain ⟨lists, gone, given⟩ := at_.failing judged
  have here : w.reap.qp.ctx c = q.ctx c := at_.later c List.mem_cons_self
  obtain ⟨marked, markedEq⟩ : ∃ marked, marked = w.reap.qp.markReady c status := ⟨_, rfl⟩
  rw [body, ← markedEq] at same lists gone given ⊢
  have behind := List.nodup_append.mp (at_.split ▸ distinct)
  have apart : ∀ d ∈ rest, d ≠ c := fun d among is =>
    (List.nodup_cons.mp behind.2.1).1 (is ▸ among)
  have own : (marked.ctx c).ready = true := by
    rw [markedEq]
    exact (markReady_verdict (by rw [here, reapVerdict_unready judged nofun])).1
  have other {d : Nat} (ne : d ≠ c) : marked.ctx d = w.reap.qp.ctx d := by
    rw [markedEq]
    exact markReady_ctx_of_ne ne
  have pending : marked.pendingSends = (kept ++ [c]) ++ rest := by
    rw [markedEq, markReady_pendingSends, at_.pending, List.append_assoc, List.singleton_append]
  have settledNow : (∀ d ∈ kept ++ [c], (marked.ctx d).ready = true) ↔
      q.FrontSettled now before := by
    rw [List.forall_mem_append, List.forall_mem_singleton, and_iff_left own, at_.settled]
    refine forall₂_congr fun d among => ?_
    have ne : d ≠ c := by
      rintro rfl
      have both := List.nodup_append.mp (at_.pending ▸ (List.nodup_append.mp
        (at_.lists ▸ distinct)).2.1)
      exact both.2.2 d among d List.mem_cons_self rfl
    rw [other ne]
  -- the drain stops in front of the rest of the list
  have stops : (∀ d ∈ kept ++ [c], (marked.ctx d).ready = true) →
      ∀ d, rest.head? = some d → (marked.ctx d).ready = false := by
    intro all d head
    have among : d ∈ rest := List.mem_of_mem_head? head
    rw [other (apart d among), at_.later d (List.mem_cons_of_mem c among)]
    by_contra ready
    exact straight ⟨settledNow.mp all, ⟨status, judged⟩, d, head, by simpa using ready⟩
  have dropped : marked.drainReadySends.pendingSends =
      (kept ++ [c]).dropWhile (fun d => (marked.ctx d).ready) ++ rest := by
    show marked.pendingSends.dropWhile _ = _
    rw [pending]
    exact dropWhile_append_of_head stops
  refine ⟨_, at_.advance distinct ⟨same.cfg.trans at_.same.cfg, same.live.trans at_.same.live⟩
    ?_ ?_ dropped lists gone ?_ given⟩
  · rw [Qp.creditsAfter_snoc, judged, ← at_.credits]
    show marked.remoteRecvCredits = _
    rw [markedEq]
    unfold Qp.markReady
    split <;> rfl
  · intro d among
    have outside : d ∉ marked.readyPrefix := by
      intro inside
      have apart := (List.nodup_append.mp (lists ▸ distinct)).2.2
      exact apart d (List.mem_append_right _ inside) d
        (by rw [dropped]; exact List.mem_append_right _ among) rfl
    show marked.drainReadySends.ctx d = q.ctx d
    rw [drainReadySends_ctx, if_neg outside, other (apart d among),
      at_.later d (List.mem_cons_of_mem c among)]
  · have ready (d : Nat) : (marked.drainReadySends.ctx d).ready = (marked.ctx d).ready :=
      (drainReadySends_verdict marked d).1
    rw [Qp.frontSettled_snoc, ← settledNow, and_iff_left (.inr ⟨status, judged⟩)]
    simp only [ready]
    exact forall_mem_dropWhile.symm

/-- One round of a walk that does not leave the list. -/
theorem AtRound.step (at_ : AtRound q now before (c :: rest) kept w)
    (distinct : q.pendingSends.Nodup) (straight : ¬ q.StraysAt now before c rest) :
    ∃ kept' w', w.step now = some w' ∧ AtRound q now (before ++ [c]) rest kept' w' := by
  have ran : w.step now = some
      { reap := reapBody now w.reap c, pos := w.saved
        saved := (reapBody now w.reap c).next w.saved, examined := w.examined ++ [c] } := by
    rw [Walk.step, at_.pos]
    rfl
  cases judged : q.verdictAfter now before c with
  | skip needResched => exact ⟨_, _, ran, at_.skip distinct judged⟩
  | retry reason takesCredit => exact ⟨_, _, ran, at_.retry distinct judged⟩
  | fail status =>
      obtain ⟨kept', after⟩ := at_.fail distinct judged straight
      exact ⟨kept', _, ran, after⟩

theorem atRound_begin (q : Qp) (now : Nat) : AtRound q now [] q.pendingSends [] q.beginWalk where
  split := rfl
  examined := rfl
  pos := rfl
  saved := by
    intro some
    obtain ⟨c, rest, listEq⟩ := List.exists_cons_of_ne_nil some
    have first : ({ qp := q } : Reap).next .pendingSends = .entry c := by
      rw [Reap.next, listEq]
      rfl
    show ({ qp := q } : Reap).next (({ qp := q } : Reap).next .pendingSends) = _
    rw [first, @Reap.next_entry c { qp := q } [] rest listEq List.not_mem_nil, listEq]
    rfl
  same := ⟨rfl, rfl⟩
  credits := rfl
  later := fun _ _ => rfl
  pending := rfl
  lists := rfl
  gone := nofun
  settled := iff_of_true (fun earlier c later is => by simp at is) nofun
  given := fun c status => by
    refine iff_of_false (fun given => ?_) fun ⟨earlier, later, is, _⟩ => by simp at is
    have unready := given.1
    rw [show (q.ctx c).ready = true from given.2.1] at unready
    cases unready

/-- Where the walk strays, the drain takes the entry behind along. -/
theorem AtRound.stray_prefix (at_ : AtRound q now before (c :: rest) kept w)
    (strays : q.StraysAt now before c rest) :
    ∃ status d, q.verdictAfter now before c = .fail status ∧ rest.head? = some d ∧
      d ∈ (w.reap.qp.markReady c status).readyPrefix := by
  obtain ⟨settled, ⟨status, judged⟩, d, head, ready⟩ := strays
  refine ⟨status, d, judged, head, ?_⟩
  obtain ⟨marked, markedEq⟩ : ∃ marked, marked = w.reap.qp.markReady c status := ⟨_, rfl⟩
  rw [← markedEq]
  have unready : (q.ctx c).ready = false := reapVerdict_unready judged nofun
  have here : w.reap.qp.ctx c = q.ctx c := at_.later c List.mem_cons_self
  have pending : marked.pendingSends = (kept ++ [c]) ++ rest := by
    rw [markedEq, markReady_pendingSends, at_.pending, List.append_assoc, List.singleton_append]
  have stays {e : Nat} (was : (w.reap.qp.ctx e).ready = true) : (marked.ctx e).ready = true := by
    have apart : e ≠ c := by
      rintro rfl
      rw [here, unready] at was
      cases was
    rw [markedEq, markReady_ctx_of_ne apart]
    exact was
  have front : ∀ e ∈ kept ++ [c], (marked.ctx e).ready = true := by
    intro e among
    rcases List.mem_append.mp among with old | new
    · exact stays (at_.settled.mp settled e old)
    · rw [List.mem_singleton.mp new, markedEq]
      exact (markReady_verdict (by rw [here, unready])).1
  obtain ⟨behind, rfl⟩ : ∃ behind, rest = d :: behind := by
    cases rest with
    | nil => cases head
    | cons e behind => exact ⟨behind, by rw [Option.some.inj head]⟩
  have next : (marked.ctx d).ready = true := by
    apply stays
    rw [at_.later d (by simp), ready]
  show d ∈ marked.pendingSends.takeWhile _
  have goesOn : (d :: behind).takeWhile (fun e => (marked.ctx e).ready) =
      d :: behind.takeWhile fun e => (marked.ctx e).ready := List.takeWhile_cons_of_pos next
  rw [pending, List.takeWhile_append_of_pos front, goesOn]
  simp

/-- Where the walk strays it goes on to an entry that has just left the list. -/
theorem AtRound.stray (at_ : AtRound q now before (c :: rest) kept w)
    (distinct : q.pendingSends.Nodup) (strays : q.StraysAt now before c rest) :
    ∃ d w', w.step now = some w' ∧ w'.pos = .entry d ∧ d ∈ w'.reap.completed ∧
      d ∉ w'.reap.qp.pendingSends := by
  obtain ⟨status, d, judged, head, inPrefix⟩ := at_.stray_prefix strays
  have body := reapBody_fail (at_.verdict.trans judged)
  obtain ⟨marked, markedEq⟩ : ∃ marked, marked = w.reap.qp.markReady c status := ⟨_, rfl⟩
  rw [← markedEq] at body inPrefix
  have lists : (w.reap.completed ++ marked.readyPrefix) ++ marked.drainReadySends.pendingSends =
      q.pendingSends := by
    rw [drained_lists, markedEq, markReady_pendingSends, at_.lists]
  have moved : d ∈ w.reap.completed ++ marked.readyPrefix := List.mem_append_right _ inPrefix
  refine ⟨d, { reap := reapBody now w.reap c, pos := w.saved
               saved := (reapBody now w.reap c).next w.saved, examined := w.examined ++ [c] },
    ?_, ?_, ?_, ?_⟩
  · rw [Walk.step, at_.pos]
    rfl
  · rw [at_.saved (List.cons_ne_nil c _), List.tail_cons, head]
    rfl
  · rw [body]
    exact moved
  · rw [body]
    exact fun among => (List.nodup_append.mp (lists ▸ distinct)).2.2 d moved d among rfl

/-- Where the walk strays the list model stops. -/
theorem AtRound.stray_reapSend (at_ : AtRound q now before (c :: rest) kept w)
    (strays : q.StraysAt now before c rest) : reapSend now w.reap c rest.head? = none := by
  obtain ⟨status, d, judged, head, inPrefix⟩ := at_.stray_prefix strays
  unfold reapSend
  rw [at_.verdict, judged]
  dsimp only
  rw [if_pos (by simpa [head] using inPrefix)]

/-- A walk that did not stray among the sends `before` has examined exactly these. -/
theorem rounds_atRound (now : Nat) (distinct : q.pendingSends.Nodup) :
    ∀ {rest : List Nat}, q.pendingSends = before ++ rest →
      (∀ earlier c later, before = earlier ++ c :: later →
        ¬ q.StraysAt now earlier c (later ++ rest)) →
      ∃ kept w, q.beginWalk.rounds now before.length = some w ∧
        AtRound q now before rest kept w := by
  induction before using List.reverseRecOn with
  | nil =>
      intro rest split _
      obtain rfl : q.pendingSends = rest := split
      exact ⟨[], q.beginWalk, rfl, atRound_begin q now⟩
  | append_singleton earlier c ih =>
      intro rest split straight
      have whole : q.pendingSends = earlier ++ c :: rest := by
        rw [split]
        simp
      obtain ⟨kept, w, ran, at_⟩ := ih whole fun front d later is => by
        have inner := straight front d (later ++ [c]) (by rw [is]; simp)
        rwa [List.append_assoc, List.singleton_append] at inner
      obtain ⟨kept', w', stepped, after⟩ := at_.step distinct (straight earlier c [] rfl)
      refine ⟨kept', w', ?_, after⟩
      rw [List.length_append, List.length_singleton, Walk.rounds, ran]
      exact stepped

/-! ## What the loop is for -/

/-- What one round does to the two lists: nothing, or the longest ready prefix is moved. -/
def Drained (r r' : Reap) : Prop :=
  ∃ moved, r'.completed = r.completed ++ moved ∧
    r.qp.pendingSends = moved ++ r'.qp.pendingSends ∧
    (moved ≠ [] → moved = r.qp.pendingSends.takeWhile fun c => (r'.qp.ctx c).ready)

theorem reapBody_drained (now : Nat) (r : Reap) (c : Nat) : Drained r (reapBody now r c) := by
  cases judged : reapVerdict r.qp now (r.qp.ctx c) with
  | skip needResched =>
      rw [reapBody_skip judged]
      exact ⟨[], (List.append_nil _).symm, rfl, fun some => absurd rfl some⟩
  | retry reason takesCredit =>
      rw [reapBody_retry judged]
      refine ⟨[], (List.append_nil _).symm, ?_, fun some => absurd rfl some⟩
      show r.qp.pendingSends = (r.qp.spendRecvCredit takesCredit).pendingSends
      unfold Qp.spendRecvCredit
      split <;> rfl
  | fail status =>
      rw [reapBody_fail judged]
      obtain ⟨marked, markedEq⟩ : ∃ marked, marked = r.qp.markReady c status := ⟨_, rfl⟩
      have pending : marked.pendingSends = r.qp.pendingSends := by
        rw [markedEq, markReady_pendingSends]
      rw [← markedEq]
      refine ⟨marked.readyPrefix, rfl, ?_, fun _ => ?_⟩
      · rw [← pending]
        exact (drained_lists marked []).symm
      · rw [← pending]
        show _ = marked.pendingSends.takeWhile fun d => (marked.drainReadySends.ctx d).ready
        simp only [drainReadySends_verdict]
        rfl

/-- The loop ends, examines only entries that are on `pending_sends` at that moment, each at
most once, and takes nothing off the list but ready prefixes, in list order. -/
def WalksSafely (now : Nat) (q : Qp) : Prop :=
  ∃ n last, q.beginWalk.rounds now n = some last ∧ last.pos = .pendingSends ∧
    last.examined.Nodup ∧
    last.reap.completed ++ last.reap.qp.pendingSends = q.pendingSends ∧
    ∀ m w, m < n → q.beginWalk.rounds now m = some w →
      ∃ c w', w.pos = .entry c ∧ c ∈ w.reap.qp.pendingSends ∧ w.step now = some w' ∧
        Drained w.reap w'.reap

/-- No entry that the call fails, with only ready or failing ones before it, is directly
followed by one that is ready already. -/
def NoReadyBehindFailed (now : Nat) (q : Qp) : Prop :=
  ∀ before c behind, q.pendingSends = before ++ c :: behind →
    ¬ q.StraysAt now before c behind

theorem walksSafely_of_noReadyBehindFailed (distinct : q.pendingSends.Nodup)
    (straight : NoReadyBehindFailed now q) : WalksSafely now q := by
  have reach {before rest : List Nat} (split : q.pendingSends = before ++ rest) :=
    rounds_atRound now distinct split fun earlier c later is =>
      straight earlier c (later ++ rest) (by rw [split, is]; simp)
  obtain ⟨kept, last, ran, at_⟩ := reach (List.append_nil _).symm
  refine ⟨_, last, ran, at_.pos, ?_, at_.lists, fun m w short found => ?_⟩
  · rw [at_.examined]
    exact distinct
  · have split : q.pendingSends = q.pendingSends.take m ++
        q.pendingSends[m] :: q.pendingSends.drop (m + 1) := by
      rw [← List.drop_eq_getElem_cons short, List.take_append_drop]
    obtain ⟨kept, w', ran, at_⟩ := reach split
    rw [List.length_take, Nat.min_eq_left (Nat.le_of_lt short), found] at ran
    obtain rfl := Option.some.inj ran
    refine ⟨q.pendingSends[m], _, at_.pos, ?_, by rw [Walk.step, at_.pos]; rfl,
      reapBody_drained now _ _⟩
    rw [at_.pending]
    exact List.mem_append_right _ List.mem_cons_self

theorem noReadyBehindFailed_of_walksSafely (distinct : q.pendingSends.Nodup)
    (safe : WalksSafely now q) : NoReadyBehindFailed now q := by
  obtain ⟨n, last, ran, ended, _, _, onList⟩ := safe
  have all : ∀ size before c behind, before.length = size →
      q.pendingSends = before ++ c :: behind → ¬ q.StraysAt now before c behind := by
    intro size
    induction size using Nat.strongRecOn with
    | ind size ih =>
        intro before c behind sized split strays
        have straight : ∀ earlier d later, before = earlier ++ d :: later →
            ¬ q.StraysAt now earlier d (later ++ c :: behind) := by
          intro earlier d later is
          refine ih earlier.length ?_ earlier d _ rfl (by rw [split, is]; simp)
          rw [← sized, is]
          simp
        obtain ⟨kept, w, reached, at_⟩ := rounds_atRound now distinct split straight
        -- the walk has not ended before it comes to `c`
        have longer : before.length < n := by
          by_contra shorter
          have inner : q.pendingSends = before.take n ++ (before.drop n ++ c :: behind) := by
            rw [← List.append_assoc, List.take_append_drop, split]
          obtain ⟨_, w, reached, at_⟩ := rounds_atRound now distinct inner
            fun earlier d later is => by
              have parts := straight earlier d (later ++ before.drop n)
                (by rw [← List.cons_append, ← List.append_assoc, ← is, List.take_append_drop])
              rwa [List.append_assoc] at parts
          rw [List.length_take, Nat.min_eq_left (by omega), ran] at reached
          obtain rfl := Option.some.inj reached
          have pos := at_.pos
          rw [ended] at pos
          cases dropped : before.drop n with
          | nil =>
              rw [dropped] at pos
              cases pos
          | cons d later =>
              rw [dropped] at pos
              cases pos
        obtain ⟨d, w', stepped, pos, _, gone⟩ := at_.stray distinct strays
        have after : q.beginWalk.rounds now (before.length + 1) = some w' := by
          rw [Walk.rounds, reached]
          exact stepped
        rcases Nat.lt_or_ge (before.length + 1) n with more | atEnd
        · obtain ⟨e, _, posAgain, among, _⟩ := onList _ w' more after
          rw [pos] at posAgain
          rw [← Node.entry.inj posAgain] at among
          exact gone among
        · have same : n = before.length + 1 := by omega
          rw [same, after] at ran
          rw [← Option.some.inj ran, pos] at ended
          cases ended
  exact fun before c behind split => all _ before c behind rfl split

/-- Where the list model goes through, the walk stays on the list and ends with its result. -/
theorem AtRound.reapSends {r : Reap} (at_ : AtRound q now before rest kept w)
    (distinct : q.pendingSends.Nodup) (ran : q.beginWalk.rounds now before.length = some w)
    (reaped : reapSends now rest w.reap = some r) :
    (∀ earlier c later, rest = earlier ++ c :: later →
      ¬ q.StraysAt now (before ++ earlier) c later) ∧
    ∃ last, q.beginWalk.rounds now q.pendingSends.length = some last ∧
      last.pos = .pendingSends ∧ last.reap = r := by
  induction rest generalizing before kept w with
  | nil =>
      refine ⟨fun earlier c later is => by simp at is, w, ?_, at_.pos, Option.some.inj reaped⟩
      rw [at_.split, List.append_nil]
      exact ran
  | cons c rest ih =>
      obtain ⟨r', first, reapedLater⟩ := Option.bind_eq_some_iff.mp reaped
      have straight : ¬ q.StraysAt now before c rest := fun strays => by
        rw [at_.stray_reapSend strays] at first
        cases first
      obtain ⟨kept', w', stepped, after⟩ := at_.step distinct straight
      have body : w'.reap = r' := by
        rw [Walk.step, at_.pos] at stepped
        cases stepped
        exact (reapSend_eq_body first).symm
      have next : q.beginWalk.rounds now (before ++ [c]).length = some w' := by
        rw [List.length_append, List.length_singleton, Walk.rounds, ran]
        exact stepped
      obtain ⟨later, ends⟩ := ih after next (body ▸ reapedLater)
      refine ⟨fun earlier d behind is => ?_, ends⟩
      cases earlier with
      | nil =>
          obtain ⟨rfl, rfl⟩ := List.cons.inj is
          rwa [List.append_nil]
      | cons e earlier =>
          obtain ⟨rfl, split⟩ := List.cons.inj is
          rw [← List.singleton_append, ← List.append_assoc]
          exact later earlier d behind split

/-- What the timeout worker takes for the result of the loop is the result of the walk. -/
theorem walk_of_reapSends {r : Reap} (distinct : q.pendingSends.Nodup)
    (reaped : reapSends now q.pendingSends { qp := q } = some r) :
    NoReadyBehindFailed now q ∧ ∃ last, q.beginWalk.rounds now q.pendingSends.length = some last ∧
      last.pos = .pendingSends ∧ last.reap = r := by
  obtain ⟨straight, ends⟩ := (atRound_begin q now).reapSends distinct rfl reaped
  exact ⟨fun before c behind split => straight before c behind split, ends⟩

end

/-- The walk of the reaper is safe exactly when no entry that the call fails, with only ready
or failing ones before it, has a ready one directly behind it. -/
theorem reap_walk_safe_iff (now : Nat) (q : Qp) (distinct : q.pendingSends.Nodup) :
    WalksSafely now q ↔ NoReadyBehindFailed now q :=
  ⟨noReadyBehindFailed_of_walksSafely distinct, walksSafely_of_noReadyBehindFailed distinct⟩

/-- Two RC sends, the second one acknowledged; then the first one is due. -/
def secondAcked : List Lbl :=
  postTwo ++ [(.event (.txRetired 0 false 0) : Lbl), .run 2 .ok, .event (.txRetired 1 false 0),
    .run 3 .ok, .event (.ack 0 .ok), .run 4 .ok, .run 4 .ok, .event .tick]

/-- The send that times out takes its acknowledged successor along, and the walk with it. -/
theorem reap_walk_strays : ∃ st : St,
    Trans.Reaches step (fun _ _ => True) (start { rcConfig with retryCnt := 0 } fun _ => 7) st ∧
    st.shared.timeoutArmed = true ∧ st.shared.pendingSends = [0, 1] ∧
    ¬ WalksSafely st.shared.jiffies st.shared := by
  have ran : (Trans.guarded step (fun _ _ => True) secondAcked
      (start { rcConfig with retryCnt := 0 } fun _ => 7)).any (fun st =>
        st.shared.timeoutArmed && decide (st.shared.pendingSends = [0, 1]) &&
        decide (st.shared.verdictAfter st.shared.jiffies [] 0 = .fail etimedout) &&
        (st.shared.ctx 1).ready) = true := by
    decide +kernel
  obtain ⟨st, reached, found⟩ := Trans.exists_reaches_of_guarded ran
  simp only [Bool.and_eq_true, decide_eq_true_eq] at found
  obtain ⟨⟨⟨armed, pending⟩, failed⟩, ready⟩ := found
  refine ⟨st, reached, armed, pending, fun safe => ?_⟩
  have distinct : st.shared.pendingSends.Nodup := by
    rw [pending]
    decide
  refine noReadyBehindFailed_of_walksSafely distinct safe [] 0 [1] pending
    ⟨fun earlier c later is => ?_, ⟨etimedout, failed⟩, 1, rfl, ready⟩
  simp at is

/-- Four RC sends; the frames of the last two come back a tick later, and the last one is
acknowledged. -/
def fourPosted : List Lbl :=
  postTwo ++ [(.event (.postSend oneByteSend) : Lbl)] ++ runs 2 postTaken ++
  [(.event (.postSend oneByteSend) : Lbl)] ++ runs 3 postTaken ++
  [(.event (.txRetired 0 false 0) : Lbl), .run 4 .ok, .event (.txRetired 1 false 0), .run 5 .ok,
    .event .tick, .event (.txRetired 2 false 0), .run 7 .ok, .event (.txRetired 3 false 0),
    .run 8 .ok, .event (.ack 2 .ok), .run 9 .ok, .run 9 .ok]

/-- The first two sends time out and are drained one after the other; the third one is not yet
due and the fourth one, which is ready, waits behind it. -/
theorem reap_walk_safe_fourPosted : ∃ st : St,
    Trans.Reaches step (fun _ _ => True) (start { rcConfig with retryCnt := 0 } fun _ => 7) st ∧
    st.shared.timeoutArmed = true ∧ st.shared.pendingSends = [0, 1, 2, 3] ∧
    (st.shared.ctx 3).ready = true ∧ WalksSafely st.shared.jiffies st.shared ∧
    ∃ last, st.shared.beginWalk.rounds st.shared.jiffies 4 = some last ∧
      last.reap.completed = [0, 1] ∧ last.reap.qp.pendingSends = [2, 3] := by
  have ran : (Trans.guarded step (fun _ _ => True) fourPosted
      (start { rcConfig with retryCnt := 0 } fun _ => 7)).any (fun st =>
        st.shared.timeoutArmed && decide (st.shared.pendingSends = [0, 1, 2, 3]) &&
        (st.shared.ctx 3).ready &&
        (reapSends st.shared.jiffies st.shared.pendingSends { qp := st.shared }).any fun r =>
          decide (r.completed = [0, 1]) && decide (r.qp.pendingSends = [2, 3])) = true := by
    decide +kernel
  obtain ⟨st, reached, found⟩ := Trans.exists_reaches_of_guarded ran
  simp only [Bool.and_eq_true, decide_eq_true_eq, Option.any_eq_true] at found
  obtain ⟨⟨⟨armed, pending⟩, ready⟩, r, reaped, completed, left⟩ := found
  have distinct : st.shared.pendingSends.Nodup := by
    rw [pending]
    decide
  obtain ⟨straight, last, ends, -, same⟩ := walk_of_reapSends distinct reaped
  rw [pending] at ends
  exact ⟨st, reached, armed, pending, ready,
    (reap_walk_safe_iff st.shared.jiffies st.shared distinct).mpr straight, last, ends,
    same ▸ completed, same ▸ left⟩

end Tbv.SendQueue
