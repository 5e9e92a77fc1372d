import ThunderboltIbverbs.Recv.Acts

/-! # The reaper of the receive side

`tbv_qp_timeout_reap_rx` and `tbv_qp_mark_error`, with the steps of a native QP.  What has
expired is given from outside.  An error of the reaper is marked after `rx_lock` has been
released, so it is a step of its own, which may also come from elsewhere. -/
set_option autoImplicit false
namespace Tbv.RecvQueue

open Tbv.NativeData

/-- What `tbv_qp_entry_expired` says of the active message, the active write and an entry. -/
structure Expiry where
  message : Bool
  write : Bool
  entry : ReorderMsg → Bool

/-- `tbv_rx_fail_active_send`. -/
def Rx.failMessage (q : Rx) (env : Env) (status : WcStatus) : Rx :=
  match q.rxMsg with
  | some m => q.finishSend env { m with status := status }
  | none => q

/-- `tbv_rx_fail_active_write_locked`. -/
def Rx.failWrite (q : Rx) (env : Env) (status : WcStatus) : Rx :=
  match q.rxWrite with
  | some w => q.finishWrite env w status
  | none => q

def Rx.reapMessage (q : Rx) (env : Env) (expired : Bool) : Rx :=
  if expired then q.failMessage env .generalErr else q

def Rx.reapWrite (q : Rx) (env : Env) (expired : Bool) : Rx :=
  if expired then q.failWrite env .generalErr else q

/-- The loop over the expected entry; every round takes it off the list. -/
def Rx.reapLoop (env : Env) (expired : ReorderMsg → Bool) : Nat → Rx → Rx
  | 0, q => q
  | fuel + 1, q =>
      match q.reorderFind q.expectedPsn with
      | none => q
      | some m =>
          if expired m = false then q
          else
            let q := (q.dropReorderMsg m).consume m.psn .error
            let q := if m.kind = .readReq then q.note (.readStatus m.psn) else q
            reapLoop env expired fuel (q.drainReorder env)

/-- `tbv_qp_timeout_reap_rx`, under `rx_lock`. -/
def Rx.timeoutReap (q : Rx) (env : Env) (expiry : Expiry) : Rx :=
  let q := (q.reapMessage env expiry.message).reapWrite env expiry.write
  Rx.reapLoop env expiry.entry (q.reorder.length + 1) q

/-- The reaper calls `tbv_qp_mark_error` afterwards. -/
def Rx.reapsFatally (q : Rx) (env : Env) (expiry : Expiry) : Bool :=
  (q.rxMsg.isSome && expiry.message) ||
    ((q.reapMessage env expiry.message).rxWrite.isSome && expiry.write)

def Rx.markError (q : Rx) (env : Env) : Rx :=
  if q.closing ∨ q.state = .err then q else { q with state := .err }.flushError env

inductive Happening where
  | input (input : Input)
  | reap (expiry : Expiry)
  | markError
  | modify (attrs : Attrs)

def Rx.happen (q : Rx) (env : Env) : Happening → Rx
  | .input input => q.step env input
  | .reap expiry => q.timeoutReap env expiry
  | .markError => q.markError env
  | .modify attrs => (q.modify env attrs).getD q

/-- A step of a QP; every step can be taken in every state. -/
def rxStep (q : Rx) (label : Env × Happening) : Option Rx := some (q.happen label.1 label.2)

section Does
variable {env : Env} {apart : Prop} {q : Rx}

theorem does_failMessage (status : WcStatus) : Does env apart none q (q.failMessage env status) := by
  unfold Rx.failMessage
  split
  · rename_i m active
    have here := Rx.assembles_of_active active
    exact does_finishSend { m with status := status } here
  · exact .refl

theorem failMessage_idle (status : WcStatus) : (q.failMessage env status).rxMsg = none := by
  unfold Rx.failMessage
  split
  · unfold Rx.finishSend Rx.completeSend Rx.cqPush
    dsimp only
    split <;> rfl
  · assumption

/-- No write of the expected PSN is assembled beside a message. -/
def Rx.Single (q : Rx) : Prop :=
  ∀ w, q.rxWrite = some w → w.psn = q.expectedPsn → q.rxMsg = none

theorem single_of_idle (idle : q.rxMsg = none) : q.Single := fun _ _ _ => idle

theorem does_failWrite (status : WcStatus) (single : apart → q.Single) :
    Does env apart none q (q.failWrite env status) := by
  unfold Rx.failWrite
  split
  · rename_i w active
    exact does_finishWrite w _ fun is => single is w active
  · exact .refl

theorem does_reapMessage (expired : Bool) : Does env apart none q (q.reapMessage env expired) := by
  unfold Rx.reapMessage
  split
  · exact does_failMessage _
  · exact .refl

theorem does_reapWrite (expired : Bool) (single : apart → q.Single) :
    Does env apart none q (q.reapWrite env expired) := by
  unfold Rx.reapWrite
  split
  · exact does_failWrite _ single
  · exact .refl

theorem does_reapLoop (expired : ReorderMsg → Bool) (fuel : Nat) :
    Does env apart none q (Rx.reapLoop env expired fuel q) := by
  induction fuel generalizing q with
  | zero => exact .refl
  | succ fuel ih =>
      unfold Rx.reapLoop
      split
      · exact .refl
      rename_i m found
      split
      · exact .refl
      · have expires := (@Act.expire env apart none q m found rfl).does
        dsimp only
        split
        · exact ((expires.trans (does_note rfl)).trans does_drainReorder).trans ih
        · exact (expires.trans does_drainReorder).trans ih

theorem flushRecvWqes_same : ∃ log, q.flushRecvWqes env =
    { q with recvq := [], advertised := q.advertised - q.recvq.length, log } := by
  unfold Rx.flushRecvWqes
  generalize q.recvq = wqes
  suffices each : ∀ q : Rx, ∃ log, wqes.foldl
      (fun q wqe => q.cqPush env (.recv wqe .wrFlushErr none [])) q = { q with log } from each _
  intro q
  induction wqes generalizing q with
  | nil => exact ⟨q.log, rfl⟩
  | cons wqe rest ih =>
      obtain ⟨log, is⟩ := ih (q.cqPush env (.recv wqe .wrFlushErr none []))
      refine ⟨log, ?_⟩
      rw [List.foldl_cons, is]
      unfold Rx.cqPush
      split <;> rfl

theorem does_flushRecvWqes : Does env apart none q (q.flushRecvWqes env) := by
  have emptied := (@Act.aside env apart none q [] (q.advertised - q.recvq.length) q.remoteCredits
    q.earlyCreditSrc q.posted).does
  refine emptied.trans ?_
  unfold Rx.flushRecvWqes
  generalize q.recvq = wqes
  suffices each : ∀ q : Rx, Does env apart none q (wqes.foldl
      (fun q wqe => q.cqPush env (.recv wqe .wrFlushErr none [])) q) from each _
  intro q
  induction wqes generalizing q with
  | nil => exact .refl
  | cons wqe rest ih =>
      refine Does.trans ?_ (ih _)
      unfold Rx.cqPush
      split
      · exact .refl
      · exact does_note rfl

theorem does_timeoutReap (expiry : Expiry) (single : apart → q.Single) :
    Does env apart none q (q.timeoutReap env expiry) := by
  refine ((does_reapMessage _).trans (does_reapWrite _ fun is => ?_)).trans (does_reapLoop _ _)
  unfold Rx.reapMessage
  split
  · exact single_of_idle (failMessage_idle _)
  · exact single is

/-- A flush ends the message and the write, and then empties the lists. -/
theorem does_flushError : Does env apart none q (q.flushError env) := by
  have message := @does_failMessage env apart q .wrFlushErr
  have write := @does_failWrite env apart (q.failMessage env .wrFlushErr) .wrFlushErr
    fun _ => single_of_idle (failMessage_idle _)
  exact ((message.trans write).trans Act.flush.does).trans does_flushRecvWqes

theorem does_markError : Does env apart none q (q.markError env) := by
  unfold Rx.markError
  split
  · exact .refl
  · exact Act.fail.does.trans does_flushError

end Does

end Tbv.RecvQueue
