import ThunderboltIbverbs.Recv.Model
import Mathlib.Logic.Relation

/-! # What the receive handlers can do

A handler is a sequence of moves: it notes something, answers a duplicate, passes an
operation, takes a receive off the queue or changes its bookkeeping.  It answers RNR
only with nothing posted, and advertises nothing. -/
set_option autoImplicit false
namespace Tbv.RecvQueue

open Tbv.NativeData Relation

/-- Neither an RNR answer nor a credit frame. -/
def Entry.plain : Entry → Bool
  | .ack _ .rnr _ | .credit _ _ => false
  | _ => true

inductive Move (q : Rx) : Rx → Prop
  | note {entry : Entry} (plain : entry.plain = true) : Move q (q.note entry)
  | rnr (psn : Nat) (empty : q.recvq = [] ∨ q.closing = true) : Move q (q.sendAck psn .rnr)
  | reack (psn : Nat) : Move q (q.reack psn)
  | consume (psn : Nat) {status : SendAckStatus} (settled : status ≠ .rnr) :
      Move q (q.consume psn status)
  | pop {wqe : RecvWqe} {next : Rx} (popped : q.popRecv = some (wqe, next)) : Move q next
  | book (expectedPsn consumed : Nat) (rxMsg : Option RxMessage) (rxWrite : Option RxWrite)
      (reorder : List ReorderMsg) (reorderCount reorderBytes : Nat) (rnr : Option RnrMark) :
      Move q { q with
        expectedPsn := expectedPsn, consumed := consumed, rxMsg := rxMsg, rxWrite := rxWrite
        reorder := reorder, reorderCount := reorderCount, reorderBytes := reorderBytes
        rnr := rnr }

abbrev Moves : Rx → Rx → Prop := ReflTransGen Move

section Moves
variable {q : Rx} {env : Env}

theorem moves_cqPush {entry : Entry} (plain : entry.plain = true) :
    Moves q (q.cqPush env entry) := by
  unfold Rx.cqPush
  split
  · exact .refl
  · exact .single (.note plain)

theorem ackStatus_ne_rnr (status : WcStatus) : ackStatus env status ≠ .rnr := by
  unfold ackStatus
  split <;> simp

theorem plain_ack {psn consumed : Nat} {status : SendAckStatus} (settled : status ≠ .rnr) :
    (Entry.ack psn status consumed).plain = true := by
  cases status with
  | rnr => exact absurd rfl settled
  | _ => rfl

theorem moves_sendAck (psn : Nat) {status : SendAckStatus} (settled : status ≠ .rnr) :
    Moves q (q.sendAck psn status) :=
  .single (.note (plain_ack settled))

theorem moves_completeSend (psn : Nat) (wqe : RecvWqe) (status : WcStatus) (imm : Option Nat)
    (writes : List Write) : Moves q (q.completeSend env psn wqe status imm writes) :=
  ((moves_cqPush (by rfl)).tail (.consume psn (ackStatus_ne_rnr status))).trans
    (moves_sendAck psn (ackStatus_ne_rnr status))

theorem moves_finishSend (m : RxMessage) : Moves q (q.finishSend env m) :=
  .head (.book ..) (moves_completeSend ..)

theorem moves_reorderUnlink (m : ReorderMsg) : Moves q (q.reorderUnlink m) := .single (.book ..)

/-- No receive is taken off an empty queue. -/
theorem popRecv_none (none : q.popRecv = none) : q.recvq = [] ∨ q.closing = true := by
  unfold Rx.popRecv at none
  split at none
  · exact .inl ‹_›
  · split at none
    · exact .inr ‹_›
    · cases none

theorem moves_deliverReorderMsg (m : ReorderMsg) : Moves q (q.deliverReorderMsg env m).1 := by
  unfold Rx.deliverReorderMsg
  split
  · exact .single (.rnr _ (popRecv_none ‹_›))
  · exact .head (.pop ‹_›) ((moves_reorderUnlink m).trans (moves_completeSend ..))

theorem moves_writeFrags (rkey remoteAddr : Nat) (frags : List ReorderFrag) :
    Moves q (q.writeFrags env rkey remoteAddr frags).1 := by
  induction frags generalizing q with
  | nil => exact .refl
  | cons frag rest ih =>
      unfold Rx.writeFrags
      split
      · exact .refl
      · split
        · exact .head (.note rfl) ih
        · exact .refl

theorem moves_writeReorder (m : ReorderMsg) : Moves q (q.writeReorder env m).1 := by
  unfold Rx.writeReorder
  split
  · exact moves_writeFrags ..
  · exact .refl

theorem moves_pushImm (wqe : RecvWqe) (status : WcStatus) (immData : Nat) :
    Moves q (q.pushImm env wqe status immData) :=
  moves_cqPush (by rfl)

theorem moves_passWrite (psn : Nat) {status : SendAckStatus} (settled : status ≠ .rnr) :
    Moves q (q.passWrite psn status) :=
  .head (.consume psn settled) (moves_sendAck psn settled)

theorem moves_deliverReorderWrite (m : ReorderMsg) : Moves q (q.deliverReorderWrite env m).1 := by
  unfold Rx.deliverReorderWrite
  split
  · split
    · exact .single (.rnr _ (popRecv_none ‹_›))
    · exact .head (.pop ‹_›) (((moves_reorderUnlink m).trans (moves_writeReorder m)).trans
        ((moves_pushImm ..).trans (moves_passWrite _ (ackStatus_ne_rnr _))))
  · exact ((moves_reorderUnlink m).trans (moves_writeReorder m)).trans
      (moves_passWrite _ (by split <;> simp))

theorem moves_deliverReorder (m : ReorderMsg) : Moves q (q.deliverReorder env m).1 := by
  unfold Rx.deliverReorder
  split
  · exact moves_deliverReorderWrite m
  · exact .head (.book ..) (.single (.note rfl))
  · exact moves_deliverReorderMsg m

theorem moves_pruneStaleReorder : Moves q q.pruneStaleReorder := by
  unfold Rx.pruneStaleReorder
  generalize q.reorder = messages
  induction messages generalizing q with
  | nil => exact .refl
  | cons m rest ih =>
      refine ReflTransGen.trans ?_ ih
      unfold Rx.pruneOne
      split
      · exact .refl
      · split
        · exact .head (.note rfl) (moves_reorderUnlink m)
        · exact .head (.reack _) (moves_reorderUnlink m)

theorem moves_drainLoop (fuel : Nat) : Moves q (Rx.drainLoop env fuel q) := by
  induction fuel generalizing q with
  | zero => exact .refl
  | succ fuel ih =>
      unfold Rx.drainLoop
      split
      · exact .refl
      split
      · exact moves_pruneStaleReorder
      rename_i m _
      split
      · exact moves_pruneStaleReorder
      · have delivered := moves_pruneStaleReorder.trans (@moves_deliverReorder q.pruneStaleReorder
          env m)
        dsimp only
        split
        · exact delivered.trans ih
        · exact delivered

theorem moves_drainReorder : Moves q (q.drainReorder env) := moves_drainLoop _

theorem moves_storeInto (m : ReorderMsg) (idx offset : Nat) (payload : List UInt8)
    {onError : Rx → StoreError → Rx} (failed : ∀ q err, Moves q (onError q err)) :
    Moves q (q.storeInto env m idx offset payload onError) := by
  unfold Rx.storeInto
  split
  · exact failed ..
  · dsimp only
    split
    · exact .head (.book ..) moves_drainReorder
    · exact .single (.book ..)

theorem moves_bufferInto (fresh : ReorderMsg) (idx offset : Nat) (payload : List UInt8)
    {onError : Rx → StoreError → Rx} (failed : ∀ q err, Moves q (onError q err)) :
    Moves q (q.bufferInto env fresh idx offset payload onError) := by
  unfold Rx.bufferInto
  split
  · split
    · exact moves_sendAck _ (by simp)
    split
    · exact moves_sendAck _ (by simp)
    · exact .head (.book ..) (moves_storeInto _ _ _ _ failed)
  · have dropped : ∀ m psn, Moves q ((q.dropReorderMsg m).sendAck psn .error) :=
      fun m psn => (moves_reorderUnlink m).trans (moves_sendAck _ (by simp))
    split
    · exact dropped ..
    split
    · split
      · exact dropped ..
      split
      · exact moves_drainReorder
      · exact .refl
    · exact moves_storeInto _ _ _ _ failed

theorem moves_bufferFragment (hdr : Header) (psn totalLen offset : Nat) (last : Bool)
    (payload : List UInt8) :
    Moves q (q.bufferFragment env hdr psn totalLen offset last payload) := by
  unfold Rx.bufferFragment
  dsimp only
  split
  · exact .single (.reack psn)
  split
  · exact moves_sendAck _ (by simp)
  split
  · exact moves_sendAck _ (by simp)
  · refine moves_bufferInto _ _ _ _ fun q err => ?_
    split
    · exact .refl
    split
    · exact moves_reorderUnlink _
    · exact (moves_sendAck _ (by simp)).trans (moves_reorderUnlink _)

theorem moves_bufferWriteFragment (hdr : Header) (psn totalLen offset : Nat)
    (last withImm : Bool) (payload : List UInt8) :
    Moves q (q.bufferWriteFragment env hdr psn totalLen offset last withImm payload) := by
  unfold Rx.bufferWriteFragment
  dsimp only
  split
  · exact .single (.reack psn)
  split
  · exact moves_sendAck _ (by simp)
  split
  · exact moves_sendAck _ (by simp)
  · refine moves_bufferInto _ _ _ _ fun q err => ?_
    split
    · exact .refl
    · exact (moves_reorderUnlink _).trans (moves_sendAck _ (by simp))

theorem moves_clearRnr (srcQp psn : Nat) : Moves q (q.clearRnr srcQp psn) := by
  unfold Rx.clearRnr
  split
  · exact .single (.book ..)
  · exact .refl

theorem moves_markRnr (hdr : Header) (psn : Nat) (none : q.popRecv = none) :
    Moves q (q.markRnr hdr psn) := by
  have empty := popRecv_none none
  exact .head (.book q.expectedPsn q.consumed q.rxMsg q.rxWrite q.reorder q.reorderCount
    q.reorderBytes _) (.single (.rnr psn empty))

theorem moves_failActiveSend (m : RxMessage) (psn : Nat) :
    Moves q (q.failActiveSend env m psn) :=
  (moves_finishSend _).trans (moves_sendAck _ (by simp))

theorem moves_stripedFragment (m : RxMessage) (idx : Nat) (hdr : Header) (payload : List UInt8) :
    Moves q (q.stripedFragment env m idx hdr payload) := by
  unfold Rx.stripedFragment
  dsimp only
  generalize (if idx ∈ m.fragSeen then m else _) = m'
  split
  · exact (moves_finishSend _).trans moves_drainReorder
  · exact .single (.book ..)

theorem moves_orderedFragment (m : RxMessage) (copyOffset : Nat) (copyPayload : List UInt8)
    (last : Bool) : Moves q (q.orderedFragment env m copyOffset copyPayload last) := by
  unfold Rx.orderedFragment
  dsimp only
  split
  · exact (moves_finishSend _).trans moves_drainReorder
  · exact .single (.book ..)

theorem moves_handleStriped (hdr : Header) (psn : Nat) (payload : List UInt8) :
    Moves q (q.handleStriped env hdr psn payload) := by
  unfold Rx.handleStriped
  dsimp only
  split
  · exact moves_sendAck _ (by simp)
  split
  · exact .single (.reack psn)
  split
  · exact moves_bufferFragment ..
  split
  · split
    · exact moves_stripedFragment ..
    · exact moves_failActiveSend ..
  · split
    · exact moves_markRnr hdr psn ‹_›
    · exact .head (.pop ‹_›) (moves_stripedFragment ..)

theorem moves_handleOrdered (hdr : Header) (psn : Nat) (payload : List UInt8) :
    Moves q (q.handleOrdered env hdr psn payload) := by
  unfold Rx.handleOrdered
  dsimp only
  split
  · split
    · exact moves_orderedFragment ..
    split
    · exact .single (.reack psn)
    split
    · exact moves_bufferFragment ..
    split
    · split
      · exact .refl
      · exact moves_orderedFragment ..
    split
    · exact .refl
    · exact moves_failActiveSend ..
  · split
    · exact moves_bufferFragment ..
    split
    · exact moves_markRnr hdr psn ‹_›
    · exact .head (.pop ‹_›) (moves_orderedFragment ..)

theorem moves_handleSendFragment (hdr : Header) (payload : List UInt8) :
    Moves q (q.handleSendFragment env hdr payload) := by
  unfold Rx.handleSendFragment
  dsimp only
  split
  · exact moves_sendAck _ (by simp)
  split
  · exact .refl
  split
  · exact (moves_clearRnr ..).trans (moves_handleStriped ..)
  · exact (moves_clearRnr ..).trans (moves_handleOrdered ..)

theorem moves_finishWrite (w : RxWrite) (status : WcStatus) :
    Moves q (q.finishWrite env w status) := by
  have passed : ∀ {q : Rx} {ack : SendAckStatus}, ack ≠ .rnr →
      Moves q (if w.psn ≠ q.expectedPsn then { q with rxWrite := none }.sendAck w.psn .error
        else (({ q with rxWrite := none }.consume w.psn ack).drainReorder env).sendAck w.psn
          ack) := by
    intro q ack settled
    refine .head (.book q.expectedPsn q.consumed q.rxMsg none q.reorder q.reorderCount
      q.reorderBytes q.rnr) ?_
    split
    · exact moves_sendAck _ (by simp)
    · exact .head (.consume _ settled) (moves_drainReorder.trans (moves_sendAck _ settled))
  unfold Rx.finishWrite
  cases w.immWqe with
  | none =>
      have settled : (if status = .success then SendAckStatus.ok else .error) ≠ .rnr := by
        split <;> simp
      exact passed settled
  | some wqe => exact (moves_pushImm ..).trans (passed (ackStatus_ne_rnr _))

theorem moves_writeFragment (w : RxWrite) (copyOffset : Nat) (copyPayload : List UInt8)
    (last : Bool) : Moves q (q.writeFragment env w copyOffset copyPayload last) := by
  unfold Rx.writeFragment
  dsimp only
  split
  · split
    · exact moves_finishWrite ..
    · exact .single (.book ..)
  split
  · exact moves_finishWrite ..
  split
  · exact .head (.note rfl) (moves_finishWrite ..)
  · exact .head (.note rfl) (.single (.book ..))

theorem moves_bufferOrDrop (hdr : Header) (psn : Nat) (payload : List UInt8) :
    Moves q (q.bufferOrDrop env hdr psn payload) := by
  unfold Rx.bufferOrDrop
  split
  · exact .refl
  · exact moves_bufferWriteFragment ..

theorem moves_handleWrite (hdr : Header) (psn : Nat) (payload : List UInt8) :
    Moves q (q.handleWrite env hdr psn payload) := by
  unfold Rx.handleWrite
  dsimp only
  split
  · exact .single (.reack psn)
  split
  · split
    · split
      · exact moves_bufferOrDrop ..
      · exact moves_finishWrite ..
    split
    · split
      · exact .refl
      · exact moves_writeFragment ..
    split
    · exact moves_bufferOrDrop ..
    · exact moves_writeFragment ..
  split
  · exact moves_bufferOrDrop ..
  split
  · exact moves_bufferOrDrop ..
  split
  · split
    · exact moves_sendAck _ (by simp)
    · exact moves_bufferOrDrop ..
  split
  · split
    · exact moves_markRnr hdr psn ‹_›
    · exact .head (.pop ‹_›) (moves_writeFragment ..)
  · exact moves_writeFragment ..

theorem moves_handleRdmaWriteFragment (hdr : Header) (payload : List UInt8) :
    Moves q (q.handleRdmaWriteFragment env hdr payload) := by
  unfold Rx.handleRdmaWriteFragment
  dsimp only
  split
  · exact moves_sendAck _ (by simp)
  split
  · exact .refl
  · exact (moves_clearRnr ..).trans (moves_handleWrite ..)

theorem moves_handleRdmaReadReq (hdr : Header) : Moves q (q.handleRdmaReadReq env hdr) := by
  unfold Rx.handleRdmaReadReq
  dsimp only
  split
  · exact .single (.note rfl)
  split
  · unfold Rx.bufferReadReq
    dsimp only
    split
    · exact .single (.note rfl)
    split
    · exact .single (.note rfl)
    split
    · split
      · exact .single (.note rfl)
      · exact .single (.book ..)
    split
    · exact (moves_reorderUnlink _).tail (.note rfl)
    · exact moves_drainReorder
  · exact .head (.book ..) (moves_drainReorder.tail (.note rfl))

end Moves

/-! ## What a handler leaves of the credits -/

def Rx.Settled (q : Rx) : Prop :=
  ∀ slot psn status, q.ackHistory slot = some (psn, status) → status ≠ .rnr

/-- What the moves of a handler do to receives and credits. -/
structure Serves (q q' : Rx) : Prop where
  closing : q'.closing = q.closing
  destQp : q'.destQp = q.destQp
  settled : q.Settled → q'.Settled
  bound : q.advertised ≤ q.recvq.length → q'.advertised ≤ q'.recvq.length
  owed : q'.advertised < q'.recvq.length → q.advertised < q.recvq.length
  fewer : q'.advertised ≤ q.advertised
  empty : q.recvq = [] → q'.recvq = []
  log : q.Settled → ∃ new, q'.log = q.log ++ new ∧
    ∀ entry ∈ new, entry.plain = false → q'.recvq = [] ∨ q'.closing = true

theorem Serves.refl (q : Rx) : Serves q q :=
  ⟨rfl, rfl, id, id, id, Nat.le_refl _, id, fun _ => ⟨[], by simp, by simp⟩⟩

theorem Serves.trans {q q' q'' : Rx} (first : Serves q q') (second : Serves q' q'') :
    Serves q q'' where
  closing := second.closing.trans first.closing
  destQp := second.destQp.trans first.destQp
  settled := second.settled ∘ first.settled
  bound := second.bound ∘ first.bound
  owed := first.owed ∘ second.owed
  fewer := Nat.le_trans second.fewer first.fewer
  empty := second.empty ∘ first.empty
  log := fun settled => by
    obtain ⟨new, noted, answers⟩ := first.log settled
    obtain ⟨new', noted', answers'⟩ := second.log (first.settled settled)
    refine ⟨new ++ new', by rw [noted', noted, List.append_assoc], fun entry among rnr => ?_⟩
    rcases List.mem_append.mp among with old | late
    · rcases answers entry old rnr with empty | closing
      · exact .inl (second.empty empty)
      · exact .inr (second.closing.trans closing)
    · exact answers' entry late rnr

/-- A change that leaves receives, credits and the acknowledgement history alone. -/
theorem serves_note {q : Rx} {entry : Entry}
    (answers : entry.plain = false → q.recvq = [] ∨ q.closing = true) :
    Serves q (q.note entry) :=
  { Serves.refl q with
    log := fun _ => ⟨[entry], rfl, fun other among rnr => by
      cases List.mem_singleton.mp among
      exact answers rnr⟩ }

theorem Rx.Settled.duplicateStatus {q : Rx} (settled : q.Settled) (psn : Nat) :
    (q.ackHistoryLookup psn).getD .ok ≠ .rnr := by
  unfold Rx.ackHistoryLookup
  split
  · rename_i stored status found
    split
    · exact settled _ _ _ found
    · simp
  · simp

theorem Move.serves {q q' : Rx} (move : Move q q') : Serves q q' := by
  cases move with
  | note plain =>
      refine serves_note fun rnr => ?_
      rw [plain] at rnr
      cases rnr
  | rnr psn empty => exact serves_note fun _ => empty
  | reack psn =>
      refine { Serves.refl q with
        log := fun settled => ⟨_, rfl, fun other among rnr => ?_⟩ }
      cases List.mem_singleton.mp among
      rw [plain_ack (settled.duplicateStatus psn)] at rnr
      cases rnr
  | @consume psn status kept =>
      refine { Serves.refl q with settled := fun settled slot stored other found => ?_ }
      simp only [Rx.consume, Rx.ackHistoryStore, Function.update_apply] at found
      split at found
      · cases found
        exact kept
      · exact settled _ _ _ found
  | @pop wqe next popped =>
      unfold Rx.popRecv at popped
      split at popped
      · cases popped
      rename_i first rest waits
      split at popped
      · cases popped
      cases popped
      have length : q.recvq.length = rest.length + 1 := by rw [waits]; rfl
      refine ⟨rfl, rfl, id, fun bound => ?_, fun owed => ?_, Nat.sub_le _ _, fun none => ?_,
        fun _ => ⟨[], by simp, by simp⟩⟩
      · dsimp only
        omega
      · dsimp only at owed
        omega
      · rw [waits] at none
        cases none
  | book => exact { Serves.refl q with }

theorem Moves.serves {q q' : Rx} (moves : Moves q q') : Serves q q' := by
  induction moves with
  | refl => exact .refl q
  | tail _ move ih => exact ih.trans move.serves

theorem serves_rxFrame {q : Rx} {env : Env} (hdr : Header) (payload : List UInt8) :
    Serves q (q.rxFrame env hdr payload) := by
  have accepted : ∀ credits early total, Serves q
      ({ q with remoteCredits := credits, earlyCreditSrc := early }.note (.accepted total)) := by
    intro credits early total
    exact { Serves.refl q with log := fun _ => ⟨[.accepted total], rfl, by simp [Entry.plain]⟩ }
  unfold Rx.rxFrame
  split
  · split
    · exact .refl q
    unfold Rx.acceptRecvCredit
    dsimp only
    split
    · exact .refl q
    split
    · split
      · exact .refl q
      · split <;> exact accepted ..
    · split
      · exact .refl q
      · split <;> exact accepted ..
  · split
    · exact (moves_handleSendFragment hdr payload).serves
    · exact .refl q
  · split
    · exact (moves_handleSendFragment hdr payload).serves
    · exact .refl q
  · split
    · exact (moves_handleRdmaWriteFragment hdr payload).serves
    · exact .refl q
  · split
    · exact (moves_handleRdmaWriteFragment hdr payload).serves
    · exact .refl q
  · split
    · exact (moves_handleRdmaReadReq hdr).serves
    · exact .refl q
  · exact .refl q

end Tbv.RecvQueue
