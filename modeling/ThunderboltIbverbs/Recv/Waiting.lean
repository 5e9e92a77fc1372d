import ThunderboltIbverbs.Recv.Verdicts

/-! # Buffered messages and posted buffers

When a handler of a native QP leaves a complete message at the expected PSN behind a posted
buffer.  A drain ends with none; what else ends an operation drains afterwards, but for two ways
out of the handlers. -/
set_option autoImplicit false
namespace Tbv.RecvQueue

open Trans
open Tbv.NativeData

/-- The delivery takes a receive WQE. -/
def ReorderMsg.needsWqe (m : ReorderMsg) : Bool := m.kind == .send || m.kind == .write && m.withImm

/-- Nothing is assembled, and the expected message is complete and could have a posted buffer. -/
def Rx.Waiting (q : Rx) : Prop :=
  q.rxMsg = none ∧ q.rxWrite = none ∧ q.recvq ≠ [] ∧
    ∃ m, q.reorderFind q.expectedPsn = some m ∧ m.complete = true ∧ m.needsWqe = true

/-- The later state waits only if the former did. -/
def Eases (q next : Rx) : Prop := next.Waiting → q.Waiting

section Constant
variable {env : Env} {apart : Prop} {owed : Option Nat} {q next : Rx}

theorem Pass.closing {psn : Nat} {passage : Passage} (passes : Pass env apart q psn passage next) :
    next.closing = q.closing := by
  obtain ⟨log, rxMsg, ackHistory, rfl⟩ := passes.same
  rfl

theorem Act.closing {out : Option Passed} (act : Act env apart owed q out next) :
    next.closing = q.closing := by
  cases act with
  | prune =>
      obtain ⟨reorder, reorderCount, reorderBytes, log, pruned⟩ := @pruneStaleReorder_same q
      rw [pruned]
  | pass passes => exact passes.closing
  | _ => rfl

theorem Does.closing (does : Does env apart owed q next) : next.closing = q.closing :=
  does.keeps (R := fun q next => next.closing = q.closing) (fun _ => rfl)
    (fun one two => two.trans one) Act.closing Pass.closing fun _ _ _ => rfl

theorem Does.bounded (does : Does env apart owed q next) : q.Bounded → next.Bounded :=
  does.keeps (R := fun q next => q.Bounded → next.Bounded) (fun _ => id)
    (fun one two => two ∘ one) Act.bounded (fun passes _ => passes.bounded) fun _ _ _ => id

end Constant

section Drain
variable {env : Env} {q next : Rx}

theorem Eases.trans {mid : Rx} (one : Eases q mid) (two : Eases mid next) : Eases q next := one ∘ two

theorem eases_of_settled (settled : ¬ next.Waiting) : Eases q next := fun waits =>
  absurd waits settled

theorem length_pruned (messages : List ReorderMsg) :
    (messages.foldl Rx.pruneOne q).reorder.length ≤ q.reorder.length := by
  induction messages generalizing q with
  | nil => exact Nat.le_refl _
  | cons m rest ih =>
      refine ih.trans ?_
      unfold Rx.pruneOne
      split
      · exact Nat.le_refl _
      split
      · exact List.length_filter_le ..
      · exact List.length_filter_le ..

theorem popRecv_empty (openQp : q.closing = false) (nothing : q.popRecv = none) : q.recvq = [] :=
  (popRecv_none nothing).resolve_right (by simp [openQp])

/-- A delivery takes the message off the list, or finds no buffer. -/
theorem deliverReorder_ends {m : ReorderMsg} (openQp : q.closing = false) :
    ((q.deliverReorder env m).2 = true ∧ (q.deliverReorder env m).1.reorder =
      q.reorder.filter fun other => other.psn != m.psn) ∨
    ((q.deliverReorder env m).2 = false ∧ (q.deliverReorder env m).1.recvq = []) := by
  have kept : ∀ {wqe : RecvWqe} {left : Rx}, q.popRecv = some (wqe, left) →
      (left.reorderUnlink m).reorder = q.reorder.filter fun other => other.psn != m.psn :=
    fun popped => by
      rw [popRecv_same popped]
      rfl
  unfold Rx.deliverReorder
  split
  · unfold Rx.deliverReorderWrite
    split
    · split
      · rename_i nothing
        have empty := popRecv_empty openQp nothing
        exact .inr ⟨rfl, empty⟩
      · rename_i wqe left popped
        obtain ⟨log, written⟩ := @writeReorder_same env (left.reorderUnlink m) m
        refine .inl ⟨rfl, ?_⟩
        dsimp only
        obtain ⟨log', pushed⟩ := @pushImm_same env ((left.reorderUnlink m).writeReorder env m).1 wqe
          ((left.reorderUnlink m).writeReorder env m).2 m.immData
        rw [pushed, written]
        exact kept popped
    · obtain ⟨log, written⟩ := @writeReorder_same env (q.reorderUnlink m) m
      refine .inl ⟨rfl, ?_⟩
      dsimp only
      rw [written]
      rfl
  · exact .inl ⟨rfl, rfl⟩
  · unfold Rx.deliverReorderMsg
    split
    · rename_i nothing
      have empty := popRecv_empty openQp nothing
      exact .inr ⟨rfl, empty⟩
    · rename_i wqe left popped
      refine .inl ⟨rfl, ?_⟩
      dsimp only
      unfold Rx.completeSend
      obtain ⟨log, pushed⟩ := @cqPush_same env (left.reorderUnlink m) (.recv wqe
        (if (copyFrags env wqe m.frags).1 = false then .locProtErr
          else if wqe.length < m.totalLen then .locLenErr else .success)
        (immOf m.withImm m.immData) (copyFrags env wqe m.frags).2)
      dsimp only
      rw [pushed]
      exact kept popped

theorem length_unlinked {m : ReorderMsg} (among : m ∈ q.reorder) :
    (q.reorder.filter fun other => other.psn != m.psn).length < q.reorder.length := by
  refine List.length_filter_lt_length_iff_exists.mpr ⟨m, among, ?_⟩
  simp

/-- A drain ends with no message that waits behind a buffer. -/
theorem settled_drainLoop (fuel : Nat) (enough : q.reorder.length < fuel)
    (openQp : q.closing = false) : ¬ (Rx.drainLoop env fuel q).Waiting := by
  induction fuel generalizing q with
  | zero => omega
  | succ fuel ih =>
      obtain ⟨reorder, reorderCount, reorderBytes, log, pruned⟩ := @pruneStaleReorder_same q
      have expected : q.pruneStaleReorder.expectedPsn = q.expectedPsn := by rw [pruned]
      have stillOpen : q.pruneStaleReorder.closing = false := by
        rw [pruned]
        exact openQp
      unfold Rx.drainLoop
      split
      · rename_i busy
        rintro ⟨message, write, -⟩
        simp [message, write] at busy
      rename_i idle
      split
      · rename_i missing
        rintro ⟨-, -, -, m, found, -⟩
        rw [expected, missing] at found
        cases found
      rename_i m found
      split
      · rename_i incomplete
        rintro ⟨-, -, -, other, also, complete, -⟩
        rw [expected, found] at also
        cases also
        rw [incomplete] at complete
        cases complete
      · have among := reorderFind_mem found
        have shorter := @length_unlinked q.pruneStaleReorder m among
        have before : q.pruneStaleReorder.reorder.length ≤ q.reorder.length := length_pruned _
        have free : q.pruneStaleReorder.rxMsg = none := by
          rw [pruned]
          simp only [Bool.or_eq_true, Option.isSome_iff_ne_none, not_or, not_not] at idle
          exact idle.1
        rw [← expected] at found
        have closing := (@does_deliverReorder env False none _ _ found free nofun).closing
        dsimp only
        rcases @deliverReorder_ends env q.pruneStaleReorder m stillOpen with
          ⟨delivered, left⟩ | ⟨refused, empty⟩
        · rw [if_pos delivered]
          refine ih ?_ (closing.trans stillOpen)
          rw [left]
          omega
        · rw [if_neg (by simp [refused])]
          rintro ⟨-, -, posted, -⟩
          exact posted empty

theorem settled_drainReorder (openQp : q.closing = false) : ¬ (q.drainReorder env).Waiting :=
  settled_drainLoop _ (Nat.lt_succ_self _) openQp

theorem eases_drain {other : Rx} (openQp : q.closing = false) : Eases other (q.drainReorder env) :=
  eases_of_settled (settled_drainReorder openQp)

end Drain

/-! ## What the handlers do -/

section Handlers
variable {env : Env} {q next : Rx} {hdr : Header} {psn : Nat} {payload : List UInt8}

theorem eases_sendAck (status : SendAckStatus) : Eases q (q.sendAck psn status) := id

theorem eases_note (entry : Entry) : Eases q (q.note entry) := id

theorem eases_drained {other : Rx} (status : SendAckStatus) (openQp : q.closing = false) :
    Eases other ((q.drainReorder env).sendAck psn status) :=
  (eases_drain openQp).trans (eases_sendAck _)

theorem eases_message (m : RxMessage) : Eases q { q with rxMsg := some m } := by
  rintro ⟨idle, -⟩
  cases idle

theorem eases_write (w : RxWrite) : Eases q { q with rxWrite := some w } := by
  rintro ⟨-, idle, -⟩
  cases idle

theorem eases_pop {wqe : RecvWqe} (popped : q.popRecv = some (wqe, next)) : Eases q next := by
  have posted : q.recvq ≠ [] := by
    intro empty
    unfold Rx.popRecv at popped
    rw [empty] at popped
    cases popped
  rw [popRecv_same popped]
  rintro ⟨message, write, -, found⟩
  exact ⟨message, write, posted, found⟩

/-- Dropping a message brings no other one to the front. -/
theorem eases_unlink (m : ReorderMsg) : Eases q (q.reorderUnlink m) := by
  rintro ⟨message, write, posted, other, found, ready⟩
  refine ⟨message, write, posted, other, ?_, ready⟩
  have differs : q.expectedPsn ≠ m.psn := by
    intro same
    rw [show (q.reorderUnlink m).expectedPsn = q.expectedPsn from rfl, same,
      reorderFind_unlink rfl] at found
    cases found
  change (q.reorder.filter fun other => other.psn != m.psn).find? (·.psn == q.expectedPsn) =
    some other at found
  rw [List.find?_filter] at found
  rw [← found]
  unfold Rx.reorderFind
  congr 1
  funext other
  by_cases here : other.psn = q.expectedPsn
  · simp [here, differs]
  · simp [here]

theorem eases_dropAck (m : ReorderMsg) (status : SendAckStatus) :
    Eases q ((q.dropReorderMsg m).sendAck psn status) := (eases_unlink m).trans (eases_sendAck _)

theorem eases_add {m : ReorderMsg} (idle : m.complete = false ∨ m.needsWqe = false) :
    Eases q (q.reorderAdd m) := by
  rintro ⟨message, write, posted, other, found, ready⟩
  change (q.reorder ++ [m]).find? (·.psn == q.expectedPsn) = some other at found
  rw [List.find?_append] at found
  cases before : q.reorder.find? (·.psn == q.expectedPsn) with
  | some old =>
      rw [before] at found
      cases found
      exact ⟨message, write, posted, other, before, ready⟩
  | none =>
      rw [before, Option.none_or] at found
      have same : m = other := (List.mem_singleton.mp (List.mem_of_find?_eq_some found)).symm
      subst same
      rcases idle with incomplete | needless
      · rw [incomplete] at ready
        cases ready.1
      · rw [needless] at ready
        cases ready.2

theorem eases_set {m : ReorderMsg} (incomplete : m.complete = false) (reorderBytes : Nat) :
    Eases q ({ q with reorderBytes }.reorderSet m) := by
  rintro ⟨message, write, posted, other, found, ready⟩
  refine ⟨message, write, posted, other, ?_, ready⟩
  change (q.reorder.map fun other => if other.psn = m.psn then m else other).find?
    (·.psn == q.expectedPsn) = some other at found
  rw [List.find?_map] at found
  have same : ((·.psn == q.expectedPsn) ∘ fun other : ReorderMsg =>
      if other.psn = m.psn then m else other) = (·.psn == q.expectedPsn) := by
    funext other
    by_cases here : other.psn = m.psn
    · simp [here]
    · simp [here]
  rw [same] at found
  obtain ⟨old, was, is⟩ := Option.map_eq_some_iff.mp found
  split at is
  · rw [← is, incomplete] at ready
    cases ready.1
  · rw [← is]
    exact was

theorem eases_storeInto {m : ReorderMsg} (idx offset : Nat) {onError : Rx → StoreError → Rx}
    (openQp : q.closing = false) (failed : ∀ q err, Eases q (onError q err)) :
    Eases q (q.storeInto env m idx offset payload onError) := by
  unfold Rx.storeInto
  split
  · exact failed q _
  · rename_i stored held fits
    dsimp only
    split
    · exact eases_drain openQp
    · rename_i incomplete
      exact eases_set (Bool.not_eq_true _ ▸ incomplete) held

theorem eases_bufferInto {fresh : ReorderMsg} (idx offset : Nat) {onError : Rx → StoreError → Rx}
    (openQp : q.closing = false) (incomplete : fresh.complete = false)
    (failed : ∀ q err, Eases q (onError q err)) :
    Eases q (q.bufferInto env fresh idx offset payload onError) := by
  unfold Rx.bufferInto
  split
  · split
    · exact id
    split
    · exact id
    · exact (eases_add (.inl incomplete)).trans
        (@eases_storeInto env (q.reorderAdd fresh) payload fresh idx offset onError openQp failed)
  · rename_i m found
    split
    · exact eases_dropAck m _
    split
    · split
      · exact eases_dropAck m _
      split
      · exact eases_drain openQp
      · exact id
    · exact eases_storeInto _ _ openQp failed

theorem eases_bufferFragment (totalLen offset : Nat) (last : Bool) (openQp : q.closing = false) :
    Eases q (q.bufferFragment env hdr psn totalLen offset last payload) := by
  unfold Rx.bufferFragment
  dsimp only
  split
  · exact id
  split
  · exact id
  split
  · exact id
  · refine eases_bufferInto _ _ openQp rfl fun q err => ?_
    split
    · exact id
    split
    · exact eases_unlink _
    · exact (eases_sendAck _).trans (eases_unlink _)

theorem eases_bufferWriteFragment (totalLen offset : Nat) (last withImm : Bool)
    (openQp : q.closing = false) :
    Eases q (q.bufferWriteFragment env hdr psn totalLen offset last withImm payload) := by
  unfold Rx.bufferWriteFragment
  dsimp only
  split
  · exact id
  split
  · exact id
  split
  · exact id
  · refine eases_bufferInto _ _ openQp rfl fun q err => ?_
    split
    · exact id
    · exact eases_dropAck _ _

theorem eases_assembled {m : RxMessage} (done : Bool) (openQp : q.closing = false)
    (here : q.Assembles m.psn) :
    Eases q (if done then (q.finishSend env m).drainReorder env else { q with rxMsg := some m }) := by
  split
  · exact eases_drain ((@does_finishSend env False q m here).closing.trans openQp)
  · exact eases_message m

theorem eases_stripedFragment {m : RxMessage} (idx : Nat) (openQp : q.closing = false)
    (here : q.Assembles m.psn) : Eases q (q.stripedFragment env m idx hdr payload) := by
  unfold Rx.stripedFragment
  dsimp only
  generalize added : (if idx ∈ m.fragSeen then m else _) = m'
  have psn : m'.psn = m.psn := by
    rw [← added]
    split
    · rfl
    · exact copy_psn ..
  rw [← psn] at here
  simpa using eases_assembled (m'.fragsReceived = m'.fragCount) openQp here

theorem eases_orderedFragment {m : RxMessage} (copyOffset : Nat) (copyPayload : List UInt8)
    (last : Bool) (openQp : q.closing = false) (here : q.Assembles m.psn) :
    Eases q (q.orderedFragment env m copyOffset copyPayload last) := by
  unfold Rx.orderedFragment
  dsimp only
  refine eases_assembled last openQp ?_
  simpa using here

theorem eases_first {wqe : RecvWqe} {count : Nat} (popped : q.popRecv = some (wqe, next))
    (openQp : q.closing = false) (idle : q.rxMsg = none) (here : psn = q.expectedPsn) :
    Eases q next ∧ next.closing = false ∧ next.Assembles (newMessage hdr psn wqe count).psn := by
  refine ⟨eases_pop popped, ?_, ?_⟩
  · rw [popRecv_same popped]
    exact openQp
  · rw [popRecv_same popped]
    exact .inr ⟨idle, here⟩

/-- A fragment with the expected PSN belongs to another message than the one that is assembled. -/
def Rx.Contradicted (q : Rx) (hdr : Header) (psn : Nat) : Prop :=
  psnDelta psn q.expectedPsn = 0 ∧ ∃ m, q.rxMsg = some m ∧
    if q.cfg.striping then
      ∃ idx count, rxFragmentShape hdr.immData hdr.fragOffset hdr.length
        (hasFlag hdr.flags fLast) = some (idx, count) ∧
          (m.sameMessage hdr psn && m.fragCount == count) = false
    else m.sameMessage hdr psn = false

theorem eases_handleStriped (openQp : q.closing = false) (small : psn < psnMod) (bounded : q.Bounded)
    (striping : q.cfg.striping = true) (agrees : ¬ q.Contradicted hdr psn) :
    Eases q (q.handleStriped env hdr psn payload) := by
  unfold Rx.handleStriped
  dsimp only
  split
  · exact id
  rename_i idx count shape
  split
  · exact id
  rename_i notPast
  split
  · exact eases_bufferFragment _ _ _ openQp
  rename_i here
  rw [not_or] at here
  have now : psnDelta psn q.expectedPsn = 0 := by omega
  split
  · rename_i m active
    split
    · exact eases_stripedFragment _ openQp (Rx.assembles_of_active active)
    · rename_i other
      refine absurd ⟨now, m, active, ?_⟩ agrees
      rw [if_pos striping]
      exact ⟨idx, count, shape, Bool.not_eq_true _ ▸ other⟩
  · rename_i idle
    split
    · exact id
    · rename_i wqe next popped
      obtain ⟨pops, stillOpen, assembles⟩ := @eases_first q next hdr psn wqe count popped openQp idle
        (eq_of_psnDelta small bounded now)
      exact pops.trans (eases_stripedFragment _ stillOpen assembles)

theorem eases_handleOrdered (openQp : q.closing = false) (ordered : q.cfg.striping = false)
    (agrees : ¬ q.Contradicted hdr psn) : Eases q (q.handleOrdered env hdr psn payload) := by
  unfold Rx.handleOrdered
  dsimp only
  split
  · rename_i m active
    have here := Rx.assembles_of_active active
    split
    · exact eases_orderedFragment _ _ _ openQp here
    split
    · exact id
    rename_i notPast
    split
    · exact eases_bufferFragment _ _ _ openQp
    rename_i notLater
    split
    · split
      · exact id
      · exact eases_orderedFragment _ _ _ openQp here
    rename_i notBehind
    split
    · exact id
    rename_i notAhead differs
    refine absurd ⟨by omega, m, active, ?_⟩ agrees
    rw [if_neg (by simp [ordered])]
    rw [Bool.eq_false_iff]
    intro same
    simp only [same, Bool.true_and, beq_iff_eq, decide_eq_true_eq] at differs notBehind notAhead
    omega
  · rename_i idle
    split
    · exact eases_bufferFragment _ _ _ openQp
    rename_i here
    simp only [Bool.or_eq_true, bne_iff_ne, not_or, not_not] at here
    split
    · exact id
    · rename_i wqe next popped
      obtain ⟨pops, stillOpen, assembles⟩ := @eases_first q next hdr psn wqe 0 popped openQp idle
        here.1.2
      exact pops.trans (eases_orderedFragment _ _ _ stillOpen assembles)

theorem eases_handleSendFragment (openQp : q.closing = false) (bounded : q.Bounded)
    (agrees : sendBadHeader hdr = false → ¬ q.Contradicted hdr (hdr.psn % psnMod)) :
    Eases q (q.handleSendFragment env hdr payload) := by
  obtain ⟨rnr, cleared⟩ := @clearRnr_same q hdr.srcQp (hdr.psn % psnMod)
  unfold Rx.handleSendFragment
  dsimp only
  split
  · exact id
  rename_i accepted
  have agrees := agrees (Bool.not_eq_true _ ▸ accepted)
  split
  · exact id
  rw [cleared]
  split
  · rename_i striping
    exact @eases_handleStriped env { q with rnr } hdr _ payload openQp (mod_psnMod_lt _) bounded
      striping agrees
  · rename_i ordered
    exact @eases_handleOrdered env { q with rnr } hdr _ payload openQp
      (Bool.not_eq_true _ ▸ ordered) agrees

/-- The end of the expected write is followed by a drain. -/
theorem eases_finishWrite (w : RxWrite) (status : WcStatus) (openQp : q.closing = false)
    (here : w.psn = q.expectedPsn) : Eases q (q.finishWrite env w status) := by
  unfold Rx.finishWrite
  cases w.immWqe with
  | none =>
      dsimp only
      rw [if_neg (not_not.mpr here)]
      exact eases_drained _ openQp
  | some wqe =>
      obtain ⟨log, pushed⟩ := @pushImm_same env q wqe status w.immData
      dsimp only
      rw [pushed]
      dsimp only
      rw [if_neg (not_not.mpr here)]
      exact eases_drained _ openQp

theorem eases_writeFragment (w : RxWrite) (copyOffset : Nat) (copyPayload : List UInt8)
    (last : Bool) (openQp : q.closing = false) (here : w.psn = q.expectedPsn) :
    Eases q (q.writeFragment env w copyOffset copyPayload last) := by
  unfold Rx.writeFragment
  dsimp only
  split
  · split
    · exact eases_finishWrite _ _ openQp here
    · exact eases_write w
  split
  · exact eases_finishWrite _ _ openQp here
  split
  · exact @eases_finishWrite env (q.note (.wrote w.rkey (w.remoteAddr + copyOffset) copyPayload))
      { w with received := copyOffset + copyPayload.length } _ openQp here
  · exact eases_write _

theorem eases_bufferOrDrop (openQp : q.closing = false) :
    Eases q (q.bufferOrDrop env hdr psn payload) := by
  unfold Rx.bufferOrDrop
  split
  · exact id
  · exact eases_bufferWriteFragment _ _ _ _ openQp

theorem eases_handleWrite (openQp : q.closing = false)
    (aligned : ∀ w, q.rxWrite = some w → w.psn = q.expectedPsn) :
    Eases q (q.handleWrite env hdr psn payload) := by
  unfold Rx.handleWrite
  dsimp only
  split
  · exact id
  split
  · rename_i w active
    have here := aligned w active
    split
    · split
      · exact eases_bufferOrDrop openQp
      · exact eases_finishWrite _ _ openQp here
    split
    · split
      · exact id
      · exact eases_writeFragment _ _ _ _ openQp here
    split
    · exact eases_bufferOrDrop openQp
    · exact eases_writeFragment _ _ _ _ openQp here
  split
  · exact eases_bufferOrDrop openQp
  rename_i here
  have here : psn = q.expectedPsn := not_not.mp here
  split
  · exact eases_bufferOrDrop openQp
  split
  · split
    · exact id
    · exact eases_bufferOrDrop openQp
  split
  · split
    · exact id
    · rename_i wqe next popped
      have same := popRecv_same popped
      refine (eases_pop popped).trans (eases_writeFragment _ _ _ _ ?_ ?_)
      · rw [same]
        exact openQp
      · rw [same]
        exact here
  · exact eases_writeFragment _ _ _ _ openQp here

theorem eases_handleRdmaWriteFragment (openQp : q.closing = false)
    (aligned : ∀ w, q.rxWrite = some w → w.psn = q.expectedPsn) :
    Eases q (q.handleRdmaWriteFragment env hdr payload) := by
  obtain ⟨rnr, cleared⟩ := @clearRnr_same q hdr.srcQp (hdr.psn % psnMod)
  unfold Rx.handleRdmaWriteFragment
  dsimp only
  split
  · exact id
  split
  · exact id
  rw [cleared]
  exact @eases_handleWrite env { q with rnr } hdr _ payload openQp aligned

theorem eases_bufferReadReq (openQp : q.closing = false) : Eases q (q.bufferReadReq env hdr psn) := by
  unfold Rx.bufferReadReq
  dsimp only
  split
  · exact id
  split
  · exact id
  split
  · split
    · exact id
    · exact eases_add (.inr rfl)
  · split
    · exact (eases_unlink _).trans (eases_note _)
    · exact eases_drain openQp

theorem eases_handleRdmaReadReq (openQp : q.closing = false) :
    Eases q (q.handleRdmaReadReq env hdr) := by
  unfold Rx.handleRdmaReadReq
  dsimp only
  split
  · exact id
  split
  · exact eases_bufferReadReq openQp
  · have settled := @settled_drainReorder env
      { q with expectedPsn := psnNext (hdr.psn % psnMod), consumed := q.consumed + 1 } openQp
    exact eases_of_settled settled

theorem eases_acceptRecvCredit : Eases q (q.acceptRecvCredit hdr) := by
  unfold Rx.acceptRecvCredit
  dsimp only
  by_cases fits : q.remoteCredits + hdr.immData < 2 ^ 32
  all_goals
    simp only [fits, if_true, if_false]
    repeat' split
    all_goals exact id

/-- A frame ends an operation without a drain: a SEND fragment contradicts the message that is
assembled, or a WRITE fragment meets a write that is not the expected operation. -/
def Rx.EndsAside (q : Rx) (hdr : Header) : Prop :=
  match hdr.opcode with
  | .send | .sendImm => sendBadHeader hdr = false ∧ q.Contradicted hdr (hdr.psn % psnMod)
  | .rdmaWrite | .rdmaWriteImm => ∃ w, q.rxWrite = some w ∧ w.psn ≠ q.expectedPsn
  | _ => False

theorem eases_rxFrame (openQp : q.closing = false) (bounded : q.Bounded)
    (ends : ¬ q.EndsAside hdr) : Eases q (q.rxFrame env hdr payload) := by
  unfold Rx.EndsAside at ends
  have sends (is : ¬ (sendBadHeader hdr = false ∧ q.Contradicted hdr (hdr.psn % psnMod))) :
      Eases q (if q.validEndpoint hdr then q.handleSendFragment env hdr payload else q) := by
    split
    · exact eases_handleSendFragment openQp bounded fun accepted contradicted =>
        is ⟨accepted, contradicted⟩
    · exact id
  have writes (is : ¬ ∃ w, q.rxWrite = some w ∧ w.psn ≠ q.expectedPsn) :
      Eases q (if q.validEndpoint hdr then q.handleRdmaWriteFragment env hdr payload else q) := by
    split
    · exact eases_handleRdmaWriteFragment openQp fun w active => not_not.mp fun other =>
        is ⟨w, active, other⟩
    · exact id
  unfold Rx.rxFrame
  split
  all_goals rename_i opcode
  · split
    · exact id
    · exact eases_acceptRecvCredit
  · exact sends (by simpa [opcode] using ends)
  · exact sends (by simpa [opcode] using ends)
  · exact writes (by simpa [opcode] using ends)
  · exact writes (by simpa [opcode] using ends)
  · split
    · exact eases_handleRdmaReadReq openQp
    · exact id
  · exact id

/-! ## What the reaper does -/

theorem eases_reapLoop (expired : ReorderMsg → Bool) (fuel : Nat) (openQp : q.closing = false) :
    Eases q (Rx.reapLoop env expired fuel q) := by
  induction fuel generalizing q with
  | zero => exact id
  | succ fuel ih =>
      have goesOn : ∀ mid : Rx, mid.closing = false →
          Eases q (Rx.reapLoop env expired fuel (mid.drainReorder env)) := fun mid openMid =>
        (eases_drain openMid).trans
          (ih ((@does_drainReorder env False mid).closing.trans openMid))
      unfold Rx.reapLoop
      split
      · exact id
      split
      · exact id
      dsimp only
      split
      · exact goesOn _ openQp
      · exact goesOn _ openQp

theorem eases_timeoutReap {expiry : Expiry} (openQp : q.closing = false)
    (harmless : q.reapsFatally env expiry = false) : Eases q (q.timeoutReap env expiry) := by
  unfold Rx.reapsFatally at harmless
  rw [Bool.or_eq_false_iff] at harmless
  obtain ⟨message, write⟩ := harmless
  have sameMessage : q.reapMessage env expiry.message = q := by
    unfold Rx.reapMessage Rx.failMessage
    split
    · rename_i expired
      cases active : q.rxMsg with
      | none => rfl
      | some m => simp [active, expired] at message
    · rfl
  have sameWrite : q.reapWrite env expiry.write = q := by
    rw [sameMessage] at write
    unfold Rx.reapWrite Rx.failWrite
    split
    · rename_i expired
      cases active : q.rxWrite with
      | none => rfl
      | some w => simp [active, expired] at write
    · rfl
  unfold Rx.timeoutReap
  dsimp only
  rw [sameMessage, sameWrite]
  exact eases_reapLoop _ _ openQp

end Handlers

end Tbv.RecvQueue
