import ThunderboltIbverbs.Timer.Model

/-! # An idle receive side

Where nothing is active and nothing is buffered, a receive handler leaves it so, or it calls
`tbv_qp_schedule_timeout` for what it has begun. -/
set_option autoImplicit false
namespace Tbv.Timer

open Tbv.NativeData
open Tbv.RecvQueue (Rx Env ReorderMsg RxMessage RxWrite RecvWqe StoreError psnDelta
  reorderMaxMessages)

/-- Nothing is active and nothing is buffered. -/
def Idle (q : Rx) : Prop := q.rxMsg = none ∧ q.rxWrite = none ∧ q.reorder = []

section Idle
variable {q : Rx} {env : Env}

theorem idle_iff_busy : Idle q ↔ busy q = false := by
  simp [Idle, busy, and_assoc]

theorem Idle.of_eq {q' : Rx} (idle : Idle q) (msg : q'.rxMsg = q.rxMsg)
    (write : q'.rxWrite = q.rxWrite) (reorder : q'.reorder = q.reorder) : Idle q' :=
  ⟨msg.trans idle.1, write.trans idle.2.1, reorder.trans idle.2.2⟩

theorem Idle.reorderFind (idle : Idle q) (psn : Nat) : q.reorderFind psn = none := by
  simp [Rx.reorderFind, idle.2.2]

theorem Idle.drainReorder (idle : Idle q) : q.drainReorder env = q := by
  obtain ⟨msg, write, reorder⟩ := idle
  simp [Rx.drainReorder, Rx.drainLoop, Rx.pruneStaleReorder, Rx.reorderFind, msg, write, reorder]

/-! ## Buffering -/

/-- With no message of its PSN a fragment is turned away or begins one. -/
theorem Idle.bufferInto (idle : Idle q) {fresh : ReorderMsg} (idx offset : Nat)
    (payload : List UInt8) (onError : Rx → StoreError → Rx)
    (turned : reorderMaxMessages ≤ q.reorderCount ∨ env.allocMsg = false) :
    Idle (q.bufferInto env fresh idx offset payload onError) := by
  unfold Rx.bufferInto
  rw [idle.reorderFind]
  dsimp only
  split
  · exact idle.of_eq rfl rfl rfl
  · rename_i room
    rw [if_pos (turned.resolve_left room)]
    exact idle.of_eq rfl rfl rfl

/-- What a buffer function finds where it adds no message. -/
theorem turned_of_buffers {psn : Nat} {shaped : Bool} (idle : Idle q)
    (none : buffers q env psn shaped = false) (ahead : ¬ psnDelta psn q.expectedPsn < 0)
    (inside : ¬ (reorderMaxMessages : Int) ≤ psnDelta psn q.expectedPsn) (shape : shaped = true) :
    reorderMaxMessages ≤ q.reorderCount ∨ env.allocMsg = false := by
  by_contra accepted
  push Not at accepted
  have added : buffers q env psn shaped = true := by
    simp only [buffers, idle.reorderFind, shape, Option.isNone_none, Bool.and_true,
      Bool.and_eq_true, decide_eq_true_eq]
    exact ⟨⟨⟨by omega, by omega⟩, accepted.1⟩, by simpa using accepted.2⟩
  rw [added] at none
  cases none

theorem Idle.bufferFragment (idle : Idle q) {hdr : Header} {psn totalLen offset : Nat} {last : Bool}
    (payload : List UInt8)
    (none : buffers q env psn (rxFragmentShape totalLen offset hdr.length last).isSome = false) :
    Idle (q.bufferFragment env hdr psn totalLen offset last payload) := by
  unfold Rx.bufferFragment
  dsimp only
  split
  · exact idle.of_eq rfl rfl rfl
  rename_i ahead
  split
  · exact idle.of_eq rfl rfl rfl
  rename_i inside
  split
  · exact idle.of_eq rfl rfl rfl
  · rename_i shape
    exact idle.bufferInto _ _ _ _ (turned_of_buffers idle none ahead inside (by rw [shape]; rfl))

theorem Idle.bufferWriteFragment (idle : Idle q) {hdr : Header} {psn totalLen offset : Nat}
    {last withImm : Bool} (payload : List UInt8)
    (none : buffers q env psn
      (rxWriteFragmentShape totalLen offset hdr.length last).isSome = false) :
    Idle (q.bufferWriteFragment env hdr psn totalLen offset last withImm payload) := by
  unfold Rx.bufferWriteFragment
  dsimp only
  split
  · exact idle.of_eq rfl rfl rfl
  rename_i ahead
  split
  · exact idle.of_eq rfl rfl rfl
  rename_i inside
  split
  · exact idle.of_eq rfl rfl rfl
  · rename_i shape
    exact idle.bufferInto _ _ _ _ (turned_of_buffers idle none ahead inside (by rw [shape]; rfl))

/-! ## Handlers -/

theorem Idle.handleStriped (idle : Idle q) {hdr : Header} {psn : Nat} (payload : List UInt8)
    (shape : (rxFragmentShape hdr.immData hdr.fragOffset hdr.length
      (hasFlag hdr.flags fLast)).isSome = true → ¬ psnDelta psn q.expectedPsn < 0 →
      if 0 < psnDelta psn q.expectedPsn then
        buffers q env psn (rxFragmentShape hdr.immData hdr.fragOffset hdr.length
          (hasFlag hdr.flags fLast)).isSome = false
      else q.popRecv = none) : Idle (q.handleStriped env hdr psn payload) := by
  unfold Rx.handleStriped
  dsimp only
  split
  · exact idle.of_eq rfl rfl rfl
  rename_i idx count shaped
  split
  · exact idle.of_eq rfl rfl rfl
  rename_i ahead
  have quiet := shape (by rw [shaped]; rfl) ahead
  simp only [idle.1, idle.reorderFind, Option.isSome_none, Bool.false_eq_true, and_false, or_false]
  split
  · rename_i future
    rw [if_pos future] at quiet
    exact idle.bufferFragment payload quiet
  · rename_i now
    rw [if_neg now] at quiet
    rw [quiet]
    exact idle.of_eq rfl rfl rfl

theorem Idle.handleOrdered (idle : Idle q) {hdr : Header} {psn : Nat} (payload : List UInt8)
    (quiet : if psn != q.expectedPsn || hdr.fragOffset != 0 then
        buffers q env psn (rxFragmentShape hdr.immData hdr.fragOffset hdr.length
          (hasFlag hdr.flags fLast)).isSome = false
      else q.popRecv = none) : Idle (q.handleOrdered env hdr psn payload) := by
  unfold Rx.handleOrdered
  simp only [idle.1, idle.reorderFind, Option.isSome_none, Bool.false_or]
  split
  · rename_i other
    rw [if_pos other] at quiet
    exact idle.bufferFragment payload quiet
  · rename_i head
    rw [if_neg head] at quiet
    rw [quiet]
    exact idle.of_eq rfl rfl rfl

/-- Clearing the RNR mark changes nothing the timer depends on. -/
structure SameTimer (q q' : Rx) : Prop where
  idle : Idle q → Idle q'
  cfg : q'.cfg = q.cfg
  expectedPsn : q'.expectedPsn = q.expectedPsn
  buffers : ∀ psn shaped, Timer.buffers q' env psn shaped = Timer.buffers q env psn shaped
  popRecv : q'.popRecv = none ↔ q.popRecv = none

theorem sameTimer_clearRnr (q : Rx) (srcQp psn : Nat) : @SameTimer env q (q.clearRnr srcQp psn) := by
  unfold Rx.clearRnr
  split
  · refine ⟨fun idle => idle.of_eq rfl rfl rfl, rfl, rfl, fun _ _ => rfl, ?_⟩
    unfold Rx.popRecv
    dsimp only
    split
    · simp
    · split <;> simp
  · exact ⟨id, rfl, rfl, fun _ _ => rfl, Iff.rfl⟩

theorem Idle.handleSendFragment (idle : Idle q) {hdr : Header} (payload : List UInt8)
    (quiet : sendSchedules q env hdr = false) : Idle (q.handleSendFragment env hdr payload) := by
  unfold Rx.handleSendFragment
  unfold sendSchedules at quiet
  dsimp only at quiet ⊢
  split
  · exact idle.of_eq rfl rfl rfl
  rename_i good
  split
  · exact idle
  rename_i open_
  have same := @sameTimer_clearRnr env q hdr.srcQp (hdr.psn % RecvQueue.psnMod)
  simp only [good, open_, Bool.or_false, if_false, idle.1, idle.reorderFind, Option.isSome_none,
    Bool.false_eq_true, and_false, or_false, Option.isNone_none, Bool.true_and,
    Bool.false_or] at quiet
  split
  · rename_i striping
    rw [same.cfg] at striping
    rw [if_pos striping] at quiet
    refine Idle.handleStriped (same.idle idle) payload fun shaped ahead => ?_
    rw [same.expectedPsn] at ahead ⊢
    rw [same.buffers, same.popRecv]
    simp only [shaped, ahead, decide_false, Bool.not_true, Bool.or_self, Bool.false_eq_true,
      if_false] at quiet
    split at quiet
    · rename_i future
      rw [if_pos future, shaped]
      exact quiet
    · rename_i now
      rw [if_neg now]
      simpa using quiet
  · rename_i plain
    rw [same.cfg] at plain
    rw [if_neg plain] at quiet
    refine Idle.handleOrdered (same.idle idle) payload ?_
    rw [same.expectedPsn, same.buffers, same.popRecv]
    split at quiet
    · rename_i other
      rw [if_pos other]
      exact quiet
    · rename_i head
      rw [if_neg head]
      simpa using quiet

theorem Idle.bufferOrDrop (idle : Idle q) {hdr : Header} {psn : Nat} (payload : List UInt8)
    (quiet : (decide (¬ hdr.opcode = .rdmaWriteImm) && buffers q env psn
      (rxWriteFragmentShape hdr.immData hdr.fragOffset hdr.length
        (hasFlag hdr.flags fLast)).isSome) = false) :
    Idle (q.bufferOrDrop env hdr psn payload) := by
  unfold Rx.bufferOrDrop
  split
  · exact idle
  · rename_i plain
    exact idle.bufferWriteFragment payload (by simpa [plain] using quiet)

theorem Idle.handleRdmaWriteFragment (idle : Idle q) {hdr : Header} (payload : List UInt8)
    (quiet : writeSchedules q env hdr = false) :
    Idle (q.handleRdmaWriteFragment env hdr payload) := by
  unfold Rx.handleRdmaWriteFragment
  unfold writeSchedules at quiet
  dsimp only at quiet ⊢
  split
  · exact idle.of_eq rfl rfl rfl
  rename_i good
  split
  · exact idle
  rename_i open_
  have same := @sameTimer_clearRnr env q hdr.srcQp (hdr.psn % RecvQueue.psnMod)
  have idle' := same.idle idle
  unfold Rx.handleWrite
  dsimp only
  split
  · exact idle'.of_eq rfl rfl rfl
  rename_i ahead
  rw [same.expectedPsn] at ahead
  simp only [good, open_, ahead, decide_false, Bool.or_false, if_false, idle.2.1, idle.reorderFind,
    Option.isSome_none, Bool.false_eq_true, and_false, false_or] at quiet
  simp only [idle'.2.1, idle'.reorderFind, Option.isSome_none, Bool.false_eq_true, and_false,
    if_false, same.expectedPsn]
  have buffered : (decide (¬ hdr.opcode = .rdmaWriteImm) && buffers q env
      (hdr.psn % RecvQueue.psnMod) (rxWriteFragmentShape hdr.immData hdr.fragOffset hdr.length
        (hasFlag hdr.flags fLast)).isSome) = false →
      Idle ((q.clearRnr hdr.srcQp (hdr.psn % RecvQueue.psnMod)).bufferOrDrop env hdr
        (hdr.psn % RecvQueue.psnMod) payload) :=
    fun none => idle'.bufferOrDrop payload (by rw [same.buffers]; exact none)
  split
  · rename_i other
    rw [if_pos (.inl other)] at quiet
    exact buffered quiet
  rename_i expected
  split
  · rename_i tail
    rw [if_pos (.inr tail)] at quiet
    split
    · exact idle'.of_eq rfl rfl rfl
    · exact buffered quiet
  rename_i head
  rw [if_neg (by rintro (other | tail); exacts [expected other, head tail])] at quiet
  simp only [Bool.or_eq_false_iff, decide_eq_false_iff_not, not_not] at quiet
  obtain ⟨imm, none⟩ := quiet
  have none := same.popRecv.mpr (by simpa using none)
  rw [if_pos imm, none]
  exact idle'.of_eq rfl rfl rfl

theorem Idle.handleRdmaReadReq (idle : Idle q) {hdr : Header}
    (quiet : readReqSchedules q env hdr = false) : Idle (q.handleRdmaReadReq env hdr) := by
  unfold Rx.handleRdmaReadReq
  unfold readReqSchedules at quiet
  simp only [idle.1, idle.2.1, idle.reorderFind, Option.isSome_none, Bool.false_eq_true,
    or_false] at quiet
  dsimp only
  split
  · exact idle.of_eq rfl rfl rfl
  rename_i good
  split
  · rename_i other
    have other : hdr.psn % RecvQueue.psnMod ≠ q.expectedPsn := by
      simpa [idle.1, idle.2.1, idle.reorderFind] using other
    have none : buffers q env (hdr.psn % RecvQueue.psnMod) true = false := by
      push Not at good
      simpa [good, other] using quiet
    unfold Rx.bufferReadReq
    dsimp only
    split
    · exact idle.of_eq rfl rfl rfl
    rename_i ahead
    split
    · exact idle.of_eq rfl rfl rfl
    rename_i inside
    rw [idle.reorderFind]
    dsimp only
    rw [if_pos (turned_of_buffers idle none ahead inside rfl)]
    exact idle.of_eq rfl rfl rfl
  · have drained : Idle { q with
        expectedPsn := RecvQueue.psnNext (hdr.psn % RecvQueue.psnMod), consumed := q.consumed + 1 } :=
      idle.of_eq rfl rfl rfl
    rw [drained.drainReorder]
    exact drained.of_eq rfl rfl rfl

/-- A handler that begins something calls `tbv_qp_schedule_timeout`. -/
theorem Idle.handle (idle : Idle q) {hdr : Header} (payload : List UInt8)
    (quiet : (handle q env hdr payload).2 = false) : Idle (handle q env hdr payload).1 := by
  unfold Timer.handle at quiet ⊢
  split at quiet
  · exact idle.handleSendFragment payload quiet
  · exact idle.handleSendFragment payload quiet
  · exact idle.handleRdmaWriteFragment payload quiet
  · exact idle.handleRdmaWriteFragment payload quiet
  · exact idle.handleRdmaReadReq quiet
  · exact idle

/-! ## Other sections -/

theorem Idle.postOne (idle : Idle q) (wqe : RecvWqe) : Idle (q.postOne wqe).1 := by
  unfold Rx.postOne
  split
  · exact idle
  · exact idle.of_eq rfl rfl rfl

theorem Idle.advertiseRecvCredits (idle : Idle q) : Idle (q.advertiseRecvCredits env) := by
  unfold Rx.advertiseRecvCredits
  split
  · exact idle
  · split
    · exact idle
    · split
      · exact idle.of_eq rfl rfl rfl
      · exact idle

theorem flushRecvWqes_fields (q : Rx) :
    (q.flushRecvWqes env).rxMsg = q.rxMsg ∧ (q.flushRecvWqes env).rxWrite = q.rxWrite ∧
      (q.flushRecvWqes env).reorder = q.reorder := by
  have pushed : ∀ (wqes : List RecvWqe) (q : Rx),
      let q' := wqes.foldl (fun q wqe => q.cqPush env (.recv wqe .wrFlushErr none [])) q
      q'.rxMsg = q.rxMsg ∧ q'.rxWrite = q.rxWrite ∧ q'.reorder = q.reorder := by
    intro wqes
    induction wqes with
    | nil => exact fun q => ⟨rfl, rfl, rfl⟩
    | cons wqe rest ih =>
        intro q
        obtain ⟨msg, write, reorder⟩ := ih (q.cqPush env (.recv wqe .wrFlushErr none []))
        have same : ∀ entry, (q.cqPush env entry).rxMsg = q.rxMsg ∧
            (q.cqPush env entry).rxWrite = q.rxWrite ∧ (q.cqPush env entry).reorder = q.reorder := by
          intro entry
          unfold Rx.cqPush
          split <;> exact ⟨rfl, rfl, rfl⟩
        exact ⟨msg.trans (same _).1, write.trans (same _).2.1, reorder.trans (same _).2.2⟩
  exact pushed _ _

theorem Idle.flushError (idle : Idle q) : Idle (q.flushError env) := by
  unfold Rx.flushError
  dsimp only
  refine ⟨(flushRecvWqes_fields _).1.trans ?_, (flushRecvWqes_fields _).2.1.trans ?_,
    (flushRecvWqes_fields _).2.2⟩
  · simp only [idle.1, idle.2.1]
  · simp only [idle.1, idle.2.1]

end Idle

end Tbv.Timer
