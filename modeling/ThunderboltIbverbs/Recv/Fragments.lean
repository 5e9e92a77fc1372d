import ThunderboltIbverbs.Recv.InOrder

/-! # The handlers on the fragments of a peer

A fragment of an operation near the expected one leaves the receive side steady, whichever
operation it is of and whichever fragments came before it. -/
set_option autoImplicit false
namespace Tbv.RecvQueue

open Tbv.NativeData
open Tbv.SendQueue (SendOp)

section
variable {p : Peer} {clean : Prop} {q next : Rx} {env : Env} {k i n : Nat} {seen : List Nat}
  {m : RxMessage} {wqe : RecvWqe}

/-! ## The active message -/

namespace Peer

theorem Assembling.recount (assembling : p.Assembling k seen m) (fragSeen : List Nat)
    (fragsReceived received : Nat) :
    p.Assembling k seen { m with fragSeen, fragsReceived, received } :=
  ⟨assembling.send, assembling.srcQp, assembling.psn, assembling.totalLen, assembling.withImm,
    assembling.immData, assembling.distinct, assembling.inside, assembling.placed⟩

/-- One more fragment is copied into the receive buffer. -/
theorem Assembling.copy (assembling : p.Assembling k seen m) (inside : i < p.count k)
    (new : i ∉ seen) :
    p.Assembling k (seen ++ [i]) (m.copy env (offset i) (p.payload k i)) := by
  have distinct : (seen ++ [i]).Nodup := by
    refine List.nodup_append.mpr
      ⟨assembling.distinct, List.nodup_singleton i, fun a among b one => ?_⟩
    rw [List.mem_singleton] at one
    exact fun same => new (one ▸ same ▸ among)
  have within : ∀ j ∈ seen ++ [i], j < p.count k := fun j among => by
    rcases List.mem_append.mp among with old | last
    · exact assembling.inside j old
    · exact List.mem_singleton.mp last ▸ inside
  unfold RxMessage.copy
  cases copied : copyToWqe env m.wqe (offset i) (p.payload k i) with
  | none =>
      exact ⟨assembling.send, assembling.srcQp, assembling.psn, assembling.totalLen,
        assembling.withImm, assembling.immData, distinct, within, fun is => by cases is⟩
  | some writes =>
      refine ⟨assembling.send, assembling.srcQp, assembling.psn, assembling.totalLen,
        assembling.withImm, assembling.immData, distinct, within, fun is => ?_⟩
      obtain ⟨fits, before⟩ := assembling.placed is
      refine ⟨fits, ?_⟩
      rw [List.flatMap_append, List.flatMap_singleton, ← before, ← copyToWqe_eq inside fits copied]

theorem assembling_newMessage (send : (p.op k).isSend = true) (i fragCount : Nat) :
    p.Assembling k [] (newMessage (p.header k i) (p.psn k) wqe fragCount) := by
  obtain ⟨total, -, rkey⟩ := header_send (i := i) send
  refine ⟨send, rfl, rfl, total, ?_, ?_, List.nodup_nil, fun _ among => (by cases among),
    fun is => ⟨?_, rfl⟩⟩
  · change ((p.op k).opcode == NativeData.Op.sendImm) = _
    cases p.op k <;> rfl
  · change sendImmData (p.header k i) = _
    unfold sendImmData Peer.sendImm
    rw [rkey, header_opcode]
    cases p.op k <;> simp [SendOp.opcode]
  · by_contra short
    have status : (newMessage (p.header k i) (p.psn k) wqe fragCount).status = .locLenErr :=
      if_pos (by rw [total]; exact Nat.lt_of_not_le short)
    rw [status] at is
    cases is

theorem Assembling.sameMessage (assembling : p.Assembling k seen m) (i : Nat) :
    m.sameMessage (p.header k i) (p.psn k) = true := by
  have own : p.Assembling k [] (newMessage (p.header k i) (p.psn k) m.wqe 0) :=
    assembling_newMessage assembling.send i 0
  have totalLen := own.totalLen
  have withImm := own.withImm
  have immData := own.immData
  unfold RxMessage.sameMessage
  rw [assembling.srcQp, assembling.psn, assembling.totalLen, assembling.withImm,
    assembling.immData, ← totalLen, ← withImm, ← immData]
  simp [newMessage]

theorem Assembling.otherMessage {j : Nat} (assembling : p.Assembling k seen m)
    (other : p.psn j ≠ p.psn k) : m.sameMessage (p.header j i) (p.psn j) = false := by
  have psn : (m.psn == p.psn j) = false := by
    rw [assembling.psn]
    exact beq_false_of_ne other.symm
  unfold RxMessage.sameMessage
  rw [psn, Bool.and_false]
  rfl

/-- A fragment below the next one is there already. -/
theorem length_le_of_lt (before : i < n) : p.length k i ≤ offset n - offset i := by
  have size := p.length_eq k i
  have later : offset (i + 1) ≤ offset n := Nat.mul_le_mul_right _ before
  have step : offset (i + 1) = offset i + maxPayload := Nat.succ_mul i maxPayload
  omega

end Peer

theorem copy_status (m : RxMessage) {offset : Nat} {payload : List UInt8}
    (readable : ∀ offset, env.recvMr m.wqe offset = true) :
    (m.copy env offset payload).status = m.status := by
  obtain ⟨writes, copied⟩ :=
    Option.isSome_iff_exists.mp (copyToWqe_isSome readable offset payload)
  unfold RxMessage.copy
  rw [copied]

@[simp] theorem copy_wqe (m : RxMessage) (offset : Nat) (payload : List UInt8) :
    (m.copy env offset payload).wqe = m.wqe := by
  unfold RxMessage.copy
  split <;> rfl

@[simp] theorem copy_received (m : RxMessage) (offset : Nat) (payload : List UInt8) :
    (m.copy env offset payload).received = m.received := by
  unfold RxMessage.copy
  split <;> rfl

@[simp] theorem copy_fragCount (m : RxMessage) (offset : Nat) (payload : List UInt8) :
    (m.copy env offset payload).fragCount = m.fragCount := by
  unfold RxMessage.copy
  split <;> rfl

/-! ## SEND -/

/-- Some fragments of the expected operation, out of its count. -/
theorem length_le_of_distinct (distinct : seen.Nodup) (inside : ∀ i ∈ seen, i < n) :
    seen.length ≤ n := by
  have size := (List.subperm_of_subset distinct fun i among =>
    List.mem_range.mpr (inside i among)).length_le
  rwa [List.length_range] at size

namespace Steady

theorem stripedFragment (ledger : Ledger p clean 0 [m.wqe] q) (here : q.consumed = k)
    (alone : q.rxWrite = none) (striping : q.cfg.striping = true)
    (assembling : p.Assembling k seen m) (counts : p.Counts true k seen m)
    (more : seen.length < p.count k) (inside : i < p.count k)
    (success : clean → m.status = .success) (notFull : env.cqFull = false)
    (fair : clean → p.Fair env) :
    Steady p clean (q.stripedFragment env m i (p.header k i) (p.payload k i)) := by
  subst here
  obtain ⟨fragSeen, fragsReceived, fragCount⟩ := counts
  unfold Rx.stripedFragment
  by_cases again : i ∈ seen
  · rw [fragSeen, if_pos again]
    dsimp only
    rw [fragsReceived, fragCount, if_neg (by omega)]
    refine assemble ledger alone assembling ?_ more success
    rw [striping]
    exact ⟨fragSeen, fragsReceived, fragCount⟩
  rw [fragSeen, if_neg again]
  dsimp only
  have copied : p.Assembling q.consumed (seen ++ [i])
      (m.copy env (Peer.offset i) (p.payload q.consumed i)) := assembling.copy inside again
  have recounted := copied.recount (seen ++ [i]) (m.fragsReceived + 1)
    (m.received + (p.header q.consumed i).length)
  have status : clean → (m.copy env (Peer.offset i) (p.payload q.consumed i)).status = .success :=
    fun isClean => (copy_status m ((fair isClean).recvMr m.wqe)).trans (success isClean)
  have size : (seen ++ [i]).length = seen.length + 1 := List.length_append
  have limit := length_le_of_distinct copied.distinct copied.inside
  rw [fragsReceived] at recounted ⊢
  have held : Ledger p clean 0 [(m.copy env (Peer.offset i) (p.payload q.consumed i)).wqe] q := by
    rw [copy_wqe]
    exact ledger
  split
  · rename_i full
    rw [copy_fragCount, fragCount, ← size] at full
    exact finishSend held alone recounted full status notFull fair
  · rename_i less
    rw [copy_fragCount, fragCount, ← size] at less
    have less := Nat.lt_of_le_of_ne limit less
    refine assemble held alone recounted ?_ less status
    rw [striping]
    refine ⟨rfl, ?_, ?_⟩
    · exact size.symm
    · exact (copy_fragCount ..).trans fragCount

theorem orderedFragment (ledger : Ledger p clean 0 [m.wqe] q) (here : q.consumed = k)
    (alone : q.rxWrite = none) (striping : q.cfg.striping = false)
    (assembling : p.Assembling k (List.range n) m) (received : m.received = Peer.offset n)
    (inside : n < p.count k) (success : clean → m.status = .success)
    (notFull : env.cqFull = false) (fair : clean → p.Fair env) :
    Steady p clean (q.orderedFragment env m (Peer.offset n) (p.payload k n) (p.last k n)) := by
  subst here
  have copied : p.Assembling q.consumed (List.range n ++ [n])
      (m.copy env (Peer.offset n) (p.payload q.consumed n)) :=
    assembling.copy inside List.not_mem_range_self
  rw [← List.range_succ] at copied
  have size : (List.range (n + 1)).length = n + 1 := List.length_range
  have status : clean → (m.copy env (Peer.offset n) (p.payload q.consumed n)).status = .success :=
    fun isClean => (copy_status m ((fair isClean).recvMr m.wqe)).trans (success isClean)
  have held : Ledger p clean 0 [(m.copy env (Peer.offset n) (p.payload q.consumed n)).wqe] q := by
    rw [copy_wqe]
    exact ledger
  unfold Rx.orderedFragment
  dsimp only
  rw [copy_received, received, Peer.length_payload]
  have recounted := fun fragSeen fragsReceived =>
    copied.recount fragSeen fragsReceived (Peer.offset n + p.length q.consumed n)
  split
  · rename_i last
    have last := (Peer.last_iff_place inside).mp last
    exact finishSend held alone (recounted _ _) (size.trans last) status notFull fair
  · rename_i last
    have place := mt (Peer.last_iff_place inside).mpr last
    have whole := Peer.not_last_length inside (by simpa using last)
    have less : (List.range (n + 1)).length < p.count q.consumed := by
      rw [size]
      exact Nat.lt_of_le_of_ne inside place
    refine assemble held alone (recounted _ _) ?_ less status
    rw [striping]
    refine ⟨by rw [size], ?_⟩
    rw [size, whole]
    exact (Nat.succ_mul n maxPayload).symm

theorem first (steady : Steady p clean q) (idle : q.rxMsg = none) (here : q.consumed = k)
    (send : (p.op k).isSend = true) (popped : q.popRecv = some (wqe, next)) (i fragCount : Nat) :
    next.consumed = k ∧ next.cfg = q.cfg ∧ next.rxWrite = none ∧ Ledger p clean 0 [wqe] next ∧
      (clean → (newMessage (p.header k i) (p.psn k) wqe fragCount).status = .success) := by
  have alone : q.rxWrite = none := by
    cases active : q.rxWrite with
    | none => rfl
    | some w =>
        have write := (steady.write w active).2.1.write
        rw [here, send] at write
        cases write
  have same := popRecv_same popped
  have ledger := steady.ledger
  rw [held_nil ⟨idle, alone⟩] at ledger
  have taken := ledger.pop popped
  have consumed : next.consumed = k := by rw [same, here]
  refine ⟨consumed, by rw [same], by rw [same]; exact alone, taken, fun isClean => if_neg ?_⟩
  have room := taken.room isClean (consumed.symm ▸ Peer.takesRecv_of_send send)
  rw [consumed] at room
  rw [(Peer.header_send send).1]
  exact Nat.not_lt.mpr room

theorem handleStriped (steady : Steady p clean q) (near : Near p k i q)
    (send : (p.op k).isSend = true) (striping : q.cfg.striping = true)
    (notFull : env.cqFull = false) (room : clean → Room p env k i q) :
    Steady p clean (q.handleStriped env (p.header k i) (p.psn k) (p.payload k i)) := by
  obtain ⟨delta, is, place⟩ := near.psnDelta steady.ledger.expected
  have ahead := near.ahead
  have fair := fun isClean => (room isClean).fair
  obtain ⟨total, -⟩ := Peer.header_send (i := i) send
  unfold Rx.handleStriped
  dsimp only
  rw [total, Peer.header_last, Peer.header_fragOffset, Peer.header_length, Peer.shape near.inside]
  dsimp only
  rw [is]
  split
  · exact steady.reack (by omega)
  split
  · exact steady.bufferFragment near send notFull room
  rename_i here
  have current : q.consumed = k := by
    have := not_or.mp here
    omega
  cases active : q.rxMsg with
  | some m =>
      obtain ⟨alone, success, seen, assembling, counts, more⟩ := steady.message m active
      have ledger := steady.ledger
      rw [Rx.held, active, alone] at ledger
      rw [striping] at counts
      rw [current] at assembling counts more
      have count : (m.fragCount == p.count k) = true := beq_iff_eq.mpr counts.2.2
      dsimp only
      rw [assembling.sameMessage, count, Bool.and_true, if_pos rfl]
      exact stripedFragment ledger current alone striping assembling counts more near.inside success
        notFull fair
  | none =>
      dsimp only
      cases popped : q.popRecv with
      | none => exact (steady.setRnr _).refuse _ (by decide) fun _ => by decide
      | some taken =>
          obtain ⟨wqe, next⟩ := taken
          obtain ⟨consumed, cfg, alone, ledger, success⟩ :=
            steady.first active current send popped i (p.count k)
          exact stripedFragment ledger consumed alone (cfg ▸ striping)
            (Peer.assembling_newMessage send i _) ⟨rfl, rfl, rfl⟩ Peer.count_pos near.inside success
            notFull fair

theorem handleOrdered (steady : Steady p clean q) (near : Near p k i q)
    (send : (p.op k).isSend = true) (striping : q.cfg.striping = false)
    (notFull : env.cqFull = false) (room : clean → Room p env k i q) :
    Steady p clean (q.handleOrdered env (p.header k i) (p.psn k) (p.payload k i)) := by
  have expected := steady.ledger.expected
  obtain ⟨delta, is, distance⟩ := near.psnDelta expected
  have place := near.psn_eq expected
  have fair := fun isClean => (room isClean).fair
  have buffered := steady.bufferFragment near send notFull room
  obtain ⟨total, -⟩ := Peer.header_send (i := i) send
  unfold Rx.handleOrdered
  dsimp only
  rw [total, Peer.header_last, Peer.header_fragOffset, Peer.header_length, is]
  cases active : q.rxMsg with
  | some m =>
      obtain ⟨alone, success, seen, assembling, counts, more⟩ := steady.message m active
      have ledger := steady.ledger
      rw [Rx.held, active, alone] at ledger
      dsimp only
      by_cases here : q.consumed = k
      · rw [striping] at counts
        rw [here] at assembling counts more
        obtain ⟨inOrder, received⟩ := counts
        generalize seen.length = n at inOrder received more
        subst inOrder
        rw [assembling.sameMessage, received]
        rcases Nat.lt_trichotomy i n with before | rfl | after
        · have lower := Peer.offset_lt_offset.mpr before
          have there := Peer.length_le_of_lt (p := p) (k := k) before
          have other : (Peer.offset n == Peer.offset i) = false := beq_false_of_ne lower.ne'
          rw [other, Bool.and_false, if_neg (by decide), if_neg (by omega), if_neg (by omega),
            Bool.true_and, decide_eq_true lower, if_pos rfl, if_pos there]
          exact steady
        · rw [beq_self_eq_true, Bool.and_true, if_pos rfl]
          exact orderedFragment ledger here alone striping assembling received near.inside success
            notFull fair
        · have upper := Peer.offset_lt_offset.mpr after
          have other : (Peer.offset n == Peer.offset i) = false := beq_false_of_ne upper.ne
          rw [other, Bool.and_false, if_neg (by decide), if_neg (by omega), if_neg (by omega),
            Bool.true_and, Bool.true_and, decide_eq_false upper.asymm, if_neg (by decide),
            decide_eq_true upper, if_pos rfl]
          exact steady
      · have psn : p.psn k ≠ p.psn q.consumed := fun same =>
          here (place.mp (same.trans expected.symm)).symm
        rw [assembling.otherMessage psn, Bool.false_and, if_neg (by decide)]
        split
        · exact steady.reack (by omega)
        rw [if_pos (by omega)]
        exact buffered
  | none =>
      dsimp only
      split
      · exact buffered
      · rename_i plain
        simp only [Bool.or_eq_true, bne_iff_ne, not_or, not_not] at plain
        obtain ⟨⟨-, psn⟩, first⟩ := plain
        have here := (place.mp psn).symm
        have start : i = 0 := Peer.offset_inj (first.trans (Nat.zero_mul _).symm)
        subst start
        cases popped : q.popRecv with
        | none => exact (steady.setRnr _).refuse _ (by decide) fun _ => by decide
        | some taken =>
            obtain ⟨wqe, next⟩ := taken
            obtain ⟨consumed, cfg, alone, ledger, success⟩ :=
              steady.first active here send popped 0 0
            exact orderedFragment ledger consumed alone (cfg ▸ striping)
              (Peer.assembling_newMessage send 0 0) (Nat.zero_mul _).symm Peer.count_pos success
              notFull fair

theorem handleSendFragment (steady : Steady p clean q) (near : Near p k i q)
    (send : (p.op k).isSend = true) (notFull : env.cqFull = false)
    (room : clean → Room p env k i q) :
    Steady p clean (q.handleSendFragment env (p.header k i) (p.payload k i)) := by
  unfold Rx.handleSendFragment
  dsimp only
  rw [Peer.sendBadHeader_header send near.inside, Peer.header_psn, Peer.psn_mod,
    if_neg (by decide)]
  split
  · exact steady
  obtain ⟨rnr, cleared⟩ := @clearRnr_same q (p.header k i).srcQp (p.psn k)
  rw [cleared]
  have near : Near p k i { q with rnr } := ⟨near.inside, near.behind, near.ahead⟩
  have room : clean → Room p env k i { q with rnr } := fun isClean =>
    ⟨(room isClean).fair, (room isClean).recent, (room isClean).sound, (room isClean).bytes⟩
  split
  · rename_i striping
    exact (steady.setRnr rnr).handleStriped near send striping notFull room
  · rename_i striping
    exact (steady.setRnr rnr).handleOrdered near send (by simpa using striping) notFull room

end Steady

/-! ## RDMA WRITE -/

/-- A write with immediate that is expected begins with its first fragment. -/
def Peer.HeadFirst (p : Peer) (k i : Nat) (q : Rx) : Prop :=
  p.op k = .rdmaWriteImm → q.consumed = k → q.rxWrite = none → i = 0

theorem Peer.op_of_write (write : (p.op k).isSend = false) :
    p.op k = .rdmaWrite ∨ p.op k = .rdmaWriteImm := by
  cases is : p.op k with
  | rdmaWrite => exact .inl rfl
  | rdmaWriteImm => exact .inr rfl
  | send | sendImm =>
      rw [is] at write
      cases write

theorem Peer.Writing.recount {w : RxWrite} (writing : p.Writing k w) (received : Nat) :
    p.Writing k { w with received } :=
  ⟨writing.write, writing.srcQp, writing.psn, writing.remoteAddr, writing.rkey, writing.immData,
    writing.withImm, writing.immWqe⟩

/-- The write of a first fragment. -/
theorem Peer.writing_newWrite (write : (p.op k).isSend = false) {immWqe : Option RecvWqe}
    (taken : immWqe.isSome = (p.op k == .rdmaWriteImm)) (i : Nat) :
    p.Writing k (newWrite (p.header k i) (p.psn k) immWqe) := by
  obtain ⟨imm, addr, rkey⟩ := Peer.header_write (i := i) write
  refine ⟨write, rfl, rfl, addr, rkey, imm, ?_, taken⟩
  change ((p.op k).opcode == NativeData.Op.rdmaWriteImm) = _
  cases p.op k <;> rfl

theorem Peer.Writing.sameWrite {w : RxWrite} (writing : p.Writing k w) (i : Nat) :
    w.sameWrite (p.header k i) (p.psn k) = true := by
  have own := Peer.writing_newWrite writing.write writing.immWqe i
  have remoteAddr := own.remoteAddr
  have rkey := own.rkey
  have immData := own.immData
  have withImm := own.withImm
  unfold RxWrite.sameWrite
  rw [writing.srcQp, writing.psn, writing.withImm, writing.rkey, writing.immData,
    writing.remoteAddr, ← remoteAddr, ← rkey, ← immData, ← withImm]
  simp [newWrite]

theorem Peer.Writing.otherWrite {w : RxWrite} {j : Nat} (writing : p.Writing k w)
    (other : p.psn j ≠ p.psn k) : w.sameWrite (p.header j i) (p.psn j) = false := by
  have psn : (w.psn == p.psn j) = false := by
    rw [writing.psn]
    exact beq_false_of_ne other.symm
  unfold RxWrite.sameWrite
  rw [psn, Bool.and_false]
  rfl

namespace Steady

theorem endWrite (ledger : Ledger p clean 1 [] q) (idle : q.rxMsg = none ∧ q.rxWrite = none)
    (passed : k < q.consumed) {ack : SendAckStatus} (error : clean → ack ≠ .error)
    (notFull : env.cqFull = false) (fair : clean → p.Fair env) :
    Steady p clean ((q.drainReorder env).sendAck (p.psn k) ack) := by
  obtain ⟨drained, after⟩ := ledger.drainReorder (Nat.le_refl 1) idle notFull fair
  have forward := (@does_drainReorder env False q).consumed_le
  exact .of_idle (drained.sendAck (fun _ => ⟨k, by omega, rfl⟩) error) after

theorem finishWrite {w : RxWrite} (ledger : Ledger p clean 0 w.immWqe.toList q)
    (here : q.consumed = k) (idle : q.rxMsg = none) (writing : p.Writing k w) {status : WcStatus}
    (success : clean → status = .success) (notFull : env.cqFull = false)
    (fair : clean → p.Fair env) : Steady p clean (q.finishWrite env w status) := by
  subst here
  have cleared : Ledger p clean 0 w.immWqe.toList { q with rxWrite := none } :=
    ledger.aside q.rxMsg none q.rnr q.advertised
  have expected : ¬ w.psn ≠ q.expectedPsn := by
    rw [writing.psn, ledger.expected]
    exact not_not.mpr rfl
  have immWqe := writing.immWqe
  have write := writing.write
  unfold Rx.finishWrite
  cases taken : w.immWqe with
  | none =>
      rw [taken] at cleared immWqe
      have plain : p.op q.consumed = .rdmaWrite := by
        refine (Peer.op_of_write write).resolve_right fun is => ?_
        rw [is] at immWqe
        cases immWqe
      have error : clean → (if status = .success then SendAckStatus.ok else .error) ≠ .error :=
        fun isClean => by
          rw [if_pos (success isClean)]
          decide
      have takes : p.takesRecv q.consumed = false := by
        rw [Peer.takesRecv_of_write write, plain]
        rfl
      dsimp only
      rw [if_neg expected, writing.psn]
      exact endWrite (cleared.pass takes error) ⟨idle, rfl⟩ (Nat.lt_succ_self _) error notFull fair
  | some wqe =>
      rw [taken] at cleared immWqe
      have withImm : p.op q.consumed = .rdmaWriteImm := by
        refine (Peer.op_of_write write).resolve_left fun is => ?_
        rw [is] at immWqe
        cases immWqe
      have immData : w.immData = p.imm q.consumed := by rw [writing.immData, if_pos withImm]
      have completed := cleared.pushImm notFull withImm success
      have error := Ledger.ackStatus_ne_error notFull success
      rw [← immData, Ledger.pushImm_eq notFull] at completed
      dsimp only
      rw [Ledger.pushImm_eq notFull]
      rw [if_neg (by exact expected), writing.psn]
      exact endWrite completed ⟨idle, rfl⟩ (Nat.lt_succ_self _) error notFull fair

theorem activate {w : RxWrite} (ledger : Ledger p clean 0 w.immWqe.toList q)
    (here : q.consumed = k) (idle : q.rxMsg = none) (writing : p.Writing k w)
    (received : ∃ n < p.count k, w.received = Peer.offset n) :
    Steady p clean { q with rxWrite := some w } where
  ledger := by
    have held : Rx.held { q with rxWrite := some w } = w.immWqe.toList := by
      rw [Rx.held, idle]
      rfl
    rw [held]
    exact ledger.aside q.rxMsg (some w) q.rnr q.advertised
  message m active := by
    rw [idle] at active
    cases active
  write other active := by
    cases active
    subst here
    exact ⟨idle, writing, received⟩

theorem writeFragment {w : RxWrite} (ledger : Ledger p clean 0 w.immWqe.toList q)
    (here : q.consumed = k) (idle : q.rxMsg = none) (writing : p.Writing k w)
    (received : w.received = Peer.offset n) (inside : n < p.count k) (notFull : env.cqFull = false)
    (fair : clean → p.Fair env) :
    Steady p clean
      (q.writeFragment env w (Peer.offset n) (p.payload k n) (p.last k n)) := by
  have ends : ∀ {q : Rx} {w : RxWrite} {status : WcStatus},
      Ledger p clean 0 w.immWqe.toList q → q.consumed = k → q.rxMsg = none → p.Writing k w →
      (clean → status = .success) → Steady p clean (q.finishWrite env w status) :=
    fun ledger here idle writing success =>
      finishWrite ledger here idle writing success notFull fair
  have size := Peer.length_payload (p := p) k n
  unfold Rx.writeFragment
  split
  · split
    · exact ends ledger here idle writing fun _ => rfl
    · exact activate ledger here idle writing ⟨n, inside, received⟩
  split
  · rename_i refused
    refine ends ledger here idle writing fun isClean => absurd refused ?_
    have fair := fair isClean
    have target := p.target_lt writing.write
    have ends := Peer.fragEnd_le inside
    have below := Peer.offset_le inside
    rw [writing.remoteAddr, writing.rkey, size, fair.mr k writing.write,
      fair.iova k n writing.write inside]
    simp
    omega
  have wrote : Ledger p clean 0 w.immWqe.toList
      (q.note (.wrote w.rkey (w.remoteAddr + Peer.offset n) (p.payload k n))) :=
    ledger.note rfl nofun
  dsimp only
  split
  · exact ends wrote here idle (writing.recount _) fun _ => rfl
  · rename_i more
    have more : p.last k n = false := by simpa using more
    have later := mt (Peer.last_iff_place inside).mpr (by simp [more])
    refine activate wrote here idle (writing.recount _) ⟨n + 1, by omega, ?_⟩
    change Peer.offset n + (p.payload k n).length = _
    rw [size, Peer.not_last_length inside more]
    exact (Nat.succ_mul n maxPayload).symm

theorem bufferOrDrop (steady : Steady p clean q) (near : Near p k i q)
    (write : (p.op k).isSend = false) (notFull : env.cqFull = false)
    (room : clean → Room p env k i q) :
    Steady p clean (q.bufferOrDrop env (p.header k i) (p.psn k) (p.payload k i)) := by
  unfold Rx.bufferOrDrop
  rw [Peer.header_opcode, Peer.header_last, Peer.header_fragOffset]
  rcases Peer.op_of_write write with plain | withImm
  · have total : (p.header k i).immData = p.total k := by
      rw [(Peer.header_write write).1, plain, if_neg (by decide)]
    rw [plain, total, if_neg (by decide)]
    exact steady.bufferWriteFragment near plain notFull room
  · rw [withImm, if_pos (by decide)]
    exact steady

theorem handleWrite (steady : Steady p clean q) (near : Near p k i q)
    (write : (p.op k).isSend = false) (notFull : env.cqFull = false)
    (room : clean → Room p env k i q) (headFirst : clean → p.HeadFirst k i q) :
    Steady p clean (q.handleWrite env (p.header k i) (p.psn k) (p.payload k i)) := by
  have expected := steady.ledger.expected
  obtain ⟨delta, is, distance⟩ := near.psnDelta expected
  have place := near.psn_eq expected
  have fair := fun isClean => (room isClean).fair
  have buffered := steady.bufferOrDrop near write notFull room
  unfold Rx.handleWrite
  dsimp only
  rw [Peer.header_last, Peer.header_fragOffset, Peer.header_length, Peer.header_psn, is]
  split
  · exact steady.reack (by omega)
  cases active : q.rxWrite with
  | some w =>
      obtain ⟨idle, writing, n, more, received⟩ := steady.write w active
      have ledger := steady.ledger
      rw [Rx.held, idle, active] at ledger
      dsimp only
      by_cases here : q.consumed = k
      · rw [here] at writing more
        rw [writing.sameWrite, received, if_neg (by decide)]
        rcases Nat.lt_trichotomy i n with before | rfl | after
        · have lower := Peer.offset_lt_offset.mpr before
          rw [if_pos lower, if_pos (Peer.length_le_of_lt before)]
          exact steady
        · rw [if_neg (Nat.lt_irrefl _), if_neg (Nat.lt_irrefl _)]
          exact writeFragment ledger here idle writing received near.inside notFull fair
        · have upper := Peer.offset_lt_offset.mpr after
          rw [if_neg upper.asymm, if_pos upper]
          exact buffered
      · have psn : p.psn k ≠ p.psn q.consumed := fun same =>
          here (place.mp (same.trans expected.symm)).symm
        rw [writing.otherWrite psn, if_pos (by decide), if_pos (by omega)]
        exact buffered
  | none =>
      dsimp only
      split
      · exact buffered
      rename_i psn
      have here := (place.mp (not_not.mp psn)).symm
      split
      · exact buffered
      have immOpcode : (p.header k i).opcode = .rdmaWriteImm ↔ p.op k = .rdmaWriteImm := by
        rw [Peer.header_opcode]
        cases p.op k <;> simp [SendOp.opcode]
      split
      · rename_i tail
        split
        · rename_i withImm
          refine steady.refuse _ (by decide) fun isClean => absurd ?_ tail
          rw [headFirst isClean (immOpcode.mp withImm) here active]
          exact Nat.zero_mul _
        · exact buffered
      rename_i head
      have first : i = 0 := Peer.offset_inj ((not_not.mp head).trans (Nat.zero_mul _).symm)
      subst first
      have idle : q.rxMsg = none := by
        cases message : q.rxMsg with
        | none => rfl
        | some m =>
            obtain ⟨-, -, seen, assembling, -⟩ := steady.message m message
            have send := assembling.send
            rw [here, write] at send
            cases send
      have ledger := steady.ledger
      rw [held_nil ⟨idle, active⟩] at ledger
      split
      · rename_i withImm
        have withImm := immOpcode.mp withImm
        cases popped : q.popRecv with
        | none => exact (steady.setRnr _).refuse _ (by decide) fun _ => by decide
        | some taken =>
            obtain ⟨wqe, next⟩ := taken
            have same := popRecv_same popped
            have writing : p.Writing k (newWrite (p.header k 0) (p.psn k) (some wqe)) :=
              Peer.writing_newWrite write (by rw [withImm]; rfl) 0
            exact writeFragment (ledger.pop popped) (by rw [same, here]) (by rw [same]; exact idle)
              writing (Nat.zero_mul _).symm Peer.count_pos notFull fair
      · rename_i plain
        have plain := (Peer.op_of_write write).resolve_right (mt immOpcode.mpr plain)
        have writing : p.Writing k (newWrite (p.header k 0) (p.psn k) none) :=
          Peer.writing_newWrite write (by rw [plain]; rfl) 0
        exact writeFragment ledger here idle writing (Nat.zero_mul _).symm Peer.count_pos notFull
          fair

theorem handleRdmaWriteFragment (steady : Steady p clean q) (near : Near p k i q)
    (write : (p.op k).isSend = false) (notFull : env.cqFull = false)
    (room : clean → Room p env k i q)
    (taken : clean → q.remoteWrite = true ∧ ¬ (p.op k = .rdmaWrite ∧ p.total k = 0) ∧
      (q.rnrSuppresses (p.header k i) (p.psn k) = false → p.HeadFirst k i q)) :
    Steady p clean (q.handleRdmaWriteFragment env (p.header k i) (p.payload k i)) := by
  unfold Rx.handleRdmaWriteFragment
  dsimp only
  rw [Peer.header_psn, Peer.psn_mod]
  split
  · rename_i bad
    refine steady.refuse _ (by decide) fun isClean => absurd bad ?_
    obtain ⟨may, some, -⟩ := taken isClean
    rw [may, Peer.writeBadHeader_header write near.inside, decide_eq_false some]
    decide
  split
  · exact steady
  rename_i unsuppressed
  obtain ⟨rnr, cleared⟩ := @clearRnr_same q (p.header k i).srcQp (p.psn k)
  rw [cleared]
  refine (steady.setRnr rnr).handleWrite ⟨near.inside, near.behind, near.ahead⟩ write notFull
    (fun isClean => ?_) fun isClean => ?_
  · exact ⟨(room isClean).fair, (room isClean).recent, (room isClean).sound, (room isClean).bytes⟩
  · exact (taken isClean).2.2 (by simpa using unsuppressed)

end Steady

end

end Tbv.RecvQueue
