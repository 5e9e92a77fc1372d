import ThunderboltIbverbs.Recv.Ledger
import ThunderboltIbverbs.Recv.Waiting
import Mathlib.Data.Finset.Card
import Mathlib.Data.Finset.Range

/-! # Delivery out of the reorder list

What a complete entry puts into a receive buffer, and the drain on the ledger of a peer. -/
set_option autoImplicit false
namespace Tbv.RecvQueue

open Tbv.NativeData
open Tbv.SendQueue (SendOp)

/-- The rest of the kernel does what it is asked for. -/
structure Peer.Fair (p : Peer) (env : Env) : Prop where
  allocMsg : env.allocMsg = true
  allocFrag : env.allocFrag = true
  recvMr : ∀ wqe offset, env.recvMr wqe offset = true
  mr : ∀ k, (p.op k).isSend = false → env.mr (p.wr k).rkey.toNat = some true
  iova : ∀ k i, (p.op k).isSend = false → i < p.count k →
    env.iova (p.wr k).rkey.toNat ((p.wr k).remoteAddr.toNat + Peer.offset i) (p.length k i) = true

/-! ## The receive buffer -/

section Buffer
variable {p : Peer} {k i : Nat} {env : Env} {wqe : RecvWqe}

/-- A fragment of an operation that fits is copied whole. -/
theorem copyToWqe_eq (inside : i < p.count k) (fits : p.total k ≤ wqe.length)
    {writes : List Write} (copied : copyToWqe env wqe (Peer.offset i) (p.payload k i) = some writes) :
    writes = p.writeOf k i := by
  have ends := Peer.fragEnd_le inside
  have size := Peer.length_payload (p := p) k i
  unfold copyToWqe at copied
  dsimp only at copied
  unfold Peer.writeOf
  by_cases empty : p.payload k i = []
  · rw [if_pos empty]
    rw [empty] at copied
    simp at copied
    exact copied
  · have positive : 0 < p.length k i := by
      rw [← size]
      exact List.length_pos_iff.mpr empty
    have whole : (if Peer.offset i < wqe.length then
        min (p.payload k i).length (wqe.length - Peer.offset i) else 0) = p.length k i := by
      rw [if_pos (by omega), size]
      omega
    rw [if_neg empty]
    rw [whole, if_neg (by omega)] at copied
    split at copied
    · cases copied
      rw [List.take_of_length_le (by omega)]
    · cases copied

theorem copyToWqe_isSome (readable : ∀ offset, env.recvMr wqe offset = true) (offset : Nat)
    (payload : List UInt8) : (copyToWqe env wqe offset payload).isSome = true := by
  unfold copyToWqe
  dsimp only
  rw [readable]
  split <;> split <;> rfl

theorem copyFrags_eq {seen : List Nat} (inside : ∀ i ∈ seen, i < p.count k)
    (fits : p.total k ≤ wqe.length)
    (copied : (copyFrags env wqe (seen.flatMap (p.fragOf k))).1 = true) :
    (copyFrags env wqe (seen.flatMap (p.fragOf k))).2 = seen.flatMap (p.writeOf k) := by
  induction seen with
  | nil => rfl
  | cons i rest ih =>
      have here := inside i List.mem_cons_self
      have later := ih fun j among => inside j (List.mem_cons_of_mem _ among)
      by_cases empty : p.payload k i = []
      · have noFrag : p.fragOf k i = [] := if_pos empty
        have noWrite : p.writeOf k i = [] := if_pos empty
        rw [List.flatMap_cons, noFrag, List.nil_append] at copied ⊢
        rw [List.flatMap_cons, noWrite, List.nil_append]
        exact later copied
      · have frag : p.fragOf k i = [⟨Peer.offset i, p.payload k i⟩] := if_neg empty
        rw [List.flatMap_cons, frag, List.singleton_append] at copied ⊢
        unfold copyFrags at copied ⊢
        cases one : copyToWqe env wqe (Peer.offset i) (p.payload k i) with
        | none =>
            dsimp only at copied
            rw [one] at copied
            cases copied
        | some writes =>
            dsimp only at copied ⊢
            rw [one] at copied
            rw [List.flatMap_cons, copyToWqe_eq here fits one]
            exact congrArg _ (later copied)

theorem copyFrags_ok (readable : ∀ offset, env.recvMr wqe offset = true)
    (frags : List ReorderFrag) : (copyFrags env wqe frags).1 = true := by
  induction frags with
  | nil => rfl
  | cons frag rest ih =>
      obtain ⟨writes, copied⟩ :=
        Option.isSome_iff_exists.mp (copyToWqe_isSome readable frag.offset frag.data)
      unfold copyFrags
      rw [copied]
      exact ih

/-- All fragments of an operation, in any order, are its bytes. -/
theorem fills {seen : List Nat} (inside : ∀ i ∈ seen, i < p.count k)
    (all : ∀ i < p.count k, i ∈ seen) : Fills (seen.flatMap (p.writeOf k)) (p.data k) := by
  intro buf room
  have size := p.total_eq k
  have target : (p.data k ++ buf.drop (p.data k).length).length = buf.length := by
    rw [List.length_append, List.length_drop]
    omega
  have member : ∀ field, field ∈ seen.flatMap (p.writeOf k) ↔ ∃ i ∈ seen,
      p.payload k i ≠ [] ∧ field = (Peer.offset i, p.payload k i) := by
    intro field
    rw [List.mem_flatMap]
    refine exists_congr fun i => and_congr_right fun _ => ?_
    unfold Peer.writeOf
    split <;> simp [*]
  refine Layout.storeAll_eq_of_agree target.symm ?_ fun j => ?_
  · intro field among
    obtain ⟨i, seen, -, rfl⟩ := (member field).mp among
    have ends := Peer.fragEnd_le (inside i seen)
    rw [Peer.length_payload]
    refine ⟨by rw [target]; omega, ?_⟩
    rw [Layout.slice, List.drop_append_of_le_length (by omega),
      List.take_append_of_le_length (by rw [List.length_drop]; omega)]
    rfl
  · by_cases before : j < p.total k
    · right
      have payload : maxPayload = 4048 := rfl
      have some : p.total k ≠ 0 := by omega
      have place : j / maxPayload < p.count k := by
        unfold Peer.count SendQueue.fragCount
        rw [if_neg some]
        refine (lt_chunkCount (by decide)).mpr ?_
        have := Nat.div_mul_le_self j maxPayload
        omega
      have length := p.length_eq k (j / maxPayload)
      have below := Nat.div_mul_le_self j maxPayload
      have above := Nat.lt_div_mul_add (a := j) (b := maxPayload) (by decide)
      refine ⟨_, (member _).mpr ⟨_, all _ place, (Peer.payload_ne_nil place).mpr some, rfl⟩, below,
        ?_⟩
      rw [Peer.length_payload, length]
      unfold Peer.offset
      omega
    · left
      rw [List.getElem?_append_right (by omega), List.getElem?_drop]
      congr 1
      omega

end Buffer

theorem mem_of_full {seen : List Nat} {n : Nat} (distinct : seen.Nodup)
    (inside : ∀ i ∈ seen, i < n) (full : seen.length = n) : ∀ i < n, i ∈ seen := by
  intro i below
  have subset : seen.toFinset ⊆ Finset.range n := fun j among =>
    Finset.mem_range.mpr (inside j (List.mem_toFinset.mp among))
  have whole := Finset.eq_of_subset_of_card_le subset (by
    rw [Finset.card_range, List.toFinset_card_of_nodup distinct, full])
  exact List.mem_toFinset.mp (whole ▸ Finset.mem_range.mpr below)

/-! ## The completion of an operation -/

theorem Peer.takesRecv_of_send {p : Peer} {k : Nat} (send : (p.op k).isSend = true) :
    p.takesRecv k = true := by
  unfold Peer.takesRecv
  cases is : p.op k with
  | send | sendImm => rfl
  | rdmaWrite | rdmaWriteImm =>
      rw [is] at send
      cases send

theorem Peer.takesRecv_of_write {p : Peer} {k : Nat} (write : (p.op k).isSend = false) :
    p.takesRecv k = (p.op k == .rdmaWriteImm) := by
  unfold Peer.takesRecv
  cases is : p.op k with
  | rdmaWrite | rdmaWriteImm => rfl
  | send | sendImm =>
      rw [is] at write
      cases write

namespace Ledger

variable {p : Peer} {clean : Prop} {lag : Nat} {q next : Rx} {env : Env} {wqe : RecvWqe}

theorem ackStatus_ne_error (notFull : env.cqFull = false) {status : WcStatus}
    (success : clean → status = .success) (isClean : clean) : ackStatus env status ≠ .error := by
  rw [ackStatus, if_pos ⟨success isClean, notFull⟩]
  decide

theorem completeSend (ledger : Ledger p clean 0 [wqe] q) (notFull : env.cqFull = false)
    (send : (p.op q.consumed).isSend = true) {status : WcStatus} {imm : Option Nat}
    {writes : List Write} (is : status = .success → p.total q.consumed ≤ wqe.length ∧
      imm = p.sendImm q.consumed ∧ Fills writes (p.data q.consumed))
    (success : clean → status = .success) :
    Ledger p clean 1 [] (q.completeSend env (p.psn q.consumed) wqe status imm writes) := by
  have pushed : q.cqPush env (.recv wqe status imm writes) =
      q.note (.recv wqe status imm writes) := by
    rw [Rx.cqPush, notFull]
    rfl
  have error := fun isClean : clean => ackStatus_ne_error notFull success isClean
  have completes : p.Completes q.consumed (.recv wqe status imm writes) := ⟨send, is⟩
  have completed := ledger.complete rfl (Peer.takesRecv_of_send send) completes rfl error
  unfold Rx.completeSend
  rw [pushed]
  exact completed.sendAck (fun _ => ⟨q.consumed, Nat.lt_succ_self _, rfl⟩) error

theorem passWrite (ledger : Ledger p clean 0 [] q) (plain : p.op q.consumed = .rdmaWrite)
    {status : SendAckStatus} (error : clean → status ≠ .error) :
    Ledger p clean 1 [] (q.passWrite (p.psn q.consumed) status) := by
  have takes : p.takesRecv q.consumed = false := by
    rw [Peer.takesRecv, plain]
    rfl
  exact (ledger.pass takes error).sendAck (fun _ => ⟨q.consumed, Nat.lt_succ_self _, rfl⟩) error

theorem pushImm_eq (notFull : env.cqFull = false) (status : WcStatus) (immData : Nat) :
    q.pushImm env wqe status immData =
      q.note (.recvImm wqe status (immOf (status = .success) immData)) := by
  rw [Rx.pushImm, Rx.cqPush, notFull]
  rfl

theorem pushImm (ledger : Ledger p clean 0 [wqe] q) (notFull : env.cqFull = false)
    (withImm : p.op q.consumed = .rdmaWriteImm) {status : WcStatus}
    (success : clean → status = .success) :
    Ledger p clean 1 [] ((q.pushImm env wqe status (p.imm q.consumed)).consume
      (p.psn q.consumed) (ackStatus env status)) := by
  have takes : p.takesRecv q.consumed = true := by
    rw [Peer.takesRecv, withImm]
    rfl
  have completes : p.Completes q.consumed
      (.recvImm wqe status (immOf (status = .success) (p.imm q.consumed))) :=
    ⟨withImm, fun is => by simp [is, immOf]⟩
  rw [pushImm_eq notFull]
  exact ledger.complete rfl takes completes rfl (ackStatus_ne_error notFull success)

/-! ## The drain -/

theorem writeFrags (ledger : Ledger p clean lag [] q) (rkey remoteAddr : Nat)
    (frags : List ReorderFrag) :
    Ledger p clean lag [] (q.writeFrags env rkey remoteAddr frags).1 := by
  induction frags generalizing q with
  | nil => exact ledger
  | cons frag rest ih =>
      unfold Rx.writeFrags
      split
      · exact ledger
      · split
        · exact ih (ledger.note rfl (by simp))
        · exact ledger

theorem writeReorder (ledger : Ledger p clean lag [] q) (m : ReorderMsg) :
    Ledger p clean lag [] (q.writeReorder env m).1 := by
  unfold Rx.writeReorder
  split
  · exact ledger.writeFrags ..
  · exact ledger

/-- The data of a buffered write arrives where the peer may write. -/
theorem writeFrags_ok {k : Nat} (fair : p.Fair env) (write : (p.op k).isSend = false)
    {seen : List Nat} (inside : ∀ i ∈ seen, i < p.count k) :
    (q.writeFrags env (p.wr k).rkey.toNat (p.wr k).remoteAddr.toNat
      (seen.flatMap (p.fragOf k))).2 = .success := by
  induction seen generalizing q with
  | nil => rfl
  | cons i rest ih =>
      have here := inside i List.mem_cons_self
      have later := fun q' => @ih q' fun j among => inside j (List.mem_cons_of_mem _ among)
      by_cases empty : p.payload k i = []
      · have noFrag : p.fragOf k i = [] := if_pos empty
        rw [List.flatMap_cons, noFrag, List.nil_append]
        exact later q
      · have frag : p.fragOf k i = [⟨Peer.offset i, p.payload k i⟩] := if_neg empty
        have ends := Peer.fragEnd_le here
        have target := p.target_lt write
        rw [List.flatMap_cons, frag, List.singleton_append, Rx.writeFrags]
        dsimp only
        rw [if_neg (by omega)]
        rw [Peer.length_payload, if_pos (fair.iova k i write here)]
        exact later _

theorem kind_cases {k : Nat} {m : ReorderMsg} (holds : p.Holds k m) :
    m.kind = .send ∧ (p.op k).isSend = true ∧ m.withImm = (p.op k == .sendImm) ∧
        m.immData = (p.sendImm k).getD 0 ∧ m.totalLen = p.total k ∨
      m.kind = .write ∧ p.op k = .rdmaWrite ∧ m.withImm = false ∧
        m.remoteAddr = (p.wr k).remoteAddr.toNat ∧ m.rkey = (p.wr k).rkey.toNat := by
  have same := holds.same
  have fields := fun {α : Type} (field : ReorderMsg → α) => congrArg field same
  have kind := fields ReorderMsg.kind
  have withImm := fields ReorderMsg.withImm
  have immData := fields ReorderMsg.immData
  have totalLen := fields ReorderMsg.totalLen
  have remoteAddr := fields ReorderMsg.remoteAddr
  have rkey := fields ReorderMsg.rkey
  unfold Peer.fresh at kind withImm immData totalLen remoteAddr rkey
  cases send : (p.op k).isSend with
  | true =>
      rw [send] at kind withImm immData totalLen
      exact .inl ⟨kind, rfl, withImm, immData, totalLen⟩
  | false =>
      rw [send] at kind withImm remoteAddr rkey
      have plain : p.op k = .rdmaWrite := by
        cases is : p.op k with
        | rdmaWrite => rfl
        | rdmaWriteImm => exact absurd is holds.bufferable
        | send | sendImm =>
            rw [is] at send
            cases send
      exact .inr ⟨kind, plain, withImm, remoteAddr, rkey⟩

theorem all_seen {k : Nat} {m : ReorderMsg} (holds : p.Holds k m) (complete : m.complete = true) :
    ∀ i < p.count k, i ∈ m.fragSeen := by
  rw [holds.complete, decide_eq_true_iff] at complete
  exact mem_of_full holds.distinct holds.inside complete

theorem immOf_eq (k : Nat) : immOf (p.op k == .sendImm) ((p.sendImm k).getD 0) = p.sendImm k := by
  unfold immOf Peer.sendImm
  by_cases is : p.op k = .sendImm
  · simp [is]
  · simp [is]

theorem deliverMsg (ledger : Ledger p clean 0 [] q) (notFull : env.cqFull = false)
    (fair : clean → p.Fair env) {m : ReorderMsg} (holds : p.Holds q.consumed m)
    (complete : m.complete = true) (isSend : m.kind = .send) :
    Ledger p clean (if (q.deliverReorderMsg env m).2 then 1 else 0) []
      (q.deliverReorderMsg env m).1 := by
  have all := all_seen holds complete
  rcases kind_cases holds with ⟨-, send, withImm, immData, totalLen⟩ | ⟨kind, -⟩
  · unfold Rx.deliverReorderMsg
    cases popped : q.popRecv with
    | none => exact ledger.refuse _ (by decide) fun _ => by decide
    | some taken =>
        obtain ⟨wqe, next⟩ := taken
        have held := (ledger.pop popped).unlink m
        have consumed : next.consumed = q.consumed := by rw [popRecv_same popped]
        dsimp only
        rw [if_pos rfl, holds.psn, withImm, immData, totalLen, immOf_eq, holds.frags, ← consumed]
        rw [← consumed] at send all
        have inside := holds.inside
        rw [← consumed] at inside
        refine held.completeSend notFull send (fun success => ?_) fun isClean => ?_
        · split at success
          · cases success
          · rename_i copied
            split at success
            · cases success
            · rename_i fits
              have fits := Nat.le_of_not_lt fits
              refine ⟨fits, rfl, ?_⟩
              rw [copyFrags_eq inside fits (by simpa using copied)]
              exact fills inside all
        · have room := held.room isClean (Peer.takesRecv_of_send send)
          rw [copyFrags_ok ((fair isClean).recvMr wqe), if_neg (by decide), if_neg (by
            exact Nat.not_lt.mpr room)]
  · rw [isSend] at kind
    cases kind

theorem deliverWrite (ledger : Ledger p clean 0 [] q) (fair : clean → p.Fair env)
    {m : ReorderMsg} (holds : p.Holds q.consumed m) (isWrite : m.kind = .write) :
    Ledger p clean (if (q.deliverReorderWrite env m).2 then 1 else 0) []
      (q.deliverReorderWrite env m).1 := by
  rcases kind_cases holds with ⟨kind, -⟩ | ⟨-, plain, withImm, remoteAddr, rkey⟩
  · rw [isWrite] at kind
    cases kind
  · have write : (p.op q.consumed).isSend = false := by
      rw [plain]
      rfl
    have delivered : q.deliverReorderWrite env m =
        (((q.reorderUnlink m).writeReorder env m).1.passWrite m.psn
          (if ((q.reorderUnlink m).writeReorder env m).2 = .success then .ok else .error), true) := by
      unfold Rx.deliverReorderWrite
      rw [withImm]
      rfl
    obtain ⟨log, written⟩ := @writeReorder_same env (q.reorderUnlink m) m
    have after := @writeReorder p clean 0 (q.reorderUnlink m) env (ledger.unlink m) m
    have consumed : ((q.reorderUnlink m).writeReorder env m).1.consumed = q.consumed := by
      rw [written]
      rfl
    rw [delivered]
    dsimp only
    rw [if_pos rfl, holds.psn, ← consumed]
    refine after.passWrite (consumed ▸ plain) fun isClean => ?_
    have ok : ((q.reorderUnlink m).writeReorder env m).2 = .success := by
      have fair := fair isClean
      unfold Rx.writeReorder
      rw [rkey, fair.mr _ write, if_pos rfl, remoteAddr, holds.frags]
      exact writeFrags_ok fair write holds.inside
    rw [if_pos ok]
    decide

/-- One delivery: the entry is passed, or there is no receive for it. -/
theorem deliver (ledger : Ledger p clean 0 [] q) (notFull : env.cqFull = false)
    (fair : clean → p.Fair env) {m : ReorderMsg} (found : q.reorderFind q.expectedPsn = some m)
    (complete : m.complete = true) :
    Ledger p clean (if (q.deliverReorder env m).2 then 1 else 0) [] (q.deliverReorder env m).1 := by
  have limit : reorderMaxMessages = 1024 := rfl
  have size : psnMod = 2 ^ 24 := rfl
  rw [ledger.expected] at found
  have holds := ledger.found (Nat.zero_le 1) found (by omega) (by omega)
  unfold Rx.deliverReorder
  rcases kind_cases holds with ⟨kind, -⟩ | ⟨kind, -⟩
  · rw [kind]
    exact ledger.deliverMsg notFull fair holds complete kind
  · rw [kind]
    exact ledger.deliverWrite fair holds kind

/-! ## The drain -/

theorem pruneOne_rest (m : ReorderMsg) : (q.pruneOne m).consumed = q.consumed ∧
    (q.pruneOne m).expectedPsn = q.expectedPsn ∧ (q.pruneOne m).rxMsg = q.rxMsg ∧
    (q.pruneOne m).rxWrite = q.rxWrite := by
  unfold Rx.pruneOne
  repeat' split
  all_goals exact ⟨rfl, rfl, rfl, rfl⟩

/-- The round goes through all entries and leaves none that is behind. -/
theorem pruned_mem (messages : List ReorderMsg) {m : ReorderMsg}
    (left : m ∈ (messages.foldl Rx.pruneOne q).reorder) :
    m ∈ q.reorder ∧ (m ∈ messages → 0 ≤ psnDelta m.psn q.expectedPsn) := by
  induction messages generalizing q with
  | nil => exact ⟨left, nofun⟩
  | cons first rest ih =>
      obtain ⟨among, current⟩ := ih left
      rw [(pruneOne_rest first).2.1] at current
      unfold Rx.pruneOne at among
      split at among
      · rename_i ahead
        refine ⟨among, fun member => ?_⟩
        rcases List.mem_cons.mp member with rfl | later
        · exact ahead
        · exact current later
      · have kept : m ∈ q.reorder ∧ m.psn ≠ first.psn := by
          split at among
          · simpa [Rx.reorderUnlink, Rx.note] using among
          · simpa [Rx.reorderUnlink, Rx.reack, Rx.sendAck, Rx.note] using among
        refine ⟨kept.1, fun member => ?_⟩
        rcases List.mem_cons.mp member with rfl | later
        · exact absurd rfl kept.2
        · exact current later

/-- An entry that is behind is answered and dropped. -/
theorem pruneOne (ledger : Ledger p clean lag [] q) (small : lag ≤ 1) {k : Nat} {m : ReorderMsg}
    (holds : p.Holds k m) (behind : q.consumed ≤ k + lag)
    (ahead : k < q.consumed + reorderMaxMessages) : Ledger p clean lag [] (q.pruneOne m) := by
  have limit : reorderMaxMessages = 1024 := rfl
  unfold Rx.pruneOne
  split
  · exact ledger
  · rename_i past
    rw [holds.psn, ledger.expected, p.psnDelta_psn (by omega) (by omega)] at past
    have notRead : m.kind ≠ .readReq := by
      rcases kind_cases holds with ⟨kind, -⟩ | ⟨kind, -⟩ <;> rw [kind] <;> decide
    rw [if_neg notRead, holds.psn]
    exact (ledger.reack (by omega)).unlink m

theorem prune (ledger : Ledger p clean lag [] q) (small : lag ≤ 1) :
    Ledger p clean 0 [] q.pruneStaleReorder := by
  have limit : reorderMaxMessages = 1024 := rfl
  have all : ∀ (messages : List ReorderMsg) (q : Rx), Ledger p clean lag [] q →
      (∀ m ∈ messages, ∃ k, q.consumed ≤ k + lag ∧ k < q.consumed + reorderMaxMessages ∧
        p.Holds k m) →
      Ledger p clean lag [] (messages.foldl Rx.pruneOne q) ∧
        (messages.foldl Rx.pruneOne q).consumed = q.consumed := by
    intro messages
    induction messages with
    | nil => exact fun q ledger _ => ⟨ledger, rfl⟩
    | cons m rest ih =>
        intro q ledger near
        obtain ⟨k, behind, ahead, holds⟩ := near m List.mem_cons_self
        have same := (@pruneOne_rest q m).1
        obtain ⟨after, consumed⟩ := ih (q.pruneOne m)
          (ledger.pruneOne small holds behind ahead) fun other among => by
            rw [same]
            exact near other (List.mem_cons_of_mem _ among)
        exact ⟨after, consumed.trans same⟩
  obtain ⟨after, consumed⟩ := all q.reorder q ledger ledger.entries
  refine { after with entries := fun m left => ?_ }
  obtain ⟨among, current⟩ := pruned_mem q.reorder left
  obtain ⟨k, behind, ahead, holds⟩ := ledger.entries m among
  have current := current among
  rw [holds.psn, ledger.expected, p.psnDelta_psn (by omega) (by omega)] at current
  have consumed : q.pruneStaleReorder.consumed = q.consumed := consumed
  rw [consumed]
  exact ⟨k, by omega, ahead, holds⟩

theorem completeSend_rest (psn : Nat) (wqe : RecvWqe) (status : WcStatus) (imm : Option Nat)
    (writes : List Write) : (q.completeSend env psn wqe status imm writes).rxMsg = q.rxMsg ∧
      (q.completeSend env psn wqe status imm writes).rxWrite = q.rxWrite := by
  obtain ⟨log, pushed⟩ := @cqPush_same env q (.recv wqe status imm writes)
  unfold Rx.completeSend
  dsimp only
  rw [pushed]
  exact ⟨rfl, rfl⟩

theorem deliverReorder_rest (m : ReorderMsg) :
    (q.deliverReorder env m).1.rxMsg = q.rxMsg ∧ (q.deliverReorder env m).1.rxWrite = q.rxWrite := by
  unfold Rx.deliverReorder
  split
  · unfold Rx.deliverReorderWrite
    split
    · cases popped : q.popRecv with
      | none => exact ⟨rfl, rfl⟩
      | some taken =>
          obtain ⟨wqe, next⟩ := taken
          obtain ⟨log, written⟩ := @writeReorder_same env (next.reorderUnlink m) m
          obtain ⟨log', pushed⟩ := @pushImm_same env
            ((next.reorderUnlink m).writeReorder env m).1 wqe
            ((next.reorderUnlink m).writeReorder env m).2 m.immData
          dsimp only
          rw [pushed, written, popRecv_same popped]
          exact ⟨rfl, rfl⟩
    · obtain ⟨log, written⟩ := @writeReorder_same env (q.reorderUnlink m) m
      dsimp only
      rw [written]
      exact ⟨rfl, rfl⟩
  · exact ⟨rfl, rfl⟩
  · unfold Rx.deliverReorderMsg
    cases popped : q.popRecv with
    | none => exact ⟨rfl, rfl⟩
    | some taken =>
        obtain ⟨wqe, next⟩ := taken
        have rest := fun status => @completeSend_rest (next.reorderUnlink m) env m.psn wqe status
          (immOf m.withImm m.immData) (copyFrags env wqe m.frags).2
        rw [popRecv_same popped] at rest ⊢
        exact rest _

theorem drainLoop (fuel : Nat) (enough : q.reorder.length < fuel) (ledger : Ledger p clean lag [] q)
    (small : lag ≤ 1) (idle : q.rxMsg = none ∧ q.rxWrite = none) (notFull : env.cqFull = false)
    (fair : clean → p.Fair env) :
    Ledger p clean 0 [] (Rx.drainLoop env fuel q) ∧ (Rx.drainLoop env fuel q).rxMsg = none ∧
      (Rx.drainLoop env fuel q).rxWrite = none := by
  induction fuel generalizing q lag with
  | zero => omega
  | succ fuel ih =>
      obtain ⟨reorder, reorderCount, reorderBytes, log, same⟩ := @pruneStaleReorder_same q
      have pruned := ledger.prune small
      have still : q.pruneStaleReorder.rxMsg = none ∧ q.pruneStaleReorder.rxWrite = none := by
        rw [same]
        exact idle
      have expected : q.pruneStaleReorder.expectedPsn = q.expectedPsn := by rw [same]
      unfold Rx.drainLoop
      rw [if_neg (by simp [idle.1, idle.2])]
      split
      · exact ⟨pruned, still⟩
      rename_i m found
      split
      · exact ⟨pruned, still⟩
      rename_i complete
      rw [← expected] at found
      have delivered := pruned.deliver notFull fair found (by simpa using complete)
      have rest := @deliverReorder_rest q.pruneStaleReorder env m
      have idle' := And.intro (rest.1.trans still.1) (rest.2.trans still.2)
      dsimp only
      rcases @deliverReorder_ends env q.pruneStaleReorder m pruned.openQp with
        ⟨taken, left⟩ | ⟨refused, -⟩
      · rw [taken, if_pos rfl] at delivered ⊢
        refine ih ?_ delivered (Nat.le_refl 1) idle'
        have shorter := @length_unlinked q.pruneStaleReorder m (reorderFind_mem found)
        have before : q.pruneStaleReorder.reorder.length ≤ q.reorder.length := length_pruned _
        rw [left]
        omega
      · rw [refused, if_neg (by decide)] at delivered ⊢
        exact ⟨delivered, idle'⟩

theorem drainReorder (ledger : Ledger p clean lag [] q) (small : lag ≤ 1)
    (idle : q.rxMsg = none ∧ q.rxWrite = none) (notFull : env.cqFull = false)
    (fair : clean → p.Fair env) :
    Ledger p clean 0 [] (q.drainReorder env) ∧ (q.drainReorder env).rxMsg = none ∧
      (q.drainReorder env).rxWrite = none :=
  ledger.drainLoop _ (Nat.lt_succ_self _) small idle notFull fair

end Ledger

/-- Nothing is drained while a message or a write is assembled. -/
theorem drainReorder_busy {q : Rx} {env : Env} (busy : ¬ (q.rxMsg = none ∧ q.rxWrite = none)) :
    q.drainReorder env = q := by
  have active : (q.rxMsg.isSome || q.rxWrite.isSome) = true := by
    rw [Bool.or_eq_true, Option.isSome_iff_ne_none, Option.isSome_iff_ne_none]
    exact not_and_or.mp busy
  unfold Rx.drainReorder Rx.drainLoop
  rw [if_pos active]

end Tbv.RecvQueue
