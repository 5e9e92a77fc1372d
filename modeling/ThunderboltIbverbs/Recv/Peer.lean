import ThunderboltIbverbs.Proto.FragmentShape
import ThunderboltIbverbs.Recv.Acts
import ThunderboltIbverbs.Send.Delivered

/-! # What one peer sends to a QP

The requests that `tbv_post_send_one` of the peer accepts, in the order of their posts, and the
fragments that `tbv_native_send_ctx_post_frames` cuts them into.  The operation `k` has the PSN
`start + k`. -/
set_option autoImplicit false
namespace Tbv.RecvQueue

open Tbv.NativeData
open Tbv.SendQueue (PostQp IbSendWr Mr WireCtx SendOp Accepted postSendOne postSendOne_accepted
  gather totalLen fragCount length_gather)

/-- The QP of the peer, and its accepted requests with the memory they are sent from. -/
structure Peer where
  qp : PostQp
  start : Nat
  mrs : Nat → UInt32 → Option Mr
  wr : Nat → IbSendWr
  memory : Nat → Nat → UInt8
  ctx : Nat → WireCtx
  accepted : ∀ k, postSendOne { qp with sendPsn := .ofNat ((start + k) % psnMod) } (mrs k) (wr k) =
    .ok (ctx k)

namespace Peer

variable (p : Peer)

def op (k : Nat) : SendOp := (p.ctx k).opcode

def total (k : Nat) : Nat := (p.ctx k).totalLen

def data (k : Nat) : List UInt8 := gather (p.memory k) (p.ctx k).segs

def psn (k : Nat) : Nat := (p.start + k) % psnMod

def count (k : Nat) : Nat := fragCount (p.total k)

def offset (i : Nat) : Nat := i * maxPayload

def length (k i : Nat) : Nat := (p.ctx k).pieceLen (offset i)

def last (k i : Nat) : Bool := offset i + p.length k i = p.total k

def header (k i : Nat) : Header := (p.ctx k).header p.qp (offset i)

def payload (k i : Nat) : List UInt8 := (p.ctx k).piece (p.memory k) (offset i)

def srcQp : Nat := p.qp.qpNum.toNat

def imm (k : Nat) : Nat := (p.wr k).immData.toNat

/-- The operation takes a receive: every one but the RDMA write without immediate. -/
def takesRecv (k : Nat) : Bool := (p.op k).recvCreditRequired

/-! ## The fragments -/

theorem facts (k : Nat) : Accepted { p.qp with sendPsn := .ofNat ((p.start + k) % psnMod) }
    (p.wr k) (p.memory k) (p.ctx k) := postSendOne_accepted (p.accepted k) _

theorem total_eq (k : Nat) : p.total k = (p.data k).length := by
  rw [data, length_gather]
  exact (p.facts k).total

/-- A write is accepted with a target inside the address space. -/
theorem target_lt {k : Nat} (write : (p.op k).isSend = false) :
    (p.wr k).remoteAddr.toNat + p.total k < 2 ^ 64 := by
  have isWrite : (p.wr k).opcode.isWrite = true := by
    have same : p.op k = (p.wr k).opcode := (p.facts k).opcode
    rw [same] at write
    cases is : (p.wr k).opcode with
    | send | sendImm =>
        rw [is] at write
        cases write
    | rdmaWrite | rdmaWriteImm => rfl
  have total := (p.facts k).total
  have accepted := p.accepted k
  unfold postSendOne at accepted
  split at accepted
  · cases accepted
  split at accepted
  · cases accepted
  rename_i segs prepared
  split at accepted
  · cases accepted
  · rename_i inside
    have segs : (p.ctx k).segs = segs := by
      rw [← Except.ok.inj accepted]
      unfold SendQueue.fillCtx
      rw [if_pos isWrite]
      rfl
    rw [isWrite, Bool.true_and, decide_eq_true_eq, ← segs, ← total] at inside
    exact Nat.lt_of_not_le inside

theorem total_le (k : Nat) : p.total k ≤ maxMsgSize := (p.facts k).bounded

theorem psn_lt (k : Nat) : p.psn k < psnMod := mod_psnMod_lt _

@[simp] theorem psn_mod (k : Nat) : p.psn k % psnMod = p.psn k := Nat.mod_eq_of_lt (p.psn_lt k)

theorem psnNext_psn (k : Nat) : psnNext (p.psn k) = p.psn (k + 1) := by
  simp [psnNext, psn, Nat.add_assoc]

/-- Inside half of the PSN space, the distance of two PSNs is that of their operations. -/
theorem psnDelta_psn {k e : Nat} (ahead : k < e + 2 ^ 23) (behind : e ≤ k + 2 ^ 23) :
    psnDelta (p.psn k) (p.psn e) = (k : Int) - e := by
  unfold psnDelta psn psnMod
  dsimp only
  split <;> omega

theorem psn_inj {k j : Nat} (ahead : k < j + 2 ^ 24) (behind : j < k + 2 ^ 24)
    (same : p.psn k = p.psn j) : k = j := by
  unfold psn psnMod at same
  omega

variable {p} {k i : Nat}

theorem count_pos : 0 < p.count k := by
  have payload : maxPayload = 4048 := rfl
  unfold count fragCount
  simp only [payload]
  split <;> omega

theorem offset_lt (inside : i < p.count k) (some : p.total k ≠ 0) : offset i < p.total k := by
  unfold count fragCount at inside
  rw [if_neg some] at inside
  exact (lt_chunkCount (by decide)).mp inside

/-- An empty operation has one fragment. -/
theorem eq_zero (inside : i < p.count k) (none : p.total k = 0) : i = 0 := by
  unfold count fragCount at inside
  rw [if_pos none] at inside
  omega

theorem offset_le (inside : i < p.count k) : offset i ≤ p.total k := by
  by_cases none : p.total k = 0
  · rw [eq_zero inside none, offset, Nat.zero_mul]
    exact Nat.zero_le _
  · exact (offset_lt inside none).le

theorem offset_inj {j : Nat} (same : offset i = offset j) : i = j :=
  Nat.eq_of_mul_eq_mul_right (by decide : 0 < maxPayload) same

theorem offset_lt_offset {j : Nat} : offset i < offset j ↔ i < j :=
  Nat.mul_lt_mul_right (by decide : 0 < maxPayload)

theorem length_eq (k i : Nat) : p.length k i = min (p.total k - offset i) maxPayload := rfl

@[simp] theorem length_payload (k i : Nat) : (p.payload k i).length = p.length k i := by
  have size := p.total_eq k
  unfold data at size
  rw [payload, WireCtx.piece, List.length_take, List.length_drop, ← size]
  exact Nat.min_eq_left (Nat.min_le_left _ _)

theorem fragEnd_le (inside : i < p.count k) : offset i + p.length k i ≤ p.total k := by
  have := offset_le inside
  have := p.length_eq k i
  omega

theorem last_iff : p.last k i = true ↔ offset i + p.length k i = p.total k := by
  simp [last]

theorem not_last_length (inside : i < p.count k) (more : p.last k i = false) :
    p.length k i = maxPayload := by
  have ends := fragEnd_le inside
  have more : ¬ offset i + p.length k i = p.total k := by simpa [last] using more
  have := p.length_eq k i
  omega

theorem last_iff_place (inside : i < p.count k) : p.last k i = true ↔ i + 1 = p.count k := by
  have := @SendQueue.ends_iff_last (p.ctx k) i inside
  rw [last_iff]
  exact this

theorem length_pos (inside : i < p.count k) (some : p.total k ≠ 0) : 0 < p.length k i := by
  have := offset_lt inside some
  have payload : maxPayload = 4048 := rfl
  have := p.length_eq k i
  omega

theorem payload_ne_nil (inside : i < p.count k) : p.payload k i ≠ [] ↔ p.total k ≠ 0 := by
  rw [← List.length_pos_iff, length_payload]
  constructor
  · intro some none
    have := p.length_eq k i
    omega
  · exact length_pos inside

theorem shape (inside : i < p.count k) :
    rxFragmentShape (p.total k) (offset i) (p.length k i) (p.last k i) = some (i, p.count k) := by
  have size := p.total_le k
  by_cases empty : p.total k = 0
  · obtain rfl := eq_zero inside empty
    have nothing : p.length k 0 = 0 := by
      have := p.length_eq k 0
      omega
    have done : p.last k 0 = true := last_iff.mpr (by rw [empty, nothing]; rfl)
    have one : p.count k = 1 := by simp [count, fragCount, empty]
    rw [empty, nothing, done, one]
    rfl
  · have counted : p.count k = chunkCount (p.total k) maxPayload := if_neg empty
    have before := offset_lt inside empty
    have ends : p.last k i = chunkLast (p.total k) maxPayload i := by
      have := p.length_eq k i
      unfold offset at before this
      rw [Bool.eq_iff_iff, last_iff, chunkLast, decide_eq_true_iff, offset]
      omega
    rw [ends, counted]
    exact rxFragmentShape_tile (by omega) size before

theorem writeShape (inside : i < p.count k) :
    rxWriteFragmentShape (p.total k) (offset i) (p.length k i) (p.last k i) =
      some (i, p.count k) := by
  rw [rxWriteFragmentShape, shape inside]
  rfl

/-! ## The headers -/

@[simp] theorem header_psn : (p.header k i).psn = p.psn k := by
  have psn := (p.facts k).psn
  have small : (p.start + k) % psnMod < 2 ^ 32 := (mod_psnMod_lt _).trans (by decide)
  change (p.ctx k).psn = p.psn k
  rw [psn]
  change (UInt32.ofNat ((p.start + k) % psnMod)).toNat % psnMod = p.psn k
  rw [UInt32.toNat_ofNat_of_lt' small, Nat.mod_mod]
  rfl

@[simp] theorem header_opcode : (p.header k i).opcode = (p.op k).opcode := rfl

@[simp] theorem header_srcQp : (p.header k i).srcQp = p.srcQp := rfl

@[simp] theorem header_length : (p.header k i).length = p.length k i := rfl

@[simp] theorem header_fragOffset : (p.header k i).fragOffset = offset i := rfl

theorem header_flags : (p.header k i).flags = if p.last k i then fLast ||| fSolicited else 0 := by
  have solicited := (p.facts k).solicited
  change (if p.last k i && (p.ctx k).solicited then (if p.last k i then fLast else 0) ||| fSolicited
    else if p.last k i then fLast else 0) = _
  rw [solicited]
  cases p.last k i <;> rfl

@[simp] theorem header_last : hasFlag (p.header k i).flags fLast = p.last k i := by
  rw [header_flags]
  cases p.last k i <;> decide

theorem header_known : ((p.header k i).flags &&& ~~~(fLast ||| fSolicited) != 0) = false := by
  rw [header_flags]
  cases p.last k i <;> decide

theorem op_eq : p.op k = (p.wr k).opcode := (p.facts k).opcode

/-- What the headers of a SEND carry in the place of the address and the key. -/
theorem header_send (send : (p.op k).isSend = true) :
    (p.header k i).immData = p.total k ∧ (p.header k i).remoteAddr = 0 ∧
      (p.header k i).rkey = if p.op k = .sendImm then p.imm k else 0 := by
  have has := (p.facts k).imm
  rw [← op_eq] at has
  refine ⟨if_pos send, if_pos send, (if_pos send).trans ?_⟩
  change (if (p.op k).hasImm then _ else _) = _
  cases is : p.op k with
  | send => rfl
  | sendImm =>
      rw [is] at has
      exact has rfl
  | rdmaWrite | rdmaWriteImm =>
      rw [is] at send
      cases send

theorem header_write (write : (p.op k).isSend = false) :
    (p.header k i).immData = (if p.op k = .rdmaWriteImm then p.imm k else p.total k) ∧
      (p.header k i).remoteAddr = (p.wr k).remoteAddr.toNat ∧
      (p.header k i).rkey = (p.wr k).rkey.toNat := by
  have not : ¬ (p.ctx k).opcode.isSend = true := by
    change ¬ (p.op k).isSend = true
    simp [write]
  have has := (p.facts k).imm
  have target := (p.facts k).write
  rw [← op_eq] at has target
  have isWrite : (p.op k).isWrite = true := by
    cases is : p.op k with
    | send | sendImm =>
        rw [is] at write
        cases write
    | rdmaWrite | rdmaWriteImm => rfl
  refine ⟨(if_neg not).trans ?_, (if_neg not).trans (target isWrite).1,
    (if_neg not).trans (target isWrite).2⟩
  change (if (p.op k).hasImm then _ else _) = _
  cases is : p.op k with
  | send | sendImm =>
      rw [is] at write
      cases write
  | rdmaWrite => rfl
  | rdmaWriteImm =>
      rw [is] at has
      exact has rfl

theorem sendBadHeader_header (send : (p.op k).isSend = true) (inside : i < p.count k) :
    sendBadHeader (p.header k i) = false := by
  obtain ⟨total, addr, rkey⟩ := header_send (i := i) send
  have ends := fragEnd_le inside
  have bounded := p.total_le k
  have size : maxMsgSize = 16777216 := rfl
  have cut : (!p.last k i && p.length k i == 0) = false := by
    cases more : p.last k i with
    | true => rfl
    | false => rw [not_last_length inside more]; decide
  have plain : ((p.op k).opcode != .sendImm && (p.header k i).rkey != 0) = false := by
    rw [rkey]
    cases p.op k <;> simp [SendOp.opcode]
  have last : p.last k i = decide (offset i + p.length k i = p.total k) := rfl
  have wide : decide (2 ^ 64 ≤ (p.header k i).fragOffset + (p.header k i).length) = false :=
    decide_eq_false (by rw [header_fragOffset, header_length]; omega)
  unfold sendBadHeader
  dsimp only
  rw [wide]
  simp only [header_last, header_fragOffset, header_length, header_opcode, header_known, total,
    addr, plain, cut, ← last]
  simp
  omega

/-- The one header of the peer that the receiver rejects. -/
theorem writeBadHeader_header (write : (p.op k).isSend = false) (inside : i < p.count k) :
    writeBadHeader true (p.header k i) = decide (p.op k = .rdmaWrite ∧ p.total k = 0) := by
  obtain ⟨imm, addr, rkey⟩ := header_write (i := i) write
  have ends := fragEnd_le inside
  have bounded := p.total_le k
  have size : maxMsgSize = 16777216 := rfl
  have cut : p.last k i = false → p.length k i ≠ 0 := fun more => by
    rw [not_last_length inside more]
    decide
  have known := header_known (p := p) (k := k) (i := i)
  rw [Bool.eq_iff_iff, decide_eq_true_iff]
  unfold writeBadHeader
  simp only [Bool.or_eq_true, Bool.and_eq_true, decide_eq_true_eq, known, Bool.not_eq_true']
  cases is : p.op k with
  | send | sendImm =>
      rw [is] at write
      cases write
  | rdmaWrite =>
      have total : (p.header k i).immData = p.total k := by rw [imm, is, if_neg (by decide)]
      have ending := last_iff (p := p) (k := k) (i := i)
      simp only [total, header_last, header_fragOffset, header_length, header_opcode, is,
        SendOp.opcode]
      simp
      grind
  | rdmaWriteImm =>
      simp only [header_last, header_fragOffset, header_length, header_opcode, is, SendOp.opcode]
      simp
      grind

end Peer
end Tbv.RecvQueue
