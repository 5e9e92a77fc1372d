import ThunderboltIbverbs.Proto.NativeData

/-! # Work requests and their fragments

The payload side of `tbv_native_send_ctx_post_frames`: gathering a byte range from
the source segments, the header of a fragment and the cut into 4048-byte pieces. -/
set_option autoImplicit false
namespace Tbv.SendQueue

open Tbv.NativeData

/-- `struct tbv_send_segment`; `tbv_prepare_send_segments` skips empty ones. -/
structure Segment where
  addr : Nat
  length : Nat
  length_pos : 0 < length
  deriving DecidableEq, Repr

/-- The four operations `tbv_post_send_one` sends. -/
inductive SendOp where
  | send | sendImm | rdmaWrite | rdmaWriteImm
  deriving DecidableEq, Repr

def SendOp.opcode : SendOp → Op
  | .send => .send
  | .sendImm => .sendImm
  | .rdmaWrite => .rdmaWrite
  | .rdmaWriteImm => .rdmaWriteImm

def SendOp.isSend : SendOp → Bool
  | .send | .sendImm => true
  | _ => false

def SendOp.isWrite : SendOp → Bool
  | .rdmaWrite | .rdmaWriteImm => true
  | _ => false

def SendOp.hasImm : SendOp → Bool
  | .sendImm | .rdmaWriteImm => true
  | _ => false

/-- `recv_credit_required` of `tbv_post_send_one`. -/
def SendOp.recvCreditRequired : SendOp → Bool
  | .rdmaWrite => false
  | _ => true

/-- What `tbv_post_send_one` keeps of a `struct ib_send_wr`.  `zcopySafe` is the
answer of `tbv_send_segments_zcopy_safe` for its pages. -/
structure SendWr where
  opcode : SendOp
  segs : List Segment
  immData : Nat := 0
  remoteAddr : Nat := 0
  rkey : Nat := 0
  signaled : Bool := true
  zcopySafe : Bool := true
  deriving DecidableEq, Repr

def totalLen (segs : List Segment) : Nat := (segs.map Segment.length).sum

/-! ## Gathering -/

def readRange (memory : Nat → UInt8) (addr len : Nat) : List UInt8 :=
  (List.range len).map fun i => memory (addr + i)

def gather (memory : Nat → UInt8) (segs : List Segment) : List UInt8 :=
  segs.flatMap fun seg => readRange memory seg.addr seg.length

/-- The loop of `tbv_copy_send_range`; `none` is `-EFAULT`. -/
def copySendRangeLoop (memory : Nat → UInt8) (offset length : Nat) :
    List Segment → Nat → Nat → Option (List UInt8)
  | [], _, _ => none
  | seg :: rest, skipped, copied =>
      if skipped + seg.length ≤ offset then
        copySendRangeLoop memory offset length rest (skipped + seg.length) copied
      else
        let segOff := if skipped < offset then offset - skipped else 0
        let chunk := min (seg.length - segOff) (length - copied)
        let bytes := readRange memory (seg.addr + segOff) chunk
        if copied + chunk = length then some bytes
        else
          (copySendRangeLoop memory offset length rest (skipped + seg.length)
            (copied + chunk)).map (bytes ++ ·)

def copySendRange (memory : Nat → UInt8) (segs : List Segment) (offset length : Nat) :
    Option (List UInt8) :=
  if length = 0 then some [] else copySendRangeLoop memory offset length segs 0 0

@[simp] theorem length_readRange (memory : Nat → UInt8) (addr len : Nat) :
    (readRange memory addr len).length = len := by
  simp [readRange]

theorem readRange_drop (memory : Nat → UInt8) (addr len n : Nat) :
    (readRange memory addr len).drop n = readRange memory (addr + n) (len - n) := by
  apply List.ext_getElem
  · simp
  · intro i _ _
    simp [readRange, Nat.add_assoc]

theorem readRange_take (memory : Nat → UInt8) (addr len n : Nat) :
    (readRange memory addr len).take n = readRange memory addr (min n len) := by
  apply List.ext_getElem
  · simp
  · intro i _ _
    simp [readRange]

@[simp] theorem length_gather (memory : Nat → UInt8) (segs : List Segment) :
    (gather memory segs).length = totalLen segs := by
  induction segs with
  | nil => rfl
  | cons seg rest ih => simp_all [gather, totalLen]

/-- The bytes a run of the loop still has to copy, once it has passed `skipped`
bytes of segments and copied `copied` of the range. -/
theorem copySendRangeLoop_eq (memory : Nat → UInt8) (offset length : Nat)
    (segs : List Segment) (skipped copied : Nat) (more : copied < length)
    (reached : skipped ≤ offset ∧ copied = 0 ∨ skipped = offset + copied)
    (inside : offset + length ≤ skipped + totalLen segs) :
    copySendRangeLoop memory offset length segs skipped copied =
      some (((gather memory segs).drop (offset + copied - skipped)).take
        (length - copied)) := by
  induction segs generalizing skipped copied with
  | nil => simp [totalLen] at inside; omega
  | cons seg rest ih =>
      have positive := seg.length_pos
      have bytes : gather memory (seg :: rest) =
          readRange memory seg.addr seg.length ++ gather memory rest := rfl
      have total : totalLen (seg :: rest) = seg.length + totalLen rest := rfl
      rw [total] at inside
      by_cases passed : skipped + seg.length ≤ offset
      · -- The segment lies before the range.
        have start : copied = 0 := by omega
        subst start
        have gone : (readRange memory seg.addr seg.length).drop (offset + 0 - skipped) = [] := by
          rw [List.drop_eq_nil_iff, length_readRange]
          omega
        rw [copySendRangeLoop, if_pos passed,
          ih (skipped + seg.length) 0 more (.inl ⟨passed, rfl⟩) (by omega), bytes,
          List.drop_append, gone, length_readRange, List.nil_append]
        congr 3
        omega
      · -- The range starts in this segment or has been reached before it.
        have segOff : (if skipped < offset then offset - skipped else 0) =
            offset + copied - skipped := by
          split <;> omega
        have chunkBytes : readRange memory (seg.addr + (offset + copied - skipped))
            (min (seg.length - (offset + copied - skipped)) (length - copied)) =
            ((readRange memory seg.addr seg.length).drop (offset + copied - skipped)).take
              (length - copied) := by
          rw [readRange_drop, readRange_take, Nat.min_comm]
        have shape : ((gather memory (seg :: rest)).drop (offset + copied - skipped)).take
            (length - copied) =
            ((readRange memory seg.addr seg.length).drop (offset + copied - skipped)).take
              (length - copied) ++
            (gather memory rest).take
              (length - copied - (seg.length - (offset + copied - skipped))) := by
          rw [bytes, List.drop_append_of_le_length (by rw [length_readRange]; omega),
            List.take_append, List.length_drop, length_readRange]
        rw [copySendRangeLoop, if_neg passed, shape]
        simp only [segOff, chunkBytes]
        split
        · have rest0 : length - copied - (seg.length - (offset + copied - skipped)) = 0 := by
            omega
          rw [rest0, List.take_zero, List.append_nil]
        · have chunk : min (seg.length - (offset + copied - skipped)) (length - copied) =
              seg.length - (offset + copied - skipped) := by
            omega
          rw [chunk, ih (skipped + seg.length)
            (copied + (seg.length - (offset + copied - skipped))) (by omega) (.inr (by omega))
            (by omega), Option.map_some]
          congr 2
          rw [show offset + (copied + (seg.length - (offset + copied - skipped))) -
            (skipped + seg.length) = 0 by omega, List.drop_zero]
          congr 1
          omega

/-- A range inside the request is copied whole, whatever segments it crosses. -/
theorem copySendRange_eq (memory : Nat → UInt8) (segs : List Segment) (offset length : Nat)
    (inside : offset + length ≤ totalLen segs) :
    copySendRange memory segs offset length =
      some (((gather memory segs).drop offset).take length) := by
  unfold copySendRange
  split
  case isTrue empty => simp [empty]
  case isFalse more =>
    rw [copySendRangeLoop_eq memory offset length segs 0 0 (by omega) (.inl ⟨by omega, rfl⟩)
      (by omega)]
    simp

theorem gather_congr {memory memory' : Nat → UInt8} {segs : List Segment}
    (same : ∀ seg ∈ segs, ∀ i < seg.length, memory (seg.addr + i) = memory' (seg.addr + i)) :
    gather memory segs = gather memory' segs := by
  induction segs with
  | nil => rfl
  | cons seg rest ih =>
      have head : readRange memory seg.addr seg.length = readRange memory' seg.addr seg.length := by
        refine List.map_congr_left fun i inside => ?_
        exact same seg (List.mem_cons_self ..) i (List.mem_range.mp inside)
      have tail := ih fun other among => same other (List.mem_cons_of_mem _ among)
      change readRange memory seg.addr seg.length ++ gather memory rest =
        readRange memory' seg.addr seg.length ++ gather memory' rest
      rw [head, tail]

/-! ## Fragments -/

/-- `tbv_send_ctx_build_native_header`.  `solicited` is tested before `retryable`
is assigned, so `tbv_post_send_one` sets it on every request. -/
def buildNativeHeader (wr : SendWr) (destQp srcQp psn offset payloadLen : Nat) (last : Bool) :
    Header :=
  let total := totalLen wr.segs
  { opcode := wr.opcode.opcode
    flags := if last then fLast ||| fSolicited else 0
    destQp, srcQp, psn
    length := payloadLen
    immData :=
      if wr.opcode.isSend then total
      else if wr.opcode.hasImm then wr.immData else total
    remoteAddr := if wr.opcode.isSend then 0 else wr.remoteAddr
    rkey :=
      if wr.opcode.isSend then (if wr.opcode.hasImm then wr.immData else 0) else wr.rkey
    fragOffset := offset }

/-- `nfrags` of `tbv_native_send_ctx_post_frames`. -/
def fragCount (total : Nat) : Nat :=
  if total = 0 then 1 else (total + maxPayload - 1) / maxPayload

def fragLen (total offset : Nat) : Nat := min (total - offset) maxPayload

end Tbv.SendQueue
