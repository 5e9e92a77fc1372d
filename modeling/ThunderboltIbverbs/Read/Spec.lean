import ThunderboltIbverbs.Read.Model
import ThunderboltIbverbs.Proto.FragmentShape

/-! # What the functions of a read compute

The loops of the response and of the scatter in closed form: the frames are the
4048-byte cuts of the snapshot, the bytes of a range go to its addresses in order. -/
set_option autoImplicit false
namespace Tbv.ReadQueue

open Tbv.NativeData
open Tbv.SendQueue (Segment totalLen)

/-! ## The frames of a response -/

theorem responseFrame_length (req : Header) (data : List UInt8) (offset : Nat) :
    (responseFrame req data offset).1.length = min (req.immData - offset) maxPayload := rfl

theorem responseLoop_eq (req : Header) (data : List UInt8) (fuel start : Nat)
    (inside : start * maxPayload < req.immData)
    (enough : (req.immData + maxPayload - 1) / maxPayload = start + fuel) :
    responseLoop req data fuel (start * maxPayload) =
      (List.range' start fuel).map fun i => responseFrame req data (i * maxPayload) := by
  have payload : maxPayload = 4048 := rfl
  induction fuel generalizing start with
  | zero => rfl
  | succ fuel ih =>
      have length := responseFrame_length req data (start * maxPayload)
      simp only [responseLoop, List.range'_succ, List.map_cons]
      congr 1
      by_cases more : start * maxPayload + (responseFrame req data (start * maxPayload)).1.length <
          req.immData
      · have full : (responseFrame req data (start * maxPayload)).1.length = maxPayload := by
          omega
        rw [if_pos more, full, ← Nat.succ_mul]
        rw [full, ← Nat.succ_mul] at more
        exact ih (start + 1) more (by omega)
      · have none : fuel = 0 := by
          rw [length] at more
          simp only [payload] at more inside enough
          omega
        subst none
        rw [if_neg more]
        rfl

/-- The response is the tiling of the snapshot. -/
theorem sendReadResponse_eq (req : Header) (data : List UInt8) (positive : 0 < req.immData) :
    sendReadResponse req data =
      (List.range ((req.immData + maxPayload - 1) / maxPayload)).map fun i =>
        responseFrame req data (i * maxPayload) := by
  have loop := responseLoop_eq req data ((req.immData + maxPayload - 1) / maxPayload) 0
    (by omega) (by omega)
  rw [Nat.zero_mul] at loop
  rw [sendReadResponse, responseCount, if_neg (by omega), loop, List.range_eq_range']

/-! ## The addresses of a destination -/

def locations (segs : List Segment) : List Nat :=
  segs.flatMap fun seg => List.range' seg.addr seg.length

def stores (psn : Nat) (addrs : List Nat) (bytes : List UInt8) : List Write :=
  List.zipWith (Write.mk psn) addrs bytes

@[simp] theorem length_locations (segs : List Segment) :
    (locations segs).length = totalLen segs := by
  induction segs with
  | nil => rfl
  | cons seg rest ih =>
      change (List.range' seg.addr seg.length ++ locations rest).length =
        seg.length + totalLen rest
      rw [List.length_append, List.length_range', ih]

theorem range'_drop (addr len n : Nat) :
    (List.range' addr len).drop n = List.range' (addr + n) (len - n) := by
  apply List.ext_getElem
  · simp
  · intro i _ _
    simp [Nat.add_assoc]

theorem range'_take (addr len n : Nat) :
    (List.range' addr len).take n = List.range' addr (min n len) := by
  apply List.ext_getElem
  · simp
  · intro i _ _
    simp

theorem umemCopyTo_eq (psn addr : Nat) (bytes : List UInt8) :
    umemCopyTo psn addr bytes = stores psn (List.range' addr bytes.length) bytes := by
  apply List.ext_getElem
  · simp [umemCopyTo, stores]
  · intro i _ _
    simp [umemCopyTo, stores]

/-- The bytes a run of the loop still has to store, once it has passed `skipped`
bytes of segments and stored `copied` of the range. -/
theorem copyToReadSegmentsLoop_eq (psn offset len : Nat) (payload : List UInt8)
    (exact : payload.length = len) (segs : List Segment) (skipped copied : Nat)
    (more : copied < len)
    (reached : skipped ≤ offset ∧ copied = 0 ∨ skipped = offset + copied)
    (inside : offset + len ≤ skipped + totalLen segs) :
    copyToReadSegmentsLoop psn offset len payload segs skipped copied =
      (stores psn (((locations segs).drop (offset + copied - skipped)).take (len - copied))
        (payload.drop copied), true) := by
  induction segs generalizing skipped copied with
  | nil => simp [totalLen] at inside; omega
  | cons seg rest ih =>
      have positive := seg.length_pos
      have addrs : locations (seg :: rest) =
          List.range' seg.addr seg.length ++ locations rest := rfl
      have total : totalLen (seg :: rest) = seg.length + totalLen rest := rfl
      rw [total] at inside
      by_cases passed : skipped + seg.length ≤ offset
      · -- The segment lies before the range.
        have start : copied = 0 := by omega
        subst start
        have gone : (List.range' seg.addr seg.length).drop (offset + 0 - skipped) = [] := by
          rw [List.drop_eq_nil_iff, List.length_range']
          omega
        rw [copyToReadSegmentsLoop, if_pos passed,
          ih (skipped + seg.length) 0 more (.inl ⟨passed, rfl⟩) (by omega), addrs,
          List.drop_append, gone, List.length_range', List.nil_append]
        congr 4
        omega
      · -- The range starts in this segment or has been reached before it.
        have segOff : (if skipped < offset then offset - skipped else 0) =
            offset + copied - skipped := by
          split <;> omega
        obtain ⟨into, intoEq⟩ : ∃ into, into = offset + copied - skipped := ⟨_, rfl⟩
        have chunk : ((payload.drop copied).take (min (seg.length - into) (len - copied))).length
            = min (seg.length - into) (len - copied) := by
          rw [List.length_take, List.length_drop, exact]
          omega
        have stored : umemCopyTo psn (seg.addr + into)
            ((payload.drop copied).take (min (seg.length - into) (len - copied))) =
            stores psn (((List.range' seg.addr seg.length).drop into).take (len - copied))
              ((payload.drop copied).take (min (seg.length - into) (len - copied))) := by
          rw [umemCopyTo_eq, chunk, range'_drop, range'_take, Nat.min_comm]
        have shape : ((locations (seg :: rest)).drop into).take (len - copied) =
            ((List.range' seg.addr seg.length).drop into).take (len - copied) ++
              (locations rest).take (len - copied - (seg.length - into)) := by
          rw [addrs, List.drop_append_of_le_length (by rw [List.length_range']; omega),
            List.take_append, List.length_drop, List.length_range']
        rw [copyToReadSegmentsLoop, if_neg passed]
        simp only [segOff, ← intoEq]
        rw [shape, stored]
        split
        · have whole : (payload.drop copied).take (min (seg.length - into) (len - copied)) =
              payload.drop copied := by
            rw [List.take_of_length_le]
            rw [List.length_drop, exact]
            omega
          have rest0 : len - copied - (seg.length - into) = 0 := by omega
          rw [whole, rest0, List.take_zero, List.append_nil]
        · have short : min (seg.length - into) (len - copied) = seg.length - into := by omega
          rw [short, ih (skipped + seg.length) (copied + (seg.length - into)) (by omega)
            (.inr (by omega)) (by omega)]
          have none : offset + (copied + (seg.length - into)) - (skipped + seg.length) = 0 := by
            omega
          have count : len - (copied + (seg.length - into)) =
              len - copied - (seg.length - into) := by
            omega
          simp only [none, count, List.drop_zero, Prod.mk.injEq, and_true]
          have cut : payload.drop copied = (payload.drop copied).take (seg.length - into) ++
              payload.drop (copied + (seg.length - into)) := by
            rw [← List.drop_drop, List.take_append_drop]
          unfold stores
          rw [cut, List.zipWith_append, ← cut]
          rw [List.length_take, List.length_drop, List.length_range', List.length_take,
            List.length_drop, exact]
          omega

/-- A range inside the read is stored whole, whatever segments it crosses. -/
theorem copyToReadSegments_eq (read : ReadCtx) (offset : Nat) (payload : List UInt8)
    (inside : offset + payload.length ≤ totalLen read.segs) :
    copyToReadSegments read offset payload payload.length =
      (stores read.psn (((locations read.segs).drop offset).take payload.length) payload,
        true) := by
  unfold copyToReadSegments
  split
  case isTrue empty =>
    rw [List.eq_nil_of_length_eq_zero empty]
    simp [stores]
  case isFalse more =>
    rw [copyToReadSegmentsLoop_eq read.psn offset payload.length payload rfl read.segs 0 0
      (by omega) (.inl ⟨by omega, rfl⟩) (by omega)]
    simp

end Tbv.ReadQueue
