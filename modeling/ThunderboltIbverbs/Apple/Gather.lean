import ThunderboltIbverbs.Apple.Split
import Mathlib.Data.List.Forall2

/-! # What a slot gathers

`copyPieceToBuf` either appends the whole frame or leaves the slot as it is, and
appends exactly when the frame is inside both limits. -/
set_option autoImplicit false
namespace Tbv.AppleRx

variable {cfg : Config} {q : Qp} {message : List Arrival}

/-! ## Growing the buffer -/

/-- The growth loop ends, with enough room: the capacity doubles in each turn. -/
theorem growCapacity_enough {maxBytes required fuel capacity : Nat} (allowed : required ≤ maxBytes)
    (soon : required ≤ capacity * 2 ^ fuel) :
    ∃ grown, growCapacity maxBytes required (fuel + 1) capacity = some grown ∧
      required ≤ grown := by
  induction fuel generalizing capacity with
  | zero =>
      have large : ¬ capacity < required := by omega
      exact ⟨capacity, by simp [growCapacity, large], by omega⟩
  | succ fuel ih =>
      by_cases small : capacity < required
      · by_cases last : 2 ^ 32 ≤ capacity * 2 ∨ maxBytes < capacity * 2
        · exact ⟨maxBytes, by rw [growCapacity, if_pos small, if_pos last], allowed⟩
        · have further : required ≤ capacity * 2 * 2 ^ fuel := by
            rw [Nat.mul_assoc, ← Nat.pow_succ']
            exact soon
          obtain ⟨grown, ran, enough⟩ := ih further
          refine ⟨grown, ?_, enough⟩
          rw [growCapacity, if_pos small, if_neg last]
          exact ran
      · exact ⟨capacity, by simp [growCapacity, small], by omega⟩

/-- The buffer has the slot's capacity, and what was delivered lies inside it. -/
structure Slot.Sound (p : Slot) : Prop where
  size : p.buf.length = p.capacity
  inside : p.delivered ≤ p.capacity

def Slot.data (p : Slot) : List UInt8 := p.buf.take p.delivered

theorem Slot.Sound.data_length {p : Slot} (sound : p.Sound) : p.data.length = p.delivered := by
  have := sound.size
  have := sound.inside
  rw [Slot.data, List.length_take]
  omega

theorem Slot.Sound.reset {p : Slot} (sound : p.Sound) : p.reset.Sound :=
  ⟨sound.size, Nat.zero_le _⟩

theorem Slot.grow_ok {p : Slot} (sound : p.Sound) {maxBytes required : Nat}
    (allowed : required ≤ maxBytes) (small : required < 2 ^ 32) (more : p.delivered ≤ required) :
    ∃ grown, p.grow cfg maxBytes required true = .ok grown ∧ grown.Sound ∧
      required ≤ grown.capacity ∧ grown.data = p.data ∧ grown.delivered = p.delivered ∧
      grown.status = p.status ∧ grown.active = p.active ∧ grown.ready = p.ready := by
  by_cases short : p.capacity < required
  · have start : 0 < (if p.capacity = 0 then cfg.pageSize else p.capacity) := by
      have := cfg.pageSize_pos
      split <;> omega
    have soon : required ≤ (if p.capacity = 0 then cfg.pageSize else p.capacity) * 2 ^ 32 := by
      have := Nat.le_mul_of_pos_left (2 ^ 32) start
      omega
    obtain ⟨grown, ran, enough⟩ := growCapacity_enough allowed soon
    have size := sound.size
    have inside := sound.inside
    have kept : (p.buf.take p.delivered).length = p.delivered := sound.data_length
    refine ⟨p.enlarge grown, ?_, ⟨?_, ?_⟩, enough, ?_, rfl, rfl, rfl, rfl⟩
    · rw [Slot.grow, if_pos short, ran]
      simp [Nat.not_lt.mpr enough]
    · simp only [Slot.enlarge, List.length_append, List.length_replicate, kept]
      omega
    · show p.delivered ≤ grown
      omega
    · exact List.take_left' kept
  · exact ⟨p, by simp [Slot.grow, short], sound, by omega, rfl, rfl, rfl, rfl, rfl⟩

/-! ## Appending a frame -/

/-- A frame inside both limits is appended whole. -/
theorem copyPieceToBuf_fits {p : Slot} (sound : p.Sound) {bytes : Nat} {src : List UInt8}
    (nonempty : src ≠ []) (message : p.delivered + src.length ≤ cfg.maxBytes)
    (total : bytes + src.length ≤ cfg.pendingTotalBytes) :
    ∃ next, copyPieceToBuf cfg bytes p src true = .ok (next, bytes + src.length) ∧ next.Sound ∧
      next.data = p.data ++ src ∧ next.delivered = p.delivered + src.length ∧
      next.status = p.status ∧ next.active = p.active ∧ next.ready = p.ready := by
  have positive : 0 < src.length := List.length_pos_iff.mpr nonempty
  have small : cfg.maxBytes < 2 ^ 32 := by
    have : cfg.maxBytes ≤ maxMsgSize := Nat.min_le_right ..
    simp only [maxMsgSize] at this
    omega
  have limit := cfg.pendingTotalBytes_lt
  obtain ⟨grown, ran, grownSound, room, data, delivered, status, active, ready⟩ :=
    @Slot.grow_ok cfg p sound _ _ message (by omega) (Nat.le_add_right _ src.length)
  have kept : (grown.buf.take grown.delivered).length = grown.delivered := grownSound.data_length
  have size := grownSound.size
  refine ⟨grown.append src, ?_, ⟨?_, ?_⟩, ?_, ?_, status, active, ready⟩
  · unfold copyPieceToBuf
    rw [if_neg (by omega), if_neg (by omega), if_neg (by omega), if_neg (by omega), ran]
    rfl
  · simp only [Slot.append, List.length_append, kept, List.length_drop]
    omega
  · show grown.delivered + src.length ≤ grown.capacity
    omega
  · show ((grown.buf.take grown.delivered ++ src) ++ _).take (grown.delivered + src.length) = _
    rw [List.take_left' (by rw [List.length_append, kept])]
    exact congrArg (· ++ src) data
  · show grown.delivered + src.length = _
    omega

theorem copyPieceToBuf_refuses {p : Slot} {bytes : Nat} {src : List UInt8} {allocs : Bool}
    (nonempty : src ≠ [])
    (outside : ¬ (p.delivered + src.length ≤ cfg.maxBytes ∧
      bytes + src.length ≤ cfg.pendingTotalBytes)) :
    ∃ err, copyPieceToBuf cfg bytes p src allocs = .error err ∧ err.status = .locLenErr := by
  have positive : 0 < src.length := List.length_pos_iff.mpr nonempty
  unfold copyPieceToBuf
  rw [if_neg (by omega)]
  by_cases overflow : 2 ^ 32 ≤ p.delivered + src.length
  · exact ⟨.emsgsize, by rw [if_pos overflow], rfl⟩
  rw [if_neg overflow]
  by_cases long : cfg.maxBytes = 0 ∨ cfg.maxBytes < p.delivered + src.length
  · exact ⟨.emsgsize, by rw [if_pos long], rfl⟩
  rw [if_neg long]
  refine ⟨.enospc, ?_, rfl⟩
  rw [if_pos (by omega)]

/-! ## The message in the slot -/

/-- The bytes of the frames of a message that were inside the limits. -/
def fitted (message : List Arrival) : List UInt8 := payload (message.filter Arrival.fits)

def gatheredStatus (message : List Arrival) : WcStatus :=
  if allFit message then .success else .locLenErr

/-- The slot has what was accepted of the message so far. -/
structure Slot.Holds (p : Slot) (message : List Arrival) : Prop where
  sound : p.Sound
  data : p.data = fitted message
  status : p.status = gatheredStatus message

theorem Slot.Sound.holds_nothing {p : Slot} (sound : p.Sound) (none : p.delivered = 0)
    (fresh : p.status = .success) : p.Holds [] :=
  ⟨sound, by simp [Slot.data, none, fitted, payload], fresh⟩

theorem Slot.Holds.delivered {p : Slot} (holds : p.Holds message) :
    p.delivered = (fitted message).length := by
  rw [← holds.data, holds.sound.data_length]

theorem fitted_of_allFit (whole : allFit message = true) : fitted message = payload message := by
  have same : message.filter Arrival.fits = message :=
    List.filter_eq_self.mpr fun arrival among => List.all_eq_true.mp whole arrival among
  rw [fitted, same]

theorem fitted_snoc (arrival : Arrival) : fitted (message ++ [arrival]) =
    fitted message ++ if arrival.fits then arrival.frame.payload else [] := by
  cases fits : arrival.fits <;> simp [fitted, payload, List.filter_append, fits]

theorem gatheredStatus_snoc (arrival : Arrival) : gatheredStatus (message ++ [arrival]) =
    if arrival.fits then gatheredStatus message else .locLenErr := by
  cases fits : arrival.fits <;> simp [gatheredStatus, allFit, fits]

/-- What a drain turn pushes for a gathered message is the completion it is due. -/
theorem Slot.Holds.produces {p : Slot} (holds : p.Holds message) (wqe : RecvWqe) :
    Produces message ⟨wqe, if wqe.length < p.delivered then .locLenErr else p.status,
      min p.delivered wqe.length, p.buf.take (min p.delivered wqe.length)⟩ := by
  have delivered := holds.delivered
  have data := holds.data
  have status := holds.status
  by_cases due : allFit message = true ∧ (payload message).length ≤ wqe.length
  · obtain ⟨whole, short⟩ := due
    rw [fitted_of_allFit whole] at delivered data
    have fits : ¬ wqe.length < p.delivered := by
      rw [delivered]
      exact Nat.not_lt.mpr short
    have least : min p.delivered wqe.length = p.delivered := by omega
    rw [Produces, if_pos ⟨whole, short⟩, least, if_neg fits]
    exact ⟨by simp [status, gatheredStatus, whole], data, delivered⟩
  · rw [Produces, if_neg due]
    show (if wqe.length < p.delivered then .locLenErr else p.status) ≠ WcStatus.success
    by_cases long : wqe.length < p.delivered
    · simp [long]
    · by_cases whole : allFit message = true
      · rw [fitted_of_allFit whole] at delivered
        exact absurd ⟨whole, by omega⟩ due
      · simp [long, status, gatheredStatus, whole]

end Tbv.AppleRx
