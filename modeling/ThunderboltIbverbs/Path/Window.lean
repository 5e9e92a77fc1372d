import ThunderboltIbverbs.Path.Steady
import ThunderboltIbverbs.Path.Credit

/-! # The receive window in 32 bits

The three `u32` functions both ends compute the window with, against the natural
numbers of the model, and the ring sizes under which a peer that holds back less
than a batch never keeps an idle sender from starting a group. -/
set_option autoImplicit false
namespace Tbv.NativePath

open Tbv.NativeData

/-! ## The functions over `u32` -/

def dataCreditControlReserve32 : UInt32 := 256
def creditBatch32 : UInt32 := 256

/-- `tbv_path_data_credit_window` over `u32`. -/
def dataCreditWindow32 (rxRingSize : UInt32) : UInt32 :=
  if rxRingSize = 0 then 0
  else
    let credits :=
      if rxRingSize ≤ dataCreditControlReserve32 then rxRingSize / 2
      else rxRingSize - dataCreditControlReserve32
    let batched :=
      if creditBatch32 < credits then credits - credits % creditBatch32 else credits
    if batched = 0 then 1 else batched

/-- `tbv_native_data_credit_return_threshold` over `u32`. -/
def creditReturnThreshold32 (creditWindow : UInt32) : UInt32 :=
  if creditWindow ≠ 0 ∧ creditWindow < creditBatch32 then creditWindow else creditBatch32

/-- `tbv_native_data_start_credit_required` over `u32`. -/
def startCreditRequired32 (frames creditWindow : UInt32) : UInt32 :=
  if frames = 0 then 0
  else if frames < creditReturnThreshold32 creditWindow then frames
  else creditReturnThreshold32 creditWindow

/-- The start-credit test of `tbv_path_schedule_tx`. -/
def startCreditRefused (p : Path) (pkt : TxPacket) : Bool :=
  !pkt.control && p.txRemoteDataCreditMax != 0 &&
    decide (p.txRemoteDataCredits <
      max 1 (startCreditRequired pkt.startCreditGroupFrames p.txRemoteDataCreditMax))

section U32
variable (rxRingSize frames creditWindow : UInt32)

theorem creditReturnThreshold32_toNat :
    (creditReturnThreshold32 creditWindow).toNat = creditReturnThreshold creditWindow.toNat := by
  have small : (creditWindow ≠ 0 ∧ creditWindow < creditBatch32) ↔
      (creditWindow.toNat ≠ 0 ∧ creditWindow.toNat < creditBatch) := by
    rw [ne_eq, ← UInt32.toNat_inj, UInt32.lt_iff_toNat_lt]
    rfl
  unfold creditReturnThreshold32 creditReturnThreshold
  rw [apply_ite UInt32.toNat]
  exact if_congr small rfl rfl

theorem startCreditRequired32_toNat :
    (startCreditRequired32 frames creditWindow).toNat =
      startCreditRequired frames.toNat creditWindow.toNat := by
  have threshold := creditReturnThreshold32_toNat creditWindow
  unfold startCreditRequired32 startCreditRequired
  rw [apply_ite UInt32.toNat, apply_ite UInt32.toNat, threshold]
  refine if_congr ?_ rfl (if_congr ?_ rfl rfl)
  · exact UInt32.toNat_inj.symm
  · rw [UInt32.lt_iff_toNat_lt, threshold]

/-- The credits before they are rounded down to whole batches. -/
theorem unroundedCredits32_toNat :
    (if rxRingSize ≤ dataCreditControlReserve32 then rxRingSize / 2
      else rxRingSize - dataCreditControlReserve32).toNat =
    if rxRingSize.toNat ≤ dataCreditControlReserve then rxRingSize.toNat / 2
      else rxRingSize.toNat - dataCreditControlReserve := by
  have within : rxRingSize ≤ dataCreditControlReserve32 ↔
      rxRingSize.toNat ≤ dataCreditControlReserve := UInt32.le_iff_toNat_le
  by_cases small : rxRingSize ≤ dataCreditControlReserve32
  · rw [if_pos small, if_pos (within.mp small), UInt32.toNat_div]
    rfl
  · have reserve := UInt32.le_of_lt (UInt32.not_le.mp small)
    rw [if_neg small, if_neg (mt within.mpr small), UInt32.toNat_sub_of_le _ _ reserve]
    rfl

theorem roundedCredits32_toNat (credits : UInt32) :
    (if creditBatch32 < credits then credits - credits % creditBatch32 else credits).toNat =
    if creditBatch < credits.toNat then credits.toNat - credits.toNat % creditBatch
      else credits.toNat := by
  have remainder : (credits % creditBatch32).toNat = credits.toNat % creditBatch :=
    UInt32.toNat_mod credits creditBatch32
  have part : credits % creditBatch32 ≤ credits := by
    rw [UInt32.le_iff_toNat_le, remainder]
    exact Nat.mod_le _ _
  rw [apply_ite UInt32.toNat, UInt32.toNat_sub_of_le _ _ part, remainder]
  exact if_congr UInt32.lt_iff_toNat_lt rfl rfl

theorem max32_toNat (left right : UInt32) :
    (max left right).toNat = max left.toNat right.toNat := by
  show (if left ≤ right then right else left).toNat = _
  split
  · rename_i le
    exact (Nat.max_eq_right (UInt32.le_iff_toNat_le.mp le)).symm
  · rename_i gt
    exact (Nat.max_eq_left (Nat.le_of_lt (UInt32.lt_iff_toNat_lt.mp (UInt32.not_le.mp gt)))).symm

theorem dataCreditWindow32_toNat :
    (dataCreditWindow32 rxRingSize).toNat = dataCreditWindow rxRingSize.toNat := by
  unfold dataCreditWindow32 dataCreditWindow
  rw [apply_ite UInt32.toNat]
  refine if_congr UInt32.toNat_inj.symm rfl ?_
  rw [apply_ite UInt32.toNat]
  refine if_congr ?_ rfl ?_
  · rw [← UInt32.toNat_inj, roundedCredits32_toNat, unroundedCredits32_toNat]
    rfl
  · rw [roundedCredits32_toNat, unroundedCredits32_toNat]

end U32

/-! ## Windows that a held-back batch leaves room in -/

/-- A full group and the largest amount held back fit into the window together. -/
def batchFits (creditWindow : Nat) : Prop :=
  2 * creditReturnThreshold creditWindow ≤ creditWindow + 1

section Regimes
variable {creditWindow : Nat}

theorem startCreditRequired_le (frames : Nat) :
    startCreditRequired frames creditWindow ≤ creditReturnThreshold creditWindow := by
  rw [startCreditRequired_eq_min]
  exact Nat.min_le_right _ _

theorem startCreditRequired_full :
    startCreditRequired (creditReturnThreshold creditWindow) creditWindow =
      creditReturnThreshold creditWindow := by
  rw [startCreditRequired_eq_min]
  exact Nat.min_self _

theorem batchFits.required (fits : batchFits creditWindow) (positive : 0 < creditWindow)
    {held : Nat} (below : held < creditReturnThreshold creditWindow) (frames : Nat) :
    max 1 (startCreditRequired frames creditWindow) ≤ creditWindow - held := by
  have whole : startCreditRequired frames creditWindow ≤ creditReturnThreshold creditWindow :=
    startCreditRequired_le frames
  have batch := creditReturnThreshold_le_window positive
  unfold batchFits at fits
  omega

theorem dataCreditWindow_le {rxRingSize : Nat} (positive : 0 < rxRingSize) :
    dataCreditWindow rxRingSize ≤ rxRingSize := by
  unfold dataCreditWindow dataCreditControlReserve creditBatch
  rw [if_neg (Nat.pos_iff_ne_zero.mp positive)]
  dsimp only
  split_ifs <;> omega

theorem batchFits_dataCreditWindow {rxRingSize : Nat} (positive : 0 < rxRingSize) :
    batchFits (dataCreditWindow rxRingSize) ↔
      rxRingSize ≤ 3 ∨ rxRingSize = 257 ∨ 768 ≤ rxRingSize := by
  unfold batchFits creditReturnThreshold dataCreditWindow dataCreditControlReserve creditBatch
  rw [if_neg (Nat.pos_iff_ne_zero.mp positive)]
  dsimp only
  split_ifs <;> omega

end Regimes

/-- What the batched return of credits is to guarantee for a peer with a ring of
`rxRingSize` descriptors. -/
structure CreditReturnCovers (rxRingSize : UInt32) : Prop where
  window_exact : (dataCreditWindow32 rxRingSize).toNat = dataCreditWindow rxRingSize.toNat
  threshold_exact : (creditReturnThreshold32 (dataCreditWindow32 rxRingSize)).toNat =
    creditReturnThreshold (dataCreditWindow rxRingSize.toNat)
  window_pos : 1 ≤ dataCreditWindow32 rxRingSize
  window_le : dataCreditWindow32 rxRingSize ≤ rxRingSize
  covers : ∀ held frames : UInt32,
    held < creditReturnThreshold32 (dataCreditWindow32 rxRingSize) → 1 ≤ frames →
    held ≤ dataCreditWindow32 rxRingSize ∧
    max 1 (startCreditRequired32 frames (dataCreditWindow32 rxRingSize)) ≤
      dataCreditWindow32 rxRingSize - held
  admitted : ∀ (held : UInt32) (p : Path) (pkt : TxPacket),
    held < creditReturnThreshold32 (dataCreditWindow32 rxRingSize) →
    p.txRemoteDataCreditMax = (dataCreditWindow32 rxRingSize).toNat →
    p.txRemoteDataCredits = (dataCreditWindow32 rxRingSize - held).toNat →
    startCreditRefused p pkt = false

section Covers
variable {rxRingSize : UInt32}

theorem dataCreditWindow32_pos (nonzero : rxRingSize ≠ 0) :
    0 < rxRingSize.toNat ∧ 0 < dataCreditWindow rxRingSize.toNat := by
  have positive : 0 < rxRingSize.toNat :=
    Nat.pos_of_ne_zero fun zero => nonzero (UInt32.toNat_inj.mp zero)
  exact ⟨positive, dataCreditWindow_pos positive⟩

/-- The amount held back and the group that need each other's credits: all but
one of a batch, and a whole batch. -/
theorem batchFits_of_covers (covers : CreditReturnCovers rxRingSize) :
    batchFits (dataCreditWindow rxRingSize.toNat) := by
  have threshold := covers.threshold_exact
  have positive := creditReturnThreshold_pos (dataCreditWindow rxRingSize.toNat)
  have one : (1 : UInt32).toNat = 1 := rfl
  have reaches : 1 ≤ creditReturnThreshold32 (dataCreditWindow32 rxRingSize) := by
    rw [UInt32.le_iff_toNat_le, threshold]
    exact positive
  have held : (creditReturnThreshold32 (dataCreditWindow32 rxRingSize) - 1).toNat =
      creditReturnThreshold (dataCreditWindow rxRingSize.toNat) - 1 := by
    rw [UInt32.toNat_sub_of_le _ _ reaches, threshold, one]
  have below : creditReturnThreshold32 (dataCreditWindow32 rxRingSize) - 1 <
      creditReturnThreshold32 (dataCreditWindow32 rxRingSize) := by
    rw [UInt32.lt_iff_toNat_lt, held, threshold]
    omega
  obtain ⟨within, room⟩ := covers.covers _ _ below reaches
  have required : (startCreditRequired32
      (creditReturnThreshold32 (dataCreditWindow32 rxRingSize))
      (dataCreditWindow32 rxRingSize)).toNat =
        creditReturnThreshold (dataCreditWindow rxRingSize.toNat) := by
    rw [startCreditRequired32_toNat, threshold, covers.window_exact, startCreditRequired_full]
  rw [UInt32.le_iff_toNat_le, max32_toNat, UInt32.toNat_sub_of_le _ _ within, held, required,
    covers.window_exact] at room
  unfold batchFits
  omega

theorem covers_of_batchFits (nonzero : rxRingSize ≠ 0)
    (fits : batchFits (dataCreditWindow rxRingSize.toNat)) : CreditReturnCovers rxRingSize := by
  obtain ⟨positive, window⟩ := dataCreditWindow32_pos nonzero
  have exact32 := dataCreditWindow32_toNat rxRingSize
  have threshold := creditReturnThreshold32_toNat (dataCreditWindow32 rxRingSize)
  rw [exact32] at threshold
  have batch := creditReturnThreshold_le_window window
  have within {held : UInt32}
      (below : held < creditReturnThreshold32 (dataCreditWindow32 rxRingSize)) :
      held.toNat < creditReturnThreshold (dataCreditWindow rxRingSize.toNat) ∧
        held ≤ dataCreditWindow32 rxRingSize := by
    rw [UInt32.lt_iff_toNat_lt, threshold] at below
    rw [UInt32.le_iff_toNat_le, exact32]
    omega
  refine ⟨exact32, threshold, ?_, ?_, ?_, ?_⟩
  · rw [UInt32.le_iff_toNat_le, exact32]
    exact window
  · rw [UInt32.le_iff_toNat_le, exact32]
    exact dataCreditWindow_le positive
  · intro held frames below _
    obtain ⟨heldBelow, heldWithin⟩ := within below
    have room := fits.required window heldBelow frames.toNat
    refine ⟨heldWithin, ?_⟩
    rwa [UInt32.le_iff_toNat_le, max32_toNat, UInt32.toNat_sub_of_le _ _ heldWithin,
      startCreditRequired32_toNat, exact32]
  · intro held p pkt below creditMax credits
    obtain ⟨heldBelow, heldWithin⟩ := within below
    have room := fits.required window heldBelow pkt.startCreditGroupFrames
    rw [UInt32.toNat_sub_of_le _ _ heldWithin, exact32] at credits
    rw [exact32] at creditMax
    unfold startCreditRefused
    rw [credits, creditMax, decide_eq_false (Nat.not_lt.mpr room), Bool.and_false]

/-- The rings on which the batched return of credits covers the start
requirement: a window of one frame, or one of two batches at least. -/
theorem credit_return_covers_iff (rxRingSize : UInt32) (nonzero : rxRingSize ≠ 0) :
    CreditReturnCovers rxRingSize ↔
      rxRingSize.toNat ≤ 3 ∨ rxRingSize.toNat = 257 ∨ 768 ≤ rxRingSize.toNat := by
  rw [← batchFits_dataCreditWindow (dataCreditWindow32_pos nonzero).1]
  exact ⟨batchFits_of_covers, covers_of_batchFits nonzero⟩

theorem credit_return_covers_iff_native :
    (4096 : UInt32) ≠ 0 ∧ (CreditReturnCovers 4096 ↔
      (4096 : UInt32).toNat ≤ 3 ∨ (4096 : UInt32).toNat = 257 ∨ 768 ≤ (4096 : UInt32).toNat) :=
  ⟨by decide, credit_return_covers_iff 4096 (by decide)⟩

/-- A ring of 512 gives a window of one batch: with one frame not yet returned
a group of 256 frames waits for a credit that the peer never sends. -/
theorem one_batch_window_stalls : ¬ ∀ rxRingSize : UInt32, rxRingSize ≠ 0 →
    CreditReturnCovers rxRingSize := by
  intro always
  obtain ⟨_, room⟩ := (always 512 (by decide)).covers 1 256 (by decide) (by decide)
  exact absurd room (by decide)

end Covers

end Tbv.NativePath
