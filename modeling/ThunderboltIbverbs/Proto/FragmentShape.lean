import ThunderboltIbverbs.Proto.NativeData

/-! # The shape of the fragments of a message

A message of `total` bytes is cut into chunks of one size.  A chunk of the size
`tbv_native_data_fragment_shape` is asked about is numbered by its place; for a
buffered RDMA write two sizes are tried in turn, and a chunk of the second size can
pass for one of the first. -/
set_option autoImplicit false
namespace Tbv.NativeData

def chunkCount (total chunk : Nat) : Nat := (total + chunk - 1) / chunk

def chunkLen (total chunk idx : Nat) : Nat := min (total - idx * chunk) chunk

def chunkLast (total chunk idx : Nat) : Bool := decide (total ≤ idx * chunk + chunk)

section Tiling
variable {total chunk idx : Nat}

theorem lt_chunkCount (positive : 0 < chunk) : idx < chunkCount total chunk ↔ idx * chunk < total := by
  have place : idx + 1 ≤ chunkCount total chunk ↔ (idx + 1) * chunk ≤ total + chunk - 1 :=
    Nat.le_div_iff_mul_le positive
  rw [Nat.succ_mul] at place
  omega

theorem chunkLast_iff (positive : 0 < chunk) (inside : idx * chunk < total) :
    chunkLast total chunk idx = true ↔ idx = chunkCount total chunk - 1 := by
  have here := (lt_chunkCount positive).mpr inside
  have next : idx + 1 < chunkCount total chunk ↔ (idx + 1) * chunk < total := lt_chunkCount positive
  rw [Nat.succ_mul] at next
  unfold chunkLast
  rw [decide_eq_true_iff]
  omega

theorem chunkLast_eq_decide (positive : 0 < chunk) (inside : idx * chunk < total) :
    chunkLast total chunk idx = decide (idx = chunkCount total chunk - 1) := by
  rw [Bool.eq_iff_iff, chunkLast_iff positive inside, decide_eq_true_iff]

/-- Every chunk is whole but the last one. -/
theorem chunkLen_eq_ite (positive : 0 < chunk) (inside : idx * chunk < total) :
    chunkLen total chunk idx =
      if idx = chunkCount total chunk - 1 then total - idx * chunk else chunk := by
  have last := chunkLast_iff positive inside
  rw [chunkLast, decide_eq_true_iff] at last
  unfold chunkLen
  split
  · rename_i here
    exact Nat.min_eq_left (by have := last.mpr here; omega)
  · rename_i before
    exact Nat.min_eq_right (by have := mt last.mp before; omega)

theorem count_wrap (fits : total + chunk ≤ 2 ^ 32) :
    ((total + chunk - 1) % 2 ^ 32) / chunk = chunkCount total chunk := by
  rw [Nat.mod_eq_of_lt (by omega)]
  rfl

/-- Every chunk of the tiling is in shape, and is numbered by its place. -/
theorem fragmentShape_tile {maxFrags : Nat} (positive : 0 < chunk)
    (fits : total + chunk ≤ 2 ^ 32) (few : chunkCount total chunk ≤ maxFrags)
    (inside : idx * chunk < total) :
    fragmentShape total chunk maxFrags (idx * chunk) (chunkLen total chunk idx)
      (chunkLast total chunk idx) = some (idx, chunkCount total chunk) := by
  have here := (lt_chunkCount positive).mpr inside
  have flag := chunkLast_eq_decide positive inside
  have len := chunkLen_eq_ite positive inside
  unfold fragmentShape
  dsimp only
  rw [if_neg (by omega), if_neg (by omega), if_neg (by rw [Nat.mul_mod_left]; omega),
    Nat.mul_div_cancel idx positive, count_wrap fits, if_neg (by omega), ← len,
    if_neg (by simp), if_neg (by simp [flag])]

theorem tile_of_fragmentShape {maxFrags offset len count : Nat} {last : Bool}
    (nonempty : 0 < total) (fits : total + chunk ≤ 2 ^ 32)
    (shape : fragmentShape total chunk maxFrags offset len last = some (idx, count)) :
    offset = idx * chunk ∧ offset < total ∧ len = chunkLen total chunk idx ∧
      last = chunkLast total chunk idx := by
  unfold fragmentShape at shape
  dsimp only at shape
  split at shape
  · cases shape
  rename_i sizes
  have positive : 0 < chunk := by omega
  rw [if_neg (by omega), count_wrap fits] at shape
  split at shape
  · cases shape
  rename_i aligned
  split at shape
  · cases shape
  rename_i counted
  have inside := (lt_chunkCount positive).mp (Nat.lt_of_not_le fun le => counted (.inl le))
  rw [← chunkLen_eq_ite positive inside, ← chunkLast_eq_decide positive inside] at shape
  split at shape
  · cases shape
  rename_i whole
  split at shape
  · cases shape
  rename_i flag
  obtain ⟨rfl, rfl⟩ := Prod.mk.inj (Option.some.inj shape)
  have place : offset = offset / chunk * chunk :=
    (Nat.div_mul_cancel (Nat.dvd_of_mod_eq_zero (not_not.mp aligned))).symm
  exact ⟨place, by omega, not_not.mp whole, not_not.mp flag⟩

end Tiling

/-! ## Buffered writes -/

/-- One consistent shape: every chunk is accepted, with one count, and the
indices are distinct and below it. -/
def ConsistentWriteShape (total chunk : Nat) : Prop :=
  ∃ (count : Nat) (index : Nat → Nat),
    (∀ k, k * chunk < total →
      rxWriteFragmentShape total (k * chunk) (chunkLen total chunk k)
        (chunkLast total chunk k) = some (index k, count) ∧ index k < count) ∧
    ∀ j k, j * chunk < total → k * chunk < total → index j = index k → j = k

/-- The chunks of whole frames that stand at a multiple of the framed payload too. -/
def sharedStride : Nat := 253 * frameSize

section Write
variable {total k : Nat}

theorem rxFragmentShape_tile (positive : 0 < total) (bounded : total ≤ maxMsgSize)
    (inside : k * maxPayload < total) :
    rxFragmentShape total (k * maxPayload) (chunkLen total maxPayload k)
      (chunkLast total maxPayload k) = some (k, chunkCount total maxPayload) := by
  have payload : maxPayload = 4048 := rfl
  have size : maxMsgSize = 16777216 := rfl
  have frags : maxFrags = 4145 := rfl
  have few : chunkCount total maxPayload ≤ maxFrags := by
    rw [chunkCount, payload, frags]
    omega
  exact fragmentShape_tile (by omega) (by omega) few inside

theorem frameShape_tile (positive : 0 < total) (bounded : total ≤ maxMsgSize)
    (inside : k * frameSize < total) :
    fragmentShape total frameSize maxFrags (k * frameSize) (chunkLen total frameSize k)
      (chunkLast total frameSize k) = some (k, chunkCount total frameSize) := by
  have frame : frameSize = 4096 := rfl
  have size : maxMsgSize = 16777216 := rfl
  have frags : maxFrags = 4145 := rfl
  have few : chunkCount total frameSize ≤ maxFrags := by
    rw [chunkCount, frame, frags]
    omega
  exact fragmentShape_tile (by omega) (by omega) few inside

/-- A chunk of a whole frame passes for a framed fragment when it is the last one,
short enough, and stands at a multiple of both sizes. -/
theorem rxFragmentShape_frame (bounded : total ≤ maxMsgSize) (inside : k * frameSize < total) :
    rxFragmentShape total (k * frameSize) (chunkLen total frameSize k)
      (chunkLast total frameSize k) =
      if k % 253 = 0 ∧ total ≤ k * frameSize + maxPayload then
        some (256 * (k / 253), 256 * (k / 253) + 1) else none := by
  have payload : maxPayload = 4048 := rfl
  have frame : frameSize = 4096 := rfl
  have size : maxMsgSize = 16777216 := rfl
  split
  · rename_i shared
    obtain ⟨aligned, short⟩ := shared
    have place : k * frameSize = 256 * (k / 253) * maxPayload := by
      rw [frame, payload]
      omega
    have len : chunkLen total frameSize k = chunkLen total maxPayload (256 * (k / 253)) := by
      unfold chunkLen
      omega
    have last : chunkLast total frameSize k = chunkLast total maxPayload (256 * (k / 253)) := by
      unfold chunkLast
      rw [decide_eq_decide]
      omega
    have count : chunkCount total maxPayload = 256 * (k / 253) + 1 := by
      rw [frame] at inside
      rw [frame, payload] at short
      rw [chunkCount, payload]
      omega
    rw [place, len, last, rxFragmentShape_tile (by omega) bounded (by omega), count]
  · rename_i apart
    refine Option.eq_none_iff_forall_ne_some.mpr fun shape accepted => apart ?_
    obtain ⟨place, _, len, _⟩ := tile_of_fragmentShape (by omega) (by omega) accepted
    rw [chunkLen, chunkLen, payload, frame] at len
    rw [payload, frame] at place
    rw [frame] at inside
    rw [payload, frame]
    omega

/-- The length of a write goes wrong when its last chunk passes for a framed one
and is not its first. -/
def LastChunkMisread (total : Nat) : Prop :=
  maxPayload < total ∧ (total - 1) % sharedStride < maxPayload

theorem rxWriteFragmentShape_frame (bounded : total ≤ maxMsgSize)
    (inside : k * frameSize < total) :
    rxWriteFragmentShape total (k * frameSize) (chunkLen total frameSize k)
      (chunkLast total frameSize k) =
      if k % 253 = 0 ∧ total ≤ k * frameSize + maxPayload then
        some (256 * (k / 253), 256 * (k / 253) + 1)
      else some (k, chunkCount total frameSize) := by
  unfold rxWriteFragmentShape
  rw [rxFragmentShape_frame bounded inside, frameShape_tile (by omega) bounded inside]
  split <;> rfl

theorem consistent_framed (positive : 0 < total) (bounded : total ≤ maxMsgSize) :
    ConsistentWriteShape total maxPayload := by
  refine ⟨chunkCount total maxPayload, id, fun k inside => ⟨?_, ?_⟩, fun _ _ _ _ same => same⟩
  · unfold rxWriteFragmentShape
    rw [rxFragmentShape_tile positive bounded inside]
    rfl
  · exact (lt_chunkCount (by decide)).mpr inside

/-- No chunk passes for a framed one, unless the write is that chunk alone. -/
theorem consistent_frame (bounded : total ≤ maxMsgSize) (right : ¬ LastChunkMisread total) :
    ConsistentWriteShape total frameSize := by
  have payload : maxPayload = 4048 := rfl
  have frame : frameSize = 4096 := rfl
  have stride : sharedStride = 1036288 := rfl
  refine ⟨chunkCount total frameSize, id, fun k inside => ⟨?_, ?_⟩, fun _ _ _ _ same => same⟩
  · rw [rxWriteFragmentShape_frame bounded inside]
    split
    · rename_i shared
      unfold LastChunkMisread at right
      rw [payload, stride] at right
      rw [frame] at inside
      rw [frame, payload] at shared
      have first : k = 0 := by omega
      have alone : chunkCount total frameSize = 1 := by
        rw [chunkCount, frame]
        omega
      rw [alone, first]
      rfl
    · rfl
  · exact (lt_chunkCount (by decide)).mpr inside

/-- The last chunk announces 256 fragments where the first one announces 253. -/
theorem inconsistent_frame (bounded : total ≤ maxMsgSize) (misread : LastChunkMisread total) :
    ¬ ConsistentWriteShape total frameSize := by
  have payload : maxPayload = 4048 := rfl
  have frame : frameSize = 4096 := rfl
  have stride : sharedStride = 1036288 := rfl
  obtain ⟨long, short⟩ := misread
  rw [payload] at long
  rw [payload, stride] at short
  rintro ⟨count, index, shapes, _⟩
  have last : 253 * ((total - 1) / 1036288) * frameSize < total := by
    rw [frame]
    omega
  have first := (shapes 0 (by omega)).1
  have final := (shapes (253 * ((total - 1) / 1036288)) last).1
  rw [rxWriteFragmentShape_frame bounded (by omega), if_neg (by omega)] at first
  rw [rxWriteFragmentShape_frame bounded last, if_pos (by rw [frame, payload]; omega)] at final
  have firstCount := congrArg Prod.snd (Option.some.inj first)
  have finalCount := congrArg Prod.snd (Option.some.inj final)
  simp only at firstCount finalCount
  rw [chunkCount, frame] at firstCount
  omega

/-- Writes of 1 to 16 MiB in framed chunks have one shape; in whole frames, unless
the last chunk stands at a multiple of 4048 too and is no longer than that. -/
theorem write_shape_consistent_iff (chunk : Nat) (positive : 1 ≤ total)
    (bounded : total ≤ maxMsgSize) (size : chunk = maxPayload ∨ chunk = frameSize) :
    ConsistentWriteShape total chunk ↔
      chunk = maxPayload ∨ total ≤ maxPayload ∨ maxPayload ≤ (total - 1) % sharedStride := by
  rcases size with rfl | rfl
  · exact iff_of_true (consistent_framed positive bounded) (.inl rfl)
  · have apart : frameSize ≠ maxPayload := by decide
    by_cases misread : LastChunkMisread total
    · refine iff_of_false (inconsistent_frame bounded misread) ?_
      obtain ⟨long, short⟩ := misread
      omega
    · refine iff_of_true (consistent_frame bounded misread) (.inr ?_)
      unfold LastChunkMisread at misread
      omega

theorem write_shape_consistent_iff_fullSize :
    (1 ≤ maxMsgSize ∧ maxMsgSize ≤ maxMsgSize ∧
      (frameSize = maxPayload ∨ frameSize = frameSize)) ∧
    (ConsistentWriteShape maxMsgSize frameSize ↔
      frameSize = maxPayload ∨ maxMsgSize ≤ maxPayload ∨
        maxPayload ≤ (maxMsgSize - 1) % sharedStride) :=
  ⟨⟨by decide, Nat.le_refl _, .inr rfl⟩,
    write_shape_consistent_iff frameSize (by decide) (Nat.le_refl _) (.inr rfl)⟩

/-- 253 whole frames and one byte: the byte is taken for fragment 256 of 257. -/
theorem write_shape_inconsistent : ¬ ∀ total chunk : Nat, 1 ≤ total → total ≤ maxMsgSize →
    chunk = maxPayload ∨ chunk = frameSize → ConsistentWriteShape total chunk := by
  intro always
  exact inconsistent_frame (by decide) ⟨by decide, by decide⟩
    (always (sharedStride + 1) frameSize (by decide) (by decide) (.inr rfl))

end Write

end Tbv.NativeData
