import ThunderboltIbverbs.Proto.FragmentShape

/-! # What `tbv_native_data_fragment_shape` accepts

Exactly the tiling of the total, when the number of its chunks fits the bound and the addition
that rounds up fits a word; a sum that wraps counts no chunk, and every fragment is refused. -/
set_option autoImplicit false
namespace Tbv.NativeData

/-- The fragment `idx` of `count` of a total cut into chunks; an empty total is one fragment. -/
structure IsTile (total chunk offset len : Nat) (last : Bool) (idx count : Nat) : Prop where
  count_eq : count = max 1 (chunkCount total chunk)
  inside : idx < count
  place : offset = idx * chunk
  length : len = min chunk (total - offset)
  flag : last = true ↔ idx = count - 1

def Numbered (total chunk maxFrags : Nat) : Prop :=
  total = 0 ∨ chunkCount total chunk ≤ maxFrags ∧ total + chunk - 1 < 2 ^ 32

section Accepted
variable {total chunk maxFrags offset len idx count : Nat} {last : Bool}

theorem chunkCount_zero (positive : 0 < chunk) : chunkCount 0 chunk = 0 := by
  unfold chunkCount
  exact Nat.div_eq_of_lt (by omega)

theorem chunkCount_pos (positive : 0 < chunk) (nonempty : 0 < total) :
    0 < chunkCount total chunk := (lt_chunkCount positive).mpr (by omega)

theorem count_wrapped (word : total < 2 ^ 32) (wraps : 2 ^ 32 ≤ total + chunk - 1)
    (size : chunk < 2 ^ 32) : ((total + chunk - 1) % 2 ^ 32) / chunk = 0 := by
  have rest : (total + chunk - 1) % 2 ^ 32 = total + chunk - 1 - 2 ^ 32 := by
    rw [Nat.mod_eq_sub_mod wraps, Nat.mod_eq_of_lt (by omega)]
  rw [rest]
  exact Nat.div_eq_of_lt (by omega)

theorem fragmentShape_empty (positive : 0 < chunk) (room : 0 < maxFrags) :
    fragmentShape 0 chunk maxFrags offset len last = some (idx, count) ↔
      IsTile 0 chunk offset len last idx count := by
  have one : max 1 (chunkCount 0 chunk) = 1 := by
    rw [chunkCount_zero positive]
    rfl
  unfold fragmentShape
  rw [if_neg (by omega), if_pos rfl]
  constructor
  · intro shape
    split at shape
    · cases shape
    rename_i plain
    obtain ⟨rfl, rfl⟩ := Prod.mk.inj (Option.some.inj shape)
    have marked : last = true := by
      by_contra unmarked
      exact plain (.inr (.inr (Bool.eq_false_iff.mpr unmarked)))
    exact ⟨one.symm, by omega, by omega, by omega, iff_of_true marked rfl⟩
  · rintro ⟨count_eq, inside, place, length, flag⟩
    rw [one] at count_eq
    subst count_eq
    obtain rfl : idx = 0 := by omega
    rw [Nat.zero_mul] at place
    rw [flag.mpr rfl, if_neg (by rw [place, length]; simp)]

theorem fragmentShape_wrapped (nonempty : 0 < total) (word : total < 2 ^ 32)
    (size : chunk < 2 ^ 32) (wraps : 2 ^ 32 ≤ total + chunk - 1) :
    fragmentShape total chunk maxFrags offset len last = none := by
  unfold fragmentShape
  dsimp only
  split
  · rfl
  rw [if_neg (by omega), count_wrapped word wraps size, if_pos (Or.inl (Nat.zero_le _)), ite_self]

theorem fragmentShape_many (nonempty : 0 < total) (fits : total + chunk ≤ 2 ^ 32)
    (many : maxFrags < chunkCount total chunk) :
    fragmentShape total chunk maxFrags offset len last = none := by
  unfold fragmentShape
  split
  · rfl
  rename_i sizes
  dsimp only
  rw [if_neg (by omega), count_wrap fits, if_pos (Or.inr many), ite_self]

/-- The fragments accepted are those of the tiling of a total that the receiver can number. -/
theorem fragmentShape_eq_some_iff (word : total < 2 ^ 32) (size : chunk < 2 ^ 32)
    (positive : 0 < chunk) (room : 0 < maxFrags) :
    fragmentShape total chunk maxFrags offset len last = some (idx, count) ↔
      IsTile total chunk offset len last idx count ∧ Numbered total chunk maxFrags := by
  rcases Nat.eq_zero_or_pos total with rfl | nonempty
  · exact (fragmentShape_empty positive room).trans (iff_self_and.mpr fun _ => .inl rfl)
  by_cases numbered : Numbered total chunk maxFrags
  · rw [and_iff_left numbered]
    obtain empty | ⟨few, fits⟩ := numbered
    · omega
    have least := chunkCount_pos positive nonempty
    constructor
    · intro shape
      obtain ⟨place, before, length, flag⟩ := tile_of_fragmentShape nonempty (by omega) shape
      have inside : idx * chunk < total := place ▸ before
      have tile := fragmentShape_tile positive (by omega) few inside
      rw [← place, ← length, ← flag, shape] at tile
      have counted := (Prod.mk.inj (Option.some.inj tile)).2
      have below := (lt_chunkCount positive).mpr inside
      refine ⟨by omega, by omega, place, ?_, ?_⟩
      · rw [length, chunkLen, Nat.min_comm, place]
      · rw [flag, chunkLast_iff positive inside, counted]
    · rintro ⟨counted, below, rfl, rfl, flag⟩
      have total_count : count = chunkCount total chunk := by omega
      subst total_count
      have inside := (lt_chunkCount positive).mp below
      have marked : last = chunkLast total chunk idx := by
        rw [Bool.eq_iff_iff, flag, chunkLast_iff positive inside]
      rw [marked, Nat.min_comm]
      exact fragmentShape_tile positive (by omega) few inside
  · rw [iff_false_intro fun both : _ ∧ Numbered total chunk maxFrags => numbered both.2, iff_false]
    intro shape
    by_cases fits : total + chunk - 1 < 2 ^ 32
    · have many : maxFrags < chunkCount total chunk := by
        by_contra few
        exact numbered (.inr ⟨by omega, fits⟩)
      rw [fragmentShape_many nonempty (by omega) many] at shape
      cases shape
    · rw [fragmentShape_wrapped nonempty word size (by omega)] at shape
      cases shape

/-! ## The tiling -/

theorem IsTile.idx_lt (tile : IsTile total chunk offset len last idx count)
    (numbered : Numbered total chunk maxFrags) (positive : 0 < chunk) (room : 0 < maxFrags) :
    count ≤ max 1 maxFrags ∧ idx < maxFrags := by
  have inside := tile.inside
  have counted := tile.count_eq
  obtain rfl | ⟨few, _⟩ := numbered
  · rw [chunkCount_zero positive] at counted
    omega
  · omega

/-- Tiles at one place are equal, and the others do not meet. -/
theorem IsTile.apart {offset' len' idx' count' : Nat} {last' : Bool}
    (tile : IsTile total chunk offset len last idx count)
    (tile' : IsTile total chunk offset' len' last' idx' count') :
    (offset = offset' ∧ len = len' ∧ last = last') ∨ offset + len ≤ offset' ∨
      offset' + len' ≤ offset := by
  have same : count = count' := tile.count_eq.trans tile'.count_eq.symm
  have place := tile.place
  have place' := tile'.place
  have length := tile.length
  have length' := tile'.length
  rcases Nat.lt_trichotomy idx idx' with before | rfl | after
  · have step : (idx + 1) * chunk ≤ idx' * chunk := Nat.mul_le_mul_right chunk before
    rw [Nat.succ_mul] at step
    omega
  · have here : offset = offset' := place.trans place'.symm
    refine .inl ⟨here, by rw [length, length', here], ?_⟩
    rw [Bool.eq_iff_iff, tile.flag, tile'.flag, same]
  · have step : (idx' + 1) * chunk ≤ idx * chunk := Nat.mul_le_mul_right chunk after
    rw [Nat.succ_mul] at step
    omega

theorem isTile_place (below : idx < max 1 (chunkCount total chunk)) :
    IsTile total chunk (idx * chunk) (min chunk (total - idx * chunk))
      (decide (idx = max 1 (chunkCount total chunk) - 1)) idx (max 1 (chunkCount total chunk)) :=
  ⟨rfl, below, rfl, rfl, decide_eq_true_iff⟩

theorem isTile_cover (positive : 0 < chunk) {byte : Nat} (inside : byte < total) :
    ∃ offset len last idx count, IsTile total chunk offset len last idx count ∧
      offset ≤ byte ∧ byte < offset + len := by
  have start : byte / chunk * chunk ≤ byte := Nat.div_mul_le_self byte chunk
  have stop : byte < (byte / chunk + 1) * chunk := by
    rw [Nat.mul_comm]
    exact Nat.lt_mul_div_succ byte positive
  rw [Nat.succ_mul] at stop
  have below : byte / chunk < chunkCount total chunk :=
    (lt_chunkCount positive).mpr (Nat.lt_of_le_of_lt start inside)
  exact ⟨_, _, _, _, _, isTile_place (Nat.lt_of_lt_of_le below (Nat.le_max_right ..)), start,
    by omega⟩

end Accepted

/-- The fragments of a total that are accepted are its tiling: with one number of chunks, each
numbered by its place below the bound, disjoint, and covering the total if any is accepted. -/
theorem fragment_shape_accepts_the_tiling {total chunk maxFrags : Nat} (word : total < 2 ^ 32)
    (size : chunk < 2 ^ 32) (positive : 1 ≤ chunk) (room : 1 ≤ maxFrags) :
    (∀ {offset len last idx count},
      fragmentShape total chunk maxFrags offset len last = some (idx, count) →
        IsTile total chunk offset len last idx count ∧ count ≤ max 1 maxFrags ∧ idx < maxFrags) ∧
      (chunkCount total chunk ≤ maxFrags → total + chunk - 1 < 2 ^ 32 →
        ∀ {offset len last idx count}, IsTile total chunk offset len last idx count →
          fragmentShape total chunk maxFrags offset len last = some (idx, count)) ∧
      (∀ {offset len last offset' len' last'},
        (fragmentShape total chunk maxFrags offset len last).isSome →
        (fragmentShape total chunk maxFrags offset' len' last').isSome →
        (offset = offset' ∧ len = len' ∧ last = last') ∨ offset + len ≤ offset' ∨
          offset' + len' ≤ offset) ∧
      ∀ {offset len last}, (fragmentShape total chunk maxFrags offset len last).isSome →
        offset + len ≤ total ∧ ∀ byte < total, ∃ offset len last,
          (fragmentShape total chunk maxFrags offset len last).isSome ∧
            offset ≤ byte ∧ byte < offset + len := by
  have accepts {offset len idx count : Nat} {last : Bool} :=
    @fragmentShape_eq_some_iff total chunk maxFrags offset len idx count last word size positive room
  refine ⟨fun shape => ?_, fun few fits _ _ _ _ _ tile => accepts.mpr ⟨tile, .inr ⟨few, fits⟩⟩,
    fun first second => ?_, fun found => ?_⟩
  · obtain ⟨tile, numbered⟩ := accepts.mp shape
    exact ⟨tile, tile.idx_lt numbered positive room⟩
  · obtain ⟨⟨_, _⟩, shape⟩ := Option.isSome_iff_exists.mp first
    obtain ⟨⟨_, _⟩, shape'⟩ := Option.isSome_iff_exists.mp second
    exact (accepts.mp shape).1.apart (accepts.mp shape').1
  · obtain ⟨⟨idx, count⟩, shape⟩ := Option.isSome_iff_exists.mp found
    obtain ⟨tile, numbered⟩ := accepts.mp shape
    constructor
    · have length := tile.length
      have place := tile.place
      have inside := tile.inside
      have counted := tile.count_eq
      rcases Nat.eq_zero_or_pos total with rfl | nonempty
      · rw [chunkCount_zero positive] at counted
        obtain rfl : idx = 0 := by omega
        omega
      · have least := chunkCount_pos positive nonempty
        have before := (lt_chunkCount positive).mp (by omega : idx < chunkCount total chunk)
        omega
    · intro byte inside
      obtain ⟨offset, len, last, idx, count, covers, start, stop⟩ := isTile_cover positive inside
      exact ⟨offset, len, last, Option.isSome_iff_exists.mpr ⟨_, accepts.mpr ⟨covers, numbered⟩⟩,
        start, stop⟩

/-- The largest message in framed fragments. -/
theorem fragment_shape_accepts_the_tiling_message :
    (fragmentShape maxMsgSize maxPayload maxFrags (4144 * 4048) 2304 true).isSome ∧
      4144 * 4048 + 2304 ≤ maxMsgSize := by
  have accepted : (fragmentShape maxMsgSize maxPayload maxFrags (4144 * 4048) 2304 true).isSome :=
    rfl
  exact ⟨accepted, ((fragment_shape_accepts_the_tiling (by decide) (by decide) (by decide)
    (by decide)).2.2.2 accepted).1⟩

end Tbv.NativeData
