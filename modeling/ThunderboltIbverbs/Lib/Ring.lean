import Mathlib.Tactic.Common
import Mathlib.Tactic.Ring
import Mathlib.Logic.Function.Basic
import Mathlib.Data.List.Basic
import Mathlib.Data.Nat.ModEq
import Mathlib.Algebra.Order.Group.Nat
import Mathlib.Algebra.BigOperators.Group.List.Basic

/-! # Circular tables

A table of `size` cells used as a queue: the `count` cells from `head` on, wrapping
at the end, are its contents.  Offsets are counted from `head`, so that every cell
of the table is the place of exactly one offset below `size`. -/
set_option autoImplicit false
namespace Ring

variable {Cell : Type*} {size head count : Nat} {cells : Nat → Cell}

def place (size head offset : Nat) : Nat := (head + offset) % size

def contents (size : Nat) (cells : Nat → Cell) (head count : Nat) : List Cell :=
  (List.range count).map fun offset => cells (place size head offset)

theorem place_lt (pos : 0 < size) (offset : Nat) : place size head offset < size :=
  Nat.mod_lt _ pos

theorem place_zero (inside : head < size) : place size head 0 = head :=
  Nat.mod_eq_of_lt inside

theorem place_succ_head (offset : Nat) :
    place size ((head + 1) % size) offset = place size head (offset + 1) := by
  simp only [place, Nat.mod_add_mod]
  congr 1
  omega

theorem place_add_one (offset : Nat) :
    (place size head offset + 1) % size = place size head (offset + 1) := by
  simp only [place, Nat.mod_add_mod]
  congr 1

/-- A whole turn ends where it began. -/
theorem place_size : place size head size = place size head 0 := by
  simp [place]

theorem place_inj {one two : Nat} (oneInside : one < size) (twoInside : two < size)
    (same : place size head one = place size head two) : one = two := by
  have congruent : Nat.ModEq size one two := Nat.ModEq.add_left_cancel' head same
  exact Nat.ModEq.eq_of_lt_of_lt congruent oneInside twoInside

theorem exists_place (inside : head < size) {index : Nat} (bound : index < size) :
    ∃ offset < size, place size head offset = index := by
  by_cases before : index < head
  · refine ⟨size + index - head, by omega, ?_⟩
    have sum : head + (size + index - head) = index + size := by omega
    rw [place, sum, Nat.add_mod_right, Nat.mod_eq_of_lt bound]
  · refine ⟨index - head, by omega, ?_⟩
    have sum : head + (index - head) = index := by omega
    rw [place, sum, Nat.mod_eq_of_lt bound]

@[simp] theorem contents_zero : contents size cells head 0 = [] := rfl

@[simp] theorem contents_length : (contents size cells head count).length = count := by
  simp [contents]

theorem contents_snoc : contents size cells head (count + 1) =
    contents size cells head count ++ [cells (place size head count)] := by
  simp [contents, List.range_succ]

/-- Taking the head cell away leaves the contents from the next head on. -/
theorem contents_pop : contents size cells head (count + 1) =
    cells (place size head 0) :: contents size cells ((head + 1) % size) count := by
  simp only [contents, List.range_succ_eq_map, List.map_cons, List.map_map, List.cons.injEq,
    true_and]
  refine List.map_congr_left fun offset _ => ?_
  simp [place_succ_head]

theorem contents_update_outside {index : Nat} {cell : Cell}
    (outside : ∀ offset < count, place size head offset ≠ index) :
    contents size (Function.update cells index cell) head count =
      contents size cells head count := by
  refine List.map_congr_left fun offset among => ?_
  exact Function.update_of_ne (outside offset (List.mem_range.mp among)) ..

theorem contents_update_tail {cell : Cell} (room : count < size) :
    contents size (Function.update cells (place size head count) cell) head count =
      contents size cells head count := by
  refine contents_update_outside fun offset below same => ?_
  have := place_inj (by omega) room same
  omega

theorem contents_update_head {cell : Cell} (room : count < size) :
    contents size (Function.update cells (place size head 0) cell) ((head + 1) % size) count =
      contents size cells ((head + 1) % size) count := by
  refine contents_update_outside fun offset below same => ?_
  rw [place_succ_head] at same
  have := place_inj (by omega) (by omega) same
  omega

theorem getElem?_contents {index : Nat} (inside : index < count) :
    (contents size cells head count)[index]? = some (cells (place size head index)) := by
  simp [contents, List.getElem?_range inside]

theorem contents_update_inside {index : Nat} {cell : Cell} (inside : index < count)
    (room : count ≤ size) :
    contents size (Function.update cells (place size head index) cell) head count =
      (contents size cells head count).set index cell := by
  refine List.ext_getElem? fun offset => ?_
  by_cases below : offset < count
  · rw [getElem?_contents below]
    by_cases here : offset = index
    · subst here
      rw [Function.update_self, List.getElem?_set_self (by simpa using below)]
    · have elsewhere : place size head offset ≠ place size head index := fun same =>
        here (place_inj (by omega) (by omega) same)
      rw [Function.update_of_ne elsewhere, List.getElem?_set_ne (Ne.symm here),
        getElem?_contents below]
  · rw [List.getElem?_eq_none (by simpa using below),
      List.getElem?_eq_none (by simpa using below)]

theorem contents_foldl_update (change : Cell → Cell) (room : count ≤ size) :
    contents size ((List.range count).foldl (fun cells offset =>
      Function.update cells (place size head offset) (change (cells (place size head offset))))
      cells) head count = (contents size cells head count).map change := by
  have upTo : ∀ n ≤ count, ∀ offset < count,
      (List.range n).foldl (fun cells offset => Function.update cells (place size head offset)
        (change (cells (place size head offset)))) cells (place size head offset) =
        if offset < n then change (cells (place size head offset))
        else cells (place size head offset) := by
    intro n within
    induction n with
    | zero => exact fun offset _ => rfl
    | succ n ih =>
        intro offset below
        rw [List.range_succ, List.foldl_append, List.foldl_cons, List.foldl_nil]
        by_cases here : offset = n
        · subst here
          rw [Function.update_self, ih (by omega) offset below, if_neg (Nat.lt_irrefl _),
            if_pos (Nat.lt_succ_self _)]
        · have elsewhere : place size head offset ≠ place size head n := fun same =>
            here (place_inj (by omega) (by omega) same)
          rw [Function.update_of_ne elsewhere, ih (by omega) offset below]
          by_cases before : offset < n
          · rw [if_pos before, if_pos (by omega)]
          · rw [if_neg before, if_neg (by omega)]
  refine List.ext_getElem? fun offset => ?_
  by_cases below : offset < count
  · rw [getElem?_contents below, List.getElem?_map, getElem?_contents below,
      upTo count (Nat.le_refl _) offset below, if_pos below]
    rfl
  · rw [List.getElem?_eq_none (by simpa using below),
      List.getElem?_eq_none (by simpa using below)]

/-! ## Sums over a table -/

def total (weight : Cell → Nat) (size : Nat) (cells : Nat → Cell) : Nat :=
  ((List.range size).map fun index => weight (cells index)).sum

theorem total_eq_zero {weight : Cell → Nat} (light : ∀ index < size, weight (cells index) = 0) :
    total weight size cells = 0 := by
  refine List.sum_eq_zero fun value among => ?_
  obtain ⟨index, below, rfl⟩ := List.mem_map.mp among
  exact light index (List.mem_range.mp below)

theorem total_update (weight : Cell → Nat) {index : Nat} (inside : index < size) (cell : Cell) :
    total weight size (Function.update cells index cell) + weight (cells index) =
      total weight size cells + weight cell := by
  induction size with
  | zero => omega
  | succ size ih =>
      have split : ∀ table : Nat → Cell, total weight (size + 1) table =
          total weight size table + weight (table size) := by
        intro table
        simp [total, List.range_succ]
      rw [split, split]
      by_cases last : index = size
      · subst last
        have rest : total weight index (Function.update cells index cell) =
            total weight index cells := by
          refine congrArg List.sum (List.map_congr_left fun other among => ?_)
          have := List.mem_range.mp among
          rw [Function.update_of_ne (by omega)]
        rw [rest, Function.update_self]
        omega
      · have := ih (by omega)
        rw [Function.update_of_ne (by omega)]
        omega

end Ring
