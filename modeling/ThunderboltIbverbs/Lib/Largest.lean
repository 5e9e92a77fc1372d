import Mathlib.Data.List.Sort
import ThunderboltIbverbs.Lib.Trail

/-! # A table of the largest elements

A table of bounded size that is offered one element after another.  Below its bound it takes every
element; after that it puts an element in the place of a least one, or refuses it if it is below
all of them.  What it keeps are the largest elements it was offered, and of those that would be
kept the last one is kept. -/
set_option autoImplicit false
namespace Largest

def largest {Key : Type} [LinearOrder Key] (k : Nat) (xs : List Key) : List Key :=
  (xs.mergeSort (· ≥ ·)).take k

section
variable {Item Key : Type} [LinearOrder Key] {key : Item → Key} {k : Nat}
  {kept dropped all : List Item} {x : Item}

/-- No element that was dropped is above one that is kept. -/
structure Divides (key : Item → Key) (kept dropped all : List Item) : Prop where
  parts : all.Perm (kept ++ dropped)
  below : ∀ a ∈ kept, ∀ b ∈ dropped, key b ≤ key a

theorem Divides.largest (divides : Divides key kept dropped all) :
    (kept.map key).Perm (largest kept.length (all.map key)) := by
  have sorted : ∀ ys : List Key, (ys.mergeSort (· ≥ ·)).Pairwise (· ≥ ·) :=
    List.pairwise_mergeSort' _
  have perm : ∀ ys : List Key, (ys.mergeSort (· ≥ ·)).Perm ys := fun ys => ys.mergeSort_perm _
  have whole : ((kept.map key).mergeSort (· ≥ ·) ++ (dropped.map key).mergeSort (· ≥ ·)).Pairwise
      (· ≥ ·) := by
    refine List.pairwise_append.mpr ⟨sorted _, sorted _, fun high left low right => ?_⟩
    obtain ⟨a, among, rfl⟩ := List.mem_map.mp ((perm _).mem_iff.mp left)
    obtain ⟨b, away, rfl⟩ := List.mem_map.mp ((perm _).mem_iff.mp right)
    exact divides.below a among b away
  have same : (all.map key).Perm
      ((kept.map key).mergeSort (· ≥ ·) ++ (dropped.map key).mergeSort (· ≥ ·)) := by
    refine (divides.parts.map key).trans ?_
    rw [List.map_append]
    exact ((perm _).append (perm _)).symm
  have split := ((perm _).trans same).eq_of_pairwise' (sorted _) whole
  have size : ((kept.map key).mergeSort (· ≥ ·)).length = kept.length := by
    rw [List.length_mergeSort, List.length_map]
  rw [Largest.largest, split, ← size, List.take_left]
  exact (perm _).symm

/-- The table of at most `k` elements, after all that it was offered. -/
structure Keeps (key : Item → Key) (k : Nat) (kept all : List Item) : Prop where
  divides : ∃ dropped, Divides key kept dropped all
  size : kept.length = min all.length k
  /-- The last of those that are not below every kept one. -/
  last : ∀ before y after, all = before ++ y :: after → (∃ a ∈ kept, key a ≤ key y) →
    (∀ z ∈ after, ∀ a ∈ kept, key z < key a) → y ∈ kept

theorem keeps_nil : Keeps key k [] [] where
  divides := ⟨[], .nil, fun _ among => by cases among⟩
  size := (Nat.zero_min k).symm
  last before y after split := by cases before <;> cases split

theorem last_of_mem (taken : x ∈ kept) {before after : List Item} {y : Item}
    (split : all ++ [x] = before ++ y :: after)
    (later : ∀ z ∈ after, ∀ a ∈ kept, key z < key a) : y ∈ kept := by
  rcases Trans.split_append split with ⟨-, -, rfl⟩ | ⟨earlier, rfl, -⟩
  · exact taken
  · exact absurd (later x (List.mem_append_right _ (List.mem_singleton_self x)) x taken)
      (lt_irrefl _)

/-- A table that is not full takes every element. -/
theorem Keeps.fill (keeps : Keeps key k kept all) (room : kept.length < k) :
    Keeps key k (kept ++ [x]) (all ++ [x]) := by
  obtain ⟨dropped, divides⟩ := keeps.divides
  have size := keeps.size
  have parts := divides.parts.length_eq
  rw [List.length_append] at parts
  have none : dropped = [] := List.length_eq_zero_iff.mp (by omega)
  subst none
  have same := divides.parts
  rw [List.append_nil] at same
  refine ⟨⟨[], ?_, fun _ _ _ among => by cases among⟩, ?_, fun before y after split _ later => ?_⟩
  · rw [List.append_nil]
    exact same.append_right [x]
  · rw [List.length_append, List.length_append, List.length_singleton]
    omega
  · exact last_of_mem (List.mem_append_right _ (List.mem_singleton_self x)) split later

/-- A full table has an element in the place of a least one that is not above it. -/
theorem Keeps.replace (keeps : Keeps key k kept all) (full : kept.length = k) {i : Nat}
    (inside : i < kept.length) (least : ∀ a ∈ kept, key kept[i] ≤ key a)
    (above : key kept[i] ≤ key x) : Keeps key k (kept.set i x) (all ++ [x]) := by
  obtain ⟨dropped, divides⟩ := keeps.divides
  have size := keeps.size
  have split : kept = kept.take i ++ kept[i] :: kept.drop (i + 1) := by
    rw [← List.drop_eq_getElem_cons inside, List.take_append_drop]
  have replaced : (kept.set i x).Perm (x :: (kept.take i ++ kept.drop (i + 1))) := by
    rw [List.set_eq_take_append_cons_drop, if_pos inside]
    exact List.perm_middle
  have before : kept.Perm (kept[i] :: (kept.take i ++ kept.drop (i + 1))) :=
    (List.Perm.of_eq split).trans List.perm_middle
  refine ⟨⟨kept[i] :: dropped, ?_, fun a among b away => ?_⟩, ?_,
    fun before y after split _ later => ?_⟩
  · calc
      (all ++ [x]).Perm (x :: all) := List.perm_append_singleton x all
      _ |>.Perm (x :: (kept ++ dropped)) := divides.parts.cons x
      _ |>.Perm (x :: (kept[i] :: (kept.take i ++ kept.drop (i + 1)) ++ dropped)) :=
        (before.append_right dropped).cons x
      _ |>.Perm (x :: (kept.take i ++ kept.drop (i + 1)) ++ kept[i] :: dropped) :=
        List.perm_middle.symm.cons x
      _ |>.Perm (kept.set i x ++ kept[i] :: dropped) := replaced.symm.append_right _
  · have high : key kept[i] ≤ key a := by
      rcases List.mem_or_eq_of_mem_set among with old | rfl
      · exact least a old
      · exact above
    rcases List.mem_cons.mp away with rfl | gone
    · exact high
    · exact (divides.below _ (List.getElem_mem inside) b gone).trans high
  · rw [List.length_set, List.length_append, List.length_singleton]
    omega
  · exact last_of_mem (List.mem_set inside x) split later

/-- A full table refuses an element that is below all it has. -/
theorem Keeps.refuse (keeps : Keeps key k kept all) (full : kept.length = k)
    (low : ∀ a ∈ kept, key x < key a) : Keeps key k kept (all ++ [x]) := by
  obtain ⟨dropped, divides⟩ := keeps.divides
  have size := keeps.size
  refine ⟨⟨x :: dropped, ?_, fun a among b away => ?_⟩, ?_,
    fun before y after split seen later => ?_⟩
  · calc
      (all ++ [x]).Perm (x :: all) := List.perm_append_singleton x all
      _ |>.Perm (x :: (kept ++ dropped)) := divides.parts.cons x
      _ |>.Perm (kept ++ x :: dropped) := List.perm_middle.symm
  · rcases List.mem_cons.mp away with rfl | gone
    · exact (low a among).le
    · exact divides.below a among b gone
  · rw [List.length_append, List.length_singleton]
    omega
  · rcases Trans.split_append split with ⟨-, -, rfl⟩ | ⟨earlier, rfl, before⟩
    · obtain ⟨a, among, le⟩ := seen
      exact absurd (low a among) le.not_gt
    · exact keeps.last _ y earlier before seen fun z among =>
        later z (List.mem_append_left _ among)

/-- The table has the largest elements. -/
theorem Keeps.largest (keeps : Keeps key k kept all) :
    (kept.map key).Perm (largest (min all.length k) (all.map key)) := by
  obtain ⟨dropped, divides⟩ := keeps.divides
  rw [← keeps.size]
  exact divides.largest

end

end Largest
