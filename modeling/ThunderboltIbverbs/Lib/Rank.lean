import Mathlib.Tactic.Common
import Mathlib.Tactic.Ring

/-! # The element of a rank

The element of a rank of a list in sorted order, and how it is found from a histogram: as many
elements satisfy a downward closed test as the rank says if and only if the element does. -/
set_option autoImplicit false
namespace Rank

def nth (xs : List Nat) (rank : Nat) : Option Nat := (xs.mergeSort (fun a b => a ≤ b))[rank - 1]?

theorem sorted (xs : List Nat) : (xs.mergeSort (fun a b => a ≤ b)).Pairwise (· ≤ ·) := by
  have pairs := @List.pairwise_mergeSort Nat (fun a b => decide (a ≤ b))
    (fun a b c ab bc => by simp only [decide_eq_true_eq] at *; omega)
    (fun a b => by simp only [Bool.or_eq_true, decide_eq_true_eq]; omega) xs
  exact pairs.imp fun le => of_decide_eq_true le

section
variable {test : Nat → Bool}

theorem le_countP_of_sorted {ys : List Nat} (sorted : ys.Pairwise (· ≤ ·))
    (down : ∀ a b, a ≤ b → test b = true → test a = true) {rank x : Nat} (first : 0 < rank)
    (here : ys[rank - 1]? = some x) : rank ≤ ys.countP test ↔ test x = true := by
  induction ys generalizing rank with
  | nil => cases here
  | cons y rest ih =>
      obtain ⟨least, sorted⟩ := List.pairwise_cons.mp sorted
      cases tested : test y with
      | false =>
          -- every later element is at least `y`
          have none : ∀ z ∈ y :: rest, ¬ test z = true := by
            intro z mem yes
            rcases List.mem_cons.mp mem with rfl | later
            · rw [tested] at yes
              cases yes
            · rw [down y z (least z later) yes] at tested
              cases tested
          rw [List.countP_eq_zero.mpr none]
          exact iff_of_false (by omega) (none x (List.mem_of_getElem? here))
      | true =>
          rw [List.countP_cons_of_pos tested]
          obtain one | more : rank = 1 ∨ 1 < rank := by omega
          · subst one
            obtain rfl : y = x := Option.some.inj here
            exact iff_of_true (by omega) tested
          · have shift : rank - 1 = rank - 2 + 1 := by omega
            rw [shift, List.getElem?_cons_succ] at here
            rw [← ih sorted (by omega : 0 < rank - 1) here]
            omega

/-- The test counts up to the rank when it holds of the element there. -/
theorem le_countP_iff {xs : List Nat} (down : ∀ a b, a ≤ b → test b = true → test a = true)
    {rank x : Nat} (first : 0 < rank) (here : nth xs rank = some x) :
    rank ≤ xs.countP test ↔ test x = true := by
  rw [← (List.mergeSort_perm xs fun a b => a ≤ b).countP_eq test]
  exact le_countP_of_sorted (sorted xs) down first here

end

theorem nth_isSome {xs : List Nat} {rank : Nat} (first : 0 < rank) (last : rank ≤ xs.length) :
    ∃ x, nth xs rank = some x :=
  ⟨_, List.getElem?_eq_getElem (by rw [List.length_mergeSort]; omega)⟩

theorem nth_mono {xs : List Nat} {rank rank' x x' : Nat} (le : rank ≤ rank')
    (here : nth xs rank = some x) (there : nth xs rank' = some x') : x ≤ x' := by
  obtain ⟨inside, rfl⟩ := List.getElem?_eq_some_iff.mp here
  obtain ⟨inside', rfl⟩ := List.getElem?_eq_some_iff.mp there
  obtain same | before : rank - 1 = rank' - 1 ∨ rank - 1 < rank' - 1 := by omega
  · simp only [same, Nat.le_refl]
  · exact List.pairwise_iff_getElem.mp (sorted xs) _ _ inside inside' before

/-- A histogram adds up to the number of elements below a bound. -/
theorem countP_lt_succ (xs : List Nat) (grade : Nat → Nat) (i : Nat) :
    xs.countP (fun x => grade x < i + 1) =
      xs.countP (fun x => grade x < i) + xs.countP (fun x => grade x == i) := by
  induction xs with
  | nil => rfl
  | cons x rest ih =>
      rw [List.countP_cons, List.countP_cons, List.countP_cons, ih]
      obtain below | here | above := Nat.lt_trichotomy (grade x) i
      · simp [below, Nat.lt_succ_of_lt below, Nat.ne_of_lt below]
        omega
      · simp [here]
        omega
      · simp [Nat.not_lt.mpr above, Nat.not_lt.mpr (Nat.le_of_lt above), Nat.ne_of_gt above]

end Rank
