import Mathlib.Tactic.Common
import Mathlib.Tactic.Ring
import Mathlib.Data.List.Nodup
import Mathlib.Logic.Function.Basic

/-! # Stores at scattered places

Values stored one after another into a memory, and a sequence of values stored at a sequence of
places. -/
set_option autoImplicit false
namespace Scatter

section Zip
variable {α β : Type*}

/-- The values go to the first places and then to the others. -/
theorem append_zip {first second : List α} {values : List β} :
    (first ++ second).zip values =
      first.zip values ++ second.zip (values.drop first.length) := by
  induction first generalizing values with
  | nil => rfl
  | cons place rest ih =>
      cases values with
      | nil => simp
      | cons value later => simp [ih]

theorem zip_take {places : List α} {values : List β} :
    (places.take values.length).zip values = places.zip values := by
  induction places generalizing values with
  | nil => simp
  | cons place rest ih =>
      cases values with
      | nil => rfl
      | cons value later => simp [ih]

end Zip

section Put
variable {Place Value : Type*} [DecidableEq Place] {memory : Place → Value}
  {stores : List (Place × Value)} {place : Place}

def put (memory : Place → Value) (stores : List (Place × Value)) : Place → Value :=
  stores.foldl (fun memory store => Function.update memory store.1 store.2) memory

@[simp] theorem put_nil : put memory [] = memory := rfl

theorem put_cons (store : Place × Value) :
    put memory (store :: stores) = put (Function.update memory store.1 store.2) stores := rfl

theorem put_other (apart : ∀ store ∈ stores, store.1 ≠ place) :
    put memory stores place = memory place := by
  induction stores generalizing memory with
  | nil => rfl
  | cons store rest ih =>
      have other : place ≠ store.1 := Ne.symm (apart store (List.mem_cons_self ..))
      rw [put_cons, ih fun later among => apart later (List.mem_cons_of_mem _ among),
        Function.update_of_ne other]

end Put

end Scatter
