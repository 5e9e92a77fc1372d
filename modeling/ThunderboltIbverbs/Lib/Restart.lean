import Mathlib.Logic.Function.Iterate
import Mathlib.Tactic.Common
import Mathlib.Tactic.Ring

/-! # Loops that start again from the first item

A loop that looks for the first item of a list that is selected, visits it, and looks again from the
first item on.  It ends if a visit stops it or leaves the item unselected; then no item is handed
out twice. -/
set_option autoImplicit false
namespace Restart

variable {Item : Type*}

def choose (selected : Item → Bool) : List Item → Option (List Item × Item × List Item)
  | [] => none
  | item :: rest =>
      if selected item then some ([], item, rest)
      else (choose selected rest).map fun out => (item :: out.1, out.2)

/-- What a visit makes of an item, whether it handed the item out, and whether the loop returns. -/
structure Visit (Item : Type*) where
  item : Item
  handed : Bool
  stop : Bool

/-- A loop in progress, with the places it handed out. -/
structure Loop (Item : Type*) where
  items : List Item
  turn : Nat := 0
  handed : List Nat := []
  done : Bool := false

/-- One iteration; a loop that has returned stays as it is. -/
def step (selected : Item → Bool) (visit : Nat → Item → Visit Item) (loop : Loop Item) : Loop Item :=
  if loop.done then loop
  else
    match choose selected loop.items with
    | none => { loop with done := true }
    | some (front, item, back) =>
        let out := visit loop.turn item
        { items := front ++ out.item :: back
          turn := loop.turn + 1
          handed := if out.handed then front.length :: loop.handed else loop.handed
          done := out.stop }

structure Ends (next : Loop Item → Loop Item) (loop : Loop Item) : Prop where
  returns : ∃ n, (next^[n] loop).done = true
  once : ∀ n, (next^[n] loop).handed.Nodup

section
variable {selected : Item → Bool} {visit : Nat → Item → Visit Item} {loop : Loop Item}

theorem choose_some {items front back : List Item} {item : Item}
    (chosen : choose selected items = some (front, item, back)) :
    items = front ++ item :: back ∧ (∀ other ∈ front, selected other = false) ∧
      selected item = true := by
  induction items generalizing front with
  | nil => cases chosen
  | cons first rest ih =>
      unfold choose at chosen
      split at chosen
      · rename_i yes
        obtain ⟨rfl, rfl, rfl⟩ : [] = front ∧ first = item ∧ rest = back := by
          simpa using chosen
        exact ⟨rfl, fun _ mem => absurd mem List.not_mem_nil, yes⟩
      · rename_i no
        obtain ⟨⟨tail, out⟩, inner, is⟩ := Option.map_eq_some_iff.mp chosen
        obtain ⟨rfl, rfl⟩ := Prod.mk.inj is
        obtain ⟨split, before, yes⟩ := ih inner
        refine ⟨congrArg (first :: ·) split, fun other mem => ?_, yes⟩
        rcases List.mem_cons.mp mem with rfl | later
        · exact Bool.eq_false_iff.mpr no
        · exact before other later

theorem choose_filter {items front back : List Item} {item : Item}
    (chosen : choose selected items = some (front, item, back)) :
    items.filter selected = item :: back.filter selected := by
  obtain ⟨rfl, before, yes⟩ := choose_some chosen
  rw [List.filter_append, List.filter_eq_nil_iff.mpr fun other mem => by simp [before other mem],
    List.filter_cons_of_pos yes, List.nil_append]

theorem choose_isSome {items : List Item} {item : Item} (mem : item ∈ items)
    (yes : selected item = true) : ∃ out, choose selected items = some out := by
  induction items with
  | nil => cases mem
  | cons first rest ih =>
      unfold choose
      by_cases here : selected first = true
      · exact ⟨_, if_pos here⟩
      · rcases List.mem_cons.mp mem with rfl | later
        · exact absurd yes here
        · obtain ⟨out, found⟩ := ih later
          rw [if_neg here, found]
          exact ⟨_, rfl⟩

theorem step_done (done : loop.done = true) : step selected visit loop = loop := by
  unfold step
  rw [if_pos done]

theorem step_none (going : loop.done = false) (none : choose selected loop.items = none) :
    step selected visit loop = { loop with done := true } := by
  unfold step
  rw [if_neg (by simp [going]), none]

theorem step_some (going : loop.done = false) {front back : List Item} {item : Item}
    (chosen : choose selected loop.items = some (front, item, back)) :
    step selected visit loop =
      { items := front ++ (visit loop.turn item).item :: back
        turn := loop.turn + 1
        handed := if (visit loop.turn item).handed then front.length :: loop.handed else loop.handed
        done := (visit loop.turn item).stop } := by
  unfold step
  rw [if_neg (by simp [going]), chosen]

/-- A visit stops the loop, or leaves the item unselected and keeps the invariant. -/
def Progress (selected : Item → Bool) (visit : Nat → Item → Visit Item)
    (Inv : List Item → Prop) : Prop :=
  ∀ turn front item back, Inv (front ++ item :: back) → (∀ other ∈ front, selected other = false) →
    selected item = true → (visit turn item).stop = true ∨
      selected (visit turn item).item = false ∧ Inv (front ++ (visit turn item).item :: back)

/-- What was handed out is not selected again. -/
structure Fresh (selected : Item → Bool) (Inv : List Item → Prop) (loop : Loop Item) : Prop where
  nodup : loop.handed.Nodup
  inv : loop.done = false → Inv loop.items
  spent : loop.done = false → ∀ i ∈ loop.handed, ∀ item, loop.items[i]? = some item →
    selected item = false

variable {Inv : List Item → Prop}

theorem Fresh.step (progress : Progress selected visit Inv) (fresh : Fresh selected Inv loop) :
    Fresh selected Inv (step selected visit loop) := by
  obtain ⟨nodup, inv, spent⟩ := fresh
  cases going : loop.done with
  | true =>
      rw [step_done going]
      exact ⟨nodup, inv, spent⟩
  | false =>
      cases chosen : choose selected loop.items with
      | none =>
          rw [step_none going chosen]
          exact ⟨nodup, nofun, nofun⟩
      | some out =>
          obtain ⟨front, item, back⟩ := out
          obtain ⟨split, before, yes⟩ := choose_some chosen
          rw [step_some going chosen]
          have here : loop.items[front.length]? = some item := by
            rw [split, List.getElem?_append_right (Nat.le_refl _), Nat.sub_self]
            rfl
          have absent : front.length ∉ loop.handed := fun mem => by
            have no := spent going _ mem item here
            rw [yes] at no
            cases no
          refine ⟨?_, fun goes => ?_, fun goes i mem other at_i => ?_⟩
          · dsimp only
            split
            · exact List.nodup_cons.mpr ⟨absent, nodup⟩
            · exact nodup
          · obtain stop | ⟨_, kept⟩ := progress loop.turn front item back (split ▸ inv going) before yes
            · rw [stop] at goes
              cases goes
            · exact kept
          · obtain stop | ⟨no, _⟩ := progress loop.turn front item back (split ▸ inv going) before yes
            · rw [stop] at goes
              cases goes
            dsimp only at mem at_i
            by_cases same : i = front.length
            · subst same
              rw [List.getElem?_append_right (Nat.le_refl _), Nat.sub_self] at at_i
              rw [← Option.some.inj at_i]
              exact no
            · -- another place holds what it held
              have old : i ∈ loop.handed := by
                split at mem
                · exact (List.mem_cons.mp mem).resolve_left same
                · exact mem
              refine spent going i old other ?_
              rw [split, ← at_i]
              by_cases early : i < front.length
              · rw [List.getElem?_append_left early, List.getElem?_append_left early]
              · obtain ⟨k, rfl⟩ : ∃ k, i = front.length + (k + 1) :=
                  ⟨i - front.length - 1, by omega⟩
                rw [List.getElem?_append_right (by omega), List.getElem?_append_right (by omega),
                  Nat.add_sub_cancel_left]
                rfl

theorem Fresh.iterate (progress : Progress selected visit Inv) (fresh : Fresh selected Inv loop)
    (n : Nat) : Fresh selected Inv ((Restart.step selected visit)^[n] loop) := by
  induction n with
  | zero => exact fresh
  | succ n ih =>
      rw [Function.iterate_succ_apply']
      exact ih.step progress

/-- Every iteration takes one item out of the selected ones. -/
theorem returns_of_progress (progress : Progress selected visit Inv) (inv : Inv loop.items) :
    ∃ n, ((step selected visit)^[n] loop).done = true := by
  induction count : loop.items.countP selected generalizing loop with
  | zero =>
      cases going : loop.done with
      | true => exact ⟨0, going⟩
      | false =>
          refine ⟨1, ?_⟩
          cases chosen : choose selected loop.items with
          | none => exact congrArg Loop.done (step_none going chosen)
          | some out =>
              obtain ⟨split, _, yes⟩ := choose_some chosen
              have some := List.countP_pos_iff.mpr
                ⟨out.2.1, split ▸ List.mem_append_right _ List.mem_cons_self, yes⟩
              omega
  | succ count ih =>
      cases going : loop.done with
      | true => exact ⟨0, going⟩
      | false =>
          cases chosen : choose selected loop.items with
          | none => exact ⟨1, congrArg Loop.done (step_none going chosen)⟩
          | some out =>
              obtain ⟨front, item, back⟩ := out
              obtain ⟨split, before, yes⟩ := choose_some chosen
              have next : step selected visit loop = _ := step_some going chosen
              obtain stop | ⟨no, kept⟩ := progress loop.turn front item back (split ▸ inv) before yes
              · exact ⟨1, by rw [Function.iterate_one, next]; exact stop⟩
              · obtain ⟨n, done⟩ := @ih (step selected visit loop) (by rw [next]; exact kept) (by
                  have fewer : (front ++ item :: back).countP selected = _ := List.countP_append ..
                  rw [← split, List.countP_cons_of_pos yes] at fewer
                  rw [next]
                  dsimp only
                  rw [List.countP_append, List.countP_cons_of_neg (by simp [no])]
                  omega)
                exact ⟨n + 1, by rw [Function.iterate_succ_apply]; exact done⟩

theorem ends_of_progress (progress : Progress selected visit Inv) {items : List Item} (done : Bool)
    (inv : done = false → Inv items) : Ends (step selected visit) { items, done } := by
  have fresh : Fresh selected Inv { items, done } :=
    ⟨List.nodup_nil, inv, fun _ _ mem => absurd mem List.not_mem_nil⟩
  refine ⟨?_, fun n => (fresh.iterate progress n).nodup⟩
  cases done with
  | true => exact ⟨0, rfl⟩
  | false => exact returns_of_progress progress (inv rfl)

end

end Restart
