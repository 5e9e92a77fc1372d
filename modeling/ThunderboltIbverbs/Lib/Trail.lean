import ThunderboltIbverbs.Lib.Run

/-! # What a run leaves behind

`emit` says what a step leaves behind, seen from the state before it; the trail of a run is
what its steps leave behind, in order, up to the first one that cannot be taken.  An element of
a trail splits the run at the step it comes from. -/
set_option autoImplicit false
namespace Trans

theorem split_append {Item : Type*} {items older newer : List Item} {last one : Item}
    (split : items ++ [last] = older ++ one :: newer) :
    (newer = [] ∧ older = items ∧ one = last) ∨
      ∃ earlier, newer = earlier ++ [last] ∧ items = older ++ one :: earlier := by
  rcases List.eq_nil_or_concat newer with rfl | ⟨earlier, final, rfl⟩
  · obtain ⟨rfl, same⟩ := List.append_inj' split rfl
    cases same
    exact .inl ⟨rfl, rfl, rfl⟩
  · rw [List.concat_eq_append, ← List.cons_append, ← List.append_assoc] at split
    obtain ⟨rfl, same⟩ := List.append_inj' split rfl
    cases same
    exact .inr ⟨earlier, List.concat_eq_append .., rfl⟩

section Trail
variable {State Label Mark : Type*}

def trail (step : State → Label → Option State) (emit : State → Label → Option Mark) :
    List Label → State → List Mark
  | [], _ => []
  | label :: rest, state =>
      match step state label with
      | none => []
      | some next => (emit state label).toList ++ trail step emit rest next

variable {step : State → Label → Option State} {ok : State → Label → Prop}
  {emit : State → Label → Option Mark} {start : State} {labels : List Label}

/-- Every mark stands where a step left it, and the run goes on behind that step. -/
theorem trail_split {before after : List Mark} {mark : Mark} (meets : Meets step ok labels start)
    (left : trail step emit labels start = before ++ mark :: after) :
    ∃ (state next : State) (label : Label) (rest : List Label),
      step state label = some next ∧ emit state label = some mark ∧ ok state label ∧
        Meets step ok rest next ∧ trail step emit rest next = after := by
  induction labels generalizing start before with
  | nil => cases before <;> cases left
  | cons label rest ih =>
      rw [trail] at left
      cases taken : step start label with
      | none =>
          rw [taken] at left
          cases before <;> cases left
      | some next =>
          rw [taken] at left
          dsimp only at left
          have further := meets.2 next taken
          cases marked : emit start label with
          | none =>
              rw [marked] at left
              exact ih further left
          | some first =>
              rw [marked] at left
              cases before with
              | nil =>
                  cases left
                  exact ⟨start, next, label, rest, taken, marked, meets.1, further, rfl⟩
              | cons other behind =>
                  obtain ⟨-, later⟩ := List.cons.inj left
                  exact ih further later

/-- While the steps that leave nothing behind keep a property, the next mark is left in a
state that has it. -/
theorem trail_next {Inv : State → Prop} {after : List Mark} {mark : Mark}
    (kept : ∀ {state next : State} {label : Label}, Inv state → emit state label = none →
      step state label = some next → Inv next)
    (here : Inv start) (meets : Meets step ok labels start)
    (left : trail step emit labels start = mark :: after) :
    ∃ (state next : State) (label : Label) (rest : List Label), Inv state ∧
      step state label = some next ∧ emit state label = some mark ∧ ok state label ∧
        Meets step ok rest next ∧ trail step emit rest next = after := by
  induction labels generalizing start with
  | nil => cases left
  | cons label rest ih =>
      rw [trail] at left
      cases taken : step start label with
      | none =>
          rw [taken] at left
          cases left
      | some next =>
          rw [taken] at left
          dsimp only at left
          have further := meets.2 next taken
          cases marked : emit start label with
          | none =>
              rw [marked] at left
              exact ih (kept here marked taken) further left
          | some first =>
              rw [marked] at left
              cases left
              exact ⟨start, next, label, rest, here, taken, marked, meets.1, further, rfl⟩

/-- The invariant rule for a property of a state and of the marks left so far. -/
theorem run_trail_invariant {Inv : List Mark → State → Prop}
    (kept : ∀ {marks : List Mark} {state next : State} {label : Label}, Inv marks state →
      ok state label → step state label = some next →
      Inv (marks ++ (emit state label).toList) next)
    {marks : List Mark} {last : State} (atStart : Inv marks start)
    (meets : Meets step ok labels start) (ran : run step labels start = some last) :
    Inv (marks ++ trail step emit labels start) last := by
  induction labels generalizing start marks with
  | nil =>
      cases Option.some.inj ran
      rw [trail, List.append_nil]
      exact atStart
  | cons label rest ih =>
      obtain ⟨next, taken, ranRest⟩ := Option.bind_eq_some_iff.mp ran
      rw [trail, taken]
      dsimp only
      rw [← List.append_assoc]
      exact ih (kept atStart meets.1 taken) (meets.2 next taken) ranRest

/-- Nothing is left behind just if no step of the run leaves anything. -/
theorem trail_eq_nil_iff {last : State} (ran : run step labels start = some last) :
    trail step emit labels start = [] ↔
      Meets step (fun state label => emit state label = none) labels start := by
  induction labels generalizing start with
  | nil => exact ⟨fun _ => trivial, fun _ => rfl⟩
  | cons label rest ih =>
      obtain ⟨next, taken, ranRest⟩ := Option.bind_eq_some_iff.mp ran
      rw [trail, taken]
      simp only [List.append_eq_nil_iff, Option.toList_eq_nil_iff, ih ranRest]
      constructor
      · rintro ⟨nothing, later⟩
        refine ⟨nothing, fun other also => ?_⟩
        cases taken.symm.trans also
        exact later
      · rintro ⟨nothing, later⟩
        exact ⟨nothing, later next taken⟩

theorem meets_free (labels : List Label) (start : State) :
    Meets step (fun _ _ => True) labels start := by
  induction labels generalizing start with
  | nil => trivial
  | cons label rest ih => exact ⟨trivial, fun next _ => ih next⟩

/-- A guarded run that gets to its end meets its condition. -/
theorem meets_of_guarded [∀ state label, Decidable (ok state label)] {last : State}
    (ran : guarded step ok labels start = some last) : Meets step ok labels start := by
  induction labels generalizing start with
  | nil => trivial
  | cons label rest ih =>
      simp only [guarded] at ran
      split at ran
      · rename_i meets
        obtain ⟨next, taken, ranRest⟩ := Option.bind_eq_some_iff.mp ran
        refine ⟨meets, fun other also => ?_⟩
        cases also.symm.trans taken
        exact ih ranRest
      · cases ran

theorem run_of_guarded [∀ state label, Decidable (ok state label)] {last : State}
    (ran : guarded step ok labels start = some last) : run step labels start = some last := by
  induction labels generalizing start with
  | nil => exact ran
  | cons label rest ih =>
      simp only [guarded] at ran
      split at ran
      · obtain ⟨next, taken, ranRest⟩ := Option.bind_eq_some_iff.mp ran
        exact Option.bind_eq_some_iff.mpr ⟨next, taken, ih ranRest⟩
      · cases ran

theorem meets_of_isSome [∀ state label, Decidable (ok state label)]
    (ran : (guarded step ok labels start).isSome = true) : Meets step ok labels start := by
  obtain ⟨last, ran⟩ := Option.isSome_iff_exists.mp ran
  exact meets_of_guarded ran

end Trail

end Trans
