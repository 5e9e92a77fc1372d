import Mathlib.Tactic.Common
import Mathlib.Tactic.Ring

/-! # Runs of a labelled transition system

A system is a partial step function over labels.  `Reaches step ok start` holds
of the states reached by steps that each meet the condition `ok` in the state
before them; an invariant needs one preservation lemma per step and is then
carried over whole runs.  `run` and `Meets` are the executable form of the same
notion, used for concrete runs. -/
set_option autoImplicit false
namespace Trans

section Reach
variable {State Label : Type*}

/-- The states reached from `start` by steps that all meet `ok` in the state
they are taken in. -/
inductive Reaches (step : State → Label → Option State) (ok : State → Label → Prop)
    (start : State) : State → Prop
  | init : Reaches step ok start start
  | step {state next : State} {label : Label} :
      Reaches step ok start state → ok state label → step state label = some next →
      Reaches step ok start next

variable {step : State → Label → Option State} {ok : State → Label → Prop} {start : State}

/-- The invariant rule: what holds at the start and is kept by every step that
meets the condition holds in every state reached. -/
theorem Reaches.invariant {Inv : State → Prop} (atStart : Inv start)
    (kept : ∀ {state next : State} {label : Label}, Inv state → ok state label →
      step state label = some next → Inv next) {state : State}
    (reached : Reaches step ok start state) : Inv state := by
  induction reached with
  | init => exact atStart
  | step _ meets taken ih => exact kept ih meets taken

theorem Reaches.trans {middle last : State} (first : Reaches step ok start middle)
    (second : Reaches step ok middle last) : Reaches step ok start last := by
  induction second with
  | init => exact first
  | step _ meets taken ih => exact .step ih meets taken

theorem Reaches.mono {weaker : State → Label → Prop}
    (implied : ∀ state label, ok state label → weaker state label) {state : State}
    (reached : Reaches step ok start state) : Reaches step weaker start state := by
  induction reached with
  | init => exact .init
  | step _ meets taken ih => exact .step ih (implied _ _ meets) taken

theorem Reaches.relabel {Other : Type*} {step' : State → Other → Option State}
    {ok' : State → Other → Prop} (name : Other → Label)
    (same : ∀ state label, step' state label = step state (name label))
    (implied : ∀ state label, ok' state label → ok state (name label)) {state : State}
    (reached : Reaches step' ok' start state) : Reaches step ok start state := by
  induction reached with
  | init => exact .init
  | step _ meets taken ih => exact .step ih (implied _ _ meets) (same _ _ ▸ taken)

end Reach

section Run
variable {State Label : Type*}

def run (step : State → Label → Option State) : List Label → State → Option State
  | [], state => some state
  | label :: rest, state => (step state label).bind (run step rest)

/-- Every step of the run meets the condition in the state before it. -/
def Meets (step : State → Label → Option State) (ok : State → Label → Prop) :
    List Label → State → Prop
  | [], _ => True
  | label :: rest, state =>
      ok state label ∧ ∀ next, step state label = some next → Meets step ok rest next

def Throughout (step : State → Label → Option State) (holds : State → Prop) :
    List Label → State → Prop
  | [], state => holds state
  | label :: rest, state =>
      holds state ∧ ∀ next, step state label = some next → Throughout step holds rest next

variable {step : State → Label → Option State} {ok : State → Label → Prop}

/-- Where every step that meets the condition keeps the property and every
other step breaks it, the property lasts exactly as long as the condition. -/
theorem throughout_iff_meets {holds : State → Prop}
    (kept : ∀ {state next : State} {label : Label}, holds state → ok state label →
      step state label = some next → holds next)
    (broken : ∀ {state : State} {label : Label}, holds state → ¬ ok state label →
      ∃ next, step state label = some next ∧ ¬ holds next)
    (labels : List Label) {state : State} (atStart : holds state) :
    Throughout step holds labels state ↔ Meets step ok labels state := by
  induction labels generalizing state with
  | nil => exact ⟨fun _ => trivial, fun _ => atStart⟩
  | cons label rest ih =>
      constructor
      · rintro ⟨-, after⟩
        have meets : ok state label := by
          by_contra fails
          obtain ⟨next, taken, lost⟩ := broken atStart fails
          have further := after next taken
          cases rest with
          | nil => exact lost further
          | cons _ _ => exact lost further.1
        exact ⟨meets, fun next taken =>
          (ih (kept atStart meets taken)).mp (after next taken)⟩
      · rintro ⟨meets, after⟩
        exact ⟨atStart, fun next taken =>
          (ih (kept atStart meets taken)).mpr (after next taken)⟩

/-- Two conditions on the steps that agree wherever an invariant of the second
one holds are met by the same runs. -/
theorem meets_iff_meets {Inv : State → Prop} {other : State → Label → Prop}
    (agree : ∀ {state : State} {label : Label}, Inv state → (ok state label ↔ other state label))
    (kept : ∀ {state next : State} {label : Label}, Inv state → other state label →
      step state label = some next → Inv next)
    (labels : List Label) {state : State} (atStart : Inv state) :
    Meets step ok labels state ↔ Meets step other labels state := by
  induction labels generalizing state with
  | nil => exact Iff.rfl
  | cons label rest ih =>
      constructor
      · rintro ⟨meets, after⟩
        have meets := (agree atStart).mp meets
        exact ⟨meets, fun next taken => (ih (kept atStart meets taken)).mp (after next taken)⟩
      · rintro ⟨meets, after⟩
        exact ⟨(agree atStart).mpr meets, fun next taken =>
          (ih (kept atStart meets taken)).mpr (after next taken)⟩

theorem run_append (first second : List Label) (state : State) :
    run step (first ++ second) state = (run step first state).bind (run step second) := by
  induction first generalizing state with
  | nil => rfl
  | cons label rest ih =>
      simp only [List.cons_append, run]
      cases step state label with
      | none => rfl
      | some next => simpa using ih next

theorem Meets.last {labels : List Label} {label : Label} {start state : State}
    (meets : Meets step ok (labels ++ [label]) start) (ran : run step labels start = some state) :
    ok state label := by
  induction labels generalizing start with
  | nil =>
      cases Option.some.inj ran
      exact meets.1
  | cons first rest ih =>
      obtain ⟨next, taken, ranRest⟩ := Option.bind_eq_some_iff.mp ran
      exact ih (meets.2 next taken) ranRest

theorem reaches_of_run {labels : List Label} {start last : State}
    (meets : Meets step ok labels start) (ran : run step labels start = some last) :
    Reaches step ok start last := by
  induction labels generalizing start with
  | nil =>
      cases Option.some.inj ran
      exact .init
  | cons label rest ih =>
      simp only [run] at ran
      obtain ⟨next, taken, ranRest⟩ := Option.bind_eq_some_iff.mp ran
      exact Reaches.trans (.step .init meets.1 taken) (ih (meets.2 next taken) ranRest)

/-- Any run is a run of the system without a condition on its steps. -/
theorem reaches_of_run_free {labels : List Label} {start last : State}
    (ran : run step labels start = some last) :
    Reaches step (fun _ _ => True) start last := by
  refine reaches_of_run ?_ ran
  clear ran
  induction labels generalizing start with
  | nil => trivial
  | cons label rest ih => exact ⟨trivial, fun next _ => ih⟩

/-- The run that stops where a step does not meet the condition. -/
def guarded (step : State → Label → Option State) (ok : State → Label → Prop)
    [∀ state label, Decidable (ok state label)] : List Label → State → Option State
  | [], state => some state
  | label :: rest, state =>
      if ok state label then (step state label).bind (guarded step ok rest) else none

theorem reaches_of_guarded [∀ state label, Decidable (ok state label)] {labels : List Label}
    {start last : State} (ran : guarded step ok labels start = some last) :
    Reaches step ok start last := by
  induction labels generalizing start with
  | nil =>
      cases Option.some.inj ran
      exact .init
  | cons label rest ih =>
      simp only [guarded] at ran
      split at ran
      · rename_i meets
        obtain ⟨next, taken, ranRest⟩ := Option.bind_eq_some_iff.mp ran
        exact Reaches.trans (.step .init meets taken) (ih ranRest)
      · cases ran

theorem exists_reaches_of_guarded [∀ state label, Decidable (ok state label)]
    {labels : List Label} {start : State} {p : State → Bool}
    (found : (guarded step ok labels start).any p = true) :
    ∃ last, Reaches step ok start last ∧ p last = true := by
  obtain ⟨last, ran, holds⟩ := (Option.any_eq_true p _).mp found
  exact ⟨last, reaches_of_guarded ran, holds⟩

end Run

/-! ## Automata read along a list -/

section Trace
variable {State Letter : Type*}

/-- `Trace accepts first word last`: the automaton reads `word` from `first` to
`last`. -/
inductive Trace (accepts : State → Letter → State → Prop) : State → List Letter → State → Prop
  | nil (state : State) : Trace accepts state [] state
  | cons {first middle last : State} {letter : Letter} {word : List Letter} :
      accepts first letter middle → Trace accepts middle word last →
      Trace accepts first (letter :: word) last

variable {accepts : State → Letter → State → Prop}

theorem Trace.append {first middle last : State} {left right : List Letter}
    (one : Trace accepts first left middle) (two : Trace accepts middle right last) :
    Trace accepts first (left ++ right) last := by
  induction one with
  | nil state => exact two
  | cons read _ ih => exact .cons read (ih two)

theorem Trace.snoc {first middle last : State} {word : List Letter} {letter : Letter}
    (one : Trace accepts first word middle) (read : accepts middle letter last) :
    Trace accepts first (word ++ [letter]) last :=
  one.append (.cons read (.nil last))

theorem Trace.map {relabel : Letter → Letter} {first last : State} {word : List Letter}
    (kept : ∀ {one two : State} {letter : Letter}, accepts one letter two →
      accepts one (relabel letter) two)
    (trace : Trace accepts first word last) : Trace accepts first (word.map relabel) last := by
  induction trace with
  | nil state => exact .nil state
  | cons read _ ih => exact .cons (kept read) ih

theorem trace_nil_iff {first last : State} :
    Trace accepts first [] last ↔ first = last := by
  constructor
  · intro read
    cases read
    rfl
  · rintro rfl
    exact .nil first

theorem trace_cons_iff {first last : State} {letter : Letter} {word : List Letter} :
    Trace accepts first (letter :: word) last ↔
      ∃ middle, accepts first letter middle ∧ Trace accepts middle word last := by
  constructor
  · intro read
    cases read with
    | cons head tail => exact ⟨_, head, tail⟩
  · rintro ⟨middle, head, tail⟩
    exact .cons head tail

theorem trace_append_iff {first last : State} {left right : List Letter} :
    Trace accepts first (left ++ right) last ↔
      ∃ middle, Trace accepts first left middle ∧ Trace accepts middle right last := by
  constructor
  · intro trace
    induction left generalizing first with
    | nil => exact ⟨first, .nil _, trace⟩
    | cons letter left ih =>
        obtain ⟨next, read, rest⟩ := trace_cons_iff.mp trace
        obtain ⟨middle, one, two⟩ := ih rest
        exact ⟨middle, .cons read one, two⟩
  · rintro ⟨middle, one, two⟩
    exact one.append two

end Trace

end Trans
