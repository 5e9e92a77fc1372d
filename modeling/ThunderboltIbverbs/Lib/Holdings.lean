import ThunderboltIbverbs.Lib.Run
import Mathlib.Data.List.Basic

/-! # What is taken and given back

A program takes resources and gives them back.  Some resources can be taken only while others are
held, and some must not be given back while others are held.  A log of takings and givings is legal
when every entry is allowed by what is held before it. -/
set_option autoImplicit false
namespace Holdings

open Trans

variable {R : Type*}

inductive Act (R : Type*) where
  | take (r : R)
  | give (r : R)
  deriving DecidableEq, Repr

/-- `needs r s`: `r` is taken only while `s` is held.  `pins q r`: the last `r` is not given back
while `q` is held.  `single r`: there is one `r` at most. -/
structure Rules (R : Type*) where
  needs : R → R → Prop
  pins : R → R → Prop
  single : R → Prop

/-- One entry of a log; what is held is counted. -/
inductive Moves (rules : Rules R) (held : R → Nat) : Act R → (R → Nat) → Prop
  | take {r : R} {after : R → Nat} (more : after r = held r + 1)
      (rest : ∀ q, q ≠ r → after q = held q) (ready : ∀ s, rules.needs r s → 0 < held s)
      (once : rules.single r → held r = 0) : Moves rules held (.take r) after
  | give {r : R} {after : R → Nat} (less : held r = after r + 1)
      (rest : ∀ q, q ≠ r → after q = held q)
      (free : after r = 0 → ∀ q, rules.pins q r → held q = 0) : Moves rules held (.give r) after

/-- The log leads from what is held before it to what is held after it. -/
abbrev Legal (rules : Rules R) : (R → Nat) → List (Act R) → (R → Nat) → Prop :=
  Trace (Moves rules)

variable {rules : Rules R} {held after : R → Nat} {log : List (Act R)} {r s : R}

theorem Legal.of_moves {act : Act R} (moves : Moves rules held act after) :
    Legal rules held [act] after := .cons moves (.nil _)

/-- Blocks of a loop that counts up, each one leading from its own holdings to the next one's. -/
theorem Legal.range {block : Nat → List (Act R)} {level : Nat → R → Nat} (n : Nat)
    (each : ∀ i < n, Legal rules (level i) (block i) (level (i + 1))) :
    Legal rules (level 0) ((List.range n).flatMap block) (level n) := by
  induction n with
  | zero => exact .nil _
  | succ n ih =>
      rw [List.range_succ, List.flatMap_append, List.flatMap_singleton]
      exact (ih fun i below => each i (below.trans n.lt_succ_self)).append
        (each n n.lt_succ_self)

/-! ## Counting -/

section Count
variable [DecidableEq R]

def takes (r : R) (log : List (Act R)) : Nat := log.count (.take r)

def gives (r : R) (log : List (Act R)) : Nat := log.count (.give r)

theorem takes_cons (act : Act R) :
    takes r (act :: log) = takes r log + if act = .take r then 1 else 0 := by
  simp [takes, List.count_cons]

theorem gives_cons (act : Act R) :
    gives r (act :: log) = gives r log + if act = .give r then 1 else 0 := by
  simp [gives, List.count_cons]

theorem Legal.count (legal : Legal rules held log after) (r : R) :
    held r + takes r log = after r + gives r log := by
  induction legal with
  | nil => rfl
  | @cons _ _ _ act _ moves _ ih =>
      rw [takes_cons, gives_cons]
      cases moves with
      | @take q _ more rest =>
          rw [if_neg (by simp : Act.take q ≠ .give r)]
          by_cases same : q = r
          · subst same
            rw [if_pos rfl]
            omega
          · have kept := rest r (Ne.symm same)
            rw [if_neg fun is => same (Act.take.inj is)]
            omega
      | @give q _ less rest =>
          rw [if_neg (by simp : Act.give q ≠ .take r)]
          by_cases same : q = r
          · subst same
            rw [if_pos rfl]
            omega
          · have kept := rest r (Ne.symm same)
            rw [if_neg fun is => same (Act.give.inj is)]
            omega

/-- A log that ends with nothing held gives back everything as often as it takes it. -/
theorem Legal.balanced (legal : Legal rules (fun _ => 0) log fun _ => 0) (r : R) :
    takes r log = gives r log := by
  have := legal.count r
  omega

end Count

/-! ## Splitting a legal log -/

theorem Legal.split {first second : List (Act R)} (legal : Legal rules held (first ++ second) after) :
    ∃ middle, Legal rules held first middle ∧ Legal rules middle second after :=
  trace_append_iff.mp legal

theorem Legal.le_one (legal : Legal rules held log after) (single : rules.single r)
    (one : held r ≤ 1) : after r ≤ 1 := by
  induction legal with
  | nil => exact one
  | cons moves _ ih =>
      refine ih ?_
      cases moves with
      | @take q _ more rest ready once =>
          by_cases same : r = q
          · subst same
            rw [more, once single]
          · rw [rest r same]
            exact one
      | @give q _ less rest =>
          by_cases same : r = q
          · subst same
            omega
          · rw [rest r same]
            exact one

/-- When the last `s` is given back, whatever pins it has been given back as often as it was
taken. -/
theorem Legal.unpinned [DecidableEq R] {before later : List (Act R)} {q : R}
    (legal : Legal rules (fun _ => 0) (before ++ .give s :: later) after) (pins : rules.pins q s)
    (last : takes s before = gives s before + 1) : takes q before = gives q before := by
  obtain ⟨middle, one, two⟩ := legal.split
  obtain ⟨next, moves, -⟩ := trace_cons_iff.mp two
  have ofS := one.count s
  have ofQ := one.count q
  cases moves with
  | give less rest free =>
      have gone := free (by omega) q pins
      omega

theorem Legal.unpinned_single [DecidableEq R] {before later : List (Act R)} {q : R}
    (legal : Legal rules (fun _ => 0) (before ++ .give s :: later) after)
    (single : rules.single s) (pins : rules.pins q s) : takes q before = gives q before := by
  refine legal.unpinned pins ?_
  obtain ⟨middle, one, two⟩ := legal.split
  obtain ⟨next, moves, -⟩ := trace_cons_iff.mp two
  have atMost := one.le_one single (Nat.zero_le 1)
  have count := one.count s
  cases moves with
  | give less => omega

/-! ## Runs -/

section Run
variable {State Label : Type*} {step : State → Label → Option (State × List (Act R))}
  {ok : State → Label → Prop} {start : State}

/-- The states that are reached by steps that meet `ok`, with the log of the steps. -/
inductive Performs (step : State → Label → Option (State × List (Act R)))
    (ok : State → Label → Prop) (start : State) : List (Act R) → State → Prop
  | init : Performs step ok start [] start
  | step {log acts : List (Act R)} {state next : State} {label : Label} :
      Performs step ok start log state → ok state label → step state label = some (next, acts) →
      Performs step ok start (log ++ acts) next

/-- When every step leads from what its state owns to what the next one owns, so does every run. -/
theorem Performs.legal {Inv : State → Prop} {owned : State → R → Nat} (atStart : Inv start)
    (kept : ∀ {state next : State} {label : Label} {acts : List (Act R)}, Inv state →
      ok state label → step state label = some (next, acts) →
        Inv next ∧ Legal rules (owned state) acts (owned next))
    {log : List (Act R)} {state : State} (performs : Performs step ok start log state) :
    Inv state ∧ Legal rules (owned start) log (owned state) := by
  induction performs with
  | init => exact ⟨atStart, .nil _⟩
  | step _ meets taken ih =>
      obtain ⟨inv, legal⟩ := kept ih.1 meets taken
      exact ⟨inv, ih.2.append legal⟩

end Run

end Holdings
