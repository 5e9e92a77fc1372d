import Mathlib.Tactic.Common
import Mathlib.Tactic.Ring
import Mathlib.Data.List.Basic
import Mathlib.Algebra.Order.Group.Nat
import Mathlib.Algebra.BigOperators.Group.List.Basic

/-! # Threads over a shared state

A thread is a stack of frames.  Running a thread takes its top frame, changes the
shared state and puts the frames the call leads to in its place: one lock section
per frame, any interleaving of threads.  An event of the environment changes the
shared state and starts a thread of its own. -/
set_option autoImplicit false
namespace Threads

section Model
variable {Shared Frame Event Choice : Type*}

structure State (Shared Frame : Type*) where
  shared : Shared
  threads : List (List Frame)

inductive Label (Event Choice : Type*) where
  | event (event : Event)
  | run (thread : Nat) (choice : Choice)
  deriving DecidableEq, Repr

/-- One step: `react` gives the first frames of an event's thread, `exec` what
replaces the top frame of a running one. -/
def step (react : Shared → Event → Option (Shared × List Frame))
    (exec : Shared → Frame → Choice → Option (Shared × List Frame))
    (st : State Shared Frame) : Label Event Choice → Option (State Shared Frame)
  | .event event => (react st.shared event).map fun out => ⟨out.1, st.threads ++ [out.2]⟩
  | .run thread choice =>
      match st.threads[thread]? with
      | some (frame :: rest) =>
          (exec st.shared frame choice).map fun out =>
            ⟨out.1, st.threads.set thread (out.2 ++ rest)⟩
      | _ => none

/-- The frame stands somewhere on a stack. -/
def State.Has (st : State Shared Frame) (frame : Frame) : Prop :=
  ∃ code ∈ st.threads, frame ∈ code

instance (st : State Shared Frame) (P : Frame → Prop) [DecidablePred P] :
    Decidable (∃ frame, st.Has frame ∧ P frame) :=
  decidable_of_iff (∃ code ∈ st.threads, ∃ frame ∈ code, P frame) (by
    constructor
    · rintro ⟨code, among, frame, inside, holds⟩
      exact ⟨frame, ⟨code, among, inside⟩, holds⟩
    · rintro ⟨frame, ⟨code, among, inside⟩, holds⟩
      exact ⟨code, among, frame, inside, holds⟩)

def State.top (st : State Shared Frame) (thread : Nat) : Option Frame :=
  (st.threads[thread]?).bind List.head?

variable {react : Shared → Event → Option (Shared × List Frame)}
  {exec : Shared → Frame → Choice → Option (Shared × List Frame)}
  {st st' : State Shared Frame}

theorem step_event {event : Event} (stepped : step react exec st (.event event) = some st') :
    ∃ shared code, react st.shared event = some (shared, code) ∧
      st' = ⟨shared, st.threads ++ [code]⟩ := by
  simp only [step, Option.map_eq_some_iff] at stepped
  obtain ⟨⟨shared, code⟩, reacted, rfl⟩ := stepped
  exact ⟨shared, code, reacted, rfl⟩

theorem step_run {thread : Nat} {choice : Choice}
    (stepped : step react exec st (.run thread choice) = some st') :
    ∃ frame rest shared pushed, st.threads[thread]? = some (frame :: rest) ∧
      exec st.shared frame choice = some (shared, pushed) ∧
      st' = ⟨shared, st.threads.set thread (pushed ++ rest)⟩ := by
  simp only [step] at stepped
  split at stepped
  case h_1 frame rest found =>
    simp only [Option.map_eq_some_iff] at stepped
    obtain ⟨⟨shared, pushed⟩, executed, rfl⟩ := stepped
    exact ⟨frame, rest, shared, pushed, found, executed, rfl⟩
  case h_2 => cases stepped

theorem State.top_of_getElem? {thread : Nat} {frame : Frame} {rest : List Frame}
    (found : st.threads[thread]? = some (frame :: rest)) : st.top thread = some frame := by
  simp [State.top, found]

theorem State.has_of_top {thread : Nat} {frame : Frame} {rest : List Frame}
    (found : st.threads[thread]? = some (frame :: rest)) : st.Has frame :=
  ⟨_, List.mem_of_getElem? found, List.mem_cons_self ..⟩

/-- A frame of the next state was pushed by the step or stood there before. -/
theorem State.has_of_run {thread : Nat} {frame other : Frame} {rest pushed : List Frame}
    {shared : Shared} (found : st.threads[thread]? = some (frame :: rest))
    (has : State.Has ⟨shared, st.threads.set thread (pushed ++ rest)⟩ other) :
    other ∈ pushed ∨ st.Has other := by
  obtain ⟨code, among, inside⟩ := has
  rcases List.mem_or_eq_of_mem_set among with old | rfl
  · exact .inr ⟨code, old, inside⟩
  · rcases List.mem_append.mp inside with new | old
    · exact .inl new
    · exact .inr ⟨_, List.mem_of_getElem? found, List.mem_cons_of_mem _ old⟩

theorem State.has_of_pushed {thread : Nat} {frame other : Frame} {rest pushed : List Frame}
    {shared : Shared} (found : st.threads[thread]? = some (frame :: rest))
    (among : other ∈ pushed) :
    State.Has ⟨shared, st.threads.set thread (pushed ++ rest)⟩ other := by
  have inside : thread < st.threads.length := (List.getElem?_eq_some_iff.mp found).1
  exact ⟨pushed ++ rest, List.mem_of_getElem? (List.getElem?_set_self inside),
    List.mem_append_left _ among⟩

/-- Every frame but the one that ran stays where it is. -/
theorem State.has_after_run {thread : Nat} {frame other : Frame} {rest pushed : List Frame}
    {shared : Shared} (found : st.threads[thread]? = some (frame :: rest))
    (has : st.Has other) : other = frame ∨
      State.Has ⟨shared, st.threads.set thread (pushed ++ rest)⟩ other := by
  obtain ⟨code, among, standing⟩ := has
  have inside : thread < st.threads.length := (List.getElem?_eq_some_iff.mp found).1
  obtain ⟨place, bound, rfl⟩ := List.mem_iff_getElem.mp among
  by_cases same : place = thread
  · subst same
    have stack : st.threads[place] = frame :: rest := by
      have := List.getElem?_eq_getElem bound
      rw [found] at this
      exact (Option.some.inj this).symm
    rw [stack] at standing
    rcases List.mem_cons.mp standing with top | below
    · exact .inl top
    · exact .inr ⟨pushed ++ rest, List.mem_of_getElem? (List.getElem?_set_self inside),
        List.mem_append_right _ below⟩
  · refine .inr ⟨st.threads[place], ?_, standing⟩
    refine List.mem_of_getElem? (i := place) ?_
    rw [List.getElem?_set_ne (Ne.symm same), List.getElem?_eq_getElem bound]

theorem State.has_of_event {other : Frame} {code : List Frame} {shared : Shared}
    (has : State.Has ⟨shared, st.threads ++ [code]⟩ other) : other ∈ code ∨ st.Has other := by
  obtain ⟨stack, among, inside⟩ := has
  rcases List.mem_append.mp among with old | new
  · exact .inr ⟨stack, old, inside⟩
  · cases List.mem_singleton.mp new
    exact .inl inside

end Model

/-! ## Sums over all frames -/

section Total
variable {Shared Frame : Type*} {st : State Shared Frame}

def weigh (weight : Frame → Nat) (code : List Frame) : Nat := (code.map weight).sum

def State.total (weight : Frame → Nat) (st : State Shared Frame) : Nat :=
  weigh weight st.threads.flatten

@[simp] theorem weigh_nil (weight : Frame → Nat) : weigh weight [] = 0 := rfl

@[simp] theorem weigh_cons (weight : Frame → Nat) (frame : Frame) (code : List Frame) :
    weigh weight (frame :: code) = weight frame + weigh weight code := by
  simp [weigh]

@[simp] theorem weigh_append (weight : Frame → Nat) (first second : List Frame) :
    weigh weight (first ++ second) = weigh weight first + weigh weight second := by
  simp [weigh]

theorem weigh_eq_zero {weight : Frame → Nat} {code : List Frame}
    (none : ∀ frame ∈ code, weight frame = 0) : weigh weight code = 0 := by
  induction code with
  | nil => rfl
  | cons frame rest ih =>
      have head := none frame (List.mem_cons_self ..)
      have tail := ih fun other among => none other (List.mem_cons_of_mem _ among)
      simp [head, tail]

theorem weight_le_weigh {weight : Frame → Nat} {frame : Frame} {code : List Frame}
    (among : frame ∈ code) : weight frame ≤ weigh weight code := by
  induction code with
  | nil => cases among
  | cons head rest ih =>
      rcases List.mem_cons.mp among with rfl | later
      · simp
      · have := ih later
        simp
        omega

theorem State.has_iff {frame : Frame} : st.Has frame ↔ frame ∈ st.threads.flatten := by
  simp [State.Has]

private theorem weigh_flatten_set (weight : Frame → Nat) {threads : List (List Frame)}
    {thread : Nat} {old new : List Frame} (found : threads[thread]? = some old) :
    weigh weight (threads.set thread new).flatten + weigh weight old =
      weigh weight threads.flatten + weigh weight new := by
  induction threads generalizing thread with
  | nil => simp at found
  | cons head rest ih =>
      cases thread with
      | zero =>
          cases Option.some.inj found
          simp
          omega
      | succ thread =>
          have := ih (by simpa using found)
          simp
          omega

theorem State.total_run (weight : Frame → Nat) {thread : Nat} {frame : Frame}
    {rest pushed : List Frame} {shared : Shared}
    (found : st.threads[thread]? = some (frame :: rest)) :
    State.total weight ⟨shared, st.threads.set thread (pushed ++ rest)⟩ + weight frame =
      st.total weight + weigh weight pushed := by
  have changed := @weigh_flatten_set _ weight _ _ _ (pushed ++ rest) found
  simp only [State.total, weigh_cons, weigh_append] at changed ⊢
  omega

theorem State.total_event (weight : Frame → Nat) {code : List Frame} {shared : Shared} :
    State.total weight ⟨shared, st.threads ++ [code]⟩ =
      st.total weight + weigh weight code := by
  simp [State.total]

theorem State.weight_le_total (weight : Frame → Nat) {frame : Frame} (has : st.Has frame) :
    weight frame ≤ st.total weight :=
  weight_le_weigh (State.has_iff.mp has)

theorem weigh_le_weigh {weight heavier : Frame → Nat} {code : List Frame}
    (below : ∀ frame, weight frame ≤ heavier frame) : weigh weight code ≤ weigh heavier code := by
  induction code with
  | nil => exact Nat.le_refl 0
  | cons frame rest ih =>
      have := below frame
      simp only [weigh_cons]
      omega

theorem State.total_le_total {weight heavier : Frame → Nat}
    (below : ∀ frame, weight frame ≤ heavier frame) : st.total weight ≤ st.total heavier :=
  weigh_le_weigh below

theorem State.total_eq_zero {weight : Frame → Nat} :
    st.total weight = 0 ↔ ∀ frame, st.Has frame → weight frame = 0 := by
  constructor
  · intro empty frame has
    have := State.weight_le_total weight has
    omega
  · intro none
    exact weigh_eq_zero fun frame inside => none frame (State.has_iff.mpr inside)

theorem State.eq_of_total_one {weight : Frame → Nat} (one : st.total weight = 1)
    {frame other : Frame} (has : st.Has frame) (hasOther : st.Has other)
    (heavy : 0 < weight frame) (heavyOther : 0 < weight other) : frame = other := by
  by_contra distinct
  have both : ∀ {stack : List Frame}, frame ∈ stack → other ∈ stack →
      weight frame + weight other ≤ weigh weight stack := by
    intro stack
    induction stack with
    | nil =>
        intro first
        cases first
    | cons head rest ih =>
        intro first second
        simp only [weigh_cons]
        rcases List.mem_cons.mp first with rfl | inRest
        · rcases List.mem_cons.mp second with rfl | inRest
          · exact absurd rfl distinct
          · have := @weight_le_weigh _ weight _ _ inRest
            omega
        · rcases List.mem_cons.mp second with rfl | alsoInRest
          · have := @weight_le_weigh _ weight _ _ inRest
            omega
          · have := ih inRest alsoInRest
            omega
  have bound := both (State.has_iff.mp has) (State.has_iff.mp hasOther)
  have same : st.total weight = weigh weight st.threads.flatten := rfl
  omega

end Total

/-! ## What is issued is somewhere -/

section Balance
variable {Shared Frame Event Choice : Type*}

def Balanced (issued held : Shared → Nat) (weight : Frame → Nat) (st : State Shared Frame) : Prop :=
  issued st.shared = held st.shared + st.total weight

variable {react : Shared → Event → Option (Shared × List Frame)}
  {exec : Shared → Frame → Choice → Option (Shared × List Frame)}
  {st st' : State Shared Frame} {issued held : Shared → Nat} {weight : Frame → Nat}

theorem Balanced.event {shared : Shared} {code : List Frame} (balanced : Balanced issued held weight st)
    (moved : issued shared + held st.shared = issued st.shared + held shared + weigh weight code) :
    Balanced issued held weight ⟨shared, st.threads ++ [code]⟩ := by
  unfold Balanced at balanced ⊢
  rw [State.total_event]
  dsimp only
  omega

theorem Balanced.run {thread : Nat} {frame : Frame} {rest pushed : List Frame} {shared : Shared}
    (balanced : Balanced issued held weight st)
    (found : st.threads[thread]? = some (frame :: rest))
    (moved : issued shared + held st.shared + weight frame =
      issued st.shared + held shared + weigh weight pushed) :
    Balanced issued held weight ⟨shared, st.threads.set thread (pushed ++ rest)⟩ := by
  unfold Balanced at balanced ⊢
  have total := @State.total_run _ _ st weight _ _ _ pushed shared found
  dsimp only
  omega

/-- A balance is kept when every event and every frame moves as much as it issues. -/
theorem Balanced.step {label : Label Event Choice} (balanced : Balanced issued held weight st)
    (reacts : ∀ event shared code, react st.shared event = some (shared, code) →
      issued shared + held st.shared = issued st.shared + held shared + weigh weight code)
    (execs : ∀ frame choice shared pushed, st.Has frame →
      weight frame + held st.shared ≤ issued st.shared →
      exec st.shared frame choice = some (shared, pushed) →
      issued shared + held st.shared + weight frame =
        issued st.shared + held shared + weigh weight pushed)
    (stepped : Threads.step react exec st label = some st') :
    Balanced issued held weight st' := by
  cases label with
  | event event =>
      obtain ⟨shared, code, reacted, rfl⟩ := step_event stepped
      exact balanced.event (reacts event shared code reacted)
  | run thread choice =>
      obtain ⟨frame, rest, shared, pushed, found, executed, rfl⟩ := step_run stepped
      have has := State.has_of_top found
      have below := State.weight_le_total weight has
      refine balanced.run found (execs frame choice shared pushed has ?_ executed)
      unfold Balanced at balanced
      omega

end Balance

/-! ## What is due is on somebody's stack -/

section Owed
variable {Shared Frame : Type*} {st : State Shared Frame} {due : Shared → Prop}
  {serves : Frame → Prop}

/-- While something is due, a frame that serves it stands on a stack. -/
def State.Owed (due : Shared → Prop) (serves : Frame → Prop) (st : State Shared Frame) : Prop :=
  due st.shared → ∃ frame, st.Has frame ∧ serves frame

theorem State.Owed.event (owed : st.Owed due serves) {shared : Shared} (code : List Frame)
    (back : due shared → due st.shared) :
    State.Owed due serves ⟨shared, st.threads ++ [code]⟩ := fun isDue => by
  obtain ⟨frame, ⟨stack, among, inside⟩, served⟩ := owed (back isDue)
  exact ⟨frame, ⟨stack, List.mem_append_left _ among, inside⟩, served⟩

/-- A frame that runs pushes one that serves, or it did not serve what was due before. -/
theorem State.Owed.run (owed : st.Owed due serves) {thread : Nat} {frame : Frame}
    {rest pushed : List Frame} {shared : Shared}
    (found : st.threads[thread]? = some (frame :: rest))
    (passes : due shared →
      (∃ other ∈ pushed, serves other) ∨ ¬ serves frame ∧ due st.shared) :
    State.Owed due serves ⟨shared, st.threads.set thread (pushed ++ rest)⟩ := fun isDue => by
  rcases passes isDue with ⟨other, among, served⟩ | ⟨notIt, before⟩
  · exact ⟨other, State.has_of_pushed found among, served⟩
  · obtain ⟨other, has, served⟩ := owed before
    rcases State.has_after_run found has with rfl | still
    · exact absurd served notIt
    · exact ⟨other, still, served⟩

/-- When every stack is empty nothing is due. -/
theorem State.Owed.settled (owed : st.Owed due serves) (quiet : ∀ code ∈ st.threads, code = []) :
    ¬ due st.shared := fun isDue => by
  obtain ⟨frame, ⟨code, among, inside⟩, -⟩ := owed isDue
  rw [quiet code among] at inside
  cases inside

end Owed

end Threads
