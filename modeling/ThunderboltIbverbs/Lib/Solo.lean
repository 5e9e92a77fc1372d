import ThunderboltIbverbs.Lib.Threads
import Mathlib.Data.List.Basic

/-! # A role that one thread plays

Some frames belong to a role that only one thread at a time plays, such as a work item that never
runs beside itself.  `Solo mine part` says that the frames of the role are `part`, in this order,
on the stack of one thread, and that no other thread has any. -/
set_option autoImplicit false
namespace Threads

variable {Shared Frame Event Choice : Type*} {mine : Frame → Bool} {part : List Frame}
  {st : State Shared Frame}

/-- The frames of the role on a thread's stack. -/
def State.played (mine : Frame → Bool) (st : State Shared Frame) (thread : Nat) : List Frame :=
  ((st.threads[thread]?).getD []).filter mine

def State.Solo (mine : Frame → Bool) (part : List Frame) (st : State Shared Frame) : Prop :=
  ∃ player, st.played mine player = part ∧ ∀ thread, thread ≠ player → st.played mine thread = []

theorem State.solo_nil_iff : st.Solo mine [] ↔ ∀ thread, st.played mine thread = [] := by
  constructor
  · rintro ⟨player, plays, others⟩ thread
    by_cases same : thread = player
    · rw [same, plays]
    · exact others thread same
  · intro none
    exact ⟨0, none 0, fun thread _ => none thread⟩

theorem State.Solo.mem (solo : st.Solo mine part) {frame : Frame} (has : st.Has frame)
    (is : mine frame = true) : frame ∈ part := by
  obtain ⟨player, plays, others⟩ := solo
  obtain ⟨stack, among, inside⟩ := has
  obtain ⟨thread, bound, rfl⟩ := List.mem_iff_getElem.mp among
  have here : frame ∈ st.played mine thread := by
    unfold State.played
    rw [List.getElem?_eq_getElem bound]
    exact List.mem_filter.mpr ⟨inside, is⟩
  by_cases same : thread = player
  · rw [same, plays] at here
    exact here
  · rw [others thread same] at here
    cases here

/-- The frames of the part stand on a stack and belong to the role. -/
theorem State.Solo.has (solo : st.Solo mine part) {frame : Frame} (among : frame ∈ part) :
    st.Has frame ∧ mine frame = true := by
  obtain ⟨player, rfl, -⟩ := solo
  obtain ⟨inside, is⟩ := List.mem_filter.mp among
  refine ⟨?_, is⟩
  cases found : st.threads[player]? with
  | none =>
      rw [found] at inside
      cases inside
  | some stack =>
      rw [found] at inside
      exact ⟨stack, List.mem_of_getElem? found, inside⟩

/-! ## Steps -/

theorem played_event {shared : Shared} (code : List Frame) (thread : Nat) :
    State.played mine ⟨shared, st.threads ++ [code]⟩ thread =
      if thread = st.threads.length then code.filter mine else st.played mine thread := by
  unfold State.played
  split
  · rename_i new
    rw [new, List.getElem?_concat_length]
    rfl
  · rename_i old
    by_cases inside : thread < st.threads.length
    · rw [List.getElem?_append_left inside]
    · have beyond : st.threads.length + 1 ≤ thread := by omega
      rw [List.getElem?_eq_none (by simpa using beyond), List.getElem?_eq_none (by omega)]

/-- An event whose thread does not play the role. -/
theorem State.Solo.event (solo : st.Solo mine part) {shared : Shared} {code : List Frame}
    (quiet : code.filter mine = []) : State.Solo mine part ⟨shared, st.threads ++ [code]⟩ := by
  obtain ⟨player, plays, others⟩ := solo
  have fresh : st.played mine st.threads.length = [] := by
    unfold State.played
    rw [List.getElem?_eq_none (Nat.le_refl _)]
    rfl
  have same : ∀ thread, State.played mine ⟨shared, st.threads ++ [code]⟩ thread =
      st.played mine thread := by
    intro thread
    rw [played_event, quiet]
    split
    · rename_i new
      rw [new, fresh]
    · rfl
  exact ⟨player, (same player).trans plays, fun thread other =>
    (same thread).trans (others thread other)⟩

/-- An event whose thread takes up the role that nobody plays. -/
theorem State.Solo.begin (solo : st.Solo mine []) {shared : Shared} (code : List Frame) :
    State.Solo mine (code.filter mine) ⟨shared, st.threads ++ [code]⟩ := by
  have none := State.solo_nil_iff.mp solo
  refine ⟨st.threads.length, ?_, fun thread other => ?_⟩
  · rw [played_event, if_pos rfl]
  · rw [played_event, if_neg other]
    exact none thread

section Run
variable {thread : Nat} {frame : Frame} {rest pushed : List Frame} {shared : Shared}

theorem played_self (found : st.threads[thread]? = some (frame :: rest)) :
    st.played mine thread = (frame :: rest).filter mine := by
  unfold State.played
  rw [found]
  rfl

theorem played_run (found : st.threads[thread]? = some (frame :: rest)) (other : Nat) :
    State.played mine ⟨shared, st.threads.set thread (pushed ++ rest)⟩ other =
      if other = thread then pushed.filter mine ++ rest.filter mine else st.played mine other := by
  unfold State.played
  have inside : thread < st.threads.length := (List.getElem?_eq_some_iff.mp found).1
  split
  · rename_i same
    rw [same, List.getElem?_set_self inside, Option.getD_some, List.filter_append]
  · rename_i different
    rw [List.getElem?_set_ne (Ne.symm different)]

theorem State.Solo.run (solo : st.Solo mine part)
    (found : st.threads[thread]? = some (frame :: rest)) (outside : mine frame = false)
    (quiet : pushed.filter mine = []) :
    State.Solo mine part ⟨shared, st.threads.set thread (pushed ++ rest)⟩ := by
  obtain ⟨player, plays, others⟩ := solo
  have same : ∀ other, State.played mine ⟨shared, st.threads.set thread (pushed ++ rest)⟩ other =
      st.played mine other := by
    intro other
    rw [played_run found, quiet]
    split
    · rename_i here
      rw [here, played_self found, List.filter_cons, outside]
      rfl
    · rfl
  exact ⟨player, (same player).trans plays, fun thread other =>
    (same thread).trans (others thread other)⟩

/-- A frame of the role is the first of the part, and what it pushes takes its place. -/
theorem State.Solo.run_mine (solo : st.Solo mine part)
    (found : st.threads[thread]? = some (frame :: rest)) (inside : mine frame = true) :
    ∃ tail, part = frame :: tail ∧ ∀ (shared : Shared) (pushed : List Frame),
      State.Solo mine (pushed.filter mine ++ tail)
        ⟨shared, st.threads.set thread (pushed ++ rest)⟩ := by
  obtain ⟨player, plays, others⟩ := solo
  have here : st.played mine thread = frame :: rest.filter mine := by
    rw [played_self found, List.filter_cons, if_pos inside]
  have same : thread = player := by
    by_contra different
    rw [others thread different] at here
    cases here
  subst same
  refine ⟨rest.filter mine, plays.symm.trans here, fun shared pushed => ?_⟩
  refine ⟨thread, ?_, fun other different => ?_⟩
  · rw [played_run found, if_pos rfl]
  · rw [played_run found, if_neg different]
    exact others other different

end Run

end Threads
