import ThunderboltIbverbs.Lib.Threads

/-! # Objects in the hands of threads

Frames that have an object in hand, and weights that count the frames of one object: a step of a
thread that has nothing to do with an object leaves its weights as they are. -/
set_option autoImplicit false
namespace Threads

section About
variable {Shared Frame Object : Type*} {object : Frame → Option Object}
  {weight : Object → Frame → Nat} {st : State Shared Frame} {shared : Shared} {o : Object}

def About (object : Frame → Option Object) (weight : Object → Frame → Nat) : Prop :=
  ∀ o frame, object frame ≠ some o → weight o frame = 0

theorem About.weigh (about : About object weight) {code : List Frame}
    (apart : ∀ frame ∈ code, object frame ≠ some o) : weigh (weight o) code = 0 :=
  weigh_eq_zero fun frame among => about o frame (apart frame among)

theorem About.total_run (about : About object weight) {thread : Nat} {frame : Frame}
    {rest pushed : List Frame} (found : st.threads[thread]? = some (frame :: rest))
    (apart : ∀ f ∈ frame :: pushed, object f ≠ some o) :
    State.total (weight o) ⟨shared, st.threads.set thread (pushed ++ rest)⟩ =
      st.total (weight o) := by
  have total := @State.total_run _ _ st (weight o) _ _ _ pushed shared found
  have own := about o frame (apart frame (List.mem_cons_self ..))
  have theirs := about.weigh fun f among => apart f (List.mem_cons_of_mem _ among)
  omega

theorem About.total_event (about : About object weight) {code : List Frame}
    (apart : ∀ f ∈ code, object f ≠ some o) :
    State.total (weight o) (⟨shared, st.threads ++ [code]⟩ : State Shared Frame) =
      st.total (weight o) := by
  rw [State.total_event, about.weigh apart, Nat.add_zero]

end About

/-- No thread has anything left to do. -/
theorem State.total_quiet {Shared Frame : Type*} {st : State Shared Frame} (weight : Frame → Nat)
    (quiet : ∀ code ∈ st.threads, code = []) : st.total weight = 0 := by
  rw [State.total_eq_zero]
  rintro frame ⟨code, among, inside⟩
  rw [quiet code among] at inside
  cases inside

end Threads
