import ThunderboltIbverbs.Apple.Completions
import ThunderboltIbverbs.Lib.Trail

/-! # The tail of a truncated message

A frame that is dropped while no message is being gathered leaves the rest of its message
inbound.  `apple_rx_discard` is to swallow that rest; one of the branches that drop a frame
does not set it. -/
set_option autoImplicit false
namespace Tbv.AppleRx

open Threads

/-- A frame as `tbv_ibdev_rx_apple_frame` meets it behind its first drain. -/
structure Handled where
  qp : Qp
  frame : AppleFrame
  choice : Choice

def handledBy (st : State) : Label → Option Handled
  | .event _ => none
  | .run thread choice =>
      match st.top thread with
      | some (.handle frame) => some ⟨st.shared, frame, choice⟩
      | _ => none

def handled (cfg : Config) (labels : List Label) (start : State) : List Handled :=
  Trans.trail (step cfg) handledBy labels start

section Frames
variable (cfg : Config)

def AppleFrame.starts (frame : AppleFrame) : Prop := frame.sof ≠ 0 ∨ frame.eof = frameEnd

instance (frame : AppleFrame) : Decidable frame.starts := inferInstanceAs (Decidable (_ ∨ _))

/-- The frame is dropped while no message is being gathered: it does not start one, or
there is no slot for it. -/
def Handled.DroppedIdle (h : Handled) : Prop :=
  h.qp.active = none ∧ h.qp.discard = false ∧
    (¬ h.frame.starts ∨ (h.qp.pendingActive cfg).isNone = true)

/-- The frame goes into no slot: only the discard flag and the history of arrivals change. -/
def Handled.Swallowed (h : Handled) : Prop :=
  ∃ discard arrived,
    h.qp.handle cfg h.frame h.choice = ({ h.qp with discard := discard, arrived := arrived }, [])

/-- Behind a dropped start, every frame up to the next one that ends a message is
swallowed, that one included. -/
def TailsSwallowed (frames : List Handled) : Prop :=
  ∀ (before : List Handled) (drop : Handled) (tail : List Handled) (last : Handled)
    (after : List Handled), frames = before ++ drop :: (tail ++ last :: after) →
    drop.DroppedIdle cfg → drop.frame.eof ≠ frameEnd → (∀ h ∈ tail, h.frame.eof ≠ frameEnd) →
    last.Swallowed cfg

end Frames

/-- No frame is dropped for want of a start: an idle QP that is not resynchronizing meets
only frames with SOF or EOF = 3. -/
def StartsIdle (st : State) (label : Label) : Prop :=
  match handledBy st label with
  | some h => h.qp.discard = true ∨ h.qp.active ≠ none ∨ h.frame.starts
  | none => True

instance (st : State) (label : Label) : Decidable (StartsIdle st label) := by
  unfold StartsIdle
  split <;> infer_instance

section Step
variable {cfg : Config} {st next : State} {label : Label}

theorem isNone_pendingActive (q : Qp) (frame : AppleFrame) :
    ((q.arrive cfg frame).pendingActive cfg).isNone = (q.pendingActive cfg).isNone := by
  unfold Qp.pendingActive
  have same : (q.arrive cfg frame).active = q.active := rfl
  rw [same]
  cases q.active with
  | some index => rfl
  | none =>
      dsimp only
      split_ifs <;> first | rfl | contradiction

/-- A QP that resynchronizes swallows the frame, and stops after the end of a message. -/
theorem handle_discarding {q : Qp} (discards : q.discard = true) (frame : AppleFrame)
    (choice : Choice) : ∃ arrived, q.handle cfg frame choice =
      ({ q with discard := decide (frame.eof ≠ frameEnd), arrived := arrived }, []) := by
  refine ⟨(q.arrive cfg frame).arrived, ?_⟩
  have frameEnd_eq : frameEnd = 3 := rfl
  unfold Qp.handle
  dsimp only
  rw [if_pos discards, frameEnd_eq]
  by_cases last : frame.eof = 3
  · rw [if_pos last, decide_eq_false (not_not.mpr last)]
    rfl
  · rw [if_neg last, decide_eq_true last, ← discards]
    rfl

theorem handle_noSlot {q : Qp} (keeps : q.discard = false) {frame : AppleFrame}
    (starts : frame.starts) (none : (q.pendingActive cfg).isNone = true)
    (open_ : frame.eof ≠ frameEnd) (choice : Choice) :
    (q.handle cfg frame choice).1.discard = true := by
  have nothing : (q.arrive cfg frame).pendingActive cfg = .none := by
    rw [← Option.isNone_iff_eq_none, isNone_pendingActive, none]
  have going : ¬ frame.eof = 3 := open_
  have started : ¬ (q.active = .none ∧ ¬ (frame.sof ≠ 0 ∨ frame.eof = frameEnd)) :=
    fun both => both.2 starts
  unfold Qp.handle
  dsimp only
  rw [keeps, if_neg Bool.false_ne_true, if_neg started, nothing]
  dsimp only
  rw [if_neg going]

theorem pushWc_discard (q : Qp) (choice : Choice) (completion : Completion) :
    (q.pushWc choice completion).discard = q.discard := by
  unfold Qp.pushWc
  split <;> rfl

theorem deliver_discard (q : Qp) (wqe : RecvWqe) (choice : Choice) :
    (q.deliver cfg wqe choice).discard = q.discard :=
  pushWc_discard q choice _

/-- Only the handling of a frame touches the discard flag. -/
theorem step_discard (quiet : handledBy st label = none) (taken : step cfg st label = some next) :
    next.shared.discard = st.shared.discard := by
  cases label with
  | event event =>
      obtain ⟨q, code, reacted, rfl⟩ := step_event taken
      cases event <;> cases reacted <;> rfl
  | run thread choice =>
      obtain ⟨call, rest, q, pushed, found, executed, rfl⟩ := step_run taken
      rw [handledBy, State.top_of_getElem? found] at quiet
      cases call with
      | handle frame => cases quiet
      | postLoop wrs posted =>
          cases wrs with
          | nil =>
              cases executed
              rfl
          | cons wr more =>
              simp only [exec] at executed
              split at executed <;> cases executed <;> rfl
      | lockRx =>
          simp only [exec] at executed
          split at executed <;> cases executed
          rfl
      | unlockRx =>
          cases executed
          rfl
      | drain =>
          simp only [exec, Qp.popRecv] at executed
          split at executed
          · cases executed
            rfl
          · split at executed
            · cases executed
              rfl
            · rename_i wqe q' popped
              cases executed
              rw [deliver_discard]
              split at popped
              · cases popped
              · split at popped <;> cases popped
                rfl

theorem top_of_handledBy {h : Handled} (handles : handledBy st label = some h) :
    ∃ thread, label = .run thread h.choice ∧ st.top thread = some (.handle h.frame) ∧
      st.shared = h.qp := by
  cases label with
  | event event => cases handles
  | run thread choice =>
      simp only [handledBy] at handles
      split at handles <;> cases handles
      rename_i frame top
      exact ⟨thread, rfl, top, rfl⟩

theorem step_handled {h : Handled} (handles : handledBy st label = some h)
    (taken : step cfg st label = some next) :
    next.shared = (h.qp.handle cfg h.frame h.choice).1 := by
  obtain ⟨thread, rfl, top, same⟩ := top_of_handledBy handles
  obtain ⟨call, rest, q, pushed, found, executed, rfl⟩ := step_run taken
  rw [State.top_of_getElem? found] at top
  cases Option.some.inj top
  have ran := Option.some.inj executed
  rw [same] at ran
  exact (congrArg Prod.fst ran).symm

end Step

section Run
variable {cfg : Config} {ok : State → Label → Prop} {start : State} {labels : List Label}

/-- While the flag is set the frames are swallowed, up to the end of a message. -/
theorem swallowed_while_discarding (meets : Trans.Meets (step cfg) ok labels start)
    (discards : start.shared.discard = true) {tail after : List Handled} {last : Handled}
    (frames : handled cfg labels start = tail ++ last :: after)
    (open_ : ∀ h ∈ tail, h.frame.eof ≠ frameEnd) : last.Swallowed cfg := by
  have calm : ∀ {state next : State} {label : Label}, state.shared.discard = true →
      handledBy state label = none → step cfg state label = some next →
      next.shared.discard = true := fun set quiet taken => (step_discard quiet taken).trans set
  induction tail generalizing start labels with
  | nil =>
      obtain ⟨state, next, label, rest, set, taken, handles, -⟩ :=
        Trans.trail_next calm discards meets frames
      obtain ⟨-, -, -, same⟩ := top_of_handledBy handles
      rw [same] at set
      obtain ⟨arrived, swallowed⟩ := handle_discarding set last.frame last.choice
      exact ⟨_, arrived, swallowed⟩
  | cons first more ih =>
      obtain ⟨state, next, label, rest, set, taken, handles, -, further, later⟩ :=
        Trans.trail_next calm discards meets frames
      obtain ⟨-, -, -, same⟩ := top_of_handledBy handles
      rw [same] at set
      obtain ⟨arrived, swallowed⟩ := handle_discarding set first.frame first.choice
      refine ih further ?_ later fun h among => open_ h (List.mem_cons_of_mem _ among)
      rw [step_handled handles taken, swallowed]
      exact decide_eq_true (open_ first List.mem_cons_self)

/-- In every run in which no frame is dropped for want of a start, from every state of the QP,
the tail of a truncated message goes nowhere. -/
theorem truncated_tail_swallowed (cfg : Config) (start : State) (labels : List Label)
    (meets : Trans.Meets (step cfg) StartsIdle labels start) :
    TailsSwallowed cfg (handled cfg labels start) := by
  intro before drop tail last after frames dropped goesOn open_
  obtain ⟨state, next, label, rest, taken, handles, starts, further, later⟩ :=
    Trans.trail_split meets frames
  obtain ⟨idle, keeps, unstarted⟩ := dropped
  unfold StartsIdle at starts
  rw [handles] at starts
  have begins : drop.frame.starts := by
    rcases starts with discards | gathers | begins
    · rw [keeps] at discards
      cases discards
    · exact absurd idle gathers
    · exact begins
  have none := unstarted.resolve_left (not_not.mpr begins)
  refine swallowed_while_discarding further ?_ later open_
  rw [step_handled handles taken]
  exact handle_noSlot keeps begins none goesOn drop.choice

end Run

/-! ## Two runs -/

/-- A ring of one slot that is full, a message of two frames, and a WQE. -/
def truncatedStart : List Label :=
  call (.rxFrame ⟨[1], 1, 3⟩) 0 5 ++ call (.rxFrame ⟨[2], 1, 2⟩) 1 4 ++
    call (.rxFrame ⟨[3], 0, 3⟩) 2 4 ++ call (.postRecv [eightBytes]) 3 6

theorem truncated_tail_swallowed_full :
    Trans.Meets (step oneSlot) StartsIdle truncatedStart ⟨{}, []⟩ ∧
      TailsSwallowed oneSlot (handled oneSlot truncatedStart ⟨{}, []⟩) := by
  have meets : Trans.Meets (step oneSlot) StartsIdle truncatedStart ⟨{}, []⟩ :=
    Trans.meets_of_isSome (by decide +kernel)
  exact ⟨meets, truncated_tail_swallowed oneSlot ⟨{}, []⟩ truncatedStart meets⟩

/-- The first frame of a message is lost on the wire; its second is dropped, and its last is
completed as a message. -/
def lostStart : List Label :=
  call (.rxFrame ⟨[2], 0, 2⟩) 0 4 ++ call (.rxFrame ⟨[3], 0, 3⟩) 1 5 ++
    call (.postRecv [eightBytes]) 2 6

theorem truncated_tail_delivered :
    ((Trans.run (step oneSlot) lostStart ⟨{}, []⟩).map fun st => st.shared.completed) =
      some [⟨eightBytes.wqe, .success, 1, [3]⟩] ∧
    ¬ ∀ (cfg : Config) (start : State) (labels : List Label),
      TailsSwallowed cfg (handled cfg labels start) := by
  refine ⟨by decide +kernel, fun always => ?_⟩
  obtain ⟨discard, arrived, swallowed⟩ := always oneSlot ⟨{}, []⟩ lostStart [] _ [] _ [] rfl
    ⟨rfl, rfl, .inl (by decide)⟩ (by decide) (by simp)
  have ready := congrArg (fun after => after.1.readyCount) swallowed
  cases ready

end Tbv.AppleRx
