import ThunderboltIbverbs.Lib.Ring

/-! # The completion queue

`tbv_cq_push`, `tbv_poll_cq` and `tbv_req_notify_cq` of `kernel/ibdev.c`: a circular table, a
latch for overflow, and a flag that the next push clears and reports.  What the three calls tell
their callers is kept as a history, and the queue is the part of it that was pushed and not yet
polled. -/
set_option autoImplicit false
namespace Tbv.Cq

inductive CqErrno where
  | enospc | eio
  deriving DecidableEq, Repr

/-- `struct tbv_cq`, with the owner's `data_cq_overflow`. -/
structure CompQueue (Wc : Type*) where
  entries : Nat → Wc
  cqe : Nat
  head : Nat := 0
  tail : Nat := 0
  count : Nat := 0
  notifyArmed : Bool := false
  overflowed : Bool := false
  compHandler : Bool := true
  dataCqOverflow : Nat := 0

/-- What a push returns, the QP it queues an error for, and whether it calls `comp_handler`. -/
structure PushReply (Qp : Type*) where
  ret : Option CqErrno
  errorQp : Option Qp
  called : Bool
  deriving DecidableEq, Repr

namespace CompQueue

variable {Wc Qp : Type*}

/-- `tbv_cq_push`; `qp` is the QP that a completion names, if any. -/
def push (qp : Wc → Option Qp) (cq : CompQueue Wc) (wc : Wc) : CompQueue Wc × PushReply Qp :=
  let called := cq.notifyArmed && cq.compHandler
  if cq.overflowed ∨ cq.count = cq.cqe then
    ({ cq with
      overflowed := true, dataCqOverflow := cq.dataCqOverflow + 1, notifyArmed := false },
      ⟨some .enospc, qp wc, called⟩)
  else
    ({ cq with
      entries := Function.update cq.entries cq.tail wc
      tail := (cq.tail + 1) % cq.cqe
      count := cq.count + 1
      notifyArmed := false },
      ⟨none, none, called⟩)

/-- The loop of `tbv_poll_cq`, with what is left of `num_entries`. -/
def pollLoop : Nat → CompQueue Wc → CompQueue Wc × List Wc
  | 0, cq => (cq, [])
  | left + 1, cq =>
      if cq.count = 0 then (cq, [])
      else
        let next := { cq with head := (cq.head + 1) % cq.cqe, count := cq.count - 1 }
        ((pollLoop left next).1, cq.entries cq.head :: (pollLoop left next).2)

/-- `tbv_poll_cq`. -/
def poll (cq : CompQueue Wc) (numEntries : Nat) : CompQueue Wc × Except CqErrno (List Wc) :=
  if numEntries = 0 then (cq, .ok [])
  else
    let out := pollLoop numEntries cq
    (out.1, if out.2.isEmpty && out.1.overflowed then .error .eio else .ok out.2)

/-- `tbv_req_notify_cq`; the flags are not read. -/
def reqNotify (cq : CompQueue Wc) : CompQueue Wc × Except CqErrno Nat :=
  if cq.overflowed then (cq, .error .eio)
  else ({ cq with notifyArmed := true }, .ok (if cq.count = 0 then 0 else 1))

def queued (cq : CompQueue Wc) : List Wc := Ring.contents cq.cqe cq.entries cq.head cq.count

end CompQueue

/-! ## Histories -/

inductive CqCall (Wc : Type*) where
  | push (wc : Wc)
  | poll (numEntries : Nat)
  | reqNotify
  deriving DecidableEq, Repr

inductive CqEvent (Wc Qp : Type*) where
  | pushed (wc : Wc) (reply : PushReply Qp)
  | polled (ret : Except CqErrno (List Wc))
  | requested (ret : Except CqErrno Nat)

section
variable {Wc Qp : Type*}

def CompQueue.call (qp : Wc → Option Qp) (cq : CompQueue Wc) :
    CqCall Wc → CompQueue Wc × CqEvent Wc Qp
  | .push wc => ((cq.push qp wc).1, .pushed wc (cq.push qp wc).2)
  | .poll numEntries => ((cq.poll numEntries).1, .polled (cq.poll numEntries).2)
  | .reqNotify => (cq.reqNotify.1, .requested cq.reqNotify.2)

/-- A queue with the events so far, the last one first. -/
structure Run (Wc Qp : Type*) where
  cq : CompQueue Wc
  events : List (CqEvent Wc Qp) := []

def Run.call (qp : Wc → Option Qp) (run : Run Wc Qp) (call : CqCall Wc) : Run Wc Qp where
  cq := (run.cq.call qp call).1
  events := (run.cq.call qp call).2 :: run.events

def accepted : List (CqEvent Wc Qp) → List Wc
  | [] => []
  | .pushed wc reply :: before =>
      accepted before ++ (match reply.ret with | none => [wc] | some _ => [])
  | _ :: before => accepted before

def polled : List (CqEvent Wc Qp) → List Wc
  | [] => []
  | .polled (.ok wcs) :: before => polled before ++ wcs
  | _ :: before => polled before

def refused : List (CqEvent Wc Qp) → Bool
  | [] => false
  | .pushed _ reply :: before => reply.ret.isSome || refused before
  | _ :: before => refused before

def armed : List (CqEvent Wc Qp) → Bool
  | [] => false
  | .pushed _ _ :: _ => false
  | .requested (.ok _) :: _ => true
  | _ :: before => armed before

/-- The queue holds what was accepted and not polled, and its flags are those of the history. -/
structure Tracks (cqe : Nat) (handler : Bool) (run : Run Wc Qp) : Prop where
  size : run.cq.cqe = cqe
  handler : run.cq.compHandler = handler
  head : run.cq.head < cqe
  room : run.cq.count ≤ cqe
  tail : run.cq.tail = Ring.place cqe run.cq.head run.cq.count
  contents : polled run.events ++ run.cq.queued = accepted run.events
  overflowed : run.cq.overflowed = refused run.events
  armed : run.cq.notifyArmed = armed run.events

variable {cqe : Nat} {handler : Bool} {run : Run Wc Qp} {qp : Wc → Option Qp}

theorem CompQueue.length_queued (cq : CompQueue Wc) : cq.queued.length = cq.count :=
  Ring.contents_length

theorem Tracks.push (tracks : Tracks cqe handler run) (wc : Wc) :
    Tracks cqe handler (run.call qp (.push wc)) := by
  obtain ⟨size, handled, head, room, tail, contents, overflowed, _⟩ := tracks
  unfold Run.call CompQueue.call CompQueue.push
  dsimp only
  split
  · refine ⟨size, handled, head, room, tail, ?_, ?_, rfl⟩
    · dsimp only [polled, accepted]
      rw [List.append_nil]
      exact contents
    · rfl
  · rename_i free
    have under : run.cq.count < cqe := by omega
    refine ⟨size, handled, head, under, ?_, ?_, ?_, rfl⟩
    · dsimp only
      rw [tail, size, Ring.place_add_one]
    · dsimp only [polled, accepted, CompQueue.queued]
      rw [size, tail, Ring.contents_snoc, Ring.contents_update_tail under, Function.update_self,
        ← List.append_assoc, ← contents, CompQueue.queued, size]
    · dsimp only [refused, Option.isSome_none]
      rw [Bool.false_or]
      exact overflowed

/-- The loop takes the first completions of the table. -/
theorem pollLoop_queued {left : Nat} {cq : CompQueue Wc} (inside : cq.head < cq.cqe) :
    let out := CompQueue.pollLoop left cq
    out.2 = cq.queued.take left ∧ out.1.queued = cq.queued.drop left ∧
      out.1.head < cq.cqe ∧ out.1.count ≤ cq.count ∧
      Ring.place cq.cqe out.1.head out.1.count = Ring.place cq.cqe cq.head cq.count ∧
      out.1 = { cq with head := out.1.head, count := out.1.count } := by
  induction left generalizing cq with
  | zero => exact ⟨rfl, rfl, inside, Nat.le_refl _, rfl, rfl⟩
  | succ left ih =>
      unfold CompQueue.pollLoop
      by_cases empty : cq.count = 0
      · rw [if_pos empty]
        have nothing : cq.queued = [] := by
          unfold CompQueue.queued
          rw [empty, Ring.contents_zero]
        rw [nothing]
        exact ⟨rfl, nothing, inside, Nat.le_refl _, rfl, rfl⟩
      rw [if_neg empty]
      dsimp only
      obtain ⟨count, more⟩ := Nat.exists_eq_succ_of_ne_zero empty
      have first : cq.queued = cq.entries cq.head ::
          CompQueue.queued { cq with head := (cq.head + 1) % cq.cqe, count := cq.count - 1 } := by
        unfold CompQueue.queued
        dsimp only
        rw [more, Ring.contents_pop, Ring.place_zero inside]
        rfl
      obtain ⟨takes, leaves, head, fewer, tail, same⟩ :=
        @ih { cq with head := (cq.head + 1) % cq.cqe, count := cq.count - 1 }
          (Nat.mod_lt _ (by omega))
      refine ⟨?_, ?_, head, ?_, ?_, ?_⟩
      · rw [takes, first, List.take_succ_cons]
      · rw [leaves, first, List.drop_succ_cons]
      · exact Nat.le_trans fewer (Nat.sub_le _ _)
      · refine tail.trans ?_
        dsimp only
        rw [Ring.place_succ_head, Nat.sub_add_cancel (Nat.pos_of_ne_zero empty)]
      · exact same

theorem Tracks.poll (tracks : Tracks cqe handler run) (numEntries : Nat) :
    Tracks cqe handler (run.call qp (.poll numEntries)) := by
  obtain ⟨size, handled, head, room, tail, contents, overflowed, armed⟩ := tracks
  unfold Run.call CompQueue.call CompQueue.poll
  dsimp only
  by_cases none : numEntries = 0
  · rw [if_pos none]
    refine ⟨size, handled, head, room, tail, ?_, overflowed, armed⟩
    dsimp only [polled, accepted]
    rw [List.append_nil]
    exact contents
  rw [if_neg none]
  obtain ⟨takes, leaves, inside, fewer, tail', same⟩ :=
    @pollLoop_queued Wc numEntries run.cq (size ▸ head)
  generalize CompQueue.pollLoop numEntries run.cq = out at takes leaves inside fewer tail' same ⊢
  have sameSize : out.1.cqe = cqe := by rw [same]; exact size
  have sameTail : out.1.tail = run.cq.tail := by rw [same]
  have sameHandler : out.1.compHandler = handler := by rw [same]; exact handled
  have sameLatch : out.1.overflowed = refused run.events := by rw [same]; exact overflowed
  have sameArmed : out.1.notifyArmed = Cq.armed run.events := by rw [same]; exact armed
  refine ⟨sameSize, sameHandler, size ▸ inside, Nat.le_trans fewer room, ?_, ?_, ?_, ?_⟩
  · dsimp only
    rw [sameTail, tail, ← size, tail']
  · dsimp only
    rw [leaves]
    split
    · rename_i failed
      -- nothing was taken, so nothing was queued
      have empty : out.2 = [] := List.isEmpty_iff.mp (Bool.and_eq_true_iff.mp failed).1
      have all := List.take_append_drop numEntries run.cq.queued
      rw [← takes, empty, List.nil_append] at all
      rw [all]
      exact contents
    · dsimp only [polled, accepted]
      rw [takes, List.append_assoc, List.take_append_drop]
      exact contents
  · split <;> exact sameLatch
  · split <;> exact sameArmed

theorem Tracks.reqNotify (tracks : Tracks cqe handler run) :
    Tracks cqe handler (run.call qp .reqNotify) := by
  obtain ⟨size, handled, head, room, tail, contents, overflowed, armed⟩ := tracks
  unfold Run.call CompQueue.call CompQueue.reqNotify
  dsimp only
  split
  · exact ⟨size, handled, head, room, tail, contents, overflowed, armed⟩
  · exact ⟨size, handled, head, room, tail, contents, overflowed, rfl⟩

theorem Tracks.calls (tracks : Tracks cqe handler run) (calls : List (CqCall Wc)) :
    Tracks cqe handler (calls.foldl (Run.call qp) run) := by
  induction calls generalizing run with
  | nil => exact tracks
  | cons call rest ih =>
      cases call with
      | push wc => exact ih (tracks.push wc)
      | poll numEntries => exact ih (tracks.poll numEntries)
      | reqNotify => exact ih tracks.reqNotify

/-- A queue as `tbv_create_cq` makes it. -/
def created (cqe : Nat) (handler : Bool) (entries : Nat → Wc) : Run Wc Qp where
  cq := { entries, cqe, compHandler := handler }

theorem tracks_created (positive : 1 ≤ cqe) (handler : Bool) (entries : Nat → Wc) :
    Tracks cqe handler (created cqe handler entries : Run Wc Qp) :=
  ⟨rfl, rfl, positive, Nat.zero_le _, (Nat.zero_mod _).symm, rfl, rfl, rfl⟩

/-! ## What the calls return -/

theorem Tracks.push_reply (tracks : Tracks cqe handler run) (wc : Wc) :
    (run.cq.push qp wc).2.ret =
        (if run.cq.queued.length = cqe ∨ refused run.events = true then some .enospc else none) ∧
      ((run.cq.push qp wc).2.ret ≠ none → (run.cq.push qp wc).1.queued = run.cq.queued) ∧
      (run.cq.push qp wc).2.called = (Cq.armed run.events && handler) := by
  have full : run.cq.overflowed = true ∨ run.cq.count = run.cq.cqe ↔
      run.cq.queued.length = cqe ∨ refused run.events = true := by
    rw [tracks.overflowed, run.cq.length_queued, tracks.size, or_comm]
  unfold CompQueue.push
  rw [← tracks.armed, ← tracks.handler]
  simp only [← full]
  split
  · exact ⟨rfl, fun _ => rfl, rfl⟩
  · exact ⟨rfl, fun told => absurd rfl told, rfl⟩

theorem Tracks.poll_reply (tracks : Tracks cqe handler run) {numEntries : Nat}
    (positive : 1 ≤ numEntries) : (run.cq.poll numEntries).2 =
      if run.cq.queued = [] ∧ refused run.events = true then .error .eio
      else .ok (run.cq.queued.take numEntries) := by
  obtain ⟨takes, _, _, _, _, same⟩ :=
    @pollLoop_queued Wc numEntries run.cq (tracks.size ▸ tracks.head)
  have latch : (CompQueue.pollLoop numEntries run.cq).1.overflowed = refused run.events := by
    rw [same]
    exact tracks.overflowed
  have empty : (run.cq.queued.take numEntries).isEmpty = true ↔ run.cq.queued = [] := by
    rw [List.isEmpty_iff, List.take_eq_nil_iff]
    exact or_iff_right (by omega)
  unfold CompQueue.poll
  rw [if_neg (by omega)]
  dsimp only
  simp only [takes, latch, Bool.and_eq_true, empty]

theorem Tracks.reqNotify_reply (tracks : Tracks cqe handler run) : run.cq.reqNotify.2 =
    if refused run.events = true then .error .eio
    else .ok (if run.cq.queued = [] then 0 else 1) := by
  have empty : run.cq.count = 0 ↔ run.cq.queued = [] := by
    rw [← run.cq.length_queued, List.length_eq_zero_iff]
  unfold CompQueue.reqNotify
  simp only [← tracks.overflowed, empty]
  split <;> rfl

/-- In every history the completions polled and those in the queue are the ones accepted, in
order; pushes, polls and arms fail on a full queue or after a refused push only; and the handler is
called by the first push after an arm, and by no other. -/
theorem completion_queue_is_fifo (positive : 1 ≤ cqe) (handler : Bool) (entries : Nat → Wc)
    (qp : Wc → Option Qp) (calls : List (CqCall Wc)) :
    let run := calls.foldl (Run.call qp) (created cqe handler entries)
    polled run.events ++ run.cq.queued = accepted run.events ∧
      (∀ wc, (run.cq.push qp wc).2.ret =
          (if run.cq.queued.length = cqe ∨ refused run.events = true then some .enospc else none) ∧
        ((run.cq.push qp wc).2.ret ≠ none → (run.cq.push qp wc).1.queued = run.cq.queued) ∧
        (run.cq.push qp wc).2.called = (Cq.armed run.events && handler)) ∧
      (∀ numEntries ≥ 1, (run.cq.poll numEntries).2 =
        if run.cq.queued = [] ∧ refused run.events = true then .error .eio
        else .ok (run.cq.queued.take numEntries)) ∧
      run.cq.reqNotify.2 = if refused run.events = true then .error .eio
        else .ok (if run.cq.queued = [] then 0 else 1) := by
  have tracks : Tracks cqe handler (calls.foldl (Run.call qp) (created cqe handler entries)) :=
    (tracks_created positive handler entries).calls calls
  exact ⟨tracks.contents, tracks.push_reply, fun _ => tracks.poll_reply, tracks.reqNotify_reply⟩

/-- A queue of one, armed, with a second push before the first is polled. -/
theorem completion_queue_is_fifo_overflow :
    let run := [CqCall.reqNotify, .push 7, .push 8, .poll 4, .poll 4].foldl
      (Run.call fun _ : Nat => some ()) (created 1 true fun _ => 0)
    polled run.events ++ run.cq.queued = [7] :=
  (completion_queue_is_fifo (Nat.le_refl 1) true (fun _ => 0) (fun _ => some ())
    [.reqNotify, .push 7, .push 8, .poll 4, .poll 4]).1

end

end Tbv.Cq
