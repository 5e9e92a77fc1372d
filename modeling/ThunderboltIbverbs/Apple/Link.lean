import ThunderboltIbverbs.Apple.Completions
import ThunderboltIbverbs.Apple.Stream

/-! # SENDs over an Apple link

The send queue of one QP, the queue of its path, a ring that keeps its frames and their order, and
the receive side of the peer's QP, every lock section of either side a step.  A frame is handed to
the receive handler when the one before it is through: the receive completions of a path have one
source. -/
set_option autoImplicit false
namespace Tbv.AppleRx

open Sq (Handed Serial Wired Follows pieces)

/-- `bytes s` is the message of send `s`.  `handed` are the frames that were handed to the path and
not canceled, with the SOF mode each was sent in; the ring has the first `ringed` of them, the
queue of the path the others, and the peer was given the first `delivered`. -/
structure Link where
  tx : Sq.St
  rx : State
  entered : List Nat := []
  handed : List (Handed × Nat) := []
  ringed : Nat := 0
  delivered : Nat := 0

inductive LinkLabel where
  | tx (label : Sq.Lbl) (mode : Nat)
  | ring
  | cancel (s : Nat)
  | deliver
  | rx (label : Label)

def fromPeer : Label → Bool
  | .event (.rxFrame _) => true
  | _ => false

def linkStep (cfg : Config) (bytes : Nat → List UInt8) (link : Link) : LinkLabel → Option Link
  | .tx label mode => (Sq.step link.tx label).map fun tx =>
      { link with
        tx
        entered := link.entered ++ (Sq.enteredBy link.tx label).toList
        handed := link.handed ++ (Sq.handedBy link.tx label).toList.map fun frame => (frame, mode) }
  | .ring =>
      if link.handed.length ≤ link.ringed then none else some { link with ringed := link.ringed + 1 }
  -- `tbv_cancel_send_ctx_packets`, of a send that is off `pending_sends`
  | .cancel s =>
      if (link.tx.shared.sends s).pending then none
      else
        some { link with handed := link.handed.take link.ringed ++
          (link.handed.drop link.ringed).filter fun one => one.1.send ≠ s }
  | .deliver =>
      if link.ringed ≤ link.delivered then none
      else (link.handed[link.delivered]?).bind fun one =>
        (step cfg link.rx (.event (.rxFrame (txFrame bytes one.2 one.1)))).map fun rx =>
          { link with rx, delivered := link.delivered + 1 }
  | .rx label =>
      if fromPeer label then none else (step cfg link.rx label).map fun rx => { link with rx }

def Call.handles : Call → Bool
  | .handle _ => true
  | _ => false

/-- The SQ worker does not run beside itself and a send has the length of its message; the worker
is not between two frames of a send that is canceled; the next frame is delivered when none is in
hand; posts, allocations and deliveries of the peer succeed. -/
def LinkOk (cfg : Config) (bytes : Nat → List UInt8) (link : Link) : LinkLabel → Prop
  | .tx label _ => Serial (fun s => (bytes s).length) link.tx label
  | .ring => True
  | .cancel s => ∀ code ∈ link.tx.threads, ∀ frame ∈ code, frame.between s = false
  | .deliver => ∀ code ∈ link.rx.threads, ∀ call ∈ code, Call.handles call = false
  | .rx label => granted cfg link.rx label = true ∧ served link.rx label = true

instance (cfg : Config) (bytes : Nat → List UInt8) (link : Link) :
    (label : LinkLabel) → Decidable (LinkOk cfg bytes link label)
  | .tx label _ => inferInstanceAs (Decidable (Serial (fun s => (bytes s).length) link.tx label))
  | .ring => instDecidableTrue
  | .cancel s => inferInstanceAs (Decidable (∀ code ∈ link.tx.threads, ∀ frame ∈ code,
      frame.between s = false))
  | .deliver => inferInstanceAs (Decidable (∀ code ∈ link.rx.threads, ∀ call ∈ code,
      Call.handles call = false))
  | .rx label => inferInstanceAs (Decidable
      (granted cfg link.rx label = true ∧ served link.rx label = true))

/-- The frame that a section of the receive side handles. -/
def Call.frames : Call → List AppleFrame
  | .handle frame => [frame]
  | _ => []

variable {cfg : Config} {bytes : Nat → List UInt8}

theorem Qp.copyFrame_arrived (q : Qp) (index : Nat) (frame : AppleFrame) (allocs : Bool) :
    (q.copyFrame cfg index frame allocs).arrived = q.arrived := by
  unfold Qp.copyFrame
  split <;> rfl

theorem Qp.finish_arrived (q : Qp) : (q.finish cfg).arrived = q.arrived := by
  unfold Qp.finish
  split <;> rfl

theorem Qp.pendingActive_arrived {q next : Qp} {index : Nat}
    (found : q.pendingActive cfg = some (index, next)) : next.arrived = q.arrived := by
  unfold Qp.pendingActive at found
  repeat' split at found
  all_goals cases found
  all_goals rfl

/-- Every frame that is handled is put down, whatever becomes of it. -/
theorem Qp.handle_arrived (q : Qp) (frame : AppleFrame) (choice : Choice) :
    (q.handle cfg frame choice).1.arrived = (q.arrive cfg frame).arrived := by
  unfold Qp.handle
  dsimp only
  split
  · split <;> rfl
  · split
    · rfl
    · split
      · split <;> rfl
      · rename_i index next found
        have met := Qp.pendingActive_arrived found
        split
        · rw [Qp.finish_arrived, Qp.copyFrame_arrived, met]
        · rw [Qp.copyFrame_arrived, met]

theorem Qp.deliver_arrived (q : Qp) (wqe : RecvWqe) (choice : Choice) :
    (q.deliver cfg wqe choice).arrived = q.arrived := by
  unfold Qp.deliver Qp.pushWc
  dsimp only
  split <;> rfl

theorem exec_handles {q q' : Qp} {call : Call} {choice : Choice} {pushed : List Call}
    (ran : exec cfg q call choice = some (q', pushed)) :
    pushed.filter Call.handles = [] ∧
      q'.arrived.map Arrival.frame = q.arrived.map Arrival.frame ++ call.frames := by
  cases call with
  | handle frame =>
      simp only [exec, Option.some.injEq] at ran
      have result : (q.handle cfg frame choice).1 = q' := congrArg Prod.fst ran
      have code : (q.handle cfg frame choice).2 = pushed := congrArg Prod.snd ran
      rw [← result, ← code]
      constructor
      · rcases @Qp.handle_queues cfg q frame choice with ⟨-, drains⟩ | ⟨-, nothing⟩
        · rw [drains]
          rfl
        · rw [nothing]
          rfl
      · rw [Qp.handle_arrived, Qp.arrive, List.map_append]
        rfl
  | postLoop wrs posted =>
      cases wrs with
      | nil =>
          cases ran
          exact ⟨by cases posted <;> rfl, (List.append_nil _).symm⟩
      | cons wr more =>
          simp only [exec] at ran
          split at ran <;> cases ran <;> exact ⟨rfl, (List.append_nil _).symm⟩
  | drain =>
      simp only [exec] at ran
      split at ran
      · cases ran
        exact ⟨rfl, (List.append_nil _).symm⟩
      · split at ran
        · cases ran
          exact ⟨rfl, (List.append_nil _).symm⟩
        · rename_i wqe next popped
          cases ran
          refine ⟨rfl, ?_⟩
          obtain ⟨later, -, rfl⟩ := Qp.popRecv_some popped
          rw [Qp.deliver_arrived]
          exact (List.append_nil _).symm
  | lockRx =>
      simp only [exec] at ran
      split at ran <;> cases ran
      exact ⟨rfl, (List.append_nil _).symm⟩
  | unlockRx =>
      cases ran
      exact ⟨rfl, (List.append_nil _).symm⟩

/-- What every run of a link keeps: both sides keep what they keep alone, and what was delivered
is what arrived, or one frame more that is in hand. -/
structure Linked (cfg : Config) (bytes : Nat → List UInt8) (link : Link) : Prop where
  wired : Wired (fun s => (bytes s).length) link.entered (link.handed.map Prod.fst) link.tx
  inv : Inv cfg link.rx
  ringed : link.ringed ≤ link.handed.length
  delivered : link.delivered ≤ link.ringed
  flow : ∃ inHand : List Call, link.rx.Solo Call.handles inHand ∧ inHand.length ≤ 1 ∧
    link.rx.shared.arrived.map Arrival.frame ++ inHand.flatMap Call.frames =
      (link.handed.take link.delivered).map fun one => txFrame bytes one.2 one.1

section Steps
variable {link : Link}

/-- Every frame on the wire is a frame of its message. -/
theorem Linked.inside (linked : Linked cfg bytes link) :
    ∀ one ∈ link.handed, one.1.index < pieces (bytes one.1.send).length := by
  obtain ⟨-, -, due, -, -, trace, -⟩ := linked.wired.worker
  have each : ∀ (handed : List Handed) (start : Option (Nat × Nat)),
      Trans.Trace (Follows fun s => pieces (bytes s).length) start handed due →
      ∀ frame ∈ handed, frame.index < pieces (bytes frame.send).length := by
    intro handed
    induction handed with
    | nil =>
        intro start _ frame among
        cases among
    | cons first rest ih =>
        intro start trace frame among
        obtain ⟨middle, ⟨-, inside, -⟩, later⟩ := Trans.trace_cons_iff.mp trace
        rcases List.mem_cons.mp among with rfl | among
        · exact inside
        · exact ih middle later frame among
  exact fun one among => each _ _ trace _ (List.mem_map_of_mem among)

theorem Linked.trace (linked : Linked cfg bytes link) (count : Nat) :
    ∃ due, Trans.Trace (Follows fun s => pieces (bytes s).length) none
      ((link.handed.take count).map Prod.fst) due := by
  obtain ⟨-, -, due, -, -, trace, -⟩ := linked.wired.worker
  rw [← List.take_append_drop count link.handed, List.map_append] at trace
  obtain ⟨middle, first, -⟩ := Trans.trace_append_iff.mp trace
  exact ⟨middle, first⟩

/-- A message boundary of the receiver is one of the sender. -/
theorem due_at_boundary {arrived : List Arrival} {sent : List (Handed × Nat)}
    {due : Option (Nat × Nat)}
    (trace : Trans.Trace (Follows fun s => pieces (bytes s).length) none (sent.map Prod.fst) due)
    (frames : arrived.map Arrival.frame = sent.map fun one => txFrame bytes one.2 one.1)
    (boundary : (split arrived).2 = []) : due = none := by
  rcases List.eq_nil_or_concat sent with rfl | ⟨front, last, rfl⟩
  · exact (Trans.trace_nil_iff.mp trace).symm
  · rw [List.concat_eq_append] at trace frames
    rw [List.map_append, List.map_singleton] at trace
    obtain ⟨before, -, -, inside, next⟩ := due_of_snoc _ trace
    rcases List.eq_nil_or_concat arrived with rfl | ⟨earlier, arrival, rfl⟩
    · simp at frames
    rw [List.concat_eq_append] at frames boundary
    rw [List.map_append, List.map_append] at frames
    obtain ⟨-, this⟩ := List.append_inj' frames rfl
    have here : arrival.frame = txFrame bytes last.2 last.1 := by simpa using this
    rw [split_snoc, cut] at boundary
    split at boundary
    · rename_i ends
      rw [here, txFrame_eof _ inside] at ends
      rw [next, if_pos ends]
    · simp at boundary

/-- A frame that is met at a message boundary opens a message. -/
theorem Linked.opens (linked : Linked cfg bytes link) {thread : Nat} {choice : Choice} :
    AppleRx.opens link.rx (.run thread choice) = true := by
  unfold AppleRx.opens
  dsimp only
  split
  · rename_i frame top
    rw [Bool.or_eq_true, Bool.not_eq_true', List.isEmpty_eq_false_iff, decide_eq_true_eq]
    by_cases boundary : (split link.rx.shared.arrived).2 = []
    · refine .inr ?_
      obtain ⟨stack, found, head⟩ := Option.bind_eq_some_iff.mp top
      obtain ⟨rest, rfl⟩ := List.head?_eq_some_iff.mp head
      obtain ⟨inHand, solo, single, flow⟩ := linked.flow
      obtain ⟨tail, rfl, -⟩ := solo.run_mine found rfl
      obtain rfl : tail = [] := List.length_eq_zero_iff.mp (by simpa using single)
      obtain ⟨due, trace⟩ := linked.trace link.delivered
      have inside := linked.inside
      rcases List.eq_nil_or_concat (link.handed.take link.delivered) with none | ⟨front, last, is⟩
      · rw [none] at flow
        simp [Call.frames] at flow
      rw [is, List.concat_eq_append] at flow trace
      rw [List.map_append, List.map_singleton] at flow trace
      obtain ⟨earlier, this⟩ := List.append_inj' flow rfl
      have here : frame = txFrame bytes last.2 last.1 := by simpa [Call.frames] using this
      obtain ⟨before, trace, begins, inside, -⟩ := due_of_snoc _ trace
      have first := begins.resolve_right fun follows => by
        rw [due_at_boundary trace earlier boundary] at follows
        cases follows
      rw [here]
      exact txFrame_opens _ inside first
    · exact .inl boundary
  · rfl

theorem Linked.tx (linked : Linked cfg bytes link) {label : Sq.Lbl} {tx : Sq.St} (mode : Nat)
    (serial : Serial (fun s => (bytes s).length) link.tx label)
    (taken : Sq.step link.tx label = some tx) :
    Linked cfg bytes { link with
      tx
      entered := link.entered ++ (Sq.enteredBy link.tx label).toList
      handed := link.handed ++ (Sq.handedBy link.tx label).toList.map fun frame =>
        (frame, mode) } where
  wired := by
    have next := linked.wired.step serial taken
    rw [List.map_append, List.map_map]
    have same : (Prod.fst ∘ fun frame : Handed => (frame, mode)) = id := rfl
    rw [same, List.map_id]
    exact next
  inv := linked.inv
  ringed := by
    rw [List.length_append]
    exact Nat.le_add_right_of_le linked.ringed
  delivered := linked.delivered
  flow := by
    rw [List.take_append_of_le_length (linked.delivered.trans linked.ringed)]
    exact linked.flow

theorem Linked.cancel (linked : Linked cfg bytes link) {s : Nat}
    (apart : ∀ code ∈ link.tx.threads, ∀ frame ∈ code, frame.between s = false) :
    Linked cfg bytes { link with handed := link.handed.take link.ringed ++
      (link.handed.drop link.ringed).filter fun one => one.1.send ≠ s } where
  wired := by
    have wired := linked.wired
    rw [← List.take_append_drop link.ringed link.handed, List.map_append] at wired
    have kept := wired.cancel apart
    rw [List.map_append]
    rwa [List.filter_map] at kept
  inv := linked.inv
  ringed := by
    rw [List.length_append, List.length_take, Nat.min_eq_left linked.ringed]
    exact Nat.le_add_right ..
  delivered := linked.delivered
  flow := by
    have inside : link.delivered ≤ (link.handed.take link.ringed).length := by
      rw [List.length_take, Nat.min_eq_left linked.ringed]
      exact linked.delivered
    dsimp only
    rw [List.take_append_of_le_length inside, List.take_take, Nat.min_eq_left linked.delivered]
    exact linked.flow

theorem Linked.deliver (linked : Linked cfg bytes link) {one : Handed × Nat} {rx : State}
    (below : link.delivered < link.ringed) (next : link.handed[link.delivered]? = some one)
    (free : ∀ code ∈ link.rx.threads, ∀ call ∈ code, Call.handles call = false)
    (taken : step cfg link.rx (.event (.rxFrame (txFrame bytes one.2 one.1))) = some rx) :
    Linked cfg bytes { link with rx, delivered := link.delivered + 1 } := by
  have inside := linked.inside one (List.mem_of_getElem? next)
  have inv := linked.inv.step rfl rfl rfl taken
  obtain ⟨shared, code, reacted, rfl⟩ := Threads.step_event taken
  simp only [react, if_neg (length_txFrame one.2 inside)] at reacted
  cases reacted
  obtain ⟨inHand, solo, -, flow⟩ := linked.flow
  have nothing : inHand = [] := by
    refine List.eq_nil_iff_forall_not_mem.mpr fun call among => ?_
    obtain ⟨⟨code, inside, standing⟩, handles⟩ := solo.has among
    rw [free code inside call standing] at handles
    cases handles
  subst nothing
  have part : [.lockRx, .drain, .handle (txFrame bytes one.2 one.1), .unlockRx].filter
      Call.handles = [.handle (txFrame bytes one.2 one.1)] := rfl
  have begun := @Threads.State.Solo.begin _ _ _ _ solo link.rx.shared
    [.lockRx, .drain, .handle (txFrame bytes one.2 one.1), .unlockRx]
  rw [part] at begun
  refine ⟨linked.wired, inv, linked.ringed, below, _, begun, Nat.le_refl 1, ?_⟩
  rw [List.take_add_one, next, List.map_append, ← flow]
  simp [Call.frames]

theorem Linked.rx (linked : Linked cfg bytes link) {label : Label} {rx : State}
    (local_ : fromPeer label = false) (grants : granted cfg link.rx label = true)
    (serves : served link.rx label = true) (taken : step cfg link.rx label = some rx) :
    Linked cfg bytes { link with rx } := by
  have proper : AppleRx.opens link.rx label = true := by
    cases label with
    | event event => rfl
    | run thread choice => exact linked.opens
  have inv := linked.inv.step grants proper serves taken
  obtain ⟨inHand, solo, single, flow⟩ := linked.flow
  cases label with
  | event event =>
      obtain ⟨shared, code, reacted, rfl⟩ := Threads.step_event taken
      cases event with
      | rxFrame frame => cases local_
      | postRecv wrs =>
          cases reacted
          refine ⟨linked.wired, inv, linked.ringed, linked.delivered, inHand, solo.event ?_, single, flow⟩
          split <;> rfl
  | run thread choice =>
      obtain ⟨call, rest, shared, pushed, found, executed, rfl⟩ := Threads.step_run taken
      obtain ⟨quiet, arrived⟩ := exec_handles executed
      by_cases handles : call.handles = true
      · obtain ⟨tail, rfl, runs⟩ := solo.run_mine found handles
        obtain rfl : tail = [] := List.length_eq_zero_iff.mp (by simpa using single)
        refine ⟨linked.wired, inv, linked.ringed, linked.delivered, _, runs _ _, by simp [quiet], ?_⟩
        rw [quiet, arrived, ← flow]
        simp
      · rw [Bool.not_eq_true] at handles
        refine ⟨linked.wired, inv, linked.ringed, linked.delivered, inHand, solo.run found handles quiet, single,
          ?_⟩
        have none : call.frames = [] := by
          cases call <;> first | rfl | cases handles
        rw [arrived, none, List.append_nil]
        exact flow

theorem Linked.step (linked : Linked cfg bytes link) {next : Link} {label : LinkLabel}
    (ok : LinkOk cfg bytes link label) (taken : linkStep cfg bytes link label = some next) :
    Linked cfg bytes next := by
  cases label with
  | tx label mode =>
      obtain ⟨tx, stepped, rfl⟩ := Option.map_eq_some_iff.mp taken
      exact linked.tx mode ok stepped
  | ring =>
      simp only [linkStep] at taken
      split at taken
      · cases taken
      · rename_i more
        cases taken
        exact ⟨linked.wired, linked.inv, Nat.lt_of_not_le more,
          Nat.le_succ_of_le linked.delivered, linked.flow⟩
  | cancel s =>
      simp only [linkStep] at taken
      split at taken
      · cases taken
      · cases taken
        exact linked.cancel ok
  | deliver =>
      simp only [linkStep] at taken
      split at taken
      · cases taken
      · rename_i more
        obtain ⟨one, found, rest⟩ := Option.bind_eq_some_iff.mp taken
        obtain ⟨rx, stepped, rfl⟩ := Option.map_eq_some_iff.mp rest
        exact linked.deliver (Nat.lt_of_not_le more) found ok stepped
  | rx label =>
      simp only [linkStep] at taken
      split at taken
      · cases taken
      · rename_i local_
        obtain ⟨rx, stepped, rfl⟩ := Option.map_eq_some_iff.mp taken
        exact linked.rx (by simpa using local_) ok.1 ok.2 stepped

/-- What the peer has cut out of the stream. -/
theorem Linked.received (linked : Linked cfg bytes link) :
    ∃ sent : List (Handed × Nat), sent <+: link.handed ∧
      link.rx.shared.arrived.map Arrival.frame = sent.map fun one => txFrame bytes one.2 one.1 := by
  obtain ⟨inHand, -, -, flow⟩ := linked.flow
  refine ⟨(link.handed.take link.delivered).take link.rx.shared.arrived.length, ?_, ?_⟩
  · exact (List.take_prefix _ _).trans (List.take_prefix _ _)
  · rw [List.map_take, ← flow]
    exact (List.take_left' (List.length_map _)).symm

end Steps

/-! ## Runs -/

/-- The messages `[0, 0]`, `[1, 1, 1]` and `[2, 2, 2, 2]`. -/
def short (s : Nat) : List UInt8 := List.replicate (s + 2) s.toUInt8

/-- All three are posted and sent as macOS sends them; the ring has two of them when the QP goes to
ERR and the third is canceled.  Two WQEs are posted, and both frames come in. -/
def shortSends : List LinkLabel :=
  (Sq.toRts ++ [(.event (.postSend 2 true) : Sq.Lbl)] ++ List.replicate 4 (.run 3 0 : Sq.Lbl) ++
    [(.event (.postSend 3 true) : Sq.Lbl)] ++ List.replicate 4 (.run 4 0 : Sq.Lbl) ++
    [(.event (.postSend 4 true) : Sq.Lbl)] ++ List.replicate 4 (.run 5 0 : Sq.Lbl) ++
    [(.event .sqWork : Sq.Lbl)] ++ List.replicate 34 (.run 6 0 : Sq.Lbl)).map (LinkLabel.tx · 2) ++
    [.ring, .ring, .tx (.event (.modify .err none)) 2, .tx (.run 7 0) 2, .tx (.run 7 0) 2,
      .cancel 2] ++
    (call (.postRecv [eightBytes, eightBytes]) 0 6).map .rx ++
    [LinkLabel.deliver] ++ List.replicate 6 (.rx (.run 1 {})) ++
    [LinkLabel.deliver] ++ List.replicate 6 (.rx (.run 2 {}))

end Tbv.AppleRx
