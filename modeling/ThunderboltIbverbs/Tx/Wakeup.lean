import ThunderboltIbverbs.Tx.Streams

/-! # No wake-up of the scheduler is lost

One flag keeps every caller but one out of the loop, so whatever ends a wait is either seen
by the loop's last section or followed by a call that starts it again. -/
set_option autoImplicit false
namespace Tbv.Tx

open Threads Trans

/-- Inside the loop of `tbv_path_schedule_tx`. -/
def inLoop : Frame → Bool
  | .iterate | .attach _ | .ringTx _ => true
  | _ => false

/-- In the loop, about to call it, or at the start of a ring callback. -/
def wakes : Frame → Bool
  | .schedule | .iterate | .attach _ | .ringTx _ | .callback _ _ => true
  | _ => false

/-- The rest of a ring callback: its call of `tbv_path_schedule_tx` is still to come. -/
def retires : Frame → Bool
  | .inflightDec | .finishRawStream _ | .completed _ _ => true
  | _ => false

/-- No thread is in `tbv_path_schedule_tx` or between an event and its call. -/
def Quiet (st : St) : Prop := ∀ frame, st.Has frame → wakes frame = false ∧ retires frame = false

/-- What the next packet waits for.  While a raw stream is open only its next page is taken:
everything else waits for a packet of the stream that is with the ring.  The other waits end
with a completion, or with credits. -/
inductive Blocked (p : Path) : Prop
  | stream (none : p.choose = none) (active : p.rawStream.active = true) {desc : Desc}
      (inflight : desc ∈ p.ring) (counted : desc.pkt.rawStreamCounted = true)
      (owned : desc.pkt.ownerCtx = p.rawStream.owner)
  | gate {fromControlQueue : Bool} {pkt : TxPacket} {gate : Gate}
      (next : p.choose = some (fromControlQueue, pkt))
      (closed : p.gate fromControlQueue pkt = some gate) (frames : gate ≠ .credits)
      (inflight : 0 < p.txInflight) (pending : p.ring ≠ [])
  | credits {fromControlQueue : Bool} {pkt : TxPacket}
      (next : p.choose = some (fromControlQueue, pkt))
      (closed : p.gate fromControlQueue pkt = some .credits)

/-- Nothing to do, nothing admitted, or a wait that ends. -/
def Settled (p : Path) : Prop :=
  (p.txControlQueue = [] ∧ p.txDataQueue = []) ∨ p.txAdmits = false ∨ Blocked p

/-! ## Where the loop stops -/

/-- What the loop's last section finds. -/
def Stops (p : Path) : Prop :=
  p.txAdmits = false ∨ (p.txControlQueue = [] ∧ p.txDataQueue = []) ∨ p.choose = none ∨
    ∃ fromControlQueue pkt gate, p.choose = some (fromControlQueue, pkt) ∧
      p.gate fromControlQueue pkt = some gate

theorem execIterate_stops {p p' : Path} (ran : execIterate p = some (p', [])) : Stops p := by
  unfold execIterate at ran
  split at ran
  · rename_i idle
    simp only [Bool.or_eq_true, Bool.not_eq_true', Bool.and_eq_true, List.isEmpty_iff] at idle
    rcases idle with closed | empty
    · exact .inl closed
    · exact .inr (.inl empty)
  · split at ran
    · rename_i none
      exact .inr (.inr (.inl none))
    · rename_i fromControlQueue pkt chosen
      split at ran
      · rename_i gate closed
        exact .inr (.inr (.inr ⟨fromControlQueue, pkt, gate, chosen, closed⟩))
      · cases ran

/-- With no stream open the head of a queue is taken. -/
theorem choose_none {p : Path} (none : p.choose = none) :
    p.rawStream.active = true ∨ (p.txControlQueue = [] ∧ p.txDataQueue = []) := by
  unfold Path.choose at none
  split at none
  · rename_i active
    exact .inl active
  · split at none
    · cases none
    · cases none
    · rename_i control data
      exact .inr ⟨control, data⟩

theorem txControlFrameReserve_lt (p : Path) : p.txControlFrameReserve < p.txFrameCount := by
  have pos : 0 < p.txFrameCount := p.cfg.pos
  unfold Path.txControlFrameReserve
  split
  · exact pos
  · omega

section Rest
variable {st : St}

/-- With nobody at work, everything in flight is with the ring. -/
theorem Books.inflight_eq (books : Books st) (quiet : Quiet st)
    (steady : ∀ frame, st.Has frame → steadyFrame frame = true) :
    st.shared.txInflight = st.shared.ring.length := by
  have balance : st.shared.txInflight = st.shared.ring.length + st.total inflightWeight :=
    books.inflight
  have none : st.total inflightWeight = 0 := by
    refine State.total_eq_zero.mpr fun frame has => ?_
    have idle := quiet frame has
    have plain := steady frame has
    cases frame <;> simp_all [wakes, retires, inflightWeight, steadyFrame]
  omega

theorem Books.ring_of_no_free (books : Books st) (quiet : Quiet st)
    (steady : ∀ frame, st.Has frame → steadyFrame frame = true)
    (none : st.shared.txFree = []) : st.shared.ring ≠ [] := by
  intro empty
  have balance : (if 0 < st.shared.txFrameCount then 1 else 0) =
      stagingOf 0 st.shared + st.total (stagingWeight 0) := books.staging 0
  have light : st.total (stagingWeight 0) = 0 := by
    refine State.total_eq_zero.mpr fun frame has => ?_
    have idle := quiet frame has
    have plain := steady frame has
    cases frame <;> simp_all [wakes, retires, stagingWeight, steadyFrame]
  have pos : 0 < st.shared.txFrameCount := st.shared.cfg.pos
  simp only [pos, if_true, light, stagingOf, none, empty] at balance
  simp at balance

theorem flying_ring (quiet : Quiet st)
    (steady : ∀ frame, st.Has frame → steadyFrame frame = true) {pkt : TxPacket}
    (flying : Flying st pkt) : ∃ desc ∈ st.shared.ring, desc.pkt = pkt := by
  rcases flying with among | ⟨frame, has, is⟩
  · exact among
  · have idle := quiet frame has
    have plain := steady frame has
    cases frame <;> simp_all [wakes, retires, flyingOf, steadyFrame]

theorem Streams.counted_on_ring (streams : Streams st) (quiet : Quiet st)
    (some_ : st.shared.rawStream.inflight ≠ 0) :
    ∃ desc ∈ st.shared.ring, desc.pkt.rawStreamCounted = true := by
  have balance : st.shared.rawStream.inflight = countedOf st.shared + st.total countedWeight :=
    streams.balance
  have light : st.total countedWeight = 0 := by
    refine State.total_eq_zero.mpr fun frame has => ?_
    have idle := quiet frame has
    have plain := streams.steady frame has
    cases frame <;> simp_all [wakes, retires, countedWeight, flyingOf, steadyFrame]
  by_contra none
  push Not at none
  have zero : countedOf st.shared = 0 := by
    refine List.sum_eq_zero fun weight among => ?_
    obtain ⟨desc, inside, rfl⟩ := List.mem_map.mp among
    simp [isCounted, none desc inside]
  omega

/-- A stream that takes nothing has a packet with the ring. -/
theorem Streams.blocked (streams : Streams st) (quiet : Quiet st)
    (none : st.shared.choose = none) (active : st.shared.rawStream.active = true) :
    Blocked st.shared := by
  have counted : ∃ desc ∈ st.shared.ring, desc.pkt.rawStreamCounted = true := by
    obtain ⟨cursor, flow, at_⟩ := streams.flow
    cases cursor with
    | none =>
        rcases at_ active with seen | ⟨pkt, flies, counted, -⟩
        · exact streams.counted_on_ring quiet (streams.ending active seen)
        · obtain ⟨desc, among, rfl⟩ := flying_ring quiet streams.steady flies
          exact ⟨desc, among, counted⟩
    | some owner =>
        -- the next page stands at the head of the queue, so it would be taken
        obtain ⟨-, owned, -, -⟩ := at_
        cases queue : st.shared.txDataQueue with
        | nil =>
            rw [queue] at flow
            exact flow.elim
        | cons pkt later =>
            rw [queue] at flow
            obtain ⟨zcopy, plain, ownedPkt, -⟩ := flow
            simp [Path.choose, active, queue, zcopy, plain, ownedPkt, owned] at none
  obtain ⟨desc, among, counted⟩ := counted
  exact .stream none active among counted
    (streams.owned desc.pkt (.inl ⟨desc, among, rfl⟩) counted).2

theorem Books.gate_inflight (books : Books st) (quiet : Quiet st)
    (steady : ∀ frame, st.Has frame → steadyFrame frame = true) {fromControlQueue : Bool}
    {pkt : TxPacket} {gate : Gate} (closed : st.shared.gate fromControlQueue pkt = some gate)
    (frames : gate ≠ .credits) : 0 < st.shared.txInflight ∧ st.shared.ring ≠ [] := by
  have length := books.inflight_eq quiet steady
  have both : 0 < st.shared.txInflight → 0 < st.shared.txInflight ∧ st.shared.ring ≠ [] := by
    intro pos
    refine ⟨pos, fun empty => ?_⟩
    rw [length, empty] at pos
    exact absurd pos (Nat.lt_irrefl 0)
  simp only [Path.gate] at closed
  split at closed
  · rename_i full
    simp only [Bool.and_eq_true, bne_iff_ne, ne_eq, decide_eq_true_eq] at full
    exact both (by omega)
  · split at closed
    · rename_i free
      simp only [Bool.and_eq_true, List.isEmpty_iff] at free
      have ring := books.ring_of_no_free quiet steady free.2
      exact ⟨by rw [length]; exact List.length_pos_iff.mpr ring, ring⟩
    · split at closed
      · rename_i reserve
        simp only [Bool.and_eq_true, decide_eq_true_eq] at reserve
        have below := txControlFrameReserve_lt st.shared
        exact both (by omega)
      · split at closed <;> cases closed
        exact absurd rfl frames

/-- Where the loop stops with nobody else at work, the path is settled. -/
theorem settled_of_stops (books : Books st) (streams : Streams st) (quiet : Quiet st)
    (stops : Stops st.shared) : Settled st.shared := by
  rcases stops with closed | empty | none | ⟨_, _, gate, next, closed⟩
  · exact .inr (.inl closed)
  · exact .inl empty
  · rcases choose_none none with active | empty
    · exact .inr (.inr (streams.blocked quiet none active))
    · exact .inl empty
  · by_cases credits : gate = .credits
    · subst credits
      exact .inr (.inr (.credits next closed))
    · obtain ⟨inflight, pending⟩ := books.gate_inflight quiet streams.steady closed credits
      exact .inr (.inr (.gate next closed credits inflight pending))

end Rest

/-! ## The invariant -/

/-- The rest of a ring callback stands above its call. -/
def Shape : List Frame → Prop
  | [] => True
  | frame :: rest => (retires frame = true → .schedule ∈ rest) ∧ Shape rest

structure Awake (st : St) : Prop where
  shape : ∀ stack ∈ st.threads, Shape stack
  looping : st.shared.txScheduling = true → ∃ frame, st.Has frame ∧ inLoop frame = true
  settled : (∃ frame, st.Has frame ∧ wakes frame = true) ∨ Settled st.shared

theorem wakes_of_inLoop {frame : Frame} (loops : inLoop frame = true) : wakes frame = true := by
  cases frame <;> first | rfl | cases loops

theorem shape_append {first second : List Frame} (one : Shape first) (two : Shape second) :
    Shape (first ++ second) := by
  induction first with
  | nil => exact two
  | cons frame rest ih =>
      exact ⟨fun is => List.mem_append_left _ (one.1 is), ih one.2⟩

theorem shape_plain {stack : List Frame} (plain : ∀ frame ∈ stack, retires frame = false) :
    Shape stack := by
  induction stack with
  | nil => trivial
  | cons frame rest ih =>
      refine ⟨fun is => ?_, ih fun other among => plain other (List.mem_cons_of_mem _ among)⟩
      rw [plain frame (List.mem_cons_self ..)] at is
      cases is

theorem schedule_of_shape {stack : List Frame} {frame : Frame} (shape : Shape stack)
    (among : frame ∈ stack) (is : retires frame = true) : .schedule ∈ stack := by
  induction stack with
  | nil => cases among
  | cons head rest ih =>
      rcases List.mem_cons.mp among with rfl | later
      · exact List.mem_cons_of_mem _ (shape.1 is)
      · exact List.mem_cons_of_mem _ (ih shape.2 later)

theorem exec_shape {p p' : Path} {frame : Frame} {pushed : List Frame}
    (steady : steadyFrame frame = true) (ran : exec p frame 0 = some (p', pushed)) :
    Shape pushed := by
  cases frame with
  | iterate =>
      rcases execIterate_cases ran with ⟨-, rfl⟩ | ⟨_, _, -, -, -, -, rfl⟩
      · trivial
      · exact shape_plain (by simp [retires])
  | callback desc canceled =>
      rcases execCallback_cases ran with ⟨-, -, rfl⟩ | ⟨_, -, -, rfl⟩ <;> simp [Shape, retires]
  | schedule | attach hand | ringTx hand | inflightDec | finishRawStream pkt | release pkt status
  | completed pkt canceled =>
      simp only [exec, execAttach, execRingTx, if_true] at ran
      repeat' split at ran
      all_goals cases ran
      all_goals simp [Shape, retires]
  | _ => cases steady

theorem reacts_shape {p p' : Path} {code : List Frame} (reacts : Reacts p p' code) : Shape code := by
  cases reacts with
  | fail ids fresh each error =>
      refine shape_plain fun frame among => ?_
      obtain ⟨call, -, rfl⟩ := List.mem_map.mp among
      rfl
  | _ => simp [Shape, retires]

theorem Settled.congr {p q : Path} (settled : Settled p)
    (control : q.txControlQueue = p.txControlQueue) (data : q.txDataQueue = p.txDataQueue)
    (admits : q.txAdmits = p.txAdmits) (choose : q.choose = p.choose)
    (gate : ∀ fromControlQueue pkt, q.gate fromControlQueue pkt = p.gate fromControlQueue pkt)
    (raw : q.rawStream = p.rawStream) (ring : q.ring = p.ring)
    (inflight : q.txInflight = p.txInflight) : Settled q := by
  rcases settled with empty | closed | blocked
  · exact .inl ⟨control ▸ empty.1, data ▸ empty.2⟩
  · exact .inr (.inl (admits ▸ closed))
  · refine .inr (.inr ?_)
    cases blocked with
    | stream none active among counted owned =>
        exact .stream (choose ▸ none) (raw ▸ active) (ring ▸ among) counted (raw ▸ owned)
    | gate next closed frames some_ pending =>
        exact .gate (choose ▸ next) ((gate _ _).trans closed) frames (inflight ▸ some_)
          (ring ▸ pending)
    | credits next closed => exact .credits (choose ▸ next) ((gate _ _).trans closed)

section Step
variable {st st' : St} {label : Lbl}

theorem Awake.quiet (shape : ∀ stack ∈ st.threads, Shape stack)
    (none : ∀ frame, st.Has frame → wakes frame = false) : Quiet st := by
  intro frame has
  refine ⟨none frame has, ?_⟩
  by_contra is
  obtain ⟨stack, among, inside⟩ := has
  have follows := schedule_of_shape (shape stack among) inside (by simpa using is)
  cases none .schedule ⟨stack, among, follows⟩

theorem Awake.event (awake : Awake st) {p : Path} {code : List Frame}
    (reacts : Reacts st.shared p code) (steady : ∀ frame ∈ code, steadyFrame frame = true) :
    Awake ⟨p, st.threads ++ [code]⟩ := by
  have later : ∀ {frame}, st.Has frame → State.Has ⟨p, st.threads ++ [code]⟩ frame := by
    rintro frame ⟨stack, among, inside⟩
    exact ⟨stack, List.mem_append_left _ among, inside⟩
  have flag : p.txScheduling = st.shared.txScheduling := by cases reacts <;> rfl
  refine ⟨?_, ?_, ?_⟩
  · intro stack among
    rcases List.mem_append.mp among with old | new
    · exact awake.shape stack old
    · cases List.mem_singleton.mp new
      exact reacts_shape reacts
  · intro scheduling
    obtain ⟨frame, has, loops⟩ := awake.looping (flag ▸ scheduling)
    exact ⟨frame, later has, loops⟩
  · have woken : ∀ frame ∈ code, wakes frame = true →
        (∃ frame, State.Has ⟨p, st.threads ++ [code]⟩ frame ∧ wakes frame = true) ∨ Settled p :=
      fun frame among is => .inl ⟨frame, ⟨code, by simp, among⟩, is⟩
    have same : (Settled st.shared → Settled p) →
        (∃ frame, State.Has ⟨p, st.threads ++ [code]⟩ frame ∧ wakes frame = true) ∨ Settled p := by
      intro kept
      rcases awake.settled with ⟨frame, has, is⟩ | settled
      · exact .inl ⟨frame, later has, is⟩
      · exact .inr (kept settled)
    cases reacts with
    | sendControl | sendData | kick | credits | openTx =>
        exact woken .schedule (List.mem_singleton_self _) rfl
    | retire => exact woken _ (List.mem_singleton_self _) rfl
    | refuse | fail | reserve | ringRuns =>
        exact same fun settled => settled.congr rfl rfl rfl rfl (fun _ _ => rfl) rfl rfl rfl
    | closeTx => exact same fun _ => .inr (.inl (by simp [Path.txAdmits]))
    | cancel m => cases steady _ (List.mem_singleton_self _)
    | cancelQueued => cases steady _ (List.mem_singleton_self _)
    | destroy => cases steady .ringStop (by simp)

section Run
variable {thread : Nat} {frame : Frame} {rest pushed : List Frame} {p : Path}

theorem shape_run (awake : Awake st) (found : st.threads[thread]? = some (frame :: rest))
    (shape : Shape pushed) : ∀ stack ∈ st.threads.set thread (pushed ++ rest), Shape stack := by
  intro stack among
  rcases List.mem_or_eq_of_mem_set among with old | rfl
  · exact awake.shape stack old
  · exact shape_append shape (awake.shape _ (List.mem_of_getElem? found)).2

/-- A frame of the loop that does not leave it keeps the flag justified. -/
theorem looping_run (awake : Awake st) (found : st.threads[thread]? = some (frame :: rest))
    (flag : p.txScheduling = st.shared.txScheduling)
    (loops : inLoop frame = true → ∃ other ∈ pushed, inLoop other = true) :
    p.txScheduling = true →
      ∃ other, State.Has ⟨p, st.threads.set thread (pushed ++ rest)⟩ other ∧
        inLoop other = true := by
  intro scheduling
  obtain ⟨other, has, is⟩ := awake.looping (flag ▸ scheduling)
  rcases State.has_after_run found has with rfl | still
  · obtain ⟨next, new, loops⟩ := loops is
    exact ⟨next, State.has_of_pushed found new, loops⟩
  · exact ⟨other, still, is⟩

theorem Awake.run_woken (awake : Awake st) (found : st.threads[thread]? = some (frame :: rest))
    (shape : Shape pushed) (flag : p.txScheduling = st.shared.txScheduling)
    (loops : inLoop frame = true → ∃ other ∈ pushed, inLoop other = true)
    (woken : ∃ other ∈ pushed ++ rest, wakes other = true) :
    Awake ⟨p, st.threads.set thread (pushed ++ rest)⟩ := by
  refine ⟨shape_run awake found shape, looping_run awake found flag loops, .inl ?_⟩
  obtain ⟨other, among, is⟩ := woken
  have inside : thread < st.threads.length := (List.getElem?_eq_some_iff.mp found).1
  exact ⟨other, ⟨_, List.mem_of_getElem? (List.getElem?_set_self inside), among⟩, is⟩

/-- The loop stops: nobody is left at work, or somebody wakes it again. -/
theorem Awake.stops (awake : Awake st) (found : st.threads[thread]? = some (.iterate :: rest))
    (stops : Stops st.shared) (books : Books ⟨st.shared.stop, st.threads.set thread ([] ++ rest)⟩)
    (streams : Streams ⟨st.shared.stop, st.threads.set thread ([] ++ rest)⟩) :
    Awake ⟨st.shared.stop, st.threads.set thread ([] ++ rest)⟩ := by
  have shape := @shape_run _ _ _ _ [] awake found trivial
  refine ⟨shape, by rintro ⟨⟩, ?_⟩
  by_cases woken : ∃ frame, State.Has ⟨st.shared.stop, st.threads.set thread ([] ++ rest)⟩ frame ∧
      wakes frame = true
  · exact .inl woken
  · push Not at woken
    refine .inr (settled_of_stops books streams (Awake.quiet shape fun frame has => ?_) stops)
    simpa using woken frame has

theorem Awake.run (awake : Awake st) (found : st.threads[thread]? = some (frame :: rest))
    (steady : steadyFrame frame = true) (ran : exec st.shared frame 0 = some (p, pushed))
    (books : Books ⟨p, st.threads.set thread (pushed ++ rest)⟩)
    (streams : Streams ⟨p, st.threads.set thread (pushed ++ rest)⟩) :
    Awake ⟨p, st.threads.set thread (pushed ++ rest)⟩ := by
  have shape := exec_shape steady ran
  have below := (awake.shape _ (List.mem_of_getElem? found)).1
  cases frame with
  | schedule =>
      simp only [exec] at ran
      split at ran <;> cases ran
      · rename_i scheduling
        obtain ⟨other, has, loops⟩ := awake.looping scheduling
        -- the thread in the loop is another one, and it stays there
        refine ⟨shape_run awake found shape, looping_run awake found rfl (by rintro ⟨⟩), .inl ?_⟩
        rcases State.has_after_run found has with rfl | still
        · cases loops
        · exact ⟨other, still, wakes_of_inLoop loops⟩
      · have here : State.Has ⟨{ st.shared with txScheduling := true },
            st.threads.set thread ([.iterate] ++ rest)⟩ Frame.iterate :=
          State.has_of_pushed found (List.mem_singleton_self Frame.iterate)
        exact ⟨shape_run awake found shape, fun _ => ⟨_, here, rfl⟩, .inl ⟨_, here, rfl⟩⟩
  | iterate =>
      rcases execIterate_cases ran with ⟨rfl, rfl⟩ | ⟨_, _, -, -, -, rfl, rfl⟩
      · exact awake.stops found (execIterate_stops ran) books streams
      · exact awake.run_woken found shape rfl (fun _ => ⟨_, List.mem_singleton_self _, rfl⟩)
          ⟨_, List.mem_cons_self .., rfl⟩
  | attach hand =>
      simp only [exec, execAttach] at ran
      split at ran <;> cases ran <;> exact awake.run_woken found shape rfl
        (fun _ => ⟨_, List.mem_singleton_self _, rfl⟩) ⟨_, List.mem_cons_self .., rfl⟩
  | ringTx hand =>
      simp only [exec, execRingTx, if_true] at ran
      split at ran <;> cases ran
      exact awake.run_woken found shape rfl (fun _ => ⟨_, List.mem_singleton_self _, rfl⟩)
        ⟨_, List.mem_cons_self .., rfl⟩
  | callback desc canceled =>
      have flag : p.txScheduling = st.shared.txScheduling := by
        rcases execCallback_cases ran with ⟨-, rfl, -⟩ | ⟨_, -, rfl, -⟩ <;>
          simp only [Path.freeDesc, Path.noteRetired] <;> split <;> rfl
      have calls : Frame.schedule ∈ pushed := by
        rcases execCallback_cases ran with ⟨-, -, rfl⟩ | ⟨_, -, -, rfl⟩ <;> simp
      exact awake.run_woken found shape flag (by rintro ⟨⟩) ⟨_, List.mem_append_left _ calls, rfl⟩
  | inflightDec | finishRawStream pkt | completed pkt canceled =>
      cases ran
      exact awake.run_woken found shape rfl (by rintro ⟨⟩)
        ⟨_, List.mem_append_right _ (below rfl), rfl⟩
  | release pkt status =>
      cases ran
      refine ⟨shape_run awake found shape, looping_run awake found rfl (by rintro ⟨⟩), ?_⟩
      rcases awake.settled with ⟨other, has, is⟩ | settled
      · rcases State.has_after_run found has with rfl | still
        · cases is
        · exact .inl ⟨other, still, is⟩
      · exact .inr (settled.congr rfl rfl rfl rfl (fun _ _ => rfl) rfl rfl rfl)
  | _ => cases steady

end Run

theorem Awake.step (awake : Awake st) (streams : Streams st) (steady : Steady st label)
    (stepped : step st label = some st') (books' : Books st') (streams' : Streams st') :
    Awake st' := by
  cases label with
  | event event =>
      obtain ⟨p, code, reacted, rfl⟩ := step_event stepped
      exact awake.event (react_cases reacted) (react_steadyFrame steady reacted)
  | run thread ret =>
      obtain ⟨frame, rest, p, pushed, found, executed, rfl⟩ := step_run stepped
      cases steady
      exact awake.run found (streams.steady frame (State.has_of_top found)) executed books' streams'

end Step

theorem awake_start (cfg : Config) : Awake (start cfg) where
  shape := fun stack among => absurd among List.not_mem_nil
  looping := by nofun
  settled := .inr (.inl ⟨rfl, rfl⟩)

/-- In every state of a steady run with nobody in `tbv_path_schedule_tx` or on the way to it,
both queues are empty, or admission is closed, or the next packet waits for a completion that
is pending or for credits. -/
theorem no_lost_wakeup (cfg : Config) (st : St) (reached : Reaches step Steady (start cfg) st)
    (quiet : Quiet st) : Settled st.shared := by
  have all : Books st ∧ Streams st ∧ Awake st := by
    refine @Reaches.invariant _ _ _ _ _ (fun st => Books st ∧ Streams st ∧ Awake st)
      ⟨books_start cfg, streams_start cfg, awake_start cfg⟩ ?_ _ reached
    rintro state next label ⟨books, streams, awake⟩ steady stepped
    have books' := books.step stepped
    have streams' := streams.step books.table steady stepped
    exact ⟨books', streams', awake.step streams steady stepped books' streams'⟩
  rcases all.2.2.settled with ⟨frame, has, is⟩ | settled
  · rw [(quiet frame has).1] at is
    cases is
  · exact settled

def twoSends : List Lbl :=
  [.event (.sendData (some 1) (some 1) false), .run 0 0, .run 0 0, .run 0 0, .run 0 0, .run 0 0,
    .event (.sendData (some 1) (some 2) false), .run 1 0, .run 1 0]

/-- The second one waits for the first one's completion. -/
theorem no_lost_wakeup_twoSends : ∃ st, Reaches step Steady (start ⟨1, 1, by decide⟩) st ∧
    Quiet st ∧ st.shared.txDataQueue ≠ [] ∧ st.shared.txAdmits = true ∧ Settled st.shared := by
  obtain ⟨st, reached, is⟩ := @exists_reaches_of_guarded _ _ step Steady _ twoSends
    (start ⟨1, 1, by decide⟩)
    (fun st => st.threads.all (fun stack => stack.all fun frame => !wakes frame && !retires frame) &&
      (!st.shared.txDataQueue.isEmpty && st.shared.txAdmits)) (by decide +kernel)
  simp only [Bool.and_eq_true, List.all_eq_true, Bool.not_eq_true', List.isEmpty_eq_false_iff] at is
  have quiet : Quiet st := by
    rintro frame ⟨stack, among, inside⟩
    exact is.1 stack among frame inside
  exact ⟨st, reached, quiet, is.2.1, is.2.2, no_lost_wakeup _ st reached quiet⟩

end Tbv.Tx
