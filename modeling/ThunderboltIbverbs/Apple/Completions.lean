import ThunderboltIbverbs.Apple.Reassembly

/-! # Every run completes as the reference split says -/
set_option autoImplicit false
namespace Tbv.AppleRx

variable {cfg : Config} {q : Qp} {message : List Arrival}

/-- A bound QP at a message boundary with nothing pending. -/
structure Idle (cfg : Config) (q : Qp) : Prop where
  openQp : q.closing = false
  head_lt : q.head < cfg.slotCount
  tail : q.tail = q.head
  count : q.readyCount = 0
  bytes : q.bytes = 0
  active : q.active = none
  keeps : q.discard = false
  slots : ∀ index, (q.pending index).Sound ∧ (q.pending index).Empty
  posted : q.posted = q.recvq
  arrived : q.arrived = []
  completed : q.completed = []

def granted (cfg : Config) (st : State) : Label → Bool
  | .event _ => true
  | .run thread choice =>
      match st.top thread with
      | some (.postLoop (wr :: _) _) => st.shared.accepts cfg wr choice
      | some (.handle _) => choice.allocs
      | _ => true

/-- A frame that opens a message carries SOF or is the whole of it. -/
def opens (st : State) : Label → Bool
  | .event _ => true
  | .run thread _ =>
      match st.top thread with
      | some (.handle frame) =>
          !(split st.shared.arrived).2.isEmpty || decide (frame.sof ≠ 0 ∨ frame.eof = 3)
      | _ => true

/-- A delivery finds room in the CQ and the memory of its WQE. -/
def served (st : State) : Label → Bool
  | .event _ => true
  | .run thread choice =>
      match st.top thread with
      | some .drain => choice.cqRoom && choice.copies
      | _ => true

def Call.Drains : Call → Prop
  | .drain => True
  | .postLoop _ posted => posted = true
  | _ => False

structure Inv (cfg : Config) (st : State) : Prop where
  holds : Reassembles cfg st.shared
  frames : ∀ frame, st.Has (.handle frame) → frame.payload ≠ []
  drains : st.shared.readyCount ≠ 0 → st.shared.recvq ≠ [] → ∃ call, st.Has call ∧ call.Drains

theorem Idle.inv (idle : Idle cfg q) : Inv cfg ⟨q, []⟩ := by
  have nothing : q.due = [] := by simp [Qp.due, idle.arrived, split]
  refine ⟨⟨?_, ?_⟩, ?_, fun ready => absurd idle.count ready⟩
  · exact
      { openQp := idle.openQp
        head_lt := idle.head_lt
        count_le := by simp [idle.count]
        tail_eq := by rw [idle.tail, idle.count, Ring.place_zero idle.head_lt]
        sound := fun index => (idle.slots index).1
        posted := by simp [idle.posted, idle.completed]
        queue := ⟨[], [], by simp [nothing], by simp [idle.completed], by simp [idle.count]⟩
        empty := fun offset _ _ _ => (idle.slots _).2
        bytes := by
          rw [idle.bytes, Ring.total_eq_zero]
          exact fun index _ => (idle.slots index).2.held }
  · have boundary : (split q.arrived).2 = [] := by simp [idle.arrived, split]
    exact boundary ▸ .boundary idle.active idle.keeps
  · rintro frame ⟨code, among, _⟩
    cases among

/-- What the message in progress depends on. -/
theorem Current.congr (current : Current cfg q message) {next : Qp}
    (active : next.active = q.active) (discard : next.discard = q.discard)
    (count : next.readyCount = q.readyCount) (tail : next.tail = q.tail)
    (pending : next.pending = q.pending) : Current cfg next message := by
  cases current with
  | boundary idle keeps => exact .boundary (active.trans idle) (discard.trans keeps)
  | dropping idle drops begun dropped =>
      exact .dropping (active.trans idle) (discard.trans drops) begun dropped
  | gathering gathers begun isKept =>
      refine .gathering ⟨active.trans gathers.active, ?_, ?_, discard.trans gathers.keeps, ?_,
        ?_, ?_⟩ begun isKept
      · rw [tail]
        exact gathers.tail
      · rw [count]
        exact gathers.room
      · rw [pending]
        exact gathers.holds
      · rw [pending]
        exact gathers.inSlot
      · rw [pending]
        exact gathers.notReady

theorem Reassembles.post (holds : Reassembles cfg q) (wqe : RecvWqe) :
    Reassembles cfg { q with recvq := q.recvq ++ [wqe], posted := q.posted ++ [wqe] } := by
  refine ⟨{ holds.table with posted := ?_ }, ?_⟩
  · show q.posted ++ [wqe] = _ ++ (q.recvq ++ [wqe])
    rw [holds.table.posted, List.append_assoc]
  · exact holds.current.congr rfl rfl rfl rfl rfl

theorem Reassembles.setLocked (holds : Reassembles cfg q) (locked : Bool) :
    Reassembles cfg { q with rxLocked := locked } := by
  exact ⟨{ holds.table with }, holds.current.congr rfl rfl rfl rfl rfl⟩

theorem Reassembles.deliver (holds : Reassembles cfg q) {wqe : RecvWqe} {rest : List RecvWqe}
    {choice : Choice} (oldest : q.recvq = wqe :: rest) (ready : q.readyCount ≠ 0)
    (room : choice.cqRoom = true) (copies : choice.copies = true) :
    Reassembles cfg ({ q with recvq := rest }.deliver cfg wqe choice) := by
  have arrived : ({ q with recvq := rest }.deliver cfg wqe choice).arrived = q.arrived := by
    rw [Qp.deliver_eq room copies]
  refine ⟨?_, ?_⟩
  · rw [Qp.due, arrived]
    exact holds.table.deliver oldest ready room copies
  · rw [arrived]
    exact holds.current.deliver holds.table ready room copies

/-- The invariant after a section ran, from what the section did. -/
theorem Inv.run {st : State} (inv : Inv cfg st) {thread : Nat} {call : Call}
    {rest pushed : List Call} {next : Qp} (found : st.threads[thread]? = some (call :: rest))
    (holds : Reassembles cfg next) (frames : ∀ frame, Call.handle frame ∉ pushed)
    (drains : next.readyCount ≠ 0 → next.recvq ≠ [] →
      (∃ other ∈ pushed, other.Drains) ∨
        ¬ call.Drains ∧ st.shared.readyCount ≠ 0 ∧ st.shared.recvq ≠ []) :
    Inv cfg ⟨next, st.threads.set thread (pushed ++ rest)⟩ := by
  refine ⟨holds, fun frame has => ?_, fun ready waits => ?_⟩
  · rcases Threads.State.has_of_run found has with new | old
    · exact absurd new (frames frame)
    · exact inv.frames frame old
  · rcases drains ready waits with ⟨other, among, willDrain⟩ | ⟨notIt, before, waited⟩
    · exact ⟨other, Threads.State.has_of_pushed found among, willDrain⟩
    · obtain ⟨other, has, willDrain⟩ := inv.drains before waited
      rcases Threads.State.has_after_run found has with rfl | still
      · exact absurd willDrain notIt
      · exact ⟨other, still, willDrain⟩

/-! ## What the handler leaves alone -/

def Qp.queues (q : Qp) : List RecvWqe × Nat := (q.recvq, q.readyCount)

theorem Qp.copyFrame_queues (q : Qp) (index : Nat) (frame : AppleFrame) (allocs : Bool) :
    (q.copyFrame cfg index frame allocs).queues = q.queues := by
  rw [Qp.copyFrame]
  split <;> rfl

theorem Qp.pendingActive_queues {index : Nat} {next : Qp}
    (taken : q.pendingActive cfg = some (index, next)) : next.queues = q.queues := by
  simp only [Qp.pendingActive] at taken
  split at taken
  · cases taken
    rfl
  · split at taken
    · cases taken
    · split at taken
      · cases taken
      · cases taken
        rfl

theorem Qp.finish_recvq (q : Qp) : (q.finish cfg).recvq = q.recvq := by
  rw [Qp.finish]
  split <;> rfl

/-- The handler takes no WQE, and drains whenever it makes a slot ready. -/
theorem Qp.handle_queues (q : Qp) (frame : AppleFrame) (choice : Choice) :
    (q.handle cfg frame choice).1.recvq = q.recvq ∧
      (q.handle cfg frame choice).2 = [.drain] ∨
    (q.handle cfg frame choice).1.queues = q.queues ∧ (q.handle cfg frame choice).2 = [] := by
  simp only [Qp.handle]
  split
  · split <;> exact .inr ⟨rfl, rfl⟩
  · split
    · exact .inr ⟨rfl, rfl⟩
    · split
      · split <;> exact .inr ⟨rfl, rfl⟩
      · rename_i index next taken
        have activated : next.queues = (q.arrive cfg frame).queues :=
          Qp.pendingActive_queues taken
        have same : (next.copyFrame cfg index frame choice.allocs).queues = q.queues :=
          (Qp.copyFrame_queues ..).trans activated
        split
        · exact .inl ⟨(Qp.finish_recvq _).trans (congrArg Prod.fst same), rfl⟩
        · exact .inr ⟨same, rfl⟩

theorem Qp.popRecv_none (openQp : q.closing = false) (nothing : q.popRecv = none) :
    q.recvq = [] := by
  simp only [Qp.popRecv] at nothing
  split at nothing
  · assumption
  · simp [openQp] at nothing

theorem Qp.popRecv_some {wqe : RecvWqe} {next : Qp} (popped : q.popRecv = some (wqe, next)) :
    ∃ rest, q.recvq = wqe :: rest ∧ next = { q with recvq := rest } := by
  simp only [Qp.popRecv] at popped
  split at popped
  · cases popped
  · rename_i oldest rest waits
    split at popped
    · cases popped
    · cases popped
      exact ⟨rest, waits, rfl⟩

/-! ## Steps and runs -/

theorem Inv.step {st next : State} {label : Label} (inv : Inv cfg st)
    (grants : granted cfg st label = true) (proper : opens st label = true)
    (serves : served st label = true)
    (taken : step cfg st label = some next) : Inv cfg next := by
  cases label with
  | event event =>
      obtain ⟨shared, code, reacted, rfl⟩ := Threads.step_event taken
      cases event with
      | rxFrame frame =>
          cases Option.some.inj reacted
          refine ⟨inv.holds, fun other has => ?_, fun ready waits => ?_⟩
          · rcases Threads.State.has_of_event has with new | old
            · split at new
              · cases new
              · rename_i valid
                have same : other = frame := by simpa using new
                rw [same]
                intro empty
                exact valid (.inl (by simp [empty]))
            · exact inv.frames other old
          · obtain ⟨call, ⟨stack, among, inside⟩, willDrain⟩ := inv.drains ready waits
            exact ⟨call, ⟨stack, List.mem_append_left _ among, inside⟩, willDrain⟩
      | postRecv wrs =>
          cases Option.some.inj reacted
          refine ⟨inv.holds, fun other has => ?_, fun ready waits => ?_⟩
          · rcases Threads.State.has_of_event has with new | old
            · split at new
              · cases new
              · simp at new
            · exact inv.frames other old
          · obtain ⟨call, ⟨stack, among, inside⟩, willDrain⟩ := inv.drains ready waits
            exact ⟨call, ⟨stack, List.mem_append_left _ among, inside⟩, willDrain⟩
  | run thread choice =>
      obtain ⟨call, rest, shared, pushed, found, executed, rfl⟩ := Threads.step_run taken
      have top := Threads.State.top_of_getElem? found
      simp only [granted, top] at grants
      simp only [opens, top] at proper
      simp only [served, top] at serves
      cases call with
      | postLoop wrs posted =>
          cases wrs with
          | nil =>
              cases Option.some.inj executed
              refine inv.run found inv.holds ?_ fun ready waits => ?_
              · cases posted <;> simp
              · cases posted with
                | true => exact .inl ⟨.drain, by simp, trivial⟩
                | false => exact .inr ⟨by simp [Call.Drains], ready, waits⟩
          | cons wr more =>
              have accepted : st.shared.accepts cfg wr choice = true := grants
              simp only [exec, accepted, if_true] at executed
              cases Option.some.inj executed
              exact inv.run found (inv.holds.post _) (by simp)
                fun _ _ => .inl ⟨_, List.mem_singleton_self _, rfl⟩
      | lockRx =>
          simp only [exec] at executed
          split at executed
          · cases executed
          · cases Option.some.inj executed
            exact inv.run found (inv.holds.setLocked true) (by simp)
              fun ready waits => .inr ⟨id, ready, waits⟩
      | unlockRx =>
          cases Option.some.inj executed
          exact inv.run found (inv.holds.setLocked false) (by simp)
            fun ready waits => .inr ⟨id, ready, waits⟩
      | drain =>
          obtain ⟨room, copies⟩ := Bool.and_eq_true_iff.mp serves
          simp only [exec] at executed
          split at executed
          · rename_i nothing
            cases Option.some.inj executed
            exact inv.run found inv.holds (by simp) fun ready => absurd nothing ready
          · rename_i ready
            split at executed
            · rename_i popped
              cases Option.some.inj executed
              have empty := Qp.popRecv_none inv.holds.table.openQp popped
              exact inv.run found inv.holds (by simp) fun _ waits => absurd empty waits
            · rename_i wqe popped
              cases Option.some.inj executed
              obtain ⟨later, oldest, rfl⟩ := Qp.popRecv_some popped
              exact inv.run found (inv.holds.deliver oldest ready room copies) (by simp)
                fun _ _ => .inl ⟨.drain, List.mem_singleton_self _, trivial⟩
      | handle frame =>
          have allocs : choice.allocs = true := grants
          have starts : (split st.shared.arrived).2 = [] → frame.sof ≠ 0 ∨ frame.eof = 3 := by
            intro boundary
            simpa [boundary] using proper
          have nonempty := inv.frames frame (Threads.State.has_of_top found)
          have holds := inv.holds.handle nonempty allocs starts
          simp only [exec, Option.some.injEq] at executed
          have result : (st.shared.handle cfg frame choice).1 = shared := congrArg Prod.fst executed
          have code : (st.shared.handle cfg frame choice).2 = pushed := congrArg Prod.snd executed
          rcases @Qp.handle_queues cfg st.shared frame choice with ⟨-, drains⟩ | ⟨same, nothing⟩
          · rw [code] at drains
            subst drains
            exact inv.run found (result ▸ holds) (by simp)
              fun _ _ => .inl ⟨.drain, List.mem_singleton_self _, trivial⟩
          · rw [code] at nothing
            subst nothing
            rw [result] at same
            have sameWqes : shared.recvq = st.shared.recvq := congrArg Prod.fst same
            have sameReady : shared.readyCount = st.shared.readyCount := congrArg Prod.snd same
            exact inv.run found (result ▸ holds) (by simp)
              fun ready waits => .inr ⟨id, sameReady ▸ ready, sameWqes ▸ waits⟩

theorem Inv.agrees {st : State} (inv : Inv cfg st) : Agrees cfg st := by
  obtain ⟨front, back, split, done, waiting⟩ := inv.holds.table.queue
  have posted := inv.holds.table.posted
  have sameLength : front.length = st.shared.completed.length := done.length_eq
  have ready : back.length = st.shared.readyCount := by
    simpa using waiting.length_eq
  have total : st.shared.due.length = front.length + back.length := by
    rw [split, List.length_append]
  refine ⟨?_, ?_, by omega, by omega, inv.holds.table.bytes, fun quiet => ?_⟩
  · rw [posted]
    simp
  · rw [split]
    have zipped := @List.zip_append _ _ front back st.shared.completed [] sameLength
    rw [List.append_nil, List.zip_nil_right, List.append_nil] at zipped
    rw [zipped]
    rintro ⟨message, completion⟩ among
    exact (List.forall₂_iff_zip.mp done).2 among
  · have postedLength : st.shared.posted.length =
        st.shared.completed.length + st.shared.recvq.length := by
      rw [posted]
      simp
    have stuck : st.shared.readyCount = 0 ∨ st.shared.recvq = [] := by
      by_contra both
      obtain ⟨someReady, waits⟩ := not_or.mp both
      obtain ⟨call, ⟨code, among, inside⟩, -⟩ := inv.drains someReady waits
      rw [quiet code among] at inside
      cases inside
    rcases stuck with nothing | empty
    · omega
    · rw [empty] at postedLength
      simp only [List.length_nil] at postedLength
      omega

/-- In every run from an idle QP the receive side agrees with the reference split. -/
theorem receive_is_reference_split {cfg : Config} {q : Qp} (idle : Idle cfg q) {st : State}
    (reached : Trans.Reaches (step cfg)
      (fun st label => granted cfg st label ∧ opens st label ∧ served st label) ⟨q, []⟩ st) :
    Agrees cfg st := by
  have inv : Inv cfg st := reached.invariant idle.inv fun inv meets taken =>
    inv.step meets.1 meets.2.1 meets.2.2 taken
  exact inv.agrees

/-! ## Runs the amendments are for -/

def oneSlot : Config where
  pageSize := 16
  slotCount := 1
  pendingBytes := 16
  pendingTotalBytes := 16
  recvqSize := 4
  pageSize_pos := by decide
  slotCount_pos := by decide
  pendingBytes_pos := by decide
  pendingTotalBytes_pos := by decide
  pendingTotalBytes_lt := by decide

theorem idle_oneSlot : Idle oneSlot {} where
  openQp := rfl
  head_lt := by decide
  tail := rfl
  count := rfl
  bytes := rfl
  active := rfl
  keeps := rfl
  slots _ := ⟨⟨rfl, Nat.le_refl _⟩, rfl, rfl, rfl⟩
  posted := rfl
  arrived := rfl
  completed := rfl

def eightBytes : RecvWr := ⟨7, 1, some ⟨64, 8, 1⟩⟩

/-- A whole call: the event and `sections` sections of the thread it starts. -/
def call (event : Event) (thread sections : Nat) (choice : Choice := {}) : List Label :=
  .event event :: List.replicate sections (.run thread choice)

/-- Two messages, one of two frames, and then WQEs for both.  The ring of one slot is
full when the second begins, and it is dropped whole. -/
def twoMessages : List Label :=
  call (.rxFrame ⟨[1], 1, 2⟩) 0 4 ++ call (.rxFrame ⟨[2, 3], 0, 3⟩) 1 5 ++
    call (.rxFrame ⟨[4], 1, 2⟩) 2 4 ++ call (.rxFrame ⟨[5], 0, 3⟩) 3 4 ++
    call (.postRecv [eightBytes, eightBytes]) 4 7

theorem receive_is_reference_split_twoMessages :
    ∃ st, Trans.Reaches (step oneSlot)
        (fun st label => granted oneSlot st label ∧ opens st label ∧ served st label)
        ⟨{}, []⟩ st ∧
      Agrees oneSlot st ∧ Quiet st ∧ (split st.shared.arrived).1.length = 2 ∧
      st.shared.completed = [⟨eightBytes.wqe, .success, 3, [1, 2, 3]⟩] := by
  have found : (Trans.guarded (step oneSlot)
      (fun st label => granted oneSlot st label ∧ opens st label ∧ served st label)
      twoMessages ⟨{}, []⟩).any (fun st => decide (Quiet st ∧
        (split st.shared.arrived).1.length = 2 ∧
        st.shared.completed = [⟨eightBytes.wqe, .success, 3, [1, 2, 3]⟩])) = true := by
    decide +kernel
  obtain ⟨st, reached, holds⟩ := Trans.exists_reaches_of_guarded found
  exact ⟨st, reached, receive_is_reference_split idle_oneSlot reached, of_decide_eq_true holds⟩

/-- A message of two frames, the first with `sof`, and then a WQE for it. -/
def oneMessage (sof : Nat) (choice : Choice) (sections : Nat) : List Label :=
  call (.rxFrame ⟨[1], sof, 2⟩) 0 4 ++ call (.rxFrame ⟨[2], 0, 3⟩) 1 5 ++
    call (.postRecv [eightBytes]) 2 sections choice

def disagrees (st : State) : Bool :=
  decide (¬ ∀ pair ∈ st.shared.due.zip st.shared.completed, Produces pair.1 pair.2) ||
    decide (Quiet st ∧
      st.shared.completed.length ≠ min st.shared.due.length st.shared.posted.length)

theorem not_agrees_of_disagrees {st : State} (wrong : disagrees st = true) : ¬ Agrees cfg st := by
  intro agrees
  rcases (Bool.or_eq_true_iff ..).mp wrong with notDue | few
  · exact of_decide_eq_true notDue agrees.inOrder
  · obtain ⟨quiet, short⟩ := of_decide_eq_true few
    exact short (agrees.noFewer quiet)

/-- With posts and allocations that succeed, the reference split is still missed: the
tail of a message whose first frame has no SOF is delivered as a message of its own,
an overflowing CQ loses a completion, and memory that is gone makes an error of a
message that fits. -/
theorem reference_split_missed :
    (∃ st, Trans.Reaches (step oneSlot)
        (fun st label => granted oneSlot st label ∧ served st label) ⟨{}, []⟩ st ∧
      st.shared.completed = [⟨eightBytes.wqe, .success, 1, [2]⟩] ∧ ¬ Agrees oneSlot st) ∧
    (∃ st, Trans.Reaches (step oneSlot)
        (fun st label => granted oneSlot st label ∧ opens st label) ⟨{}, []⟩ st ∧
      st.shared.completed = [] ∧ ¬ Agrees oneSlot st) ∧
    (∃ st, Trans.Reaches (step oneSlot)
        (fun st label => granted oneSlot st label ∧ opens st label) ⟨{}, []⟩ st ∧
      st.shared.completed = [⟨eightBytes.wqe, .locProtErr, 0, []⟩] ∧ ¬ Agrees oneSlot st) := by
  have tailOnly : (Trans.guarded (step oneSlot)
      (fun st label => granted oneSlot st label ∧ served st label) (oneMessage 0 {} 6)
      ⟨{}, []⟩).any (fun st => decide (st.shared.completed =
        [⟨eightBytes.wqe, .success, 1, [2]⟩] ∧ disagrees st = true)) = true := by
    decide +kernel
  have overflow : (Trans.guarded (step oneSlot)
      (fun st label => granted oneSlot st label ∧ opens st label)
      (oneMessage 1 { cqRoom := false } 6) ⟨{}, []⟩).any (fun st => decide
        (st.shared.completed = [] ∧ disagrees st = true)) = true := by
    decide +kernel
  have unmapped : (Trans.guarded (step oneSlot)
      (fun st label => granted oneSlot st label ∧ opens st label)
      (oneMessage 1 { copies := false } 6) ⟨{}, []⟩).any (fun st => decide
        (st.shared.completed = [⟨eightBytes.wqe, .locProtErr, 0, []⟩] ∧
          disagrees st = true)) = true := by
    decide +kernel
  refine ⟨?_, ?_, ?_⟩
  · obtain ⟨st, reached, holds⟩ := Trans.exists_reaches_of_guarded tailOnly
    obtain ⟨completed, wrong⟩ := of_decide_eq_true holds
    exact ⟨st, reached, completed, not_agrees_of_disagrees wrong⟩
  · obtain ⟨st, reached, holds⟩ := Trans.exists_reaches_of_guarded overflow
    obtain ⟨completed, wrong⟩ := of_decide_eq_true holds
    exact ⟨st, reached, completed, not_agrees_of_disagrees wrong⟩
  · obtain ⟨st, reached, holds⟩ := Trans.exists_reaches_of_guarded unmapped
    obtain ⟨completed, wrong⟩ := of_decide_eq_true holds
    exact ⟨st, reached, completed, not_agrees_of_disagrees wrong⟩

end Tbv.AppleRx
