import ThunderboltIbverbs.Apple.Completions

/-! # Finished messages and posted buffers

A finished message waits for a buffer only while none is posted, or while somebody is about to
drain.  `tbv_post_recv` drains at its end, but not when it fails after having queued a buffer. -/
set_option autoImplicit false
namespace Tbv.AppleRx

open Trans

variable {cfg : Config} {q : Qp}

/-- A post is not refused after it has queued a buffer. -/
def Whole (cfg : Config) (st : State) : Label → Prop
  | .event _ => True
  | .run thread choice =>
      match st.top thread with
      | some (.postLoop (wr :: _) true) => st.shared.accepts cfg wr choice = true
      | _ => True

instance (cfg : Config) (st : State) : (label : Label) → Decidable (Whole cfg st label)
  | .event _ => .isTrue trivial
  | .run thread choice => by
      unfold Whole
      dsimp only
      split <;> infer_instance

structure Marked (cfg : Config) (q : Qp) : Prop where
  openQp : q.closing = false
  head_lt : q.head < cfg.slotCount
  count_le : q.readyCount ≤ cfg.slotCount
  tail_eq : q.tail = Ring.place cfg.slotCount q.head q.readyCount
  active : ∀ index, q.active = some index → index = q.tail ∧ q.readyCount < cfg.slotCount
  unready : ∀ offset, q.readyCount ≤ offset → offset < cfg.slotCount →
    (q.pending (Ring.place cfg.slotCount q.head offset)).ready = false

theorem Marked.ready_pos (marked : Marked cfg q) {index : Nat} (bound : index < cfg.slotCount)
    (ready : (q.pending index).ready = true) : q.readyCount ≠ 0 := by
  obtain ⟨offset, inside, rfl⟩ := Ring.exists_place marked.head_lt bound
  intro none
  rw [marked.unready offset (by omega) inside] at ready
  cases ready

theorem Slot.grow_ready {p next : Slot} {maxBytes required : Nat} {allocs : Bool}
    (grown : p.grow cfg maxBytes required allocs = .ok next) : next.ready = p.ready := by
  unfold Slot.grow at grown
  split at grown
  · split at grown
    · cases grown
    · split at grown
      · cases grown
      · split at grown
        · cases grown
        · cases grown
          rfl
  · cases grown
    rfl

theorem copyPieceToBuf_ready {p next : Slot} {bytes after : Nat} {src : List UInt8} {allocs : Bool}
    (copied : copyPieceToBuf cfg bytes p src allocs = .ok (next, after)) : next.ready = p.ready := by
  unfold copyPieceToBuf at copied
  dsimp only at copied
  split at copied
  · cases copied
    rfl
  split at copied
  · cases copied
  split at copied
  · cases copied
  split at copied
  · cases copied
  · cases grown : p.grow cfg cfg.maxBytes (p.delivered + src.length) allocs with
    | error err =>
        rw [grown] at copied
        cases copied
    | ok larger =>
        rw [grown] at copied
        cases copied
        have kept : larger.ready = p.ready := Slot.grow_ready grown
        exact kept

theorem Marked.setSlot (marked : Marked cfg q) {index : Nat} {p : Slot} (bytes : Nat)
    (same : p.ready = true → (q.pending index).ready = true) :
    Marked cfg { q.setSlot index p with bytes := bytes } where
  openQp := marked.openQp
  head_lt := marked.head_lt
  count_le := marked.count_le
  tail_eq := marked.tail_eq
  active := marked.active
  unready := fun offset above below => by
    have before := marked.unready offset above below
    by_cases here : Ring.place cfg.slotCount q.head offset = index
    · subst here
      rw [Bool.eq_false_iff]
      intro ready
      have now : p.ready = true := by simpa [Qp.setSlot] using ready
      rw [same now] at before
      cases before
    · simpa [Qp.setSlot, here] using before

theorem Marked.copyFrame (marked : Marked cfg q) (index : Nat) (frame : AppleFrame) (allocs : Bool) :
    Marked cfg (q.copyFrame cfg index frame allocs) := by
  unfold Qp.copyFrame
  split
  · rename_i p bytes copied
    exact marked.setSlot bytes fun ready => copyPieceToBuf_ready copied ▸ ready
  · exact marked.setSlot q.bytes id

theorem Marked.pendingActive (marked : Marked cfg q) {index : Nat} {next : Qp}
    (taken : q.pendingActive cfg = some (index, next)) : Marked cfg next := by
  unfold Qp.pendingActive at taken
  split at taken
  · cases taken
    exact marked
  split at taken
  · cases taken
  rename_i room
  split at taken
  · cases taken
  · cases taken
    have set := @Marked.setSlot _ _ marked q.tail { (q.pending q.tail).reset with active := true }
      q.bytes fun ready => by cases ready
    refine { set with active := fun index is => ?_ }
    cases is
    refine ⟨rfl, ?_⟩
    change q.readyCount < cfg.slotCount
    omega

theorem Marked.finish (marked : Marked cfg q) : Marked cfg (q.finish cfg) := by
  unfold Qp.finish
  split
  · exact marked
  rename_i index active
  obtain ⟨rfl, room⟩ := marked.active index active
  refine
    { openQp := marked.openQp
      head_lt := marked.head_lt
      count_le := room
      tail_eq := ?_
      active := fun _ is => by cases is
      unready := fun offset above below => ?_ }
  · change (q.tail + 1) % cfg.slotCount = Ring.place cfg.slotCount q.head (q.readyCount + 1)
    rw [marked.tail_eq, Ring.place_add_one]
  · have above : q.readyCount + 1 ≤ offset := above
    have elsewhere : Ring.place cfg.slotCount q.head offset ≠ q.tail := by
      rw [marked.tail_eq]
      intro same
      have := Ring.place_inj below room same
      omega
    simpa [Qp.setSlot, elsewhere] using marked.unready offset (by omega) below

theorem Marked.handle (marked : Marked cfg q) (frame : AppleFrame) (choice : Choice) :
    Marked cfg (q.handle cfg frame choice).1 := by
  have met : Marked cfg (q.arrive cfg frame) := { marked with }
  unfold Qp.handle
  dsimp only
  split
  · split
    · exact { met with }
    · exact met
  split
  · exact met
  split
  · split
    · exact met
    · exact { met with }
  · rename_i index next taken
    have copied := (met.pendingActive taken).copyFrame index frame choice.allocs
    split
    · exact copied.finish
    · exact copied

/-- A drain turn releases the first slot. -/
theorem Marked.deliver (marked : Marked cfg q) (wqe : RecvWqe) (choice : Choice)
    (ready : q.readyCount ≠ 0) : Marked cfg (q.deliver cfg wqe choice) := by
  obtain ⟨count, counted⟩ := Nat.exists_eq_succ_of_ne_zero ready
  have bound := marked.count_le
  have shift : ∀ offset, Ring.place cfg.slotCount ((q.head + 1) % cfg.slotCount) offset =
      Ring.place cfg.slotCount q.head (offset + 1) := Ring.place_succ_head
  have released : ∃ bytes completed, q.deliver cfg wqe choice = { q with
      completed, bytes
      pending := Function.update q.pending q.head (q.pending q.head).reset
      head := (q.head + 1) % cfg.slotCount
      readyCount := q.readyCount - 1 } := by
    unfold Qp.deliver Qp.pushWc Qp.release Qp.setSlot
    dsimp only
    split <;> exact ⟨_, _, rfl⟩
  obtain ⟨bytes, completed, is⟩ := released
  rw [is]
  refine
    { openQp := marked.openQp
      head_lt := Nat.mod_lt _ cfg.slotCount_pos
      count_le := (Nat.sub_le ..).trans bound
      tail_eq := ?_
      active := fun index active => ?_
      unready := fun offset above below => ?_ }
  · change q.tail = Ring.place cfg.slotCount ((q.head + 1) % cfg.slotCount) (q.readyCount - 1)
    rw [shift, marked.tail_eq, counted]
    rfl
  · obtain ⟨tail, room⟩ := marked.active index active
    exact ⟨tail, by
      change q.readyCount - 1 < cfg.slotCount
      omega⟩
  · change (Function.update q.pending q.head (q.pending q.head).reset
      (Ring.place cfg.slotCount ((q.head + 1) % cfg.slotCount) offset)).ready = false
    have above : q.readyCount - 1 ≤ offset := above
    rw [shift]
    by_cases first : Ring.place cfg.slotCount q.head (offset + 1) = q.head
    · rw [first, Function.update_self]
      rfl
    · rw [Function.update_of_ne first]
      have last : offset + 1 ≠ cfg.slotCount := by
        intro same
        rw [same, Ring.place_size, Ring.place_zero marked.head_lt] at first
        exact first rfl
      exact marked.unready (offset + 1) (by omega) (by omega)

def Qp.Due (q : Qp) : Prop := q.readyCount ≠ 0 ∧ q.recvq ≠ []

structure Attended (cfg : Config) (st : State) : Prop where
  marked : Marked cfg st.shared
  owed : st.Owed Qp.Due Call.Drains

theorem Attended.step {st next : State} {label : Label} (attended : Attended cfg st)
    (whole : Whole cfg st label) (taken : step cfg st label = some next) : Attended cfg next := by
  obtain ⟨marked, owed⟩ := attended
  cases label with
  | event event =>
      obtain ⟨shared, code, reacted, rfl⟩ := Threads.step_event taken
      cases event with
      | rxFrame frame =>
          cases Option.some.inj reacted
          exact ⟨marked, owed.event _ id⟩
      | postRecv wrs =>
          cases Option.some.inj reacted
          exact ⟨marked, owed.event _ id⟩
  | run thread choice =>
      obtain ⟨call, rest, shared, pushed, found, executed, rfl⟩ := Threads.step_run taken
      have top := Threads.State.top_of_getElem? found
      cases call with
      | postLoop wrs posted =>
          cases wrs with
          | nil =>
              cases Option.some.inj executed
              refine ⟨marked, owed.run found fun due => ?_⟩
              cases posted with
              | true => exact .inl ⟨.drain, by simp, trivial⟩
              | false => exact .inr ⟨by simp [Call.Drains], due⟩
          | cons wr more =>
              simp only [exec] at executed
              split at executed
              · cases Option.some.inj executed
                exact ⟨{ marked with }, owed.run found fun _ =>
                  .inl ⟨_, List.mem_singleton_self _, rfl⟩⟩
              · rename_i refused
                cases Option.some.inj executed
                refine ⟨marked, owed.run found fun due => .inr ⟨fun queued => ?_, due⟩⟩
                have posted : posted = true := queued
                simp only [Whole, top, posted] at whole
                exact refused whole
      | lockRx =>
          simp only [exec] at executed
          split at executed
          · cases executed
          · cases Option.some.inj executed
            exact ⟨{ marked with }, owed.run found fun due => .inr ⟨id, due⟩⟩
      | unlockRx =>
          cases Option.some.inj executed
          exact ⟨{ marked with }, owed.run found fun due => .inr ⟨id, due⟩⟩
      | drain =>
          simp only [exec] at executed
          split at executed
          · rename_i nothing
            cases Option.some.inj executed
            exact ⟨marked, owed.run found fun due => absurd nothing due.1⟩
          rename_i ready
          split at executed
          · rename_i popped
            cases Option.some.inj executed
            have empty := Qp.popRecv_none marked.openQp popped
            exact ⟨marked, owed.run found fun due => absurd empty due.2⟩
          · rename_i wqe left popped
            cases Option.some.inj executed
            obtain ⟨later, oldest, rfl⟩ := Qp.popRecv_some popped
            have rest : Marked cfg { st.shared with recvq := later } := { marked with }
            exact ⟨rest.deliver wqe choice ready, owed.run found fun _ =>
              .inl ⟨.drain, List.mem_singleton_self _, trivial⟩⟩
      | handle frame =>
          have handled := marked.handle frame choice
          simp only [exec, Option.some.injEq] at executed
          have result : (st.shared.handle cfg frame choice).1 = shared := congrArg Prod.fst executed
          have code : (st.shared.handle cfg frame choice).2 = pushed := congrArg Prod.snd executed
          refine ⟨result ▸ handled, owed.run found fun due => ?_⟩
          rcases @Qp.handle_queues cfg st.shared frame choice with ⟨-, drains⟩ | ⟨same, nothing⟩
          · rw [← code, drains]
            exact .inl ⟨.drain, List.mem_singleton_self _, trivial⟩
          · rw [result] at same
            have sameWqes : shared.recvq = st.shared.recvq := congrArg Prod.fst same
            have sameReady : shared.readyCount = st.shared.readyCount := congrArg Prod.snd same
            exact .inr ⟨id, sameReady ▸ due.1, sameWqes ▸ due.2⟩

theorem Idle.attended (idle : Idle cfg q) : Attended cfg ⟨q, []⟩ where
  marked :=
    { openQp := idle.openQp
      head_lt := idle.head_lt
      count_le := by simp [idle.count]
      tail_eq := by rw [idle.tail, idle.count, Ring.place_zero idle.head_lt]
      active := fun index active => by
        rw [idle.active] at active
        cases active
      unready := fun offset _ _ => (idle.slots _).2.ready }
  owed := fun due => absurd idle.count due.1

/-- When no call is in progress, a slot is ready only while no buffer is posted. -/
theorem ready_slot_finds_no_buffer (idle : Idle cfg q) {st : State}
    (reached : Reaches (step cfg) (Whole cfg) ⟨q, []⟩ st) (quiet : Quiet st) {index : Nat}
    (bound : index < cfg.slotCount) (ready : (st.shared.pending index).ready = true) :
    st.shared.recvq = [] := by
  have attended : Attended cfg st := reached.invariant idle.attended fun attended whole taken =>
    attended.step whole taken
  by_contra posted
  exact attended.owed.settled quiet ⟨attended.marked.ready_pos bound ready, posted⟩

end Tbv.AppleRx
