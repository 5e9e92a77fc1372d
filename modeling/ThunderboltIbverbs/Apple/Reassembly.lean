import ThunderboltIbverbs.Apple.Gather

/-! # The slot table agrees with the reference split -/
set_option autoImplicit false
namespace Tbv.AppleRx

variable {cfg : Config} {q : Qp} {due : List (List Arrival)} {message : List Arrival}
  {index : Nat}

/-- Nothing of a message is in the slot. -/
structure Slot.Empty (p : Slot) : Prop where
  delivered : p.delivered = 0
  active : p.active = false
  ready : p.ready = false

theorem Slot.Empty.held {p : Slot} (empty : p.Empty) : p.held = 0 := by
  simp [Slot.held, empty.active, empty.ready]

structure Slot.Finished (message : List Arrival) (p : Slot) : Prop where
  holds : p.Holds message
  ready : p.ready = true

/-- The slots from `head` on hold the due messages that were not completed yet, and
every other slot but the active one is empty. -/
structure Table (cfg : Config) (q : Qp) (due : List (List Arrival)) : Prop where
  openQp : q.closing = false
  head_lt : q.head < cfg.slotCount
  count_le : q.readyCount ≤ cfg.slotCount
  tail_eq : q.tail = Ring.place cfg.slotCount q.head q.readyCount
  sound : ∀ index, (q.pending index).Sound
  posted : q.posted = q.completed.map Completion.wqe ++ q.recvq
  queue : ∃ front back, due = front ++ back ∧ List.Forall₂ Produces front q.completed ∧
    List.Forall₂ Slot.Finished back
      (Ring.contents cfg.slotCount q.pending q.head q.readyCount)
  empty : ∀ offset, q.readyCount ≤ offset → offset < cfg.slotCount →
    (q.active = none ∨ offset ≠ q.readyCount) →
    (q.pending (Ring.place cfg.slotCount q.head offset)).Empty
  bytes : q.bytes = Ring.total Slot.held cfg.slotCount q.pending

/-- The active slot is the tail and has the frames of the message so far. -/
structure Gathering (cfg : Config) (q : Qp) (index : Nat) (message : List Arrival) : Prop where
  active : q.active = some index
  tail : index = q.tail
  room : q.readyCount < cfg.slotCount
  keeps : q.discard = false
  holds : (q.pending index).Holds message
  inSlot : (q.pending index).active = true
  notReady : (q.pending index).ready = false

/-- Where the handler stands in the message in progress. -/
inductive Current (cfg : Config) (q : Qp) : List Arrival → Prop
  | boundary (idle : q.active = none) (keeps : q.discard = false) : Current cfg q []
  | dropping {message : List Arrival} (idle : q.active = none) (drops : q.discard = true)
      (begun : message ≠ []) (dropped : kept message = false) : Current cfg q message
  | gathering {message : List Arrival} {index : Nat} (gathers : Gathering cfg q index message)
      (begun : message ≠ []) (isKept : kept message = true) : Current cfg q message

theorem Gathering.place (gathers : Gathering cfg q index message) (table : Table cfg q due) :
    index = Ring.place cfg.slotCount q.head q.readyCount :=
  gathers.tail.trans table.tail_eq

theorem Table.tail_lt (table : Table cfg q due) : q.tail < cfg.slotCount := by
  rw [table.tail_eq]
  exact Ring.place_lt cfg.slotCount_pos _

theorem kept_snoc (arrival : Arrival) (begun : message ≠ []) :
    kept (message ++ [arrival]) = kept message := by
  cases message with
  | nil => exact absurd rfl begun
  | cons first rest => rfl

/-! ## Operations on the table -/

/-- Changing the tail slot, when it is the active one, changes nothing else. -/
theorem Table.setActive (table : Table cfg q due) (gathers : Gathering cfg q index message)
    {p : Slot} {bytes : Nat} (sound : p.Sound) (active : p.active = true)
    (counted : bytes + (q.pending index).delivered = q.bytes + p.delivered) :
    Table cfg { q.setSlot index p with bytes := bytes } due := by
  have tail := gathers.place table
  have inside : index < cfg.slotCount := gathers.tail ▸ table.tail_lt
  obtain ⟨front, back, split, done, waiting⟩ := table.queue
  refine
    { table with
      sound := ?_
      queue := ⟨front, back, split, done, ?_⟩
      empty := ?_
      bytes := ?_ }
  · intro other
    by_cases same : other = index
    · simpa [Qp.setSlot, same] using sound
    · simpa [Qp.setSlot, same] using table.sound other
  · subst tail
    simpa only [Qp.setSlot, Ring.contents_update_tail gathers.room] using waiting
  · intro offset above below notActive
    have other : offset ≠ q.readyCount := by
      rcases notActive with idle | other
      · exact absurd (gathers.active.symm.trans idle) (by simp)
      · exact other
    have elsewhere : Ring.place cfg.slotCount q.head offset ≠ index := by
      intro same
      exact other (Ring.place_inj below gathers.room (same.trans tail))
    simpa [Qp.setSlot, elsewhere] using table.empty offset above below (.inr other)
  · have changed := @Ring.total_update _ _ q.pending Slot.held index inside p
    have before : (q.pending index).held = (q.pending index).delivered := by
      simp [Slot.held, gathers.inSlot]
    have after : p.held = p.delivered := by simp [Slot.held, active]
    have held := table.bytes
    show bytes = Ring.total Slot.held cfg.slotCount (Function.update q.pending index p)
    omega

theorem Qp.pendingActive_fresh (idle : q.active = none) (room : q.readyCount < cfg.slotCount) :
    q.pendingActive cfg = some (q.tail, q.activate) := by
  have limits := cfg.pendingBytes_pos
  have total := cfg.pendingTotalBytes_pos
  have slots := cfg.slotCount_pos
  simp only [Qp.pendingActive, idle]
  rw [if_neg (by omega), if_neg (by omega)]

theorem Table.activate (table : Table cfg q due) (idle : q.active = none)
    (room : q.readyCount < cfg.slotCount) : Table cfg q.activate due := by
  have inside := table.tail_lt
  have free : (q.pending q.tail).Empty := by
    rw [table.tail_eq]
    exact table.empty _ (Nat.le_refl _) room (.inl idle)
  have sound : (q.pending q.tail).reset.Sound := (table.sound q.tail).reset
  obtain ⟨front, back, split, done, waiting⟩ := table.queue
  refine
    { table with
      sound := ?_
      queue := ⟨front, back, split, done, ?_⟩
      empty := ?_
      bytes := ?_ }
  · intro other
    by_cases same : other = q.tail
    · rw [same]
      simpa [Qp.activate, Qp.setSlot] using
        (⟨sound.size, sound.inside⟩ : Slot.Sound { (q.pending q.tail).reset with active := true })
    · simpa [Qp.activate, Qp.setSlot, same] using table.sound other
  · show List.Forall₂ Slot.Finished back
      (Ring.contents cfg.slotCount (Function.update q.pending q.tail _) q.head q.readyCount)
    rw [table.tail_eq, Ring.contents_update_tail room]
    exact waiting
  · intro offset above below notActive
    have other : offset ≠ q.readyCount := notActive.resolve_left (by simp [Qp.activate])
    have elsewhere : Ring.place cfg.slotCount q.head offset ≠ q.tail := by
      intro same
      exact other (Ring.place_inj below room (same.trans table.tail_eq))
    simpa [Qp.activate, Qp.setSlot, elsewhere] using table.empty offset above below (.inl idle)
  · have changed := @Ring.total_update _ _ q.pending Slot.held q.tail inside
      { (q.pending q.tail).reset with active := true }
    have after : Slot.held { (q.pending q.tail).reset with active := true } = 0 := rfl
    have before := free.held
    have held := table.bytes
    show q.bytes = Ring.total Slot.held cfg.slotCount (Function.update q.pending q.tail _)
    omega

theorem Table.gathering_activate (table : Table cfg q due) (keeps : q.discard = false)
    (room : q.readyCount < cfg.slotCount) : Gathering cfg q.activate q.tail [] := by
  have sound : (q.pending q.tail).reset.Sound := (table.sound q.tail).reset
  refine ⟨rfl, rfl, room, keeps, ?_, ?_, ?_⟩
  · have nothing : Slot.Holds { (q.pending q.tail).reset with active := true } [] :=
      Slot.Sound.holds_nothing ⟨sound.size, sound.inside⟩ rfl rfl
    simpa [Qp.activate, Qp.setSlot] using nothing
  · simp [Qp.activate, Qp.setSlot]
  · simp [Qp.activate, Qp.setSlot, Slot.reset]

theorem Gathering.pendingActive (gathers : Gathering cfg q index message) :
    q.pendingActive cfg = some (index, q) := by
  simp [Qp.pendingActive, gathers.active]

/-- A frame goes into the active slot, whole or not at all. -/
theorem Table.copyFrame (table : Table cfg q due) (gathers : Gathering cfg q index message)
    {arrival : Arrival} (nonempty : arrival.frame.payload ≠ [])
    (fits : arrival.fits =
      decide ((q.pending index).delivered + arrival.frame.payload.length ≤ cfg.maxBytes ∧
        q.bytes + arrival.frame.payload.length ≤ cfg.pendingTotalBytes)) :
    Table cfg (q.copyFrame cfg index arrival.frame true) due ∧
      Gathering cfg (q.copyFrame cfg index arrival.frame true) index (message ++ [arrival]) := by
  have holds := gathers.holds
  by_cases inside : (q.pending index).delivered + arrival.frame.payload.length ≤ cfg.maxBytes ∧
      q.bytes + arrival.frame.payload.length ≤ cfg.pendingTotalBytes
  · obtain ⟨next, ran, sound, data, delivered, status, active, ready⟩ :=
      copyPieceToBuf_fits holds.sound nonempty inside.1 inside.2
    have accepted : arrival.fits = true := by simpa [inside] using fits
    have result : q.copyFrame cfg index arrival.frame true =
        { q.setSlot index next with bytes := q.bytes + arrival.frame.payload.length } := by
      simp only [Qp.copyFrame, ran]
    rw [result]
    refine ⟨table.setActive gathers sound (active.trans gathers.inSlot) (by omega), ?_⟩
    refine { gathers with holds := ?_, inSlot := ?_, notReady := ?_ }
    · have more : next.Holds (message ++ [arrival]) := by
        refine ⟨sound, ?_, ?_⟩
        · rw [data, holds.data, fitted_snoc, accepted, if_pos rfl]
        · rw [status, holds.status, gatheredStatus_snoc, accepted, if_pos rfl]
      simpa [Qp.setSlot] using more
    · simpa [Qp.setSlot] using active.trans gathers.inSlot
    · simpa [Qp.setSlot] using ready.trans gathers.notReady
  · obtain ⟨err, ran, status⟩ := @copyPieceToBuf_refuses cfg _ _ _ true nonempty inside
    have refused : arrival.fits = false := by simpa [inside] using fits
    have result : q.copyFrame cfg index arrival.frame true =
        { q.setSlot index { q.pending index with status := .locLenErr } with bytes := q.bytes } := by
      simp only [Qp.copyFrame, ran, status]
      rfl
    have sound : Slot.Sound { q.pending index with status := .locLenErr } :=
      ⟨holds.sound.size, holds.sound.inside⟩
    rw [result]
    refine ⟨table.setActive gathers sound gathers.inSlot rfl, ?_⟩
    refine { gathers with holds := ?_, inSlot := ?_, notReady := ?_ }
    · have same : Slot.Holds { q.pending index with status := .locLenErr }
          (message ++ [arrival]) := by
        refine ⟨sound, ?_, ?_⟩
        · exact holds.data.trans (by simp [fitted_snoc, refused])
        · simp [gatheredStatus_snoc, refused]
      simpa [Qp.setSlot] using same
    · simpa [Qp.setSlot] using gathers.inSlot
    · simpa [Qp.setSlot] using gathers.notReady

/-- The finished slot joins the queue at its end. -/
theorem Table.finish (table : Table cfg q due) (gathers : Gathering cfg q index message) :
    Table cfg (q.finish cfg) (due ++ [message]) := by
  have tail := gathers.place table
  have room := gathers.room
  have inside : index < cfg.slotCount := gathers.tail ▸ table.tail_lt
  obtain ⟨front, back, split, done, waiting⟩ := table.queue
  have holds := gathers.holds
  have sound : Slot.Sound { q.pending index with active := false, ready := true } :=
    ⟨holds.sound.size, holds.sound.inside⟩
  have finished : Slot.Finished message { q.pending index with active := false, ready := true } :=
    ⟨⟨sound, holds.data, holds.status⟩, rfl⟩
  have result : q.finish cfg =
      { q.setSlot index { q.pending index with active := false, ready := true } with
        active := none
        readyCount := q.readyCount + 1
        tail := (q.tail + 1) % cfg.slotCount } := by
    simp only [Qp.finish, gathers.active]
  rw [result]
  refine
    { openQp := table.openQp
      head_lt := table.head_lt
      count_le := room
      tail_eq := ?_
      sound := ?_
      posted := table.posted
      queue := ⟨front, back ++ [message], by rw [split, List.append_assoc], done, ?_⟩
      empty := ?_
      bytes := ?_ }
  · show (q.tail + 1) % cfg.slotCount = Ring.place cfg.slotCount q.head (q.readyCount + 1)
    rw [table.tail_eq, Ring.place_add_one]
  · intro other
    by_cases same : other = index
    · simpa [Qp.setSlot, same] using sound
    · simpa [Qp.setSlot, same] using table.sound other
  · show List.Forall₂ Slot.Finished (back ++ [message]) (Ring.contents cfg.slotCount
      (Function.update q.pending index _) q.head (q.readyCount + 1))
    rw [tail, Ring.contents_snoc, Ring.contents_update_tail room, Function.update_self, ← tail]
    exact List.rel_append waiting (.cons finished .nil)
  · intro offset above below _
    have other : offset ≠ q.readyCount := by
      intro same
      subst same
      exact absurd above (by simp)
    have later : q.readyCount ≤ offset := Nat.le_of_succ_le above
    have elsewhere : Ring.place cfg.slotCount q.head offset ≠ index := by
      intro same
      exact other (Ring.place_inj below room (same.trans tail))
    simpa [Qp.setSlot, elsewhere] using table.empty offset later below (.inr other)
  · have changed := @Ring.total_update _ _ q.pending Slot.held index inside
      { q.pending index with active := false, ready := true }
    have before : (q.pending index).held = (q.pending index).delivered := by
      simp [Slot.held, gathers.inSlot]
    have after : Slot.held { q.pending index with active := false, ready := true } =
        (q.pending index).delivered := rfl
    have held := table.bytes
    show q.bytes = Ring.total Slot.held cfg.slotCount (Function.update q.pending index _)
    omega

theorem Gathering.finish_idle (gathers : Gathering cfg q index message) :
    (q.finish cfg).active = none := by
  simp [Qp.finish, gathers.active]

theorem Gathering.finish_keeps (gathers : Gathering cfg q index message) :
    (q.finish cfg).discard = false := by
  simpa [Qp.finish, gathers.active, Qp.setSlot] using gathers.keeps

/-- The completion of a drain turn whose copy and CQ push succeed. -/
def Slot.completion (p : Slot) (wqe : RecvWqe) : Completion :=
  ⟨wqe, if wqe.length < p.delivered then .locLenErr else p.status, min p.delivered wqe.length,
    p.buf.take (min p.delivered wqe.length)⟩

theorem Qp.deliver_eq {wqe : RecvWqe} {choice : Choice} (room : choice.cqRoom = true)
    (copies : choice.copies = true) : q.deliver cfg wqe choice =
      { q with
        completed := q.completed ++ [(q.pending q.head).completion wqe]
        pending := Function.update q.pending q.head (q.pending q.head).reset
        bytes := if (q.pending q.head).delivered ≤ q.bytes then
          q.bytes - (q.pending q.head).delivered else 0
        head := (q.head + 1) % cfg.slotCount
        readyCount := q.readyCount - 1 } := by
  simp [Qp.deliver, Qp.pushWc, room, copies, Qp.release, Qp.setSlot, Slot.completion]

/-- A drain turn moves the oldest finished message to the oldest WQE. -/
theorem Table.deliver (table : Table cfg q due) {wqe : RecvWqe} {rest : List RecvWqe}
    {choice : Choice} (oldest : q.recvq = wqe :: rest) (ready : q.readyCount ≠ 0)
    (room : choice.cqRoom = true) (copies : choice.copies = true) :
    Table cfg ({ q with recvq := rest }.deliver cfg wqe choice) due := by
  obtain ⟨count, counted⟩ := Nat.exists_eq_succ_of_ne_zero ready
  have inside := table.head_lt
  have below : count < cfg.slotCount := by
    have := table.count_le
    omega
  obtain ⟨front, back, split, done, waiting⟩ := table.queue
  rw [counted, Ring.contents_pop, Ring.place_zero inside] at waiting
  obtain ⟨message, later, finished, laterWaiting, rfl⟩ := List.forall₂_cons_right_iff.mp waiting
  have held := table.bytes
  have changed := @Ring.total_update _ _ q.pending Slot.held q.head inside
    (q.pending q.head).reset
  have before : (q.pending q.head).held = (q.pending q.head).delivered := by
    simp [Slot.held, finished.ready]
  have after : (q.pending q.head).reset.held = 0 := rfl
  have shift : ∀ offset, Ring.place cfg.slotCount ((q.head + 1) % cfg.slotCount) offset =
      Ring.place cfg.slotCount q.head (offset + 1) := Ring.place_succ_head
  rw [Qp.deliver_eq room copies]
  refine
    { openQp := table.openQp
      head_lt := Nat.mod_lt _ cfg.slotCount_pos
      count_le := ?_
      tail_eq := ?_
      sound := ?_
      posted := ?_
      queue := ⟨front ++ [message], later, by rw [split, List.append_assoc]; rfl, ?_, ?_⟩
      empty := ?_
      bytes := ?_ }
  · show q.readyCount - 1 ≤ cfg.slotCount
    omega
  · show q.tail = Ring.place cfg.slotCount ((q.head + 1) % cfg.slotCount) (q.readyCount - 1)
    rw [shift, table.tail_eq, counted]
    rfl
  · intro other
    by_cases same : other = q.head
    · simpa [same] using (table.sound q.head).reset
    · simpa [same] using table.sound other
  · show q.posted = (q.completed ++ [(q.pending q.head).completion wqe]).map Completion.wqe ++ rest
    rw [table.posted, oldest]
    simp [Slot.completion]
  · exact List.rel_append done (.cons (finished.holds.produces wqe) .nil)
  · show List.Forall₂ Slot.Finished later (Ring.contents cfg.slotCount
      (Function.update q.pending q.head _) ((q.head + 1) % cfg.slotCount) (q.readyCount - 1))
    rw [counted]
    nth_rewrite 1 [← Ring.place_zero inside]
    rw [Nat.succ_sub_one, Ring.contents_update_head below]
    exact laterWaiting
  · intro offset above bound notActive
    show (Function.update q.pending q.head (q.pending q.head).reset
      (Ring.place cfg.slotCount ((q.head + 1) % cfg.slotCount) offset)).Empty
    rw [shift]
    -- the last offset from the new head is the slot that was just released
    by_cases last : offset + 1 = cfg.slotCount
    · rw [last, Ring.place_size, Ring.place_zero inside, Function.update_self]
      exact ⟨rfl, rfl, rfl⟩
    · have elsewhere : Ring.place cfg.slotCount q.head (offset + 1) ≠ q.head := by
        intro same
        have := Ring.place_inj (by omega) cfg.slotCount_pos
          (same.trans (Ring.place_zero inside).symm)
        omega
      rw [Function.update_of_ne elsewhere]
      have above : q.readyCount - 1 ≤ offset := above
      refine table.empty (offset + 1) (by omega) (by omega) (notActive.imp_right fun other => ?_)
      have other : offset ≠ q.readyCount - 1 := other
      omega
  · show (if (q.pending q.head).delivered ≤ q.bytes then q.bytes - (q.pending q.head).delivered
      else 0) = Ring.total Slot.held cfg.slotCount
        (Function.update q.pending q.head (q.pending q.head).reset)
    split <;> omega

/-- The slot being gathered is not the one a drain turn releases. -/
theorem Gathering.deliver (gathers : Gathering cfg q index message) (table : Table cfg q due)
    {wqe : RecvWqe} {rest : List RecvWqe} {choice : Choice} (ready : q.readyCount ≠ 0)
    (room : choice.cqRoom = true) (copies : choice.copies = true) :
    Gathering cfg ({ q with recvq := rest }.deliver cfg wqe choice) index message := by
  have less := gathers.room
  have elsewhere : index ≠ q.head := by
    intro same
    have inside := table.head_lt
    have := Ring.place_inj less cfg.slotCount_pos
      ((gathers.place table).symm.trans (same.trans (Ring.place_zero inside).symm))
    omega
  rw [Qp.deliver_eq room copies]
  refine { gathers with room := ?_, holds := ?_, inSlot := ?_, notReady := ?_ }
  · show q.readyCount - 1 < cfg.slotCount
    omega
  · simpa [elsewhere] using gathers.holds
  · simpa [elsewhere] using gathers.inSlot
  · simpa [elsewhere] using gathers.notReady

theorem Current.deliver (current : Current cfg q message) (table : Table cfg q due)
    {wqe : RecvWqe} {rest : List RecvWqe} {choice : Choice} (ready : q.readyCount ≠ 0)
    (room : choice.cqRoom = true) (copies : choice.copies = true) :
    Current cfg ({ q with recvq := rest }.deliver cfg wqe choice) message := by
  cases current with
  | boundary idle keeps =>
      rw [Qp.deliver_eq room copies]
      exact .boundary idle keeps
  | dropping idle drops begun dropped =>
      rw [Qp.deliver_eq room copies]
      exact .dropping idle drops begun dropped
  | gathering gathers begun isKept =>
      exact .gathering (gathers.deliver table ready room copies) begun isKept

/-! ## The handler -/

structure Reassembles (cfg : Config) (q : Qp) : Prop where
  table : Table cfg q q.due
  current : Current cfg q (split q.arrived).2

def Qp.arrival (cfg : Config) (q : Qp) (frame : AppleFrame) : Arrival :=
  ⟨frame, q.ringFull cfg, q.withinLimits cfg frame⟩

theorem Table.arrive (table : Table cfg q due) (frame : AppleFrame) :
    Table cfg (q.arrive cfg frame) due := { table with }

theorem Gathering.arrive (gathers : Gathering cfg q index message) (frame : AppleFrame) :
    Gathering cfg (q.arrive cfg frame) index message := { gathers with }

theorem Qp.due_arrive_goesOn {frame : AppleFrame} (goesOn : frame.eof ≠ 3) :
    (q.arrive cfg frame).due = q.due := by
  rw [Qp.due, Qp.arrive, split_snoc, cut, if_neg goesOn]
  rfl

theorem Qp.due_arrive_ends {frame : AppleFrame} (ends : frame.eof = 3) :
    (q.arrive cfg frame).due = q.due ++
      if kept ((split q.arrived).2 ++ [q.arrival cfg frame]) then
        [(split q.arrived).2 ++ [q.arrival cfg frame]] else [] := by
  rw [Qp.due, Qp.arrive, split_snoc, cut, if_pos ends, List.filter_append]
  refine congrArg (q.due ++ ·) ?_
  show List.filter kept [(split q.arrived).2 ++ [q.arrival cfg frame]] = _
  cases isKept : kept ((split q.arrived).2 ++ [q.arrival cfg frame]) <;> simp [isKept]

theorem Qp.current_arrive {frame : AppleFrame} : (split (q.arrive cfg frame).arrived).2 =
    if frame.eof = 3 then [] else (split q.arrived).2 ++ [q.arrival cfg frame] := by
  rw [Qp.arrive, split_snoc, cut]
  split <;> rfl

theorem Reassembles.drop (holds : Reassembles cfg q) {frame : AppleFrame} {next : Qp}
    (dropped : kept ((split q.arrived).2 ++ [q.arrival cfg frame]) = false)
    (idle : q.active = none)
    (result : next = { q.arrive cfg frame with discard := decide (frame.eof ≠ 3) }) :
    Reassembles cfg next := by
  subst result
  by_cases ends : frame.eof = 3
  · have due := @Qp.due_arrive_ends cfg q frame ends
    rw [dropped] at due
    refine ⟨?_, ?_⟩
    · show Table cfg _ (q.arrive cfg frame).due
      rw [due]
      simpa using { holds.table with }
    · show Current cfg _ (split (q.arrive cfg frame).arrived).2
      rw [Qp.current_arrive, if_pos ends]
      exact .boundary idle (by simp [ends])
  · refine ⟨?_, ?_⟩
    · show Table cfg _ (q.arrive cfg frame).due
      rw [Qp.due_arrive_goesOn ends]
      exact { holds.table with }
    · show Current cfg _ (split (q.arrive cfg frame).arrived).2
      rw [Qp.current_arrive, if_neg ends]
      exact .dropping idle (by simp [ends]) (by simp) dropped

/-- A frame goes into the active slot, which is finished with the last frame. -/
theorem Gathering.add {next : Qp} {frame : AppleFrame}
    (isKept : kept ((split q.arrived).2 ++ [q.arrival cfg frame]) = true)
    (table : Table cfg next q.due) (gathers : Gathering cfg next index (split q.arrived).2)
    (nonempty : frame.payload ≠ [])
    (fits : q.withinLimits cfg frame =
      decide ((next.pending index).delivered + frame.payload.length ≤ cfg.maxBytes ∧
        next.bytes + frame.payload.length ≤ cfg.pendingTotalBytes))
    (arrived : next.arrived = (q.arrive cfg frame).arrived) :
    Reassembles cfg (if frame.eof = 3 then (next.copyFrame cfg index frame true).finish cfg
      else next.copyFrame cfg index frame true) := by
  obtain ⟨copied, gathered⟩ :=
    @Table.copyFrame _ _ _ _ _ table gathers (q.arrival cfg frame) nonempty fits
  have copiedArrived : (next.copyFrame cfg index frame true).arrived =
      (q.arrive cfg frame).arrived := by
    rw [← arrived, Qp.copyFrame]
    split <;> rfl
  split
  · rename_i ends
    have due := @Qp.due_arrive_ends cfg q frame ends
    rw [isKept, if_pos rfl] at due
    have finishedArrived : ((next.copyFrame cfg index frame true).finish cfg).arrived =
        (q.arrive cfg frame).arrived := by
      rw [← copiedArrived, Qp.finish]
      split <;> rfl
    refine ⟨?_, ?_⟩
    · rw [Qp.due, finishedArrived, ← Qp.due, due]
      exact copied.finish gathered
    · rw [finishedArrived, Qp.current_arrive, if_pos ends]
      exact .boundary gathered.finish_idle gathered.finish_keeps
  · rename_i goesOn
    refine ⟨?_, ?_⟩
    · rw [Qp.due, copiedArrived, ← Qp.due, Qp.due_arrive_goesOn goesOn]
      exact copied
    · rw [copiedArrived, Qp.current_arrive, if_neg goesOn]
      exact .gathering gathered (by simp) isKept

/-- The handler keeps the agreement when a message starts with SOF or is one frame. -/
theorem Reassembles.handle (holds : Reassembles cfg q) {frame : AppleFrame} {choice : Choice}
    (nonempty : frame.payload ≠ []) (allocs : choice.allocs = true)
    (starts : (split q.arrived).2 = [] → frame.sof ≠ 0 ∨ frame.eof = 3) :
    Reassembles cfg (q.handle cfg frame choice).1 := by
  obtain ⟨table, current⟩ := holds
  have full : (q.arrival cfg frame).full = q.ringFull cfg := rfl
  generalize currentIs : (split q.arrived).2 = message at current
  cases current with
  | boundary idle keeps =>
      have begins : frame.sof ≠ 0 ∨ frame.eof = frameEnd := starts currentIs
      by_cases room : q.readyCount < cfg.slotCount
      · have isKept : kept ((split q.arrived).2 ++ [q.arrival cfg frame]) = true := by
          simp [currentIs, kept, full, Qp.ringFull, room]
        have arrivedTable := table.arrive frame
        have taken := @Qp.pendingActive_fresh cfg (q.arrive cfg frame) idle room
        have limits : q.withinLimits cfg frame = decide
            (((q.arrive cfg frame).activate.pending (q.arrive cfg frame).tail).delivered +
              frame.payload.length ≤ cfg.maxBytes ∧
              q.bytes + frame.payload.length ≤ cfg.pendingTotalBytes) := by
          simp [Qp.withinLimits, Qp.gathered, idle, Qp.activate, Qp.setSlot, Slot.reset, Qp.arrive]
        have added := @Gathering.add cfg _ _ (q.arrive cfg frame).activate frame
          isKept (arrivedTable.activate idle room)
          (currentIs ▸ arrivedTable.gathering_activate keeps room) nonempty limits rfl
        simp only [Qp.handle, keeps, idle, begins, taken, allocs]
        simpa [apply_ite Prod.fst] using added
      · have dropped : kept ((split q.arrived).2 ++ [q.arrival cfg frame]) = false := by
          simp [currentIs, kept, full, Qp.ringFull, Nat.not_lt.mp room]
        have none_ : (q.arrive cfg frame).pendingActive cfg = none := by
          have : (q.arrive cfg frame).active = none := idle
          have more : cfg.slotCount ≤ (q.arrive cfg frame).readyCount := Nat.not_lt.mp room
          simp [Qp.pendingActive, this, more]
        refine Reassembles.drop ⟨table, currentIs ▸ .boundary idle keeps⟩ dropped idle ?_
        simp only [Qp.handle, keeps, idle, begins, none_]
        by_cases ends : frame.eof = 3 <;> simp [ends, Qp.arrive, keeps]
  | dropping idle drops begun dropped =>
      have still : kept ((split q.arrived).2 ++ [q.arrival cfg frame]) = false := by
        rw [currentIs, kept_snoc _ begun]
        exact dropped
      refine Reassembles.drop ⟨table, currentIs ▸ .dropping idle drops begun dropped⟩ still idle ?_
      by_cases ends : frame.eof = 3 <;> simp [Qp.handle, drops, ends, Qp.arrive]
  | @gathering _ index gathers begun isKept =>
      have still : kept ((split q.arrived).2 ++ [q.arrival cfg frame]) = true := by
        rw [currentIs, kept_snoc _ begun]
        exact isKept
      have active : q.active = some index := gathers.active
      have taken : (q.arrive cfg frame).pendingActive cfg = some (index, q.arrive cfg frame) :=
        (gathers.arrive frame).pendingActive
      have added := @Gathering.add cfg _ _ (q.arrive cfg frame) frame
        still (table.arrive frame)
        (currentIs ▸ gathers.arrive frame) nonempty
        (by simp [Qp.withinLimits, Qp.gathered, active, Qp.arrive]) rfl
      simp only [Qp.handle, gathers.keeps, active, taken, allocs]
      simpa [apply_ite Prod.fst] using added

end Tbv.AppleRx
