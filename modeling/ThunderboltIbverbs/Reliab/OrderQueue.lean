import Mathlib.Data.List.Nodup
import ThunderboltIbverbs.Lib.Ring

/-! # The order queue of the reliability model

`proto/reliability.c`, `tbv_rel_order_init` to `tbv_rel_order_drain`: operations are pushed in
order, marked in any order, and drained in order.  `Fifo` says what the queue is for: every push
that was ever accepted, with the first status that reached it, and how many were drained. -/
set_option autoImplicit false
namespace Tbv.Reliab

def orderMax : Nat := 128

inductive OrderErrno where
  | einval | enospc | eexist | ealready | enoent
  deriving DecidableEq, Repr

structure OrderEntry where
  opId : Nat := 0
  status : Nat := 0
  occupied : Bool := false
  ready : Bool := false
  deriving DecidableEq, Repr

def OrderEntry.flushed (status : Nat) (entry : OrderEntry) : OrderEntry :=
  if entry.ready then entry else { entry with ready := true, status }

structure OrderQueue where
  capacity : Nat := 0
  head : Nat := 0
  count : Nat := 0
  entries : Nat → OrderEntry := fun _ => {}

/-- A completion that `tbv_rel_order_drain` writes out; the status is any byte. -/
structure Drained where
  opId : Nat
  status : Nat
  deriving DecidableEq, Repr

def orderInit (capacity : Nat) : Except OrderErrno OrderQueue :=
  if capacity = 0 ∨ orderMax < capacity then .error .einval else .ok { capacity }

namespace OrderQueue

def index (q : OrderQueue) (offset : Nat) : Nat := (q.head + offset) % q.capacity

def entry (q : OrderQueue) (offset : Nat) : OrderEntry := q.entries (q.index offset)

/-- The first queued entry with the op_id. -/
def find (q : OrderQueue) (opId : Nat) : Option Nat :=
  (List.range q.count).find? fun offset => (q.entry offset).occupied && (q.entry offset).opId == opId

def push (q : OrderQueue) (opId : Nat) : Except OrderErrno OrderQueue :=
  if q.capacity = 0 then .error .einval
  else if q.count = q.capacity then .error .enospc
  else if (q.find opId).isSome then .error .eexist
  else .ok { q with
      entries := Function.update q.entries (q.index q.count) { occupied := true, opId }
      count := q.count + 1 }

/-- `tbv_rel_order_mark`: the queue, and the error returned. -/
def mark (q : OrderQueue) (opId status : Nat) : OrderQueue × Option OrderErrno :=
  if q.capacity = 0 then (q, some .einval)
  else
    match q.find opId with
    | none => (q, some .enoent)
    | some offset =>
        let entry := q.entry offset
        if entry.ready then (q, if entry.status = status then none else some .ealready)
        else ({ q with
          entries := Function.update q.entries (q.index offset) { entry with ready := true, status } },
          none)

def flush (q : OrderQueue) (status : Nat) : OrderQueue × Option OrderErrno :=
  if q.capacity = 0 then (q, some .einval)
  else ({ q with
    entries := (List.range q.count).foldl (fun entries offset =>
      Function.update entries (q.index offset)
        (OrderEntry.flushed status (entries (q.index offset)))) q.entries }, none)

/-- The loop of `tbv_rel_order_drain`, with what is left of `max`. -/
def drainLoop : Nat → OrderQueue → OrderQueue × List Drained
  | 0, q => (q, [])
  | max + 1, q =>
      if q.count = 0 then (q, [])
      else
        let entry := q.entries q.head
        if !entry.occupied || !entry.ready then (q, [])
        else
          let next := { q with
            entries := Function.update q.entries q.head {}
            head := (q.head + 1) % q.capacity
            count := q.count - 1 }
          ((drainLoop max next).1, ⟨entry.opId, entry.status⟩ :: (drainLoop max next).2)

/-- `tbv_rel_order_drain`, with room for `max` completions. -/
def drain (q : OrderQueue) (max : Nat) : Except OrderErrno (OrderQueue × List Drained) :=
  if q.capacity = 0 then .error .einval
  else
    let out := drainLoop max q
    .ok (if out.1.count = 0 then { out.1 with head := 0 } else out.1, out.2)

end OrderQueue

/-- The calls of the user of the queue. -/
inductive OrderCall where
  | push (opId : Nat)
  | mark (opId status : Nat)
  | flush (status : Nat)
  | drain (max : Nat)
  deriving DecidableEq, Repr

/-- A queue with what it has told its user: the pushes it accepted and what was drained. -/
structure OrderLog where
  queue : OrderQueue
  accepted : List Nat := []
  drained : List Drained := []

def OrderLog.call (log : OrderLog) : OrderCall → OrderLog
  | .push opId =>
      match log.queue.push opId with
      | .error _ => log
      | .ok queue => { log with queue, accepted := log.accepted ++ [opId] }
  | .mark opId status => { log with queue := (log.queue.mark opId status).1 }
  | .flush status => { log with queue := (log.queue.flush status).1 }
  | .drain max =>
      match log.queue.drain max with
      | .error _ => log
      | .ok out => { log with queue := out.1, drained := log.drained ++ out.2 }

/-! ## What the queue is for -/

/-- An operation with the first status that reached it while it was queued. -/
abbrev Item := Nat × Option Nat

/-- A status that reaches an operation does not replace an earlier one. -/
def Item.reached (status : Nat) (item : Item) : Item := (item.1, item.2.or (some status))

def Item.ready (item : Item) : Bool := item.2.isSome

/-- All operations that were ever queued, and how many of them are gone. -/
structure Fifo where
  pushed : List Item := []
  gone : Nat := 0

namespace Fifo

def queued (fifo : Fifo) : List Item := fifo.pushed.drop fifo.gone

def output (fifo : Fifo) : List Item := fifo.pushed.take fifo.gone

def refuses (capacity : Nat) (fifo : Fifo) (opId : Nat) : Bool :=
  fifo.queued.length == capacity || fifo.queued.any fun item => item.1 == opId

def change (fifo : Fifo) (how : Item → Item) : Fifo :=
  { fifo with pushed := fifo.output ++ fifo.queued.map how }

def readyPrefix (fifo : Fifo) (max : Nat) : List Item := (fifo.queued.takeWhile Item.ready).take max

def call (capacity : Nat) (fifo : Fifo) : OrderCall → Fifo
  | .push opId =>
      if fifo.refuses capacity opId then fifo else { fifo with pushed := fifo.pushed ++ [(opId, none)] }
  | .mark opId status => fifo.change fun item => if item.1 = opId then item.reached status else item
  | .flush status => fifo.change (Item.reached status)
  | .drain max => { fifo with gone := fifo.gone + (fifo.readyPrefix max).length }

end Fifo

/-! ## The table holds the queue -/

def Item.entry (item : Item) : OrderEntry where
  opId := item.1
  status := item.2.getD 0
  occupied := true
  ready := item.ready

def Item.drained (item : Item) : Drained := ⟨item.1, item.2.getD 0⟩

/-- The queue and what it told its user agree with the operations that were queued. -/
structure Tracks (capacity : Nat) (log : OrderLog) (fifo : Fifo) : Prop where
  size : log.queue.capacity = capacity
  head : log.queue.head < capacity
  room : log.queue.count ≤ capacity
  cells : Ring.contents capacity log.queue.entries log.queue.head log.queue.count =
    fifo.queued.map Item.entry
  distinct : (fifo.queued.map Prod.fst).Nodup
  accepted : log.accepted = fifo.pushed.map Prod.fst
  drained : log.drained = fifo.output.map Item.drained
  ready : ∀ item ∈ fifo.output, item.ready = true
  gone : fifo.gone ≤ fifo.pushed.length

namespace Fifo

variable {fifo : Fifo}

theorem output_append_queued (fifo : Fifo) : fifo.output ++ fifo.queued = fifo.pushed :=
  List.take_append_drop ..

theorem length_output (gone : fifo.gone ≤ fifo.pushed.length) : fifo.output.length = fifo.gone :=
  List.length_take_of_le gone

/-- A change of the queued operations leaves those that are gone alone. -/
theorem change_output (gone : fifo.gone ≤ fifo.pushed.length) (how : Item → Item) :
    (fifo.change how).output = fifo.output ∧ (fifo.change how).queued = fifo.queued.map how := by
  have length := length_output gone
  constructor
  · exact List.take_left' length
  · exact List.drop_left' length

theorem change_fst {how : Item → Item} (kept : ∀ item, (how item).1 = item.1) :
    (fifo.change how).pushed.map Prod.fst = fifo.pushed.map Prod.fst := by
  have same : (fifo.queued.map how).map Prod.fst = fifo.queued.map Prod.fst := by
    rw [List.map_map]
    exact List.map_congr_left fun item _ => kept item
  rw [change, List.map_append, same, ← List.map_append, output_append_queued]

end Fifo

section Tracks
variable {capacity : Nat} {log : OrderLog} {fifo : Fifo}

theorem Tracks.count (tracks : Tracks capacity log fifo) : log.queue.count = fifo.queued.length := by
  have sizes := congrArg List.length tracks.cells
  rwa [Ring.contents_length, List.length_map] at sizes

theorem Tracks.index (tracks : Tracks capacity log fifo) (offset : Nat) :
    log.queue.index offset = Ring.place capacity log.queue.head offset := by
  unfold OrderQueue.index
  rw [tracks.size]
  rfl

theorem Tracks.entry (tracks : Tracks capacity log fifo) {offset : Nat} {item : Item}
    (here : fifo.queued[offset]? = some item) : log.queue.entry offset = item.entry := by
  have inside := (List.getElem?_eq_some_iff.mp here).1
  have cell := congrArg (·[offset]?) tracks.cells
  simp only [Ring.getElem?_contents (tracks.count ▸ inside), List.getElem?_map, here,
    Option.map_some] at cell
  unfold OrderQueue.entry
  rw [tracks.index]
  exact Option.some.inj cell

theorem Tracks.item (tracks : Tracks capacity log fifo) {offset : Nat}
    (inside : offset < log.queue.count) : ∃ item, fifo.queued[offset]? = some item :=
  ⟨_, List.getElem?_eq_getElem (tracks.count ▸ inside)⟩

theorem Tracks.find_some (tracks : Tracks capacity log fifo) {opId offset : Nat}
    (found : log.queue.find opId = some offset) :
    ∃ item, fifo.queued[offset]? = some item ∧ item.1 = opId := by
  have among := List.mem_range.mp (List.mem_of_find?_eq_some found)
  have same := List.find?_some found
  obtain ⟨item, here⟩ := tracks.item among
  rw [tracks.entry here] at same
  exact ⟨item, here, by simpa [Item.entry] using same⟩

theorem Tracks.find_none (tracks : Tracks capacity log fifo) {opId : Nat}
    (missing : log.queue.find opId = none) : ∀ item ∈ fifo.queued, item.1 ≠ opId := by
  intro item among same
  obtain ⟨offset, here⟩ := List.getElem?_of_mem among
  have inside := (List.getElem?_eq_some_iff.mp here).1
  have fails := List.find?_eq_none.mp missing offset (List.mem_range.mpr (tracks.count ▸ inside))
  rw [tracks.entry here] at fails
  exact fails (by simp [Item.entry, same])

theorem Tracks.refuses (tracks : Tracks capacity log fifo) (opId : Nat) :
    fifo.refuses capacity opId = true ↔
      log.queue.count = capacity ∨ (log.queue.find opId).isSome = true := by
  unfold Fifo.refuses
  rw [Bool.or_eq_true, beq_iff_eq, ← tracks.count, List.any_eq_true]
  refine or_congr Iff.rfl ⟨?_, fun found => ?_⟩
  · rintro ⟨item, among, same⟩
    by_contra missing
    exact tracks.find_none (Option.not_isSome_iff_eq_none.mp missing) item among
      (beq_iff_eq.mp same)
  · obtain ⟨offset, found⟩ := Option.isSome_iff_exists.mp found
    obtain ⟨item, here, same⟩ := tracks.find_some found
    exact ⟨item, List.mem_of_getElem? here, beq_iff_eq.mpr same⟩

/-- A change of the queued operations that the table makes too. -/
theorem Tracks.change (tracks : Tracks capacity log fifo) {entries : Nat → OrderEntry}
    {how : Item → Item} (kept : ∀ item, (how item).1 = item.1)
    (cells : Ring.contents capacity entries log.queue.head log.queue.count =
      (fifo.queued.map how).map Item.entry) :
    Tracks capacity { log with queue := { log.queue with entries } } (fifo.change how) := by
  obtain ⟨output, queued⟩ := Fifo.change_output tracks.gone how
  have ops : (fifo.queued.map how).map Prod.fst = fifo.queued.map Prod.fst := by
    rw [List.map_map]
    exact List.map_congr_left fun item _ => kept item
  have length : (fifo.change how).pushed.length = fifo.pushed.length := by
    have sizes := congrArg List.length (@Fifo.change_fst fifo how kept)
    rwa [List.length_map, List.length_map] at sizes
  refine ⟨tracks.size, tracks.head, tracks.room, ?_, ?_, ?_, ?_, ?_, ?_⟩
  · rw [queued]
    exact cells
  · rw [queued, ops]
    exact tracks.distinct
  · rw [Fifo.change_fst kept]
    exact tracks.accepted
  · rw [output]
    exact tracks.drained
  · rw [output]
    exact tracks.ready
  · rw [length]
    exact tracks.gone

theorem Tracks.push (tracks : Tracks capacity log fifo) {opId : Nat}
    (free : log.queue.count ≠ capacity) (new : log.queue.find opId = none) :
    Tracks capacity { log with
      queue := { log.queue with
        entries := Function.update log.queue.entries (log.queue.index log.queue.count)
          { occupied := true, opId }
        count := log.queue.count + 1 }
      accepted := log.accepted ++ [opId] } { fifo with pushed := fifo.pushed ++ [(opId, none)] } := by
  have room := tracks.room
  have output : ({ fifo with pushed := fifo.pushed ++ [(opId, none)] } : Fifo).output =
      fifo.output := List.take_append_of_le_length tracks.gone
  have queued : ({ fifo with pushed := fifo.pushed ++ [(opId, none)] } : Fifo).queued =
      fifo.queued ++ [(opId, none)] := List.drop_append_of_le_length tracks.gone
  refine ⟨tracks.size, tracks.head, by dsimp only; omega, ?_, ?_, ?_, ?_, ?_, ?_⟩
  · rw [queued]
    dsimp only
    rw [tracks.index, Ring.contents_snoc, Ring.contents_update_tail (by omega),
      Function.update_self, tracks.cells, List.map_append]
    rfl
  · rw [queued, List.map_append, List.nodup_append]
    refine ⟨tracks.distinct, List.pairwise_singleton .., fun first among second last => ?_⟩
    obtain ⟨item, here, rfl⟩ := List.mem_map.mp among
    rw [List.mem_singleton.mp last]
    exact tracks.find_none new item here
  · dsimp only
    rw [List.map_append, tracks.accepted]
    rfl
  · rw [output]
    exact tracks.drained
  · rw [output]
    exact tracks.ready
  · dsimp only
    rw [List.length_append]
    have gone := tracks.gone
    omega

/-- The marked operation gets the status, and it is the only one with its op_id. -/
theorem map_mark {items : List Item} (distinct : (items.map Prod.fst).Nodup) {offset : Nat}
    {item : Item} (here : items[offset]? = some item) (status : Nat) :
    items.map (fun other => if other.1 = item.1 then other.reached status else other) =
      items.set offset (item.reached status) := by
  refine List.ext_getElem? fun place => ?_
  rw [List.getElem?_map]
  by_cases same : place = offset
  · subst same
    rw [here, List.getElem?_set_self (List.getElem?_eq_some_iff.mp here).1, Option.map_some,
      if_pos rfl]
  · rw [List.getElem?_set_ne (Ne.symm same)]
    cases found : items[place]? with
    | none => rfl
    | some other =>
        have apart : other.1 ≠ item.1 := fun equal => by
          have one : (items.map Prod.fst)[place]? = some item.1 := by
            rw [List.getElem?_map, found, Option.map_some, equal]
          have two : (items.map Prod.fst)[offset]? = some item.1 := by
            rw [List.getElem?_map, here, Option.map_some]
          have inside := (List.getElem?_eq_some_iff.mp one).1
          exact same ((List.getElem?_inj inside distinct).mp (one.trans two.symm))
        rw [Option.map_some, if_neg apart]

/-- An operation that has a status keeps it. -/
theorem Item.reached_of_ready {item : Item} (ready : item.ready = true) (status : Nat) :
    item.reached status = item := by
  obtain ⟨opId, found⟩ := item
  cases found with
  | none => cases ready
  | some first => rfl

theorem Item.entry_reached {item : Item} (waits : item.ready = false) (status : Nat) :
    (item.reached status).entry = { item.entry with ready := true, status } := by
  obtain ⟨opId, found⟩ := item
  cases found with
  | none => rfl
  | some first => cases waits

theorem Item.entry_flushed (item : Item) (status : Nat) :
    (item.reached status).entry = item.entry.flushed status := by
  cases waits : item.ready with
  | true =>
      have ready : item.entry.ready = true := waits
      rw [Item.reached_of_ready waits, OrderEntry.flushed, if_pos ready]
  | false =>
      have notReady : item.entry.ready = false := waits
      rw [Item.entry_reached waits, OrderEntry.flushed, if_neg (by simp [notReady])]

theorem Tracks.mark (tracks : Tracks capacity log fifo) (positive : 0 < capacity)
    (opId status : Nat) : Tracks capacity { log with queue := (log.queue.mark opId status).1 }
      (fifo.change fun item => if item.1 = opId then item.reached status else item) := by
  have kept : ∀ item : Item, (if item.1 = opId then item.reached status else item).1 = item.1 :=
    fun item => by split <;> rfl
  have size := tracks.size
  unfold OrderQueue.mark
  rw [if_neg (by omega)]
  cases found : log.queue.find opId with
  | none =>
      have same : fifo.queued.map (fun item => if item.1 = opId then item.reached status else item) =
          fifo.queued := by
        refine (List.map_congr_left fun item among => ?_).trans (List.map_id _)
        exact if_neg (tracks.find_none found item among)
      exact tracks.change kept (by rw [same]; exact tracks.cells)
  | some offset =>
      obtain ⟨item, here, rfl⟩ := tracks.find_some found
      have inside := (List.getElem?_eq_some_iff.mp here).1
      have marked := map_mark tracks.distinct here status
      dsimp only
      rw [tracks.entry here]
      cases waits : item.ready with
      | true =>
          have ready : item.entry.ready = true := waits
          rw [if_pos ready]
          refine tracks.change kept ?_
          rw [marked, Item.reached_of_ready waits]
          have set : fifo.queued.set offset item = fifo.queued := by
            refine List.ext_getElem? fun place => ?_
            by_cases same : place = offset
            · subst same
              rw [List.getElem?_set_self inside, here]
            · rw [List.getElem?_set_ne (Ne.symm same)]
          rw [set]
          exact tracks.cells
      | false =>
          have notReady : item.entry.ready = false := waits
          rw [if_neg (by simp [notReady])]
          refine tracks.change kept ?_
          rw [marked, tracks.index, Ring.contents_update_inside (tracks.count ▸ inside) tracks.room,
            tracks.cells, List.map_set, Item.entry_reached waits]

theorem Tracks.flush (tracks : Tracks capacity log fifo) (positive : 0 < capacity) (status : Nat) :
    Tracks capacity { log with queue := (log.queue.flush status).1 }
      (fifo.change (Item.reached status)) := by
  have size := tracks.size
  unfold OrderQueue.flush
  rw [if_neg (by omega)]
  refine tracks.change (fun _ => rfl) ?_
  have changed := @Ring.contents_foldl_update _ capacity log.queue.head log.queue.count
    log.queue.entries (OrderEntry.flushed status) tracks.room
  simp only [tracks.index]
  rw [changed, tracks.cells, List.map_map, List.map_map]
  exact List.map_congr_left fun item _ => (Item.entry_flushed item status).symm

/-! ## The drain -/

theorem Tracks.pop (tracks : Tracks capacity log fifo) (positive : 0 < capacity) {item : Item}
    {rest : List Item} (first : fifo.queued = item :: rest) (ready : item.ready = true) :
    Tracks capacity { log with
      queue := { log.queue with
        entries := Function.update log.queue.entries log.queue.head {}
        head := (log.queue.head + 1) % log.queue.capacity
        count := log.queue.count - 1 }
      drained := log.drained ++ [item.drained] } { fifo with gone := fifo.gone + 1 } := by
  have gone := tracks.gone
  have room := tracks.room
  have counted : log.queue.count = rest.length + 1 := by
    rw [tracks.count, first]
    rfl
  have more : fifo.gone < fifo.pushed.length := by
    have sizes := congrArg List.length first
    unfold Fifo.queued at sizes
    rw [List.length_drop, List.length_cons] at sizes
    omega
  have at_gone : fifo.pushed[fifo.gone]? = some item := by
    have head := congrArg List.head? first
    unfold Fifo.queued at head
    rwa [List.head?_drop] at head
  have output : ({ fifo with gone := fifo.gone + 1 } : Fifo).output = fifo.output ++ [item] := by
    unfold Fifo.output
    rw [List.take_add_one, at_gone]
    rfl
  have queued : ({ fifo with gone := fifo.gone + 1 } : Fifo).queued = rest := by
    unfold Fifo.queued at first ⊢
    rw [← List.drop_drop, first]
    rfl
  have place : Ring.place capacity log.queue.head 0 = log.queue.head := Ring.place_zero tracks.head
  have cells := tracks.cells
  rw [counted, Ring.contents_pop, first, List.map_cons] at cells
  refine ⟨tracks.size, ?_, by dsimp only; omega, ?_, ?_, tracks.accepted, ?_, ?_, by
    dsimp only; omega⟩
  · dsimp only
    rw [tracks.size]
    exact Nat.mod_lt _ positive
  · have cleared := @Ring.contents_update_head _ capacity log.queue.head rest.length
      log.queue.entries {} (by omega)
    rw [place] at cleared
    rw [queued]
    dsimp only
    rw [counted, tracks.size, Nat.add_sub_cancel, cleared]
    exact (List.cons.inj cells).2
  · rw [queued]
    have distinct := tracks.distinct
    rw [first, List.map_cons, List.nodup_cons] at distinct
    exact distinct.2
  · rw [output, List.map_append, ← tracks.drained]
    rfl
  · rw [output]
    intro other among
    rcases List.mem_append.mp among with old | new
    · exact tracks.ready other old
    · rw [List.mem_singleton.mp new]
      exact ready

structure DrainsPrefix (capacity max : Nat) (log : OrderLog) (fifo : Fifo) : Prop where
  told : (OrderQueue.drainLoop max log.queue).2 = (fifo.readyPrefix max).map Item.drained
  after : Tracks capacity { log with
    queue := (OrderQueue.drainLoop max log.queue).1
    drained := log.drained ++ (fifo.readyPrefix max).map Item.drained }
    { fifo with gone := fifo.gone + (fifo.readyPrefix max).length }

theorem Tracks.stop (tracks : Tracks capacity log fifo) {max : Nat}
    (nothing : fifo.readyPrefix max = [])
    (ends : OrderQueue.drainLoop max log.queue = (log.queue, [])) :
    DrainsPrefix capacity max log fifo := by
  refine ⟨by rw [nothing, ends]; rfl, ?_⟩
  rw [nothing, ends, List.map_nil, List.append_nil]
  exact tracks

theorem Tracks.drainLoop (tracks : Tracks capacity log fifo) (positive : 0 < capacity) (max : Nat) :
    DrainsPrefix capacity max log fifo := by
  induction max generalizing log fifo with
  | zero => exact tracks.stop List.take_zero rfl
  | succ max ih =>
      have count := tracks.count
      cases first : fifo.queued with
      | nil =>
          have empty : log.queue.count = 0 := by
            rw [count, first]
            rfl
          refine tracks.stop ?_ ?_
          · rw [Fifo.readyPrefix, first]
            rfl
          · rw [OrderQueue.drainLoop, if_pos empty]
      | cons item rest =>
          have nonempty : log.queue.count ≠ 0 := by
            rw [count, first]
            exact Nat.succ_ne_zero _
          have place : log.queue.index 0 = log.queue.head := by
            rw [tracks.index, Ring.place_zero tracks.head]
          have here : log.queue.entries log.queue.head = item.entry := by
            have entry := tracks.entry (by rw [first]; rfl : fifo.queued[0]? = some item)
            rwa [OrderQueue.entry, place] at entry
          have occupied : item.entry.occupied = true := rfl
          have flag : item.entry.ready = item.ready := rfl
          cases ready : item.ready with
          | false =>
              refine tracks.stop ?_ ?_
              · rw [Fifo.readyPrefix, first, List.takeWhile_cons_of_neg (by simp [ready])]
                rfl
              · rw [OrderQueue.drainLoop, if_neg nonempty, here]
                dsimp only
                rw [occupied, flag, ready]
                rfl
          | true =>
              obtain ⟨told, after⟩ := ih (tracks.pop positive first ready)
              have queued : ({ fifo with gone := fifo.gone + 1 } : Fifo).queued = rest := by
                unfold Fifo.queued at first ⊢
                rw [← List.drop_drop, first]
                rfl
              have pref : fifo.readyPrefix (max + 1) =
                  item :: ({ fifo with gone := fifo.gone + 1 } : Fifo).readyPrefix max := by
                rw [Fifo.readyPrefix, first, List.takeWhile_cons_of_pos ready, List.take_succ_cons,
                  Fifo.readyPrefix, queued]
              have goes : OrderQueue.drainLoop (max + 1) log.queue =
                  let next := { log.queue with
                    entries := Function.update log.queue.entries log.queue.head {}
                    head := (log.queue.head + 1) % log.queue.capacity
                    count := log.queue.count - 1 }
                  ((OrderQueue.drainLoop max next).1,
                    item.drained :: (OrderQueue.drainLoop max next).2) := by
                rw [OrderQueue.drainLoop, if_neg nonempty, here]
                dsimp only
                rw [occupied, flag, ready]
                rfl
              refine ⟨?_, ?_⟩
              · rw [goes, pref, List.map_cons]
                exact congrArg _ told
              · rw [goes, pref, List.map_cons, List.length_cons]
                dsimp only at after ⊢
                rwa [List.append_assoc, List.singleton_append, Nat.add_assoc,
                  Nat.add_comm 1] at after

/-- A drain, with the head reset when the queue is empty. -/
theorem Tracks.drain (tracks : Tracks capacity log fifo) (positive : 0 < capacity) (max : Nat) :
    ∃ queue, log.queue.drain max = .ok (queue, (fifo.readyPrefix max).map Item.drained) ∧
      Tracks capacity { log with
        queue, drained := log.drained ++ (fifo.readyPrefix max).map Item.drained }
        { fifo with gone := fifo.gone + (fifo.readyPrefix max).length } := by
  have size := tracks.size
  obtain ⟨told, after⟩ := tracks.drainLoop positive max
  unfold OrderQueue.drain
  rw [if_neg (by omega)]
  dsimp only
  rw [told]
  refine ⟨_, rfl, ?_⟩
  split
  · rename_i empty
    have cells := after.cells
    dsimp only at cells
    rw [empty, Ring.contents_zero] at cells
    refine ⟨after.size, positive, after.room, ?_, after.distinct, after.accepted, after.drained,
      after.ready, after.gone⟩
    dsimp only
    rw [empty, Ring.contents_zero]
    exact cells
  · exact after

/-! ## Whole histories -/

theorem Tracks.call (tracks : Tracks capacity log fifo) (positive : 0 < capacity)
    (call : OrderCall) : Tracks capacity (log.call call) (fifo.call capacity call) := by
  have size := tracks.size
  cases call with
  | push opId =>
      have refuses := tracks.refuses opId
      unfold OrderLog.call Fifo.call OrderQueue.push
      dsimp only
      rw [if_neg (by omega : log.queue.capacity ≠ 0)]
      by_cases full : log.queue.count = capacity
      · rw [if_pos (full.trans size.symm), if_pos (refuses.mpr (.inl full))]
        exact tracks
      rw [if_neg (size ▸ full)]
      by_cases again : (log.queue.find opId).isSome = true
      · rw [if_pos again, if_pos (refuses.mpr (.inr again))]
        exact tracks
      rw [if_neg again, if_neg fun refused => (refuses.mp refused).elim full again]
      exact tracks.push full (Option.not_isSome_iff_eq_none.mp again)
  | mark opId status => exact tracks.mark positive opId status
  | flush status => exact tracks.flush positive status
  | drain max =>
      obtain ⟨queue, drained, after⟩ := tracks.drain positive max
      unfold OrderLog.call Fifo.call
      dsimp only
      rw [drained]
      exact after

/-! ## What the user is told -/

theorem Tracks.mem_ops (tracks : Tracks capacity log fifo) (opId : Nat) :
    opId ∈ fifo.queued.map Prod.fst ↔ (log.queue.find opId).isSome = true := by
  refine ⟨fun among => ?_, fun found => ?_⟩
  · obtain ⟨item, here, same⟩ := List.mem_map.mp among
    by_contra missing
    exact tracks.find_none (Option.not_isSome_iff_eq_none.mp missing) item here same
  · obtain ⟨offset, found⟩ := Option.isSome_iff_exists.mp found
    obtain ⟨item, here, same⟩ := tracks.find_some found
    exact List.mem_map.mpr ⟨item, List.mem_of_getElem? here, same⟩

theorem Tracks.push_refused (tracks : Tracks capacity log fifo) (positive : 0 < capacity)
    (opId : Nat) : (log.queue.push opId).toOption = none ↔
      fifo.queued.length = capacity ∨ opId ∈ fifo.queued.map Prod.fst := by
  rw [tracks.mem_ops, ← tracks.count, OrderQueue.push, tracks.size, if_neg (by omega)]
  by_cases full : log.queue.count = capacity
  · rw [if_pos full]
    exact iff_of_true rfl (.inl full)
  rw [if_neg full]
  by_cases again : (log.queue.find opId).isSome = true
  · rw [if_pos again]
    exact iff_of_true rfl (.inr again)
  rw [if_neg again]
  exact iff_of_false nofun fun refused => refused.elim full again

/-- What a mark returns, and what it leaves alone. -/
structure MarkedOnly (q : OrderQueue) (queued : List Item) (opId status : Nat) : Prop where
  missing : (q.mark opId status).2 = some .enoent ↔ opId ∉ queued.map Prod.fst
  again : (q.mark opId status).2 = some .ealready ↔ ∃ old, old ≠ status ∧ (opId, some old) ∈ queued
  returns : (q.mark opId status).2 ∈ [none, some .enoent, some .ealready]
  refused : (q.mark opId status).2 ≠ none → (q.mark opId status).1 = q
  counters : (q.mark opId status).1.head = q.head ∧ (q.mark opId status).1.count = q.count ∧
    (q.mark opId status).1.capacity = q.capacity
  others : ∀ cell, (q.mark opId status).1.entries cell ≠ q.entries cell →
    ∃ offset < q.count, q.index offset = cell ∧ (q.entry offset).opId = opId

theorem Tracks.markedOnly (tracks : Tracks capacity log fifo) (positive : 0 < capacity)
    (opId status : Nat) : MarkedOnly log.queue fifo.queued opId status := by
  have size := tracks.size
  cases found : log.queue.find opId with
  | none =>
      have marks : log.queue.mark opId status = (log.queue, some .enoent) := by
        rw [OrderQueue.mark, if_neg (by omega), found]
      have apart := tracks.find_none found
      refine ⟨?_, ?_, ?_, ?_, ?_, ?_⟩ <;> rw [marks]
      · rw [tracks.mem_ops, found]
        exact iff_of_true rfl nofun
      · exact iff_of_false nofun fun ⟨old, _, among⟩ => apart _ among rfl
      · simp
      · exact fun _ => rfl
      · exact ⟨rfl, rfl, rfl⟩
      · exact fun cell changed => absurd rfl changed
  | some offset =>
      obtain ⟨item, here, rfl⟩ := tracks.find_some found
      have among := List.mem_of_getElem? here
      have queued : item.1 ∈ fifo.queued.map Prod.fst := List.mem_map_of_mem among
      -- the op_ids in the queue are distinct
      have only : ∀ old, (item.1, some old) ∈ fifo.queued → item.2 = some old := fun old other =>
        congrArg Prod.snd (List.inj_on_of_nodup_map tracks.distinct among other rfl)
      have flag : item.entry.ready = item.2.isSome := rfl
      cases known : item.2 with
      | some old =>
          have marks : log.queue.mark item.1 status =
              (log.queue, if old = status then none else some .ealready) := by
            rw [OrderQueue.mark, if_neg (by omega), found]
            dsimp only
            rw [tracks.entry here, flag, known, Item.entry, known]
            rfl
          refine ⟨?_, ?_, ?_, ?_, ?_, ?_⟩ <;> rw [marks]
          · refine iff_of_false ?_ fun absent => absent queued
            dsimp only
            split <;> nofun
          · dsimp only
            split
            · rename_i same
              refine iff_of_false nofun fun ⟨other, differs, mem⟩ => differs ?_
              rw [← same]
              exact Option.some.inj ((only other mem).symm.trans known)
            · rename_i differs
              exact iff_of_true rfl ⟨old, differs, by rw [← known]; exact among⟩
          · dsimp only
            split <;> simp
          · exact fun _ => rfl
          · exact ⟨rfl, rfl, rfl⟩
          · exact fun cell changed => absurd rfl changed
      | none =>
          have marks : log.queue.mark item.1 status = ({ log.queue with
              entries := Function.update log.queue.entries (log.queue.index offset)
                { item.entry with ready := true, status } }, none) := by
            rw [OrderQueue.mark, if_neg (by omega), found]
            dsimp only
            rw [tracks.entry here, flag, known]
            rfl
          refine ⟨?_, ?_, ?_, ?_, ?_, ?_⟩ <;> rw [marks]
          · exact iff_of_false nofun fun absent => absent queued
          · refine iff_of_false nofun fun ⟨old, _, mem⟩ => ?_
            rw [only old mem] at known
            cases known
          · simp
          · exact fun told => absurd rfl told
          · exact ⟨rfl, rfl, rfl⟩
          · intro cell changed
            refine ⟨offset, tracks.count ▸ (List.getElem?_eq_some_iff.mp here).1, ?_, ?_⟩
            · by_contra elsewhere
              exact changed (Function.update_of_ne (Ne.symm elsewhere) _ _)
            · rw [tracks.entry here]
              rfl

end Tracks

theorem tracks_init {capacity : Nat} {q : OrderQueue} (init : orderInit capacity = .ok q) :
    0 < capacity ∧ Tracks capacity ⟨q, [], []⟩ {} := by
  unfold orderInit at init
  split at init
  · cases init
  · rename_i valid
    cases init
    have positive : 0 < capacity := by omega
    exact ⟨positive, rfl, positive, Nat.zero_le _, rfl, List.nodup_nil, rfl, rfl, nofun,
      Nat.le_refl _⟩

theorem tracks_calls {capacity : Nat} {q : OrderQueue} (init : orderInit capacity = .ok q)
    (calls : List OrderCall) : Tracks capacity (calls.foldl OrderLog.call ⟨q, [], []⟩)
      (calls.foldl (Fifo.call capacity) {}) := by
  obtain ⟨positive, tracks⟩ := tracks_init init
  generalize (⟨q, [], []⟩ : OrderLog) = log, ({} : Fifo) = fifo at tracks ⊢
  induction calls generalizing log fifo with
  | nil => exact tracks
  | cons call rest ih => exact ih _ _ (tracks.call positive call)

/-- In every history the queue is a FIFO: what was drained is a prefix of what was accepted, with
the first status that reached each operation while it was queued. -/
theorem order_queue_is_fifo {capacity : Nat} {q : OrderQueue} (init : orderInit capacity = .ok q)
    (calls : List OrderCall) :
    let log := calls.foldl OrderLog.call ⟨q, [], []⟩
    let fifo := calls.foldl (Fifo.call capacity) {}
    log.accepted = fifo.pushed.map Prod.fst ∧
      log.drained = fifo.output.map Item.drained ∧
      (∀ item ∈ fifo.output, item.ready = true) ∧
      log.drained.map Drained.opId <+: log.accepted ∧
      (∀ opId, (log.queue.push opId).toOption = none ↔
        fifo.queued.length = capacity ∨ opId ∈ fifo.queued.map Prod.fst) ∧
      (∀ opId status, MarkedOnly log.queue fifo.queued opId status) ∧
      ∀ max, ∃ queue,
        log.queue.drain max = .ok (queue, (fifo.readyPrefix max).map Item.drained) := by
  have positive := (tracks_init init).1
  have tracks := tracks_calls init calls
  dsimp only
  refine ⟨tracks.accepted, tracks.drained, tracks.ready, ?_, tracks.push_refused positive,
    tracks.markedOnly positive, fun max => ?_⟩
  · rw [tracks.accepted, tracks.drained, List.map_map]
    exact (List.take_prefix _ _).map _
  · obtain ⟨queue, drained, _⟩ := tracks.drain positive max
    exact ⟨queue, drained⟩

/-- Operation 7 comes back after it was drained, and waits behind operation 9. -/
theorem order_queue_is_fifo_again :
    ∃ q, orderInit 2 = .ok q ∧
      ([.push 7, .mark 7 0, .drain 4, .push 9, .push 7, .mark 7 5, .drain 4].foldl
        (OrderLog.call) ⟨q, [], []⟩).accepted = [7, 9, 7] :=
  ⟨{ capacity := 2 }, rfl,
    (@order_queue_is_fifo 2 _ rfl
      [.push 7, .mark 7 0, .drain 4, .push 9, .push 7, .mark 7 5, .drain 4]).1.trans rfl⟩

end Tbv.Reliab
