import ThunderboltIbverbs.Tx.Kinds
import ThunderboltIbverbs.Lib.Trail

/-! # The load of a rail

`tbv_rail_pending_data_frames` is the difference of two statistics: a packet is counted when it
is enqueued and again when the ring completes it.  A packet that leaves in another way stays in
the difference for good, and the rail looks busier than it is to the next queue pair. -/
set_option autoImplicit false
namespace Tbv.Tx

open Threads Trans

def u32Max : Nat := 2 ^ 32 - 1

def dataUnit (pkt : TxPacket) : Nat := if pkt.control then 0 else 1

/-- What a step adds to `data_tx_enqueued`: the data packets whose enqueue returns 0. -/
def enqueues (p next : Path) : Nat := ((next.owed.drop p.owed.length).map dataUnit).sum

/-- What a frame adds to `data_tx_completed`. -/
def completes (p : Path) : Frame → Nat
  | .callback desc false => ((p.descPacket desc).map dataUnit).getD 0
  | _ => 0

/-- A path with its two counters. -/
structure Metered where
  st : St
  dataTxEnqueued : Nat := 0
  dataTxCompleted : Nat := 0

def meter (m : Metered) (label : Lbl) : Option Metered :=
  (step m.st label).map fun next =>
    { st := next
      dataTxEnqueued := m.dataTxEnqueued + enqueues m.st.shared next.shared
      dataTxCompleted := m.dataTxCompleted + match label with
        | .run thread _ => ((m.st.top thread).map (completes m.st.shared)).getD 0
        | .event _ => 0 }

def unused (cfg : Config) : Metered := { st := start cfg }

def Metered.pendingDataFrames (m : Metered) : Nat :=
  let pending : Int := (m.dataTxEnqueued : Int) - m.dataTxCompleted
  if pending ≤ 0 then 0 else if (u32Max : Int) < pending then u32Max else pending.toNat

/-- The data packets that are queued or submitted and not retired. -/
def Path.dataLoad (p : Path) : Nat :=
  p.txDataQueue.length + (p.ring.map fun desc => dataUnit desc.pkt).sum

/-- No thread submits a packet or gives a descriptor back. -/
def Idle (st : St) : Prop := ∀ frame, st.Has frame → inflightWeight frame = 0

/-- The data packets that leave the path with the frame, other than completed by the ring. -/
def drops (p : Path) : Frame → Nat
  | .takeBack hand ret => if p.requeues hand.pkt ret then 0 else dataUnit hand.pkt
  | .callback desc true => ((p.descPacket desc).map dataUnit).getD 0
  | .cancel m => (p.txDataQueue.filter m.covers).length
  | .cancelQueued _ | .flush => p.txDataQueue.length
  | _ => 0

def droppedBy (m : Metered) : Lbl → Option Nat
  | .event _ => none
  | .run thread _ =>
      let count := ((m.st.top thread).map (drops m.st.shared)).getD 0
      if count = 0 then none else some count

/-- Every data packet that leaves the path with the step is completed by the ring. -/
def Completes (m : Metered) (label : Lbl) : Prop := droppedBy m label = none

instance (m : Metered) (label : Lbl) : Decidable (Completes m label) :=
  inferInstanceAs (Decidable (_ = none))

/-! ## What a step moves -/

def dataWeight : Frame → Nat
  | .attach hand | .ringTx hand | .detach hand _ | .takeBack hand _ => dataUnit hand.pkt
  | .callback desc _ => dataUnit desc.pkt
  | _ => 0

theorem dataWeight_le (frame : Frame) : dataWeight frame ≤ inflightWeight frame := by
  have unit : ∀ pkt, dataUnit pkt ≤ 1 := fun pkt => by
    unfold dataUnit
    split <;> omega
  cases frame <;> simp [dataWeight, inflightWeight, unit]

theorem sum_dataUnit {pkts : List TxPacket} (data : ∀ pkt ∈ pkts, pkt.control = false) :
    (pkts.map dataUnit).sum = pkts.length := by
  have ones : pkts.map dataUnit = List.replicate pkts.length 1 := by
    rw [← List.map_const']
    exact List.map_congr_left fun pkt among => by simp [dataUnit, data pkt among]
  simp [ones]

section Exec
variable {p p' : Path} {frame : Frame} {choice : Choice} {pushed : List Frame}

theorem exec_load (kinds : KindsOf p)
    (finds : ∀ desc canceled, frame = .callback desc canceled → p.descPacket desc = some desc.pkt)
    (ran : exec p frame choice = some (p', pushed)) :
    p'.dataLoad + weigh dataWeight pushed + completes p frame + drops p frame =
      p.dataLoad + dataWeight frame := by
  have released : ∀ pkt status, dataWeight (.release pkt status) = 0 := fun _ _ => rfl
  cases frame with
  | iterate =>
      rcases execIterate_cases ran with ⟨rfl, rfl⟩ | ⟨fromControlQueue, pkt, -, chosen, -, rfl, rfl⟩
      · simp [Path.stop, dataWeight, Path.dataLoad, completes, drops]
      · have same : (p.dequeue fromControlQueue pkt).2.pkt.control = pkt.control := by
          obtain ⟨counted, is⟩ := dequeue_packet p fromControlQueue pkt
          rw [is]
        rcases choose_cases chosen with ⟨rfl, -, rest, queue⟩ | ⟨rfl, rest, queue⟩
        · have control := (kinds.control pkt (queue ▸ List.mem_cons_self ..)).1
          simp only [Path.dataLoad, dataWeight, dataUnit, same, control, completes, drops, weigh_cons,
            weigh_nil]
          simp [Path.dequeue]
        · have data := (kinds.data pkt (queue ▸ List.mem_cons_self ..)).1
          simp only [Path.dataLoad, dataWeight, dataUnit, same, data, completes, drops, weigh_cons,
            weigh_nil]
          simp [Path.dequeue, queue]
          omega
  | takeBack hand ret =>
      have undone : (p.undo hand).dataLoad = p.dataLoad := rfl
      have same : p.requeues { hand.pkt with rawStreamCounted := false } ret =
          p.requeues hand.pkt ret := rfl
      simp only [exec, execTakeBack, same] at ran
      split at ran
      · rename_i again
        split at ran
        · rename_i control
          cases ran
          simp only [drops, again, if_true, dataWeight, dataUnit, if_pos control, completes]
          simp [Path.putBackControl, Path.dataLoad, Path.undo, dataWeight]
        · rename_i data
          cases ran
          simp only [drops, again, if_true, dataWeight, dataUnit, if_neg data, completes]
          simp [Path.putBackData, Path.dataLoad, Path.undo, dataWeight]
          omega
      · rename_i gone
        cases ran
        simp only [drops, if_neg gone, completes, dataWeight, undone]
        split <;> simp [dataWeight]
  | cancel m =>
      cases ran
      rw [weigh_append, weigh_releases_zero _ released]
      have parts := List.length_eq_length_filter_add m.covers (l := p.txDataQueue)
      simp only [Path.dataLoad, drops, completes, dataWeight]
      split <;> simp [dataWeight] <;> omega
  | cancelQueued status =>
      cases ran
      rw [weigh_releases_zero _ released]
      simp [Path.dataLoad, Path.emptyQueues, drops, completes, dataWeight]
      omega
  | flush =>
      cases ran
      rw [weigh_append, weigh_releases_zero _ released]
      simp [Path.dataLoad, Path.emptyQueues, drops, completes, dataWeight]
      omega
  | attach hand =>
      simp only [exec, execAttach] at ran
      split at ran <;> cases ran <;> simp [dataWeight, Path.dataLoad, completes, drops]
  | ringTx hand =>
      simp only [exec, execRingTx] at ran
      repeat' split at ran
      all_goals cases ran
      all_goals simp [dataWeight, Path.dataLoad, completes, drops]
      omega
  | callback desc canceled =>
      have freed : (p.freeDesc desc).dataLoad = p.dataLoad := by
        unfold Path.freeDesc
        split <;> rfl
      have found := finds desc canceled rfl
      rcases execCallback_cases ran with ⟨missing, -, -⟩ | ⟨pkt, is, rfl, rfl⟩
      · rw [found] at missing
        cases missing
      · have noted : ((p.freeDesc desc).noteRetired pkt.id canceled).dataLoad = p.dataLoad := freed
        rw [noted]
        cases canceled <;> simp [completes, drops, dataWeight, found]
  | schedule | detach hand ret | finishRawStream pkt | release pkt status | stopScheduling
  | completed pkt canceled | disableTunnel | ringStop | ringStopped | inflightDec =>
      simp only [exec] at ran
      repeat' split at ran
      all_goals cases ran
      all_goals simp [dataWeight, Path.dataLoad, Path.stop, completes, drops]

/-- A frame takes nothing over. -/
theorem exec_enqueues (ran : exec p frame choice = some (p', pushed)) : enqueues p p' = 0 := by
  simp [enqueues, (exec_keeps ran).owed]

end Exec

theorem reacts_load {p p' : Path} {code : List Frame} (reacts : Reacts p p' code) :
    p'.dataLoad + weigh dataWeight code = p.dataLoad + enqueues p p' := by
  cases reacts with
  | @sendControl pkt ids fresh copied plain admits =>
      have control := (fresh pkt (List.mem_singleton_self _)).1
      simp [Path.take, Path.dataLoad, enqueues, dataUnit, control, dataWeight]
  | @sendData pkts queued reserved ids fresh group same uncounted admits room =>
      have units : (pkts.map dataUnit).sum = queued.length := by
        rw [sum_dataUnit fun pkt among => (fresh pkt among).1, ← same, List.length_map]
      simp [Path.take, Path.dataLoad, enqueues, units, dataWeight]
      omega
  | fail ids fresh each error =>
      rw [weigh_calls_zero fun _ _ => rfl]
      simp [Path.fail, Path.dataLoad, enqueues]
  | retire canceled found =>
      have moved := sum_eraseIdx (fun desc => dataUnit desc.pkt) found
      simp only [Path.dataLoad, enqueues, weigh_cons, weigh_nil, dataWeight, List.drop_length,
        List.map_nil, List.sum_nil]
      omega
  | _ => simp [Path.refuse, Path.dataLoad, enqueues, dataWeight]

/-! ## Runs -/

/-- Every data packet that was enqueued is completed, on the path, in the hands of a thread or
dropped. -/
structure Metering (dropped : List Nat) (m : Metered) : Prop where
  books : Books m.st
  kinds : Kinds m.st
  positive : ∀ count ∈ dropped, 0 < count
  balance : m.dataTxEnqueued =
    m.dataTxCompleted + m.st.shared.dataLoad + m.st.total dataWeight + dropped.sum

section Runs
variable {dropped : List Nat} {m next : Metered} {label : Lbl}

theorem metering_unused (cfg : Config) : Metering [] (unused cfg) where
  books := books_start cfg
  kinds := kinds_start cfg
  positive := nofun
  balance := rfl

theorem droppedBy_sum {thread : Nat} {choice : Choice} :
    ((droppedBy m (.run thread choice)).toList).sum =
      ((m.st.top thread).map (drops m.st.shared)).getD 0 := by
  simp only [droppedBy]
  split <;> simp [*]

theorem droppedBy_pos : ∀ count ∈ (droppedBy m label).toList, 0 < count := by
  intro count among
  cases label with
  | event event => cases among
  | run thread choice =>
      simp only [droppedBy] at among
      split at among
      · cases among
      · cases Option.mem_toList.mp among
        omega

theorem Metering.step (metering : Metering dropped m) (stepped : meter m label = some next) :
    Metering (dropped ++ (droppedBy m label).toList) next := by
  simp only [meter, Option.map_eq_some_iff] at stepped
  obtain ⟨st, stepped, rfl⟩ := stepped
  refine ⟨metering.books.step stepped, metering.kinds.step stepped,
    List.forall_mem_append.mpr ⟨metering.positive, droppedBy_pos⟩, ?_⟩
  have balance := metering.balance
  cases label with
  | event event =>
      obtain ⟨p, code, reacted, rfl⟩ := step_event stepped
      have moved := reacts_load (react_cases reacted)
      rw [State.total_event]
      simp only [droppedBy, Option.toList_none, List.append_nil]
      omega
  | run thread choice =>
      obtain ⟨frame, rest, p, pushed, found, executed, rfl⟩ := step_run stepped
      have has := State.has_of_top found
      have moved := exec_load metering.kinds.path (fun desc canceled is =>
        metering.books.table.finds desc (.inr ⟨_, has, by rw [is]; rfl⟩)) executed
      have total := @State.total_run _ _ m.st dataWeight _ _ _ pushed p found
      have held := State.weight_le_total dataWeight has
      dsimp only
      rw [List.sum_append, droppedBy_sum, State.top_of_getElem? found, exec_enqueues executed]
      simp only [Option.map_some, Option.getD_some]
      omega

theorem Metering.idle (metering : Metering dropped m) (idle : Idle m.st) :
    m.dataTxEnqueued = m.dataTxCompleted + (m.st.shared.dataLoad + dropped.sum) := by
  have nothing : m.st.total dataWeight = 0 := by
    refine State.total_eq_zero.mpr fun frame has => ?_
    have light := dataWeight_le frame
    have rests := idle frame has
    omega
  have balance := metering.balance
  omega

theorem pendingDataFrames_of_eq {pending : Nat}
    (is : m.dataTxEnqueued = m.dataTxCompleted + pending) :
    m.pendingDataFrames = min pending u32Max := by
  unfold Metered.pendingDataFrames
  dsimp only
  split
  · omega
  · split <;> omega

/-- The metric is the load as long as nothing was dropped. -/
theorem Metering.exact_iff (metering : Metering dropped m) (idle : Idle m.st)
    (fits : m.st.shared.dataLoad < u32Max) :
    m.pendingDataFrames = m.st.shared.dataLoad ↔ dropped = [] := by
  rw [pendingDataFrames_of_eq (metering.idle idle)]
  constructor
  · intro exact
    cases dropped with
    | nil => rfl
    | cons count rest =>
        have positive := metering.positive count (List.mem_cons_self ..)
        simp only [List.sum_cons] at exact
        omega
  · rintro rfl
    simp only [List.sum_nil]
    omega

end Runs

theorem pending_exact_iff {cfg : Config} {labels : List Lbl} {m : Metered}
    (ran : run meter labels (unused cfg) = some m) (idle : Idle m.st)
    (fits : m.st.shared.dataLoad < u32Max) :
    m.pendingDataFrames = m.st.shared.dataLoad ↔ Meets meter Completes labels (unused cfg) := by
  have metering := @run_trail_invariant _ _ _ meter _ droppedBy _ _ Metering
    (fun metering _ taken => metering.step taken) [] m (metering_unused cfg) (meets_free labels _) ran
  rw [metering.exact_iff idle fits]
  exact trail_eq_nil_iff ran

end Tbv.Tx
