import ThunderboltIbverbs.Tx.Kinds

/-! # The counters describe the queues

The bound on the data queue holds as long as no refused packet is put back on a queue whose
space has been taken since; everything else holds in every run. -/
set_option autoImplicit false
namespace Tbv.Tx

open Threads Trans
open NativePath (enomem)

def FreeOnce (p : Path) (i : Nat) : Prop :=
  p.txFree.count i = 1 ∧ ∀ desc ∈ p.ring, desc.frame ≠ some i

/-- Attached to exactly one submitted packet. -/
def SubmittedOnce (p : Path) (i : Nat) : Prop :=
  i ∉ p.txFree ∧ ∃ desc, p.ring.filter (fun desc => desc.frame == some i) = [desc] ∧
    p.txFrames i = some desc.pkt

/-- A thread submits a packet or gives a descriptor back. -/
def inProgress (frame : Frame) : Bool := inflightWeight frame == 1

/-- What the counters and lists of a path say. -/
structure Describes (st : St) : Prop where
  control : st.shared.txControlQueued = st.shared.txControlQueue.length
  data : st.shared.txDataQueued = st.shared.txDataQueue.length
  limit : st.shared.txDataQueued + st.shared.txDataReserved ≤ st.shared.txDataQueueLimit
  staging : ∀ i < st.shared.txFrameCount, FreeOnce st.shared i ∨ SubmittedOnce st.shared i ∨
    i ∉ st.shared.txFree ∧ (∀ desc ∈ st.shared.ring, desc.frame ≠ some i) ∧
      ∃ frame desc, st.Has frame ∧ inProgress frame = true ∧ descOf frame = some desc ∧
        desc.frame = some i
  zcopy : ∀ desc ∈ st.shared.ring, desc.pkt.zcopy = true →
    (st.shared.txZcopyInflight.map TxPacket.id).count desc.pkt.id = 1
  inflight : (∀ frame, st.Has frame → inProgress frame = false) →
    st.shared.txInflight = st.shared.ring.length

/-- The step puts a refused data packet back on its queue. -/
def putsBack (st : St) : Lbl → Bool
  | .run thread _ =>
      match st.top thread with
      | some (.takeBack hand ret) =>
          !hand.pkt.control && st.shared.requeues { hand.pkt with rawStreamCounted := false } ret
      | _ => false
  | .event _ => false

/-- There is room for the packet that is put back. -/
def Fits (st : St) (label : Lbl) : Prop :=
  putsBack st label = true →
    st.shared.txDataQueued + st.shared.txDataReserved < st.shared.txDataQueueLimit

instance (st : St) (label : Lbl) : Decidable (Fits st label) :=
  inferInstanceAs (Decidable (_ = true → _))

/-! ## The queues -/

structure Counts (p : Path) : Prop where
  control : p.txControlQueued = p.txControlQueue.length
  data : p.txDataQueued = p.txDataQueue.length

theorem Counts.event {p p' : Path} {code : List Frame} (counts : Counts p)
    (reacts : Reacts p p' code) : Counts p' := by
  cases reacts with
  | sendControl ids fresh copied plain admits =>
      exact ⟨by simp [Path.take, counts.control], counts.data⟩
  | sendData ids fresh group same uncounted admits room =>
      exact ⟨counts.control, by simp [Path.take, counts.data]⟩
  | _ => exact ⟨counts.control, counts.data⟩

theorem Counts.run {p p' : Path} {frame : Frame} {choice : Choice} {pushed : List Frame}
    (counts : Counts p) (ran : exec p frame choice = some (p', pushed)) : Counts p' := by
  cases frame with
  | iterate =>
      rcases execIterate_cases ran with ⟨rfl, rfl⟩ | ⟨_, _, -, chosen, -, rfl, rfl⟩
      · exact ⟨counts.control, counts.data⟩
      · rcases choose_cases chosen with ⟨rfl, -, rest, queue⟩ | ⟨rfl, rest, queue⟩
        · exact ⟨by simp [Path.dequeue, counts.control, queue], counts.data⟩
        · exact ⟨counts.control, by simp [Path.dequeue, counts.data, queue]⟩
  | takeBack hand ret =>
      rcases execTakeBack_cases ran with ⟨-, rfl, -, rfl⟩ | ⟨-, rfl, -, rfl⟩ | ⟨rfl, rfl⟩
      · exact ⟨by simp [Path.putBackControl, Path.undo, counts.control], counts.data⟩
      · exact ⟨counts.control, by simp [Path.putBackData, Path.undo, counts.data]⟩
      · exact ⟨counts.control, counts.data⟩
  | callback desc canceled =>
      have freed : Counts (p.freeDesc desc) := by
        unfold Path.freeDesc
        split <;> exact ⟨counts.control, counts.data⟩
      rcases execCallback_cases ran with ⟨-, rfl, -⟩ | ⟨pkt, -, rfl, -⟩
      · exact freed
      · exact ⟨freed.control, freed.data⟩
  | cancel m =>
      cases ran
      have parts := List.length_eq_length_filter_add (l := p.txDataQueue) m.covers
      refine ⟨counts.control, ?_⟩
      dsimp only
      rw [counts.data]
      omega
  | cancelQueued status | flush =>
      cases ran
      exact ⟨rfl, rfl⟩
  | _ =>
      simp only [exec, execAttach, execRingTx] at ran
      repeat' split at ran
      all_goals cases ran
      all_goals exact ⟨counts.control, counts.data⟩

/-! ## The limit -/

def Within (p : Path) : Prop := p.txDataQueued + p.txDataReserved ≤ p.txDataQueueLimit

theorem Within.event {p p' : Path} {code : List Frame} (within : Within p)
    (reacts : Reacts p p' code) : Within p' := by
  cases reacts with
  | sendData ids fresh group same uncounted admits room => exact room within
  | reserve room => exact room within
  | _ => exact within

theorem Within.run {st : St} {thread : Nat} {p : Path} {frame : Frame} {rest pushed : List Frame}
    {choice : Choice} (within : Within st.shared)
    (found : st.threads[thread]? = some (frame :: rest)) (fits : Fits st (.run thread choice))
    (ran : exec st.shared frame choice = some (p, pushed)) : Within p := by
  have top := State.top_of_getElem? found
  unfold Within at within ⊢
  cases frame with
  | iterate =>
      rcases execIterate_cases ran with ⟨rfl, rfl⟩ | ⟨_, _, -, chosen, -, rfl, rfl⟩
      · exact within
      · refine Nat.le_trans ?_ within
        simp only [Path.dequeue]
        split <;> omega
  | takeBack hand ret =>
      rcases execTakeBack_cases ran with ⟨-, rfl, -, rfl⟩ | ⟨data, rfl, again, rfl⟩ | ⟨rfl, rfl⟩
      · exact within
      · dsimp only at again
        have room := fits (by
          simp only [putsBack, top]
          rw [again, data]
          rfl)
        simp only [Path.putBackData, Path.undo, Path.txDataQueueLimit] at room ⊢
        omega
      · exact within
  | callback desc canceled =>
      rcases execCallback_cases ran with ⟨-, rfl, -⟩ | ⟨pkt, -, rfl, -⟩ <;>
        simp only [Path.noteRetired, Path.freeDesc] <;> split <;> exact within
  | cancel m =>
      cases ran
      refine Nat.le_trans ?_ within
      dsimp only
      omega
  | cancelQueued status | flush =>
      cases ran
      exact Nat.zero_le _
  | _ =>
      simp only [exec, execAttach, execRingTx] at ran
      repeat' split at ran
      all_goals cases ran
      all_goals exact within

/-! ## Every run -/

section Reached
variable {st : St}

theorem sum_isFrame (i : Nat) (ring : List Desc) :
    (ring.map fun desc => isFrame i desc.frame).sum =
      (ring.filter fun desc => desc.frame == some i).length := by
  induction ring with
  | nil => rfl
  | cons desc rest ih =>
      rw [List.map_cons, List.sum_cons, ih]
      by_cases here : desc.frame = some i
      · simp [isFrame, here]
        omega
      · simp [isFrame, here]

theorem descOf_of_weight {i : Nat} {frame : Frame} (heavy : stagingWeight i frame ≠ 0) :
    inProgress frame = true ∧ ∃ desc, descOf frame = some desc ∧ desc.frame = some i := by
  cases frame with
  | attach hand | ringTx hand | detach hand ret | takeBack hand ret =>
      have owner : hand.frame = some i := by
        by_contra other
        exact heavy (if_neg other)
      exact ⟨rfl, _, rfl, owner⟩
  | callback desc canceled =>
      have owner : desc.frame = some i := by
        by_contra other
        exact heavy (if_neg other)
      exact ⟨rfl, _, rfl, owner⟩
  | _ => exact absurd rfl heavy

theorem Books.staging_place (books : Books st) {i : Nat} (inside : i < st.shared.txFrameCount) :
    FreeOnce st.shared i ∨ SubmittedOnce st.shared i ∨
    i ∉ st.shared.txFree ∧ (∀ desc ∈ st.shared.ring, desc.frame ≠ some i) ∧
      ∃ frame desc, st.Has frame ∧ inProgress frame = true ∧ descOf frame = some desc ∧
        desc.frame = some i := by
  have balanced := books.staging i
  dsimp only [Threads.Balanced, stagingOf] at balanced
  rw [if_pos inside, sum_isFrame] at balanced
  by_cases free : i ∈ st.shared.txFree
  · have counted : 0 < st.shared.txFree.count i := List.count_pos_iff.mpr free
    exact .inl ⟨by omega, (books.staging.free free).2⟩
  · have none : st.shared.txFree.count i = 0 := List.count_eq_zero.mpr free
    cases ring : st.shared.ring.filter fun desc => desc.frame == some i with
    | nil =>
        rw [ring, List.length_nil] at balanced
        refine .inr (.inr ⟨free, fun desc among owner => ?_, ?_⟩)
        · have there : desc ∈ st.shared.ring.filter fun desc => desc.frame == some i :=
            List.mem_filter.mpr ⟨among, by simp [owner]⟩
          rw [ring] at there
          cases there
        · by_contra nobody
          have zero : st.total (stagingWeight i) = 0 := by
            refine State.total_eq_zero.mpr fun frame has => ?_
            by_contra heavy
            obtain ⟨progress, desc, is, owner⟩ := descOf_of_weight heavy
            exact nobody ⟨frame, desc, has, progress, is, owner⟩
          omega
    | cons desc more =>
        rw [ring, List.length_cons] at balanced
        have last : more = [] := List.eq_nil_of_length_eq_zero (by omega)
        subst last
        have among : desc ∈ st.shared.ring.filter fun desc => desc.frame == some i := by
          rw [ring]
          exact List.mem_singleton_self _
        obtain ⟨there, owner⟩ := List.mem_filter.mp among
        have finds := books.table.finds desc (.inl there)
        simp only [beq_iff_eq] at owner
        simp only [Path.descPacket, owner] at finds
        exact .inr (.inl ⟨free, desc, ring, finds⟩)

theorem Books.zcopy_listed (books : Books st) (kinds : Kinds st) {desc : Desc}
    (among : desc ∈ st.shared.ring) (zcopy : desc.pkt.zcopy = true) :
    (st.shared.txZcopyInflight.map TxPacket.id).count desc.pkt.id = 1 := by
  have balanced := books.zcopy desc.pkt.id
  dsimp only [Threads.Balanced] at balanced
  have once := books.zcopy_once desc.pkt.id
  have here : 1 ≤ zcopyOf desc.pkt.id st.shared := by
    have below := @weight_le_weigh _ (fun other : Desc =>
      if other.frame = none then isPacket desc.pkt.id other.pkt else 0) _ _ among
    have none := (kinds.path.ring desc among).1.mpr zcopy
    simpa [zcopyOf, weigh, isPacket, none] using below
  rw [← copies_eq_count]
  omega

theorem Books.inflight_idle (books : Books st)
    (idle : ∀ frame, st.Has frame → inProgress frame = false) :
    st.shared.txInflight = st.shared.ring.length := by
  have balanced := books.inflight
  dsimp only [Threads.Balanced] at balanced
  have none : st.total inflightWeight = 0 := by
    refine State.total_eq_zero.mpr fun frame has => ?_
    have still := idle frame has
    cases frame <;> simp_all [inProgress, inflightWeight]
  omega

end Reached

theorem counts_start (cfg : Config) : Counts (start cfg).shared ∧ Within (start cfg).shared :=
  ⟨⟨rfl, rfl⟩, Nat.zero_le _⟩

theorem Counts.step {st st' : St} {label : Lbl} (counts : Counts st.shared)
    (stepped : step st label = some st') : Counts st'.shared := by
  cases label with
  | event event =>
      obtain ⟨p, code, reacted, rfl⟩ := step_event stepped
      exact counts.event (react_cases reacted)
  | run thread choice =>
      obtain ⟨frame, rest, p, pushed, found, executed, rfl⟩ := step_run stepped
      exact counts.run executed

theorem Within.step {st st' : St} {label : Lbl} (within : Within st.shared) (fits : Fits st label)
    (stepped : step st label = some st') : Within st'.shared := by
  cases label with
  | event event =>
      obtain ⟨p, code, reacted, rfl⟩ := step_event stepped
      exact within.event (react_cases reacted)
  | run thread choice =>
      obtain ⟨frame, rest, p, pushed, found, executed, rfl⟩ := step_run stepped
      exact within.run found fits executed

/-- In every run in which a refused packet finds its space still free. -/
theorem counters_describe_queues (cfg : Config) (st : St)
    (reached : Reaches step Fits (start cfg) st) : Describes st := by
  have books := books_reached reached
  have kinds := kinds_reached reached
  have counts : Counts st.shared := @Reaches.invariant _ _ _ _ _ (fun st : St => Counts st.shared)
    (counts_start cfg).1 (fun counts _ stepped => counts.step stepped) _ reached
  have within : Within st.shared := @Reaches.invariant _ _ _ _ _ (fun st : St => Within st.shared)
    (counts_start cfg).2 (fun within fits stepped => within.step fits stepped) _ reached
  exact ⟨counts.control, counts.data, within, fun i inside => books.staging_place inside,
    fun desc among zcopy => books.zcopy_listed kinds among zcopy, books.inflight_idle⟩

/-! Runs on the ring of a native path: the queue holds 262144 packets. -/

def nativeRing : Config := ⟨4096, 32, Nat.succ_pos _⟩

/-- A packet is refused by a full ring; meanwhile 63 senders reserve space for 4096 packets each,
and one for `frames`. -/
def refusedPacket (frames : Nat) : List Lbl :=
  [.event (.sendData (some 1) (some 1) false), .run 0 0, .run 0 0, .run 0 0, .run 0 enomem,
    .run 0 0] ++ List.replicate 63 (.event (.reserveData 4096)) ++
  [.event (.reserveData frames), .run 0 0, .run 0 0]

theorem counters_describe_queues_refused : ∃ st, Reaches step Fits (start nativeRing) st ∧
    st.shared.txDataQueued = 1 ∧ st.shared.txDataReserved = 262143 ∧ Describes st := by
  have ran : (guarded step Fits (refusedPacket 4095) (start nativeRing)).any
      (fun st => st.shared.txDataQueued == 1 && st.shared.txDataReserved == 262143) = true := by
    decide +kernel
  obtain ⟨st, reached, found⟩ := exists_reaches_of_guarded ran
  simp only [Bool.and_eq_true, beq_iff_eq] at found
  exact ⟨st, reached, found.1, found.2, counters_describe_queues _ st reached⟩

theorem put_back_exceeds_limit : ¬ ∀ (cfg : Config) (st : St),
    Reaches step (fun _ _ => True) (start cfg) st → Describes st := by
  intro always
  have ran : (guarded step (fun _ _ => True) (refusedPacket 4096) (start nativeRing)).any
      (fun st => st.shared.txDataQueued == 1 && st.shared.txDataReserved == 262144 &&
        st.shared.txDataQueueLimit == 262144) = true := by
    decide +kernel
  obtain ⟨st, reached, found⟩ := exists_reaches_of_guarded ran
  simp only [Bool.and_eq_true, beq_iff_eq] at found
  obtain ⟨⟨queued, reserved⟩, limit⟩ := found
  have bound := (always _ st reached).limit
  omega

end Tbv.Tx
