import ThunderboltIbverbs.Tx.Spec

/-! # Where everything on the TX side is

Balances that hold in every run: of `tx_inflight`, of each staging frame, of each packet that
is owed its `done`, and of the zero-copy list.  Each unit is issued by the path and is with
the path, with the ring or with exactly one frame of one thread. -/
set_option autoImplicit false
namespace Tbv.Tx

open Threads Trans

section Weights

def inflightWeight : Frame → Nat
  | .attach _ | .ringTx _ | .detach _ _ | .takeBack _ _ | .inflightDec | .callback _ _ => 1
  | _ => 0

def isFrame (i : Nat) (frame : Option Nat) : Nat := if frame = some i then 1 else 0

def stagingWeight (i : Nat) : Frame → Nat
  | .attach hand | .ringTx hand | .detach hand _ | .takeBack hand _ => isFrame i hand.frame
  | .callback desc _ => isFrame i desc.frame
  | _ => 0

def isPacket (id : Nat) (pkt : TxPacket) : Nat := if pkt.id = id then 1 else 0

def packetWeight (id : Nat) : Frame → Nat
  | .attach hand | .ringTx hand | .detach hand _ | .takeBack hand _ => isPacket id hand.pkt
  | .callback desc _ => isPacket id desc.pkt
  | .release pkt _ | .completed pkt _ => isPacket id pkt
  | _ => 0

def zcopyWeight (id : Nat) : Frame → Nat
  | .ringTx hand | .detach hand _ | .takeBack hand _ =>
      if hand.frame = none then isPacket id hand.pkt else 0
  | .callback desc _ => if desc.frame = none then isPacket id desc.pkt else 0
  | _ => 0

end Weights

def copies (id : Nat) (pkts : List TxPacket) : Nat := (pkts.map (isPacket id)).sum

def stagingOf (i : Nat) (p : Path) : Nat :=
  p.txFree.count i + (p.ring.map fun desc => isFrame i desc.frame).sum

def Path.issued (p : Path) : List TxPacket := p.owed ++ p.failed

def packetsOf (id : Nat) (p : Path) : Nat :=
  copies id p.txControlQueue + copies id p.txDataQueue + copies id (p.ring.map Desc.pkt) +
    (p.released.map Prod.fst).count id

def zcopyOf (id : Nat) (p : Path) : Nat :=
  (p.ring.map fun desc => if desc.frame = none then isPacket id desc.pkt else 0).sum

section Lists
variable {id : Nat} {pkt : TxPacket} {pkts other : List TxPacket}

@[simp] theorem copies_nil : copies id [] = 0 := rfl

@[simp] theorem copies_cons : copies id (pkt :: pkts) = isPacket id pkt + copies id pkts := by
  simp [copies]

@[simp] theorem copies_append : copies id (pkts ++ other) = copies id pkts + copies id other := by
  simp [copies]

/-- Only the identity counts. -/
theorem copies_map {f : TxPacket → TxPacket} (same : ∀ pkt ∈ pkts, (f pkt).id = pkt.id) :
    copies id (pkts.map f) = copies id pkts := by
  induction pkts with
  | nil => rfl
  | cons head rest ih =>
      have first := same head (List.mem_cons_self ..)
      have later := ih fun pkt among => same pkt (List.mem_cons_of_mem _ among)
      simp [isPacket, first, later]

theorem copies_filter (keep : TxPacket → Bool) :
    copies id (pkts.filter keep) + copies id (pkts.filter fun pkt => !keep pkt) =
      copies id pkts := by
  induction pkts with
  | nil => rfl
  | cons head rest ih =>
      cases kept : keep head <;> simp [kept] <;> omega

theorem weigh_releases (status : Int) :
    weigh (packetWeight id) (releases pkts status) = copies id pkts := by
  induction pkts with
  | nil => rfl
  | cons head rest ih => simpa [releases, packetWeight] using ih

/-- A release moves a packet and nothing else. -/
theorem weigh_releases_zero {weight : Frame → Nat} (status : Int)
    (none : ∀ pkt status, weight (.release pkt status) = 0) :
    weigh weight (releases pkts status) = 0 := by
  refine weigh_eq_zero fun frame among => ?_
  obtain ⟨pkt, -, rfl⟩ := List.mem_map.mp among
  exact none ..

end Lists

section Step
variable {p p' : Path} {frame : Frame} {choice : Choice} {pushed : List Frame}

theorem exec_inflight (some_ : inflightWeight frame ≤ p.txInflight)
    (ran : exec p frame choice = some (p', pushed)) :
    p'.txInflight + p.ring.length + inflightWeight frame =
      p.txInflight + p'.ring.length + weigh inflightWeight pushed := by
  have released : ∀ pkt status, inflightWeight (.release pkt status) = 0 := fun _ _ => rfl
  cases frame with
  | iterate =>
      rcases execIterate_cases ran with ⟨rfl, rfl⟩ | ⟨_, _, -, -, -, rfl, rfl⟩
      · simp [Path.stop, inflightWeight]
      · simp [Path.dequeue, inflightWeight]
        omega
  | takeBack hand ret =>
      rcases execTakeBack_cases ran with ⟨-, rfl, -, rfl⟩ | ⟨-, rfl, -, rfl⟩ | ⟨rfl, rfl⟩
      · simp [Path.undo, Path.putBackControl, inflightWeight]
      · simp [Path.undo, Path.putBackData, inflightWeight]
      · split <;> simp [Path.undo, inflightWeight]
  | inflightDec =>
      cases ran
      simp only [inflightWeight] at some_ ⊢
      simp
      omega
  | cancel m =>
      cases ran
      rw [weigh_append, weigh_releases_zero _ released]
      split <;> simp [inflightWeight]
  | cancelQueued status =>
      cases ran
      rw [weigh_releases_zero _ released]
      simp [inflightWeight, Path.emptyQueues]
  | flush =>
      cases ran
      rw [weigh_append, weigh_releases_zero _ released]
      simp [inflightWeight, Path.emptyQueues]
  | attach hand =>
      simp only [exec, execAttach] at ran
      split at ran <;> cases ran <;> simp [inflightWeight]
  | ringTx hand =>
      simp only [exec, execRingTx] at ran
      repeat' split at ran
      all_goals cases ran
      all_goals simp [inflightWeight]
      omega
  | callback desc canceled =>
      have freed : (p.freeDesc desc).txInflight = p.txInflight ∧
          (p.freeDesc desc).ring = p.ring := by
        unfold Path.freeDesc
        split <;> exact ⟨rfl, rfl⟩
      rcases execCallback_cases ran with ⟨-, rfl, rfl⟩ | ⟨pkt, -, rfl, rfl⟩ <;>
        simp [inflightWeight, Path.noteRetired, freed]
  | schedule | detach hand ret | finishRawStream pkt | release pkt status | stopScheduling
  | completed pkt canceled | disableTunnel | ringStop | ringStopped =>
      simp only [exec] at ran
      repeat' split at ran
      all_goals cases ran
      all_goals simp [inflightWeight, Path.stop]

theorem exec_staging (i : Nat) (ran : exec p frame choice = some (p', pushed)) :
    stagingOf i p + stagingWeight i frame = stagingOf i p' + weigh (stagingWeight i) pushed := by
  have released : ∀ pkt status, stagingWeight i (.release pkt status) = 0 := fun _ _ => rfl
  cases frame with
  | iterate =>
      rcases execIterate_cases ran with ⟨rfl, rfl⟩ | ⟨fromControlQueue, pkt, -, -, passes, rfl, rfl⟩
      · simp [Path.stop, stagingWeight, stagingOf]
      · cases staging : Path.needsStaging fromControlQueue pkt with
        | false => simp [Path.dequeue, staging, stagingOf, stagingWeight, isFrame]
        | true =>
            obtain ⟨first, rest, free⟩ := free_of_gate passes staging
            simp only [stagingOf, Path.dequeue, staging, free, if_true, List.tail_cons,
              List.head?_cons, List.count_cons, stagingWeight, weigh_cons, weigh_nil, isFrame,
              Option.some.injEq, beq_iff_eq]
            omega
  | takeBack hand ret =>
      have undone : stagingOf i (p.undo hand) = stagingOf i p + isFrame i hand.frame := by
        cases owner : hand.frame with
        | none => simp [stagingOf, Path.undo, owner, isFrame]
        | some j =>
            simp only [stagingOf, Path.undo, owner, List.count_append, List.count_singleton,
              isFrame, Option.some.injEq, beq_iff_eq]
            omega
      rcases execTakeBack_cases ran with ⟨-, rfl, -, rfl⟩ | ⟨-, rfl, -, rfl⟩ | ⟨rfl, rfl⟩
      · simpa [Path.putBackControl, stagingOf, stagingWeight] using undone.symm
      · simpa [Path.putBackData, stagingOf, stagingWeight] using undone.symm
      · split <;> simpa [stagingWeight] using undone.symm
  | cancel m =>
      cases ran
      rw [weigh_append, weigh_releases_zero _ released]
      split <;> simp [stagingWeight, stagingOf]
  | cancelQueued status =>
      cases ran
      rw [weigh_releases_zero _ released]
      simp [stagingWeight, stagingOf, Path.emptyQueues]
  | flush =>
      cases ran
      rw [weigh_append, weigh_releases_zero _ released]
      simp [stagingWeight, stagingOf, Path.emptyQueues]
  | attach hand =>
      simp only [exec, execAttach] at ran
      split at ran <;> cases ran <;> simp [stagingWeight, stagingOf]
  | ringTx hand =>
      simp only [exec, execRingTx] at ran
      repeat' split at ran
      all_goals cases ran
      all_goals simp [stagingWeight, stagingOf]
      omega
  | callback desc canceled =>
      have freed : stagingOf i (p.freeDesc desc) = stagingOf i p + isFrame i desc.frame := by
        cases owner : desc.frame with
        | none => simp [stagingOf, Path.freeDesc, owner, isFrame]
        | some j =>
            simp only [stagingOf, Path.freeDesc, owner, List.count_append, List.count_singleton,
              isFrame, Option.some.injEq, beq_iff_eq]
            omega
      rcases execCallback_cases ran with ⟨-, rfl, rfl⟩ | ⟨pkt, -, rfl, rfl⟩
      · simpa [stagingWeight] using freed.symm
      · simpa [stagingWeight, stagingOf, Path.noteRetired] using freed.symm
  | schedule | detach hand ret | finishRawStream pkt | release pkt status | stopScheduling
  | completed pkt canceled | disableTunnel | ringStop | ringStopped | inflightDec =>
      simp only [exec] at ran
      repeat' split at ran
      all_goals cases ran
      all_goals simp [stagingWeight, stagingOf, Path.stop]

/-- Packets move and none is lost, as long as a callback finds the packet it was submitted
for. -/
theorem exec_packets (id : Nat)
    (finds : ∀ desc canceled, frame = .callback desc canceled →
      p.descPacket desc = some desc.pkt)
    (ran : exec p frame choice = some (p', pushed)) :
    packetsOf id p + packetWeight id frame = packetsOf id p' + weigh (packetWeight id) pushed := by
  cases frame with
  | iterate =>
      rcases execIterate_cases ran with ⟨rfl, rfl⟩ | ⟨fromControlQueue, pkt, -, chosen, -, rfl, rfl⟩
      · simp [Path.stop, packetWeight, packetsOf]
      · have same : (p.dequeue fromControlQueue pkt).2.pkt.id = pkt.id := by
          obtain ⟨counted, is⟩ := dequeue_packet p fromControlQueue pkt
          rw [is]
        rcases choose_cases chosen with ⟨rfl, -, rest, queue⟩ | ⟨rfl, rest, queue⟩
        · simp only [packetsOf, queue, copies_cons, packetWeight, weigh_cons, weigh_nil, isPacket,
            same]
          simp only [Path.dequeue, queue, if_true, List.tail_cons]
          omega
        · simp only [packetsOf, queue, copies_cons, packetWeight, weigh_cons, weigh_nil, isPacket,
            same]
          simp only [Path.dequeue, queue, Bool.false_eq_true, if_false, List.tail_cons]
          omega
  | takeBack hand ret =>
      rcases execTakeBack_cases ran with ⟨-, rfl, -, rfl⟩ | ⟨-, rfl, -, rfl⟩ | ⟨rfl, rfl⟩
      · simp [Path.undo, Path.putBackControl, packetWeight, packetsOf, isPacket]
        omega
      · simp [Path.undo, Path.putBackData, packetWeight, packetsOf, isPacket]
        omega
      · split <;> simp [Path.undo, packetWeight, packetsOf, isPacket]
  | cancel m =>
      cases ran
      have parts := @copies_filter id p.txDataQueue m.covers
      have stripped : copies id ((p.txDataQueue.filter m.covers).map fun pkt =>
          { pkt with ownerCtx := none }) = copies id (p.txDataQueue.filter m.covers) :=
        copies_map fun _ _ => rfl
      rw [weigh_append, weigh_releases, stripped]
      simp only [packetsOf, packetWeight]
      split <;> simp [packetWeight] <;> omega
  | cancelQueued status =>
      cases ran
      rw [weigh_releases]
      simp [packetsOf, packetWeight, Path.emptyQueues]
      omega
  | flush =>
      cases ran
      rw [weigh_append, weigh_releases]
      simp [packetsOf, packetWeight, Path.emptyQueues]
      omega
  | attach hand =>
      simp only [exec, execAttach] at ran
      split at ran <;> cases ran <;> simp [packetWeight, packetsOf]
  | ringTx hand =>
      simp only [exec, execRingTx] at ran
      repeat' split at ran
      all_goals cases ran
      all_goals simp [packetWeight, packetsOf]
      omega
  | callback desc canceled =>
      have freed : packetsOf id (p.freeDesc desc) = packetsOf id p := by
        unfold Path.freeDesc
        split <;> rfl
      have found := finds desc canceled rfl
      rcases execCallback_cases ran with ⟨missing, -, -⟩ | ⟨pkt, is, rfl, rfl⟩
      · rw [found] at missing
        cases missing
      · rw [found] at is
        cases is
        simpa [packetWeight, packetsOf, Path.noteRetired] using freed.symm
  | release pkt status | completed pkt canceled =>
      cases ran
      simp only [packetsOf, packetWeight, weigh_nil, List.map_append, List.map_cons, List.map_nil,
        List.count_append, List.count_singleton, isPacket, beq_iff_eq]
      omega
  | schedule | detach hand ret | finishRawStream pkt | stopScheduling | disableTunnel | ringStop
  | ringStopped | inflightDec =>
      simp only [exec] at ran
      repeat' split at ran
      all_goals cases ran
      all_goals simp [packetWeight, packetsOf, Path.stop]

theorem copies_filter_ne {id other : Nat} {pkts : List TxPacket} :
    copies id (pkts.filter fun q => q.id != other) = if id = other then 0 else copies id pkts := by
  induction pkts with
  | nil => simp
  | cons head rest ih =>
      by_cases kept : head.id = other
      · simp only [kept, bne_self_eq_false, Bool.false_eq_true, not_false_eq_true,
          List.filter_cons_of_neg, ih, copies_cons, isPacket]
        split
        · rfl
        · rename_i different
          simp [Ne.symm different]
      · simp only [bne_iff_ne, ne_eq, kept, not_false_eq_true, List.filter_cons_of_pos,
          copies_cons, ih]
        split
        · rename_i same
          simp [isPacket, same, kept]
        · rfl

theorem copies_remove {id : Nat} {pkt : TxPacket} {pkts : List TxPacket}
    (once : copies id pkts ≤ 1) (there : isPacket id pkt ≤ copies id pkts) :
    copies id (pkts.filter fun q => q.id != pkt.id) + isPacket id pkt = copies id pkts := by
  rw [copies_filter_ne]
  unfold isPacket at there ⊢
  by_cases same : pkt.id = id
  · simp only [same, if_true] at there ⊢
    omega
  · simp [same, Ne.symm same]

theorem exec_zcopy (id : Nat) (once : copies id p.txZcopyInflight ≤ 1)
    (there : zcopyWeight id frame + zcopyOf id p ≤ copies id p.txZcopyInflight)
    (ran : exec p frame choice = some (p', pushed)) :
    copies id p'.txZcopyInflight + zcopyOf id p + zcopyWeight id frame =
      copies id p.txZcopyInflight + zcopyOf id p' + weigh (zcopyWeight id) pushed := by
  have released : ∀ pkt status, zcopyWeight id (.release pkt status) = 0 := fun _ _ => rfl
  cases frame with
  | iterate =>
      rcases execIterate_cases ran with ⟨rfl, rfl⟩ | ⟨_, _, -, -, -, rfl, rfl⟩
      · simp [Path.stop, zcopyWeight, zcopyOf]
      · simp [Path.dequeue, zcopyWeight, zcopyOf]
  | takeBack hand ret =>
      have undone : copies id (p.undo hand).txZcopyInflight + zcopyWeight id (.takeBack hand ret) =
          copies id p.txZcopyInflight := by
        cases owner : hand.frame with
        | some i => simp [Path.undo, owner, zcopyWeight]
        | none =>
            simp only [zcopyWeight, owner, if_true] at there
            simpa only [Path.undo, owner, zcopyWeight, if_true] using
              copies_remove once (Nat.le_of_add_right_le there)
      rcases execTakeBack_cases ran with ⟨-, rfl, -, rfl⟩ | ⟨-, rfl, -, rfl⟩ | ⟨rfl, rfl⟩
      · simp only [Path.putBackControl, weigh_cons, weigh_nil]
        simp only [zcopyOf] at undone ⊢
        simp only [Path.undo] at undone ⊢
        simp only [zcopyWeight] at undone ⊢
        omega
      · simp only [Path.putBackData, weigh_cons, weigh_nil]
        simp only [zcopyOf] at undone ⊢
        simp only [Path.undo] at undone ⊢
        simp only [zcopyWeight] at undone ⊢
        omega
      · have light : weigh (zcopyWeight id) (if hand.pkt.zcopy then
            [.inflightDec, .finishRawStream { hand.pkt with rawStreamCounted := false },
              .release { hand.pkt with rawStreamCounted := false } ret, .stopScheduling]
          else [.inflightDec, .release { hand.pkt with rawStreamCounted := false } ret,
            .stopScheduling]) = 0 := by
          split <;> simp [zcopyWeight]
        have ring : zcopyOf id (p.undo hand) = zcopyOf id p := rfl
        omega
  | cancel m =>
      cases ran
      rw [weigh_append, weigh_releases_zero _ released]
      split <;> simp [zcopyWeight, zcopyOf]
  | cancelQueued status =>
      cases ran
      rw [weigh_releases_zero _ released]
      simp [zcopyWeight, zcopyOf, Path.emptyQueues]
  | flush =>
      cases ran
      rw [weigh_append, weigh_releases_zero _ released]
      simp [zcopyWeight, zcopyOf, Path.emptyQueues]
  | attach hand =>
      simp only [exec, execAttach] at ran
      split at ran <;> cases ran <;> rename_i owner <;> simp [zcopyWeight, zcopyOf, owner]
      omega
  | ringTx hand =>
      simp only [exec, execRingTx] at ran
      repeat' split at ran
      all_goals cases ran
      · cases owner : hand.frame <;> simp [zcopyWeight, zcopyOf, owner]
        omega
      · rename_i owner
        simp [zcopyWeight, zcopyOf, owner]
      · rename_i owner
        simp [zcopyWeight, zcopyOf, owner]
  | callback desc canceled =>
      have freed : copies id (p.freeDesc desc).txZcopyInflight +
          zcopyWeight id (.callback desc canceled) = copies id p.txZcopyInflight := by
        cases owner : desc.frame with
        | some i => simp [Path.freeDesc, owner, zcopyWeight]
        | none =>
            simp only [zcopyWeight, owner, if_true] at there
            simpa only [Path.freeDesc, owner, zcopyWeight, if_true] using
              copies_remove once (Nat.le_of_add_right_le there)
      have ring : zcopyOf id (p.freeDesc desc) = zcopyOf id p := by
        unfold Path.freeDesc
        split <;> rfl
      rcases execCallback_cases ran with ⟨-, rfl, rfl⟩ | ⟨pkt, -, rfl, rfl⟩
      · have light : weigh (zcopyWeight id) [.inflightDec, .schedule] = 0 := rfl
        omega
      · have light : weigh (zcopyWeight id) [.finishRawStream pkt, .completed pkt canceled,
            .inflightDec, .schedule] = 0 := rfl
        have noted : zcopyOf id ((p.freeDesc desc).noteRetired pkt.id canceled) =
          zcopyOf id (p.freeDesc desc) := rfl
        have list : ((p.freeDesc desc).noteRetired pkt.id canceled).txZcopyInflight =
          (p.freeDesc desc).txZcopyInflight := rfl
        rw [list]
        omega
  | schedule | detach hand ret | finishRawStream pkt | release pkt status | stopScheduling
  | completed pkt canceled | disableTunnel | ringStop | ringStopped | inflightDec =>
      simp only [exec] at ran
      repeat' split at ran
      all_goals cases ran
      all_goals simp [zcopyWeight, zcopyOf, Path.stop]

end Step

/-! ## Events -/

section React
variable {p p' : Path} {code : List Frame}

theorem sum_eraseIdx {α : Type} (f : α → Nat) {items : List α} {place : Nat} {item : α}
    (found : items[place]? = some item) :
    ((items.eraseIdx place).map f).sum + f item = (items.map f).sum := by
  induction items generalizing place with
  | nil => simp at found
  | cons head rest ih =>
      cases place with
      | zero =>
          cases Option.some.inj found
          simp
          omega
      | succ place =>
          have := ih (by simpa using found)
          simp
          omega

theorem weigh_calls {id : Nat} {gone : List (TxPacket × Int)} :
    weigh (packetWeight id) (gone.map fun call => .release call.1 call.2) =
      copies id (gone.map Prod.fst) := by
  induction gone with
  | nil => rfl
  | cons call rest ih => simpa [packetWeight] using ih

theorem weigh_calls_zero {weight : Frame → Nat} {gone : List (TxPacket × Int)}
    (none : ∀ pkt status, weight (.release pkt status) = 0) :
    weigh weight (gone.map fun call => .release call.1 call.2) = 0 := by
  refine weigh_eq_zero fun frame among => ?_
  obtain ⟨call, -, rfl⟩ := List.mem_map.mp among
  exact none ..

theorem reacts_inflight (reacts : Reacts p p' code) :
    p'.txInflight + p.ring.length = p.txInflight + p'.ring.length + weigh inflightWeight code := by
  cases reacts with
  | fail ids fresh each error =>
      rw [weigh_calls_zero fun _ _ => rfl]
      rfl
  | retire canceled found =>
      have inside := (List.getElem?_eq_some_iff.mp found).1
      simp only [List.length_eraseIdx, inside, if_true, weigh_cons, weigh_nil, inflightWeight]
      omega
  | _ => rfl

theorem reacts_staging (i : Nat) (reacts : Reacts p p' code) :
    stagingOf i p = stagingOf i p' + weigh (stagingWeight i) code := by
  cases reacts with
  | fail ids fresh each error =>
      rw [weigh_calls_zero fun _ _ => rfl]
      rfl
  | retire canceled found =>
      have moved := sum_eraseIdx (fun desc => isFrame i desc.frame) found
      simp only [stagingOf, weigh_cons, weigh_nil, stagingWeight]
      omega
  | _ => rfl

theorem reacts_packets (id : Nat) (reacts : Reacts p p' code) :
    copies id p'.issued + packetsOf id p =
      copies id p.issued + packetsOf id p' + weigh (packetWeight id) code := by
  cases reacts with
  | sendControl ids fresh copied plain admits =>
      simp [Path.take, Path.issued, packetsOf, packetWeight]
      omega
  | @sendData pkts queued reserved ids fresh group same uncounted admits room =>
      have moved : copies id queued = copies id pkts := by
        rw [← same]
        exact (copies_map fun pkt _ => core_id pkt).symm
      simp [Path.take, Path.issued, packetsOf, packetWeight, moved]
      omega
  | fail ids fresh each error =>
      have moved : ∀ {one two : List TxPacket}, one.Perm two → copies id one = copies id two := by
        intro one two perm
        exact (perm.map _).sum_eq
      rw [weigh_calls, moved each]
      simp [Path.fail, Path.issued, packetsOf]
      omega
  | retire canceled found =>
      have moved := sum_eraseIdx (fun desc => isPacket id desc.pkt) found
      simp only [Path.issued, packetsOf, copies, List.map_map, weigh_cons, weigh_nil, packetWeight,
        Function.comp_def] at moved ⊢
      omega
  | _ => rfl

theorem reacts_zcopy (id : Nat) (reacts : Reacts p p' code) :
    copies id p'.txZcopyInflight + zcopyOf id p =
      copies id p.txZcopyInflight + zcopyOf id p' + weigh (zcopyWeight id) code := by
  cases reacts with
  | fail ids fresh each error =>
      rw [weigh_calls_zero fun _ _ => rfl]
      rfl
  | retire canceled found =>
      have moved := sum_eraseIdx
        (fun desc => if desc.frame = none then isPacket id desc.pkt else 0) found
      simp only [zcopyOf, weigh_cons, weigh_nil, zcopyWeight]
      omega
  | _ => rfl

end React

/-! ## The frame table -/

def attachedAs : Frame → Option Desc
  | .ringTx hand | .detach hand _ => some ⟨hand.frame, hand.pkt⟩
  | .callback desc _ => some desc
  | _ => none

/-- With the ring, or with a thread that submits or retires it. -/
def Attached (st : St) (desc : Desc) : Prop :=
  desc ∈ st.shared.ring ∨ ∃ frame, st.Has frame ∧ attachedAs frame = some desc

structure Table (st : St) : Prop where
  finds : ∀ desc, Attached st desc → st.shared.descPacket desc = some desc.pkt
  live : ∀ i pkt, st.shared.txFrames i = some pkt → Attached st ⟨some i, pkt⟩

def StagingBalance (st : St) : Prop :=
  ∀ i, Balanced (fun p => if i < p.txFrameCount then 1 else 0) (stagingOf i) (stagingWeight i) st

section Once
variable {st : St} {i : Nat}

theorem one_of_attachedAs {frame : Frame} {desc : Desc} (is : attachedAs frame = some desc)
    (owner : desc.frame = some i) : stagingWeight i frame = 1 := by
  cases frame <;> cases is <;> simp_all [stagingWeight, isFrame]

theorem StagingBalance.le_one (balance : StagingBalance st) :
    stagingOf i st.shared + st.total (stagingWeight i) ≤ 1 := by
  have balanced := balance i
  dsimp only [Threads.Balanced] at balanced
  split at balanced <;> omega

theorem one_le_of_ring {p : Path} {desc : Desc} (among : desc ∈ p.ring)
    (owner : desc.frame = some i) : 1 ≤ (p.ring.map fun desc => isFrame i desc.frame).sum := by
  have below := @weight_le_weigh _ (fun desc : Desc => isFrame i desc.frame) _ _ among
  simpa [weigh, isFrame, owner] using below

theorem StagingBalance.eq (balance : StagingBalance st) {frame other : Frame}
    (has : st.Has frame) (hasOther : st.Has other) (one : stagingWeight i frame = 1)
    (oneOther : stagingWeight i other = 1) : frame = other := by
  have bound := @StagingBalance.le_one _ i balance
  have below := State.weight_le_total (stagingWeight i) has
  have total : st.total (stagingWeight i) = 1 := by omega
  exact State.eq_of_total_one total has hasOther (by omega) (by omega)

theorem StagingBalance.not_ring (balance : StagingBalance st) {frame : Frame}
    (has : st.Has frame) (one : stagingWeight i frame = 1) {desc : Desc}
    (among : desc ∈ st.shared.ring) : desc.frame ≠ some i := by
  intro owner
  have bound := @StagingBalance.le_one _ i balance
  have below := State.weight_le_total (stagingWeight i) has
  have counted := one_le_of_ring among owner
  unfold stagingOf at bound
  omega

theorem StagingBalance.free (balance : StagingBalance st) (free : i ∈ st.shared.txFree) :
    (∀ frame, st.Has frame → stagingWeight i frame = 0) ∧
      ∀ desc ∈ st.shared.ring, desc.frame ≠ some i := by
  have bound := @StagingBalance.le_one _ i balance
  unfold stagingOf at bound
  have free : 0 < st.shared.txFree.count i := List.count_pos_iff.mpr free
  constructor
  · intro frame has
    have below := State.weight_le_total (stagingWeight i) has
    omega
  · intro desc among owner
    have counted := one_le_of_ring among owner
    omega

end Once

theorem descPacket_congr {p q : Path} {desc : Desc}
    (same : ∀ i, desc.frame = some i → q.txFrames i = p.txFrames i) :
    q.descPacket desc = p.descPacket desc := by
  unfold Path.descPacket
  split
  · rename_i i owner
    exact same i owner
  · rfl

/-! ### One step -/

/-- The table changes at one place, or not at all. -/
theorem exec_txFrames {p p' : Path} {frame : Frame} {choice : Choice} {pushed : List Frame}
    (ran : exec p frame choice = some (p', pushed)) :
    p'.txFrames = p.txFrames ∨
    (∃ hand i, frame = .attach hand ∧ hand.frame = some i ∧ pushed = [.ringTx hand] ∧
      p'.txFrames = Function.update p.txFrames i (some hand.pkt)) ∨
    (∃ hand ret i, frame = .detach hand ret ∧ hand.frame = some i ∧
      pushed = [.takeBack hand ret] ∧ p'.txFrames = Function.update p.txFrames i none) ∨
    (∃ desc canceled i, frame = .callback desc canceled ∧ desc.frame = some i ∧
      p'.txFrames = Function.update p.txFrames i none ∧ i ∈ p'.txFree ∧ p'.ring = p.ring) := by
  cases frame with
  | iterate =>
      rcases execIterate_cases ran with ⟨rfl, rfl⟩ | ⟨_, _, -, -, -, rfl, rfl⟩
      · exact .inl rfl
      · exact .inl rfl
  | takeBack hand ret =>
      rcases execTakeBack_cases ran with ⟨-, rfl, -, rfl⟩ | ⟨-, rfl, -, rfl⟩ | ⟨rfl, rfl⟩ <;>
        exact .inl rfl
  | attach hand =>
      simp only [exec, execAttach] at ran
      split at ran <;> cases ran
      · rename_i i owner
        exact .inr (.inl ⟨hand, i, rfl, owner, rfl, rfl⟩)
      · exact .inl rfl
  | detach hand ret =>
      simp only [exec] at ran
      split at ran <;> cases ran
      rename_i i owner
      exact .inr (.inr (.inl ⟨hand, ret, i, rfl, owner, rfl, rfl⟩))
  | callback desc canceled =>
      cases owner : desc.frame with
      | none =>
          refine .inl ?_
          rcases execCallback_cases ran with ⟨-, rfl, -⟩ | ⟨pkt, -, rfl, -⟩ <;>
            simp [Path.noteRetired, Path.freeDesc, owner]
      | some i =>
          refine .inr (.inr (.inr ⟨desc, canceled, i, rfl, owner, ?_⟩))
          rcases execCallback_cases ran with ⟨-, rfl, -⟩ | ⟨pkt, -, rfl, -⟩ <;>
            simp [Path.noteRetired, Path.freeDesc, owner]
  | ringTx hand =>
      simp only [exec, execRingTx] at ran
      repeat' split at ran
      all_goals cases ran
      all_goals exact .inl rfl
  | cancel m | cancelQueued status | flush =>
      cases ran
      exact .inl rfl
  | schedule | finishRawStream pkt | release pkt status | stopScheduling | completed pkt canceled
  | disableTunnel | ringStop | ringStopped | inflightDec =>
      simp only [exec] at ran
      repeat' split at ran
      all_goals cases ran
      all_goals exact .inl rfl

/-- What a step does to the packets that are attached. -/
structure Reattaches (p p' : Path) (frame : Frame) (pushed : List Frame) : Prop where
  ring : ∀ desc ∈ p'.ring, desc ∈ p.ring ∨ attachedAs frame = some desc
  news : ∀ other ∈ pushed, ∀ desc, attachedAs other = some desc →
    attachedAs frame = some desc ∨ ∃ hand, frame = .attach hand ∧ desc = ⟨hand.frame, hand.pkt⟩
  kept : ∀ desc ∈ p.ring, desc ∈ p'.ring
  moved : ∀ desc, attachedAs frame = some desc → desc ∈ p'.ring ∨
    (∃ other ∈ pushed, attachedAs other = some desc) ∨
    ∀ i, desc.frame = some i → p'.txFrames i = none

/-- A section that attaches nothing. -/
theorem reattaches_none {p p' : Path} {frame : Frame} {pushed : List Frame}
    (ring : p'.ring = p.ring) (light : attachedAs frame = none)
    (none : ∀ other ∈ pushed, attachedAs other = none) : Reattaches p p' frame pushed where
  ring := fun desc among => .inl (ring ▸ among)
  news := fun other among desc is => by
    rw [none other among] at is
    cases is
  kept := fun desc among => ring ▸ among
  moved := fun desc is => by
    rw [light] at is
    cases is

theorem attachedAs_releases {pkts : List TxPacket} {status : Int} :
    ∀ other ∈ releases pkts status, attachedAs other = none := by
  intro other among
  obtain ⟨pkt, -, rfl⟩ := List.mem_map.mp among
  rfl

theorem exec_reattaches {p p' : Path} {frame : Frame} {choice : Choice} {pushed : List Frame}
    (ran : exec p frame choice = some (p', pushed)) : Reattaches p p' frame pushed := by
  cases frame with
  | iterate =>
      rcases execIterate_cases ran with ⟨rfl, rfl⟩ | ⟨_, _, -, -, -, rfl, rfl⟩
      · exact reattaches_none rfl rfl (by simp)
      · exact reattaches_none rfl rfl (by simp [attachedAs])
  | takeBack hand ret =>
      rcases execTakeBack_cases ran with ⟨-, rfl, -, rfl⟩ | ⟨-, rfl, -, rfl⟩ | ⟨rfl, rfl⟩
      · exact reattaches_none rfl rfl (by simp [attachedAs])
      · exact reattaches_none rfl rfl (by simp [attachedAs])
      · refine reattaches_none rfl rfl ?_
        split <;> simp [attachedAs]
  | attach hand =>
      simp only [exec, execAttach] at ran
      split at ran <;> cases ran
      all_goals
        refine ⟨fun _ among => .inl among, fun other among desc is => ?_, fun _ among => among,
          fun desc is => by cases is⟩
        cases List.mem_singleton.mp among
        cases is
        exact .inr ⟨hand, rfl, rfl⟩
  | detach hand ret =>
      simp only [exec] at ran
      split at ran <;> cases ran
      rename_i i owner
      refine ⟨fun _ among => .inl among, ?_, fun _ among => among, fun desc is => ?_⟩
      · rintro other among desc is
        cases List.mem_singleton.mp among
        cases is
      · cases is
        refine .inr (.inr fun j same => ?_)
        rw [owner] at same
        cases same
        exact Function.update_self ..
  | ringTx hand =>
      simp only [exec, execRingTx] at ran
      repeat' split at ran
      all_goals cases ran
      · refine ⟨fun desc among => ?_, ?_, fun desc among => List.mem_append_left _ among,
          fun desc is => ?_⟩
        · rcases List.mem_append.mp among with old | new
          · exact .inl old
          · cases List.mem_singleton.mp new
            exact .inr rfl
        · rintro other among desc is
          cases List.mem_singleton.mp among
          cases is
        · cases is
          exact .inl (List.mem_append_right _ (List.mem_singleton_self _))
      · refine ⟨fun _ among => .inl among, fun other among desc is => ?_, fun _ among => among,
          fun desc is => .inr (.inl ⟨_, List.mem_singleton_self _, is⟩)⟩
        cases List.mem_singleton.mp among
        exact .inl is
      · rename_i owner
        refine ⟨fun _ among => .inl among, ?_, fun _ among => among, fun desc is => ?_⟩
        · rintro other among desc is
          cases List.mem_singleton.mp among
          cases is
        · cases is
          refine .inr (.inr fun i same => ?_)
          rw [owner] at same
          cases same
  | callback desc canceled =>
      have light : ∀ other ∈ pushed, attachedAs other = none := by
        rcases execCallback_cases ran with ⟨-, -, rfl⟩ | ⟨pkt, -, -, rfl⟩ <;> simp [attachedAs]
      have ring : p'.ring = p.ring := by
        rcases execCallback_cases ran with ⟨-, rfl, -⟩ | ⟨pkt, -, rfl, -⟩ <;>
          simp only [Path.noteRetired, Path.freeDesc] <;> split <;> rfl
      refine ⟨fun _ among => .inl (ring ▸ among), fun other among desc is => ?_,
        fun _ among => ring ▸ among, fun other is => .inr (.inr fun i owner => ?_)⟩
      · rw [light other among] at is
        cases is
      · cases is
        rcases execCallback_cases ran with ⟨-, rfl, -⟩ | ⟨pkt, -, rfl, -⟩ <;>
          simp [Path.noteRetired, Path.freeDesc, owner]
  | cancel m =>
      cases ran
      refine reattaches_none rfl rfl fun other among => ?_
      rcases List.mem_append.mp among with released | again
      · exact attachedAs_releases other released
      · split at again
        · cases List.mem_singleton.mp again
          rfl
        · cases again
  | cancelQueued status =>
      cases ran
      exact reattaches_none rfl rfl attachedAs_releases
  | flush =>
      cases ran
      refine reattaches_none rfl rfl fun other among => ?_
      rcases List.mem_append.mp among with released | last
      · exact attachedAs_releases other released
      · cases List.mem_singleton.mp last
        rfl
  | schedule | finishRawStream pkt | release pkt status | stopScheduling | completed pkt canceled
  | disableTunnel | ringStop | ringStopped | inflightDec =>
      simp only [exec] at ran
      repeat' split at ran
      all_goals cases ran
      all_goals exact reattaches_none rfl rfl (by simp [attachedAs])

theorem reacts_attached {p p' : Path} {code : List Frame} (reacts : Reacts p p' code) :
    p'.txFrames = p.txFrames ∧ (∀ desc ∈ p'.ring, desc ∈ p.ring) ∧
    (∀ frame ∈ code, ∀ desc, attachedAs frame = some desc → desc ∈ p.ring) ∧
    ∀ desc ∈ p.ring, desc ∈ p'.ring ∨ ∃ frame ∈ code, attachedAs frame = some desc := by
  have still : ∀ {q : Path}, q.ring = p.ring → (∀ desc ∈ q.ring, desc ∈ p.ring) ∧
      ∀ desc ∈ p.ring, desc ∈ q.ring ∨ ∃ frame ∈ code, attachedAs frame = some desc :=
    fun same => ⟨fun desc among => same ▸ among, fun desc among => .inl (same ▸ among)⟩
  cases reacts with
  | fail ids fresh each error =>
      refine ⟨rfl, (still rfl).1, fun frame among desc is => ?_, (still rfl).2⟩
      obtain ⟨call, -, rfl⟩ := List.mem_map.mp among
      cases is
  | @retire place desc canceled found =>
      refine ⟨rfl, fun other among => List.mem_of_mem_eraseIdx among, fun frame among other is => ?_,
        fun other among => ?_⟩
      · cases List.mem_singleton.mp among
        cases is
        exact List.mem_of_getElem? found
      · by_cases same : other = desc
        · exact .inr ⟨_, List.mem_singleton_self _, same ▸ rfl⟩
        · refine .inl ?_
          obtain ⟨at_, bound, rfl⟩ := List.mem_iff_getElem.mp among
          refine (List.mem_eraseIdx_iff_getElem?).mpr ⟨at_, ?_, List.getElem?_eq_getElem bound⟩
          rintro rfl
          rw [List.getElem?_eq_getElem bound] at found
          exact same (Option.some.inj found)
  | _ => exact ⟨rfl, (still rfl).1, by simp [attachedAs], (still rfl).2⟩

/-! ## What only events change -/

structure Keeps (p p' : Path) : Prop where
  cfg : p'.cfg = p.cfg
  owed : p'.owed = p.owed
  failed : p'.failed = p.failed
  nextId : p'.nextId = p.nextId
  refused : p'.refused = p.refused

theorem Keeps.issued {p p' : Path} (keeps : Keeps p p') : p'.issued = p.issued := by
  simp [Path.issued, keeps.owed, keeps.failed]

theorem exec_keeps {p p' : Path} {frame : Frame} {choice : Choice} {pushed : List Frame}
    (ran : exec p frame choice = some (p', pushed)) : Keeps p p' := by
  cases frame with
  | iterate =>
      rcases execIterate_cases ran with ⟨rfl, rfl⟩ | ⟨_, _, -, -, -, rfl, rfl⟩ <;>
        exact ⟨rfl, rfl, rfl, rfl, rfl⟩
  | takeBack hand ret =>
      rcases execTakeBack_cases ran with ⟨-, rfl, -, rfl⟩ | ⟨-, rfl, -, rfl⟩ | ⟨rfl, rfl⟩ <;>
        exact ⟨rfl, rfl, rfl, rfl, rfl⟩
  | callback desc canceled =>
      have freed : Keeps p (p.freeDesc desc) := by
        unfold Path.freeDesc
        split <;> exact ⟨rfl, rfl, rfl, rfl, rfl⟩
      rcases execCallback_cases ran with ⟨-, rfl, -⟩ | ⟨pkt, -, rfl, -⟩
      · exact freed
      · exact ⟨freed.cfg, freed.owed, freed.failed, freed.nextId, freed.refused⟩
  | cancel m | cancelQueued status | flush =>
      cases ran
      exact ⟨rfl, rfl, rfl, rfl, rfl⟩
  | _ =>
      simp only [exec, execAttach, execRingTx] at ran
      repeat' split at ran
      all_goals cases ran
      all_goals exact ⟨rfl, rfl, rfl, rfl, rfl⟩

theorem reacts_cfg {p p' : Path} {code : List Frame} (reacts : Reacts p p' code) :
    p'.cfg = p.cfg := by
  cases reacts <;> rfl

section Table
variable {st st' : St} {label : Lbl}

theorem StagingBalance.step (balance : StagingBalance st) (stepped : step st label = some st') :
    StagingBalance st' := by
  intro i
  refine (balance i).step (fun event p code reacted => ?_)
    (fun frame choice p pushed has below executed => ?_) stepped
  · have moved := reacts_staging i (react_cases reacted)
    have same : p.txFrameCount = st.shared.txFrameCount :=
      congrArg Config.txRingSize (reacts_cfg (react_cases reacted))
    rw [same]
    omega
  · have moved := exec_staging i executed
    have same : p.txFrameCount = st.shared.txFrameCount :=
      congrArg Config.txRingSize (exec_keeps executed).cfg
    rw [same]
    omega

theorem Table.event (table : Table st) {p : Path} {code : List Frame}
    (reacts : Reacts st.shared p code) : Table ⟨p, st.threads ++ [code]⟩ := by
  obtain ⟨frames, ring, started, kept⟩ := reacts_attached reacts
  constructor
  · intro desc attached
    have before : Attached st desc := by
      rcases attached with among | ⟨frame, has, is⟩
      · exact .inl (ring desc among)
      · rcases State.has_of_event has with new | old
        · exact .inl (started frame new desc is)
        · exact .inr ⟨frame, old, is⟩
    rw [← table.finds desc before]
    exact descPacket_congr fun i _ => by rw [frames]
  · intro i pkt entry
    rw [show p.txFrames = st.shared.txFrames from frames] at entry
    rcases table.live i pkt entry with among | ⟨frame, ⟨stack, inside, standing⟩, is⟩
    · rcases kept _ among with still | ⟨frame, new, is⟩
      · exact .inl still
      · exact .inr ⟨frame, ⟨code, by simp, new⟩, is⟩
    · exact .inr ⟨frame, ⟨stack, List.mem_append_left _ inside, standing⟩, is⟩

section Run
variable {thread : Nat} {frame : Frame} {rest pushed : List Frame} {p : Path}

theorem attached_before (found : st.threads[thread]? = some (frame :: rest))
    (moves : Reattaches st.shared p frame pushed) {desc : Desc}
    (attached : Attached ⟨p, st.threads.set thread (pushed ++ rest)⟩ desc) :
    Attached st desc ∨ ∃ hand, frame = .attach hand ∧ desc = ⟨hand.frame, hand.pkt⟩ := by
  have top := State.has_of_top found
  rcases attached with among | ⟨other, has, is⟩
  · rcases moves.ring desc among with old | this
    · exact .inl (.inl old)
    · exact .inl (.inr ⟨frame, top, this⟩)
  · rcases State.has_of_run found has with new | old
    · rcases moves.news other new desc is with this | fresh
      · exact .inl (.inr ⟨frame, top, this⟩)
      · exact .inr fresh
    · exact .inl (.inr ⟨other, old, is⟩)

/-- What was attached still is, or its place in the table has been cleared. -/
theorem attached_after (found : st.threads[thread]? = some (frame :: rest))
    (moves : Reattaches st.shared p frame pushed) {i : Nat} {pkt : TxPacket}
    (attached : Attached st ⟨some i, pkt⟩) :
    Attached ⟨p, st.threads.set thread (pushed ++ rest)⟩ ⟨some i, pkt⟩ ∨ p.txFrames i = none := by
  rcases attached with among | ⟨other, has, is⟩
  · exact .inl (.inl (moves.kept _ among))
  · rcases State.has_after_run found has with rfl | still
    · rcases moves.moved _ is with ring | ⟨next, new, is⟩ | cleared
      · exact .inl (.inl ring)
      · exact .inl (.inr ⟨next, State.has_of_pushed found new, is⟩)
      · exact .inr (cleared i rfl)
    · exact .inl (.inr ⟨other, still, is⟩)

/-- With one holder of the staging frame that changes, the table stays right. -/
theorem Table.run_at (table : Table st) (found : st.threads[thread]? = some (frame :: rest))
    (moves : Reattaches st.shared p frame pushed) {i : Nat} {entry : Option TxPacket}
    (changed : p.txFrames = Function.update st.shared.txFrames i entry)
    (only : ∀ desc, Attached ⟨p, st.threads.set thread (pushed ++ rest)⟩ desc →
      desc.frame = some i → entry = some desc.pkt)
    (own : ∀ hand, frame = .attach hand → hand.frame = some i)
    (entered : ∀ pkt, entry = some pkt →
      Attached ⟨p, st.threads.set thread (pushed ++ rest)⟩ ⟨some i, pkt⟩) :
    Table ⟨p, st.threads.set thread (pushed ++ rest)⟩ := by
  constructor
  · intro desc attached
    by_cases here : desc.frame = some i
    · have is := only desc attached here
      simp only [Path.descPacket, here, changed]
      rw [Function.update_self, is]
    · rcases attached_before found moves attached with before | ⟨hand, attaches, rfl⟩
      · rw [← table.finds desc before]
        refine descPacket_congr fun j owner => ?_
        rw [changed]
        refine Function.update_of_ne ?_ ..
        rintro rfl
        exact here owner
      · exact absurd (own hand attaches) here
  · intro j pkt is
    by_cases here : j = i
    · subst here
      dsimp only at is
      rw [changed, Function.update_self] at is
      exact entered pkt is
    · dsimp only at is
      have before : st.shared.txFrames j = some pkt := by
        rwa [changed, Function.update_of_ne here] at is
      rcases attached_after found moves (table.live j pkt before) with still | cleared
      · exact still
      · rw [is] at cleared
        cases cleared

theorem Table.run (table : Table st) {choice : Choice}
    (after : StagingBalance ⟨p, st.threads.set thread (pushed ++ rest)⟩)
    (found : st.threads[thread]? = some (frame :: rest))
    (executed : exec st.shared frame choice = some (p, pushed)) :
    Table ⟨p, st.threads.set thread (pushed ++ rest)⟩ := by
  have moves := exec_reattaches executed
  rcases exec_txFrames executed with same | ⟨hand, i, rfl, owner, rfl, changed⟩ |
    ⟨hand, ret, i, rfl, owner, rfl, changed⟩ | ⟨desc, canceled, i, rfl, owner, changed, free, -⟩
  · constructor
    · intro desc attached
      rcases attached_before found moves attached with before | ⟨hand, rfl, rfl⟩
      · rw [← table.finds desc before]
        exact descPacket_congr fun i _ => by rw [same]
      · cases owner : hand.frame with
        | none => rfl
        | some i =>
            simp only [exec, execAttach, owner] at executed
            cases executed
            exact Function.update_self ..
    · intro i pkt is
      dsimp only at is
      rcases attached_after found moves (table.live i pkt (same ▸ is)) with still | cleared
      · exact still
      · rw [is] at cleared
        cases cleared
  · -- the thread with the new entry is the only one with this staging frame
    have here : State.Has ⟨p, st.threads.set thread ([.ringTx hand] ++ rest)⟩ (.ringTx hand) :=
      State.has_of_pushed found (List.mem_singleton_self _)
    have one : stagingWeight i (.ringTx hand) = 1 := by simp [stagingWeight, isFrame, owner]
    refine table.run_at found moves changed ?_ ?_ ?_
    · rintro desc (among | ⟨other, has, is⟩) place
      · exact absurd place (after.not_ring here one among)
      · cases after.eq here has one (one_of_attachedAs is place)
        cases is
        rfl
    · rintro other same
      cases same
      exact owner
    · rintro pkt same
      cases same
      exact .inr ⟨_, here, by simp [attachedAs, owner]⟩
  · have here : State.Has ⟨p, st.threads.set thread ([.takeBack hand ret] ++ rest)⟩
        (.takeBack hand ret) := State.has_of_pushed found (List.mem_singleton_self _)
    have one : stagingWeight i (.takeBack hand ret) = 1 := by simp [stagingWeight, isFrame, owner]
    refine table.run_at found moves changed ?_ (fun _ is => by cases is) fun _ is => by cases is
    rintro desc (among | ⟨other, has, is⟩) place
    · exact absurd place (after.not_ring here one among)
    · cases after.eq here has one (one_of_attachedAs is place)
      cases is
  · obtain ⟨threads, ring⟩ := after.free free
    refine table.run_at found moves changed ?_ (fun _ is => by cases is) fun _ is => by cases is
    rintro other (among | ⟨frame, has, is⟩) place
    · exact absurd place (ring other among)
    · have one := one_of_attachedAs is place
      rw [threads frame has] at one
      cases one

end Run

end Table

/-! ## Identities -/

/-- Every packet is issued once, and the next one will be new. -/
structure Numbers (p : Path) : Prop where
  below : ∀ pkt ∈ p.issued, pkt.id < p.nextId
  once : ∀ id, copies id p.issued ≤ 1

theorem copies_eq_count (id : Nat) (pkts : List TxPacket) :
    copies id pkts = (pkts.map TxPacket.id).count id := by
  induction pkts with
  | nil => rfl
  | cons head rest ih =>
      simp only [copies_cons, ih, isPacket, List.map_cons, List.count_cons, beq_iff_eq]
      omega

theorem copies_eq_zero {id : Nat} {pkts : List TxPacket} (none : ∀ pkt ∈ pkts, pkt.id ≠ id) :
    copies id pkts = 0 := by
  rw [copies_eq_count, List.count_eq_zero]
  intro among
  obtain ⟨pkt, inside, is⟩ := List.mem_map.mp among
  exact none pkt inside is

theorem Numbers.grow {p q : Path} {pkts : List TxPacket} (numbers : Numbers p)
    (issued : q.issued.Perm (p.issued ++ pkts)) (next : q.nextId = p.nextId + pkts.length)
    (ids : Numbered p.nextId pkts) : Numbers q := by
  have fresh : ∀ pkt ∈ pkts, p.nextId ≤ pkt.id ∧ pkt.id < p.nextId + pkts.length := by
    intro pkt among
    have inside : pkt.id ∈ List.range' p.nextId pkts.length := ids ▸ List.mem_map_of_mem among
    simpa using inside
  constructor
  · intro pkt among
    rw [next]
    rcases List.mem_append.mp (issued.mem_iff.mp among) with old | new
    · have := numbers.below pkt old
      omega
    · exact (fresh pkt new).2
  · intro id
    have counted : copies id q.issued = copies id p.issued + copies id pkts := by
      rw [← copies_append]
      exact (issued.map _).sum_eq
    rw [counted]
    by_cases old : id < p.nextId
    · have none : copies id pkts = 0 := by
        refine copies_eq_zero fun pkt among => ?_
        have := (fresh pkt among).1
        omega
      have := numbers.once id
      omega
    · have none : copies id p.issued = 0 := by
        refine copies_eq_zero fun pkt among => ?_
        have := numbers.below pkt among
        omega
      have once : copies id pkts ≤ 1 := by
        rw [copies_eq_count, ids]
        exact List.nodup_iff_count.mp List.nodup_range' id
      omega

theorem issued_take (p : Path) (pkts : List TxPacket) :
    (p.take pkts).issued.Perm (p.issued ++ pkts) := by
  simp only [Path.issued, Path.take, List.append_assoc]
  exact (List.perm_append_comm).append_left p.owed

theorem issued_fail (p : Path) (pkts : List TxPacket) :
    (p.fail pkts).issued.Perm (p.issued ++ pkts) := by
  simp [Path.issued, Path.fail]

theorem Numbers.event {p p' : Path} {code : List Frame} (numbers : Numbers p)
    (reacts : Reacts p p' code) : Numbers p' := by
  cases reacts with
  | sendControl ids fresh copied plain admits => exact numbers.grow (issued_take ..) rfl ids
  | sendData ids fresh group same uncounted admits room => exact numbers.grow (issued_take ..) rfl ids
  | fail ids fresh each error => exact numbers.grow (issued_fail ..) rfl ids
  | refuse count =>
      exact ⟨fun pkt among => Nat.lt_add_right count (numbers.below pkt among), numbers.once⟩
  | _ => exact ⟨numbers.below, numbers.once⟩

/-! ## The books -/

structure Books (st : St) : Prop where
  inflight : Balanced Path.txInflight (fun p => p.ring.length) inflightWeight st
  staging : StagingBalance st
  table : Table st
  numbers : Numbers st.shared
  packets : ∀ id, Balanced (fun p => copies id p.issued) (packetsOf id) (packetWeight id) st
  zcopy : ∀ id, Balanced (fun p => copies id p.txZcopyInflight) (zcopyOf id) (zcopyWeight id) st

theorem books_start (cfg : Config) : Books (start cfg) where
  inflight := rfl
  staging := fun i => by
    have counted : (if i < cfg.txRingSize then 1 else 0) = (List.range cfg.txRingSize).count i := by
      rw [List.count_range]
    exact counted
  table := by
    constructor
    · rintro desc (among | ⟨frame, ⟨stack, among, -⟩, -⟩) <;> cases among
    · intro i pkt entry
      cases entry
  numbers := ⟨fun pkt among => absurd among List.not_mem_nil, fun id => Nat.zero_le 1⟩
  packets := fun id => rfl
  zcopy := fun id => rfl

theorem zcopyWeight_le (id : Nat) (frame : Frame) : zcopyWeight id frame ≤ packetWeight id frame := by
  cases frame <;> simp only [zcopyWeight, packetWeight]
  all_goals first
    | exact Nat.zero_le _
    | (split <;> omega)

theorem zcopyOf_le_ring (id : Nat) (p : Path) :
    zcopyOf id p ≤ copies id (p.ring.map Desc.pkt) := by
  unfold zcopyOf
  generalize p.ring = ring
  induction ring with
  | nil => simp
  | cons desc rest ih =>
      simp only [List.map_cons, List.sum_cons, copies_cons]
      split <;> omega

theorem zcopyOf_le (id : Nat) (p : Path) : zcopyOf id p ≤ packetsOf id p := by
  have := zcopyOf_le_ring id p
  unfold packetsOf
  omega

theorem Books.zcopy_once {st : St} (books : Books st) (id : Nat) :
    copies id st.shared.txZcopyInflight ≤ 1 := by
  have zcopy := books.zcopy id
  have packets := books.packets id
  dsimp only [Threads.Balanced] at zcopy packets
  have threads := @State.total_le_total _ _ st _ _ (zcopyWeight_le id)
  have path := zcopyOf_le id st.shared
  have once := books.numbers.once id
  omega

theorem Books.step {st st' : St} {label : Lbl} (books : Books st)
    (stepped : step st label = some st') : Books st' := by
  have staging := books.staging.step stepped
  have finds : ∀ frame, st.Has frame → ∀ desc canceled, frame = .callback desc canceled →
      st.shared.descPacket desc = some desc.pkt := by
    rintro frame has desc canceled rfl
    exact books.table.finds desc (.inr ⟨_, has, rfl⟩)
  refine ⟨?_, staging, ?_, ?_, fun id => ?_, fun id => ?_⟩
  · refine books.inflight.step (fun event p code reacted => ?_)
      (fun frame choice p pushed has below executed => ?_) stepped
    · exact reacts_inflight (react_cases reacted)
    · exact exec_inflight (by omega) executed
  · cases label with
    | event event =>
        obtain ⟨p, code, reacted, rfl⟩ := step_event stepped
        exact books.table.event (react_cases reacted)
    | run thread choice =>
        obtain ⟨frame, rest, p, pushed, found, executed, rfl⟩ := step_run stepped
        exact books.table.run staging found executed
  · cases label with
    | event event =>
        obtain ⟨p, code, reacted, rfl⟩ := step_event stepped
        exact books.numbers.event (react_cases reacted)
    | run thread choice =>
        obtain ⟨frame, rest, p, pushed, found, executed, rfl⟩ := step_run stepped
        have keeps := exec_keeps executed
        exact ⟨by rw [keeps.issued, keeps.nextId]; exact books.numbers.below,
          by rw [keeps.issued]; exact books.numbers.once⟩
  · refine (books.packets id).step (fun event p code reacted => ?_)
      (fun frame choice p pushed has below executed => ?_) stepped
    · exact reacts_packets id (react_cases reacted)
    · have moved := exec_packets id (finds frame has) executed
      rw [(exec_keeps executed).issued]
      omega
  · refine (books.zcopy id).step (fun event p code reacted => ?_)
      (fun frame choice p pushed has below executed => ?_) stepped
    · exact reacts_zcopy id (react_cases reacted)
    · exact exec_zcopy id (books.zcopy_once id) below executed

theorem books_reached {ok : St → Lbl → Prop} {cfg : Config} {st : St}
    (reached : Reaches step ok (start cfg) st) : Books st :=
  reached.invariant (books_start cfg) fun books _ stepped => books.step stepped

end Tbv.Tx
