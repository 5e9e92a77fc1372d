import ThunderboltIbverbs.Recv.ExactlyOnce

/-! # When the receive side reports no error

Losses, duplicates and reordering of the fragments of a peer, and the two ways in which they make
the write handler answer ERROR all the same. -/
set_option autoImplicit false
namespace Tbv.RecvQueue

open Trans
open Tbv.NativeData
open Tbv.SendQueue (IbSendWr fillCtx)

namespace Peer

variable (p : Peer)

/-- The receive side has not answered with an error. -/
def NoErrorAck (q : Rx) : Prop := ∀ psn consumed, Entry.ack psn .error consumed ∉ q.log

/-- A QP that allows remote writes, before the first operation. -/
structure Ready (start : Rx) : Prop where
  begins : p.Begins start
  remoteWrite : start.remoteWrite = true
  accounts : start.Accounted
  history : NoErrors start.ackHistory
  roomy : p.Roomy start.posted

end Peer

section
variable {p : Peer} {q next : Rx} {env : Env} {apart : Prop}

theorem Act.remoteWrite {owed : Option Nat} {out : Option Passed}
    (act : Act env apart owed q out next) : next.remoteWrite = q.remoteWrite := by
  cases act with
  | prune =>
      obtain ⟨reorder, reorderCount, reorderBytes, log, pruned⟩ := @pruneStaleReorder_same q
      rw [pruned]
  | pass passes =>
      obtain ⟨log, rxMsg, ackHistory, rfl⟩ := passes.same
      rfl
  | _ => rfl

theorem Does.remoteWrite {owed : Option Nat} (does : Does env apart owed q next) :
    next.remoteWrite = q.remoteWrite := by
  refine does.keeps (R := fun q next => next.remoteWrite = q.remoteWrite) (fun _ => rfl)
    (fun one two => two.trans one) Act.remoteWrite (fun passes => ?_) fun _ _ _ => rfl
  obtain ⟨log, rxMsg, ackHistory, rfl⟩ := passes.same
  rfl

/-- Every arrival is made of acts. -/
theorem does_arrive {label : Env × Arrival} (bounded : q.Bounded)
    (arrives : p.arrive q label = some next) : Does label.1 False none q next := by
  obtain ⟨env, arrival⟩ := label
  cases arrival with
  | fragment k i =>
      cases Option.some.inj arrives
      unfold Peer.handleFragment
      split
      · exact does_handleSendFragment _ _ bounded fun is => is.elim
      · exact does_handleRdmaWriteFragment _ _ bounded fun is => is.elim
  | post wqe =>
      simp only [Peer.arrive] at arrives
      split at arrives
      · cases Option.some.inj arrives
        exact does_postOne wqe
      · cases arrives
  | advertise =>
      cases Option.some.inj arrives
      exact does_advertiseRecvCredits
  | drain =>
      cases Option.some.inj arrives
      exact does_drainReorder

/-- The receive side has answered nothing with an error, and will not. -/
structure Clean (p : Peer) (q : Rx) : Prop where
  steady : Steady p True q
  sound : q.Sound
  remoteWrite : q.remoteWrite = true

theorem Clean.noErrorAck (clean : Clean p q) : Peer.NoErrorAck q := by
  intro psn consumed among
  obtain ⟨before, after, split⟩ := List.append_of_mem among
  exact (clean.steady.ledger.acked before psn .error consumed after split).2 trivial rfl

theorem Clean.arrive {label : Env × Arrival} (clean : Clean p q) (assumed : p.Assumed q label)
    (spared : p.Spared q label) (arrives : p.arrive q label = some next) : Clean p next := by
  have does := does_arrive clean.sound.1 arrives
  refine ⟨?_, does.sound clean.sound, does.remoteWrite.trans clean.remoteWrite⟩
  have window : p.InWindow q label := by
    obtain ⟨env, arrival⟩ := label
    refine ⟨assumed.1, ?_⟩
    cases arrival with
    | fragment k i => exact spared.1
    | _ => trivial
  exact clean.steady.arrive window
    (fun _ => ⟨clean.sound, clean.remoteWrite, assumed, spared⟩) arrives

end

/-! ## Writes that are answered with an error -/

namespace Refused

def zero : Peer := .empty fun _ => .rdmaWrite

def request : IbSendWr :=
  { opcode := .rdmaWriteImm, sgList := [⟨0, 4049, 1⟩], immData := 5, rkey := 7 }

def tail : Peer where
  qp := ⟨.rc, 2, 1, 0, true, true⟩
  start := 0
  mrs := fun _ _ => some ⟨0, 4049, false⟩
  wr := fun _ => request
  memory := fun _ _ => 0
  ctx := fun k => fillCtx ⟨.rc, 2, 1, .ofNat ((0 + k) % psnMod), true, true⟩ request
    [⟨0, 4049, Nat.succ_pos maxPayload⟩]
  accepted := fun _ => rfl

theorem fair (p : Peer) : p.Fair Collision.env where
  allocMsg := rfl
  allocFrag := rfl
  recvMr _ _ := rfl
  mr _ _ := rfl
  iova _ _ _ _ := rfl

theorem ready {p : Peer} (start : p.psn 0 = 0) : p.Ready Collision.ready where
  begins := ⟨Collision.ready_fresh, start.symm, rfl, rfl, rfl, rfl⟩
  remoteWrite := rfl
  accounts := ⟨rfl, rfl, Nat.zero_le _, List.nodup_nil, fun _ among => by cases among⟩
  history _ _ := nofun
  roomy _ _ at' := by cases at'

theorem refused {p : Peer} {i : Nat} (inside : i < p.count 0)
    (answered : p.handleFragment Collision.ready Collision.env 0 i =
      Collision.ready.sendAck 0 .error) :
    ∃ q, Reaches p.arrive p.Assumed Collision.ready q ∧ ¬ Peer.NoErrorAck q := by
  have assumed : p.Assumed Collision.ready (Collision.env, .fragment 0 i) := by
    refine ⟨⟨rfl, rfl, rfl, inside, by decide⟩, fair p, ?_⟩
    have payload : maxPayload = 4048 := rfl
    have size : reorderMaxBytes = 67108864 := rfl
    have length := p.length_eq 0 i
    change 0 + p.length 0 i ≤ reorderMaxBytes
    omega
  have sees := @Reaches.step _ _ p.arrive p.Assumed _ _ _ _ .init assumed (congrArg some answered)
  exact ⟨_, sees, fun none => none 0 0 (List.mem_singleton_self _)⟩

theorem tail_refused : tail.handleFragment Collision.ready Collision.env 0 1 =
    Collision.ready.sendAck 0 .error := by
  have inside : 1 < tail.count 0 := by decide
  have withImm : tail.op 0 = .rdmaWriteImm := rfl
  have write : (tail.op 0).isSend = false := rfl
  have wellFormed : writeBadHeader true (tail.header 0 1) = false := by
    rw [Peer.writeBadHeader_header write inside, withImm]
    rfl
  have unmarked : Collision.ready.rnrSuppresses (tail.header 0 1) 0 = false := rfl
  have psn : (tail.header 0 1).psn = 0 := rfl
  unfold Peer.handleFragment Rx.handleRdmaWriteFragment
  rw [write, if_neg (by decide), psn]
  change (if writeBadHeader true _ = true then _ else if Collision.ready.rnrSuppresses _ 0 = true
    then _ else Rx.handleWrite Collision.ready _ _ 0 _) = _
  rw [wellFormed, if_neg (by decide), unmarked, if_neg (by decide)]
  rfl

end Refused

/-- Every run that spares the receive side these fragments is without an error. -/
theorem reordering_reports_no_error (p : Peer) {start q : Rx} (ready : p.Ready start)
    (reached : Reaches p.arrive (fun q label => p.Assumed q label ∧ p.Spared q label) start q) :
    Peer.NoErrorAck q := by
  have clean : Clean p start :=
    ⟨.start ready.begins (fun _ => ready.history) fun _ => ready.roomy,
      ⟨ready.begins.fresh.bounded, ready.accounts⟩, ready.remoteWrite⟩
  have ended : Clean p q := reached.invariant clean fun clean meets arrives =>
    clean.arrive meets.1 meets.2 arrives
  exact ended.noErrorAck

namespace Shuffled

/-- What is left of the conditions, with this peer and these allocations. -/
def Spares (q : Rx) : Arrival → Prop
  | .fragment k i =>
      peer.InWindow q (Collision.env, .fragment k i) ∧
        q.reorderBytes + peer.length k i ≤ reorderMaxBytes ∧
        q.consumed ≤ k + 2 ^ 23 ∧ (peer.op k = .rdmaWrite → peer.total k ≠ 0) ∧
        peer.HeadFirst k i q
  | .post wqe => ∀ posted ∈ q.posted ++ [wqe], 4049 ≤ posted.length
  | .advertise | .drain => True

instance (q : Rx) : (arrival : Arrival) → Decidable (Spares q arrival)
  | .fragment _ _ =>
      inferInstanceAs (Decidable (_ ∧ _ ≤ _ ∧ _ ≤ _ ∧ (_ → _ ≠ _) ∧ (_ → _ → _ = none → _)))
  | .post wqe => inferInstanceAs (Decidable (∀ posted ∈ _ ++ [wqe], 4049 ≤ posted.length))
  | .advertise | .drain => .isTrue trivial

theorem total_le (k : Nat) : peer.total k ≤ 4049 := by
  rcases k with _ | _ | k
  · exact Nat.le_refl 4049
  · exact Nat.le_refl 4049
  · exact (by decide : 1 ≤ 4049)

theorem Spares.spared {q : Rx} {arrival : Arrival} (spares : Spares q arrival) :
    peer.Assumed q (Collision.env, arrival) ∧ peer.Spared q (Collision.env, arrival) := by
  have fair := Refused.fair peer
  cases arrival with
  | fragment k i =>
      obtain ⟨⟨ahead, behind⟩, bytes, recent, some, headFirst⟩ := spares
      exact ⟨⟨ahead, fair, bytes⟩, behind, fun _ => recent, fun zero => some zero.1 zero.2,
        fun _ => headFirst⟩
  | post wqe =>
      refine ⟨⟨⟨rfl, rfl, rfl, trivial⟩, fair, fun n posted at' k _ _ => ?_⟩, trivial⟩
      exact (total_le k).trans (spares posted (List.mem_of_getElem? at'))
  | advertise | drain => exact ⟨⟨⟨rfl, rfl, rfl, trivial⟩, fair, trivial⟩, trivial⟩

end Shuffled

theorem reordering_reports_no_error_shuffled : ∃ q, q.consumed = 3 ∧ Peer.NoErrorAck q := by
  have ran : (guarded Shuffled.arrive Shuffled.Spares Shuffled.arrivals Collision.ready).any
      (fun q => decide (q.consumed = 3)) = true := by
    decide +kernel
  obtain ⟨q, reached, three⟩ := exists_reaches_of_guarded ran
  have arrived : Reaches Shuffled.peer.arrive
      (fun q label => Shuffled.peer.Assumed q label ∧ Shuffled.peer.Spared q label)
      Collision.ready q :=
    reached.relabel (Prod.mk Collision.env) (fun _ _ => rfl) fun _ _ spares => spares.spared
  exact ⟨q, of_decide_eq_true three,
    reordering_reports_no_error Shuffled.peer (Refused.ready rfl) arrived⟩

/-- A write of zero bytes, and the second fragment of a write with immediate before the first. -/
theorem refused_write_reports_an_error :
    (Refused.zero.Ready Collision.ready ∧ ∃ q,
      Reaches Refused.zero.arrive Refused.zero.Assumed Collision.ready q ∧
        ¬ Peer.NoErrorAck q) ∧
    Refused.tail.Ready Collision.ready ∧ ∃ q,
      Reaches Refused.tail.arrive Refused.tail.Assumed Collision.ready q ∧
        ¬ Peer.NoErrorAck q :=
  ⟨⟨Refused.ready rfl, Refused.refused Peer.count_pos rfl⟩,
    Refused.ready rfl, Refused.refused (by decide) Refused.tail_refused⟩

end Tbv.RecvQueue
