import ThunderboltIbverbs.Recv.Fragments

/-! # Native receive is exactly once and in order

Runs of a receive side that sees the fragments of one peer, with losses, duplicates and any
order, between the sections of posted receives. -/
set_option autoImplicit false
namespace Tbv.RecvQueue

open Trans
open Tbv.NativeData
open Tbv.SendQueue (IbSendWr SendOp postSendOne fillCtx)

/-- What reaches the receive side: a fragment of the peer, and the sections of
`tbv_post_recv`. -/
inductive Arrival where
  | fragment (k i : Nat)
  | post (wqe : RecvWqe)
  | advertise
  | drain
  deriving DecidableEq, Repr

namespace Peer

variable (p : Peer)

def handleFragment (q : Rx) (env : Env) (k i : Nat) : Rx :=
  if (p.op k).isSend then q.handleSendFragment env (p.header k i) (p.payload k i)
  else q.handleRdmaWriteFragment env (p.header k i) (p.payload k i)

/-- One arrival; a post that is refused is no step. -/
def arrive (q : Rx) : Env × Arrival → Option Rx
  | (env, .fragment k i) => some (p.handleFragment q env k i)
  | (_, .post wqe) => if (q.postOne wqe).2 then some (q.postOne wqe).1 else none
  | (env, .advertise) => some (q.advertiseRecvCredits env)
  | (env, .drain) => some (q.drainReorder env)

/-- Allocations succeed, the CQ is not full, and a fragment is of an operation less than 1024
ahead. -/
def Ahead (q : Rx) (label : Env × Arrival) : Prop :=
  label.1.allocMsg = true ∧ label.1.allocFrag = true ∧ label.1.cqFull = false ∧
    match label.2 with
    | .fragment k i => i < p.count k ∧ k < q.consumed + reorderMaxMessages
    | _ => True

/-- The operation is also at most 2^24 - 1024 behind. -/
def InWindow (q : Rx) (label : Env × Arrival) : Prop :=
  p.Ahead q label ∧ match label.2 with
    | .fragment k _ => q.consumed + reorderMaxMessages ≤ k + psnMod
    | _ => True

/-- What the peer and the rest of the kernel do right: the MRs cover each write, a fragment fits
on the reorder list, and a posted WQE is large enough for the operation that takes it. -/
def Assumed (q : Rx) (label : Env × Arrival) : Prop :=
  p.Ahead q label ∧ p.Fair label.1 ∧ match label.2 with
    | .fragment k i => q.reorderBytes + p.length k i ≤ reorderMaxBytes
    | .post wqe => p.Roomy (q.posted ++ [wqe])
    | _ => True

/-- The fragment is no write of zero bytes, its operation is not so far behind that its PSN seems
to be ahead, and it is not of the rest of a write with immediate whose first fragment is
missing. -/
def Spared (q : Rx) (label : Env × Arrival) : Prop :=
  match label.2 with
  | .fragment k i =>
      q.consumed + reorderMaxMessages ≤ k + psnMod ∧
        (p.op k ≠ .rdmaWriteImm → q.consumed ≤ k + 2 ^ 23) ∧
        ¬ (p.op k = .rdmaWrite ∧ p.total k = 0) ∧
        (q.rnrSuppresses (p.header k i) (p.psn k) = false → p.HeadFirst k i q)
  | _ => True

/-- A QP that waits for the first operation of the peer. -/
structure Begins (start : Rx) : Prop where
  fresh : start.Fresh
  expected : start.expectedPsn = p.psn 0
  openQp : start.closing = false
  consumed : start.consumed = 0
  log : start.log = []
  posted : start.posted = start.recvq

/-- The receives are completed in the order of the operations and of their posts, one for each
operation that takes one; an OK names an operation that was completed before. -/
structure Received (q : Rx) : Prop where
  inOrder : List.Forall₂ p.Completes (p.takers q.consumed) (completions q.log)
  oldest : q.log.filterMap Entry.wqe? <+: q.posted
  acked : p.Acked False q.log

end Peer

section
variable {p : Peer} {clean : Prop} {q next : Rx} {env : Env}

theorem Ledger.post {lag : Nat} {held : List RecvWqe} {wqe : RecvWqe}
    (ledger : Ledger p clean lag held q) (accepted : (q.postOne wqe).2 = true)
    (fits : clean → p.Roomy (q.posted ++ [wqe])) : Ledger p clean lag held (q.postOne wqe).1 := by
  unfold Rx.postOne at accepted ⊢
  split at accepted
  · cases accepted
  rename_i open'
  rw [if_neg open']
  refine ⟨ledger.expected, ledger.openQp, ledger.completed, ?_, ledger.acked, ledger.entries,
    ledger.history, fits⟩
  change q.posted ++ [wqe] = _ ++ (q.recvq ++ [wqe])
  rw [ledger.queue, List.append_assoc]

namespace Steady

theorem post {wqe : RecvWqe} (steady : Steady p clean q) (accepted : (q.postOne wqe).2 = true)
    (fits : clean → p.Roomy (q.posted ++ [wqe])) : Steady p clean (q.postOne wqe).1 := by
  have rest : (q.postOne wqe).1.rxMsg = q.rxMsg ∧ (q.postOne wqe).1.rxWrite = q.rxWrite ∧
      (q.postOne wqe).1.consumed = q.consumed ∧ (q.postOne wqe).1.cfg = q.cfg := by
    unfold Rx.postOne
    split <;> exact ⟨rfl, rfl, rfl, rfl⟩
  exact steady.of_ledger (steady.ledger.post accepted fits) rest.1 rest.2.1 rest.2.2.1 rest.2.2.2

theorem advertise (steady : Steady p clean q) : Steady p clean (q.advertiseRecvCredits env) := by
  unfold Rx.advertiseRecvCredits
  repeat' split
  all_goals try exact steady
  have advertised := steady.ledger.aside q.rxMsg q.rxWrite q.rnr q.recvq.length
  exact steady.of_ledger (advertised.note rfl nofun) rfl rfl rfl rfl

/-- A QP before the first operation. -/
theorem start (begins : p.Begins q) (history : clean → NoErrors q.ackHistory)
    (roomy : clean → p.Roomy q.posted) : Steady p clean q := by
  refine .of_idle ⟨?_, begins.openQp, ?_, ?_, ?_, ?_, history, roomy⟩
    ⟨begins.fresh.message, begins.fresh.write⟩
  · rw [begins.expected, begins.consumed]
  · rw [begins.consumed, begins.log]
    exact .nil
  · rw [begins.log, begins.posted]
    rfl
  · rw [begins.log]
    intro before psn status consumed after split
    cases before <;> cases split
  · rw [begins.fresh.reorder]
    exact fun m among => by cases among

theorem received (steady : Steady p False q) : p.Received q where
  inOrder := steady.ledger.completed
  oldest := by
    rw [steady.ledger.queue, List.append_assoc]
    exact List.prefix_append ..
  acked := steady.ledger.acked

/-- One arrival; a run that is to answer nothing with an error needs more than the window. -/
theorem arrive {label : Env × Arrival} (steady : Steady p clean q) (window : p.InWindow q label)
    (safe : clean → q.Sound ∧ q.remoteWrite = true ∧ p.Assumed q label ∧ p.Spared q label)
    (arrives : p.arrive q label = some next) : Steady p clean next := by
  obtain ⟨env, arrival⟩ := label
  obtain ⟨⟨-, -, notFull, ahead⟩, behind⟩ := window
  cases arrival with
  | fragment k i =>
      have near : Near p k i q := ⟨ahead.1, behind, ahead.2⟩
      have room : clean → Room p env k i q := fun isClean => by
        obtain ⟨sound, -, ⟨-, fair, bytes⟩, ⟨-, recent, -⟩⟩ := safe isClean
        exact ⟨fair, recent, sound, bytes⟩
      cases Option.some.inj arrives
      unfold Peer.handleFragment
      split
      · rename_i send
        exact steady.handleSendFragment near send notFull room
      · rename_i write
        refine steady.handleRdmaWriteFragment near (by simpa using write) notFull room
          fun isClean => ?_
        obtain ⟨-, remoteWrite, -, ⟨-, -, some, headFirst⟩⟩ := safe isClean
        exact ⟨remoteWrite, some, headFirst⟩
  | post wqe =>
      simp only [Peer.arrive] at arrives
      split at arrives
      · rename_i accepted
        cases Option.some.inj arrives
        exact steady.post accepted fun isClean => (safe isClean).2.2.1.2.2
      · cases arrives
  | advertise =>
      cases Option.some.inj arrives
      exact steady.advertise
  | drain =>
      cases Option.some.inj arrives
      exact steady.drainReorder notFull fun isClean => (safe isClean).2.2.1.2.1

end Steady

end

/-! ## Operations 2^24 apart -/

namespace Peer

def empty (op : Nat → SendOp) : Peer where
  qp := ⟨.rc, 2, 1, 0, true, true⟩
  start := 0
  mrs := fun _ _ => none
  wr := fun k => { opcode := op k, sgList := [] }
  memory := fun _ _ => 0
  ctx := fun k => fillCtx ⟨.rc, 2, 1, .ofNat ((0 + k) % psnMod), true, true⟩
    { opcode := op k, sgList := [] } []
  accepted := fun k => by
    unfold postSendOne
    cases op k <;> rfl

end Peer

namespace Wrap

/-- SENDs, and a SEND with immediate 2^24 operations after the first one. -/
def peer : Peer := .empty fun k => if k = psnMod then .sendImm else .send

def wqe : RecvWqe := ⟨1, 0, 64, 0⟩

/-- The receive side before the operation `n`. -/
def waits (n : Nat) (posted : List RecvWqe) (ackHistory : Nat → Option (Nat × SendAckStatus))
    (log : List Entry) : Rx :=
  { Collision.ready with
    expectedPsn := peer.psn n, consumed := n, posted, ackHistory, log }

theorem peer_send (k : Nat) : (peer.op k).isSend = true := by
  rw [Peer.op_eq]
  change (if k = psnMod then SendOp.sendImm else .send).isSend = true
  split <;> rfl

theorem peer_total (k : Nat) : peer.total k = 0 := by
  change (fillCtx _ ⟨if k = psnMod then SendOp.sendImm else .send, _, _, _, _, _, _⟩
    []).totalLen = 0
  split <;> rfl

theorem peer_count (k : Nat) : peer.count k = 1 := by
  rw [Peer.count, peer_total]
  rfl

theorem peer_payload (k : Nat) : peer.payload k 0 = [] := by
  by_contra some
  exact (Peer.payload_ne_nil Peer.count_pos).mp some (peer_total k)

theorem peer_last (k : Nat) : peer.last k 0 = true :=
  (Peer.last_iff_place Peer.count_pos).mpr (peer_count k).symm

/-- A receive is posted, and an operation with the expected PSN comes. -/
theorem serve (n k : Nat) (same : peer.psn k = peer.psn n) (posted : List RecvWqe)
    (ackHistory : Nat → Option (Nat × SendAckStatus)) (log : List Entry) :
    ∃ later, peer.handleFragment ((waits n posted ackHistory log).postOne wqe).1 Collision.env k 0 =
      waits (n + 1) (posted ++ [wqe]) later
        (log ++ [.recv wqe .success (peer.sendImm k) [], .ack (peer.psn k) .ok (n + 1)]) := by
  have send := peer_send k
  obtain ⟨total, -, -⟩ := Peer.header_send (i := 0) send
  have accepted : ((waits n posted ackHistory log).postOne wqe).1 =
      { waits n posted ackHistory log with recvq := [wqe], posted := posted ++ [wqe] } := rfl
  rw [accepted, Peer.handleFragment, if_pos send]
  unfold Rx.handleSendFragment
  dsimp only
  rw [Peer.sendBadHeader_header send Peer.count_pos, if_neg (by decide), Peer.header_psn,
    Peer.psn_mod]
  have unmarked : Rx.rnrSuppresses { waits n posted ackHistory log with
      recvq := [wqe], posted := posted ++ [wqe] } (peer.header k 0) (peer.psn k) = false := rfl
  rw [unmarked, if_neg (by decide)]
  change ∃ later, Rx.handleOrdered { waits n posted ackHistory log with
      recvq := [wqe], posted := posted ++ [wqe] } Collision.env (peer.header k 0) (peer.psn k)
      (peer.payload k 0) = _
  unfold Rx.handleOrdered
  dsimp only
  rw [peer_payload, Peer.header_last, peer_last, total]
  have head : ((Rx.reorderFind { waits n posted ackHistory log with
      recvq := [wqe], posted := posted ++ [wqe] } (peer.psn k)).isSome || peer.psn k != peer.psn n ||
      (peer.header k 0).fragOffset != 0) = false := by
    rw [same, bne_self_eq_false, Peer.header_fragOffset]
    rfl
  change ∃ later, (if ((Rx.reorderFind { waits n posted ackHistory log with
      recvq := [wqe], posted := posted ++ [wqe] } (peer.psn k)).isSome || peer.psn k != peer.psn n ||
      (peer.header k 0).fragOffset != 0) = true then _ else _) = _
  rw [head, if_neg (by decide)]
  have message : newMessage (peer.header k 0) (peer.psn k) wqe 0 =
      ⟨wqe, 2, peer.psn k, 0, peer.op k == .sendImm, (peer.sendImm k).getD 0, .success, 0, [], 0, 0,
        []⟩ := by
    have own : peer.Assembling k [] (newMessage (peer.header k 0) (peer.psn k) wqe 0) :=
      Peer.assembling_newMessage send 0 0
    have withImm : ((peer.header k 0).opcode == .sendImm) = (peer.op k == .sendImm) := own.withImm
    have immData : sendImmData (peer.header k 0) = (peer.sendImm k).getD 0 := own.immData
    unfold newMessage
    rw [withImm, immData, total, peer_total]
    rfl
  change ∃ later, Rx.orderedFragment { waits n posted ackHistory log with
      recvq := [], advertised := 0, posted := posted ++ [wqe] } Collision.env
      (newMessage (peer.header k 0) (peer.psn k) wqe 0) (peer.header k 0).fragOffset [] true = _
  rw [message]
  refine ⟨Function.update ackHistory (peer.psn k % ackHistorySize)
    (some (peer.psn k % psnMod, .ok)), ?_⟩
  change Rx.drainReorder { waits n posted ackHistory log with
      recvq := [], advertised := 0, posted := posted ++ [wqe]
      expectedPsn := psnNext (peer.psn k), consumed := n + 1
      ackHistory := Function.update ackHistory (peer.psn k % ackHistorySize)
        (some (peer.psn k % psnMod, .ok))
      log := log ++ [.recv wqe .success (immOf (peer.op k == .sendImm) ((peer.sendImm k).getD 0)) []]
        ++ [.ack (peer.psn k) .ok (n + 1)] } Collision.env = _
  rw [Ledger.immOf_eq, same, Peer.psnNext_psn, List.append_assoc]
  rfl

theorem post {n : Nat} {posted : List RecvWqe} {ackHistory : Nat → Option (Nat × SendAckStatus)}
    {log : List Entry}
    (reached : Reaches peer.arrive peer.Ahead Collision.ready (waits n posted ackHistory log)) :
    Reaches peer.arrive peer.Ahead Collision.ready
      ((waits n posted ackHistory log).postOne wqe).1 :=
  @Reaches.step _ _ _ _ _ _ _ (Collision.env, .post wqe) reached ⟨rfl, rfl, rfl, trivial⟩ rfl

/-- The operations are served one after another. -/
theorem reaches (n : Nat) : ∃ posted ackHistory log,
    Reaches peer.arrive peer.Ahead Collision.ready (waits n posted ackHistory log) := by
  induction n with
  | zero => exact ⟨[], fun _ => none, [], .init⟩
  | succ n ih =>
      obtain ⟨posted, ackHistory, log, reached⟩ := ih
      obtain ⟨later, served⟩ := serve n n rfl posted ackHistory log
      have near : peer.Ahead ((waits n posted ackHistory log).postOne wqe).1
          (Collision.env, .fragment n 0) :=
        ⟨rfl, rfl, rfl, Peer.count_pos, Nat.lt_add_of_pos_right (by decide)⟩
      have sees := (post reached).step near rfl
      rw [served] at sees
      exact ⟨_, _, _, sees⟩

end Wrap

/-- Every run of arrivals inside the window completes every operation at most once, in order, and
with its own bytes. -/
theorem received_once_in_order (p : Peer) {start q : Rx} (begins : p.Begins start)
    (reached : Reaches p.arrive p.InWindow start q) : p.Received q := by
  have steady : Steady p False q :=
    reached.invariant (.start begins (fun unclean => unclean.elim) fun unclean => unclean.elim)
      fun steady window arrives => steady.arrive window (fun unclean => unclean.elim) arrives
  exact steady.received

namespace Shuffled

def wr : Nat → IbSendWr
  | 0 => { opcode := .send, sgList := [⟨0, 4049, 1⟩] }
  | 1 => { opcode := .rdmaWriteImm, sgList := [⟨0, 4049, 1⟩], immData := 5, rkey := 7 }
  | _ => { opcode := .sendImm, sgList := [⟨4049, 1, 1⟩], immData := 6 }

def segment (k : Nat) : SendQueue.Segment :=
  if k < 2 then ⟨0, 4049, Nat.succ_pos maxPayload⟩ else ⟨4049, 1, Nat.zero_lt_one⟩

/-- A SEND and a write with immediate of two fragments each, and then SENDs with immediate. -/
def peer : Peer where
  qp := ⟨.rc, 2, 1, 0, true, true⟩
  start := 0
  mrs := fun _ _ => some ⟨0, 4050, false⟩
  wr := wr
  memory := fun _ addr => if addr < 4048 then 1 else if addr = 4048 then 2 else 3
  ctx := fun k => fillCtx ⟨.rc, 2, 1, .ofNat ((0 + k) % psnMod), true, true⟩ (wr k) [segment k]
  accepted := fun k => by
    match k with
    | 0 | 1 | _ + 2 => rfl

def wqe : RecvWqe := ⟨1, 0, 8192, 0⟩

/-- The third operation comes first, the first one with its tail ahead, and two fragments come
twice. -/
def arrivals : List Arrival :=
  [.post wqe, .post wqe, .post wqe, .fragment 2 0, .fragment 0 1, .fragment 0 0, .fragment 0 1,
    .fragment 1 0, .fragment 1 1, .fragment 1 1]

/-- All of them reach the receive side in one environment. -/
def arrive (q : Rx) (arrival : Arrival) : Option Rx := peer.arrive q (Collision.env, arrival)

instance (q : Rx) : (arrival : Arrival) → Decidable (peer.InWindow q (Collision.env, arrival))
  | .fragment _ _ =>
      inferInstanceAs (Decidable ((_ = true ∧ _ = true ∧ _ = false ∧ _ < _ ∧ _ < _) ∧ _ ≤ _))
  | .post _ | .advertise | .drain =>
      inferInstanceAs (Decidable ((_ = true ∧ _ = true ∧ _ = false ∧ True) ∧ True))

end Shuffled

theorem received_once_in_order_shuffled : ∃ q, q.consumed = 3 ∧ Shuffled.peer.Received q := by
  have begins : Shuffled.peer.Begins Collision.ready :=
    ⟨Collision.ready_fresh, rfl, rfl, rfl, rfl, rfl⟩
  have ran : (guarded Shuffled.arrive
      (fun q arrival => Shuffled.peer.InWindow q (Collision.env, arrival)) Shuffled.arrivals
      Collision.ready).any (fun q => decide (q.consumed = 3)) = true := by
    decide +kernel
  obtain ⟨q, reached, three⟩ := exists_reaches_of_guarded ran
  exact ⟨q, of_decide_eq_true three, received_once_in_order Shuffled.peer begins
    (reached.relabel (Prod.mk Collision.env) (fun _ _ => rfl) fun _ _ meets => meets)⟩

theorem forall₂_concat {Left Right : Type} {R : Left → Right → Prop} {left : List Left}
    {right : List Right} {a : Left} {b : Right}
    (both : List.Forall₂ R (left ++ [a]) (right ++ [b])) : R a b := by
  have reversed := List.forall₂_reverse_iff.mpr both
  rw [List.reverse_append, List.reverse_append] at reversed
  exact (List.forall₂_cons.mp reversed).1

/-- The duplicate of the first operation is taken for the one 2^24 later. -/
theorem wrapped_duplicate_is_completed : Wrap.peer.Begins Collision.ready ∧
    ∃ q, Reaches Wrap.peer.arrive Wrap.peer.Ahead Collision.ready q ∧ ¬ Wrap.peer.Received q := by
  refine ⟨⟨Collision.ready_fresh, rfl, rfl, rfl, rfl, rfl⟩, ?_⟩
  obtain ⟨posted, ackHistory, log, reached⟩ := Wrap.reaches psnMod
  obtain ⟨later, served⟩ := Wrap.serve psnMod 0 rfl posted ackHistory log
  have near : Wrap.peer.Ahead ((Wrap.waits psnMod posted ackHistory log).postOne Wrap.wqe).1
      (Collision.env, .fragment 0 0) :=
    ⟨rfl, rfl, rfl, Peer.count_pos, Nat.add_pos_right _ (by decide)⟩
  have sees := (Wrap.post reached).step near rfl
  rw [served] at sees
  refine ⟨_, sees, fun received => ?_⟩
  have last : Wrap.peer.takers (psnMod + 1) = Wrap.peer.takers psnMod ++ [psnMod] := by
    rw [Peer.takers_succ, Peer.takesRecv_of_send (Wrap.peer_send psnMod), if_pos rfl]
  have entry : completions (log ++ [.recv Wrap.wqe .success (Wrap.peer.sendImm 0) [],
      .ack (Wrap.peer.psn 0) .ok (psnMod + 1)]) =
      completions log ++ [.recv Wrap.wqe .success (Wrap.peer.sendImm 0) []] := by
    rw [completions, List.filter_append]
    rfl
  have inOrder := received.inOrder
  change List.Forall₂ _ (Wrap.peer.takers (psnMod + 1)) (completions (log ++ _)) at inOrder
  rw [last, entry] at inOrder
  obtain ⟨-, completes⟩ := forall₂_concat inOrder
  obtain ⟨-, imm, -⟩ := completes rfl
  have first : Wrap.peer.sendImm 0 = none := rfl
  have wrapped : Wrap.peer.sendImm psnMod = some (Wrap.peer.imm psnMod) := rfl
  rw [first, wrapped] at imm
  cases imm

end Tbv.RecvQueue
