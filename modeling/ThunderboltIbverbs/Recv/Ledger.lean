import ThunderboltIbverbs.Lib.Layout
import ThunderboltIbverbs.Recv.Accounts
import ThunderboltIbverbs.Recv.Peer

/-! # The ledger of one peer

What the receive side holds of the operations of a peer, and what it has said of them: the
operations before the expected PSN are completed, one receive each, in order; the entries of the
reorder list are parts of later ones. -/
set_option autoImplicit false
namespace Tbv.RecvQueue

open Tbv.NativeData
open Tbv.SendQueue (SendOp)

/-- The WQE of a receive completion. -/
def Entry.wqe? : Entry → Option RecvWqe
  | .recv wqe .. | .recvImm wqe .. => some wqe
  | _ => none

def completions (log : List Entry) : List Entry := log.filter fun entry => entry.wqe?.isSome

/-- The writes put the data at the start of the buffer and leave the rest of it alone. -/
def Fills (writes : List Write) (data : List UInt8) : Prop :=
  ∀ buf : List UInt8, data.length ≤ buf.length →
    Layout.storeAll buf writes = data ++ buf.drop data.length

namespace Peer

variable (p : Peer)

/-- The operations below `n` that take a receive. -/
def takers (n : Nat) : List Nat := (List.range n).filter p.takesRecv

def sendImm (k : Nat) : Option Nat := if p.op k = .sendImm then some (p.imm k) else none

def Completes (k : Nat) : Entry → Prop
  | .recv wqe status imm writes => (p.op k).isSend = true ∧ (status = .success →
      p.total k ≤ wqe.length ∧ imm = p.sendImm k ∧ Fills writes (p.data k))
  | .recvImm _ status imm => p.op k = .rdmaWriteImm ∧ (status = .success → imm = some (p.imm k))
  | _ => False

/-- What the log says to the peer: an OK names an operation that has been completed before.
Where `clean` is asked for, there is no ERROR. -/
def Acked (clean : Prop) (log : List Entry) : Prop :=
  ∀ before psn status consumed after, log = before ++ .ack psn status consumed :: after →
    (status = .ok → ∃ k < consumed, psn = p.psn k ∧
      (completions before).length = (p.takers consumed).length) ∧ (clean → status ≠ .error)

/-! ## What is held of an operation -/

/-- The fragment in a reorder entry; an empty one leaves nothing. -/
def fragOf (k i : Nat) : List ReorderFrag :=
  if p.payload k i = [] then [] else [⟨offset i, p.payload k i⟩]

/-- The fragment in a receive buffer. -/
def writeOf (k i : Nat) : List Write :=
  if p.payload k i = [] then [] else [(offset i, p.payload k i)]

def fresh (k : Nat) : ReorderMsg :=
  if (p.op k).isSend then
    { kind := .send, srcQp := p.srcQp, psn := p.psn k, totalLen := p.total k
      withImm := p.op k == .sendImm, immData := (p.sendImm k).getD 0, fragCount := p.count k }
  else
    { kind := .write, srcQp := p.srcQp, psn := p.psn k, totalLen := p.total k
      remoteAddr := (p.wr k).remoteAddr.toNat, rkey := (p.wr k).rkey.toNat
      fragCount := p.count k }

/-- The entry holds a part of the operation. -/
structure Holds (k : Nat) (m : ReorderMsg) : Prop where
  same : m.empty = p.fresh k
  bufferable : p.op k ≠ .rdmaWriteImm
  distinct : m.fragSeen.Nodup
  inside : ∀ i ∈ m.fragSeen, i < p.count k
  received : m.fragsReceived = m.fragSeen.length
  complete : m.complete = decide (m.fragSeen.length = p.count k)
  frags : m.frags = m.fragSeen.flatMap (p.fragOf k)

/-- The active message has the fragments `seen` of the SEND. -/
structure Assembling (k : Nat) (seen : List Nat) (m : RxMessage) : Prop where
  send : (p.op k).isSend = true
  srcQp : m.srcQp = p.srcQp
  psn : m.psn = p.psn k
  totalLen : m.totalLen = p.total k
  withImm : m.withImm = (p.op k == .sendImm)
  immData : m.immData = (p.sendImm k).getD 0
  distinct : seen.Nodup
  inside : ∀ i ∈ seen, i < p.count k
  placed : m.status = .success → p.total k ≤ m.wqe.length ∧ m.writes = seen.flatMap (p.writeOf k)

def Counts (striping : Bool) (k : Nat) (seen : List Nat) (m : RxMessage) : Prop :=
  if striping then m.fragSeen = seen ∧ m.fragsReceived = seen.length ∧ m.fragCount = p.count k
  else seen = List.range seen.length ∧ m.received = offset seen.length

structure Writing (k : Nat) (w : RxWrite) : Prop where
  write : (p.op k).isSend = false
  srcQp : w.srcQp = p.srcQp
  psn : w.psn = p.psn k
  remoteAddr : w.remoteAddr = (p.wr k).remoteAddr.toNat
  rkey : w.rkey = (p.wr k).rkey.toNat
  immData : w.immData = if p.op k = .rdmaWriteImm then p.imm k else p.total k
  withImm : w.withImm = (p.op k == .rdmaWriteImm)
  immWqe : w.immWqe.isSome = (p.op k == .rdmaWriteImm)

def Roomy (posted : List RecvWqe) : Prop :=
  ∀ n wqe, posted[n]? = some wqe → ∀ k, p.takesRecv k = true → (p.takers k).length = n →
    p.total k ≤ wqe.length

end Peer

def NoErrors (history : Nat → Option (Nat × SendAckStatus)) : Prop :=
  ∀ slot psn, history slot ≠ some (psn, .error)

/-- The ledger.  `lag`: how far behind the expected operation an entry of the reorder list may
be; `held` are the receives popped for an operation that is not completed. -/
structure Ledger (p : Peer) (clean : Prop) (lag : Nat) (held : List RecvWqe) (q : Rx) : Prop where
  expected : q.expectedPsn = p.psn q.consumed
  openQp : q.closing = false
  completed : List.Forall₂ p.Completes (p.takers q.consumed) (completions q.log)
  queue : q.posted = q.log.filterMap Entry.wqe? ++ held ++ q.recvq
  acked : p.Acked clean q.log
  entries : ∀ m ∈ q.reorder, ∃ k, q.consumed ≤ k + lag ∧ k < q.consumed + reorderMaxMessages ∧
    p.Holds k m
  history : clean → NoErrors q.ackHistory
  roomy : clean → p.Roomy q.posted

/-! ## The log -/

theorem completions_note (log : List Entry) (entry : Entry) :
    completions (log ++ [entry]) =
      completions log ++ if entry.wqe?.isSome then [entry] else [] := by
  unfold completions
  rw [List.filter_append, List.filter_cons, List.filter_nil]

theorem length_completions (log : List Entry) :
    (log.filterMap Entry.wqe?).length = (completions log).length := by
  induction log with
  | nil => rfl
  | cons entry rest ih =>
      unfold completions at ih ⊢
      cases is : entry.wqe? with
      | none => simpa [is] using ih
      | some wqe => simpa [is] using ih

section
variable {p : Peer} {clean : Prop} {log : List Entry}

theorem Peer.takers_succ (p : Peer) (n : Nat) :
    p.takers (n + 1) = p.takers n ++ if p.takesRecv n then [n] else [] := by
  unfold takers
  rw [List.range_succ, List.filter_append]
  congr 1
  cases is : p.takesRecv n <;> simp [is]

theorem Peer.Acked.note {entry : Entry} (acked : p.Acked clean log)
    (fine : ∀ psn status consumed, entry = .ack psn status consumed →
      (status = .ok → ∃ k < consumed, psn = p.psn k ∧
        (completions log).length = (p.takers consumed).length) ∧ (clean → status ≠ .error)) :
    p.Acked clean (log ++ [entry]) := by
  intro before psn status consumed after split
  rcases Trans.split_append split with ⟨-, rfl, is⟩ | ⟨rest, -, earlier⟩
  · exact fine _ _ _ is.symm
  · exact acked _ _ _ _ _ earlier

end

/-! ## Acts on the ledger -/

theorem Peer.Holds.psn {p : Peer} {k : Nat} {m : ReorderMsg} (holds : p.Holds k m) :
    m.psn = p.psn k := by
  have psn := congrArg ReorderMsg.psn holds.same
  unfold Peer.fresh at psn
  split at psn <;> exact psn

theorem NoErrors.store {q : Rx} (clean : NoErrors q.ackHistory) (psn : Nat)
    {status : SendAckStatus} (error : status ≠ .error) :
    NoErrors (q.ackHistoryStore psn status).ackHistory := by
  intro slot other
  change Function.update q.ackHistory _ _ slot ≠ _
  by_cases here : slot = psn % ackHistorySize
  · subst here
    rw [Function.update_self]
    rintro is
    cases is
    exact error rfl
  · rw [Function.update_of_ne here]
    exact clean slot other

namespace Ledger

variable {p : Peer} {clean : Prop} {lag : Nat} {held : List RecvWqe} {q next : Rx}

theorem aside (ledger : Ledger p clean lag held q) (rxMsg : Option RxMessage)
    (rxWrite : Option RxWrite) (rnr : Option RnrMark) (advertised : Nat) :
    Ledger p clean lag held { q with rxMsg, rxWrite, rnr, advertised } :=
  ⟨ledger.expected, ledger.openQp, ledger.completed, ledger.queue, ledger.acked, ledger.entries,
    ledger.history, ledger.roomy⟩

theorem length_completed (ledger : Ledger p clean lag held q) :
    (completions q.log).length = (p.takers q.consumed).length := ledger.completed.length_eq.symm

theorem note (ledger : Ledger p clean lag held q) {entry : Entry} (plain : entry.wqe? = none)
    (fine : ∀ psn status consumed, entry = .ack psn status consumed → consumed = q.consumed ∧
      (status = .ok → ∃ k < q.consumed, psn = p.psn k) ∧ (clean → status ≠ .error)) :
    Ledger p clean lag held (q.note entry) where
  expected := ledger.expected
  openQp := ledger.openQp
  completed := by
    have same : completions (q.log ++ [entry]) = completions q.log := by
      rw [completions_note, plain]
      exact List.append_nil _
    change List.Forall₂ _ _ (completions (q.log ++ [entry]))
    rw [same]
    exact ledger.completed
  queue := by
    change q.posted = (q.log ++ [entry]).filterMap Entry.wqe? ++ held ++ q.recvq
    rw [List.filterMap_append, List.filterMap_cons_none plain, List.filterMap_nil, List.append_nil]
    exact ledger.queue
  acked := ledger.acked.note fun psn status consumed is => by
    obtain ⟨rfl, ok, error⟩ := fine psn status consumed is
    refine ⟨fun isOk => ?_, error⟩
    obtain ⟨k, passed, named⟩ := ok isOk
    exact ⟨k, passed, named, ledger.length_completed⟩
  entries := ledger.entries
  history := ledger.history
  roomy := ledger.roomy

theorem sendAck (ledger : Ledger p clean lag held q) {psn : Nat} {status : SendAckStatus}
    (ok : status = .ok → ∃ k < q.consumed, psn = p.psn k) (error : clean → status ≠ .error) :
    Ledger p clean lag held (q.sendAck psn status) :=
  ledger.note rfl fun _ _ _ is => by
    cases is
    exact ⟨rfl, ok, error⟩

theorem refuse (ledger : Ledger p clean lag held q) (psn : Nat) {status : SendAckStatus}
    (refused : status ≠ .ok) (error : clean → status ≠ .error) :
    Ledger p clean lag held (q.sendAck psn status) :=
  ledger.sendAck (fun ok => absurd ok refused) error

/-- The answer to a duplicate. -/
theorem reack (ledger : Ledger p clean lag held q) {k : Nat} (passed : k < q.consumed) :
    Ledger p clean lag held (q.reack (p.psn k)) := by
  refine ledger.sendAck (fun _ => ⟨k, passed, rfl⟩) fun isClean => ?_
  unfold Rx.ackHistoryLookup
  cases stored : q.ackHistory (p.psn k % ackHistorySize) with
  | none => exact ne_of_beq_false rfl
  | some slot =>
      obtain ⟨psn, status⟩ := slot
      dsimp only
      split
      · rintro rfl
        exact ledger.history isClean _ _ stored
      · decide

/-- The expected operation is passed, with the receive that it took. -/
theorem complete (ledger : Ledger p clean 0 held q) {entry : Entry} {wqe : RecvWqe}
    (isHeld : held = [wqe]) (takes : p.takesRecv q.consumed = true)
    (completes : p.Completes q.consumed entry) (of : entry.wqe? = some wqe)
    {status : SendAckStatus} (error : clean → status ≠ .error) :
    Ledger p clean 1 [] ((q.note entry).consume (p.psn q.consumed) status) where
  expected := p.psnNext_psn _
  openQp := ledger.openQp
  completed := by
    change List.Forall₂ _ (p.takers (q.consumed + 1)) (completions (q.log ++ [entry]))
    rw [p.takers_succ, takes, if_pos rfl, completions_note, of]
    exact List.rel_append ledger.completed (.cons completes .nil)
  queue := by
    change q.posted = (q.log ++ [entry]).filterMap Entry.wqe? ++ [] ++ q.recvq
    rw [List.filterMap_append, List.filterMap_cons_some of, List.filterMap_nil, List.append_nil,
      ← isHeld]
    exact ledger.queue
  acked := ledger.acked.note fun psn ack consumed is => by
    rw [is] at of
    cases of
  entries m among := by
    obtain ⟨k, behind, ahead, holds⟩ := ledger.entries m among
    change ∃ k, q.consumed + 1 ≤ k + 1 ∧ k < q.consumed + 1 + reorderMaxMessages ∧ _
    exact ⟨k, by omega, by omega, holds⟩
  history isClean := (ledger.history isClean).store (q := q.note entry) _ (error isClean)
  roomy := ledger.roomy

/-- The expected operation is passed, and takes no receive. -/
theorem pass (ledger : Ledger p clean 0 [] q) (takes : p.takesRecv q.consumed = false)
    {status : SendAckStatus} (error : clean → status ≠ .error) :
    Ledger p clean 1 [] (q.consume (p.psn q.consumed) status) where
  expected := p.psnNext_psn _
  openQp := ledger.openQp
  completed := by
    change List.Forall₂ _ (p.takers (q.consumed + 1)) (completions q.log)
    rw [p.takers_succ, takes, if_neg (by decide), List.append_nil]
    exact ledger.completed
  queue := ledger.queue
  acked := ledger.acked
  entries m among := by
    obtain ⟨k, behind, ahead, holds⟩ := ledger.entries m among
    change ∃ k, q.consumed + 1 ≤ k + 1 ∧ k < q.consumed + 1 + reorderMaxMessages ∧ _
    exact ⟨k, by omega, by omega, holds⟩
  history isClean := (ledger.history isClean).store (q := q) _ (error isClean)
  roomy := ledger.roomy

theorem pop (ledger : Ledger p clean lag [] q) {wqe : RecvWqe}
    (popped : q.popRecv = some (wqe, next)) : Ledger p clean lag [wqe] next := by
  have same := popRecv_same popped
  have front : q.recvq = wqe :: next.recvq := by
    unfold Rx.popRecv at popped
    cases left : q.recvq with
    | nil =>
        rw [left] at popped
        cases popped
    | cons first rest =>
        rw [left] at popped
        dsimp only at popped
        split at popped
        · cases popped
        · cases popped
          rfl
  have queue := ledger.queue
  rw [front, List.append_nil] at queue
  rw [same]
  exact ⟨ledger.expected, ledger.openQp, ledger.completed, by simpa using queue, ledger.acked,
    ledger.entries, ledger.history, ledger.roomy⟩

/-- The receive that is popped has room for the expected operation. -/
theorem room {wqe : RecvWqe} (ledger : Ledger p clean lag [wqe] q) (isClean : clean)
    (takes : p.takesRecv q.consumed = true) : p.total q.consumed ≤ wqe.length := by
  refine ledger.roomy isClean (p.takers q.consumed).length wqe ?_ _ takes rfl
  rw [ledger.queue, ← ledger.length_completed, ← length_completions, List.append_assoc,
    List.getElem?_append_right (Nat.le_refl _), Nat.sub_self]
  rfl

/-! ## The reorder list -/

theorem reorder (ledger : Ledger p clean lag held q) {reorder : List ReorderMsg}
    (reorderCount reorderBytes : Nat)
    (entries : ∀ m ∈ reorder, ∃ k, q.consumed ≤ k + lag ∧ k < q.consumed + reorderMaxMessages ∧
      p.Holds k m) : Ledger p clean lag held { q with reorder, reorderCount, reorderBytes } :=
  ⟨ledger.expected, ledger.openQp, ledger.completed, ledger.queue, ledger.acked, entries,
    ledger.history, ledger.roomy⟩

theorem unlink (ledger : Ledger p clean lag held q) (m : ReorderMsg) :
    Ledger p clean lag held (q.reorderUnlink m) :=
  ledger.reorder _ _ fun other among => ledger.entries other (List.mem_filter.mp among).1

theorem add (ledger : Ledger p clean lag held q) {k : Nat} {m : ReorderMsg} (holds : p.Holds k m)
    (behind : q.consumed ≤ k + lag) (ahead : k < q.consumed + reorderMaxMessages) :
    Ledger p clean lag held (q.reorderAdd m) := by
  refine ledger.reorder _ q.reorderBytes fun other among => ?_
  rcases List.mem_append.mp among with before | new
  · exact ledger.entries other before
  · cases List.mem_singleton.mp new
    exact ⟨k, behind, ahead, holds⟩

theorem set (ledger : Ledger p clean lag held q) {k : Nat} {m : ReorderMsg} (holds : p.Holds k m)
    (behind : q.consumed ≤ k + lag) (ahead : k < q.consumed + reorderMaxMessages)
    (reorderBytes : Nat) : Ledger p clean lag held ({ q with reorderBytes }.reorderSet m) := by
  refine ledger.reorder q.reorderCount reorderBytes fun other among => ?_
  obtain ⟨before, member, is⟩ := List.mem_map.mp among
  split at is
  · cases is
    exact ⟨k, behind, ahead, holds⟩
  · cases is
    exact ledger.entries _ member

/-- The entry of an operation near the expected one. -/
theorem found (ledger : Ledger p clean lag held q) (small : lag ≤ 1) {k : Nat} {m : ReorderMsg}
    (found : q.reorderFind (p.psn k) = some m)
    (behind : q.consumed + reorderMaxMessages ≤ k + psnMod)
    (ahead : k < q.consumed + reorderMaxMessages) : p.Holds k m := by
  obtain ⟨j, before, after, holds⟩ := ledger.entries m (reorderFind_mem found)
  have size : psnMod = 2 ^ 24 := rfl
  have limit : reorderMaxMessages = 1024 := rfl
  have same : j = k := p.psn_inj (by omega) (by omega)
    (holds.psn.symm.trans (reorderFind_psn found))
  exact same ▸ holds

end Ledger

end Tbv.RecvQueue
