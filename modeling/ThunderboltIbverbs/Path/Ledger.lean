import Mathlib.Data.Multiset.Count
import Mathlib.Data.Multiset.Replicate
import Mathlib.Data.Multiset.AddSub
import ThunderboltIbverbs.Path.Spec

/-! # The reservations of one path

`tx_data_reserved` is one counter for all callers.  `Account.reserved` is the
ledger it should be: one entry for each frame that a caller reserved and has
neither enqueued nor released.  `tbv_path_enqueue_data` takes from the counter
whoever calls it, so the two agree exactly as long as no sender without a
reservation of its own comes while somebody holds one. -/
set_option autoImplicit false
namespace Tbv.NativePath

open Trans

structure Account where
  path : Path
  reserved : Multiset Nat := 0

/-- A caller's move, or one of the path itself.  `sendOwned` is
`tbv_path_send_owned` and `tbv_path_send_marked_fill`, which a sender with a
reservation and one without call alike. -/
inductive Move where
  | reserve (caller frames : Nat)
  | enqueuePrepared (caller : Nat) (pkts : List TxPacket)
  | sendOwned (caller : Nat) (pkt : TxPacket)
  | pageStream (stream : PageStream)
  | release (caller frames : Nat)
  | control (pkt : TxPacket)
  | schedule (ring : RingTx)
  | complete (canceled : Bool)
  | addCredits (credits : Nat)
  | cancelDone (done doneCtx : Option Nat)
  | cancelOwner (ownerCtx : Option Nat)

namespace Account

def step (a : Account) : Move → Option Account
  | .reserve caller frames =>
      match reserveData a.path frames with
      | .ok q => some ⟨q, a.reserved + Multiset.replicate frames caller⟩
      | .error _ => some a
  | .enqueuePrepared caller pkts =>
      if pkts.length ≤ a.reserved.count caller then
        match enqueueReservedDataList a.path pkts with
        | .ok q => some ⟨q, a.reserved - Multiset.replicate pkts.length caller⟩
        | .error _ => some a
      else none
  | .sendOwned caller pkt =>
      match enqueueData a.path pkt with
      | .ok q => some ⟨q, a.reserved.erase caller⟩
      | .error _ => some a
  | .pageStream stream => some { a with path := sendPageStream a.path stream }
  | .release caller frames =>
      if frames ≤ a.reserved.count caller then
        some ⟨releaseDataReservation a.path frames,
          a.reserved - Multiset.replicate frames caller⟩
      else none
  | .control pkt => some { a with path := orKeep a.path (enqueueControl a.path pkt) }
  | .schedule ring => some { a with path := (scheduleTx a.path ring).1 }
  | .complete canceled => some { a with path := txComplete a.path canceled }
  | .addCredits credits => some { a with path := addRemoteRxCredits a.path credits }
  | .cancelDone done doneCtx => some { a with path := cancelDataDoneCtx a.path done doneCtx }
  | .cancelOwner ownerCtx => some { a with path := cancelDataOwnerCtx a.path ownerCtx }

def fresh (cfg : PathConfig) : Account where
  path := Path.fresh cfg

/-- The counter is the ledger, and whoever holds frames can enqueue them. -/
structure Ledger (a : Account) : Prop where
  staysOpen : txAdmits a.path = true
  exact : a.path.txDataReserved = a.reserved.card
  preparedTaken : ∀ caller pkts, pkts.length ≤ a.reserved.count caller →
    enqueueReservedDataList a.path pkts ≠ .error enomem
  ownedTaken : ∀ caller pkt, caller ∈ a.reserved → enqueueData a.path pkt ≠ .error enomem

/-- No sender without a reservation of its own while frames are reserved. -/
def LeavesReserved (a : Account) : Move → Prop
  | .sendOwned caller _ => caller ∈ a.reserved ∨ a.path.txDataReserved = 0
  | _ => True

end Account

/-! ## What the operations do to the counter -/

structure SameBooks (p q : Path) : Prop where
  reserved : q.txDataReserved = p.txDataReserved
  admits : txAdmits q = txAdmits p

theorem reserveData_reserved {p q : Path} {frames : Nat} (taken : reserveData p frames = .ok q) :
    q.txDataReserved = p.txDataReserved + frames ∧ txAdmits q = txAdmits p := by
  unfold reserveData at taken
  split at taken
  · rename_i none
    cases taken
    rw [none]
    exact ⟨rfl, rfl⟩
  · split at taken
    · cases taken
    · split at taken
      · cases taken
      · cases taken
        exact ⟨rfl, rfl⟩

theorem enqueueReservedDataList_reserved {p q : Path} {pkts : List TxPacket}
    (taken : enqueueReservedDataList p pkts = .ok q) :
    q.txDataReserved = p.txDataReserved - pkts.length ∧ txAdmits q = txAdmits p := by
  unfold enqueueReservedDataList at taken
  dsimp only at taken
  split at taken
  · rename_i none
    cases taken
    rw [none]
    exact ⟨rfl, rfl⟩
  · split at taken
    · cases taken
    · split at taken
      · cases taken
      · cases taken
        exact ⟨rfl, rfl⟩

theorem enqueueReservedDataList_enomem {p : Path} {pkts : List TxPacket}
    (refused : enqueueReservedDataList p pkts = .error enomem) :
    p.txDataReserved < pkts.length := by
  unfold enqueueReservedDataList at refused
  dsimp only at refused
  split at refused
  · cases refused
  · split at refused
    · cases refused
    · split at refused
      · assumption
      · cases refused

/-- `tbv_path_enqueue_data` takes a reserved frame whenever there is one. -/
theorem enqueueData_reserved {p q : Path} {pkt : TxPacket} (taken : enqueueData p pkt = .ok q) :
    q.txDataReserved = p.txDataReserved - 1 ∧ txAdmits q = txAdmits p := by
  unfold enqueueData at taken
  dsimp only at taken
  split at taken
  · cases taken
  · split at taken
    · cases taken
      exact ⟨rfl, rfl⟩
    · rename_i none
      split at taken
      · cases taken
      · cases taken
        simp only [ne_eq, not_not] at none
        exact ⟨by rw [none], rfl⟩

theorem enqueueData_enomem {p : Path} {pkt : TxPacket}
    (refused : enqueueData p pkt = .error enomem) : p.txDataReserved = 0 := by
  unfold enqueueData at refused
  dsimp only at refused
  split at refused
  · cases refused
  · split at refused
    · cases refused
    · rename_i none
      simpa using none

theorem enqueueData_of_reserved {p : Path} (pkt : TxPacket) (admits : txAdmits p = true)
    (reserved : p.txDataReserved ≠ 0) : ∃ q, enqueueData p pkt = .ok q := by
  simp [enqueueData, admits, reserved]

theorem enqueueDataList_books {p q : Path} {pkts : List TxPacket}
    (taken : enqueueDataList p pkts = .ok q) : SameBooks p q := by
  unfold enqueueDataList at taken
  dsimp only at taken
  repeat' split at taken
  all_goals cases taken
  all_goals exact ⟨rfl, rfl⟩

theorem sendPageStream_books (p : Path) (stream : PageStream) :
    SameBooks p (sendPageStream p stream) := by
  unfold sendPageStream
  split
  · rename_i taken
    have books := enqueueDataList_books taken
    exact ⟨books.reserved, books.admits⟩
  · rw [releasePacketList_eq]
    exact ⟨rfl, rfl⟩

theorem enqueueControl_books (p : Path) (pkt : TxPacket) :
    SameBooks p (orKeep p (enqueueControl p pkt)) := by
  unfold enqueueControl
  split <;> exact ⟨rfl, rfl⟩

theorem scheduleTx_books (p : Path) (ring : RingTx) : SameBooks p (scheduleTx p ring).1 := by
  unfold scheduleTx
  split
  · exact ⟨rfl, rfl⟩
  · split
    · exact ⟨rfl, rfl⟩
    · rw [scheduleTake_eq]
      dsimp only
      split
      · exact ⟨rfl, rfl⟩
      · unfold scheduleRollback txPacketRelease
        dsimp only
        repeat' split
        all_goals exact ⟨rfl, rfl⟩

theorem txComplete_books (p : Path) (canceled : Bool) : SameBooks p (txComplete p canceled) := by
  cases queue : p.ring with
  | nil =>
      rw [txComplete_nil queue]
      exact ⟨rfl, rfl⟩
  | cons pkt rest =>
      rw [txComplete_cons queue, finishRawStreamIfNeeded_frame]
      exact ⟨rfl, rfl⟩

theorem cancelDataMatch_books (p : Path) (done doneCtx ownerCtx : Option Nat) :
    SameBooks p (cancelDataMatch p done doneCtx ownerCtx) := by
  unfold cancelDataMatch
  split
  · exact ⟨rfl, rfl⟩
  · dsimp only
    rw [releasePacketList_eq]
    split <;> exact ⟨rfl, rfl⟩

theorem addRemoteRxCredits_books (p : Path) (credits : Nat) :
    SameBooks p (addRemoteRxCredits p credits) := by
  unfold addRemoteRxCredits
  split <;> exact ⟨rfl, rfl⟩

/-! ## The ledger -/

namespace Account

theorem ledger_of_exact {a : Account} (staysOpen : txAdmits a.path = true)
    (exact : a.path.txDataReserved = a.reserved.card) : Ledger a where
  staysOpen := staysOpen
  exact := exact
  preparedTaken := by
    intro caller pkts held refused
    have short := enqueueReservedDataList_enomem refused
    have bounded := Multiset.count_le_card caller a.reserved
    omega
  ownedTaken := by
    intro caller pkt held refused
    have none := enqueueData_enomem refused
    have some := Multiset.card_pos_iff_exists_mem.mpr ⟨caller, held⟩
    omega

theorem card_sub_replicate {reserved : Multiset Nat} {caller frames : Nat}
    (held : frames ≤ reserved.count caller) :
    (reserved - Multiset.replicate frames caller).card = reserved.card - frames := by
  rw [Multiset.card_sub (Multiset.le_count_iff_replicate_le.mp held), Multiset.card_replicate]

theorem Ledger.same_books {a : Account} {q : Path} (ledger : Ledger a)
    (books : SameBooks a.path q) : Ledger { a with path := q } :=
  ledger_of_exact (books.admits.trans ledger.staysOpen) (books.reserved.trans ledger.exact)

/-- A step that leaves the reserved frames of others alone keeps the books. -/
theorem Ledger.step {a next : Account} {move : Move} (ledger : Ledger a)
    (leaves : LeavesReserved a move) (taken : a.step move = some next) : Ledger next := by
  have exact := ledger.exact
  have admits := ledger.staysOpen
  cases move with
  | reserve caller frames =>
      simp only [Account.step] at taken
      split at taken
      · rename_i q reserved
        cases taken
        obtain ⟨counter, sameAdmits⟩ := reserveData_reserved reserved
        refine ledger_of_exact (sameAdmits.trans admits) ?_
        rw [counter, Multiset.card_add, Multiset.card_replicate, exact]
      · cases taken
        exact ledger
  | enqueuePrepared caller pkts =>
      simp only [Account.step] at taken
      split at taken
      · rename_i held
        split at taken
        · rename_i q queued
          cases taken
          obtain ⟨counter, sameAdmits⟩ := enqueueReservedDataList_reserved queued
          refine ledger_of_exact (sameAdmits.trans admits) ?_
          rw [counter, card_sub_replicate held, exact]
        · cases taken
          exact ledger
      · cases taken
  | sendOwned caller pkt =>
      simp only [Account.step] at taken
      split at taken
      · rename_i q queued
        cases taken
        obtain ⟨counter, sameAdmits⟩ := enqueueData_reserved queued
        refine ledger_of_exact (sameAdmits.trans admits) ?_
        rw [counter]
        rcases leaves with held | none
        · rw [Multiset.card_erase_of_mem held, exact, Nat.pred_eq_sub_one]
        · have empty : a.reserved = 0 := Multiset.card_eq_zero.mp (exact ▸ none)
          simp [none, empty]
      · cases taken
        exact ledger
  | pageStream stream =>
      cases taken
      exact ledger.same_books (sendPageStream_books a.path stream)
  | release caller frames =>
      simp only [Account.step] at taken
      split at taken
      · rename_i held
        cases taken
        refine ledger_of_exact admits ?_
        rw [card_sub_replicate held, ← exact]
        rfl
      · cases taken
  | control pkt =>
      cases taken
      exact ledger.same_books (enqueueControl_books a.path pkt)
  | schedule ring =>
      cases taken
      exact ledger.same_books (scheduleTx_books a.path ring)
  | complete canceled =>
      cases taken
      exact ledger.same_books (txComplete_books a.path canceled)
  | addCredits credits =>
      cases taken
      exact ledger.same_books (addRemoteRxCredits_books a.path credits)
  | cancelDone done doneCtx =>
      cases taken
      exact ledger.same_books (cancelDataMatch_books a.path done doneCtx none)
  | cancelOwner ownerCtx =>
      cases taken
      exact ledger.same_books (cancelDataMatch_books a.path none none ownerCtx)

/-- Any other step takes a frame that somebody else still holds. -/
theorem Ledger.robbed {a : Account} {move : Move} (ledger : Ledger a)
    (robs : ¬ LeavesReserved a move) : ∃ next, a.step move = some next ∧ ¬ Ledger next := by
  cases move with
  | sendOwned caller pkt =>
      simp only [LeavesReserved, not_or] at robs
      obtain ⟨outsider, reserved⟩ := robs
      obtain ⟨q, sent⟩ := enqueueData_of_reserved pkt ledger.staysOpen reserved
      refine ⟨⟨q, a.reserved.erase caller⟩, by simp only [Account.step, sent], ?_⟩
      intro still
      have after : q.txDataReserved = (a.reserved.erase caller).card := still.exact
      rw [Multiset.erase_of_notMem outsider, (enqueueData_reserved sent).1] at after
      have before := ledger.exact
      omega
  | _ => exact absurd trivial robs

/-- Along every run of callers on an open path, the reservation counter is the
ledger of what they hold, and holders are served, exactly as long as no sender
without a reservation comes while frames are reserved. -/
theorem reservations_are_ledger (cfg : PathConfig) (moves : List Move) :
    Throughout Account.step Ledger moves (fresh cfg) ↔
      Meets Account.step LeavesReserved moves (fresh cfg) :=
  throughout_iff_meets Ledger.step Ledger.robbed moves (ledger_of_exact rfl rfl)

/-- The READ request `tbv_post_rdma_read` puts on the data queue without a
reservation. -/
def readRequest : TxPacket where
  frame := { len := NativeData.hdrSize, parsed := some { opcode := .rdmaReadReq } }
  origin := .framed
  done := some 2
  doneCtx := some 2
  ownerCtx := some 2

/-- Caller 0 reserves a frame for a send, caller 1 sends a READ request, and
caller 0 is refused the frame it holds. -/
theorem holder_refused : ∃ a, Trans.run Account.step
      [.reserve 0 1, .sendOwned 1 readRequest] (fresh nativeConfig) = some a ∧
    a.reserved = {0} ∧ a.path.txDataReserved = 0 ∧
    ∀ pkt, enqueueReservedDataList a.path [pkt] = .error enomem := by
  refine ⟨_, rfl, by decide, rfl, fun pkt => rfl⟩

end Account
end Tbv.NativePath
