import ThunderboltIbverbs.Reliab.Model
import Mathlib.Data.Finset.Card
import Mathlib.Data.List.Nodup

/-! # Each operation is delivered once

The ring of cached acknowledgements always holds the last sixteen completions, so an
operation that is started in the receive slot is none of these; the slot is left only by
completing it. -/
set_option autoImplicit false
namespace Tbv.Reliab

open Trans

/-! ## The cached acknowledgements -/

/-- The ring holds an acknowledgement of each of the last sixteen completions. -/
structure Cached (received : List Nat) (rx : RxOp) : Prop where
  size : rx.ackHistory.length = ackHistorySize
  next : rx.ackHistoryNext % ackHistorySize = received.length % ackHistorySize
  recent : ∀ k opId, received[k]? = some opId → received.length ≤ k + ackHistorySize →
    ∃ ack, rx.ackHistory[k % ackHistorySize]? = some (some ack) ∧ ack.opId = opId
  sound : ∀ ack, some ack ∈ rx.ackHistory → ack.status = .ok ∧ ack.opId ∈ received

/-- The operation is none of the last sixteen that completed. -/
def NotRecent (received : List Nat) (opId : Nat) : Prop :=
  ∀ k, received[k]? = some opId → k + ackHistorySize < received.length

theorem Cached.notRecent {received : List Nat} {rx : RxOp} {frame : DataFrame}
    (cached : Cached received rx) (missing : rx.findCachedAck frame = none) :
    NotRecent received frame.opId := by
  intro k found
  by_contra recent
  obtain ⟨ack, held, same⟩ := cached.recent k _ found (by omega)
  have skipped := List.findSome?_eq_none_iff.mp missing _ (List.mem_of_getElem? held)
  simp [same] at skipped

theorem Cached.find {received : List Nat} {rx : RxOp} {frame : DataFrame} {ack : AckFrame}
    (cached : Cached received rx) (found : rx.findCachedAck frame = some ack) :
    ack.opId ∈ received := by
  obtain ⟨entry, among, is⟩ := List.exists_of_findSome?_eq_some found
  obtain ⟨rfl, -⟩ := Option.filter_eq_some_iff.mp is
  exact (cached.sound ack among).2

theorem Cached.store {received : List Nat} {rx : RxOp} {ack : AckFrame}
    (cached : Cached received rx) (good : ack.status = .ok) :
    Cached (received ++ [ack.opId]) (rx.storeCachedAck ack) := by
  obtain ⟨size, next, recent, sound⟩ := cached
  have inside : received.length % ackHistorySize < rx.ackHistory.length := by
    rw [size]
    exact Nat.mod_lt _ (by decide)
  refine ⟨by simpa [RxOp.storeCachedAck] using size, ?_, ?_, ?_⟩
  · simp only [RxOp.storeCachedAck, List.length_append, List.length_singleton]
    simp only [ackHistorySize] at next ⊢
    omega
  · intro k opId found within
    simp only [List.length_append, List.length_singleton] at within
    simp only [RxOp.storeCachedAck, next]
    rcases Nat.lt_trichotomy k received.length with old | rfl | beyond
    · rw [List.getElem?_append_left old] at found
      -- an older slot of the ring is another one
      have apart : received.length % ackHistorySize ≠ k % ackHistorySize := by
        simp only [ackHistorySize] at within ⊢
        omega
      rw [List.getElem?_set_ne apart]
      exact recent k opId found (by omega)
    · rw [List.getElem?_concat_length] at found
      cases found
      rw [List.getElem?_set_self inside]
      exact ⟨ack, rfl, rfl⟩
    · rw [List.getElem?_eq_none (by simp; omega)] at found
      cases found
  · intro entry among
    rcases List.mem_or_eq_of_mem_set among with old | new
    · obtain ⟨ok, done⟩ := sound entry old
      exact ⟨ok, List.mem_append_left _ done⟩
    · cases new
      exact ⟨good, List.mem_append_right _ (List.mem_singleton.mpr rfl)⟩

/-! ## Completions that lie apart -/

/-- Two completions of one operation have sixteen others between them. -/
def Apart (received : List Nat) : Prop :=
  ∀ i j opId, i < j → received[i]? = some opId → received[j]? = some opId →
    i + ackHistorySize < j

theorem Apart.snoc {received : List Nat} {opId : Nat} (apart : Apart received)
    (fresh : NotRecent received opId) : Apart (received ++ [opId]) := by
  intro i j other before first second
  have shorter : j < received.length + 1 := by
    have := (List.getElem?_eq_some_iff.mp second).1
    simpa using this
  rw [List.getElem?_append_left (by omega)] at first
  rcases Nat.lt_succ_iff_lt_or_eq.mp shorter with old | rfl
  · rw [List.getElem?_append_left old] at second
    exact apart i j other before first second
  · rw [List.getElem?_concat_length] at second
    cases second
    exact fresh i first

/-- The sixteen completions behind a position are of different operations. -/
theorem Apart.nodup {received : List Nat} (apart : Apart received) (i : Nat) :
    ((received.drop i).take (ackHistorySize + 1)).Nodup := by
  rw [List.nodup_iff_getElem?_ne_getElem?]
  intro first second before within same
  rw [List.length_take, List.length_drop] at within
  rw [List.getElem?_take_of_lt (by omega), List.getElem?_take_of_lt (by omega),
    List.getElem?_drop, List.getElem?_drop] at same
  obtain ⟨opId, found⟩ : ∃ opId, received[i + second]? = some opId :=
    ⟨_, List.getElem?_eq_getElem (by omega)⟩
  have := apart (i + first) (i + second) opId (by omega) (same.trans found) found
  omega

/-- Between two completions of one operation sixteen other operations completed. -/
theorem Apart.others {before between after : List Nat} {opId : Nat}
    (apart : Apart (before ++ opId :: between ++ opId :: after)) :
    ackHistorySize ≤ (between.toFinset.erase opId).card := by
  have long : ackHistorySize ≤ between.length := by
    have := apart before.length (before.length + (between.length + 1)) opId (by omega)
      (by simp) (by simp [List.append_assoc])
    omega
  have distinct := apart.nodup before.length
  rw [List.append_assoc, List.drop_left, List.cons_append, List.take_succ_cons,
    List.take_append_of_le_length long, List.nodup_cons] at distinct
  have inside : (between.take ackHistorySize).toFinset ⊆ between.toFinset.erase opId := by
    intro other among
    rw [List.mem_toFinset] at among
    refine Finset.mem_erase.mpr ⟨?_, List.mem_toFinset.mpr (List.mem_of_mem_take among)⟩
    rintro rfl
    exact distinct.1 among
  have counted := Finset.card_le_card inside
  rw [List.toFinset_card_of_nodup distinct.2, List.length_take, Nat.min_eq_left long] at counted
  exact counted

/-! ## One frame at the receiver -/

/-- What the receiver has done so far: its cache, its completions and its slot. -/
structure Receives (received : List Nat) (rx : RxOp) : Prop where
  cached : Cached received rx
  apart : Apart received
  slot : rx.active = true → NotRecent received rx.opId

/-- An acknowledgement that says OK is of an operation that completed. -/
def Honest (received : List Nat) (ack : AckFrame) : Prop :=
  ack.status = .ok → ack.opId ∈ received

theorem Cached.of_same {received : List Nat} {rx rx' : RxOp} (cached : Cached received rx)
    (history : rx'.ackHistory = rx.ackHistory) (next : rx'.ackHistoryNext = rx.ackHistoryNext) :
    Cached received rx' := by
  obtain ⟨size, at_, recent, sound⟩ := cached
  exact ⟨by rw [history, size], by rw [next, at_], by rwa [history], by rwa [history]⟩

theorem RxOp.take_same (rx : RxOp) (frame : DataFrame) :
    (rx.take frame).ackHistory = rx.ackHistory ∧
      (rx.take frame).ackHistoryNext = rx.ackHistoryNext ∧
      (rx.take frame).opId = rx.opId := by
  unfold RxOp.take
  split <;> exact ⟨rfl, rfl, rfl⟩

/-- What a call to the receiver leaves behind. -/
structure Served (received : List Nat) (out : RxOp × Except Errno RxEvent) : Prop where
  receives : Receives (received ++ completed out.2) out.1
  honest : ∀ ack ∈ acked out.2, Honest (received ++ completed out.2) ack

section Receiver
variable {received : List Nat} {rx : RxOp} {frame : DataFrame}

/-- A call that completes nothing and says OK to nothing new. -/
theorem Receives.served {rx' : RxOp} {result : Except Errno RxEvent}
    (receives : Receives received rx') (quiet : completed result = [])
    (honest : ∀ ack ∈ acked result, Honest received ack) : Served received (rx', result) := by
  constructor
  · rw [quiet, List.append_nil]
    exact receives
  · rw [quiet, List.append_nil]
    exact honest

/-- One frame in the slot of its operation. -/
theorem Receives.assemble (receives : Receives received rx)
    (fresh : NotRecent received rx.opId) : Served received (rx.assemble frame) := by
  obtain ⟨history, next, slot⟩ := rx.take_same frame
  have cached := receives.cached.of_same history next
  unfold RxOp.assemble
  dsimp only
  by_cases other : frame.opId ≠ rx.opId ∨ frame.op ≠ rx.op ∨ frame.fragCount ≠ rx.frameCount
  · rw [if_pos other]
    exact receives.served rfl nofun
  · rw [if_neg other]
    rw [not_or, not_ne_iff] at other
    by_cases last : (rx.take frame).receivedCount = (rx.take frame).frameCount
    · rw [if_pos last]
      refine ⟨⟨?_, receives.apart.snoc (by rwa [other.1]), nofun⟩, fun ack _ _ => ?_⟩
      · have accepted : Cached received { rx.take frame with
            accepted := true
            active := false
            completionCount := ((rx.take frame).completionCount + 1) % 2 ^ 32
            cachedAck := buildAck frame .ok } := cached.of_same rfl rfl
        exact @Cached.store _ _ (buildAck frame .ok) accepted rfl
      · rename_i among _
        cases List.mem_singleton.mp among
        exact List.mem_append_right _ (List.mem_singleton.mpr rfl)
    · rw [if_neg last]
      refine Receives.served ⟨cached, receives.apart, fun _ => ?_⟩ rfl nofun
      rw [slot]
      exact fresh

theorem Receives.rxOnData (receives : Receives received rx) (recvAvailable : Bool) :
    Served received (rx.rxOnData frame recvAvailable) := by
  unfold RxOp.rxOnData
  cases rx.validateFrame frame with
  | some errno => exact receives.served rfl nofun
  | none =>
      dsimp only
      by_cases foreign : frame.connId ≠ rx.connId
      · rw [if_pos foreign]
        exact receives.served rfl nofun
      · rw [if_neg foreign]
        by_cases active : rx.active = true
        · rw [if_pos active]
          exact receives.assemble (receives.slot active)
        · rw [if_neg active]
          cases found : rx.findCachedAck frame with
          | some ack =>
              refine receives.served rfl fun other among _ => ?_
              cases List.mem_singleton.mp among
              exact receives.cached.find found
          | none =>
              have fresh := receives.cached.notRecent found
              cases recvAvailable with
              | true =>
                  have activated : Receives received (rx.activate frame) :=
                    ⟨receives.cached.of_same rfl rfl, receives.apart, fun _ => fresh⟩
                  exact activated.assemble fresh
              | false =>
                  refine receives.served rfl fun other among ok => ?_
                  cases List.mem_singleton.mp among
                  cases ok

end Receiver

/-! ## Runs of a connection -/

/-- The sender completes an operation once. -/
def TxOp.Counted (tx : TxOp) : Prop :=
  tx.completionCount ≤ 1 ∧ (tx.state ≠ .complete → tx.state ≠ .failed → tx.completionCount = 0)

structure Delivering (conn : Conn) : Prop where
  receives : Receives conn.received conn.rx
  acks : ∀ ack ∈ conn.acks, Honest conn.received ack
  counted : conn.tx.Counted
  reports : ∀ opId, ⟨opId, .ok⟩ ∈ conn.reports → opId ∈ conn.received

theorem TxOp.Counted.finish {tx : TxOp} {state : TxState} (counted : tx.Counted)
    (running : tx.state ≠ .complete ∧ tx.state ≠ .failed)
    (finished : state = .complete ∨ state = .failed) : (tx.finish state).Counted := by
  have none := counted.2 running.1 running.2
  constructor
  · simp [TxOp.finish, none]
  · rintro notDone notFailed
    rcases finished with rfl | rfl
    · exact absurd rfl notDone
    · exact absurd rfl notFailed

theorem Delivering.reported {conn : Conn} {tx : TxOp} {completion : Option Completion}
    (inv : Delivering conn) (counted : tx.Counted)
    (ok : ∀ opId, completion = some ⟨opId, .ok⟩ → opId ∈ conn.received) :
    Delivering (conn.reported (tx, completion)) := by
  refine ⟨inv.receives, inv.acks, counted, fun opId among => ?_⟩
  rcases List.mem_append.mp among with old | new
  · exact inv.reports opId old
  · exact ok opId (Option.mem_toList.mp new)

theorem Delivering.txOnAck {conn : Conn} {ack : AckFrame} {out : TxOp × Option Completion}
    (inv : Delivering conn) (honest : Honest conn.received ack)
    (acked : conn.tx.txOnAck ack = .ok out) : Delivering (conn.reported out) := by
  unfold TxOp.txOnAck at acked
  split at acked
  · cases acked
    exact inv.reported inv.counted nofun
  · rename_i mine
    split at acked
    · cases acked
      exact inv.reported inv.counted nofun
    · rename_i running
      rw [not_or] at running mine
      cases status : ack.status with
      | ok =>
          rw [status] at acked
          cases acked
          refine inv.reported (inv.counted.finish running (.inl rfl)) fun opId is => ?_
          cases is
          rw [← not_ne_iff.mp mine.2]
          exact honest status
      | rnr =>
          rw [status] at acked
          dsimp only at acked
          split at acked
          · cases acked
            exact inv.reported (inv.counted.finish running (.inr rfl)) nofun
          · cases acked
            refine inv.reported ⟨inv.counted.1, fun _ _ => ?_⟩ nofun
            exact inv.counted.2 running.1 running.2
      | error =>
          rw [status] at acked
          cases acked
          exact inv.reported (inv.counted.finish running (.inr rfl)) nofun
      | other code =>
          rw [status] at acked
          cases acked

theorem Delivering.answered {conn : Conn} {out : RxOp × Except Errno RxEvent}
    (inv : Delivering conn) (served : Served conn.received out) :
    Delivering (conn.answered out) := by
  have grows : ∀ {opId}, opId ∈ conn.received → opId ∈ conn.received ++ completed out.2 :=
    fun done => List.mem_append_left _ done
  refine ⟨served.receives, fun ack among ok => ?_, inv.counted,
    fun opId reported => grows (inv.reports opId reported)⟩
  rcases List.mem_append.mp among with old | new
  · exact grows (inv.acks ack old ok)
  · exact served.honest ack new ok

theorem Delivering.step {connId maxPayload : Nat} {conn next : Conn} {label : Label}
    (inv : Delivering conn) (stepped : step connId maxPayload conn label = some next) :
    Delivering next := by
  cases label with
  | start request =>
      simp only [Reliab.step] at stepped
      split at stepped
      · obtain ⟨tx, started, rfl⟩ := Option.map_eq_some_iff.mp stepped
        have zero : tx.completionCount = 0 := by
          unfold txStart at started
          split at started
          · cases started
          · dsimp only at started
            split at started
            · cases started
            · cases started
              rfl
        exact ⟨inv.receives, inv.acks, ⟨by simp [zero], fun _ _ => zero⟩, inv.reports⟩
      · cases stepped
  | next =>
      obtain ⟨out, sent, rfl⟩ := Option.map_eq_some_iff.mp stepped
      have counted : out.1.Counted := by
        unfold TxOp.txNextFrame at sent
        split at sent
        · cases sent
        · rename_i running
          split at sent
          · cases sent
          · cases sent
            have none : conn.tx.completionCount = 0 := by
              refine inv.counted.2 ?_ ?_ <;> intro finished <;> exact running (by simp [finished])
            exact ⟨by simp [none], fun _ _ => none⟩
      exact ⟨inv.receives, inv.acks, counted, inv.reports⟩
  | timeout =>
      obtain ⟨out, expired, rfl⟩ := Option.map_eq_some_iff.mp stepped
      unfold TxOp.txOnTimeout at expired
      split at expired
      · cases expired
      · rename_i flying
        rw [not_ne_iff] at flying
        have running : conn.tx.state ≠ .complete ∧ conn.tx.state ≠ .failed := by simp [flying]
        split at expired
        · cases expired
          exact inv.reported (inv.counted.finish running (.inr rfl)) nofun
        · cases expired
          refine inv.reported ⟨inv.counted.1, fun _ _ => ?_⟩ nofun
          exact inv.counted.2 running.1 running.2
  | ack i =>
      obtain ⟨ack, found, acked⟩ := Option.bind_eq_some_iff.mp stepped
      obtain ⟨out, ran, rfl⟩ := Option.map_eq_some_iff.mp acked
      have ran : conn.tx.txOnAck ack = .ok out := by
        cases result : conn.tx.txOnAck ack with
        | error errno => simp [result, Except.toOption] at ran
        | ok value => simpa [result, Except.toOption] using ran
      exact inv.txOnAck (inv.acks ack (List.mem_of_getElem? found)) ran
  | data i recvAvailable =>
      obtain ⟨frame, -, rfl⟩ := Option.map_eq_some_iff.mp stepped
      exact inv.answered (inv.receives.rxOnData recvAvailable)

theorem delivering_start (connId maxPayload : Nat) : Delivering (start connId maxPayload) where
  receives := ⟨⟨rfl, rfl, nofun, fun ack among => by simp [start] at among⟩, nofun, nofun⟩
  acks := nofun
  counted := ⟨Nat.zero_le _, fun _ _ => rfl⟩
  reports := nofun

/-- Whatever the network does: the sender completes an operation at most once, with OK only
when the receiver has completed it, and the receiver completes it again only when sixteen
other operations have completed there in between. -/
theorem operations_delivered_once (connId maxPayload : Nat) (conn : Conn)
    (reached : Reaches (step connId maxPayload) (fun _ _ => True) (start connId maxPayload) conn) :
    conn.tx.completionCount ≤ 1 ∧
    (∀ opId, ⟨opId, .ok⟩ ∈ conn.reports → opId ∈ conn.received) ∧
    ∀ before between after opId,
      conn.received = before ++ opId :: between ++ opId :: after →
      16 ≤ (between.toFinset.erase opId).card := by
  have inv : Delivering conn :=
    reached.invariant (delivering_start connId maxPayload) fun inv _ stepped => inv.step stepped
  refine ⟨inv.counted.1, inv.reports, fun before between after opId is => ?_⟩
  have apart := inv.receives.apart
  rw [is] at apart
  exact apart.others

/-- Two fragments, the second one twice; the first acknowledgement is processed twice. -/
def twoFragments : List Label :=
  [.start ⟨7, 1, 6, 1, 1⟩, .next, .data 0 false, .ack 0, .next, .next, .data 2 true,
    .data 1 true, .data 2 true, .ack 1, .ack 2, .start ⟨8, 1, 0, 1, 1⟩]

theorem operations_delivered_once_twoFragments : ∃ conn,
    Reaches (step 3 4) (fun _ _ => True) (start 3 4) conn ∧ conn.tx.opId = 8 ∧
    conn.received = [7] ∧ conn.tx.completionCount ≤ 1 := by
  have ran : (guarded (step 3 4) (fun _ _ => True) twoFragments (start 3 4)).any
      (fun conn => conn.tx.opId == 8 && conn.received == [7]) = true := by decide
  obtain ⟨conn, reached, found⟩ := exists_reaches_of_guarded ran
  simp only [Bool.and_eq_true, beq_iff_eq] at found
  exact ⟨conn, reached, found.1, found.2, (operations_delivered_once 3 4 conn reached).1⟩

end Tbv.Reliab
