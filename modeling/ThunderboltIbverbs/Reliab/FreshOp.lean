import ThunderboltIbverbs.Reliab.DeliverOnce

/-! # A fresh operation meets the receive slot

The slot is never abandoned: an operation that failed at the sender while a part of it had
arrived keeps it.  A fresh operation all of whose fragments arrive in order completes exactly
when it finds the slot free. -/
set_option autoImplicit false
namespace Tbv.Reliab

open Trans

/-! ## What arrives in a run -/

def arrival (conn : Conn) : Label → Option (DataFrame × Bool)
  | .data i recvAvailable => (conn.data[i]?).map (·, recvAvailable)
  | _ => none

def arrivals (connId maxPayload : Nat) : List Label → Conn → List (DataFrame × Bool)
  | [], _ => []
  | label :: rest, conn =>
      (arrival conn label).toList ++
        ((step connId maxPayload conn label).map (arrivals connId maxPayload rest)).getD []

/-! ## Whatever is known was started -/

/-- What one frame does to the receiver, whoever sent it. -/
structure Handled (rx : RxOp) (frame : DataFrame) (out : RxOp × Except Errno RxEvent) :
    Prop where
  connId : out.1.connId = rx.connId
  maxPayload : out.1.maxPayload = rx.maxPayload
  slot : out.1.active = true → out.1.opId = frame.opId ∨ rx.active = true ∧ out.1.opId = rx.opId
  completed : ∀ opId ∈ completed out.2, opId = frame.opId

section Receiver
variable {rx : RxOp} {frame : DataFrame}

theorem RxOp.take_kept (rx : RxOp) (frame : DataFrame) :
    (rx.take frame).connId = rx.connId ∧ (rx.take frame).maxPayload = rx.maxPayload ∧
      (rx.take frame).active = rx.active ∧ (rx.take frame).opId = rx.opId ∧
      (rx.take frame).op = rx.op ∧ (rx.take frame).frameCount = rx.frameCount := by
  unfold RxOp.take
  split
  · exact ⟨rfl, rfl, rfl, rfl, rfl, rfl⟩
  · exact ⟨rfl, rfl, rfl, rfl, rfl, rfl⟩

theorem RxOp.assemble_handled (active : rx.active = true) :
    Handled rx frame (rx.assemble frame) := by
  obtain ⟨connId, maxPayload, _, opId, _, _⟩ := rx.take_kept frame
  unfold RxOp.assemble
  dsimp only
  split
  · exact ⟨rfl, rfl, fun _ => .inr ⟨active, rfl⟩, nofun⟩
  · split
    · refine ⟨connId, maxPayload, nofun, fun other among => ?_⟩
      exact List.mem_singleton.mp among
    · exact ⟨connId, maxPayload, fun _ => .inr ⟨active, opId⟩, nofun⟩

theorem RxOp.rxOnData_handled (recvAvailable : Bool) :
    Handled rx frame (rx.rxOnData frame recvAvailable) := by
  have same {result : Except Errno RxEvent} (quiet : Reliab.completed result = []) :
      Handled rx frame (rx, result) :=
    ⟨rfl, rfl, fun active => .inr ⟨active, rfl⟩, fun opId among => by rw [quiet] at among; cases among⟩
  unfold RxOp.rxOnData
  split
  · exact same rfl
  · split
    · exact same rfl
    · split
      · rename_i active
        exact RxOp.assemble_handled active
      · split
        · exact same rfl
        · cases recvAvailable with
          | true =>
              obtain ⟨connId, maxPayload, slot, done⟩ :=
                @RxOp.assemble_handled (rx.activate frame) frame rfl
              exact ⟨connId, maxPayload, fun active => .inl ((slot active).elim id (·.2)), done⟩
          | false => exact same rfl

end Receiver

/-- No operation is known to the sender's user, to the network or to the receiver before it
was started. -/
structure Known (connId maxPayload : Nat) (conn : Conn) : Prop where
  data : ∀ frame ∈ conn.data, frame.opId ∈ conn.started
  tx : conn.tx.state ≠ .empty → conn.tx.opId ∈ conn.started
  slot : conn.rx.active = true → conn.rx.opId ∈ conn.started
  received : ∀ opId ∈ conn.received, opId ∈ conn.started
  idle : conn.tx.state = .empty → conn.data = [] ∧ conn.acks = []
  rxConn : conn.rx.connId = connId
  rxPayload : conn.rx.maxPayload = maxPayload

/-- The calls of a running operation leave what identifies it alone. -/
structure SameOp (tx tx' : TxOp) : Prop where
  connId : tx'.connId = tx.connId
  opId : tx'.opId = tx.opId
  op : tx'.op = tx.op
  maxPayload : tx'.maxPayload = tx.maxPayload
  frameCount : tx'.frameCount = tx.frameCount
  empty : tx'.state = .empty → tx.state = .empty

theorem SameOp.refl (tx : TxOp) : SameOp tx tx := ⟨rfl, rfl, rfl, rfl, rfl, id⟩

theorem TxOp.txNextFrame_ok {tx : TxOp} {out : TxOp × DataFrame}
    (sent : tx.txNextFrame = .ok out) :
    SameOp tx out.1 ∧ tx.state ≠ .empty ∧ tx.nextFrame < tx.frameCount ∧ out.2 = tx.frame := by
  unfold TxOp.txNextFrame at sent
  split at sent
  · cases sent
  · rename_i running
    split at sent
    · cases sent
    · rename_i more
      cases sent
      have started : tx.state ≠ .empty := by
        intro empty
        exact running ⟨by rw [empty]; decide, by rw [empty]; decide⟩
      exact ⟨⟨rfl, rfl, rfl, rfl, rfl, nofun⟩, started, by omega, rfl⟩

theorem TxOp.txOnTimeout_ok {tx : TxOp} {out : TxOp × Option Completion}
    (expired : tx.txOnTimeout = .ok out) : SameOp tx out.1 ∧ tx.state ≠ .empty := by
  unfold TxOp.txOnTimeout at expired
  split at expired
  · cases expired
  · rename_i flying
    have flying := not_not.mp flying
    have started : tx.state ≠ .empty := by rw [flying]; decide
    split at expired
    · cases expired
      exact ⟨⟨rfl, rfl, rfl, rfl, rfl, nofun⟩, started⟩
    · cases expired
      exact ⟨⟨rfl, rfl, rfl, rfl, rfl, id⟩, started⟩

theorem TxOp.txOnAck_ok {tx : TxOp} {ack : AckFrame} {out : TxOp × Option Completion}
    (acked : tx.txOnAck ack = .ok out) : SameOp tx out.1 := by
  have ended {state : TxState} (finished : state ≠ .empty) : SameOp tx (tx.finish state) :=
    ⟨rfl, rfl, rfl, rfl, rfl, fun empty => absurd empty finished⟩
  unfold TxOp.txOnAck at acked
  split at acked
  · cases acked
    exact .refl tx
  · split at acked
    · cases acked
      exact .refl tx
    · split at acked
      · cases acked
        exact ended nofun
      · split at acked
        · cases acked
          exact ended nofun
        · cases acked
          exact ⟨rfl, rfl, rfl, rfl, rfl, nofun⟩
      · cases acked
        exact ended nofun
      · cases acked

theorem toOption_eq_some {ε α : Type} {result : Except ε α} {value : α}
    (is : result.toOption = some value) : result = .ok value := by
  cases result with
  | error error => cases is
  | ok other => exact congrArg Except.ok (Option.some.inj is)

/-- What `tbv_rel_tx_start` sets up. -/
structure Begun (connId maxPayload : Nat) (request : Request) (tx : TxOp) : Prop where
  conn : tx.connId = connId
  opId : tx.opId = request.opId
  op : tx.op = request.op
  limit : tx.maxPayload = maxPayload
  fragments : tx.frameCount = frameCount request.totalLen maxPayload
  valid : validOp request.op = true
  payload : maxPayload ≠ 0
  some : 0 < frameCount request.totalLen maxPayload
  few : frameCount request.totalLen maxPayload ≤ maxFrags

theorem txStart_ok {connId maxPayload : Nat} {request : Request} {tx : TxOp}
    (started : txStart connId maxPayload request = .ok tx) :
    Begun connId maxPayload request tx ∧ tx.state = .ready := by
  unfold txStart at started
  split at started
  · cases started
  · rename_i valid
    dsimp only at started
    split at started
    · cases started
    · rename_i size
      cases started
      simp only [Bool.or_eq_true, Bool.not_eq_true', not_or, Bool.not_eq_false, beq_iff_eq,
        decide_eq_true_eq] at valid size
      exact ⟨⟨rfl, rfl, rfl, rfl, rfl, valid.1, valid.2, by omega, by omega⟩, rfl⟩

theorem Begun.same {connId maxPayload : Nat} {request : Request} {tx tx' : TxOp}
    (begun : Begun connId maxPayload request tx) (same : SameOp tx tx') :
    Begun connId maxPayload request tx' :=
  ⟨same.connId.trans begun.conn, same.opId.trans begun.opId, same.op.trans begun.op,
    same.maxPayload.trans begun.limit, same.frameCount.trans begun.fragments, begun.valid,
    begun.payload, begun.some, begun.few⟩

section Steps
variable {connId maxPayload : Nat} {conn next : Conn}

theorem Known.sender (known : Known connId maxPayload conn) {out : TxOp × Option Completion}
    (same : SameOp conn.tx out.1) (started : conn.tx.state ≠ .empty) :
    Known connId maxPayload (conn.reported out) := by
  refine ⟨known.data, fun _ => ?_, known.slot, known.received,
    fun empty => known.idle (same.empty empty), known.rxConn, known.rxPayload⟩
  show out.1.opId ∈ conn.started
  rw [same.opId]
  exact known.tx started

theorem Known.step {label : Label} (known : Known connId maxPayload conn)
    (stepped : step connId maxPayload conn label = some next) :
    Known connId maxPayload next := by
  cases label with
  | start request =>
      simp only [Reliab.step] at stepped
      split at stepped
      · obtain ⟨tx, made, rfl⟩ := Option.map_eq_some_iff.mp stepped
        obtain ⟨begun, ready⟩ := txStart_ok (toOption_eq_some made)
        have grows {opId : Nat} (old : opId ∈ conn.started) :
            opId ∈ conn.started ++ [request.opId] := List.mem_append_left _ old
        refine ⟨fun frame among => grows (known.data frame among), fun _ => ?_,
          fun active => grows (known.slot active), fun opId among => grows (known.received opId among),
          fun empty => ?_, known.rxConn, known.rxPayload⟩
        · show tx.opId ∈ conn.started ++ [request.opId]
          rw [begun.opId]
          exact List.mem_append_right _ (List.mem_singleton.mpr rfl)
        · have empty : tx.state = .empty := empty
          rw [ready] at empty
          cases empty
      · cases stepped
  | next =>
      obtain ⟨out, sent, rfl⟩ := Option.map_eq_some_iff.mp stepped
      obtain ⟨same, started, _, frameEq⟩ := TxOp.txNextFrame_ok (toOption_eq_some sent)
      have own := known.tx started
      refine ⟨fun frame among => ?_, fun _ => ?_, known.slot, known.received,
        fun empty => absurd (same.empty empty) started, known.rxConn, known.rxPayload⟩
      · rcases List.mem_append.mp among with old | new
        · exact known.data frame old
        · rw [List.mem_singleton.mp new, frameEq]
          exact own
      · show out.1.opId ∈ conn.started
        rw [same.opId]
        exact own
  | timeout =>
      obtain ⟨out, expired, rfl⟩ := Option.map_eq_some_iff.mp stepped
      obtain ⟨same, started⟩ := TxOp.txOnTimeout_ok (toOption_eq_some expired)
      exact known.sender same started
  | ack i =>
      obtain ⟨ack, found, acked⟩ := Option.bind_eq_some_iff.mp stepped
      obtain ⟨out, ran, rfl⟩ := Option.map_eq_some_iff.mp acked
      have started : conn.tx.state ≠ .empty := by
        intro empty
        rw [(known.idle empty).2] at found
        cases found
      exact known.sender (TxOp.txOnAck_ok (toOption_eq_some ran)) started
  | data i recvAvailable =>
      obtain ⟨frame, found, rfl⟩ := Option.map_eq_some_iff.mp stepped
      have own := known.data frame (List.mem_of_getElem? found)
      have handled := @RxOp.rxOnData_handled conn.rx frame recvAvailable
      refine ⟨known.data, known.tx, fun active => ?_, fun opId among => ?_,
        fun empty => ?_, handled.connId.trans known.rxConn,
        handled.maxPayload.trans known.rxPayload⟩
      · rcases handled.slot active with mine | ⟨was, kept⟩
        · rw [show (conn.answered _).rx.opId = frame.opId from mine]
          exact own
        · rw [show (conn.answered _).rx.opId = conn.rx.opId from kept]
          exact known.slot was
      · rcases List.mem_append.mp among with old | new
        · exact known.received opId old
        · rw [handled.completed opId new]
          exact own
      · have none := (known.idle empty).1
        rw [none] at found
        cases found

end Steps

theorem known_start (connId maxPayload : Nat) : Known connId maxPayload (start connId maxPayload) where
  data := nofun
  tx := fun started => absurd rfl started
  slot := nofun
  received := nofun
  idle := fun _ => ⟨rfl, rfl⟩
  rxConn := rfl
  rxPayload := rfl

/-! ## The fragments of one operation -/

/-- A frame as `tbv_rel_tx_next_frame` cuts it from the operation, in any retry. -/
structure Fragment (connId maxPayload : Nat) (request : Request) (frame : DataFrame) : Prop where
  conn : frame.connId = connId
  opId : frame.opId = request.opId
  op : frame.op = request.op
  count : frame.fragCount = frameCount request.totalLen maxPayload
  index : frame.fragIndex < frameCount request.totalLen maxPayload
  offset : frame.offset = frame.fragIndex * maxPayload % 2 ^ 32
  length : frame.length ≤ maxPayload

/-- The sender runs the operation and no frame of its op_id is another one's. -/
structure Sending (connId maxPayload : Nat) (request : Request) (conn : Conn) : Prop where
  tx : Begun connId maxPayload request conn.tx
  data : ∀ frame ∈ conn.data, frame.opId = request.opId →
    Fragment connId maxPayload request frame

theorem Begun.frame {connId maxPayload : Nat} {request : Request} {tx : TxOp}
    (begun : Begun connId maxPayload request tx) (more : tx.nextFrame < tx.frameCount) :
    Fragment connId maxPayload request tx.frame := by
  obtain ⟨conn, opId, op, limit, fragments, _, _, _, few⟩ := begun
  have fits : maxFrags < 2 ^ 16 := by decide
  have index : tx.nextFrame % 2 ^ 16 = tx.nextFrame := Nat.mod_eq_of_lt (by omega)
  have count : tx.frameCount % 2 ^ 16 = tx.frameCount := Nat.mod_eq_of_lt (by omega)
  refine ⟨conn, opId, op, count.trans fragments, ?_, ?_, ?_⟩
  · show tx.nextFrame % 2 ^ 16 < _
    omega
  · show tx.nextFrame * tx.maxPayload % 2 ^ 32 = tx.nextFrame % 2 ^ 16 * maxPayload % 2 ^ 32
    rw [index, limit]
  · dsimp only [TxOp.frame]
    rw [← limit]
    split <;> split <;> omega

section Deliveries
variable {connId maxPayload : Nat} {request : Request} {conn next : Conn}

theorem Sending.step {label : Label} (sending : Sending connId maxPayload request conn)
    (stepped : Reliab.step connId maxPayload conn label = some next)
    (running : ∀ other, label ≠ .start other) : Sending connId maxPayload request next := by
  cases label with
  | start other => exact absurd rfl (running other)
  | next =>
      obtain ⟨out, sent, rfl⟩ := Option.map_eq_some_iff.mp stepped
      obtain ⟨same, _, more, frameEq⟩ := TxOp.txNextFrame_ok (toOption_eq_some sent)
      refine ⟨sending.tx.same same, fun frame among own => ?_⟩
      rcases List.mem_append.mp among with old | new
      · exact sending.data frame old own
      · rw [List.mem_singleton.mp new, frameEq]
        exact sending.tx.frame more
  | timeout =>
      obtain ⟨out, expired, rfl⟩ := Option.map_eq_some_iff.mp stepped
      exact ⟨sending.tx.same (TxOp.txOnTimeout_ok (toOption_eq_some expired)).1, sending.data⟩
  | ack i =>
      obtain ⟨ack, _, acked⟩ := Option.bind_eq_some_iff.mp stepped
      obtain ⟨out, ran, rfl⟩ := Option.map_eq_some_iff.mp acked
      exact ⟨sending.tx.same (TxOp.txOnAck_ok (toOption_eq_some ran)), sending.data⟩
  | data i recvAvailable =>
      obtain ⟨frame, _, rfl⟩ := Option.map_eq_some_iff.mp stepped
      exact ⟨sending.tx, sending.data⟩

theorem Known.sending {request : Request} (known : Known connId maxPayload conn)
    (stepped : Reliab.step connId maxPayload conn (.start request) = some next) :
    Sending connId maxPayload request next ∧ next.rx = conn.rx ∧
      next.received = conn.received ∧ request.opId ∉ conn.started := by
  simp only [Reliab.step] at stepped
  split at stepped
  · rename_i allowed
    obtain ⟨tx, made, rfl⟩ := Option.map_eq_some_iff.mp stepped
    refine ⟨⟨(txStart_ok (toOption_eq_some made)).1, fun frame among own => ?_⟩, rfl, rfl,
      allowed.2⟩
    have old := known.data frame among
    rw [own] at old
    exact absurd old allowed.2
  · cases stepped

/-! ## The receiver, fragment by fragment -/

theorem Fragment.valid {rx : RxOp} {frame : DataFrame} {tx : TxOp}
    (fragment : Fragment connId maxPayload request frame)
    (begun : Begun connId maxPayload request tx) (payload : rx.maxPayload = maxPayload) :
    rx.validateFrame frame = none := by
  have few := begun.few
  have some := begun.some
  have index := fragment.index
  have outside : ¬ (rx.maxPayload = 0 ∨ frame.fragCount = 0 ∨ maxFrags < frame.fragCount ∨
      frame.fragCount ≤ frame.fragIndex) := by
    rw [payload, fragment.count]
    have := begun.payload
    omega
  rw [RxOp.validateFrame, fragment.op, begun.valid, if_neg (by decide), if_neg outside,
    if_neg (not_not.mpr (by rw [fragment.offset, payload])),
    if_neg (Nat.not_lt.mpr (by rw [payload]; exact fragment.length))]

/-- The slot holds the first `k` fragments of the operation. -/
structure Collected (maxPayload : Nat) (request : Request) (k : Nat) (rx : RxOp) : Prop where
  active : rx.active = true
  opId : rx.opId = request.opId
  op : rx.op = request.op
  count : rx.frameCount = frameCount request.totalLen maxPayload
  receivedCount : rx.receivedCount = k
  bitmap : ∀ i, rx.receivedBitmap.testBit i = decide (i < k)

theorem Collected.take {rx : RxOp} {frame : DataFrame} {k : Nat}
    (collected : Collected maxPayload request k rx) (here : frame.fragIndex = k)
    (small : k + 1 < 2 ^ 32) : Collected maxPayload request (k + 1) (rx.take frame) := by
  have missing : rx.receivedBitmap.testBit frame.fragIndex = false := by
    rw [collected.bitmap, here]
    exact decide_eq_false (Nat.lt_irrefl k)
  have taken : rx.take frame =
      { rx with
        receivedBitmap := rx.receivedBitmap ||| 2 ^ frame.fragIndex
        receivedCount := (rx.receivedCount + 1) % 2 ^ 32
        totalLen := (rx.totalLen + frame.length) % 2 ^ 32 } := by
    rw [RxOp.take, missing]
    rfl
  rw [taken]
  refine ⟨collected.active, collected.opId, collected.op, collected.count, ?_, fun i => ?_⟩
  · show (rx.receivedCount + 1) % 2 ^ 32 = k + 1
    rw [collected.receivedCount, Nat.mod_eq_of_lt small]
  · rw [Nat.testBit_or, collected.bitmap, here, Nat.testBit_two_pow, ← Bool.decide_or]
    exact decide_eq_decide.mpr (by omega)

/-- How far the operation has come at the receiver. -/
inductive Stage (maxPayload : Nat) (request : Request) (before : List Nat) :
    Nat → RxOp → List Nat → Prop
  | idle {rx : RxOp} : rx.active = false → Stage maxPayload request before 0 rx before
  | collecting {rx : RxOp} {k : Nat} : 0 < k → k < frameCount request.totalLen maxPayload →
      Collected maxPayload request k rx → Stage maxPayload request before k rx before
  | complete {rx : RxOp} : rx.active = false →
      Stage maxPayload request before (frameCount request.totalLen maxPayload) rx
        (before ++ [request.opId])

theorem Collected.assemble {rx : RxOp} {frame : DataFrame} {k : Nat} {before : List Nat}
    (collected : Collected maxPayload request k rx)
    (fragment : Fragment connId maxPayload request frame) (here : frame.fragIndex = k)
    (few : frameCount request.totalLen maxPayload ≤ maxFrags) :
    Stage maxPayload request before (k + 1) (rx.assemble frame).1
      (before ++ completed (rx.assemble frame).2) := by
  have index := fragment.index
  have small : maxFrags < 2 ^ 31 := by decide
  have taken := collected.take here (by omega)
  have own : ¬ (frame.opId ≠ rx.opId ∨ frame.op ≠ rx.op ∨ frame.fragCount ≠ rx.frameCount) := by
    rw [fragment.opId, fragment.op, fragment.count, collected.opId, collected.op, collected.count]
    simp
  rw [RxOp.assemble, if_neg own]
  dsimp only
  rw [taken.receivedCount, taken.count]
  by_cases last : k + 1 = frameCount request.totalLen maxPayload
  · rw [if_pos last, last]
    have done : completed (.ok
        { ack := some (buildAck frame .ok)
          completion := some ⟨frame.opId, .ok⟩
          duplicate := rx.receivedBitmap.testBit frame.fragIndex }) = [request.opId] := by
      rw [← fragment.opId]
      rfl
    rw [done]
    exact .complete rfl
  · rw [if_neg last]
    have quiet : completed (.ok
        { duplicate := rx.receivedBitmap.testBit frame.fragIndex }) = [] := rfl
    rw [quiet, List.append_nil]
    exact .collecting (by omega) (by omega) taken

theorem Stage.arrive {before received : List Nat} {k : Nat} {frame : DataFrame}
    (stage : Stage maxPayload request before k conn.rx received) (inv : Delivering conn)
    (known : Known connId maxPayload conn) (sending : Sending connId maxPayload request conn)
    (new : request.opId ∉ before) (same : conn.received = received)
    (fragment : Fragment connId maxPayload request frame) (here : frame.fragIndex = k) :
    Stage maxPayload request before (k + 1) (conn.rx.rxOnData frame true).1
      (received ++ completed (conn.rx.rxOnData frame true).2) := by
  have index := fragment.index
  have mine : ¬ frame.connId ≠ conn.rx.connId := by
    rw [fragment.conn, known.rxConn]
    exact not_not.mpr rfl
  rw [RxOp.rxOnData, fragment.valid sending.tx known.rxPayload]
  dsimp only
  rw [if_neg mine]
  obtain ⟨rx, rxEq⟩ : ∃ rx, rx = conn.rx := ⟨_, rfl⟩
  rw [← rxEq] at stage ⊢
  cases stage with
  | idle free =>
      have missing : rx.findCachedAck frame = none := by
        cases found : rx.findCachedAck frame with
        | none => rfl
        | some ack =>
            have done := (rxEq ▸ inv.receives.cached).find found
            obtain ⟨entry, _, is⟩ := List.exists_of_findSome?_eq_some found
            obtain ⟨_, named⟩ := Option.filter_eq_some_iff.mp is
            rw [beq_iff_eq.mp named, fragment.opId, same] at done
            exact absurd done new
      have activated : Collected maxPayload request 0 (rx.activate frame) :=
        ⟨rfl, fragment.opId, fragment.op, fragment.count, rfl, fun i => by
          rw [decide_eq_false (Nat.not_lt_zero i)]
          exact Nat.zero_testBit i⟩
      rw [if_neg (by rw [free]; decide), missing]
      exact activated.assemble fragment here sending.tx.few
  | collecting some more collected =>
      rw [if_pos collected.active]
      exact collected.assemble fragment here sending.tx.few
  | complete free => omega

theorem step_without_arrival {label : Label}
    (stepped : Reliab.step connId maxPayload conn label = some next)
    (quiet : arrival conn label = none) :
    next.rx = conn.rx ∧ next.received = conn.received := by
  cases label with
  | start request =>
      simp only [Reliab.step] at stepped
      split at stepped
      · obtain ⟨tx, _, rfl⟩ := Option.map_eq_some_iff.mp stepped
        exact ⟨rfl, rfl⟩
      · cases stepped
  | next =>
      obtain ⟨out, _, rfl⟩ := Option.map_eq_some_iff.mp stepped
      exact ⟨rfl, rfl⟩
  | timeout =>
      obtain ⟨out, _, rfl⟩ := Option.map_eq_some_iff.mp stepped
      exact ⟨rfl, rfl⟩
  | ack i =>
      obtain ⟨ack, _, acked⟩ := Option.bind_eq_some_iff.mp stepped
      obtain ⟨out, _, rfl⟩ := Option.map_eq_some_iff.mp acked
      exact ⟨rfl, rfl⟩
  | data i recvAvailable =>
      obtain ⟨frame, found, rfl⟩ := Option.map_eq_some_iff.mp stepped
      simp only [arrival, found, Option.map_some] at quiet
      cases quiet

/-- A step hands the receiver one of the frames that were sent. -/
theorem step_with_arrival {label : Label} {frame : DataFrame} {recvAvailable : Bool}
    (stepped : Reliab.step connId maxPayload conn label = some next)
    (arrived : arrival conn label = some (frame, recvAvailable)) :
    frame ∈ conn.data ∧ next = conn.answered (conn.rx.rxOnData frame recvAvailable) := by
  cases label with
  | data i available =>
      obtain ⟨found, foundEq, paired⟩ := Option.map_eq_some_iff.mp arrived
      obtain ⟨rfl, rfl⟩ := Prod.mk.inj paired
      simp only [Reliab.step, foundEq, Option.map_some] at stepped
      exact ⟨List.mem_of_getElem? foundEq, (Option.some.inj stepped).symm⟩
  | _ => cases arrived

/-- A run in which the sender starts nothing else. -/
structure Sends (connId maxPayload : Nat) (request : Request) (labels : List Label)
    (conn last : Conn) (frames : List DataFrame) : Prop where
  ran : run (Reliab.step connId maxPayload) labels conn = some last
  alone : ∀ other, .start other ∉ labels
  arrived : arrivals connId maxPayload labels conn = frames.map (·, true)
  own : ∀ frame ∈ frames, frame.opId = request.opId

/-- One step of such a run: quiet, or the next frame arrives. -/
theorem Sends.cases {label : Label} {rest : List Label} {last : Conn} {frames : List DataFrame}
    (sends : Sends connId maxPayload request (label :: rest) conn last frames) :
    ∃ next, Reliab.step connId maxPayload conn label = some next ∧
      (∀ other, label ≠ .start other) ∧
      (arrival conn label = none ∧ Sends connId maxPayload request rest next last frames ∨
        ∃ frame later, frames = frame :: later ∧ frame.opId = request.opId ∧
          arrival conn label = some (frame, true) ∧
          Sends connId maxPayload request rest next last later) := by
  obtain ⟨ran, alone, arrived, own⟩ := sends
  obtain ⟨next, stepped, ranRest⟩ := Option.bind_eq_some_iff.mp ran
  have aloneRest : ∀ other, .start other ∉ rest := fun other among =>
    alone other (List.mem_cons_of_mem _ among)
  refine ⟨next, stepped, fun other is => alone other (is ▸ List.mem_cons_self), ?_⟩
  rw [arrivals, stepped, Option.map_some, Option.getD_some] at arrived
  cases found : arrival conn label with
  | none =>
      rw [found] at arrived
      exact .inl ⟨rfl, ranRest, aloneRest, arrived, own⟩
  | some pair =>
      rw [found] at arrived
      cases frames with
      | nil => cases arrived
      | cons frame later =>
          obtain ⟨rfl, arrivedRest⟩ := List.cons.inj arrived
          exact .inr ⟨frame, later, rfl, own frame List.mem_cons_self, rfl, ranRest, aloneRest,
            arrivedRest, fun other among => own other (List.mem_cons_of_mem _ among)⟩

/-- The fragments that are still missing arrive in order: the operation completes. -/
theorem Stage.run {before : List Nat} {last : Conn} (new : request.opId ∉ before)
    {labels : List Label} : ∀ {conn : Conn} {frames : List DataFrame} {k : Nat},
      Stage maxPayload request before k conn.rx conn.received → Delivering conn →
      Known connId maxPayload conn → Sending connId maxPayload request conn →
      Sends connId maxPayload request labels conn last frames →
      frames.map DataFrame.fragIndex =
        List.range' k (frameCount request.totalLen maxPayload - k) →
      Stage maxPayload request before (frameCount request.totalLen maxPayload) last.rx
        last.received := by
  induction labels with
  | nil =>
      intro conn frames k stage _ _ sending sends inOrder
      have none : frames = [] := List.map_eq_nil_iff.mp sends.arrived.symm
      obtain rfl : conn = last := Option.some.inj sends.ran
      have left : frameCount request.totalLen maxPayload - k = 0 := by
        have sizes := congrArg List.length inOrder
        rw [none, List.map_nil, List.length_range'] at sizes
        exact sizes.symm
      have some := sending.tx.some
      generalize conn.rx = rx, conn.received = received at stage ⊢
      cases stage with
      | idle _ => omega
      | collecting _ _ _ => omega
      | complete free => exact .complete free
  | cons label rest ih =>
      intro conn frames k stage inv known sending sends inOrder
      obtain ⟨next, stepped, other, quiet | ⟨frame, later, rfl, own, arrived, sendsRest⟩⟩ :=
        sends.cases
      · obtain ⟨rxEq, receivedEq⟩ := step_without_arrival stepped quiet.1
        refine ih ?_ (inv.step stepped) (known.step stepped) (sending.step stepped other) quiet.2
          inOrder
        rw [rxEq, receivedEq]
        exact stage
      · obtain ⟨among, nextEq⟩ := step_with_arrival stepped arrived
        have fragment := sending.data frame among own
        have index := fragment.index
        obtain ⟨rest', restEq⟩ : ∃ rest',
            frameCount request.totalLen maxPayload - k = rest' + 1 := by
          refine ⟨frameCount request.totalLen maxPayload - k - 1, ?_⟩
          have sizes := congrArg List.length inOrder
          rw [List.map_cons, List.length_cons, List.length_range'] at sizes
          omega
        rw [restEq, List.map_cons, List.range'_succ] at inOrder
        obtain ⟨here, inOrderRest⟩ := List.cons.inj inOrder
        refine ih (k := k + 1) ?_ (inv.step stepped) (known.step stepped)
          (sending.step stepped other) sendsRest ?_
        · rw [nextEq]
          exact stage.arrive inv known sending new rfl fragment here
        · rw [inOrderRest]
          congr 1
          omega

/-- While another operation has the slot, every fragment is answered -EBUSY. -/
theorem busy_run {last : Conn} {labels : List Label} :
    ∀ {conn : Conn} {frames : List DataFrame}, conn.rx.active = true →
      conn.rx.opId ≠ request.opId → Known connId maxPayload conn →
      Sending connId maxPayload request conn →
      Sends connId maxPayload request labels conn last frames →
      last.rx = conn.rx ∧ last.received = conn.received ∧
        ∀ frame ∈ frames, conn.rx.rxOnData frame true = (conn.rx, .error .ebusy) := by
  induction labels with
  | nil =>
      intro conn frames _ _ _ _ sends
      have none : frames = [] := List.map_eq_nil_iff.mp sends.arrived.symm
      obtain rfl : conn = last := Option.some.inj sends.ran
      rw [none]
      exact ⟨rfl, rfl, nofun⟩
  | cons label rest ih =>
      intro conn frames active occupied known sending sends
      obtain ⟨next, stepped, other, quiet | ⟨frame, later, rfl, own, arrived, sendsRest⟩⟩ :=
        sends.cases
      · obtain ⟨rxEq, receivedEq⟩ := step_without_arrival stepped quiet.1
        have after := ih (by rw [rxEq]; exact active) (by rw [rxEq]; exact occupied)
          (known.step stepped) (sending.step stepped other) quiet.2
        rw [rxEq, receivedEq] at after
        exact after
      · obtain ⟨among, nextEq⟩ := step_with_arrival stepped arrived
        have fragment := sending.data frame among own
        have refused : conn.rx.rxOnData frame true = (conn.rx, .error .ebusy) := by
          have mine : ¬ frame.connId ≠ conn.rx.connId := by
            rw [fragment.conn, known.rxConn]
            exact not_not.mpr rfl
          have foreign : frame.opId ≠ conn.rx.opId := by
            rw [fragment.opId]
            exact occupied.symm
          rw [RxOp.rxOnData, fragment.valid sending.tx known.rxPayload]
          dsimp only
          rw [if_neg mine, if_pos active, RxOp.assemble, if_pos (.inl foreign)]
        rw [refused] at nextEq
        have rxEq : next.rx = conn.rx := by rw [nextEq]; rfl
        have receivedEq : next.received = conn.received := by
          rw [nextEq]
          exact List.append_nil _
        obtain ⟨lastRx, lastReceived, laterRefused⟩ := ih (by rw [rxEq]; exact active)
          (by rw [rxEq]; exact occupied) (known.step stepped) (sending.step stepped other) sendsRest
        rw [rxEq] at lastRx laterRefused
        rw [receivedEq] at lastReceived
        refine ⟨lastRx, lastReceived, fun one among => ?_⟩
        rcases List.mem_cons.mp among with rfl | old
        · exact refused
        · exact laterRefused one old

end Deliveries

/-- A fresh operation whose fragments all arrive, in order and with a receive available,
completes exactly when it finds the slot free; while another operation has the slot, each
fragment is answered -EBUSY and the receiver stays as it is. -/
theorem fresh_operation_completes_iff (connId maxPayload : Nat) (conn last : Conn)
    (request : Request) (labels : List Label) (frames : List DataFrame)
    (reached : Reaches (step connId maxPayload) (fun _ _ => True) (start connId maxPayload) conn)
    (ran : run (step connId maxPayload) (.start request :: labels) conn = some last)
    (alone : ∀ other, .start other ∉ labels)
    (arrived : arrivals connId maxPayload (.start request :: labels) conn = frames.map (·, true))
    (own : ∀ frame ∈ frames, frame.opId = request.opId)
    (inOrder : frames.map DataFrame.fragIndex =
      List.range (frameCount request.totalLen maxPayload)) :
    (last.received = conn.received ++ [request.opId] ↔ conn.rx.active = false) ∧
    (conn.rx.active = true → last.rx = conn.rx ∧ last.received = conn.received ∧
      ∀ frame ∈ frames, conn.rx.rxOnData frame true = (conn.rx, .error .ebusy)) := by
  have inv : Delivering conn :=
    reached.invariant (delivering_start connId maxPayload) fun inv _ stepped => inv.step stepped
  have known : Known connId maxPayload conn :=
    reached.invariant (known_start connId maxPayload) fun known _ stepped => known.step stepped
  obtain ⟨started, stepped, ranRest⟩ := Option.bind_eq_some_iff.mp ran
  obtain ⟨sending, rxEq, receivedEq, fresh⟩ := known.sending stepped
  rw [arrivals, stepped] at arrived
  have sends : Sends connId maxPayload request labels started last frames :=
    ⟨ranRest, alone, arrived, own⟩
  have new : request.opId ∉ conn.received := fun among => fresh (known.received _ among)
  cases active : conn.rx.active with
  | false =>
      have idle : Stage maxPayload request conn.received 0 started.rx started.received := by
        rw [rxEq, receivedEq]
        exact .idle active
      have complete := idle.run new (inv.step stepped) (known.step stepped) sending sends
        (by rw [inOrder, List.range_eq_range', Nat.sub_zero])
      have received : last.received = conn.received ++ [request.opId] := by
        have some := sending.tx.some
        generalize countEq : frameCount request.totalLen maxPayload = count at complete some
        generalize last.rx = rx, last.received = done at complete
        cases complete with
        | idle _ => omega
        | collecting _ more _ => omega
        | complete _ => rfl
      exact ⟨iff_of_true received rfl, nofun⟩
  | true =>
      have occupied : started.rx.opId ≠ request.opId := by
        intro same
        have slot := known.slot active
        rw [← rxEq, same] at slot
        exact fresh slot
      obtain ⟨lastRx, lastReceived, refused⟩ := busy_run (by rw [rxEq]; exact active) occupied
        (known.step stepped) sending sends
      rw [rxEq] at lastRx refused
      rw [receivedEq] at lastReceived
      refine ⟨iff_of_false ?_ nofun, fun _ => ⟨lastRx, lastReceived, refused⟩⟩
      intro grown
      rw [lastReceived] at grown
      have sizes := congrArg List.length grown
      rw [List.length_append, List.length_singleton] at sizes
      omega

/-- Operation 7 is completed and operation 9 fails, before fragments of 7 arrive again. -/
def answeredAndFailed : List Label :=
  [.start ⟨7, 1, 6, 0, 0⟩, .next, .next, .data 0 true, .data 1 true, .ack 0,
    .start ⟨9, 1, 6, 2, 0⟩, .next, .timeout, .next, .next, .timeout, .timeout, .data 0 true,
    .data 1 true]

def retriedRequest : Request := ⟨8, 1, 6, 3, 0⟩

def sentAgain : List Label := [.next, .timeout, .next, .data 6 true, .next, .data 7 true]

def resent : List DataFrame :=
  [{ connId := 3, opId := 8, frameSeq := 0, retryGeneration := 1, offset := 0, length := 4
     fragIndex := 0, fragCount := 2, op := 1 },
   { connId := 3, opId := 8, frameSeq := 1, retryGeneration := 1, offset := 4, length := 2
     fragIndex := 1, fragCount := 2, op := 1 }]

theorem fresh_operation_completes_retried : ∃ conn last,
    Reaches (step 3 4) (fun _ _ => True) (start 3 4) conn ∧
    run (step 3 4) (.start retriedRequest :: sentAgain) conn = some last ∧
    last.received = [7, 8] := by
  have ran : (guarded (step 3 4) (fun _ _ => True) answeredAndFailed (start 3 4)).any
      (fun conn => conn.received == [7] && !conn.rx.active &&
        (run (step 3 4) (.start retriedRequest :: sentAgain) conn).isSome &&
        arrivals 3 4 (.start retriedRequest :: sentAgain) conn == resent.map (·, true)) = true := by
    decide
  obtain ⟨conn, reached, found⟩ := exists_reaches_of_guarded ran
  simp only [Bool.and_eq_true, beq_iff_eq, Bool.not_eq_true'] at found
  obtain ⟨⟨⟨received, free⟩, finished⟩, arrived⟩ := found
  obtain ⟨last, lastRan⟩ := Option.isSome_iff_exists.mp finished
  have complete := fresh_operation_completes_iff 3 4 conn last retriedRequest sentAgain resent
    reached lastRan (by simp [sentAgain]) arrived (by simp [resent, retriedRequest]) (by decide)
  exact ⟨conn, last, reached, lastRan, by rw [complete.1.mpr free, received]; rfl⟩

/-- The first of two fragments arrives, then the operation fails for lack of retries. -/
def failedHalfway : List Label :=
  [.start ⟨7, 1, 6, 0, 0⟩, .next, .data 0 true, .timeout]

def oneFragment : Request := ⟨8, 1, 4, 0, 0⟩

/-- Operation 7 keeps the slot it was given up in: operation 8 does not complete. -/
theorem fresh_operation_refused : ∃ conn last frame,
    Reaches (step 3 4) (fun _ _ => True) (start 3 4) conn ∧
    run (step 3 4) [.start oneFragment, .next, .data 1 true] conn = some last ∧
    arrivals 3 4 [.start oneFragment, .next, .data 1 true] conn = [(frame, true)] ∧
    frame.opId = oneFragment.opId ∧
    [frame.fragIndex] = List.range (frameCount oneFragment.totalLen 4) ∧
    oneFragment.opId ∉ last.received ∧ (last.rx.rxOnData frame true).2 = .error .ebusy := by
  have ran : (guarded (step 3 4) (fun _ _ => True) failedHalfway (start 3 4)).any
      (fun conn => (run (step 3 4) [.start oneFragment, .next, .data 1 true] conn).any fun last =>
        (arrivals 3 4 [.start oneFragment, .next, .data 1 true] conn).any fun arrived =>
          arrivals 3 4 [.start oneFragment, .next, .data 1 true] conn == [(arrived.1, true)] &&
          arrived.1.opId == 8 && arrived.1.fragIndex == 0 && last.received == [] &&
          decide ((last.rx.rxOnData arrived.1 true).2 = .error .ebusy)) = true := by decide
  obtain ⟨conn, reached, found⟩ := exists_reaches_of_guarded ran
  obtain ⟨last, lastRan, rest⟩ := Option.any_eq_true _ _ |>.mp found
  obtain ⟨arrived, _, facts⟩ := List.any_eq_true.mp rest
  simp only [Bool.and_eq_true, beq_iff_eq, decide_eq_true_eq] at facts
  obtain ⟨⟨⟨⟨only, opId⟩, index⟩, received⟩, refused⟩ := facts
  exact ⟨conn, last, arrived.1, reached, lastRan, only, opId, by rw [index]; rfl,
    by rw [received]; exact List.not_mem_nil, refused⟩

end Tbv.Reliab
