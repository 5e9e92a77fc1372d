import ThunderboltIbverbs.Reliab.Tiling

/-! # What an attempt costs that meets no receive

The sender emits all frames of an operation, a receiver without a receive answers each one it gets
with its own RNR, and `tbv_rel_tx_on_ack` does not compare the retry generation of an
acknowledgement with its own: the RNRs behind the first one are taken for answers to the next
attempt. -/
set_option autoImplicit false
namespace Tbv.Reliab

/-- `fuel` calls of `tbv_rel_tx_next_frame`, until one returns an error. -/
def TxOp.send : Nat → TxOp → TxOp × List DataFrame
  | 0, tx => (tx, [])
  | fuel + 1, tx =>
      match tx.txNextFrame with
      | .error _ => (tx, [])
      | .ok (next, frame) => ((next.send fuel).1, frame :: (next.send fuel).2)

/-- All frames that are left of an attempt. -/
def TxOp.sendAll (tx : TxOp) : TxOp × List DataFrame := tx.send tx.frameCount

/-- What the receiver acknowledges to frames that arrive one after another. -/
def RxOp.answer (recvAvailable : Bool) : RxOp → List DataFrame → RxOp × List AckFrame
  | rx, [] => (rx, [])
  | rx, frame :: rest =>
      let out := rx.rxOnData frame recvAvailable
      let later := RxOp.answer recvAvailable out.1 rest
      (later.1, acked out.2 ++ later.2)

/-- The sender processes acknowledgements one after another. -/
def TxOp.takeAcks : TxOp → List AckFrame → TxOp × List Completion
  | tx, [] => (tx, [])
  | tx, ack :: rest =>
      match tx.txOnAck ack with
      | .error _ => tx.takeAcks rest
      | .ok (next, completion) =>
          ((next.takeAcks rest).1, completion.toList ++ (next.takeAcks rest).2)

/-- The network's part in an attempt: which of the frames sent arrive, in order, and which of
the acknowledgements to them the sender processes, in order. -/
structure Attempt where
  frames : List Nat
  acks : List Nat
  deriving DecidableEq, Repr

def pick {α : Type} (sent : List α) (places : List Nat) : List α :=
  places.filterMap fun place => sent[place]?

/-- The two ends of the connection, and what the sender told its user. -/
structure Ends where
  tx : TxOp
  rx : RxOp
  reports : List Completion := []

def Ends.attempt (recvAvailable : Bool) (ends : Ends) (network : Attempt) : Ends :=
  let sent := ends.tx.sendAll
  let answered := ends.rx.answer recvAvailable (pick sent.2 network.frames)
  let taken := sent.1.takeAcks (pick answered.2 network.acks)
  ⟨taken.1, answered.1, ends.reports ++ taken.2⟩

def Ends.attempts (ends : Ends) (networks : List Attempt) : Ends :=
  networks.foldl (Ends.attempt false) ends

/-- Some of the `count` frames arrive, each once, and the sender processes all acknowledgements
to them, one for each, any number of times. -/
structure Attempt.Arrives (count : Nat) (network : Attempt) : Prop where
  some : network.frames ≠ []
  once : network.frames.Nodup
  sent : ∀ i ∈ network.frames, i < count
  acks : ∀ j, j ∈ network.acks ↔ j < network.frames.length

/-- All `count` frames arrive, and the first acknowledgement to them does. -/
structure Attempt.ArrivesWhole (count : Nat) (network : Attempt) : Prop where
  once : network.frames.Nodup
  all : ∀ i, i ∈ network.frames ↔ i < count
  ack : 0 ∈ network.acks

/-- What `k` attempts may cost an operation with the given RNR budget. -/
structure Ends.Cost (request : Request) (k : Nat) (ends : Ends) : Prop where
  used : request.rnrBudget - ends.tx.rnrBudget ≤ k
  alive : k ≤ request.rnrBudget → ⟨request.opId, .rnrRetryExhausted⟩ ∉ ends.reports
  completes : k ≤ request.rnrBudget → ∀ network : Attempt,
    network.ArrivesWhole ends.tx.frameCount →
      (ends.attempt true network).tx.state = .complete ∧
      (ends.attempt true network).reports = ends.reports ++ [⟨request.opId, .ok⟩]

/-! ## The sender -/

/-- The operation runs, with the given RNR budget. -/
structure Running (connId maxPayload : Nat) (request : Request) (budget : Nat) (tx : TxOp) :
    Prop where
  begun : Begun connId maxPayload request tx
  total : tx.totalLen = request.totalLen
  state : tx.state = .ready ∨ tx.state = .inFlight
  budget : tx.rnrBudget = budget

/-- An RNR that answers a frame of the operation. -/
structure IsRnr (tx : TxOp) (ack : AckFrame) : Prop where
  connId : ack.connId = tx.connId
  opId : ack.opId = tx.opId
  status : ack.status = .rnr

section Sender
variable {connId maxPayload budget : Nat} {request : Request} {tx : TxOp}

theorem Running.not_over (running : Running connId maxPayload request budget tx) :
    ¬ (tx.state = .complete ∨ tx.state = .failed) := by
  rcases running.state with is | is <;> rw [is] <;> decide

theorem Running.own (running : Running connId maxPayload request budget tx) {ack : AckFrame}
    (conn : ack.connId = tx.connId) (op : ack.opId = tx.opId) : tx.txOnAck ack =
      match ack.status with
      | .ok => .ok (tx.finish .complete, some ⟨tx.opId, .ok⟩)
      | .rnr =>
          if exhausted tx.rnrBudget then
            .ok (tx.finish .failed, some ⟨tx.opId, .rnrRetryExhausted⟩)
          else .ok ({ tx.restart with rnrBudget := spend tx.rnrBudget, state := .ready }, none)
      | .error => .ok (tx.finish .failed, some ⟨tx.opId, .remoteError⟩)
      | .other _ => .error .einval := by
  have mine : ¬ (ack.connId ≠ tx.connId ∨ ack.opId ≠ tx.opId) := by simp [conn, op]
  unfold TxOp.txOnAck
  rw [if_neg mine]
  refine (if_neg running.not_over).trans ?_
  cases ack.status <;> rfl

theorem takeAcks_ended (ended : tx.state = .complete ∨ tx.state = .failed) (acks : List AckFrame) :
    tx.takeAcks acks = (tx, []) := by
  induction acks with
  | nil => rfl
  | cons ack rest ih =>
      have ignored : tx.txOnAck ack = .ok (tx, none) := by
        unfold TxOp.txOnAck
        rw [if_pos ended]
        split <;> rfl
      rw [TxOp.takeAcks, ignored]
      dsimp only
      rw [ih]
      rfl

/-- An RNR within the budget costs one unit of it and starts the operation over. -/
theorem Running.rnr (running : Running connId maxPayload request budget tx)
    (finite : budget < retryInfinite) {ack : AckFrame} (rnr : IsRnr tx ack) (left : budget ≠ 0) :
    ∃ next, tx.txOnAck ack = .ok (next, none) ∧ next.nextFrame = 0 ∧
      next.connId = tx.connId ∧ next.opId = tx.opId ∧
      Running connId maxPayload request (budget - 1) next := by
  have some : exhausted tx.rnrBudget = false := by
    rw [running.budget]
    simp [exhausted, left]
  have spent : spend tx.rnrBudget = budget - 1 := by
    rw [running.budget]
    exact if_pos finite.ne
  refine ⟨{ tx.restart with rnrBudget := budget - 1, state := .ready }, ?_, rfl, rfl, rfl,
    running.begun.same ⟨rfl, rfl, rfl, rfl, rfl, nofun⟩, running.total, .inl rfl, rfl⟩
  rw [running.own rnr.connId rnr.opId, rnr.status]
  dsimp only
  rw [some, spent]
  rfl

/-- An RNR when the budget is spent fails the operation. -/
theorem Running.rnr_exhausted (running : Running connId maxPayload request 0 tx) {ack : AckFrame}
    (rnr : IsRnr tx ack) :
    tx.txOnAck ack = .ok (tx.finish .failed, some ⟨request.opId, .rnrRetryExhausted⟩) := by
  have none : exhausted tx.rnrBudget = true := by
    rw [running.budget]
    decide
  rw [running.own rnr.connId rnr.opId, rnr.status, running.begun.opId]
  dsimp only
  rw [none]
  rfl

theorem Running.takeAcks (running : Running connId maxPayload request budget tx)
    (finite : budget < retryInfinite) {acks : List AckFrame}
    (rnr : ∀ ack ∈ acks, IsRnr tx ack) (within : acks.length ≤ budget) :
    Running connId maxPayload request (budget - acks.length) (tx.takeAcks acks).1 ∧
    (acks ≠ [] → (tx.takeAcks acks).1.nextFrame = 0) ∧ (tx.takeAcks acks).2 = [] := by
  induction acks generalizing tx budget with
  | nil => exact ⟨running, fun none => absurd rfl none, rfl⟩
  | cons ack rest ih =>
      rw [List.length_cons] at within ⊢
      obtain ⟨next, answered, zero, conn, op, goes⟩ :=
        running.rnr finite (rnr ack List.mem_cons_self) (by omega)
      obtain ⟨after, first, silent⟩ := ih goes (by omega) (fun other among => by
        obtain ⟨connId, opId, status⟩ := rnr other (List.mem_cons_of_mem _ among)
        exact ⟨connId.trans conn.symm, opId.trans op.symm, status⟩) (by omega)
      rw [TxOp.takeAcks, answered]
      dsimp only
      refine ⟨?_, fun _ => ?_, ?_⟩
      · rwa [Nat.sub_sub, Nat.add_comm] at after
      · cases rest with
        | nil => exact zero
        | cons other later => exact first nofun
      · rw [silent]
        rfl

theorem Running.takeAcks_exhausted (running : Running connId maxPayload request budget tx)
    (finite : budget < retryInfinite) {acks : List AckFrame}
    (rnr : ∀ ack ∈ acks, IsRnr tx ack) (beyond : budget < acks.length) :
    (tx.takeAcks acks).1.state = .failed ∧ (tx.takeAcks acks).1.rnrBudget = 0 ∧
    (tx.takeAcks acks).2 = [⟨request.opId, .rnrRetryExhausted⟩] := by
  induction acks generalizing tx budget with
  | nil => exact absurd beyond (Nat.not_lt_zero _)
  | cons ack rest ih =>
      rw [List.length_cons] at beyond
      by_cases spent : budget = 0
      · subst spent
        rw [TxOp.takeAcks, running.rnr_exhausted (rnr ack List.mem_cons_self)]
        dsimp only
        rw [takeAcks_ended (.inr rfl)]
        exact ⟨rfl, running.budget, rfl⟩
      · obtain ⟨next, answered, -, conn, op, goes⟩ :=
          running.rnr finite (rnr ack List.mem_cons_self) spent
        obtain ⟨failed, empty, told⟩ := ih goes (by omega) (fun other among => by
          obtain ⟨connId, opId, status⟩ := rnr other (List.mem_cons_of_mem _ among)
          exact ⟨connId.trans conn.symm, opId.trans op.symm, status⟩) (by omega)
        rw [TxOp.takeAcks, answered]
        dsimp only
        exact ⟨failed, empty, told⟩

/-- An acknowledgement of the operation completes it, whatever follows. -/
theorem Running.takeAcks_ok (running : Running connId maxPayload request budget tx)
    {ack : AckFrame} (conn : ack.connId = tx.connId) (op : ack.opId = tx.opId)
    (status : ack.status = .ok) (rest : List AckFrame) :
    (tx.takeAcks (ack :: rest)).1.state = .complete ∧
    (tx.takeAcks (ack :: rest)).2 = [⟨request.opId, .ok⟩] := by
  have answered : tx.txOnAck ack = .ok (tx.finish .complete, some ⟨request.opId, .ok⟩) := by
    rw [running.own conn op, status, running.begun.opId]
  rw [TxOp.takeAcks, answered]
  dsimp only
  rw [takeAcks_ended (.inl rfl)]
  exact ⟨rfl, rfl⟩

/-- What the sender emits: the frames from the next one on. -/
theorem Running.send (running : Running connId maxPayload request budget tx)
    (totalSmall : request.totalLen < 2 ^ 32) (payloadSmall : maxPayload < 2 ^ 32) (fuel : Nat)
    (upTo : tx.nextFrame + fuel = tx.frameCount) :
    Running connId maxPayload request budget (tx.send fuel).1 ∧
    (tx.send fuel).2.map DataFrame.fragIndex = List.range' tx.nextFrame fuel ∧
    ∀ frame ∈ (tx.send fuel).2, Piece connId maxPayload request frame := by
  induction fuel generalizing tx with
  | zero => exact ⟨running, rfl, nofun⟩
  | succ fuel ih =>
      have more : tx.nextFrame < tx.frameCount := by omega
      have few : tx.frameCount ≤ maxFrags := running.begun.fragments ▸ running.begun.few
      have large : maxFrags < 2 ^ 32 - 1 := by decide
      obtain ⟨piece, index⟩ := running.begun.piece totalSmall payloadSmall running.total more
      have emitted : tx.txNextFrame = .ok
          ({ tx with
              nextFrame := tx.nextFrame + 1
              localTxFrames := (tx.localTxFrames + 1) % 2 ^ 32
              state := .inFlight }, tx.frame) := by
        have stopped : ¬ (tx.state ≠ .ready ∧ tx.state ≠ .inFlight) := by
          rintro ⟨notReady, notFlying⟩
          exact running.state.elim notReady notFlying
        unfold TxOp.txNextFrame
        rw [if_neg stopped, if_neg (by omega), Nat.mod_eq_of_lt (by omega)]
      obtain ⟨after, indices, pieces⟩ := @ih { tx with
          nextFrame := tx.nextFrame + 1
          localTxFrames := (tx.localTxFrames + 1) % 2 ^ 32
          state := .inFlight }
        ⟨running.begun.same ⟨rfl, rfl, rfl, rfl, rfl, nofun⟩, running.total, .inr rfl,
          running.budget⟩ (by dsimp only; omega)
      rw [TxOp.send, emitted]
      refine ⟨after, ?_, fun frame among => ?_⟩
      · rw [List.map_cons, List.range'_succ, index]
        exact congrArg _ indices
      · rcases List.mem_cons.mp among with rfl | later
        · exact piece
        · exact pieces frame later

end Sender

/-! ## The receiver -/

section Receiver
variable {connId maxPayload : Nat} {request : Request} {tx : TxOp} {rx : RxOp}

/-- Without a receive every frame gets its own RNR. -/
theorem Fresh.answer (fresh : Fresh connId maxPayload request rx)
    (begun : Begun connId maxPayload request tx) {frames : List DataFrame}
    (pieces : ∀ frame ∈ frames, Piece connId maxPayload request frame) :
    rx.answer false frames = (rx, frames.map (buildAck · .rnr)) := by
  induction frames with
  | nil => rfl
  | cons frame rest ih =>
      have piece := pieces frame List.mem_cons_self
      have refused : rx.rxOnData frame false =
          (rx, .ok { ack := some (buildAck frame .rnr), rnr := true }) := by
        rw [RxOp.rxOnData, piece.valid begun fresh.limit]
        dsimp only
        rw [if_neg (by rw [piece.conn, fresh.conn]; exact not_not.mpr rfl),
          if_neg (by rw [fresh.free]; decide), fresh.unanswered frame piece.opId]
        rfl
      rw [RxOp.answer, refused]
      dsimp only
      rw [ih fun other among => pieces other (List.mem_cons_of_mem _ among)]
      rfl

/-- The frames that are missing arrive: the last of them is answered. -/
theorem Gathered.answer {seen : Finset Nat} (gathered : Gathered connId maxPayload request seen rx)
    (begun : Begun connId maxPayload request tx) (totalSmall : request.totalLen < 2 ^ 32)
    (recvAvailable : Bool) {frames : List DataFrame} (some : frames ≠ [])
    (pieces : ∀ frame ∈ frames, Piece connId maxPayload request frame)
    (once : (frames.map DataFrame.fragIndex).Nodup)
    (apart : ∀ frame ∈ frames, frame.fragIndex ∉ seen)
    (all : seen ∪ (frames.map DataFrame.fragIndex).toFinset =
      Finset.range (frameCount request.totalLen maxPayload)) :
    ∃ last, Piece connId maxPayload request last ∧
      (rx.answer recvAvailable frames).2 = [buildAck last .ok] := by
  have few : frameCount request.totalLen maxPayload ≤ maxFrags := begun.few
  induction frames generalizing rx seen with
  | nil => exact absurd rfl some
  | cons frame rest ih =>
      have piece := pieces frame List.mem_cons_self
      have inside : seen ⊆ Finset.range (frameCount request.totalLen maxPayload) :=
        all ▸ Finset.subset_union_left
      rw [List.map_cons, List.nodup_cons] at once
      have rest_all : insert frame.fragIndex seen ∪ (rest.map DataFrame.fragIndex).toFinset =
          Finset.range (frameCount request.totalLen maxPayload) := by
        rw [← all]
        simp
      obtain ⟨taken, assembled⟩ := gathered.assemble piece totalSmall inside few
      rw [RxOp.answer, gathered.rxOnData begun piece]
      by_cases ends : rest = []
      · subst ends
        have complete : (insert frame.fragIndex seen).card =
            frameCount request.totalLen maxPayload := by
          have full : insert frame.fragIndex seen =
              Finset.range (frameCount request.totalLen maxPayload) := by simpa using rest_all
          rw [full, Finset.card_range]
        rw [assembled, if_pos complete]
        exact ⟨frame, piece, rfl⟩
      · obtain ⟨next, among⟩ := List.exists_mem_of_ne_nil rest ends
        have incomplete : (insert frame.fragIndex seen).card ≠
            frameCount request.totalLen maxPayload := fun complete => by
          have full := Finset.eq_of_subset_of_card_le
            (rest_all ▸ Finset.subset_union_left : insert frame.fragIndex seen ⊆ _)
            (by rw [complete, Finset.card_range])
          have here : next.fragIndex ∈ insert frame.fragIndex seen := by
            rw [full, Finset.mem_range]
            exact (pieces next (List.mem_cons_of_mem _ among)).index
          rcases Finset.mem_insert.mp here with same | old
          · exact once.1 (same ▸ List.mem_map_of_mem among)
          · exact apart next (List.mem_cons_of_mem _ among) old
        rw [assembled, if_neg incomplete]
        obtain ⟨last, isPiece, answered⟩ := ih taken ends
          (fun other later => pieces other (List.mem_cons_of_mem _ later)) once.2
          (fun other later here => by
            rcases Finset.mem_insert.mp here with same | old
            · exact once.1 (same ▸ List.mem_map_of_mem later)
            · exact apart other (List.mem_cons_of_mem _ later) old) rest_all
        exact ⟨last, isPiece, answered⟩

end Receiver

/-! ## Attempts -/

theorem mem_pick {α : Type} {sent : List α} {places : List Nat} {value : α}
    (among : value ∈ pick sent places) : value ∈ sent := by
  obtain ⟨place, -, found⟩ := List.mem_filterMap.mp among
  exact List.mem_of_getElem? found

theorem length_pick {α : Type} {sent : List α} {places : List Nat}
    (exist : ∀ place ∈ places, place < sent.length) : (pick sent places).length = places.length := by
  induction places with
  | nil => rfl
  | cons place rest ih =>
      have here := List.getElem?_eq_getElem (exist place List.mem_cons_self)
      unfold pick at ih ⊢
      rw [List.filterMap_cons_some here, List.length_cons, List.length_cons,
        ih fun other among => exist other (List.mem_cons_of_mem _ among)]

theorem map_pick {sent : List DataFrame} {count : Nat} {places : List Nat}
    (indices : sent.map DataFrame.fragIndex = List.range count)
    (exist : ∀ place ∈ places, place < count) :
    (pick sent places).map DataFrame.fragIndex = places := by
  have length : sent.length = count := by
    have sizes := congrArg List.length indices
    rwa [List.length_map, List.length_range] at sizes
  induction places with
  | nil => rfl
  | cons place rest ih =>
      have inside := exist place List.mem_cons_self
      have here : sent[place]? = some (sent.get ⟨place, length ▸ inside⟩) :=
        List.getElem?_eq_getElem _
      have index : (sent.get ⟨place, length ▸ inside⟩).fragIndex = place := by
        have at_place := congrArg (·[place]?) indices
        simp only [List.getElem?_map, here, List.getElem?_range inside] at at_place
        exact Option.some.inj at_place
      unfold pick at ih ⊢
      rw [List.filterMap_cons_some here, List.map_cons, index,
        ih fun other among => exist other (List.mem_cons_of_mem _ among)]

section Attempts
variable {connId maxPayload budget : Nat} {request : Request} {ends : Ends} {network : Attempt}

/-- Between two attempts that met no receive: nothing is left of them but what they cost. -/
structure Waits (connId maxPayload : Nat) (request : Request) (budget : Nat) (ends : Ends) :
    Prop where
  tx : Running connId maxPayload request budget ends.tx
  first : ends.tx.nextFrame = 0
  rx : Fresh connId maxPayload request ends.rx

structure Failed (request : Request) (ends : Ends) : Prop where
  state : ends.tx.state = .failed
  told : ⟨request.opId, .rnrRetryExhausted⟩ ∈ ends.reports

theorem Waits.sendAll (waits : Waits connId maxPayload request budget ends)
    (totalSmall : request.totalLen < 2 ^ 32) (payloadSmall : maxPayload < 2 ^ 32) :
    Running connId maxPayload request budget ends.tx.sendAll.1 ∧
    ends.tx.sendAll.2.map DataFrame.fragIndex = List.range ends.tx.frameCount ∧
    ∀ frame ∈ ends.tx.sendAll.2, Piece connId maxPayload request frame := by
  have sent := waits.tx.send totalSmall payloadSmall ends.tx.frameCount (by rw [waits.first]; omega)
  rwa [waits.first, ← List.range_eq_range'] at sent

/-- An attempt that meets no receive costs a unit for every RNR the sender processes. -/
theorem Waits.attempt (waits : Waits connId maxPayload request budget ends)
    (finite : budget < retryInfinite) (totalSmall : request.totalLen < 2 ^ 32)
    (payloadSmall : maxPayload < 2 ^ 32) (arrives : network.Arrives ends.tx.frameCount) :
    (network.acks.length ≤ budget →
      Waits connId maxPayload request (budget - network.acks.length) (ends.attempt false network) ∧
      (ends.attempt false network).reports = ends.reports) ∧
    (budget < network.acks.length → Failed request (ends.attempt false network)) := by
  obtain ⟨sent, indices, pieces⟩ := waits.sendAll totalSmall payloadSmall
  have length : ends.tx.sendAll.2.length = ends.tx.frameCount := by
    have sizes := congrArg List.length indices
    rwa [List.length_map, List.length_range] at sizes
  have arrived : ∀ frame ∈ pick ends.tx.sendAll.2 network.frames,
      Piece connId maxPayload request frame := fun frame among => pieces frame (mem_pick among)
  have answered := waits.rx.answer waits.tx.begun arrived
  have acks : (pick ((pick ends.tx.sendAll.2 network.frames).map (buildAck · .rnr))
      network.acks).length = network.acks.length := by
    refine length_pick fun j among => ?_
    rw [List.length_map, length_pick fun i here => length ▸ arrives.sent i here]
    exact (arrives.acks j).mp among
  have rnr : ∀ ack ∈ pick ((pick ends.tx.sendAll.2 network.frames).map (buildAck · .rnr))
      network.acks, IsRnr ends.tx.sendAll.1 ack := fun ack among => by
    obtain ⟨frame, here, rfl⟩ := List.mem_map.mp (mem_pick among)
    have piece := arrived frame here
    exact ⟨piece.conn.trans sent.begun.conn.symm, piece.opId.trans sent.begun.opId.symm, rfl⟩
  have some : network.acks ≠ [] := fun none => by
    have first := (arrives.acks 0).mpr (List.length_pos_iff.mpr arrives.some)
    rw [none] at first
    cases first
  unfold Ends.attempt
  dsimp only
  rw [answered]
  constructor
  · intro within
    obtain ⟨after, first, silent⟩ := sent.takeAcks finite rnr (acks ▸ within)
    rw [acks] at after
    refine ⟨⟨after, first fun none => some ?_, waits.rx⟩, ?_⟩
    · rw [none] at acks
      exact List.length_eq_zero_iff.mp acks.symm
    · rw [silent]
      exact List.append_nil _
  · intro beyond
    obtain ⟨failed, -, told⟩ := sent.takeAcks_exhausted finite rnr (acks ▸ beyond)
    refine ⟨failed, ?_⟩
    rw [told]
    exact List.mem_append_right _ (List.mem_singleton_self _)

/-- A failed operation sends nothing more. -/
theorem Failed.attempt (failed : Failed request ends) : Failed request (ends.attempt false network) := by
  have silent : ends.tx.sendAll = (ends.tx, []) := by
    have refused : ends.tx.txNextFrame = .error .einval := by
      unfold TxOp.txNextFrame
      rw [failed.state, if_pos (by decide)]
    unfold TxOp.sendAll
    cases ends.tx.frameCount with
    | zero => rfl
    | succ fuel =>
        rw [TxOp.send, refused]
  have nothing : ∀ {α : Type} (places : List Nat), pick ([] : List α) places = [] := fun places => by
    simp [pick]
  unfold Ends.attempt
  dsimp only
  rw [silent]
  dsimp only
  rw [nothing, RxOp.answer]
  dsimp only
  rw [nothing, TxOp.takeAcks]
  exact ⟨failed.state, List.mem_append_left _ failed.told⟩

/-- An attempt that meets a receive completes the operation. -/
theorem Waits.attempt_whole (waits : Waits connId maxPayload request budget ends)
    (totalSmall : request.totalLen < 2 ^ 32) (payloadSmall : maxPayload < 2 ^ 32)
    (whole : network.ArrivesWhole ends.tx.frameCount) :
    (ends.attempt true network).tx.state = .complete ∧
    (ends.attempt true network).reports = ends.reports ++ [⟨request.opId, .ok⟩] := by
  obtain ⟨sent, indices, pieces⟩ := waits.sendAll totalSmall payloadSmall
  have begun := waits.tx.begun
  have arrived : ∀ frame ∈ pick ends.tx.sendAll.2 network.frames,
      Piece connId maxPayload request frame := fun frame among => pieces frame (mem_pick among)
  have places : (pick ends.tx.sendAll.2 network.frames).map DataFrame.fragIndex = network.frames :=
    map_pick indices fun i among => (whole.all i).mp among
  have every : network.frames.toFinset =
      Finset.range (frameCount request.totalLen maxPayload) := by
    ext i
    rw [List.mem_toFinset, whole.all, Finset.mem_range, begun.fragments]
  obtain ⟨last, isPiece, answered⟩ : ∃ last, Piece connId maxPayload request last ∧
      (ends.rx.answer true (pick ends.tx.sendAll.2 network.frames)).2 = [buildAck last .ok] := by
    cases picked : pick ends.tx.sendAll.2 network.frames with
    | nil =>
        rw [picked] at places
        have first := (whole.all 0).mpr (begun.fragments ▸ begun.some)
        rw [← places] at first
        cases first
    | cons frame rest =>
        rw [picked] at arrived places
        have piece := arrived frame List.mem_cons_self
        have gathered := waits.rx.activate piece
        have goes : ends.rx.answer true (frame :: rest) =
            (ends.rx.activate frame).answer true (frame :: rest) := by
          rw [RxOp.answer, RxOp.answer, waits.rx.rxOnData begun piece,
            gathered.rxOnData begun piece]
        rw [goes]
        refine gathered.answer begun totalSmall true nofun arrived ?_
          (fun _ _ => Finset.notMem_empty _) ?_
        · rw [places]
          exact whole.once
        · rw [places, Finset.empty_union, every]
  -- whatever else the network brings of the one acknowledgement, the first copy completes
  obtain ⟨later, taken⟩ : ∃ later,
      pick [buildAck last .ok] network.acks = buildAck last .ok :: later := by
    cases picked : pick [buildAck last .ok] network.acks with
    | nil =>
        have here : buildAck last .ok ∈ pick [buildAck last .ok] network.acks :=
          List.mem_filterMap.mpr ⟨0, whole.ack, rfl⟩
        rw [picked] at here
        cases here
    | cons ack later =>
        have among : ack ∈ pick [buildAck last .ok] network.acks := by
          rw [picked]
          exact List.mem_cons_self
        rw [List.mem_singleton.mp (mem_pick among)]
        exact ⟨later, rfl⟩
  have conn : (buildAck last .ok).connId = ends.tx.sendAll.1.connId :=
    isPiece.conn.trans sent.begun.conn.symm
  have op : (buildAck last .ok).opId = ends.tx.sendAll.1.opId :=
    isPiece.opId.trans sent.begun.opId.symm
  obtain ⟨complete, told⟩ := sent.takeAcks_ok conn op rfl later
  unfold Ends.attempt
  dsimp only
  rw [answered, taken]
  exact ⟨complete, congrArg _ told⟩

/-- How many RNRs the sender processes in all attempts. -/
def rnrs (networks : List Attempt) : Nat := (networks.map (·.acks.length)).sum

theorem Failed.attempts (failed : Failed request ends) (networks : List Attempt) :
    Failed request (ends.attempts networks) := by
  induction networks generalizing ends with
  | nil => exact failed
  | cons network rest ih => exact ih failed.attempt

theorem Waits.attempts (waits : Waits connId maxPayload request budget ends)
    (finite : budget < retryInfinite) (totalSmall : request.totalLen < 2 ^ 32)
    (payloadSmall : maxPayload < 2 ^ 32) {networks : List Attempt}
    (arrive : ∀ network ∈ networks, network.Arrives ends.tx.frameCount) :
    (rnrs networks ≤ budget →
      Waits connId maxPayload request (budget - rnrs networks) (ends.attempts networks) ∧
      (ends.attempts networks).reports = ends.reports) ∧
    (budget < rnrs networks → Failed request (ends.attempts networks)) := by
  induction networks generalizing ends budget with
  | nil => exact ⟨fun _ => ⟨waits, rfl⟩, fun beyond => absurd beyond (Nat.not_lt_zero _)⟩
  | cons network rest ih =>
      have total : rnrs (network :: rest) = network.acks.length + rnrs rest := by simp [rnrs]
      have next : ends.attempts (network :: rest) = (ends.attempt false network).attempts rest := rfl
      obtain ⟨costs, fails⟩ := waits.attempt finite totalSmall payloadSmall
        (arrive network List.mem_cons_self)
      rw [total, next]
      by_cases within : network.acks.length ≤ budget
      · obtain ⟨after, silent⟩ := costs within
        have same : (ends.attempt false network).tx.frameCount = ends.tx.frameCount :=
          after.tx.begun.fragments.trans waits.tx.begun.fragments.symm
        obtain ⟨on, off⟩ := ih after (by omega) fun other among => by
          rw [same]
          exact arrive other (List.mem_cons_of_mem _ among)
        refine ⟨fun fits => ?_, fun beyond => off (by omega)⟩
        obtain ⟨last, quiet⟩ := on (by omega)
        rw [Nat.sub_sub] at last
        exact ⟨last, quiet.trans silent⟩
      · have failed : Failed request (ends.attempt false network) := fails (by omega)
        exact ⟨fun fits => absurd fits (by omega), fun _ => failed.attempts rest⟩

/-- A sender has spent as much as it was answered, until it fails. -/
theorem Waits.cost_iff (waits : Waits connId maxPayload request request.rnrBudget ends)
    (finite : request.rnrBudget < retryInfinite) (totalSmall : request.totalLen < 2 ^ 32)
    (payloadSmall : maxPayload < 2 ^ 32) (silent : ends.reports = []) {networks : List Attempt}
    (arrive : ∀ network ∈ networks, network.Arrives ends.tx.frameCount)
    (early : networks.length ≤ request.rnrBudget) :
    (ends.attempts networks).Cost request networks.length ↔ rnrs networks ≤ networks.length := by
  obtain ⟨on, off⟩ := waits.attempts finite totalSmall payloadSmall arrive
  constructor
  · intro cost
    by_contra more
    by_cases fits : rnrs networks ≤ request.rnrBudget
    · have used := cost.used
      rw [(on fits).1.tx.budget] at used
      omega
    · exact cost.alive early (off (by omega)).told
  · intro few
    obtain ⟨after, quiet⟩ := on (by omega)
    refine ⟨?_, fun _ told => ?_, fun _ network whole => ?_⟩
    · rw [after.tx.budget]
      omega
    · rw [quiet, silent] at told
      cases told
    · exact after.attempt_whole totalSmall payloadSmall whole

/-- Later attempts cost what the budget allows. -/
theorem cost_beyond {k : Nat} (beyond : request.rnrBudget < k) : ends.Cost request k :=
  ⟨by omega, fun within => absurd within (by omega), fun within => absurd within (by omega)⟩

end Attempts

theorem length_le_rnrs {networks : List Attempt}
    (some : ∀ network ∈ networks, 1 ≤ network.acks.length) : networks.length ≤ rnrs networks := by
  induction networks with
  | nil => exact Nat.le_refl _
  | cons network rest ih =>
      have here := some network List.mem_cons_self
      have later := ih fun other among => some other (List.mem_cons_of_mem _ among)
      simp only [rnrs, List.map_cons, List.sum_cons, List.length_cons] at later ⊢
      omega

theorem rnrs_eq_length {networks : List Attempt}
    (one : ∀ network ∈ networks, network.acks.length = 1) : rnrs networks = networks.length := by
  induction networks with
  | nil => rfl
  | cons network rest ih =>
      have here := one network List.mem_cons_self
      have later := ih fun other among => one other (List.mem_cons_of_mem _ among)
      simp only [rnrs, List.map_cons, List.sum_cons, List.length_cons] at later ⊢
      omega

/-- Where every attempt is answered, no prefix of them is answered more often than it is long
exactly when each is answered once. -/
theorem rnrs_le_iff {networks : List Attempt}
    (some : ∀ network ∈ networks, 1 ≤ network.acks.length) :
    (∀ k ≤ networks.length, rnrs (networks.take k) ≤ k) ↔
      ∀ network ∈ networks, network.acks.length = 1 := by
  constructor
  · intro few network among
    obtain ⟨before, after, rfl⟩ := List.append_of_mem among
    have upTo := few (before.length + 1) (by simp)
    have least := length_le_rnrs fun other here => some other (List.mem_append_left _ here)
    have here := some network among
    have cut : (before ++ network :: after).take (before.length + 1) = before ++ [network] := by
      simp [List.take_append]
    have total : rnrs (before ++ [network]) = rnrs before + network.acks.length := by
      simp [rnrs]
    rw [cut, total] at upTo
    omega
  · intro one k within
    rw [rnrs_eq_length fun network among => one network (List.mem_of_mem_take among),
      List.length_take]
    exact Nat.min_le_left _ _

theorem waits_start {connId maxPayload : Nat} {request : Request} {tx : TxOp} {rx : RxOp}
    (started : txStart connId maxPayload request = .ok tx)
    (fresh : Fresh connId maxPayload request rx) :
    Waits connId maxPayload request request.rnrBudget ⟨tx, rx, []⟩ := by
  obtain ⟨begun, ready⟩ := txStart_ok started
  unfold txStart at started
  split at started
  · cases started
  dsimp only at started
  split at started
  · cases started
  · cases started
    exact ⟨⟨begun, rfl, .inl ready, rfl⟩, rfl, fresh⟩

/-- An operation of at most 64 fragments that meets no receive pays at most one unit of a finite
RNR budget for each attempt, stays alive within its budget, and completes as soon as a whole
attempt meets a receive, exactly when the sender processes a single RNR in each attempt of its
budget. -/
theorem attempt_costs_one_iff {connId maxPayload : Nat} {request : Request} {tx : TxOp} {rx : RxOp}
    {networks : List Attempt} (totalSmall : request.totalLen < 2 ^ 32)
    (payloadSmall : maxPayload < 2 ^ 32) (started : txStart connId maxPayload request = .ok tx)
    (finite : request.rnrBudget < retryInfinite) (fresh : Fresh connId maxPayload request rx)
    (arrive : ∀ network ∈ networks, network.Arrives tx.frameCount) :
    (∀ k ≤ networks.length,
      (Ends.attempts ⟨tx, rx, []⟩ (networks.take k)).Cost request k) ↔
      ∀ network ∈ networks.take request.rnrBudget, network.acks.length = 1 := by
  have waits := waits_start started fresh
  have some : ∀ network ∈ networks.take request.rnrBudget, 1 ≤ network.acks.length :=
    fun network among => by
      have arrives := arrive network (List.mem_of_mem_take among)
      have first := (arrives.acks 0).mpr (List.length_pos_iff.mpr arrives.some)
      exact List.length_pos_of_mem first
  have cost : ∀ k ≤ networks.length, k ≤ request.rnrBudget →
      ((Ends.attempts ⟨tx, rx, []⟩ (networks.take k)).Cost request k ↔
        rnrs (networks.take k) ≤ k) := fun k within early => by
    have length : (networks.take k).length = k := List.length_take_of_le within
    have iff := waits.cost_iff finite totalSmall payloadSmall rfl
      (fun network among => arrive network (List.mem_of_mem_take among)) (length.symm ▸ early)
    rwa [length] at iff
  rw [← rnrs_le_iff some]
  constructor
  · intro costs k within
    rw [List.length_take] at within
    rw [List.take_take, Nat.min_eq_left (by omega)]
    exact (cost k (by omega) (by omega)).mp (costs k (by omega))
  · intro few k within
    by_cases early : k ≤ request.rnrBudget
    · have upTo := few k (by rw [List.length_take]; omega)
      rw [List.take_take, Nat.min_eq_left early] at upTo
      exact (cost k within early).mpr upTo
    · exact cost_beyond (by omega)

/-- Six bytes in two frames, and one RNR retry. -/
def twoFrames : Request := ⟨8, 1, 6, 0, 1⟩

theorem fresh_created : Fresh 3 4 twoFrames { connId := 3, maxPayload := 4 } :=
  ⟨rfl, rfl, rfl, fun _ _ => by simp [RxOp.findCachedAck]⟩

/-- The first frame is lost, and the RNR to the second one arrives once. -/
def oneArrives : List Attempt := [⟨[1], [0]⟩]

theorem attempt_costs_one_twoFrames : ∃ tx, txStart 3 4 twoFrames = .ok tx ∧
    ∀ k ≤ oneArrives.length, (Ends.attempts ⟨tx, { connId := 3, maxPayload := 4 }, []⟩
      (oneArrives.take k)).Cost twoFrames k := by
  obtain ⟨tx, started⟩ : ∃ tx, txStart 3 4 twoFrames = .ok tx := ⟨_, rfl⟩
  have two : tx.frameCount = 2 := by
    cases started
    rfl
  refine ⟨tx, started, (attempt_costs_one_iff (by decide) (by decide) started (by decide)
    fresh_created fun network among => ?_).mpr ?_⟩
  · rw [List.mem_singleton.mp among, two]
    exact ⟨by decide, by decide, by simp, by simp⟩
  · intro network among
    rw [List.mem_singleton.mp (List.mem_of_mem_take among)]
    rfl

/-- Both frames of the first attempt arrive, and their two RNRs fail the operation. -/
theorem two_rnrs_exhaust : ¬ ∀ (connId maxPayload : Nat) (request : Request) (tx : TxOp) (rx : RxOp)
    (networks : List Attempt), request.totalLen < 2 ^ 32 → maxPayload < 2 ^ 32 →
    txStart connId maxPayload request = .ok tx → request.rnrBudget < retryInfinite →
    Fresh connId maxPayload request rx → (∀ network ∈ networks, network.Arrives tx.frameCount) →
    ∀ k ≤ networks.length, (Ends.attempts ⟨tx, rx, []⟩ (networks.take k)).Cost request k := by
  intro always
  obtain ⟨tx, started⟩ : ∃ tx, txStart 3 4 twoFrames = .ok tx := ⟨_, rfl⟩
  have two : tx.frameCount = 2 := by
    cases started
    rfl
  have cost := always 3 4 twoFrames tx { connId := 3, maxPayload := 4 } [⟨[0, 1], [0, 1]⟩]
    (by decide) (by decide) started (by decide) fresh_created (fun network among => by
      rw [List.mem_singleton.mp among, two]
      exact ⟨by decide, by decide, by simp, by simp; omega⟩) 1 (by decide)
  refine cost.alive (by decide) ?_
  cases started
  decide

end Tbv.Reliab
