import ThunderboltIbverbs.Reliab.FreshOp
import Mathlib.Algebra.Order.BigOperators.Group.Finset

/-! # The fragments of an operation

The sender's fragments lie end to end from 0 to the length of the operation in every retry, and a
free receive slot that gets each of them, however often and in whatever order, counts every byte
once.  The 32-bit sums cannot wrap: where the rounding-up sum of `tbv_rel_tx_start` does, the
number of frames is 0 and the operation is refused. -/
set_option autoImplicit false
namespace Tbv.Reliab

open Trans

/-- How many pieces of at most `size` bytes an operation has; an empty one has one. -/
def pieces (total size : Nat) : Nat := max 1 ((total + size - 1) / size)

def pieceLen (total size i : Nat) : Nat := min size (total - i * size)

theorem frameCount_eq_pieces {total size : Nat} (totalSmall : total < 2 ^ 32)
    (sizeSmall : size < 2 ^ 32) (some : 0 < frameCount total size) :
    frameCount total size = pieces total size := by
  unfold frameCount at some ⊢
  unfold pieces
  by_cases empty : total = 0
  · have none : (total + size - 1) / size ≤ 1 := by
      rw [empty]
      exact Nat.div_le_of_le_mul (by omega)
    rw [if_neg (by omega)]
    omega
  · rw [if_pos empty] at some ⊢
    by_cases wraps : total + size - 1 < 2 ^ 32
    · rw [Nat.mod_eq_of_lt wraps] at some ⊢
      omega
    · -- the sum that is left is below the size of one piece
      have left : (total + size - 1) % 2 ^ 32 < size := by omega
      rw [Nat.div_eq_of_lt left] at some
      omega

theorem lt_pieces {total size i : Nat} (positive : 0 < size) :
    i < pieces total size ↔ i = 0 ∨ i * size < total := by
  have place : i + 1 ≤ (total + size - 1) / size ↔ (i + 1) * size ≤ total + size - 1 :=
    Nat.le_div_iff_mul_le positive
  rw [Nat.succ_mul] at place
  unfold pieces
  omega

theorem sum_pieceLen (total size n : Nat) :
    ∑ i ∈ Finset.range n, pieceLen total size i = min (n * size) total := by
  induction n with
  | zero => simp
  | succ n ih =>
      rw [Finset.sum_range_succ, ih, pieceLen, Nat.succ_mul]
      omega

theorem total_le_pieces {total size : Nat} (positive : 0 < size) :
    total ≤ pieces total size * size := by
  by_contra short
  have more := (@lt_pieces total size (pieces total size) positive).mpr (.inr (by omega))
  omega

/-! ## The sender -/

/-- A call of the sender's user, or an acknowledgement that arrives. -/
inductive Call where
  | next
  | timeout
  | ack (ack : AckFrame)

/-- The sender, with the frames of its present attempt. -/
structure Sender where
  tx : TxOp
  frames : List DataFrame := []

/-- The receiver of the running operation was not ready. -/
def TxOp.refusedBy (tx : TxOp) (ack : AckFrame) : Bool :=
  ack.connId = tx.connId && ack.opId = tx.opId && tx.state ≠ .complete && tx.state ≠ .failed &&
    ack.status = .rnr

/-- An attempt that failed is followed by the next one, unless the operation completes. -/
def Sender.became (sender : Sender) (failed : Bool) (out : TxOp × Option Completion) : Sender where
  tx := out.1
  frames := if failed && out.2.isNone then [] else sender.frames

/-- A call that returns an error changes nothing and is no step. -/
def Sender.call (sender : Sender) : Call → Option Sender
  | .next => sender.tx.txNextFrame.toOption.map fun out => ⟨out.1, sender.frames ++ [out.2]⟩
  | .timeout => sender.tx.txOnTimeout.toOption.map (sender.became true)
  | .ack ack => (sender.tx.txOnAck ack).toOption.map (sender.became (sender.tx.refusedBy ack))

def EndToEnd : Nat → List DataFrame → Nat → Prop
  | first, [], last => first = last
  | first, frame :: rest, last => frame.offset = first ∧ EndToEnd (first + frame.length) rest last

theorem EndToEnd.snoc {first middle : Nat} {frames : List DataFrame} {frame : DataFrame}
    (before : EndToEnd first frames middle) (next : frame.offset = middle) :
    EndToEnd first (frames ++ [frame]) (middle + frame.length) := by
  induction frames generalizing first with
  | nil =>
      obtain rfl : first = middle := before
      exact ⟨next, rfl⟩
  | cons head rest ih => exact ⟨before.1, ih before.2⟩

structure Piece (connId maxPayload : Nat) (request : Request) (frame : DataFrame) : Prop
    extends Fragment connId maxPayload request frame where
  place : frame.offset = frame.fragIndex * maxPayload
  exact : frame.length = pieceLen request.totalLen maxPayload frame.fragIndex

/-- The sender of the operation has sent the first fragments of it. -/
structure Sender.Cuts (connId maxPayload : Nat) (request : Request) (sender : Sender) : Prop where
  tx : Begun connId maxPayload request sender.tx
  total : sender.tx.totalLen = request.totalLen
  upTo : sender.tx.nextFrame ≤ sender.tx.frameCount
  indices : sender.frames.map DataFrame.fragIndex = List.range sender.tx.nextFrame
  frames : ∀ frame ∈ sender.frames, Piece connId maxPayload request frame

/-- What a call does: the next frame is sent, the operation is started over, or neither. -/
inductive Sender.Does (sender : Sender) : Sender → Prop
  | sends {tx : TxOp} (same : SameOp sender.tx tx) (total : tx.totalLen = sender.tx.totalLen)
      (more : sender.tx.nextFrame < sender.tx.frameCount)
      (next : tx.nextFrame = (sender.tx.nextFrame + 1) % 2 ^ 32) :
      sender.Does ⟨tx, sender.frames ++ [sender.tx.frame]⟩
  | restarts {tx : TxOp} (same : SameOp sender.tx tx) (total : tx.totalLen = sender.tx.totalLen)
      (first : tx.nextFrame = 0) : sender.Does ⟨tx, []⟩
  | stays {tx : TxOp} (same : SameOp sender.tx tx) (total : tx.totalLen = sender.tx.totalLen)
      (next : tx.nextFrame = sender.tx.nextFrame) : sender.Does ⟨tx, sender.frames⟩

section Sender
variable {connId maxPayload : Nat} {request : Request} {tx : TxOp} {sender next : Sender}

theorem Sender.became_finish {state : TxState} (sender : Sender) (failed : Bool)
    (completion : Completion) (same : SameOp sender.tx (sender.tx.finish state)) :
    sender.Does (sender.became failed (sender.tx.finish state, some completion)) := by
  have kept : sender.became failed (sender.tx.finish state, some completion) =
      ⟨sender.tx.finish state, sender.frames⟩ := by
    unfold Sender.became
    rw [Option.isNone_some, Bool.and_false, if_neg Bool.false_ne_true]
  rw [kept]
  exact .stays same rfl rfl

/-- An acknowledgement of something else, or too late. -/
theorem Sender.became_self (sender : Sender) {ack : AckFrame}
    (other : sender.tx.refusedBy ack = false) :
    sender.Does (sender.became (sender.tx.refusedBy ack) (sender.tx, none)) := by
  have kept : sender.became (sender.tx.refusedBy ack) (sender.tx, none) =
      ⟨sender.tx, sender.frames⟩ := by
    unfold Sender.became
    rw [other, Bool.false_and, if_neg Bool.false_ne_true]
  rw [kept]
  exact .stays (.refl _) rfl rfl

theorem Sender.became_restart (sender : Sender) {retryBudget rnrBudget : Nat} {state : TxState}
    (same : SameOp sender.tx { sender.tx.restart with retryBudget, rnrBudget, state }) :
    sender.Does
      (sender.became true ({ sender.tx.restart with retryBudget, rnrBudget, state }, none)) :=
  .restarts same rfl rfl

theorem Sender.call_does {call : Call} (called : sender.call call = some next) :
    sender.Does next := by
  cases call with
  | next =>
      obtain ⟨out, sent, rfl⟩ := Option.map_eq_some_iff.mp called
      obtain ⟨same, -, more, frameEq⟩ := TxOp.txNextFrame_ok (toOption_eq_some sent)
      have sent := toOption_eq_some sent
      unfold TxOp.txNextFrame at sent
      split at sent
      · cases sent
      split at sent
      · cases sent
      · cases sent
        exact .sends same rfl more rfl
  | timeout =>
      obtain ⟨out, expired, rfl⟩ := Option.map_eq_some_iff.mp called
      obtain ⟨same, -⟩ := TxOp.txOnTimeout_ok (toOption_eq_some expired)
      have expired := toOption_eq_some expired
      unfold TxOp.txOnTimeout at expired
      split at expired
      · cases expired
      split at expired
      · cases expired
        exact sender.became_finish true _ same
      · cases expired
        exact sender.became_restart same
  | ack ack =>
      obtain ⟨out, ran, rfl⟩ := Option.map_eq_some_iff.mp called
      have same := TxOp.txOnAck_ok (toOption_eq_some ran)
      have ran := toOption_eq_some ran
      unfold TxOp.txOnAck at ran
      split at ran
      · rename_i foreign
        cases ran
        exact sender.became_self (by simp only [TxOp.refusedBy]; grind)
      split at ran
      · rename_i ended
        cases ran
        exact sender.became_self (by simp only [TxOp.refusedBy]; grind)
      rename_i mine running
      split at ran
      · cases ran
        exact sender.became_finish _ _ same
      · rename_i status
        have refused : sender.tx.refusedBy ack = true := by
          simp only [TxOp.refusedBy]
          grind
        rw [refused]
        split at ran
        · cases ran
          exact sender.became_finish true _ same
        · cases ran
          exact sender.became_restart same
      · cases ran
        exact sender.became_finish _ _ same
      · cases ran

theorem Begun.count (begun : Begun connId maxPayload request tx)
    (totalSmall : request.totalLen < 2 ^ 32) (payloadSmall : maxPayload < 2 ^ 32) :
    tx.frameCount = pieces request.totalLen maxPayload := by
  rw [begun.fragments]
  exact frameCount_eq_pieces totalSmall payloadSmall begun.some

theorem Begun.piece (begun : Begun connId maxPayload request tx)
    (totalSmall : request.totalLen < 2 ^ 32) (payloadSmall : maxPayload < 2 ^ 32)
    (totalLen : tx.totalLen = request.totalLen) (more : tx.nextFrame < tx.frameCount) :
    Piece connId maxPayload request tx.frame ∧ tx.frame.fragIndex = tx.nextFrame := by
  have positive : 0 < maxPayload := Nat.pos_of_ne_zero begun.payload
  have few := begun.few
  have large : maxFrags < 2 ^ 16 := by decide
  have index : tx.frame.fragIndex = tx.nextFrame := by
    refine Nat.mod_eq_of_lt ?_
    rw [begun.fragments] at more
    omega
  have inside : tx.nextFrame * maxPayload ≤ request.totalLen := by
    rw [begun.count totalSmall payloadSmall] at more
    rcases (lt_pieces positive).mp more with first | inside
    · rw [first]
      omega
    · omega
  have offset : tx.frame.offset = tx.nextFrame * maxPayload := by
    change tx.nextFrame * tx.maxPayload % 2 ^ 32 = _
    rw [begun.limit]
    exact Nat.mod_eq_of_lt (by omega)
  have length : tx.frame.length = pieceLen request.totalLen maxPayload tx.nextFrame := by
    have rest : tx.nextFrame * tx.maxPayload % 2 ^ 32 = tx.nextFrame * maxPayload := offset
    unfold TxOp.frame pieceLen
    dsimp only
    rw [rest, totalLen, begun.limit]
    split <;> split <;> omega
  exact ⟨⟨begun.frame more, by rw [offset, index], by rw [length, index]⟩, index⟩

theorem Sender.Cuts.call {call : Call} (cuts : sender.Cuts connId maxPayload request)
    (totalSmall : request.totalLen < 2 ^ 32) (payloadSmall : maxPayload < 2 ^ 32)
    (called : sender.call call = some next) : next.Cuts connId maxPayload request := by
  have few := cuts.tx.few
  have large : maxFrags < 2 ^ 16 := by decide
  cases Sender.call_does called with
  | sends same total more number =>
      obtain ⟨piece, index⟩ := cuts.tx.piece totalSmall payloadSmall cuts.total more
      have number : _ = sender.tx.nextFrame + 1 := number.trans (Nat.mod_eq_of_lt (by
        rw [cuts.tx.fragments] at more
        omega))
      refine ⟨cuts.tx.same same, total.trans cuts.total, ?_, ?_, fun frame among => ?_⟩
      · rw [number, same.frameCount]
        omega
      · rw [number, List.map_append, cuts.indices, List.range_succ, List.map_singleton, index]
      · rcases List.mem_append.mp among with old | new
        · exact cuts.frames frame old
        · rw [List.mem_singleton.mp new]
          exact piece
  | restarts same total first =>
      refine ⟨cuts.tx.same same, total.trans cuts.total, ?_, ?_, nofun⟩
      · rw [first]
        omega
      · rw [first]
        rfl
  | stays same total number =>
      refine ⟨cuts.tx.same same, total.trans cuts.total, ?_, ?_, cuts.frames⟩
      · rw [number, same.frameCount]
        exact cuts.upTo
      · rw [number]
        exact cuts.indices

theorem cuts_start (started : txStart connId maxPayload request = .ok tx) :
    Sender.Cuts connId maxPayload request ⟨tx, []⟩ := by
  obtain ⟨begun, -⟩ := txStart_ok started
  unfold txStart at started
  split at started
  · cases started
  dsimp only at started
  split at started
  · cases started
  · cases started
    exact ⟨begun, rfl, Nat.zero_le _, rfl, nofun⟩

theorem endToEnd_pieces {frames : List DataFrame} (n : Nat)
    (positive : 0 < maxPayload) (upTo : n ≤ pieces request.totalLen maxPayload)
    (indices : frames.map DataFrame.fragIndex = List.range n)
    (all : ∀ frame ∈ frames, Piece connId maxPayload request frame) :
    EndToEnd 0 frames (min (n * maxPayload) request.totalLen) := by
  induction n generalizing frames with
  | zero =>
      rw [List.map_eq_nil_iff.mp indices]
      simp [EndToEnd]
  | succ n ih =>
      obtain ⟨before, last, rfl, first, here⟩ : ∃ before last, frames = before ++ [last] ∧
          before.map DataFrame.fragIndex = List.range n ∧ last.fragIndex = n := by
        rw [List.range_succ] at indices
        obtain ⟨before, tail, rfl, first, rest⟩ := List.map_eq_append_iff.mp indices
        obtain ⟨last, rfl, here⟩ := List.map_eq_singleton_iff.mp rest
        exact ⟨before, last, rfl, first, here⟩
      have piece := all last (List.mem_append_right _ (List.mem_singleton_self _))
      have place := piece.place
      have length := piece.exact
      rw [here] at place length
      have inside := (@lt_pieces request.totalLen maxPayload n positive).mp (by omega)
      have start : min (n * maxPayload) request.totalLen = n * maxPayload := by
        rcases inside with zero | inside
        · rw [zero]
          omega
        · omega
      have shorter := ih (by omega) first fun frame among =>
        all frame (List.mem_append_left _ among)
      rw [start] at shorter
      have longer := shorter.snoc place
      rw [length] at longer
      have reach : n * maxPayload + pieceLen request.totalLen maxPayload n =
          min ((n + 1) * maxPayload) request.totalLen := by
        rw [pieceLen, Nat.succ_mul]
        omega
      rwa [reach] at longer

end Sender

/-! ## The receiver -/

/-- Frames that arrive one after another, each with or without a receive available. -/
def RxOp.receive (rx : RxOp) (arrivals : List (DataFrame × Bool)) : RxOp :=
  arrivals.foldl (fun rx arrival => (rx.rxOnData arrival.1 arrival.2).1) rx

/-- The slot has taken the fragments of the operation with these indices, each once. -/
structure Gathered (connId maxPayload : Nat) (request : Request) (seen : Finset Nat) (rx : RxOp) :
    Prop where
  conn : rx.connId = connId
  limit : rx.maxPayload = maxPayload
  active : rx.active = true
  opId : rx.opId = request.opId
  op : rx.op = request.op
  count : rx.frameCount = frameCount request.totalLen maxPayload
  receivedCount : rx.receivedCount = seen.card
  bitmap : ∀ i, rx.receivedBitmap.testBit i = decide (i ∈ seen)
  total : rx.totalLen = ∑ i ∈ seen, pieceLen request.totalLen maxPayload i

/-- A receiver of the connection whose slot is free, and that has not answered the operation. -/
structure Fresh (connId maxPayload : Nat) (request : Request) (rx : RxOp) : Prop where
  conn : rx.connId = connId
  limit : rx.maxPayload = maxPayload
  free : rx.active = false
  unanswered : ∀ frame, frame.opId = request.opId → rx.findCachedAck frame = none

section Receiver
variable {connId maxPayload : Nat} {request : Request} {tx : TxOp} {rx : RxOp} {frame : DataFrame}
  {seen : Finset Nat}

/-- No set of pieces is longer than the operation. -/
theorem sum_pieces_le {n total size : Nat} (inside : seen ⊆ Finset.range n) :
    ∑ i ∈ seen, pieceLen total size i ≤ total := by
  calc ∑ i ∈ seen, pieceLen total size i
      ≤ ∑ i ∈ Finset.range n, pieceLen total size i :=
        Finset.sum_le_sum_of_subset inside
    _ = min (n * size) total := sum_pieceLen total size n
    _ ≤ total := Nat.min_le_right _ _

theorem Gathered.take (gathered : Gathered connId maxPayload request seen rx)
    (piece : Piece connId maxPayload request frame) (totalSmall : request.totalLen < 2 ^ 32)
    (inside : insert frame.fragIndex seen ⊆ Finset.range (frameCount request.totalLen maxPayload))
    (few : frameCount request.totalLen maxPayload ≤ maxFrags) :
    Gathered connId maxPayload request (insert frame.fragIndex seen) (rx.take frame) := by
  unfold RxOp.take
  by_cases again : frame.fragIndex ∈ seen
  · rw [gathered.bitmap, decide_eq_true again, if_pos rfl, Finset.insert_eq_of_mem again]
    exact gathered
  have card := Finset.card_le_card inside
  rw [Finset.card_range, Finset.card_insert_of_notMem again] at card
  have limit : maxFrags = 64 := rfl
  have total := @sum_pieces_le _ _ request.totalLen maxPayload inside
  rw [Finset.sum_insert again] at total
  rw [gathered.bitmap, decide_eq_false again, if_neg (by decide)]
  refine ⟨gathered.conn, gathered.limit, gathered.active, gathered.opId, gathered.op,
    gathered.count, ?_, fun i => ?_, ?_⟩
  · rw [Finset.card_insert_of_notMem again, gathered.receivedCount]
    exact Nat.mod_eq_of_lt (by omega)
  · rw [Nat.testBit_or, gathered.bitmap, Nat.testBit_two_pow, ← Bool.decide_or]
    exact decide_eq_decide.mpr (by rw [Finset.mem_insert, or_comm, eq_comm])
  · rw [Finset.sum_insert again, gathered.total, piece.exact]
    refine (Nat.mod_eq_of_lt (by omega)).trans ?_
    omega

theorem Gathered.assemble (gathered : Gathered connId maxPayload request seen rx)
    (piece : Piece connId maxPayload request frame) (totalSmall : request.totalLen < 2 ^ 32)
    (inside : seen ⊆ Finset.range (frameCount request.totalLen maxPayload))
    (few : frameCount request.totalLen maxPayload ≤ maxFrags) :
    Gathered connId maxPayload request (insert frame.fragIndex seen) (rx.take frame) ∧
    rx.assemble frame =
      if (insert frame.fragIndex seen).card = frameCount request.totalLen maxPayload then
        ((rx.take frame).accept frame, .ok
          { ack := some (buildAck frame .ok)
            completion := some ⟨frame.opId, .ok⟩
            duplicate := decide (frame.fragIndex ∈ seen) })
      else (rx.take frame, .ok { duplicate := decide (frame.fragIndex ∈ seen) }) := by
  have taken := gathered.take piece totalSmall
    (Finset.insert_subset (Finset.mem_range.mpr piece.index) inside) few
  have own : ¬ (frame.opId ≠ rx.opId ∨ frame.op ≠ rx.op ∨ frame.fragCount ≠ rx.frameCount) := by
    rw [piece.opId, piece.op, piece.count, gathered.opId, gathered.op, gathered.count]
    simp
  refine ⟨taken, ?_⟩
  rw [RxOp.assemble, if_neg own]
  dsimp only
  rw [taken.receivedCount, taken.count, gathered.bitmap]

theorem Fresh.activate (fresh : Fresh connId maxPayload request rx)
    (piece : Piece connId maxPayload request frame) :
    Gathered connId maxPayload request ∅ (rx.activate frame) where
  conn := fresh.conn
  limit := fresh.limit
  active := rfl
  opId := piece.opId
  op := piece.op
  count := piece.count
  receivedCount := rfl
  bitmap := fun i => by
    rw [decide_eq_false (Finset.notMem_empty i)]
    exact Nat.zero_testBit i
  total := rfl

theorem Gathered.rxOnData (gathered : Gathered connId maxPayload request seen rx)
    (begun : Begun connId maxPayload request tx) (piece : Piece connId maxPayload request frame)
    (recvAvailable : Bool) : rx.rxOnData frame recvAvailable = rx.assemble frame := by
  rw [RxOp.rxOnData, piece.valid begun gathered.limit]
  dsimp only
  rw [if_neg (by rw [piece.conn, gathered.conn]; exact not_not.mpr rfl), if_pos gathered.active]

theorem Fresh.rxOnData (fresh : Fresh connId maxPayload request rx)
    (begun : Begun connId maxPayload request tx) (piece : Piece connId maxPayload request frame) :
    rx.rxOnData frame true = (rx.activate frame).assemble frame := by
  rw [RxOp.rxOnData, piece.valid begun fresh.limit]
  dsimp only
  rw [if_neg (by rw [piece.conn, fresh.conn]; exact not_not.mpr rfl),
    if_neg (by rw [fresh.free]; decide), fresh.unanswered frame piece.opId]
  rfl

theorem Fresh.receive (fresh : Fresh connId maxPayload request rx)
    (begun : Begun connId maxPayload request tx) (totalSmall : request.totalLen < 2 ^ 32)
    {early : List (DataFrame × Bool)} {missing : Nat}
    (pieces : ∀ arrival ∈ early, Piece connId maxPayload request arrival.1)
    (available : ∀ arrival, early.head? = some arrival → arrival.2 = true)
    (without : ∀ arrival ∈ early, arrival.1.fragIndex ≠ missing)
    (inside : missing < frameCount request.totalLen maxPayload) :
    (early = [] ∧ rx.receive early = rx) ∨ (early ≠ [] ∧
      Gathered connId maxPayload request (early.map (·.1.fragIndex)).toFinset
        (rx.receive early)) := by
  have few : frameCount request.totalLen maxPayload ≤ maxFrags := begun.few
  induction early using List.reverseRecOn with
  | nil => exact .inl ⟨rfl, rfl⟩
  | append_singleton before arrival ih =>
      have piece := pieces arrival (List.mem_append_right _ (List.mem_singleton_self _))
      have earlier := ih (fun other among => pieces other (List.mem_append_left _ among))
        (fun other first => available other (by
          rw [List.head?_append, first]
          rfl))
        (fun other among => without other (List.mem_append_left _ among))
      have below : ((before ++ [arrival]).map (·.1.fragIndex)).toFinset ⊂
          Finset.range (frameCount request.totalLen maxPayload) := by
        refine (Finset.ssubset_iff_of_subset fun i among => ?_).mpr
          ⟨missing, Finset.mem_range.mpr inside, fun among => ?_⟩
        · obtain ⟨other, here, rfl⟩ := List.mem_map.mp (List.mem_toFinset.mp among)
          exact Finset.mem_range.mpr (pieces other here).index
        · obtain ⟨other, here, same⟩ := List.mem_map.mp (List.mem_toFinset.mp among)
          exact without other here same
      have incomplete := Finset.card_lt_card below
      rw [Finset.card_range] at incomplete
      have grown : ((before ++ [arrival]).map (·.1.fragIndex)).toFinset =
          insert arrival.1.fragIndex (before.map (·.1.fragIndex)).toFinset := by
        ext i
        simp
      have next : rx.receive (before ++ [arrival]) =
          ((rx.receive before).rxOnData arrival.1 arrival.2).1 := by
        simp [RxOp.receive]
      rw [grown] at incomplete ⊢
      refine .inr ⟨by simp, ?_⟩
      rw [next]
      rcases earlier with ⟨rfl, same⟩ | ⟨-, gathered⟩
      · have ready : arrival.2 = true := available arrival rfl
        obtain ⟨taken, assembled⟩ := (fresh.activate piece).assemble piece totalSmall
          (Finset.empty_subset _) few
        rw [same, ready, fresh.rxOnData begun piece, assembled, if_neg (by simpa using incomplete.ne)]
        exact taken
      · obtain ⟨taken, assembled⟩ := gathered.assemble piece totalSmall
          ((Finset.subset_insert _ _).trans (grown ▸ below.subset)) few
        rw [gathered.rxOnData begun piece, assembled, if_neg incomplete.ne]
        exact taken

end Receiver

/-! ## The fragments of every attempt -/

def TxOp.Sends (tx : TxOp) (frame : DataFrame) : Prop :=
  ∃ sender, Reaches Sender.call (fun _ _ => True) ⟨tx, []⟩ sender ∧ frame ∈ sender.frames

/-- Frames of the operation arrive until none of its fragments is missing; the last of them
brings the last missing fragment, and there is a receive when the first one arrives. -/
structure Gets (tx : TxOp) (early : List (DataFrame × Bool)) (last : DataFrame × Bool) : Prop where
  sent : ∀ arrival ∈ early ++ [last], tx.Sends arrival.1
  available : ∀ arrival, (early ++ [last]).head? = some arrival → arrival.2 = true
  all : ∀ i < tx.frameCount, ∃ arrival ∈ early ++ [last], arrival.1.fragIndex = i
  missing : ∀ arrival ∈ early, arrival.1.fragIndex ≠ last.1.fragIndex

/-- The last frame completes the operation, with all of its bytes counted. -/
def RxOp.CompletesWith (rx : RxOp) (request : Request) (early : List (DataFrame × Bool))
    (last : DataFrame × Bool) : Prop :=
  let out := (rx.receive early).rxOnData last.1 last.2
  out.2 = .ok { ack := some (buildAck last.1 .ok), completion := some ⟨request.opId, .ok⟩ } ∧
    out.1.totalLen = request.totalLen ∧ out.1.active = false

section Attempts
variable {connId maxPayload : Nat} {request : Request} {tx : TxOp} {sender : Sender} {rx : RxOp}

theorem Sender.Cuts.length (cuts : sender.Cuts connId maxPayload request) :
    sender.frames.length = sender.tx.nextFrame := by
  have sizes := congrArg List.length cuts.indices
  rwa [List.length_map, List.length_range] at sizes

theorem Sender.Cuts.enodata (cuts : sender.Cuts connId maxPayload request)
    (totalSmall : request.totalLen < 2 ^ 32) (payloadSmall : maxPayload < 2 ^ 32)
    (ended : sender.tx.txNextFrame = .error .enodata) :
    EndToEnd 0 sender.frames request.totalLen := by
  have positive : 0 < maxPayload := Nat.pos_of_ne_zero cuts.tx.payload
  have count := cuts.tx.count totalSmall payloadSmall
  have upTo := cuts.upTo
  have all : sender.tx.frameCount ≤ sender.tx.nextFrame := by
    unfold TxOp.txNextFrame at ended
    split at ended
    · cases ended
    split at ended
    · assumption
    · cases ended
  have reach := endToEnd_pieces sender.tx.nextFrame positive (count ▸ upTo) cuts.indices cuts.frames
  have covered : request.totalLen ≤ sender.tx.nextFrame * maxPayload := by
    rw [Nat.le_antisymm upTo all, count]
    exact total_le_pieces positive
  rwa [Nat.min_eq_right covered] at reach

theorem Sender.Cuts.next_iff (cuts : sender.Cuts connId maxPayload request)
    (running : sender.tx.state = .ready ∨ sender.tx.state = .inFlight) :
    sender.frames.length < sender.tx.frameCount ↔ ∃ out, sender.tx.txNextFrame = .ok out := by
  have stopped : ¬ (sender.tx.state ≠ .ready ∧ sender.tx.state ≠ .inFlight) := by
    rintro ⟨notReady, notFlying⟩
    exact running.elim notReady notFlying
  rw [cuts.length]
  unfold TxOp.txNextFrame
  rw [if_neg stopped]
  split
  · rename_i ended
    exact iff_of_false (Nat.not_lt.mpr ended) nofun
  · rename_i more
    exact iff_of_true (Nat.lt_of_not_le more) ⟨_, rfl⟩

theorem cuts_reached (totalSmall : request.totalLen < 2 ^ 32) (payloadSmall : maxPayload < 2 ^ 32)
    (started : txStart connId maxPayload request = .ok tx)
    (reached : Reaches Sender.call (fun _ _ => True) ⟨tx, []⟩ sender) :
    sender.Cuts connId maxPayload request ∧ sender.tx.frameCount = tx.frameCount := by
  obtain ⟨begun, -⟩ := txStart_ok started
  have cuts : sender.Cuts connId maxPayload request :=
    reached.invariant (cuts_start started) fun cuts _ called =>
      cuts.call totalSmall payloadSmall called
  exact ⟨cuts, cuts.tx.fragments.trans begun.fragments.symm⟩

/-- The last missing fragment completes the operation. -/
theorem Fresh.completes (fresh : Fresh connId maxPayload request rx)
    (totalSmall : request.totalLen < 2 ^ 32) (payloadSmall : maxPayload < 2 ^ 32)
    (started : txStart connId maxPayload request = .ok tx) {early : List (DataFrame × Bool)}
    {last : DataFrame × Bool} (gets : Gets tx early last) : rx.CompletesWith request early last := by
  obtain ⟨begun, -⟩ := txStart_ok started
  have count := begun.count totalSmall payloadSmall
  have few : frameCount request.totalLen maxPayload ≤ maxFrags := begun.few
  have positive : 0 < maxPayload := Nat.pos_of_ne_zero begun.payload
  have piece : ∀ arrival ∈ early ++ [last], Piece connId maxPayload request arrival.1 :=
    fun arrival among => by
      obtain ⟨sender, reached, sent⟩ := gets.sent arrival among
      exact (cuts_reached totalSmall payloadSmall started reached).1.frames _ sent
  have lastPiece := piece last (List.mem_append_right _ (List.mem_singleton_self _))
  have earlyPieces : ∀ arrival ∈ early, Piece connId maxPayload request arrival.1 :=
    fun arrival among => piece arrival (List.mem_append_left _ among)
  have seen : insert last.1.fragIndex (early.map (·.1.fragIndex)).toFinset =
      Finset.range (frameCount request.totalLen maxPayload) := by
    ext i
    rw [Finset.mem_range, Finset.mem_insert, List.mem_toFinset, List.mem_map]
    constructor
    · rintro (rfl | ⟨arrival, among, rfl⟩)
      · exact lastPiece.index
      · exact (earlyPieces arrival among).index
    · intro below
      obtain ⟨arrival, among, rfl⟩ := gets.all i (begun.fragments ▸ below)
      rcases List.mem_append.mp among with before | here
      · exact .inr ⟨arrival, before, rfl⟩
      · exact .inl (by rw [List.mem_singleton.mp here])
  have new : last.1.fragIndex ∉ (early.map (·.1.fragIndex)).toFinset := fun among => by
    obtain ⟨arrival, before, same⟩ := List.mem_map.mp (List.mem_toFinset.mp among)
    exact gets.missing arrival before same
  have full : ∑ i ∈ Finset.range (frameCount request.totalLen maxPayload),
      pieceLen request.totalLen maxPayload i = request.totalLen := by
    rw [sum_pieceLen, ← begun.fragments, count]
    exact Nat.min_eq_right (total_le_pieces positive)
  -- the slot holds the rest of the fragments, or it is free and this is the only one
  obtain ⟨held, gathered, goes⟩ : ∃ held, Gathered connId maxPayload request
      (early.map (·.1.fragIndex)).toFinset held ∧
      (rx.receive early).rxOnData last.1 last.2 = held.assemble last.1 := by
    rcases fresh.receive begun totalSmall earlyPieces
      (fun arrival first => gets.available arrival (by rw [List.head?_append, first]; rfl))
      gets.missing lastPiece.index with ⟨rfl, same⟩ | ⟨-, gathered⟩
    · have ready : last.2 = true := gets.available last rfl
      refine ⟨rx.activate last.1, fresh.activate lastPiece, ?_⟩
      rw [same, ready]
      exact fresh.rxOnData begun lastPiece
    · exact ⟨_, gathered, gathered.rxOnData begun lastPiece last.2⟩
  obtain ⟨taken, assembled⟩ := gathered.assemble lastPiece totalSmall
    (seen ▸ Finset.subset_insert _ _) few
  have complete : (insert last.1.fragIndex (early.map (·.1.fragIndex)).toFinset).card =
      frameCount request.totalLen maxPayload := by
    rw [seen, Finset.card_range]
  rw [if_pos complete, decide_eq_false new, lastPiece.opId] at assembled
  have total := taken.total
  rw [seen, full] at total
  unfold RxOp.CompletesWith
  dsimp only
  rw [goes, assembled]
  exact ⟨rfl, total, rfl⟩

end Attempts

def sixBytes : Request := ⟨8, 1, 6, 0, 0⟩

def sixBytesFrame (i offset length : Nat) : DataFrame where
  connId := 3
  opId := 8
  frameSeq := i
  retryGeneration := 0
  offset := offset
  length := length
  fragIndex := i
  fragCount := 2
  op := 1

end Tbv.Reliab
