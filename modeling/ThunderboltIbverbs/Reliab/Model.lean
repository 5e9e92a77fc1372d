import ThunderboltIbverbs.Lib.Run

/-! # The reliability model

`proto/reliability.c`: one operation of a sender, the single receive slot of its peer with
the ring of cached acknowledgements, and a network between them.  Every frame that was
ever sent may arrive at any later moment, any number of times or never, so the network is
the list of what was sent. -/
set_option autoImplicit false
namespace Tbv.Reliab

def maxFrags : Nat := 64
def ackHistorySize : Nat := 16
def retryInfinite : Nat := 2 ^ 32 - 1

inductive OpKind where
  | send | sendImm | rdmaWrite | rdmaWriteImm | rdmaReadResp
  deriving DecidableEq, Repr

def OpKind.code : OpKind → Nat
  | .send => 1
  | .sendImm => 2
  | .rdmaWrite => 3
  | .rdmaWriteImm => 4
  | .rdmaReadResp => 5

/-- `tbv_rel_valid_op`; the argument is any byte. -/
def validOp (op : Nat) : Bool :=
  op == OpKind.code .send || op == OpKind.code .sendImm || op == OpKind.code .rdmaWrite ||
    op == OpKind.code .rdmaWriteImm || op == OpKind.code .rdmaReadResp

/-- `enum tbv_rel_ack_status`, with the bytes that are none of its values. -/
inductive AckStatus where
  | ok | rnr | error
  | other (code : Nat)
  deriving DecidableEq, Repr

/-- `enum tbv_rel_completion_status`. -/
inductive CompStatus where
  | ok | rnrRetryExhausted | retryExhausted | remoteError | flushed
  deriving DecidableEq, Repr

inductive TxState where
  | empty | ready | inFlight | complete | failed
  deriving DecidableEq, Repr

inductive Errno where
  | einval | emsgsize | enodata | ebusy
  deriving DecidableEq, Repr

structure DataFrame where
  connId : Nat
  opId : Nat
  frameSeq : Nat
  retryGeneration : Nat
  offset : Nat
  length : Nat
  fragIndex : Nat
  fragCount : Nat
  op : Nat
  deriving DecidableEq, Repr

structure AckFrame where
  connId : Nat := 0
  opId : Nat := 0
  retryGeneration : Nat := 0
  status : AckStatus := .ok
  deriving DecidableEq, Repr

structure Completion where
  opId : Nat
  status : CompStatus
  deriving DecidableEq, Repr

/-! ## The sender -/

structure TxOp where
  connId : Nat := 0
  opId : Nat := 0
  totalLen : Nat := 0
  maxPayload : Nat := 0
  frameCount : Nat := 0
  nextFrame : Nat := 0
  retryGeneration : Nat := 0
  retryBudget : Nat := 0
  rnrBudget : Nat := 0
  localTxFrames : Nat := 0
  completionCount : Nat := 0
  op : Nat := 0
  state : TxState := .empty
  deriving DecidableEq, Repr

/-- What the caller of `tbv_rel_tx_start` chooses for one operation. -/
structure Request where
  opId : Nat
  op : Nat
  totalLen : Nat
  retryBudget : Nat
  rnrBudget : Nat
  deriving DecidableEq, Repr

/-- The number of frames of a message, in 32 bits. -/
def frameCount (totalLen maxPayload : Nat) : Nat :=
  if totalLen ≠ 0 then ((totalLen + maxPayload - 1) % 2 ^ 32) / maxPayload else 1

def txStart (connId maxPayload : Nat) (request : Request) : Except Errno TxOp :=
  if !validOp request.op || maxPayload == 0 then .error .einval
  else
    let count := frameCount request.totalLen maxPayload
    if count == 0 || maxFrags < count then .error .emsgsize
    else .ok
      { connId := connId
        opId := request.opId
        op := request.op
        totalLen := request.totalLen
        maxPayload := maxPayload
        frameCount := count
        retryBudget := request.retryBudget
        rnrBudget := request.rnrBudget
        state := .ready }

def TxOp.frame (tx : TxOp) : DataFrame :=
  let offset := tx.nextFrame * tx.maxPayload % 2 ^ 32
  let remaining := if offset < tx.totalLen then tx.totalLen - offset else 0
  { connId := tx.connId
    opId := tx.opId
    frameSeq := tx.nextFrame
    retryGeneration := tx.retryGeneration
    offset := offset
    length := if tx.maxPayload < remaining then tx.maxPayload else remaining
    fragIndex := tx.nextFrame % 2 ^ 16
    fragCount := tx.frameCount % 2 ^ 16
    op := tx.op }

def TxOp.txNextFrame (tx : TxOp) : Except Errno (TxOp × DataFrame) :=
  if tx.state ≠ .ready ∧ tx.state ≠ .inFlight then .error .einval
  else if tx.frameCount ≤ tx.nextFrame then .error .enodata
  else .ok
    ({ tx with
        nextFrame := (tx.nextFrame + 1) % 2 ^ 32
        localTxFrames := (tx.localTxFrames + 1) % 2 ^ 32
        state := .inFlight }, tx.frame)

def spend (budget : Nat) : Nat := if budget ≠ retryInfinite then budget - 1 else budget

def exhausted (budget : Nat) : Bool := budget != retryInfinite && budget == 0

def TxOp.finish (tx : TxOp) (state : TxState) : TxOp :=
  { tx with state := state, completionCount := (tx.completionCount + 1) % 2 ^ 32 }

def TxOp.restart (tx : TxOp) : TxOp :=
  { tx with retryGeneration := (tx.retryGeneration + 1) % 2 ^ 32, nextFrame := 0 }

def TxOp.txOnTimeout (tx : TxOp) : Except Errno (TxOp × Option Completion) :=
  if tx.state ≠ .inFlight then .error .einval
  else if exhausted tx.retryBudget then
    .ok (tx.finish .failed, some ⟨tx.opId, .retryExhausted⟩)
  else .ok ({ tx.restart with retryBudget := spend tx.retryBudget }, none)

def TxOp.txOnAck (tx : TxOp) (ack : AckFrame) : Except Errno (TxOp × Option Completion) :=
  if ack.connId ≠ tx.connId ∨ ack.opId ≠ tx.opId then .ok (tx, none)
  else if tx.state = .complete ∨ tx.state = .failed then .ok (tx, none)
  else
    match ack.status with
    | .ok => .ok (tx.finish .complete, some ⟨tx.opId, .ok⟩)
    | .rnr =>
        if exhausted tx.rnrBudget then
          .ok (tx.finish .failed, some ⟨tx.opId, .rnrRetryExhausted⟩)
        else .ok ({ tx.restart with rnrBudget := spend tx.rnrBudget, state := .ready }, none)
    | .error => .ok (tx.finish .failed, some ⟨tx.opId, .remoteError⟩)
    | .other _ => .error .einval

/-! ## The receiver -/

/-- `struct tbv_rel_rx_op`.  An entry of the history is valid when it is there; its
`op_id` is that of its acknowledgement. -/
structure RxOp where
  connId : Nat
  maxPayload : Nat
  opId : Nat := 0
  totalLen : Nat := 0
  frameCount : Nat := 0
  receivedCount : Nat := 0
  completionCount : Nat := 0
  ackHistoryNext : Nat := 0
  receivedBitmap : Nat := 0
  cachedAck : AckFrame := {}
  ackHistory : List (Option AckFrame) := List.replicate ackHistorySize none
  op : Nat := 0
  active : Bool := false
  accepted : Bool := false
  deriving DecidableEq, Repr

structure RxEvent where
  ack : Option AckFrame := none
  completion : Option Completion := none
  duplicate : Bool := false
  stale : Bool := false
  rnr : Bool := false
  deriving DecidableEq, Repr

def buildAck (frame : DataFrame) (status : AckStatus) : AckFrame :=
  ⟨frame.connId, frame.opId, frame.retryGeneration, status⟩

def RxOp.findCachedAck (rx : RxOp) (frame : DataFrame) : Option AckFrame :=
  rx.ackHistory.findSome? fun entry => entry.filter fun ack => ack.opId == frame.opId

def RxOp.storeCachedAck (rx : RxOp) (ack : AckFrame) : RxOp :=
  { rx with
    ackHistory := rx.ackHistory.set (rx.ackHistoryNext % ackHistorySize) (some ack)
    ackHistoryNext := (rx.ackHistoryNext + 1) % 2 ^ 32 }

def RxOp.validateFrame (rx : RxOp) (frame : DataFrame) : Option Errno :=
  if !validOp frame.op then some .einval
  else if rx.maxPayload = 0 ∨ frame.fragCount = 0 ∨ maxFrags < frame.fragCount ∨
      frame.fragCount ≤ frame.fragIndex then some .einval
  else if frame.offset ≠ frame.fragIndex * rx.maxPayload % 2 ^ 32 then some .einval
  else if rx.maxPayload < frame.length then some .emsgsize
  else none

def RxOp.activate (rx : RxOp) (frame : DataFrame) : RxOp :=
  { rx with
    active := true
    opId := frame.opId
    op := frame.op
    frameCount := frame.fragCount
    receivedCount := 0
    receivedBitmap := 0
    totalLen := 0 }

def RxOp.take (rx : RxOp) (frame : DataFrame) : RxOp :=
  if rx.receivedBitmap.testBit frame.fragIndex then rx
  else { rx with
    receivedBitmap := rx.receivedBitmap ||| 2 ^ frame.fragIndex
    receivedCount := (rx.receivedCount + 1) % 2 ^ 32
    totalLen := (rx.totalLen + frame.length) % 2 ^ 32 }

def RxOp.accept (rx : RxOp) (frame : DataFrame) : RxOp :=
  RxOp.storeCachedAck
    { rx with
      accepted := true
      active := false
      completionCount := (rx.completionCount + 1) % 2 ^ 32
      cachedAck := buildAck frame .ok }
    (buildAck frame .ok)

/-- `tbv_rel_rx_on_data` once the slot is active. -/
def RxOp.assemble (rx : RxOp) (frame : DataFrame) : RxOp × Except Errno RxEvent :=
  if frame.opId ≠ rx.opId ∨ frame.op ≠ rx.op ∨ frame.fragCount ≠ rx.frameCount then
    (rx, .error .ebusy)
  else
    let duplicate := rx.receivedBitmap.testBit frame.fragIndex
    let taken := rx.take frame
    if taken.receivedCount = taken.frameCount then
      (taken.accept frame, .ok
        { ack := some (buildAck frame .ok)
          completion := some ⟨frame.opId, .ok⟩
          duplicate := duplicate })
    else (taken, .ok { duplicate := duplicate })

def RxOp.rxOnData (rx : RxOp) (frame : DataFrame) (recvAvailable : Bool) :
    RxOp × Except Errno RxEvent :=
  match rx.validateFrame frame with
  | some errno => (rx, .error errno)
  | none =>
      if frame.connId ≠ rx.connId then (rx, .ok { stale := true })
      else if rx.active then rx.assemble frame
      else
        match rx.findCachedAck frame with
        | some ack => (rx, .ok { ack := some ack, duplicate := true })
        | none =>
            if recvAvailable then (rx.activate frame).assemble frame
            else (rx, .ok { ack := some (buildAck frame .rnr), rnr := true })

/-! ## One connection -/

/-- `data` and `acks` are all the frames sent so far; `started` the op_ids used,
`reports` what the sender told its user, `received` the completions of the receiver. -/
structure Conn where
  tx : TxOp
  rx : RxOp
  data : List DataFrame := []
  acks : List AckFrame := []
  started : List Nat := []
  reports : List Completion := []
  received : List Nat := []

inductive Label where
  | start (request : Request)
  | next
  | timeout
  | ack (i : Nat)
  | data (i : Nat) (recvAvailable : Bool)

/-- No operation is running. -/
def TxOp.over (tx : TxOp) : Bool :=
  tx.state == .empty || tx.state == .complete || tx.state == .failed

def Conn.reported (conn : Conn) (out : TxOp × Option Completion) : Conn :=
  { conn with tx := out.1, reports := conn.reports ++ out.2.toList }

def acked : Except Errno RxEvent → List AckFrame
  | .ok event => event.ack.toList
  | .error _ => []

/-- The operation that a call to the receiver completes. -/
def completed : Except Errno RxEvent → List Nat
  | .ok event => (event.completion.map Completion.opId).toList
  | .error _ => []

def Conn.answered (conn : Conn) (out : RxOp × Except Errno RxEvent) : Conn :=
  { conn with
    rx := out.1
    acks := conn.acks ++ acked out.2
    received := conn.received ++ completed out.2 }

/-- Calls that return an error change nothing on the sender's side and are no steps. -/
def step (connId maxPayload : Nat) (conn : Conn) : Label → Option Conn
  | .start request =>
      if conn.tx.over = true ∧ request.opId ∉ conn.started then
        (txStart connId maxPayload request).toOption.map fun tx =>
          { conn with tx := tx, started := conn.started ++ [request.opId] }
      else none
  | .next => conn.tx.txNextFrame.toOption.map fun out =>
      { conn with tx := out.1, data := conn.data ++ [out.2] }
  | .timeout => conn.tx.txOnTimeout.toOption.map conn.reported
  | .ack i => (conn.acks[i]?).bind fun ack => (conn.tx.txOnAck ack).toOption.map conn.reported
  | .data i recvAvailable => (conn.data[i]?).map fun frame =>
      conn.answered (conn.rx.rxOnData frame recvAvailable)

/-- `tbv_rel_rx_init`, and a sender that has not started. -/
def start (connId maxPayload : Nat) : Conn where
  tx := {}
  rx := { connId := connId, maxPayload := maxPayload }

end Tbv.Reliab
