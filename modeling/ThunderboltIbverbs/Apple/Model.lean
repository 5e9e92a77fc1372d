import ThunderboltIbverbs.Lib.Run
import ThunderboltIbverbs.Lib.Threads
import ThunderboltIbverbs.Lib.Ring
import Mathlib.Logic.Function.Basic

/-! # Apple receive reassembly

`tbv_ibdev_rx_apple_frame` gathers the frames of a message in a slot of a circular
table, and `tbv_apple_rx_drain_pending_locked` moves finished slots into posted
receive WQEs.  The QP is bound and in FRAME mode throughout: the checks of the
rail's bind state and the dead RAW branches (`tbv_path_apple_rx_raw_mode` is always
false) are left out, as are the statistics counters.

`tbv_post_recv` appends under `tqp->lock` and drains under `rx_lock`; the receive
handler runs under `rx_lock` and takes `tqp->lock` for every WQE it pops.  Each lock
section is one frame of a thread, so that posts fall between any two turns of a
drain loop. -/
set_option autoImplicit false
namespace Tbv.AppleRx

def frameSize : Nat := 4096

def maxMsgSize : Nat := 16 * 1024 * 1024

/-- `TBV_DATA_PDF_FRAME_END`, the EOF value that ends a message. -/
def frameEnd : Nat := 3

inductive WcStatus where
  | success | locLenErr | locProtErr
  deriving DecidableEq, Repr

inductive Errno where
  | emsgsize | enospc | enomem
  deriving DecidableEq, Repr

/-- The module parameters and sizes of a QP; `tbv_create_qp` refuses zero limits. -/
structure Config where
  pageSize : Nat
  slotCount : Nat
  pendingBytes : Nat
  pendingTotalBytes : Nat
  recvqSize : Nat
  pageSize_pos : 0 < pageSize
  slotCount_pos : 0 < slotCount
  pendingBytes_pos : 0 < pendingBytes
  pendingTotalBytes_pos : 0 < pendingTotalBytes
  pendingTotalBytes_lt : pendingTotalBytes < 2 ^ 32

structure AppleFrame where
  payload : List UInt8
  sof : Nat
  eof : Nat
  deriving DecidableEq, Repr

/-- `struct ib_sge`. -/
structure Sge where
  addr : Nat
  length : Nat
  lkey : Nat
  deriving DecidableEq, Repr

/-- `struct ib_recv_wr`; `sge` is the first entry of `sg_list`. -/
structure RecvWr where
  wrId : Nat
  numSge : Nat
  sge : Option Sge
  deriving DecidableEq, Repr

structure RecvWqe where
  wrId : Nat
  addr : Nat
  length : Nat
  lkey : Nat
  deriving DecidableEq, Repr

/-- `struct tbv_apple_pending_rx`. -/
structure Slot where
  buf : List UInt8 := []
  capacity : Nat := 0
  delivered : Nat := 0
  status : WcStatus := .success
  active : Bool := false
  ready : Bool := false
  deriving DecidableEq, Repr

structure Completion where
  wqe : RecvWqe
  status : WcStatus
  byteLen : Nat
  stored : List UInt8
  deriving DecidableEq, Repr

/-- A frame as the handler met it: whether every slot was ready, and whether the
frame was inside the limit of its message and of the QP. -/
structure Arrival where
  frame : AppleFrame
  full : Bool
  fits : Bool
  deriving DecidableEq, Repr

/-- The receive side of the QP.  `posted`, `arrived` and `completed` are its history:
the WQEs put in the queue, the frames handled and the completions pushed. -/
structure Qp where
  closing : Bool := false
  rxLocked : Bool := false
  recvq : List RecvWqe := []
  pending : Nat → Slot := fun _ => {}
  head : Nat := 0
  tail : Nat := 0
  readyCount : Nat := 0
  bytes : Nat := 0
  active : Option Nat := none
  discard : Bool := false
  posted : List RecvWqe := []
  arrived : List Arrival := []
  completed : List Completion := []

/-- What the environment decides in a step: whether the SGE of a WR is valid, whether
the WQE's memory can be written, whether the CQ has room, whether `kvzalloc`
succeeds. -/
structure Choice where
  sgeValid : Bool := true
  copies : Bool := true
  cqRoom : Bool := true
  allocs : Bool := true
  deriving DecidableEq, Repr

/-! ## Slots -/

def Slot.reset (p : Slot) : Slot :=
  { p with delivered := 0, status := .success, active := false, ready := false }

/-- The growth loop of `tbv_apple_rx_copy_piece_to_buf`, at most `fuel` turns of it;
`none` when these do not suffice. -/
def growCapacity (maxBytes required : Nat) : Nat → Nat → Option Nat
  | 0, _ => none
  | fuel + 1, newCapacity =>
      if newCapacity < required then
        if 2 ^ 32 ≤ newCapacity * 2 ∨ maxBytes < newCapacity * 2 then some maxBytes
        else growCapacity maxBytes required fuel (newCapacity * 2)
      else some newCapacity

def Slot.enlarge (p : Slot) (newCapacity : Nat) : Slot :=
  { p with
    buf := p.buf.take p.delivered ++ List.replicate (newCapacity - p.delivered) 0
    capacity := newCapacity }

def Slot.append (p : Slot) (src : List UInt8) : Slot :=
  { p with
    buf := p.buf.take p.delivered ++ src ++ p.buf.drop (p.delivered + src.length)
    delivered := p.delivered + src.length }

def Slot.grow (cfg : Config) (p : Slot) (maxBytes required : Nat) (allocs : Bool) :
    Except Errno Slot :=
  if p.capacity < required then
    match growCapacity maxBytes required 33
        (if p.capacity = 0 then cfg.pageSize else p.capacity) with
    | none => .error .emsgsize
    | some newCapacity =>
        if newCapacity < required then .error .emsgsize
        else if !allocs then .error .enomem
        else .ok (p.enlarge newCapacity)
  else .ok p

def Config.maxBytes (cfg : Config) : Nat := min cfg.pendingBytes maxMsgSize

/-- `tbv_apple_rx_copy_piece_to_buf`: the slot and `apple_pending_bytes` afterwards.
With RAW mode off this is all of `tbv_apple_rx_copy_frame_to_buf`. -/
def copyPieceToBuf (cfg : Config) (bytes : Nat) (p : Slot) (src : List UInt8) (allocs : Bool) :
    Except Errno (Slot × Nat) :=
  let len := src.length
  let required := p.delivered + len
  if len = 0 then .ok (p, bytes)
  else if 2 ^ 32 ≤ required then .error .emsgsize
  else if cfg.maxBytes = 0 ∨ cfg.maxBytes < required then .error .emsgsize
  else if cfg.pendingTotalBytes = 0 ∨ 2 ^ 32 ≤ bytes + len ∨
      cfg.pendingTotalBytes < bytes + len then .error .enospc
  else
    (p.grow cfg cfg.maxBytes required allocs).map fun p => (p.append src, bytes + len)

/-- The completion status a failed copy leaves in the slot. -/
def Errno.status : Errno → WcStatus
  | .emsgsize => .locLenErr
  | .enospc => .locLenErr
  | .enomem => .locProtErr

namespace Qp

def setSlot (q : Qp) (index : Nat) (p : Slot) : Qp :=
  { q with pending := Function.update q.pending index p }

def release (q : Qp) (index : Nat) : Qp :=
  let p := q.pending index
  { q.setSlot index p.reset with
    bytes := if p.delivered ≤ q.bytes then q.bytes - p.delivered else 0 }

/-- The tail slot is taken for a new message. -/
def activate (q : Qp) : Qp :=
  { q.setSlot q.tail { (q.pending q.tail).reset with active := true } with active := some q.tail }

/-- `tbv_apple_pending_active_locked`: the slot of the message being gathered. -/
def pendingActive (cfg : Config) (q : Qp) : Option (Nat × Qp) :=
  match q.active with
  | some index => some (index, q)
  | none =>
      if cfg.slotCount = 0 ∨ cfg.slotCount ≤ q.readyCount then none
      else if cfg.pendingBytes = 0 ∨ cfg.pendingTotalBytes = 0 then none
      else some (q.tail, q.activate)

/-- `tbv_apple_pending_finish_locked`. -/
def finish (cfg : Config) (q : Qp) : Qp :=
  match q.active with
  | none => q
  | some index =>
      { q.setSlot index { q.pending index with active := false, ready := true } with
        active := none
        readyCount := q.readyCount + 1
        tail := (q.tail + 1) % cfg.slotCount }

def popRecv (q : Qp) : Option (RecvWqe × Qp) :=
  match q.recvq with
  | [] => none
  | wqe :: rest => if q.closing then none else some (wqe, { q with recvq := rest })

/-- `tbv_apple_rx_push_wc`; an overflowing CQ loses the completion. -/
def pushWc (q : Qp) (choice : Choice) (completion : Completion) : Qp :=
  if choice.cqRoom then { q with completed := q.completed ++ [completion] } else q

/-- One turn of `tbv_apple_rx_drain_pending_locked` with a popped WQE. -/
def deliver (cfg : Config) (q : Qp) (wqe : RecvWqe) (choice : Choice) : Qp :=
  let p := q.pending q.head
  let copyLen := min p.delivered wqe.length
  -- `tbv_rx_copy_to_wqe` fails only when it has something to copy
  let failed := copyLen ≠ 0 ∧ choice.copies = false
  let status := if failed then .locProtErr
    else if wqe.length < p.delivered then .locLenErr else p.status
  let copied := if failed then 0 else copyLen
  let q := (q.pushWc choice ⟨wqe, status, copied, p.buf.take copied⟩).release q.head
  { q with head := (q.head + 1) % cfg.slotCount, readyCount := q.readyCount - 1 }

def copyFrame (cfg : Config) (q : Qp) (index : Nat) (frame : AppleFrame) (allocs : Bool) : Qp :=
  match copyPieceToBuf cfg q.bytes (q.pending index) frame.payload allocs with
  | .ok (p, bytes) => { q.setSlot index p with bytes := bytes }
  | .error err => q.setSlot index { q.pending index with status := err.status }

def ringFull (cfg : Config) (q : Qp) : Bool := decide (cfg.slotCount ≤ q.readyCount)

def gathered (q : Qp) : Nat :=
  match q.active with
  | some index => (q.pending index).delivered
  | none => 0

/-- The frame is inside the limits of its message and of the QP. -/
def withinLimits (cfg : Config) (q : Qp) (frame : AppleFrame) : Bool :=
  decide (q.gathered + frame.payload.length ≤ cfg.maxBytes ∧
    q.bytes + frame.payload.length ≤ cfg.pendingTotalBytes)

/-- The frame is put down in the history as it was met. -/
def arrive (cfg : Config) (q : Qp) (frame : AppleFrame) : Qp :=
  { q with arrived := q.arrived ++ [⟨frame, q.ringFull cfg, q.withinLimits cfg frame⟩] }

end Qp

/-! ## The lock sections -/

/-- The sections of `tbv_post_recv` and `tbv_ibdev_rx_apple_frame`. -/
inductive Call where
  | postLoop (wrs : List RecvWr) (posted : Bool)
  | lockRx
  | drain
  | handle (frame : AppleFrame)
  | unlockRx
  deriving DecidableEq, Repr

def RecvWr.wqe (wr : RecvWr) : RecvWqe :=
  match wr.numSge, wr.sge with
  | 1, some sge => ⟨wr.wrId, sge.addr, sge.length, sge.lkey⟩
  | _, _ => ⟨wr.wrId, 0, 0, 0⟩

/-- The checks of one turn of the loop of `tbv_post_recv`. -/
def Qp.accepts (cfg : Config) (q : Qp) (wr : RecvWr) (choice : Choice) : Bool :=
  decide (wr.numSge ≤ 1) && (wr.numSge != 1 || (wr.sge.isSome && choice.sgeValid)) &&
    !q.closing && decide (q.recvq.length ≠ cfg.recvqSize)

/-- The part of `tbv_ibdev_rx_apple_frame` between its two drains. -/
def Qp.handle (cfg : Config) (q : Qp) (frame : AppleFrame) (choice : Choice) : Qp × List Call :=
  let met := q.arrive cfg frame
  let startsMessage := frame.sof ≠ 0 ∨ frame.eof = frameEnd
  if q.discard then
    (if frame.eof = 3 then { met with discard := false } else met, [])
  else if q.active = none ∧ ¬ startsMessage then (met, [])
  else
    match met.pendingActive cfg with
    | none => (if frame.eof = 3 then met else { met with discard := true }, [])
    | some (index, q) =>
        let q := q.copyFrame cfg index frame choice.allocs
        if frame.eof = 3 then (q.finish cfg, [.drain]) else (q, [])

/-- What one section does; `none` while `rx_lock` is taken. -/
def exec (cfg : Config) (q : Qp) (call : Call) (choice : Choice) : Option (Qp × List Call) :=
  match call with
  | .postLoop [] posted => some (q, if posted then [.lockRx, .drain, .unlockRx] else [])
  | .postLoop (wr :: rest) _ =>
      if q.accepts cfg wr choice then
        some ({ q with recvq := q.recvq ++ [wr.wqe], posted := q.posted ++ [wr.wqe] },
          [.postLoop rest true])
      else some (q, [])
  | .lockRx => if q.rxLocked then none else some ({ q with rxLocked := true }, [])
  | .unlockRx => some ({ q with rxLocked := false }, [])
  | .drain =>
      if q.readyCount = 0 then some (q, [])
      else
        match q.popRecv with
        | none => some (q, [])
        | some (wqe, q) => some (q.deliver cfg wqe choice, [.drain])
  | .handle frame => some (q.handle cfg frame choice)

inductive Event where
  | rxFrame (frame : AppleFrame)
  | postRecv (wrs : List RecvWr)
  deriving DecidableEq, Repr

/-- A frame of a wrong length and a post to a closing QP go no further. -/
def react (q : Qp) : Event → Option (Qp × List Call)
  | .rxFrame frame =>
      some (q, if frame.payload.length = 0 ∨ frameSize < frame.payload.length then []
        else [.lockRx, .drain, .handle frame, .unlockRx])
  | .postRecv wrs => some (q, if q.closing then [] else [.postLoop wrs false])

abbrev State := Threads.State Qp Call
abbrev Label := Threads.Label Event Choice

def step (cfg : Config) : State → Label → Option State := Threads.step react (exec cfg)

end Tbv.AppleRx
