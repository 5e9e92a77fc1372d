import ThunderboltIbverbs.Send.Frames

/-! # RDMA READ: the response and its reassembly

`tbv_send_read_response_ctx` cuts one snapshot of the responder's memory into
fragments; `tbv_rx_handle_rdma_read_resp` puts them together again in the
destination segments of the pending read, keeping fragments that come early in a
list sorted by offset. -/
set_option autoImplicit false
namespace Tbv.ReadQueue

open Tbv.NativeData
open Tbv.SendQueue (Segment totalLen)

inductive Errno where
  | eio | einval | efault | enomem | enospc
  deriving DecidableEq, Repr

inductive ReadAckStatus where
  | ok | retry | error
  deriving DecidableEq, Repr

/-- `struct tbv_rx_reorder_frag`; `len` is the length of `data`. -/
structure RespFrag where
  offset : Nat
  data : List UInt8
  deriving DecidableEq, Repr

def RespFrag.len (frag : RespFrag) : Nat := frag.data.length

/-- `struct tbv_read_ctx`; a `completionStatus` of `none` is status 0. -/
structure ReadCtx where
  wrId : Nat := 0
  psn : Nat
  totalLen : Nat
  segs : List Segment
  signaled : Bool := true
  received : Nat := 0
  respBufferedBytes : Nat := 0
  respFrags : List RespFrag := []
  ready : Bool := false
  completionStatus : Option Errno := none
  completed : Bool := false
  deriving DecidableEq, Repr

/-- One byte stored through `tbv_umem_copy_to`, with the read it was stored for. -/
structure Write where
  psn : Nat
  addr : Nat
  byte : UInt8
  deriving DecidableEq, Repr

/-- The work completion `tbv_read_complete` pushes. -/
structure ReadWc where
  psn : Nat
  wrId : Nat
  status : Option Errno
  byteLen : Nat
  deriving DecidableEq, Repr

/-- The requesting side of a QP.  `writes` is what was stored in its memory, `cq`
what its reads pushed and `acks` the `READ_ACK` frames it sent, each in order;
`badHeader`, `remoteError` and `copyError` are the counters of rejected fragments. -/
structure Requester where
  pendingReads : List ReadCtx
  writes : List Write := []
  cq : List ReadWc := []
  acks : List (Nat × ReadAckStatus) := []
  badHeader : Nat := 0
  remoteError : Nat := 0
  copyError : Nat := 0
  deriving DecidableEq, Repr

/-! ## The response -/

/-- The request header of `tbv_post_rdma_read`. -/
def readReqHeader (destQp srcQp psn total remoteAddr rkey : Nat) : Header :=
  { opcode := .rdmaReadReq, flags := fLast, destQp, srcQp, psn, immData := total, remoteAddr
    rkey }

abbrev RespFrame := Header × List UInt8

/-- The header and payload built in one turn of the loop of
`tbv_send_read_response_ctx`. -/
def responseFrame (req : Header) (data : List UInt8) (offset : Nat) : RespFrame :=
  let payloadLen := min (req.immData - offset) maxPayload
  ({ opcode := .rdmaReadResp
     flags := if offset + payloadLen = req.immData then fLast else 0
     destQp := req.srcQp
     srcQp := req.destQp
     psn := req.psn
     length := payloadLen
     immData := req.immData
     fragOffset := offset }, (data.drop offset).take payloadLen)

/-- The loop of `tbv_send_read_response_ctx`, at most `fuel` turns of it. -/
def responseLoop (req : Header) (data : List UInt8) : Nat → Nat → List RespFrame
  | 0, _ => []
  | fuel + 1, offset =>
      let frame := responseFrame req data offset
      let next := offset + frame.1.length
      frame :: if next < req.immData then responseLoop req data fuel next else []

/-- `nfrags` of `tbv_send_read_response_ctx`. -/
def responseCount (total : Nat) : Nat :=
  if total = 0 then 1 else (total + maxPayload - 1) / maxPayload

/-- The frames `tbv_send_read_response_ctx` sends. -/
def sendReadResponse (req : Header) (data : List UInt8) : List RespFrame :=
  responseLoop req data (responseCount req.immData) 0

/-! ## Scattering into the destination -/

/-- `tbv_umem_copy_to`, when it succeeds. -/
def umemCopyTo (psn addr : Nat) (bytes : List UInt8) : List Write :=
  bytes.mapIdx fun i byte => ⟨psn, addr + i, byte⟩

/-- The loop of `tbv_copy_to_read_segments`: the bytes stored and whether the range
was stored whole; `false` is `-EFAULT`. -/
def copyToReadSegmentsLoop (psn offset len : Nat) (payload : List UInt8) :
    List Segment → Nat → Nat → List Write × Bool
  | [], _, _ => ([], false)
  | seg :: rest, skipped, copied =>
      if skipped + seg.length ≤ offset then
        copyToReadSegmentsLoop psn offset len payload rest (skipped + seg.length) copied
      else
        let segOff := if skipped < offset then offset - skipped else 0
        let chunk := min (seg.length - segOff) (len - copied)
        let stored := umemCopyTo psn (seg.addr + segOff) ((payload.drop copied).take chunk)
        if copied + chunk = len then (stored, true)
        else
          let later := copyToReadSegmentsLoop psn offset len payload rest
            (skipped + seg.length) (copied + chunk)
          (stored ++ later.1, later.2)

def copyToReadSegments (read : ReadCtx) (offset : Nat) (payload : List UInt8) (len : Nat) :
    List Write × Bool :=
  if len = 0 then ([], true)
  else copyToReadSegmentsLoop read.psn offset len payload read.segs 0 0

/-! ## Fragments that come early -/

/-- `tbv_read_resp_find_frag_locked`. -/
def ReadCtx.findFrag (read : ReadCtx) (offset : Nat) : Option RespFrag :=
  read.respFrags.find? fun frag => frag.offset = offset

/-- The place `tbv_read_resp_store_frag_locked` links a fragment at: before the
first one with a greater offset. -/
def insertFrag (frag : RespFrag) : List RespFrag → List RespFrag
  | [] => [frag]
  | pos :: rest =>
      if frag.offset < pos.offset then frag :: pos :: rest else pos :: insertFrag frag rest

/-- `tbv_read_resp_store_frag_locked`; `alloc` is whether `kmalloc` succeeds. -/
def ReadCtx.storeFrag (read : ReadCtx) (offset : Nat) (payload : List UInt8) (len : Nat)
    (alloc : Bool) : ReadCtx × Option Errno :=
  match read.findFrag offset with
  | some frag =>
      if frag.len ≠ len ∨ frag.data ≠ payload.take len then (read, some .eio) else (read, none)
  | none =>
      let newBytes := read.respBufferedBytes + len
      if 2 ^ 32 ≤ newBytes ∨ read.totalLen < newBytes then (read, some .enospc)
      else if !alloc then (read, some .enomem)
      else
        ({ read with
            respFrags := insertFrag ⟨offset, payload.take len⟩ read.respFrags
            respBufferedBytes := newBytes }, none)

/-- The loop of `tbv_read_resp_drain_frags_locked`, at most `fuel` turns of it;
`none` when these do not suffice. -/
def ReadCtx.drainFrags : Nat → ReadCtx → Option (ReadCtx × List Write × Option Errno)
  | 0, _ => none
  | fuel + 1, read =>
      match read.findFrag read.received with
      | none => some (read, [], none)
      | some frag =>
          let (stored, whole) := copyToReadSegments read frag.offset frag.data frag.len
          if !whole then some (read, stored, some .efault)
          else
            (ReadCtx.drainFrags fuel { read with
                received := frag.offset + frag.len
                respBufferedBytes := read.respBufferedBytes - frag.len
                respFrags := read.respFrags.eraseP fun f => f.offset = read.received }).map
              fun later => (later.1, stored ++ later.2.1, later.2.2)

/-! ## The pending list -/

/-- `tbv_qp_find_read_get`. -/
def Requester.findRead (q : Requester) (psn : Nat) : Option ReadCtx :=
  q.pendingReads.find? fun read => read.psn = psn

def setRead (psn : Nat) (read : ReadCtx) : List ReadCtx → List ReadCtx
  | [] => []
  | pos :: rest => if pos.psn = psn then read :: rest else pos :: setRead psn read rest

def Requester.setRead (q : Requester) (psn : Nat) (read : ReadCtx) : Requester :=
  { q with pendingReads := ReadQueue.setRead psn read q.pendingReads }

def Requester.sendReadAck (q : Requester) (psn : Nat) (status : ReadAckStatus) : Requester :=
  { q with acks := q.acks ++ [(psn, status)] }

/-- The completion of `tbv_read_complete`. -/
def ReadCtx.wc (read : ReadCtx) : Option ReadWc :=
  if read.completed || !read.signaled then none
  else
    some ⟨read.psn, read.wrId, read.completionStatus,
      if read.completionStatus = none then read.totalLen else 0⟩

/-- `tbv_qp_complete_read_ordered`: the read found for `psn` is ready with `status`,
and the ready reads at the head of the list are completed. -/
def Requester.completeReadOrdered (q : Requester) (psn : Nat) (status : Option Errno) :
    Requester :=
  match q.findRead psn with
  | none => q
  | some read =>
      let marked := if read.ready then read
        else { read with ready := true, completionStatus := status }
      let reads := ReadQueue.setRead psn marked q.pendingReads
      { q with
        pendingReads := reads.dropWhile ReadCtx.ready
        cq := q.cq ++ (reads.takeWhile ReadCtx.ready).filterMap ReadCtx.wc }

/-- `complete_ack` of `tbv_rx_handle_rdma_read_resp`. -/
def Requester.completeAck (q : Requester) (psn : Nat) (ret : Option Errno) : Requester :=
  (q.sendReadAck psn (if ret = none then .ok else .error)).completeReadOrdered psn ret

/-- The header check of `tbv_rx_handle_rdma_read_resp`. -/
def readRespBadHeader (read : ReadCtx) (hdr : Header) : Bool :=
  hdr.remoteAddr != 0 || hdr.immData != read.totalLen ||
    decide (2 ^ 32 ≤ hdr.fragOffset + hdr.length) ||
    decide (read.totalLen < hdr.fragOffset + hdr.length) ||
    hdr.flags &&& ~~~(fLast ||| fSolicited) != 0 ||
    (rxFragmentShape read.totalLen hdr.fragOffset hdr.length (hasFlag hdr.flags fLast)).isNone

/-- `tbv_rx_handle_rdma_read_resp`; `none` only when the drain loop does not end. -/
def Requester.handleRdmaReadResp (q : Requester) (frame : RespFrame) (alloc : Bool) :
    Option Requester :=
  let hdr := frame.1
  match q.findRead hdr.psn with
  | none => some (q.sendReadAck hdr.psn .ok)
  | some read =>
      if hdr.rkey ≠ 0 then
        some ({ q with remoteError := q.remoteError + 1 }.completeAck hdr.psn (some .eio))
      else if readRespBadHeader read hdr then
        some ({ q with badHeader := q.badHeader + 1 }.completeAck hdr.psn (some .einval))
      else if hdr.fragOffset < read.received then some q
      else if hdr.fragOffset ≠ read.received then
        match read.storeFrag hdr.fragOffset frame.2 hdr.length alloc with
        | (_, some .eio) =>
            some ({ q with badHeader := q.badHeader + 1 }.completeAck hdr.psn (some .eio))
        | (read, _) => some ((q.setRead hdr.psn read).sendReadAck hdr.psn .retry)
      else
        let (stored, whole) := copyToReadSegments read hdr.fragOffset frame.2 hdr.length
        let q := { q with writes := q.writes ++ stored }
        if !whole then
          some ({ q with copyError := q.copyError + 1 }.completeAck hdr.psn (some .efault))
        else
          let read := { read with received := hdr.fragOffset + hdr.length }
          match read.drainFrags (read.respFrags.length + 1) with
          | none => none
          | some (read, stored, ret) =>
              let q := { q.setRead hdr.psn read with writes := q.writes ++ stored }
              match ret with
              | some err =>
                  some ({ q with copyError := q.copyError + 1 }.completeAck hdr.psn (some err))
              | none =>
                  if read.received ≠ read.totalLen then some q
                  else some (q.completeAck hdr.psn none)

end Tbv.ReadQueue
