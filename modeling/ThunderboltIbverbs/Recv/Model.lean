import ThunderboltIbverbs.Proto.NativeData
import Mathlib.Algebra.BigOperators.Group.List.Basic

/-! # The receive side of a native QP

`kernel/ibdev.c`: SEND, RDMA WRITE and READ request frames from their header checks to
the completion and the acknowledgement, posted receives and receive credits.  A fragment
goes to the active message, to the active write or to the reorder list.

Every handler runs under `tqp->rx_lock` and is one step.  Between two of its sections
under `tqp->lock` a concurrent `tbv_post_recv` may append a WQE; since a handler's last
pop is the only one that can fail, such an append falls before or after the handler.
Statistics, warnings and timeouts are left out. -/
set_option autoImplicit false
namespace Tbv.RecvQueue

open Tbv.NativeData

def psnMod : Nat := 2 ^ 24

def psnNext (psn : Nat) : Nat := (psn + 1) % psnMod

def psnDelta (a b : Nat) : Int :=
  let delta := (a + psnMod - b % psnMod) % psnMod
  if 2 ^ 23 ≤ delta then (delta : Int) - psnMod else delta

/-- `TBV_RX_REORDER_MAX_MESSAGES` and `TBV_ACK_HISTORY_SIZE`. -/
def reorderMaxMessages : Nat := 1024
def ackHistorySize : Nat := 1024
def reorderMaxBytes : Nat := 64 * 1024 * 1024

inductive WcStatus where
  | success | locLenErr | locProtErr | wrFlushErr | generalErr
  deriving DecidableEq, Repr

structure RecvWqe where
  wrId : Nat
  addr : Nat
  length : Nat
  lkey : Nat
  deriving DecidableEq, Repr

/-- Bytes copied into a receive buffer, with their offset in it. -/
abbrev Write := Nat × List UInt8

inductive ReorderKind where
  | send | write | readReq
  deriving DecidableEq, Repr

structure ReorderFrag where
  offset : Nat
  data : List UInt8
  deriving DecidableEq, Repr

/-- `struct tbv_rx_reorder_msg`; `fragSeen` holds the set bits. -/
structure ReorderMsg where
  kind : ReorderKind
  srcQp : Nat
  psn : Nat
  totalLen : Nat
  withImm : Bool := false
  immData : Nat := 0
  remoteAddr : Nat := 0
  rkey : Nat := 0
  fragCount : Nat
  fragSeen : List Nat := []
  fragsReceived : Nat := 0
  complete : Bool := false
  frags : List ReorderFrag := []
  bufferedBytes : Nat := 0
  deriving DecidableEq, Repr

/-- `struct tbv_rx_message` while it is active.  `writes` is what has been copied into
the buffer of its WQE; `delivered` is their total length. -/
structure RxMessage where
  wqe : RecvWqe
  srcQp : Nat
  psn : Nat
  totalLen : Nat
  withImm : Bool
  immData : Nat
  status : WcStatus
  fragCount : Nat := 0
  fragSeen : List Nat := []
  fragsReceived : Nat := 0
  received : Nat := 0
  writes : List Write := []
  deriving DecidableEq, Repr

/-- `struct tbv_rx_write` while it is active; `immWqe` is set for a write with
immediate. -/
structure RxWrite where
  srcQp : Nat
  psn : Nat
  remoteAddr : Nat
  rkey : Nat
  immData : Nat
  withImm : Bool
  immWqe : Option RecvWqe
  received : Nat := 0
  deriving DecidableEq, Repr

/-- `rx_rnr_*` of `struct tbv_qp` while `rx_rnr_active`. -/
structure RnrMark where
  srcQp : Nat
  psn : Nat
  remoteAddr : Nat
  fragOffset : Nat
  deriving DecidableEq, Repr

/-- What an observer of the receive side sees, in order.  An acknowledgement carries
how many operations the QP had consumed when it was sent. -/
inductive Entry where
  /-- `IB_WC_RECV`: the WQE, what was copied into its buffer, and the immediate. -/
  | recv (wqe : RecvWqe) (status : WcStatus) (imm : Option Nat) (writes : List Write)
  /-- `IB_WC_RECV_RDMA_WITH_IMM`, or `IB_WC_RECV` for a write that failed. -/
  | recvImm (wqe : RecvWqe) (status : WcStatus) (imm : Option Nat)
  /-- `tbv_umem_copy_to_iova` of RDMA data. -/
  | wrote (rkey addr : Nat) (data : List UInt8)
  /-- `tbv_rx_queue_rdma_read_req_work`. -/
  | readReq (psn : Nat)
  /-- `tbv_qp_retry_read_resp` of a READ that was requested before. -/
  | retryReadResp (psn : Nat)
  /-- `tbv_send_read_status_on_path`. -/
  | readStatus (psn : Nat)
  | ack (psn : Nat) (status : SendAckStatus) (consumed : Nat)
  /-- A `RECV_CREDIT` frame sent to the peer. -/
  | credit (destQp credits : Nat)
  /-- A `RECV_CREDIT` frame of the peer, with the credits there are then. -/
  | accepted (remoteCredits : Nat)
  deriving DecidableEq, Repr

/-- The states of `enum ib_qp_state`. -/
inductive QpState where
  | reset | init | rtr | rts | sqd | sqe | err
  deriving DecidableEq, Repr

/-- What is fixed when the QP is created. -/
structure RxConfig where
  qpNum : Nat
  recvqSize : Nat
  /-- `native_fragment_striping`. -/
  striping : Bool
  deriving DecidableEq, Repr

/-- What the handlers ask the rest of the kernel: whether the allocations of a reorder
message and of a fragment succeed, whether the receive CQ is full, whether the receive
buffer can be copied to (`tbv_mr_get` and `tbv_umem_copy_to`), the MR of an rkey with its
`IB_ACCESS_REMOTE_WRITE`, whether `tbv_umem_copy_to_iova` succeeds, and whether a credit
frame can be enqueued. -/
structure Env where
  allocMsg : Bool
  allocFrag : Bool
  cqFull : Bool
  recvMr : RecvWqe → Nat → Bool
  mr : Nat → Option Bool
  iova : Nat → Nat → Nat → Bool
  creditSent : Bool

/-- `struct tbv_qp`, its receive side.  `destQp` is `none` until `dest_qp_known`,
`earlyCreditSrc` until `early_remote_recv_credit_src_known`.  `posted`, `consumed` and
`log` are history: all WQEs ever posted, how many operations the expected PSN has
passed, and what was sent and completed. -/
structure Rx where
  cfg : RxConfig
  state : QpState := .reset
  closing : Bool := false
  destQp : Option Nat := none
  /-- `IB_ACCESS_REMOTE_WRITE` in `qp_access_flags`. -/
  remoteWrite : Bool := false
  expectedPsn : Nat := 0
  sendPsn : Nat := 0
  recvq : List RecvWqe := []
  advertised : Nat := 0
  remoteCredits : Nat := 0
  earlyCreditSrc : Option Nat := none
  rxMsg : Option RxMessage := none
  rxWrite : Option RxWrite := none
  reorder : List ReorderMsg := []
  reorderCount : Nat := 0
  reorderBytes : Nat := 0
  ackHistory : Nat → Option (Nat × SendAckStatus) := fun _ => none
  rnr : Option RnrMark := none
  posted : List RecvWqe := []
  consumed : Nat := 0
  log : List Entry := []

/-- A QP as `tbv_create_qp` leaves it. -/
def Rx.created (cfg : RxConfig) : Rx where
  cfg := cfg

/-! ## Acknowledgements -/

def Rx.note (q : Rx) (entry : Entry) : Rx := { q with log := q.log ++ [entry] }

/-- `tbv_send_ack_on_path`. -/
def Rx.sendAck (q : Rx) (psn : Nat) (status : SendAckStatus) : Rx :=
  q.note (.ack psn status q.consumed)

/-- `tbv_qp_ack_history_store_locked`. -/
def Rx.ackHistoryStore (q : Rx) (psn : Nat) (status : SendAckStatus) : Rx :=
  let entry := some (psn % psnMod, status)
  { q with ackHistory := Function.update q.ackHistory (psn % ackHistorySize) entry }

/-- `tbv_qp_ack_history_lookup_locked`. -/
def Rx.ackHistoryLookup (q : Rx) (psn : Nat) : Option SendAckStatus :=
  match q.ackHistory (psn % ackHistorySize) with
  | some (stored, status) => if stored = psn % psnMod then some status else none
  | none => none

/-- What `tbv_rx_reack_duplicate_locked` sends for a PSN that has been consumed. -/
def Rx.reack (q : Rx) (psn : Nat) : Rx := q.sendAck psn ((q.ackHistoryLookup psn).getD .ok)

def Rx.consume (q : Rx) (psn : Nat) (status : SendAckStatus) : Rx :=
  { q with expectedPsn := psnNext psn, consumed := q.consumed + 1 }.ackHistoryStore psn status

/-- `tbv_cq_push` of a receive completion. -/
def Rx.cqPush (q : Rx) (env : Env) (entry : Entry) : Rx :=
  if env.cqFull then q else q.note entry

/-- The acknowledgement of a completion. -/
def ackStatus (env : Env) (status : WcStatus) : SendAckStatus :=
  if status = .success ∧ env.cqFull = false then .ok else .error

/-! ## Receive buffers -/

def Rx.popRecv (q : Rx) : Option (RecvWqe × Rx) :=
  match q.recvq with
  | [] => none
  | wqe :: rest =>
      if q.closing then none
      else some (wqe, { q with recvq := rest, advertised := q.advertised - 1 })

/-- `tbv_rx_copy_to_wqe`; `none` is a failed copy. -/
def copyToWqe (env : Env) (wqe : RecvWqe) (offset : Nat) (payload : List UInt8) :
    Option (List Write) :=
  let copyLen := if offset < wqe.length then min payload.length (wqe.length - offset) else 0
  if copyLen = 0 then some []
  else if env.recvMr wqe offset then some [(offset, payload.take copyLen)] else none

def RxMessage.copy (m : RxMessage) (env : Env) (offset : Nat) (payload : List UInt8) : RxMessage :=
  match copyToWqe env m.wqe offset payload with
  | none => { m with status := .locProtErr }
  | some writes => { m with writes := m.writes ++ writes }

/-- The copy loop of `tbv_rx_deliver_reorder_msg_locked`, which stops at a failure. -/
def copyFrags (env : Env) (wqe : RecvWqe) : List ReorderFrag → Bool × List Write
  | [] => (true, [])
  | frag :: rest =>
      match copyToWqe env wqe frag.offset frag.data with
      | none => (false, [])
      | some writes =>
          let later := copyFrags env wqe rest
          (later.1, writes ++ later.2)

def immOf (withImm : Bool) (immData : Nat) : Option Nat := if withImm then some immData else none

/-! ## The reorder list -/

def Rx.reorderFind (q : Rx) (psn : Nat) : Option ReorderMsg := q.reorder.find? (·.psn == psn)

/-- `tbv_rx_reorder_unlink_msg_locked`. -/
def Rx.reorderUnlink (q : Rx) (m : ReorderMsg) : Rx :=
  { q with
    reorder := q.reorder.filter fun other => other.psn != m.psn
    reorderCount := q.reorderCount - 1
    reorderBytes := q.reorderBytes - m.bufferedBytes }

/-- The message is put in place of the one with its PSN. -/
def Rx.reorderSet (q : Rx) (m : ReorderMsg) : Rx :=
  { q with reorder := q.reorder.map fun other => if other.psn = m.psn then m else other }

def Rx.reorderAdd (q : Rx) (m : ReorderMsg) : Rx :=
  { q with reorder := q.reorder ++ [m], reorderCount := q.reorderCount + 1 }

inductive StoreError where
  | noSpace | noMemory
  deriving DecidableEq, Repr

/-- `tbv_rx_reorder_store_fragment_locked`: the message and the bytes held by all. -/
def storeFragment (env : Env) (held : Nat) (m : ReorderMsg) (offset : Nat) (payload : List UInt8) :
    Except StoreError (ReorderMsg × Nat) :=
  if payload = [] then .ok (m, held)
  else if 2 ^ 32 ≤ held + payload.length ∨ reorderMaxBytes < held + payload.length then
    .error .noSpace
  else if env.allocFrag = false then .error .noMemory
  else .ok ({ m with
      frags := m.frags ++ [⟨offset, payload⟩]
      bufferedBytes := m.bufferedBytes + payload.length }, held + payload.length)

/-- `tbv_rx_reorder_fragment_matches_locked`. -/
def ReorderMsg.fragmentMatches (m : ReorderMsg) (offset : Nat) (payload : List UInt8) : Bool :=
  if payload = [] then true
  else
    match m.frags.find? (·.offset == offset) with
    | some frag => frag.data == payload
    | none => false

/-- The fragment bit and the counters, once a fragment is stored. -/
def ReorderMsg.mark (m : ReorderMsg) (idx : Nat) : ReorderMsg :=
  { m with
    fragSeen := m.fragSeen ++ [idx]
    fragsReceived := m.fragsReceived + 1
    complete := m.complete || m.fragsReceived + 1 == m.fragCount }

/-! ## Delivery -/

def Rx.completeSend (q : Rx) (env : Env) (psn : Nat) (wqe : RecvWqe) (status : WcStatus)
    (imm : Option Nat) (writes : List Write) : Rx :=
  let ack := ackStatus env status
  ((q.cqPush env (.recv wqe status imm writes)).consume psn ack).sendAck psn ack

def Rx.finishSend (q : Rx) (env : Env) (m : RxMessage) : Rx :=
  { q with rxMsg := none }.completeSend env m.psn m.wqe m.status (immOf m.withImm m.immData)
    m.writes

/-- `tbv_rx_deliver_reorder_msg_locked`; `false` when no receive is posted. -/
def Rx.deliverReorderMsg (q : Rx) (env : Env) (m : ReorderMsg) : Rx × Bool :=
  match q.popRecv with
  | none => (q.sendAck m.psn .rnr, false)
  | some (wqe, q) =>
      let copied := copyFrags env wqe m.frags
      let status : WcStatus :=
        if copied.1 = false then .locProtErr
        else if wqe.length < m.totalLen then .locLenErr else .success
      ((q.reorderUnlink m).completeSend env m.psn wqe status (immOf m.withImm m.immData)
        copied.2, true)

/-- The copy loop of `tbv_rx_deliver_reorder_write_locked`. -/
def Rx.writeFrags (q : Rx) (env : Env) (rkey remoteAddr : Nat) : List ReorderFrag → Rx × WcStatus
  | [] => (q, .success)
  | frag :: rest =>
      if 2 ^ 64 ≤ remoteAddr + frag.offset then (q, .locProtErr)
      else if env.iova rkey (remoteAddr + frag.offset) frag.data.length then
        (q.note (.wrote rkey (remoteAddr + frag.offset) frag.data)).writeFrags env rkey remoteAddr
          rest
      else (q, .locProtErr)

def Rx.writeReorder (q : Rx) (env : Env) (m : ReorderMsg) : Rx × WcStatus :=
  if env.mr m.rkey = some true then q.writeFrags env m.rkey m.remoteAddr m.frags
  else (q, .locProtErr)

def Rx.pushImm (q : Rx) (env : Env) (wqe : RecvWqe) (status : WcStatus) (immData : Nat) : Rx :=
  q.cqPush env (.recvImm wqe status (immOf (status = .success) immData))

def Rx.passWrite (q : Rx) (psn : Nat) (status : SendAckStatus) : Rx :=
  (q.consume psn status).sendAck psn status

/-- `tbv_rx_deliver_reorder_write_locked`. -/
def Rx.deliverReorderWrite (q : Rx) (env : Env) (m : ReorderMsg) : Rx × Bool :=
  if m.withImm then
    match q.popRecv with
    | none => (q.sendAck m.psn .rnr, false)
    | some (wqe, q) =>
        let out := (q.reorderUnlink m).writeReorder env m
        ((out.1.pushImm env wqe out.2 m.immData).passWrite m.psn (ackStatus env out.2), true)
  else
    let out := (q.reorderUnlink m).writeReorder env m
    (out.1.passWrite m.psn (if out.2 = .success then .ok else .error), true)

/-- `tbv_rx_deliver_reorder_read_req_locked`. -/
def Rx.deliverReorderReadReq (q : Rx) (m : ReorderMsg) : Rx × Bool :=
  let q := q.reorderUnlink m
  ({ q with expectedPsn := psnNext m.psn, consumed := q.consumed + 1 }.note (.readReq m.psn), true)

def Rx.deliverReorder (q : Rx) (env : Env) (m : ReorderMsg) : Rx × Bool :=
  match m.kind with
  | .write => q.deliverReorderWrite env m
  | .readReq => q.deliverReorderReadReq m
  | .send => q.deliverReorderMsg env m

/-- One round of `tbv_rx_prune_stale_reorder_locked`. -/
def Rx.pruneOne (q : Rx) (m : ReorderMsg) : Rx :=
  if 0 ≤ psnDelta m.psn q.expectedPsn then q
  else if m.kind = .readReq then (q.note (.retryReadResp m.psn)).reorderUnlink m
  else (q.reack m.psn).reorderUnlink m

/-- `tbv_rx_prune_stale_reorder_locked`. -/
def Rx.pruneStaleReorder (q : Rx) : Rx := q.reorder.foldl Rx.pruneOne q

/-- The loop of `tbv_rx_drain_reorder_locked`; every round takes a message off the list. -/
def Rx.drainLoop (env : Env) : Nat → Rx → Rx
  | 0, q => q
  | fuel + 1, q =>
      if q.rxMsg.isSome || q.rxWrite.isSome then q
      else
        match q.pruneStaleReorder.reorderFind q.expectedPsn with
        | none => q.pruneStaleReorder
        | some m =>
            if m.complete = false then q.pruneStaleReorder
            else
              let out := q.pruneStaleReorder.deliverReorder env m
              if out.2 then drainLoop env fuel out.1 else out.1

/-- `tbv_rx_drain_reorder_locked`. -/
def Rx.drainReorder (q : Rx) (env : Env) : Rx := Rx.drainLoop env (q.reorder.length + 1) q

/-! ## Buffering -/

/-- `tbv_rx_drop_reorder_msg_locked`. -/
def Rx.dropReorderMsg (q : Rx) (m : ReorderMsg) : Rx := q.reorderUnlink m

def ReorderMsg.empty (m : ReorderMsg) : ReorderMsg :=
  { m with fragSeen := [], fragsReceived := 0, complete := false, frags := [], bufferedBytes := 0 }

/-- Two messages agree in everything the fragments of one message share. -/
def ReorderMsg.sameMessage (m other : ReorderMsg) : Bool := m.empty == other.empty

def Rx.storeInto (q : Rx) (env : Env) (m : ReorderMsg) (idx offset : Nat) (payload : List UInt8)
    (onError : Rx → StoreError → Rx) : Rx :=
  match storeFragment env q.reorderBytes m offset payload with
  | .error err => onError q err
  | .ok (stored, held) =>
      let q := { q with reorderBytes := held }.reorderSet (stored.mark idx)
      if (stored.mark idx).complete then q.drainReorder env else q

/-- What the two buffer functions share.  `fresh` is the message the fragment belongs to,
`onError` what a failed store does; `fail` sends the error acknowledgement. -/
def Rx.bufferInto (q : Rx) (env : Env) (fresh : ReorderMsg) (idx offset : Nat)
    (payload : List UInt8) (onError : Rx → StoreError → Rx) : Rx :=
  match q.reorderFind fresh.psn with
  | none =>
      if reorderMaxMessages ≤ q.reorderCount then q.sendAck fresh.psn .error
      else if env.allocMsg = false then q.sendAck fresh.psn .error
      else (q.reorderAdd fresh).storeInto env fresh idx offset payload onError
  | some m =>
      if !m.sameMessage fresh then (q.dropReorderMsg m).sendAck fresh.psn .error
      else if idx ∈ m.fragSeen then
        if !m.fragmentMatches offset payload then (q.dropReorderMsg m).sendAck fresh.psn .error
        else if m.complete then q.drainReorder env
        else q
      else q.storeInto env m idx offset payload onError

/-- `tbv_rx_buffer_fragment_locked`. -/
def Rx.bufferFragment (q : Rx) (env : Env) (hdr : Header) (psn totalLen offset : Nat) (last : Bool)
    (payload : List UInt8) : Rx :=
  let delta := psnDelta psn q.expectedPsn
  if delta < 0 then q.reack psn
  else if reorderMaxMessages ≤ delta then q.sendAck psn .error
  else
    match rxFragmentShape totalLen offset hdr.length last with
    | none => q.sendAck psn .error
    | some (idx, count) =>
        let withImm := hdr.opcode == .sendImm
        q.bufferInto env
          { kind := .send, srcQp := hdr.srcQp, psn := psn, totalLen := totalLen
            withImm := withImm, immData := if withImm then hdr.rkey else 0
            fragCount := count } idx offset payload
          -- a full list drops the message silently; the sender retries
          fun q err =>
            match q.reorderFind psn with
            | none => q
            | some m =>
                if err = .noSpace then q.dropReorderMsg m
                else (q.sendAck psn .error).dropReorderMsg m

/-- `tbv_rx_buffer_write_fragment_locked`. -/
def Rx.bufferWriteFragment (q : Rx) (env : Env) (hdr : Header) (psn totalLen offset : Nat)
    (last withImm : Bool) (payload : List UInt8) : Rx :=
  let delta := psnDelta psn q.expectedPsn
  if delta < 0 then q.reack psn
  else if reorderMaxMessages ≤ delta then q.sendAck psn .error
  else
    match rxWriteFragmentShape totalLen offset hdr.length last with
    | none => q.sendAck psn .error
    | some (idx, count) =>
        q.bufferInto env
          { kind := .write, srcQp := hdr.srcQp, psn := psn, totalLen := totalLen
            withImm := withImm, immData := if withImm then hdr.immData else 0
            remoteAddr := hdr.remoteAddr, rkey := hdr.rkey, fragCount := count } idx offset payload
          fun q _ =>
            match q.reorderFind psn with
            | none => q
            | some m => (q.dropReorderMsg m).sendAck psn .error

/-! ## RNR -/

/-- `tbv_rx_rnr_matches_locked`. -/
def Rx.rnrMatches (q : Rx) (srcQp psn : Nat) : Bool :=
  q.rnr.any fun mark => mark.srcQp == srcQp && mark.psn == psn % psnMod

/-- `tbv_rx_rnr_is_first_retry_locked`. -/
def Rx.rnrIsFirstRetry (q : Rx) (srcQp psn remoteAddr fragOffset : Nat) : Bool :=
  q.rnr.any fun mark => mark.srcQp == srcQp && mark.psn == psn % psnMod &&
    mark.remoteAddr == remoteAddr && mark.fragOffset == fragOffset

/-- `tbv_rx_clear_rnr_locked`. -/
def Rx.clearRnr (q : Rx) (srcQp psn : Nat) : Rx :=
  if q.rnrMatches srcQp psn then { q with rnr := none } else q

/-- `tbv_rx_mark_rnr_locked`, and the RNR acknowledgement. -/
def Rx.markRnr (q : Rx) (hdr : Header) (psn : Nat) : Rx :=
  { q with rnr := some ⟨hdr.srcQp, psn % psnMod, hdr.remoteAddr, hdr.fragOffset⟩ }.sendAck psn .rnr

/-- Whether a fragment is the rest of a message that was answered with RNR: only the
fragment that was answered restarts it. -/
def Rx.rnrSuppresses (q : Rx) (hdr : Header) (psn : Nat) : Bool :=
  q.rnrMatches hdr.srcQp psn && !q.rnrIsFirstRetry hdr.srcQp psn hdr.remoteAddr hdr.fragOffset

/-! ## SEND -/

/-- The header check of `tbv_rx_handle_send_fragment`. -/
def sendBadHeader (hdr : Header) : Bool :=
  let fragEnd := hdr.fragOffset + hdr.length
  let last := hasFlag hdr.flags fLast
  hdr.remoteAddr != 0 || decide (2 ^ 64 ≤ fragEnd) || decide (hdr.immData < fragEnd) ||
    decide (maxMsgSize < hdr.immData) || (!last && hdr.length == 0) ||
    hdr.flags &&& ~~~(fLast ||| fSolicited) != 0 ||
    (hdr.opcode != .sendImm && hdr.rkey != 0) || last != decide (fragEnd = hdr.immData)

def sendImmData (hdr : Header) : Nat := if hdr.opcode = .sendImm then hdr.rkey else 0

def newMessage (hdr : Header) (psn : Nat) (wqe : RecvWqe) (fragCount : Nat) : RxMessage where
  wqe := wqe
  srcQp := hdr.srcQp
  psn := psn
  totalLen := hdr.immData
  withImm := hdr.opcode == .sendImm
  immData := sendImmData hdr
  status := if wqe.length < hdr.immData then .locLenErr else .success
  fragCount := fragCount

def RxMessage.sameMessage (m : RxMessage) (hdr : Header) (psn : Nat) : Bool :=
  m.srcQp == hdr.srcQp && m.psn == psn && m.totalLen == hdr.immData &&
    m.withImm == (hdr.opcode == .sendImm) && m.immData == sendImmData hdr

/-- `tbv_rx_fail_active_send`, and the error acknowledgement of the fragment. -/
def Rx.failActiveSend (q : Rx) (env : Env) (m : RxMessage) (psn : Nat) : Rx :=
  (q.finishSend env { m with status := .locProtErr }).sendAck psn .error

/-- A fragment of the active message when fragments may come in any order. -/
def Rx.stripedFragment (q : Rx) (env : Env) (m : RxMessage) (idx : Nat) (hdr : Header)
    (payload : List UInt8) : Rx :=
  let m := if idx ∈ m.fragSeen then m else
    { m.copy env hdr.fragOffset payload with
      fragSeen := m.fragSeen ++ [idx]
      fragsReceived := m.fragsReceived + 1
      received := m.received + hdr.length }
  if m.fragsReceived = m.fragCount then (q.finishSend env m).drainReorder env
  else { q with rxMsg := some m }

/-- The branch of `tbv_rx_handle_send_fragment` for `native_fragment_striping`. -/
def Rx.handleStriped (q : Rx) (env : Env) (hdr : Header) (psn : Nat) (payload : List UInt8) : Rx :=
  let last := hasFlag hdr.flags fLast
  match rxFragmentShape hdr.immData hdr.fragOffset hdr.length last with
  | none => q.sendAck psn .error
  | some (idx, count) =>
      let delta := psnDelta psn q.expectedPsn
      if delta < 0 then q.reack psn
      else if 0 < delta ∨ (q.rxMsg = none ∧ (q.reorderFind psn).isSome) then
        q.bufferFragment env hdr psn hdr.immData hdr.fragOffset last payload
      else
        match q.rxMsg with
        | some m =>
            if m.sameMessage hdr psn && m.fragCount == count then
              q.stripedFragment env m idx hdr payload
            else q.failActiveSend env m psn
        | none =>
            match q.popRecv with
            | none => q.markRnr hdr psn
            | some (wqe, q) => q.stripedFragment env (newMessage hdr psn wqe count) idx hdr payload

/-- The copy at the end of `tbv_rx_handle_send_fragment`. -/
def Rx.orderedFragment (q : Rx) (env : Env) (m : RxMessage) (copyOffset : Nat)
    (copyPayload : List UInt8) (last : Bool) : Rx :=
  let m := m.copy env copyOffset copyPayload
  let m := { m with received := m.received + copyPayload.length }
  if last then (q.finishSend env m).drainReorder env else { q with rxMsg := some m }

/-- The branch of `tbv_rx_handle_send_fragment` without striping. -/
def Rx.handleOrdered (q : Rx) (env : Env) (hdr : Header) (psn : Nat) (payload : List UInt8) : Rx :=
  let last := hasFlag hdr.flags fLast
  let offset := hdr.fragOffset
  match q.rxMsg with
  | some m =>
      if m.sameMessage hdr psn && m.received == offset then
        q.orderedFragment env m offset payload last
      else
        let delta := psnDelta psn q.expectedPsn
        if delta < 0 then q.reack psn
        else if 0 < delta then q.bufferFragment env hdr psn hdr.immData offset last payload
        else if m.sameMessage hdr psn && decide (offset < m.received) then
          let duplicate := m.received - offset
          if hdr.length ≤ duplicate then q
          else q.orderedFragment env m m.received (payload.drop duplicate) last
        else if m.sameMessage hdr psn && decide (m.received < offset) then q
        else q.failActiveSend env m psn
  | none =>
      if (q.reorderFind psn).isSome || psn != q.expectedPsn || offset != 0 then
        q.bufferFragment env hdr psn hdr.immData offset last payload
      else
        match q.popRecv with
        | none => q.markRnr hdr psn
        | some (wqe, q) => q.orderedFragment env (newMessage hdr psn wqe 0) offset payload last

def Rx.handleSendFragment (q : Rx) (env : Env) (hdr : Header) (payload : List UInt8) : Rx :=
  let psn := hdr.psn % psnMod
  if sendBadHeader hdr then q.sendAck psn .error
  else if q.rnrSuppresses hdr psn then q
  else
    let q := q.clearRnr hdr.srcQp psn
    if q.cfg.striping then q.handleStriped env hdr psn payload
    else q.handleOrdered env hdr psn payload

/-! ## RDMA WRITE -/

/-- The header check of `tbv_rx_handle_rdma_write_fragment`. -/
def writeBadHeader (remoteWrite : Bool) (hdr : Header) : Bool :=
  let fragEnd := hdr.fragOffset + hdr.length
  let last := hasFlag hdr.flags fLast
  hdr.flags &&& ~~~(fLast ||| fSolicited) != 0 || decide (2 ^ 64 ≤ fragEnd) ||
    decide (maxMsgSize < fragEnd) ||
    (hdr.opcode != .rdmaWriteImm && (hdr.immData == 0 || decide (maxMsgSize < hdr.immData) ||
      decide (hdr.immData < fragEnd) || last != decide (fragEnd = hdr.immData))) ||
    (!last && hdr.length == 0) || !remoteWrite

/-- `tbv_rx_finish_write_locked`: what the drain sends comes before the acknowledgement. -/
def Rx.finishWrite (q : Rx) (env : Env) (w : RxWrite) (status : WcStatus) : Rx :=
  let ack := match w.immWqe with
    | some _ => ackStatus env status
    | none => if status = .success then .ok else .error
  let q := match w.immWqe with
    | some wqe => q.pushImm env wqe status w.immData
    | none => q
  let q := { q with rxWrite := none }
  if w.psn ≠ q.expectedPsn then q.sendAck w.psn .error
  else ((q.consume w.psn ack).drainReorder env).sendAck w.psn ack

/-- `same_write` of `tbv_rx_handle_rdma_write_fragment`. -/
def RxWrite.sameWrite (w : RxWrite) (hdr : Header) (psn : Nat) : Bool :=
  w.srcQp == hdr.srcQp && w.psn == psn && w.withImm == (hdr.opcode == .rdmaWriteImm) &&
    w.rkey == hdr.rkey && w.immData == hdr.immData && w.remoteAddr == hdr.remoteAddr

def newWrite (hdr : Header) (psn : Nat) (immWqe : Option RecvWqe) : RxWrite where
  srcQp := hdr.srcQp
  psn := psn
  remoteAddr := hdr.remoteAddr
  rkey := hdr.rkey
  immData := hdr.immData
  withImm := hdr.opcode == .rdmaWriteImm
  immWqe := immWqe

/-- The copy at the end of `tbv_rx_handle_rdma_write_fragment`. -/
def Rx.writeFragment (q : Rx) (env : Env) (w : RxWrite) (copyOffset : Nat)
    (copyPayload : List UInt8) (last : Bool) : Rx :=
  if copyPayload = [] then
    if last then q.finishWrite env w .success else { q with rxWrite := some w }
  else if 2 ^ 64 ≤ w.remoteAddr + copyOffset ∨ env.mr w.rkey ≠ some true ∨
      env.iova w.rkey (w.remoteAddr + copyOffset) copyPayload.length = false then
    q.finishWrite env w .locProtErr
  else
    let q := q.note (.wrote w.rkey (w.remoteAddr + copyOffset) copyPayload)
    let w := { w with received := copyOffset + copyPayload.length }
    if last then q.finishWrite env w .success else { q with rxWrite := some w }

/-- A fragment of a write that is not buffered: a write with immediate is dropped. -/
def Rx.bufferOrDrop (q : Rx) (env : Env) (hdr : Header) (psn : Nat) (payload : List UInt8) : Rx :=
  if hdr.opcode = .rdmaWriteImm then q
  else q.bufferWriteFragment env hdr psn hdr.immData hdr.fragOffset (hasFlag hdr.flags fLast)
    false payload

/-- The write handler once the header and the RNR mark are passed. -/
def Rx.handleWrite (q : Rx) (env : Env) (hdr : Header) (psn : Nat) (payload : List UInt8) : Rx :=
  let last := hasFlag hdr.flags fLast
  let withImm := hdr.opcode = .rdmaWriteImm
  let offset := hdr.fragOffset
  let delta := psnDelta psn q.expectedPsn
  if delta < 0 then q.reack psn
  else
    match q.rxWrite with
    | some w =>
        if !w.sameWrite hdr psn then
          if 0 < delta then q.bufferOrDrop env hdr psn payload
          else q.finishWrite env w .locProtErr
        else if offset < w.received then
          let duplicate := w.received - offset
          if hdr.length ≤ duplicate then q
          else q.writeFragment env w w.received (payload.drop duplicate) last
        else if w.received < offset then q.bufferOrDrop env hdr psn payload
        else q.writeFragment env w offset payload last
    | none =>
        if psn ≠ q.expectedPsn then q.bufferOrDrop env hdr psn payload
        else if ¬ withImm ∧ (q.reorderFind psn).isSome then q.bufferOrDrop env hdr psn payload
        else if offset ≠ 0 then
          if withImm then q.sendAck hdr.psn .error else q.bufferOrDrop env hdr psn payload
        else if withImm then
          match q.popRecv with
          | none => q.markRnr hdr psn
          | some (wqe, q) => q.writeFragment env (newWrite hdr psn (some wqe)) offset payload last
        else q.writeFragment env (newWrite hdr psn none) offset payload last

def Rx.handleRdmaWriteFragment (q : Rx) (env : Env) (hdr : Header) (payload : List UInt8) : Rx :=
  let psn := hdr.psn % psnMod
  if writeBadHeader q.remoteWrite hdr then q.sendAck hdr.psn .error
  else if q.rnrSuppresses hdr psn then q
  else (q.clearRnr hdr.srcQp psn).handleWrite env hdr psn payload

/-! ## READ requests -/

/-- `tbv_rx_buffer_read_req_locked`. -/
def Rx.bufferReadReq (q : Rx) (env : Env) (hdr : Header) (psn : Nat) : Rx :=
  let delta := psnDelta psn q.expectedPsn
  let fresh : ReorderMsg :=
    { kind := .readReq, srcQp := hdr.srcQp, psn := psn, totalLen := hdr.immData
      remoteAddr := hdr.remoteAddr, rkey := hdr.rkey, fragCount := 1, fragsReceived := 1
      complete := true }
  if delta < 0 then q.note (.retryReadResp psn)
  else if reorderMaxMessages ≤ delta then q.note (.readStatus psn)
  else
    match q.reorderFind psn with
    | none =>
        if reorderMaxMessages ≤ q.reorderCount ∨ env.allocMsg = false then
          q.note (.readStatus psn)
        else q.reorderAdd fresh
    | some m =>
        if m ≠ fresh then (q.dropReorderMsg m).note (.readStatus psn)
        else q.drainReorder env

def Rx.handleRdmaReadReq (q : Rx) (env : Env) (hdr : Header) : Rx :=
  let psn := hdr.psn % psnMod
  if hdr.length ≠ 0 ∨ hdr.flags ≠ fLast then q.note (.readStatus hdr.psn)
  else if psn ≠ q.expectedPsn ∨ q.rxMsg.isSome ∨ q.rxWrite.isSome ∨
      (q.reorderFind psn).isSome then q.bufferReadReq env hdr psn
  else
    ({ q with expectedPsn := psnNext psn, consumed := q.consumed + 1 }.drainReorder env).note
      (.readReq psn)

/-! ## Receive credits -/

/-- `tbv_qp_advertise_recv_credits`; a frame that cannot be enqueued takes its credits
back. -/
def Rx.advertiseRecvCredits (q : Rx) (env : Env) : Rx :=
  match q.destQp with
  | none => q
  | some destQp =>
      if q.closing ∨ q.recvq.length ≤ q.advertised then q
      else if env.creditSent then
        { q with advertised := q.recvq.length }.note
          (.credit destQp (q.recvq.length - q.advertised))
      else q

/-- `tbv_qp_accept_recv_credit`, for a frame with credits in it. -/
def Rx.acceptRecvCredit (q : Rx) (hdr : Header) : Rx :=
  let add : Rx :=
    let total := q.remoteCredits + hdr.immData
    if total < 2 ^ 32 then { q with remoteCredits := total } else q
  if q.closing ∨ q.state = .err ∨ hdr.destQp ≠ q.cfg.qpNum then q
  else
    match q.destQp with
    | some destQp => if hdr.srcQp ≠ destQp then q else add.note (.accepted add.remoteCredits)
    | none =>
        if q.earlyCreditSrc.any (· != hdr.srcQp) then q
        else { add with earlyCreditSrc := some hdr.srcQp }.note (.accepted add.remoteCredits)

/-! ## Frames, posts and transitions -/

/-- `tbv_qp_validate_native_endpoint`. -/
def Rx.validEndpoint (q : Rx) (hdr : Header) : Bool :=
  !q.closing && q.state != .err && hdr.destQp == q.cfg.qpNum && q.destQp == some hdr.srcQp

/-- The receiving half of `tbv_ibdev_rx_native_frame`: acknowledgements and READ responses go to
the send side, which may mark the QP in error afterwards. -/
def Rx.rxFrame (q : Rx) (env : Env) (hdr : Header) (payload : List UInt8) : Rx :=
  match hdr.opcode with
  | .recvCredit => if hdr.immData = 0 then q else q.acceptRecvCredit hdr
  | .send | .sendImm =>
      if q.validEndpoint hdr then q.handleSendFragment env hdr payload else q
  | .rdmaWrite | .rdmaWriteImm =>
      if q.validEndpoint hdr then q.handleRdmaWriteFragment env hdr payload else q
  | .rdmaReadReq => if q.validEndpoint hdr then q.handleRdmaReadReq env hdr else q
  | _ => q

/-- One WQE of `tbv_post_recv`; `false` when it is refused. -/
def Rx.postOne (q : Rx) (wqe : RecvWqe) : Rx × Bool :=
  if q.closing ∨ q.state = .reset ∨ q.state = .err ∨ q.recvq.length = q.cfg.recvqSize then (q, false)
  else ({ q with recvq := q.recvq ++ [wqe], posted := q.posted ++ [wqe] }, true)

def Rx.flushRecvWqes (q : Rx) (env : Env) : Rx :=
  q.recvq.foldl (fun q wqe => q.cqPush env (.recv wqe .wrFlushErr none []))
    { q with recvq := [], advertised := q.advertised - q.recvq.length }

/-- `tbv_qp_flush_error`, its receive side. -/
def Rx.flushError (q : Rx) (env : Env) : Rx :=
  let q := match q.rxMsg with
    | some m => q.finishSend env { m with status := .wrFlushErr }
    | none => q
  let q := match q.rxWrite with
    | some w => q.finishWrite env w .wrFlushErr
    | none => q
  { q with reorder := [], reorderCount := 0, reorderBytes := 0 }.flushRecvWqes env

/-- The attributes of a call of `tbv_modify_qp` that the receive side uses. -/
structure Attrs where
  state : Option QpState := none
  remoteWrite : Option Bool := none
  destQp : Option Nat := none
  rqPsn : Option Nat := none
  sqPsn : Option Nat := none
  deriving DecidableEq, Repr

/-- The section of `tbv_modify_qp` that stores the attributes. -/
def Rx.setAttrs (q : Rx) (attrs : Attrs) : Rx :=
  { q with
    state := attrs.state.getD q.state
    remoteWrite := attrs.remoteWrite.getD q.remoteWrite
    destQp := attrs.destQp.or q.destQp
    expectedPsn := (attrs.rqPsn.map (· % psnMod)).getD q.expectedPsn
    sendPsn := (attrs.sqPsn.map (· % psnMod)).getD q.sendPsn }

/-- `tbv_modify_qp`, for a transition that `ib_modify_qp_is_ok` allows; `none` is
`-EINVAL`. -/
def Rx.modify (q : Rx) (env : Env) (attrs : Attrs) : Option Rx :=
  if attrs.destQp.any fun destQp => q.earlyCreditSrc.any (· != destQp) then none
  else
    let stored := q.setAttrs attrs
    let flushed := if q.state ≠ .err ∧ attrs.state = some .err then stored.flushError env else stored
    some (if attrs.state.isSome ∨ attrs.destQp.isSome then flushed.advertiseRecvCredits env
      else flushed)

/-- The sections a QP goes through: a received frame, and the parts of `tbv_post_recv`
(an appended WQE, the advertisement, the drain), in any order. -/
inductive Input where
  | frame (hdr : Header) (payload : List UInt8)
  | post (wqe : RecvWqe)
  | advertise
  | drain
  deriving DecidableEq, Repr

def Rx.step (q : Rx) (env : Env) : Input → Rx
  | .frame hdr payload => q.rxFrame env hdr payload
  | .post wqe => (q.postOne wqe).1
  | .advertise => q.advertiseRecvCredits env
  | .drain => q.drainReorder env

end Tbv.RecvQueue
