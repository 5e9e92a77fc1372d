import ThunderboltIbverbs.Lib.Run
import ThunderboltIbverbs.Lib.Threads
import ThunderboltIbverbs.Send.Frames

/-! # The send queue of a native QP

`kernel/ibdev.c`, the requester side: posting, TX-done callbacks, acknowledgements,
the timeout worker and the error flush.  Every section under `tqp->lock`,
`send->lock` or the CQ lock, and every unlocked access in between, is one frame of a
thread, so the threads interleave as the code lets them.

The path below is seen through what it does to a request: it takes frames or refuses
them, and hands every frame back once, with a status, to `tbv_send_tx_done`.  Requests
are numbered in the order of the calls that post them; a READ and a SEND share the
numbering, as they share `send_psn` and `sendq_count`. -/
set_option autoImplicit false
namespace Tbv.SendQueue

open Tbv.NativeData

def psnMod : Nat := 2 ^ 24

def psnNext (psn : Nat) : Nat := (psn + 1) % psnMod

def ucWireMaxRetries : Nat := 7
def ucRnrMaxRetries : Nat := 7
def sendMaxRetries : Nat := 7
def sendRnrRetriesInfinite : Nat := 255

def einval : Int := -22
def enomem : Int := -12
def enotconn : Int := -107
def eagain : Int := -11
def etimedout : Int := -110
def ecanceled : Int := -125
def eio : Int := -5
def efault : Int := -14
def emsgsize : Int := -90

inductive QpType where
  | rc | uc
  deriving DecidableEq, Repr

/-- The states the send side tells apart; INIT, RTR and RTS are `rts` here. -/
inductive QpState where
  | reset | rts | err
  deriving DecidableEq, Repr

inductive PostReason where
  | initial | retryTimeout | retryRnr
  deriving DecidableEq, Repr

/-- The work completion status `tbv_send_complete` chooses. -/
inductive WcStatus where
  | success | rnrRetryExc | retryExc | wrFlush
  deriving DecidableEq, Repr

def wcStatus (status : Int) : WcStatus :=
  if status = 0 then .success
  else if status = eagain then .rnrRetryExc
  else if status = etimedout then .retryExc
  else .wrFlush

/-- QP attributes and module parameters, constant over a connection.  `timeout` is
`tbv_qp_tx_timeout_jiffies_locked`, `rnrTimeout` the RNR timer, both in jiffies;
`zcopyMinBytes` is 0 also where fragments are striped, which rules raw streams out. -/
structure QpConfig where
  type : QpType
  maxSendWr : Nat
  timeout : Nat
  rnrTimeout : Nat
  retryCnt : Nat
  rnrRetry : Nat
  zcopyMinBytes : Nat
  initialPsn : Nat
  deriving DecidableEq, Repr

/-- `struct tbv_send_ctx`, less its statistics and reference count. -/
structure SendCtx where
  wr : SendWr := { opcode := .send, segs := [] }
  psn : Nat := 0
  retryable : Bool := false
  maxRetries : Nat := 0
  maxRnrRetries : Nat := 0
  queuedJiffies : Nat := 0
  pending : Bool := false
  retrying : Bool := false
  rnrWaiting : Bool := false
  ready : Bool := false
  completed : Bool := false
  wireAcked : Bool := false
  sqCounted : Bool := false
  retryReason : PostReason := .initial
  retries : Nat := 0
  rnrRetries : Nat := 0
  completionStatus : Int := 0
  txPending : Int := 0

/-- `struct tbv_read_ctx`: what posting, ordering and completing a READ use. -/
structure ReadCtx where
  psn : Nat := 0
  signaled : Bool := true
  queuedJiffies : Nat := 0
  ready : Bool := false
  completed : Bool := false
  sqCounted : Bool := false
  completionStatus : Int := 0

/-- What an observer of the driver sees, in order. -/
inductive Entry where
  /-- A call of `tbv_native_send_ctx_post_frames`, by the timeout worker or by the post. -/
  | transmit (c : Nat) (reason : PostReason) (byWorker : Bool)
  /-- A call of `tbv_path_send_page_stream`. -/
  | rawStream (c : Nat)
  /-- The payload of a fragment, copied into a frame or read by the NHI. -/
  | fragment (c offset : Nat) (payload : List UInt8)
  | txDone (c : Nat) (status : Int)
  | completion (c : Nat) (status : WcStatus)
  | readCompletion (r : Nat) (status : Int)
  /-- The post of a request returns. -/
  | returned (c psn : Nat) (ret : Int)
  | returnedRead (r psn : Nat) (ret : Int)
  deriving DecidableEq, Repr

/-- `struct tbv_qp`, its send side, with the user memory the requests point to.
`inFlight` and `rawInFlight` count the frames of a request the path has taken and
not handed back.  `taken`, `ticket`, `posted` and `log` are history: how many PSNs
were taken and which one a request took, the bytes it held when it was posted. -/
structure Qp where
  cfg : QpConfig
  state : QpState := .rts
  closing : Bool := false
  sendPsn : Nat
  sendqCount : Nat := 0
  remoteRecvCredits : Nat := 0
  pendingSends : List Nat := []
  pendingReads : List Nat := []
  ctx : Nat → SendCtx
  read : Nat → ReadCtx := fun _ => {}
  nextOp : Nat := 0
  jiffies : Nat := 1
  timeoutArmed : Bool := false
  timeoutRunning : Bool := false
  memory : Nat → UInt8
  inFlight : Nat → Nat := fun _ => 0
  rawInFlight : Nat → Nat := fun _ => 0
  readInFlight : Nat → Nat := fun _ => 0
  taken : Nat := 0
  ticket : Nat → Option Nat := fun _ => none
  posted : Nat → List UInt8 := fun _ => []
  log : List Entry := []

/-! ## Small state changes -/

def Qp.modCtx (q : Qp) (c : Nat) (f : SendCtx → SendCtx) : Qp :=
  { q with ctx := Function.update q.ctx c (f (q.ctx c)) }

def Qp.modRead (q : Qp) (r : Nat) (f : ReadCtx → ReadCtx) : Qp :=
  { q with read := Function.update q.read r (f (q.read r)) }

def Qp.note (q : Qp) (entry : Entry) : Qp := { q with log := q.log ++ [entry] }

def Qp.live (q : Qp) : Bool := !q.closing && q.state != .err

def Qp.allowsPost (q : Qp) : Bool := q.live && q.state != .reset

/-- `tbv_qp_schedule_timeout_locked`. -/
def Qp.scheduleTimeout (q : Qp) : Qp :=
  if q.cfg.timeout = 0 ∨ q.closing then q else { q with timeoutArmed := true }

def Qp.markQueued (q : Qp) (c : Nat) : Qp :=
  q.modCtx c fun x => { x with queuedJiffies := q.jiffies }

def entryExpired (queued now timeout : Nat) : Bool :=
  timeout != 0 && queued != 0 && decide (queued + timeout ≤ now)

def QpConfig.maxRetries (cfg : QpConfig) : Nat := min cfg.retryCnt sendMaxRetries

/-- `tbv_qp_send_max_rnr_retries`, and the policy `tbv_post_send_one` puts in place of
the zero a UC QP carries. -/
def QpConfig.maxRnrRetries (cfg : QpConfig) : Nat :=
  let retries := if cfg.rnrRetry % 8 = 7 then sendRnrRetriesInfinite else cfg.rnrRetry % 8
  if cfg.type = .uc ∧ retries = 0 then ucRnrMaxRetries else retries

def SendCtx.rnrRetryAllowed (x : SendCtx) : Bool :=
  x.maxRnrRetries == sendRnrRetriesInfinite || decide (x.rnrRetries < x.maxRnrRetries)

def SendCtx.rnrRetryExhausted (x : SendCtx) : Bool :=
  x.maxRnrRetries != sendRnrRetriesInfinite && decide (x.maxRnrRetries ≤ x.rnrRetries)

def SendCtx.rnrWaitsForRecvCredit (x : SendCtx) : Bool :=
  x.wr.opcode.recvCreditRequired && x.maxRnrRetries == sendRnrRetriesInfinite

/-- The context `tbv_post_send_one` allocates. -/
def newCtx (cfg : QpConfig) (wr : SendWr) : SendCtx where
  wr := wr
  retryable := cfg.type = .rc
  maxRetries := cfg.maxRetries
  maxRnrRetries := cfg.maxRnrRetries

/-- A QP that has just been brought to RTS with its send PSN. -/
def Qp.fresh (cfg : QpConfig) (memory : Nat → UInt8) : Qp where
  cfg := cfg
  sendPsn := cfg.initialPsn % psnMod
  ctx := fun _ => newCtx cfg { opcode := .send, segs := [] }
  memory := memory

/-- `tbv_qp_release_sendq_counted_locked`. -/
def Qp.releaseSendqCounted (q : Qp) (c : Nat) : Qp :=
  if (q.ctx c).sqCounted then
    { q with sendqCount := q.sendqCount - 1 }.modCtx c fun x => { x with sqCounted := false }
  else q

def Qp.releaseSendqCountedRead (q : Qp) (r : Nat) : Qp :=
  if (q.read r).sqCounted then
    { q with sendqCount := q.sendqCount - 1 }.modRead r fun x => { x with sqCounted := false }
  else q

/-- The slot `tbv_qp_reserve_sendq` takes. -/
def Qp.takeSlot (q : Qp) (c : Nat) : Qp :=
  { q with sendqCount := q.sendqCount + 1 }.modCtx c fun x => { x with sqCounted := true }

def Qp.takeSlotRead (q : Qp) (r : Nat) : Qp :=
  { q with sendqCount := q.sendqCount + 1 }.modRead r fun x => { x with sqCounted := true }

/-- A receive credit of the peer is used up, where one is. -/
def Qp.spendRecvCredit (q : Qp) (spends : Bool) : Qp :=
  if spends then { q with remoteRecvCredits := q.remoteRecvCredits - 1 } else q

def Qp.returnRemoteRecvCredit (q : Qp) : Qp :=
  if q.live then { q with remoteRecvCredits := q.remoteRecvCredits + 1 } else q

/-- `tx_pending` of a request changes by `frames`. -/
def Qp.chargeTx (q : Qp) (c : Nat) (frames : Int) : Qp :=
  q.modCtx c fun x => { x with txPending := x.txPending + frames }

def Qp.addInFlight (q : Qp) (c frames : Nat) : Qp :=
  { q with inFlight := Function.update q.inFlight c (q.inFlight c + frames) }

def Qp.addRawInFlight (q : Qp) (c frames : Nat) : Qp :=
  { q with rawInFlight := Function.update q.rawInFlight c (q.rawInFlight c + frames) }

/-- The path hands frames of a request back. -/
def Qp.dropInFlight (q : Qp) (c framed raw : Nat) : Qp :=
  { q with
    inFlight := Function.update q.inFlight c (q.inFlight c - framed)
    rawInFlight := Function.update q.rawInFlight c (q.rawInFlight c - raw) }

def Qp.clearRetrying (q : Qp) (c : Nat) : Qp := q.modCtx c fun x => { x with retrying := false }

def Qp.setWireAcked (q : Qp) (c : Nat) : Qp := q.modCtx c fun x => { x with wireAcked := true }

def Qp.setCompleted (q : Qp) (c : Nat) : Qp := q.modCtx c fun x => { x with completed := true }

def Qp.countRetry (q : Qp) (c : Nat) (reason : PostReason) : Qp :=
  q.modCtx c fun x =>
    if reason = .retryRnr then { x with rnrRetries := min (x.rnrRetries + 1) 255 }
    else { x with retries := min (x.retries + 1) 255 }

def Qp.advancePsn (q : Qp) (op : Nat) : Qp :=
  { q with
    sendPsn := psnNext (q.sendPsn % psnMod)
    taken := q.taken + 1
    ticket := Function.update q.ticket op (some q.taken) }

def Qp.takePsn (q : Qp) (c : Nat) : Qp :=
  (q.advancePsn c).modCtx c fun x => { x with psn := q.sendPsn % psnMod }

def Qp.takePsnRead (q : Qp) (r : Nat) : Qp :=
  (q.advancePsn r).modRead r fun x => { x with psn := q.sendPsn % psnMod }

/-- The section of `tbv_send_tx_done` under `tqp->lock`. -/
def Qp.noteTxDone (q : Qp) (c : Nat) (status : Int) : Qp :=
  let q := q.chargeTx c (-1)
  let x := q.ctx c
  if x.txPending ≠ 0 then q
  else if x.retryable && status == 0 && x.pending && !x.rnrWaiting then
    ((q.clearRetrying c).markQueued c).scheduleTimeout
  else q.clearRetrying c

/-! ## The pending list -/

def Qp.queueSend (q : Qp) (c : Nat) : Qp :=
  { q with pendingSends := q.pendingSends ++ [c] }.modCtx c fun x =>
      { x with queuedJiffies := 0, pending := true, retrying := false, rnrWaiting := false,
               retryReason := .initial }

/-- What leaving `pending_sends` does to a context. -/
def SendCtx.detached (x : SendCtx) : SendCtx :=
  { x with pending := false, retrying := false, rnrWaiting := false, sqCounted := false }

/-- The contexts `cs` leave the list: their flags and their send queue slots. -/
def Qp.detach (q : Qp) (cs : List Nat) : Qp :=
  { q with
    ctx := fun c => if c ∈ cs then (q.ctx c).detached else q.ctx c
    sendqCount := q.sendqCount - (cs.filter fun c => (q.ctx c).sqCounted).length }

/-- `tbv_qp_unqueue_send`, for a context that is on the list. -/
def Qp.unqueueSend (q : Qp) (c : Nat) : Qp :=
  { q with pendingSends := q.pendingSends.erase c }.detach [c]

/-- The ready prefix that `tbv_qp_drain_ready_sends_locked` takes off the list. -/
def Qp.readyPrefix (q : Qp) : List Nat := q.pendingSends.takeWhile fun c => (q.ctx c).ready

/-- `tbv_qp_drain_ready_sends_locked`; the contexts go to the caller's list. -/
def Qp.drainReadySends (q : Qp) : Qp :=
  { q with pendingSends := q.pendingSends.dropWhile fun c => (q.ctx c).ready }.detach
    q.readyPrefix

def Qp.markReady (q : Qp) (c : Nat) (status : Int) : Qp :=
  if (q.ctx c).ready then q
  else q.modCtx c fun x =>
    { x with ready := true, completionStatus := status, retrying := false, rnrWaiting := false }

def Qp.matchPsn (q : Qp) (psn : Nat) : Option Nat :=
  q.pendingSends.find? fun c => (q.ctx c).psn == psn % psnMod

/-- `tbv_qp_complete_send_ordered`, with the contexts it detaches. -/
def Qp.completeSendOrdered (q : Qp) (psn : Nat) (status : Int) : Qp × List Nat :=
  match q.matchPsn psn with
  | none => (q, [])
  | some c => ((q.markReady c status).drainReadySends, (q.markReady c status).readyPrefix)

def Qp.startRnrWait (q : Qp) (c : Nat) : Qp :=
  (q.modCtx c fun x => { x with rnrWaiting := true, retrying := false }).markQueued c

def Qp.noteRnrAck (q : Qp) (psn : Nat) : Qp × List Nat :=
  match q.matchPsn psn with
  | none => (q, [])
  | some c =>
      if (q.ctx c).rnrRetryExhausted || !q.live then
        ((q.markReady c eagain).drainReadySends, (q.markReady c eagain).readyPrefix)
      else if (q.ctx c).rnrWaitsForRecvCredit && q.remoteRecvCredits == 0 then
        (q.startRnrWait c, [])
      else ((q.startRnrWait c).scheduleTimeout, [])

/-- The verdict of a flushed context that had none, and the empty list. -/
def Qp.judgeFlushed (q : Qp) : Qp :=
  { q with
    pendingSends := []
    ctx := fun c =>
      if c ∈ q.pendingSends ∧ (q.ctx c).ready = false then
        { q.ctx c with ready := true, completionStatus := ecanceled }
      else q.ctx c }

def Qp.flushSends (q : Qp) : Qp := q.judgeFlushed.detach q.pendingSends

def Qp.sendRetryPending (q : Qp) (c : Nat) : Bool :=
  (q.ctx c).pending && q.live && !(q.ctx c).rnrWaiting && (q.ctx c).txPending == 0

/-! ## Reads -/

def Qp.queueRead (q : Qp) (r : Nat) : Qp :=
  { q with pendingReads := q.pendingReads ++ [r] }.modRead r fun x => { x with queuedJiffies := 0 }

/-- `tbv_qp_unqueue_read`, for a context that is on the list. -/
def Qp.unqueueRead (q : Qp) (r : Nat) : Qp :=
  { q with pendingReads := q.pendingReads.erase r }.releaseSendqCountedRead r

def Qp.markReadyRead (q : Qp) (r : Nat) (status : Int) : Qp :=
  if (q.read r).ready then q
  else q.modRead r fun x => { x with ready := true, completionStatus := status }

/-- `tbv_qp_complete_read_ordered`, with the reads it detaches. -/
def Qp.completeReadOrdered (q : Qp) (r : Nat) (status : Int) : Qp × List Nat :=
  if r ∈ q.pendingReads then
    let q := q.markReadyRead r status
    let gone := q.pendingReads.takeWhile fun r => (q.read r).ready
    (gone.foldl Qp.releaseSendqCountedRead
      { q with pendingReads := q.pendingReads.dropWhile fun r => (q.read r).ready }, gone)
  else (q, [])

def Qp.flushReads (q : Qp) : Qp :=
  q.pendingReads.foldl Qp.releaseSendqCountedRead { q with pendingReads := [] }

/-! ## The reaper -/

structure Reap where
  qp : Qp
  retry : List Nat := []
  completed : List Nat := []
  txFailed : Bool := false
  needResched : Bool := false

/-- The verdict a send gets from `tbv_qp_timeout_reap_tx`. -/
inductive ReapVerdict where
  | skip (needResched : Bool)
  | retry (reason : PostReason) (takesCredit : Bool)
  | fail (status : Int)
  deriving DecidableEq, Repr

def SendCtx.reapRetries (x : SendCtx) : Nat :=
  if x.retryable = false ∧ x.maxRetries = 0 then ucWireMaxRetries else x.maxRetries

/-- Whether the peer may still need a retransmission: for a UC send as long as it is
not acknowledged. -/
def SendCtx.wireOpen (x : SendCtx) : Bool := x.retryable || !x.wireAcked

/-- The decision of `tbv_qp_timeout_reap_tx` for one send.  `tbv_send_retry_jiffies`
ignores the budget, so both timeouts of the loop are the QP's. -/
def reapVerdict (q : Qp) (now : Nat) (x : SendCtx) : ReapVerdict :=
  if x.ready then .skip true
  else if x.rnrWaiting then
    let creditReady := x.wr.opcode.recvCreditRequired && q.remoteRecvCredits != 0
    if x.rnrWaitsForRecvCredit && !creditReady then .skip false
    else if !creditReady && !entryExpired x.queuedJiffies now q.cfg.rnrTimeout then .skip true
    else if x.wireOpen && !x.retrying && x.txPending == 0 && x.rnrRetryAllowed && q.live then
      .retry .retryRnr creditReady
    else .fail eagain
  else if !entryExpired x.queuedJiffies now q.cfg.timeout then .skip false
  else if x.retryable && x.txPending != 0 then .skip true
  else if x.wireOpen && !x.retrying && x.txPending == 0 &&
      decide (x.retries < x.reapRetries) && q.live then .retry .retryTimeout false
  else .fail etimedout

def Qp.startRetry (q : Qp) (c : Nat) (reason : PostReason) : Qp :=
  q.modCtx c fun x => { x with retrying := true, rnrWaiting := false, retryReason := reason }

/-- One round of the loop of `tbv_qp_timeout_reap_tx`.  `next` is the entry the
iteration has saved; when the drain takes it off the list the loop goes on through
the list it was moved to, which is not given a meaning here. -/
def reapSend (now : Nat) (r : Reap) (c : Nat) (next : Option Nat) : Option Reap :=
  match reapVerdict r.qp now (r.qp.ctx c) with
  | .skip needResched => some { r with needResched := r.needResched || needResched }
  | .retry reason takesCredit =>
      some { r with
        qp := (r.qp.spendRecvCredit takesCredit).startRetry c reason
        retry := r.retry ++ [c] }
  | .fail status =>
      let q := r.qp.markReady c status
      if next.any (· ∈ q.readyPrefix) then none
      else some { r with
        qp := q.drainReadySends
        completed := r.completed ++ q.readyPrefix
        txFailed := true }

def reapSends (now : Nat) : List Nat → Reap → Option Reap
  | [], r => some r
  | c :: rest, r => (reapSend now r c rest.head?).bind (reapSends now rest)

def Qp.expiredReads (q : Qp) (now : Nat) : List Nat :=
  q.pendingReads.filter fun r =>
    !(q.read r).ready && entryExpired (q.read r).queuedJiffies now q.cfg.timeout

def Qp.reapReads (q : Qp) (now : Nat) : Qp :=
  (q.expiredReads now).foldl Qp.releaseSendqCountedRead
    { q with pendingReads := q.pendingReads.filter fun r => r ∉ q.expiredReads now }

/-! ## Frames -/

/-- The lists and flags of one run of `tbv_qp_timeout_work`. -/
structure Worker where
  retry : List Nat := []
  completed : List Nat := []
  timedOutReads : List Nat := []
  txTimedOut : Bool := false
  needResched : Bool := false
  deriving DecidableEq, Repr

/-- Where `tbv_post_send_one` stands; `credit` is `credit_consumed`. -/
inductive PostStage where
  | start
  | takeCredit
  | reserve (credit : Bool)
  | takePsn (credit : Bool)
  | queue (credit : Bool)
  | arm (credit : Bool)
  | framesPosted (credit : Bool) (ret : Int)
  | giveBack (ret : Int)
  deriving DecidableEq, Repr

inductive FramesStage where
  | select
  | raw
  | copy (offset frames : Nat)
  | charge (frames : Nat)
  | enqueue (frames : Nat)
  | uncharge (frames : Nat) (ret : Int)
  deriving DecidableEq, Repr

/-- Who called `tbv_native_send_ctx_post_frames`. -/
inductive Caller where
  | post (credit : Bool)
  | worker (w : Worker)
  deriving DecidableEq, Repr

inductive ReadStage where
  | start | reserve | takePsn | build | queue | send
  | unqueue (ret : Int)
  | failed (ret : Int)
  deriving DecidableEq, Repr

inductive WorkerStage where
  | start
  | reap (now : Nat)
  | retryNext (w : Worker)
  | retryPending (c : Nat) (reason : PostReason) (w : Worker)
  | retried (c : Nat) (reason : PostReason) (ret : Int) (w : Worker)
  | afterRetry (w : Worker)
  | finishSends (w : Worker)
  | done (needResched : Bool)
  deriving DecidableEq, Repr

/-- Whose list of detached sends is completed. -/
inductive Finisher where
  | txDone | ack | flush | worker
  deriving DecidableEq, Repr

inductive Frame where
  | post (c : Nat) (stage : PostStage)
  | postFrames (c : Nat) (reason : PostReason) (stage : FramesStage) (caller : Caller)
  | postRead (r : Nat) (stage : ReadStage)
  | txDone (c : Nat) (status : Int)
  | txFailed (c : Nat) (status : Int)
  | releaseSendq (c : Nat)
  | sendComplete (c : Nat) (status : Int)
  | cancelPackets (c : Nat)
  | cqPush (c : Nat) (status : Int)
  | ack (psn : Nat) (status : SendAckStatus)
  | ackHandle (psn : Nat) (status : SendAckStatus)
  | wireAcked (c : Nat)
  | finish (who : Finisher) (sends : List Nat) (err : Bool)
  | worker (stage : WorkerStage)
  | markError
  | flushSends
  | flushReads
  | readTxDone (r : Nat) (status : Int)
  | completeRead (r : Nat) (status : Int)
  | finishReads (reads : List Nat) (status : Option Int)
  | readComplete (r : Nat) (status : Int)
  | cqPushRead (r : Nat) (status : Int)
  deriving DecidableEq, Repr

/-- What the model leaves to the environment at a frame: an allocation, a path, an
enqueue or a CQ push that fails, how many frames a partial enqueue took, how many
pages a stream prepared, how many queued packets a cancel found. -/
inductive Choice where
  | ok
  | fail (ret : Int)
  | queued (frames : Nat) (ret : Int)
  | pages (pages : Nat) (ret : Int)
  | cancelled (framed raw : Nat)
  deriving DecidableEq, Repr

end Tbv.SendQueue
