import ThunderboltIbverbs.Send.Model

/-! # The threads of the send queue

What each frame does to the QP and which frames take its place, and what the
environment may do: call the driver, deliver an acknowledgement, hand a frame back,
run the timeout worker, write to user memory. -/
set_option autoImplicit false
namespace Tbv.SendQueue

open Tbv.NativeData

abbrev Outcome := Option (Qp × List Frame)

def Qp.returnPost (q : Qp) (c psn : Nat) (ret : Int) : Outcome :=
  some (q.note (.returned c psn ret), [])

def Qp.returnRead (q : Qp) (r psn : Nat) (ret : Int) : Outcome :=
  some (q.note (.returnedRead r psn ret), [])

def Qp.refusePost (q : Qp) (c : Nat) (credit : Bool) (ret : Int) : Outcome :=
  if credit then some (q, [.post c (.giveBack ret)]) else q.returnPost c (q.ctx c).psn ret

def Qp.armSendTimeout (q : Qp) (c : Nat) : Qp :=
  if (q.ctx c).pending && (q.ctx c).queuedJiffies == 0 then (q.markQueued c).scheduleTimeout
  else q

/-- `tbv_post_send_one`. -/
def execPost (q : Qp) (c : Nat) (choice : Choice) : PostStage → Outcome
  -- `tbv_qp_allows_post`, the destination, `tbv_qp_get_live`, `tbv_prepare_send_segments`
  | .start =>
      match choice with
      | .ok =>
          if !q.allowsPost then q.returnPost c 0 einval
          else if maxMsgSize < totalLen (q.ctx c).wr.segs then q.returnPost c 0 emsgsize
          else some (q, [.post c .takeCredit])
      | .fail ret => if ret < 0 then q.returnPost c 0 ret else none
      | _ => none
  -- `tbv_qp_consume_remote_recv_credit`; a missing credit does not stop the post
  | .takeCredit =>
      if !(q.ctx c).wr.opcode.recvCreditRequired then some (q, [.post c (.reserve false)])
      else if !q.live then q.returnPost c 0 ecanceled
      else if q.remoteRecvCredits = 0 then some (q, [.post c (.reserve false)])
      else some (q.spendRecvCredit true, [.post c (.reserve true)])
  -- the allocation of the context, then `tbv_qp_reserve_sendq`
  | .reserve credit =>
      match choice with
      | .ok =>
          if !q.allowsPost then q.refusePost c credit einval
          else if q.cfg.maxSendWr ≤ q.sendqCount then q.refusePost c credit enomem
          else some (q.takeSlot c, [.post c (.takePsn credit)])
      | .fail ret => if ret < 0 then q.refusePost c credit ret else none
      | _ => none
  | .takePsn credit =>
      some (q.takePsn c, [.post c (.queue credit)])
  | .queue credit =>
      if (q.ctx c).retryable then
        some (q.queueSend c, [.postFrames c .initial .select (.post credit)])
      else some (q.queueSend c, [.post c (.arm credit)])
  -- only for a send that is not retryable
  | .arm credit =>
      some (q.armSendTimeout c, [.postFrames c .initial .select (.post credit)])
  -- `tbv_qp_unqueue_send` when the frames could not be posted
  | .framesPosted credit ret =>
      if ret = 0 then q.returnPost c (q.ctx c).psn 0
      else if c ∈ q.pendingSends then (q.unqueueSend c).refusePost c credit ret
      else q.returnPost c (q.ctx c).psn ret
  | .giveBack ret => q.returnRemoteRecvCredit.returnPost c (q.ctx c).psn ret

/-- Where `tbv_native_send_ctx_post_frames` returns to. -/
def Caller.resume (c : Nat) (reason : PostReason) (ret : Int) : Caller → Frame
  | .post credit => .post c (.framesPosted credit ret)
  | .worker w => .worker (.retried c reason ret w)

def Caller.isWorker : Caller → Bool
  | .post _ => false
  | .worker _ => true

/-- `zcopy_requested && raw_zcopy_allowed && zcopy_safe`. -/
def SendCtx.usesRawStream (cfg : QpConfig) (x : SendCtx) : Bool :=
  let len := totalLen x.wr.segs
  x.wr.opcode.isWrite && len != 0 && cfg.zcopyMinBytes != 0 &&
    decide (cfg.zcopyMinBytes ≤ len) && !x.retryable && x.wr.zcopySafe

/-- `tbv_native_send_ctx_post_frames`. -/
def execPostFrames (q : Qp) (c : Nat) (reason : PostReason) (caller : Caller)
    (choice : Choice) : FramesStage → Outcome
  -- the path, and for framed data its reservation
  | .select =>
      match choice with
      | .ok =>
          some (q.note (.transmit c reason caller.isWorker), [.postFrames c reason
            (if (q.ctx c).usesRawStream q.cfg then .raw else .copy 0 0) caller])
      | .fail ret =>
          if ret < 0 then some (q.note (.transmit c reason caller.isWorker), [caller.resume c reason ret])
          else none
      | _ => none
  -- `tbv_path_send_page_stream`: a refused stream runs the callback of its header and
  -- of every page prepared so far before it returns
  | .raw =>
      match choice with
      | .pages pages ret =>
          if ret = 0 then
            some (((q.note (.rawStream c)).chargeTx c (pages + 1)).addRawInFlight c (pages + 1),
              [caller.resume c reason 0])
          else if ret < 0 then
            some ((q.note (.rawStream c)).chargeTx c (pages + 1),
              List.replicate (pages + 1) (.txDone c ret) ++ [caller.resume c reason ret])
          else none
      | _ => none
  | .copy offset frames =>
      let len := fragLen (totalLen (q.ctx c).wr.segs) offset
      match choice with
      | .ok =>
          match copySendRange q.memory (q.ctx c).wr.segs offset len with
          | none => some (q, [caller.resume c reason efault])
          | some payload =>
              some (q.note (.fragment c offset payload),
                [.postFrames c reason
                  (if offset + len < totalLen (q.ctx c).wr.segs then
                    .copy (offset + len) (frames + 1) else .charge (frames + 1)) caller])
      | .fail ret => if ret < 0 then some (q, [caller.resume c reason ret]) else none
      | _ => none
  -- `tbv_path_prepare_owned_list`, then `atomic_add(total_frames, &ctx->tx_pending)`
  | .charge frames =>
      match choice with
      | .ok =>
          some (q.chargeTx c frames, [.postFrames c reason (.enqueue frames) caller])
      | .fail ret => if ret < 0 then some (q, [caller.resume c reason ret]) else none
      | _ => none
  | .enqueue frames =>
      match choice with
      | .queued taken ret =>
          if taken = frames then some (q.addInFlight c taken, [caller.resume c reason 0])
          else if taken < frames ∧ ret < 0 then
            some (q.addInFlight c taken, [.postFrames c reason
              (.uncharge (frames - taken) (if taken = 0 then ret else 0)) caller])
          else none
      | _ => none
  | .uncharge frames ret =>
      some (q.chargeTx c (-frames), [caller.resume c reason ret])

/-- `tbv_post_rdma_read`. -/
def execPostRead (q : Qp) (r : Nat) (choice : Choice) : ReadStage → Outcome
  | .start =>
      match choice with
      | .ok => if q.allowsPost then some (q, [.postRead r .reserve]) else q.returnRead r 0 einval
      | .fail ret => if ret < 0 then q.returnRead r 0 ret else none
      | _ => none
  | .reserve =>
      if !q.allowsPost then q.returnRead r 0 einval
      else if q.cfg.maxSendWr ≤ q.sendqCount then q.returnRead r 0 enomem
      else some (q.takeSlotRead r, [.postRead r .takePsn])
  | .takePsn => some (q.takePsnRead r, [.postRead r .build])
  -- the frame, its header and the path
  | .build =>
      match choice with
      | .ok => some (q, [.postRead r .queue])
      | .fail ret => if ret < 0 then some (q, [.postRead r (.failed ret)]) else none
      | _ => none
  | .queue => some (q.queueRead r, [.postRead r .send])
  | .send =>
      match choice with
      | .ok =>
          ({ q with readInFlight :=
              Function.update q.readInFlight r (q.readInFlight r + 1) }).returnRead
            r (q.read r).psn 0
      | .fail ret => if ret < 0 then some (q, [.postRead r (.unqueue ret)]) else none
      | _ => none
  | .unqueue ret =>
      some (if r ∈ q.pendingReads then q.unqueueRead r else q, [.postRead r (.failed ret)])
  | .failed ret => (q.releaseSendqCountedRead r).returnRead r (q.read r).psn ret

/-- `tbv_send_tx_done`: UC completes here and stays on `pending_sends` until the peer
acknowledges. -/
def execTxDone (q : Qp) (c : Nat) (status : Int) : Outcome :=
  let q' := (q.note (.txDone c status)).noteTxDone c status
  if status ≠ 0 then some (q', [.txFailed c status])
  else if (q.ctx c).txPending = 1 ∧ (q.ctx c).retryable = false then
    some (q', [.sendComplete c 0, .releaseSendq c])
  else some (q', [])

def finishOne (q : Qp) (c : Nat) : Finisher → List Frame
  | .txDone => [.sendComplete c (q.ctx c).completionStatus]
  | .ack => [.wireAcked c, .releaseSendq c, .sendComplete c (q.ctx c).completionStatus]
  | .flush => [.cancelPackets c, .sendComplete c (q.ctx c).completionStatus]
  | .worker => [.cancelPackets c, .sendComplete c (q.ctx c).completionStatus]

def execFinish (q : Qp) (who : Finisher) (err : Bool) : List Nat → Outcome
  | [] => some (q, if who = .ack ∧ err then [.markError] else [])
  | c :: rest =>
      some (q, finishOne q c who ++
        [.finish who rest (err || (q.ctx c).completionStatus != 0)])

/-- Whether a retried send still waits for its acknowledgement. -/
def Qp.retryOpen (q : Qp) (c : Nat) : Bool :=
  let x := q.ctx c
  x.pending && (if x.retryable then !x.completed else !x.wireAcked) && q.live

/-- `tbv_qp_timeout_work`. -/
def execWorker (q : Qp) (choice : Choice) : WorkerStage → Outcome
  | .start =>
      some ({ q with timeoutArmed := false },
        [.worker (if q.cfg.timeout = 0 then .done false else .reap q.jiffies)])
  | .reap now =>
      (reapSends now q.pendingSends { qp := q }).map fun reap =>
        let reads := reap.qp.expiredReads now
        let q := reap.qp.reapReads now
        let w : Worker :=
          { retry := reap.retry
            completed := reap.completed
            timedOutReads := reads
            txTimedOut := reap.txFailed || !reads.isEmpty
            needResched := reap.needResched || (!q.closing &&
              (!reap.retry.isEmpty || !q.pendingSends.isEmpty || !q.pendingReads.isEmpty)) }
        (q, [.worker (.retryNext w)])
  | .retryNext w =>
      match w.retry with
      | [] => some (q, [.worker (.afterRetry w)])
      | c :: rest =>
          let w := { w with retry := rest }
          let x := q.ctx c
          if x.completed && (x.retryable || x.wireAcked) then some (q, [.worker (.retryNext w)])
          else some (q, [.worker (.retryPending c x.retryReason w)])
  -- `tbv_qp_send_retry_pending`
  | .retryPending c reason w =>
      if q.sendRetryPending c then some (q, [.postFrames c reason .select (.worker w)])
      else some (q.clearRetrying c, [.worker (.retryNext w)])
  | .retried c reason ret w =>
      let again : List Frame := [.worker (.retryNext { w with needResched := true })]
      if q.retryOpen c then
        if ret = 0 then some (((q.countRetry c reason).markQueued c).scheduleTimeout, again)
        else if ret = enomem then
          some (((q.clearRetrying c).markQueued c).scheduleTimeout, again)
        else if ret = enotconn then
          some ((((q.countRetry c .retryTimeout).clearRetrying c).markQueued c).scheduleTimeout,
            again)
        else
          some ((q.markReady c etimedout).drainReadySends, [.worker (.retryNext
            { w with
              completed := w.completed ++ (q.markReady c etimedout).readyPrefix
              txTimedOut := true })])
      else some (q.clearRetrying c, [.worker (.retryNext w)])
  -- the QP goes to ERR before the timed-out sends are completed
  | .afterRetry w =>
      some (q, (if w.txTimedOut then [.markError] else []) ++ [.worker (.finishSends w)])
  | .finishSends w =>
      some (q, [.finish .worker w.completed false, .finishReads w.timedOutReads (some etimedout),
        .worker (.done (w.needResched && !w.txTimedOut))])
  -- read responses and the receive side, which may ask for another run
  | .done needResched =>
      if needResched || choice = .ok then
        some ({ q with timeoutRunning := false }.scheduleTimeout, [])
      else some ({ q with timeoutRunning := false }, [])

def Qp.handleAck (q : Qp) (psn : Nat) : SendAckStatus → Qp × List Nat
  | .ok => q.completeSendOrdered psn 0
  | .rnr => q.noteRnrAck psn
  | .error => q.completeSendOrdered psn eio

def exec (q : Qp) (frame : Frame) (choice : Choice) : Outcome :=
  match frame with
  | .post c stage => execPost q c choice stage
  | .postFrames c reason stage caller => execPostFrames q c reason caller choice stage
  | .postRead r stage => execPostRead q r choice stage
  | .txDone c status => execTxDone q c status
  -- the error half of `tbv_send_tx_done`
  | .txFailed c status =>
      let out := q.completeSendOrdered (q.ctx c).psn status
      some (out.1, [.finish .txDone out.2 false])
  | .releaseSendq c => some (q.releaseSendqCounted c, [])
  -- `tbv_send_complete`: `completed` is claimed once, the push comes later
  | .sendComplete c status =>
      if (q.ctx c).completed then some (q, [])
      else
        some (q.setCompleted c,
          .cancelPackets c :: if (q.ctx c).wr.signaled then [.cqPush c status] else [])
  -- `tbv_cancel_send_ctx_packets`: queued packets are released at once
  | .cancelPackets c =>
      match choice with
      | .cancelled framed raw =>
          if framed ≤ q.inFlight c ∧ raw ≤ q.rawInFlight c then
            some (q.dropInFlight c framed raw,
              List.replicate (framed + raw) (.txDone c ecanceled))
          else none
      | _ => none
  | .cqPush c status =>
      match choice with
      | .ok => some (q.note (.completion c (wcStatus status)), [])
      | .fail _ => some (q, [])
      | _ => none
  -- `tbv_qp_validate_native_endpoint`
  | .ack psn status => some (q, if q.live then [.ackHandle psn status] else [])
  | .ackHandle psn status =>
      some ((q.handleAck psn status).1, [.finish .ack (q.handleAck psn status).2 false])
  | .wireAcked c => some (q.setWireAcked c, [])
  | .finish who sends err => execFinish q who err sends
  | .worker stage => execWorker q choice stage
  -- `tbv_qp_mark_error`, then `tbv_qp_flush_error`
  | .markError =>
      if q.live then some ({ q with state := .err }, [.flushSends, .flushReads]) else some (q, [])
  | .flushSends => some (q.flushSends, [.finish .flush q.pendingSends false])
  | .flushReads => some (q.flushReads, [.finishReads q.pendingReads (some ecanceled)])
  | .readTxDone r status =>
      if status = 0 then
        some (if r ∈ q.pendingReads ∧ (q.read r).queuedJiffies = 0 then
            (q.modRead r fun x => { x with queuedJiffies := q.jiffies }).scheduleTimeout
          else q, [])
      else if r ∈ q.pendingReads then some (q.unqueueRead r, [.readComplete r status])
      else some (q, [])
  | .completeRead r status =>
      let out := q.completeReadOrdered r status
      some (out.1, [.finishReads out.2 none])
  | .finishReads reads status =>
      match reads with
      | [] => some (q, [])
      | r :: rest =>
          some (q, [.readComplete r (status.getD (q.read r).completionStatus),
            .finishReads rest status])
  | .readComplete r status =>
      if (q.read r).completed then some (q, [])
      else
        some (q.modRead r fun x => { x with completed := true },
          if (q.read r).signaled then [.cqPushRead r status] else [])
  | .cqPushRead r status =>
      match choice with
      | .ok => some (q.note (.readCompletion r status), [])
      | .fail _ => some (q, [])
      | _ => none

inductive Event where
  | postSend (wr : SendWr)
  | postRead (signaled : Bool)
  | ack (psn : Nat) (status : SendAckStatus)
  | txRetired (c : Nat) (raw : Bool) (status : Int)
  | dma (c offset len : Nat)
  | readRetired (r : Nat) (status : Int)
  | readResponse (r : Nat) (status : Int)
  | recvCredit (credits : Nat)
  | timeoutWork
  | error
  | close
  | stopProducers
  | tick
  | memWrite (addr : Nat) (byte : UInt8)
  deriving DecidableEq, Repr

def react (q : Qp) : Event → Outcome
  | .postSend wr =>
      some ({ q with
          nextOp := q.nextOp + 1
          ctx := Function.update q.ctx q.nextOp (newCtx q.cfg wr)
          posted := Function.update q.posted q.nextOp (gather q.memory wr.segs) },
        [.post q.nextOp .start])
  | .postRead signaled =>
      some ({ q with
          nextOp := q.nextOp + 1
          read := Function.update q.read q.nextOp { signaled := signaled } },
        [.postRead q.nextOp .start])
  | .ack psn status => some (q, [.ack psn status])
  -- a frame comes back from the ring or is dropped with its path
  | .txRetired c raw status =>
      if raw then
        if 0 < q.rawInFlight c then some (q.dropInFlight c 0 1, [.txDone c status]) else none
      else if 0 < q.inFlight c then some (q.dropInFlight c 1 0, [.txDone c status])
      else none
  -- the NHI reads the pages of a raw stream while they are posted
  | .dma c offset len =>
      if 0 < q.rawInFlight c ∧ offset + len ≤ totalLen (q.ctx c).wr.segs then
        some (q.note (.fragment c offset
          (((gather q.memory (q.ctx c).wr.segs).drop offset).take len)), [])
      else none
  | .readRetired r status =>
      if 0 < q.readInFlight r then
        some ({ q with readInFlight := Function.update q.readInFlight r (q.readInFlight r - 1) },
          [.readTxDone r status])
      else none
  | .readResponse r status => some (q, [.completeRead r status])
  -- `tbv_qp_accept_recv_credit`
  | .recvCredit credits =>
      if q.live then
        some ({ q with remoteRecvCredits := q.remoteRecvCredits + credits }.scheduleTimeout, [])
      else none
  | .timeoutWork =>
      if q.timeoutArmed && !q.timeoutRunning then
        some ({ q with timeoutRunning := true }, [.worker .start])
      else none
  -- `tbv_qp_error_work`, or a modify to ERR
  | .error => some (q, [.markError])
  | .close => some ({ q with closing := true }, [])
  -- `tbv_qp_stop_producers`, once the worker has been cancelled
  | .stopProducers =>
      if q.closing && !q.timeoutRunning then some (q, [.flushSends, .flushReads]) else none
  | .tick => some ({ q with jiffies := q.jiffies + 1 }, [])
  | .memWrite addr byte => some ({ q with memory := Function.update q.memory addr byte }, [])

abbrev St := Threads.State Qp Frame
abbrev Lbl := Threads.Label Event Choice

def step : St → Lbl → Option St := Threads.step react exec

def start (cfg : QpConfig) (memory : Nat → UInt8) : St := ⟨Qp.fresh cfg memory, []⟩

end Tbv.SendQueue
