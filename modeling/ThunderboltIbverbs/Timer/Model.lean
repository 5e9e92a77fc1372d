import ThunderboltIbverbs.Send.Exec
import ThunderboltIbverbs.Recv.Model

/-! # The timeout work of a native QP

`tbv_qp_timeout_work` of `kernel/ibdev.c` with everything it watches: the send queue, the
responses to READ requests and the receive side.  The send queue and the receive handlers are
those of the two models below; what is new here is the work item itself, the pending READ
responses, and which handler asks for a run of the work.

A frame is again one section under `tqp->lock`, or one under `tqp->rx_lock`; the call of
`tbv_qp_schedule_timeout` that a receive handler makes under `rx_lock` is a frame of its own.  The QP is not
destroyed in these runs, so `tqp->closing` stays false. -/
set_option autoImplicit false
namespace Tbv.Timer

open Tbv.NativeData
open Tbv.SendQueue (entryExpired Worker WorkerStage)
open Tbv.RecvQueue (Rx Env ReorderMsg psnDelta psnNext reorderMaxMessages)

/-! ## The receive side and the timer -/

section Rx
variable (q : Rx)

/-- An active message or write, or a reorder list that is not empty. -/
def busy : Bool := q.rxMsg.isSome || q.rxWrite.isSome || !q.reorder.isEmpty

/-- Whether a call of one of the three buffer functions adds a message to the reorder list;
it then calls `tbv_qp_schedule_timeout`. -/
def buffers (env : Env) (psn : Nat) (shaped : Bool) : Bool :=
  decide (0 ≤ psnDelta psn q.expectedPsn) &&
    decide (psnDelta psn q.expectedPsn < reorderMaxMessages) && shaped &&
    (q.reorderFind psn).isNone && decide (q.reorderCount < reorderMaxMessages) && env.allocMsg

/-- Whether `tbv_rx_handle_send_fragment` calls `tbv_qp_schedule_timeout`. -/
def sendSchedules (env : Env) (hdr : Header) : Bool :=
  let psn := hdr.psn % RecvQueue.psnMod
  let delta := psnDelta psn q.expectedPsn
  let shaped := (rxFragmentShape hdr.immData hdr.fragOffset hdr.length
    (hasFlag hdr.flags fLast)).isSome
  if RecvQueue.sendBadHeader hdr || q.rnrSuppresses hdr psn then false
  else if q.cfg.striping then
    if !shaped || decide (delta < 0) then false
    else if 0 < delta ∨ (q.rxMsg = none ∧ (q.reorderFind psn).isSome) then
      buffers q env psn shaped
    else q.rxMsg.isNone && q.popRecv.isSome
  else
    match q.rxMsg with
    | some m =>
        !(m.sameMessage hdr psn && m.received == hdr.fragOffset) && decide (0 < delta) &&
          buffers q env psn shaped
    | none =>
        if (q.reorderFind psn).isSome || psn != q.expectedPsn || hdr.fragOffset != 0 then
          buffers q env psn shaped
        else q.popRecv.isSome

/-- Whether `tbv_rx_handle_rdma_write_fragment` calls `tbv_qp_schedule_timeout`. -/
def writeSchedules (env : Env) (hdr : Header) : Bool :=
  let psn := hdr.psn % RecvQueue.psnMod
  let delta := psnDelta psn q.expectedPsn
  let withImm := hdr.opcode = .rdmaWriteImm
  let buffered := decide (¬ withImm) && buffers q env psn
    (rxWriteFragmentShape hdr.immData hdr.fragOffset hdr.length (hasFlag hdr.flags fLast)).isSome
  if RecvQueue.writeBadHeader q.remoteWrite hdr || q.rnrSuppresses hdr psn || decide (delta < 0)
  then false
  else
    match q.rxWrite with
    | some w =>
        if !w.sameWrite hdr psn then decide (0 < delta) && buffered
        else decide (w.received < hdr.fragOffset) && buffered
    | none =>
        if psn ≠ q.expectedPsn ∨ (¬ withImm ∧ (q.reorderFind psn).isSome) ∨ hdr.fragOffset ≠ 0 then
          buffered
        else decide (¬ withImm) || q.popRecv.isSome

/-- Whether `tbv_rx_handle_rdma_read_req` calls `tbv_qp_schedule_timeout`. -/
def readReqSchedules (env : Env) (hdr : Header) : Bool :=
  let psn := hdr.psn % RecvQueue.psnMod
  decide (hdr.length = 0 ∧ hdr.flags = fLast) &&
    decide (psn ≠ q.expectedPsn ∨ q.rxMsg.isSome ∨ q.rxWrite.isSome ∨ (q.reorderFind psn).isSome) &&
    buffers q env psn true

/-- The handler of a frame that has passed `tbv_qp_validate_native_endpoint`, and whether it
calls `tbv_qp_schedule_timeout`. -/
def handle (env : Env) (hdr : Header) (payload : List UInt8) : Rx × Bool :=
  match hdr.opcode with
  | .send | .sendImm => (q.handleSendFragment env hdr payload, sendSchedules q env hdr)
  | .rdmaWrite | .rdmaWriteImm =>
      (q.handleRdmaWriteFragment env hdr payload, writeSchedules q env hdr)
  | .rdmaReadReq => (q.handleRdmaReadReq env hdr, readReqSchedules q env hdr)
  | _ => (q, false)

/-- Which of the entries `tbv_qp_timeout_reap_rx` looks at have been there too long. -/
structure Overdue where
  msg : Bool
  write : Bool
  head : Nat → Bool

/-- The loop over the head of the reorder list; every round takes a message off it. -/
def reapHeads (env : Env) (overdue : Overdue) : Nat → Rx → Rx
  | 0, q => q
  | fuel + 1, q =>
      match q.reorderFind q.expectedPsn with
      | none => q
      | some m =>
          if overdue.head m.psn = false then q
          else
            let q := (q.dropReorderMsg m).consume m.psn .error
            let q := if m.kind = .readReq then q.note (.readStatus m.psn) else q
            reapHeads env overdue fuel (q.drainReorder env)

/-- The section of `tbv_qp_timeout_reap_rx` under `rx_lock`, and its `fatal`. -/
def reapRx (env : Env) (overdue : Overdue) : Rx × Bool :=
  let failed := match q.rxMsg with
    | some m =>
        if overdue.msg then (q.finishSend env { m with status := .generalErr }, true) else (q, false)
    | none => (q, false)
  let failed := match failed.1.rxWrite with
    | some w => if overdue.write then (failed.1.finishWrite env w .generalErr, true) else failed
    | none => failed
  (reapHeads env overdue (failed.1.reorder.length + 1) failed.1, failed.2)

end Rx

/-! ## READ responses -/

def readRespMaxRetries : Nat := 3

/-- `struct tbv_read_resp_ctx`: what its timer uses. -/
structure RespCtx where
  psn : Nat := 0
  queuedJiffies : Nat := 0
  retrying : Bool := false
  retries : Nat := 0
  responseSent : Bool := false
  closing : Bool := false

/-- `struct tbv_qp`.  `workQueued` says that `timeout_work` is queued, `reqWorks` the PSNs whose
`tbv_read_req_workfn` is; `retryResps` and `dropResps` are the lists of the one run of
`tbv_qp_timeout_work` there is at a time.  `rxLocked` says that a receive handler holds `rx_lock`
over its call of `tbv_qp_schedule_timeout`; `respRetryJiffies` is `TBV_READ_RESP_RETRY_MS`. -/
structure Qp where
  sq : SendQueue.Qp
  rx : Rx
  respRetryJiffies : Nat
  workQueued : Bool := false
  pendingReadResps : List Nat := []
  resp : Nat → RespCtx := fun _ => {}
  nextResp : Nat := 0
  reqWorks : List Nat := []
  retryResps : List Nat := []
  dropResps : List Nat := []
  rxLocked : Bool := false

/-- The send queue changes; `mod_delayed_work` is called when it arms the work, and by the
callers that replace the delay also when it is armed already. -/
def Qp.withSq (q : Qp) (sq : SendQueue.Qp) (replaces : Bool) : Qp :=
  { q with
    sq := sq
    workQueued := q.workQueued || (sq.timeoutArmed && (!q.sq.timeoutArmed || replaces)) }

/-- `tbv_qp_schedule_timeout_locked`. -/
def Qp.scheduleTimeout (q : Qp) : Qp := q.withSq q.sq.scheduleTimeout false

/-- `tbv_qp_schedule_timeout_now_locked`. -/
def Qp.scheduleTimeoutNow (q : Qp) : Qp := q.withSq q.sq.scheduleTimeout true

def Qp.modResp (q : Qp) (p : Nat) (f : RespCtx → RespCtx) : Qp :=
  { q with resp := Function.update q.resp p (f (q.resp p)) }

def Qp.readRespRetryJiffies (q : Qp) : Nat :=
  if q.sq.cfg.timeout = 0 then 0
  else min (if q.respRetryJiffies = 0 then 1 else q.respRetryJiffies) q.sq.cfg.timeout

def Qp.queueReadResp (q : Qp) (p : Nat) : Qp :=
  { q with pendingReadResps := q.pendingReadResps ++ [p] }.modResp p fun x =>
    { x with queuedJiffies := 0 }

def Qp.armReadRespTimeout (q : Qp) (p : Nat) : Qp :=
  if p ∈ q.pendingReadResps ∧ (q.resp p).queuedJiffies = 0 then
    (q.modResp p fun x => { x with queuedJiffies := q.sq.jiffies }).scheduleTimeout
  else q

def Qp.noteReadRespSent (q : Qp) (p : Nat) : Qp :=
  if p ∈ q.pendingReadResps ∧ (q.resp p).closing = false then
    (q.modResp p fun x =>
      { x with responseSent := true, queuedJiffies := q.sq.jiffies }).scheduleTimeout
  else q

def Qp.matchResp (q : Qp) (psn : Nat) : Option Nat :=
  q.pendingReadResps.find? fun p => (q.resp p).psn == psn

def Qp.takeReadResp (q : Qp) (psn : Nat) : Qp :=
  match q.matchResp psn with
  | none => q
  | some p =>
      { q with pendingReadResps := q.pendingReadResps.erase p }.modResp p fun x =>
        { x with closing := true }

/-- `tbv_qp_retry_read_resp`: the entry is made to look overdue. -/
def Qp.retryReadResp (q : Qp) (psn : Nat) : Qp :=
  match q.matchResp psn with
  | none => q
  | some p =>
      if (q.resp p).closing then q
      else
        (q.modResp p fun x =>
          { x with queuedJiffies :=
              if q.readRespRetryJiffies = 0 then 1
              else q.sq.jiffies - q.readRespRetryJiffies }).scheduleTimeoutNow

def Qp.cancelReadResps (q : Qp) : Qp :=
  { q with
    pendingReadResps := []
    resp := fun p =>
      if p ∈ q.pendingReadResps then { q.resp p with closing := true } else q.resp p }

structure RespReap where
  resp : Nat → RespCtx
  kept : List Nat := []
  retry : List Nat := []
  drop : List Nat := []
  needResched : Bool := false

/-- One round of the loop of `tbv_qp_timeout_reap_read_resps`. -/
def reapResp (q : Qp) (now : Nat) (r : RespReap) (p : Nat) : RespReap :=
  let x := r.resp p
  if !entryExpired x.queuedJiffies now q.readRespRetryJiffies || x.retrying then
    { r with kept := r.kept ++ [p], needResched := true }
  else if readRespMaxRetries ≤ x.retries ∨ q.sq.live = false then
    { r with
      resp := Function.update r.resp p { x with closing := true }
      drop := r.drop ++ [p] }
  else
    { r with
      resp := Function.update r.resp p { x with retrying := true, queuedJiffies := now }
      kept := r.kept ++ [p]
      retry := r.retry ++ [p]
      needResched := true }

def Qp.reapReadResps (q : Qp) (now : Nat) : RespReap :=
  q.pendingReadResps.foldl (reapResp q now) { resp := q.resp }

/-- What the worker notes once it has sent a response again. -/
def RespCtx.resent (x : RespCtx) (wasSent : Bool) (ret : Int) (jiffies : Nat) : RespCtx :=
  let x := if x.closing then x
    else if ret = 0 then
      { x with
        retries := if wasSent then min (x.retries + 1) 255 else x.retries
        responseSent := true
        queuedJiffies := jiffies }
    else if ret ≠ SendQueue.enomem then
      { x with retries := min (x.retries + 1) 255, queuedJiffies := jiffies }
    else { x with queuedJiffies := jiffies }
  { x with retrying := false }

/-! ## Frames -/

/-- Where `tbv_read_req_workfn` stands. -/
inductive ReqStage where
  | queue | send | sent | arm
  | take
  deriving DecidableEq, Repr

inductive Frame where
  | sq (frame : SendQueue.Frame)
  /-- `tbv_qp_schedule_timeout`, called from a receive handler under `rx_lock`; `idle` says that
  the handler found nothing active and nothing buffered. -/
  | schedule (idle : Bool)
  | rxHandle (hdr : Header) (payload : List UInt8)
  | rxPost (wqe : RecvQueue.RecvWqe)
  | rxAdvertise
  | rxDrain
  | readReq (p : Nat) (stage : ReqStage)
  | retryReadResp (psn : Nat)
  | takeReadResp (psn : Nat)
  | reapResps (now : Nat) (w : Worker)
  /-- `tbv_qp_mark_error` of a worker that found a send or a READ timed out. -/
  | timedOut
  | retryResps (needResched : Bool)
  | resend (p : Nat) (wasSent needResched : Bool)
  | resent (p : Nat) (wasSent : Bool) (ret : Int) (needResched : Bool)
  | dropResps (needResched : Bool)
  | reapRx (needResched : Bool)
  | final (needResched : Bool)
  | cancelResps
  | flushRx
  deriving DecidableEq, Repr

/-- What is left to the environment at a frame. -/
inductive Choice where
  | sq (choice : SendQueue.Choice)
  /-- What a receive handler asks the rest of the kernel. -/
  | rx (env : Env)
  | reap (env : Env) (overdue : Overdue)
  /-- The result of `tbv_send_read_response_ctx`. -/
  | sent (ret : Int)

abbrev Outcome := Option (Qp × List Frame)

/-- The entries a section of the receive side adds to its log. -/
def fresh (rx rx' : Rx) : List RecvQueue.Entry := rx'.log.drop rx.log.length

/-- The calls of `tbv_qp_retry_read_resp` among them. -/
def retried (entries : List RecvQueue.Entry) : List Frame :=
  entries.filterMap fun
    | .retryReadResp psn => some (.retryReadResp psn)
    | _ => none

/-- The calls of `tbv_rx_queue_rdma_read_req_work` among them. -/
def requested (entries : List RecvQueue.Entry) : List Nat :=
  entries.filterMap fun
    | .readReq psn => some psn
    | _ => none

/-- A section of the receive side, which may queue READ requests. -/
def Qp.setRx (q : Qp) (rx : Rx) : Qp :=
  { q with rx := rx, reqWorks := q.reqWorks ++ requested (fresh q.rx rx) }

/-- `tbv_qp_mark_error`, then `tbv_qp_flush_error`. -/
def markError (q : Qp) : Outcome :=
  if q.sq.live then
    some ({ q with sq := { q.sq with state := .err }, rx := { q.rx with state := .err } },
      [.sq .flushSends, .sq .flushReads, .cancelResps, .flushRx])
  else some (q, [])

/-- Whether an acknowledgement replaces the delay of the work: an RNR wait that has a timer or
a credit. -/
def rnrReplaces (sq : SendQueue.Qp) (psn : Nat) : Bool :=
  match sq.matchPsn psn with
  | none => false
  | some c =>
      sq.live && !(sq.ctx c).rnrRetryExhausted &&
        !((sq.ctx c).rnrWaitsForRecvCredit && sq.remoteRecvCredits == 0)

def replaces (sq : SendQueue.Qp) : SendQueue.Frame → Bool
  | .ackHandle psn .rnr => rnrReplaces sq psn
  | _ => false

/-- The frames of the send queue.  The worker's stages are taken apart where READ responses
and the receive side come in. -/
def execSq (q : Qp) (choice : SendQueue.Choice) : SendQueue.Frame → Outcome
  | .worker (.reap now) =>
      match SendQueue.exec q.sq (.worker (.reap now)) choice with
      | some (sq, [.worker (.retryNext w)]) =>
          some (q.withSq sq false,
            if w.txTimedOut then [.sq (.worker (.retryNext w))] else [.reapResps now w])
      | _ => none
  | .worker (.afterRetry w) =>
      some (q, (if w.txTimedOut then [.timedOut] else []) ++ [.sq (.worker (.finishSends w))])
  | .worker (.done needResched) => some (q, [.retryResps needResched])
  | .markError => markError q
  | frame =>
      (SendQueue.exec q.sq frame choice).map fun out =>
        (q.withSq out.1 (replaces q.sq frame), out.2.map .sq)

/-- `tbv_read_req_workfn`, once the response is allocated. -/
def execReq (q : Qp) (p : Nat) (choice : Choice) : ReqStage → Outcome
  | .queue => some (q.queueReadResp p, [.readReq p .send])
  | .send =>
      match choice with
      | .sent ret =>
          some (q, [.readReq p
            (if ret = 0 then .sent else if ret = SendQueue.enomem then .arm else .take)])
      | _ => none
  | .sent => some (q.noteReadRespSent p, [])
  | .arm => some (q.armReadRespTimeout p, [])
  | .take => some (q.takeReadResp (q.resp p).psn, [])

def exec (q : Qp) (frame : Frame) (choice : Choice) : Outcome :=
  match frame with
  | .sq frame =>
      match choice with
      | .sq choice => execSq q choice frame
      | _ => none
  | .schedule _ => some ({ q.scheduleTimeout with rxLocked := false }, [])
  | .rxHandle hdr payload =>
      match choice with
      | .rx env =>
          let out := handle q.rx env hdr payload
          if q.rxLocked then none
          else some ({ q.setRx out.1 with rxLocked := out.2 },
            (if out.2 then [.schedule (!busy q.rx)] else []) ++ retried (fresh q.rx out.1))
      | _ => none
  | .rxPost wqe => some (q.setRx (q.rx.postOne wqe).1, [])
  | .rxAdvertise =>
      match choice with
      | .rx env => some (q.setRx (q.rx.advertiseRecvCredits env), [])
      | _ => none
  | .rxDrain =>
      match choice with
      | .rx env =>
          if q.rxLocked then none
          else some (q.setRx (q.rx.drainReorder env),
            retried (fresh q.rx (q.rx.drainReorder env)))
      | _ => none
  | .readReq p stage => execReq q p choice stage
  | .retryReadResp psn => some (q.retryReadResp psn, [])
  | .takeReadResp psn => some (q.takeReadResp psn, [])
  -- the rest of `tbv_qp_timeout_work`
  | .reapResps now w =>
      let reap := q.reapReadResps now
      some ({ q with
          resp := reap.resp
          pendingReadResps := reap.kept
          retryResps := reap.retry
          dropResps := reap.drop },
        [.sq (.worker (.retryNext { w with needResched := w.needResched || reap.needResched }))])
  | .timedOut => markError q
  | .retryResps needResched =>
      match q.retryResps with
      | [] => some (q, [.dropResps needResched])
      | p :: rest =>
          some ({ q with retryResps := rest },
            [if (q.resp p).closing then .resent p (q.resp p).responseSent 0 needResched
              else .resend p (q.resp p).responseSent needResched])
  | .resend p wasSent needResched =>
      match choice with
      | .sent ret => some (q, [.resent p wasSent ret needResched])
      | _ => none
  | .resent p wasSent ret needResched =>
      some (q.modResp p fun x => x.resent wasSent ret q.sq.jiffies,
        [.retryResps (needResched || !(q.resp p).closing)])
  | .dropResps needResched =>
      some ({ q with dropResps := [] },
        (if q.dropResps.isEmpty then [] else [.sq .markError]) ++ [.reapRx needResched])
  | .reapRx needResched =>
      match choice with
      | .reap env overdue =>
          let out := reapRx q.rx env overdue
          if q.rxLocked then none
          else some (q.setRx out.1,
            retried (fresh q.rx out.1) ++ (if out.2 then [.sq .markError] else []) ++
              [.final (needResched || busy out.1)])
      | _ => none
  | .final needResched =>
      let q := { q with sq := { q.sq with timeoutRunning := false } }
      some (if needResched then q.scheduleTimeout else q, [])
  -- the rest of `tbv_qp_flush_error`
  | .cancelResps => some (q.cancelReadResps, [])
  | .flushRx =>
      match choice with
      | .rx env =>
          if q.rxLocked then none
          else some (q.setRx (q.rx.flushError env), retried (fresh q.rx (q.rx.flushError env)))
      | _ => none

inductive Event where
  | sq (event : SendQueue.Event)
  | timeoutWork
  | rxFrame (hdr : Header) (payload : List UInt8)
  | postRecv (wqe : RecvQueue.RecvWqe)
  /-- A READ acknowledgement, which may ask for the response again. -/
  | readAck (psn : Nat) (retry : Bool)
  /-- `tbv_read_req_workfn` runs; it answers with a status where it finds no MR or memory. -/
  | readReqWork (psn : Nat) (responds : Bool)
  deriving DecidableEq, Repr

def react (q : Qp) : Event → Outcome
  | .sq event =>
      match event with
      | .timeoutWork | .close | .stopProducers => none
      | .recvCredit credits =>
          (SendQueue.react q.sq (.recvCredit credits)).map fun out =>
            (q.withSq out.1 true, out.2.map .sq)
      | event =>
          (SendQueue.react q.sq event).map fun out => (q.withSq out.1 false, out.2.map .sq)
  | .timeoutWork =>
      if q.workQueued && !q.sq.timeoutRunning then
        some ({ q with workQueued := false, sq := { q.sq with timeoutRunning := true } },
          [.sq (.worker .start)])
      else none
  | .rxFrame hdr payload => some (q, if q.rx.validEndpoint hdr then [.rxHandle hdr payload] else [])
  | .postRecv wqe => some (q, [.rxPost wqe, .rxAdvertise, .rxDrain])
  | .readAck psn retry =>
      some (q, if q.sq.live then [if retry then .retryReadResp psn else .takeReadResp psn] else [])
  | .readReqWork psn responds =>
      if psn ∈ q.reqWorks then
        if responds then
          some ({ q with
              reqWorks := q.reqWorks.erase psn
              nextResp := q.nextResp + 1
              resp := Function.update q.resp q.nextResp { psn := psn } },
            [.readReq q.nextResp .queue])
        else some ({ q with reqWorks := q.reqWorks.erase psn }, [])
      else none

abbrev St := Threads.State Qp Frame
abbrev Lbl := Threads.Label Event Choice

def step : St → Lbl → Option St := Threads.step react exec

/-- A connected QP that nothing has been posted to. -/
def start (cfg : SendQueue.QpConfig) (memory : Nat → UInt8) (rxCfg : RecvQueue.RxConfig)
    (attrs : RecvQueue.Attrs) (respRetryJiffies : Nat) : St :=
  ⟨{ sq := SendQueue.Qp.fresh cfg memory
     rx := (Rx.created rxCfg).setAttrs attrs
     respRetryJiffies := respRetryJiffies }, []⟩

end Tbv.Timer
