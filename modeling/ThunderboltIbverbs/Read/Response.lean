import ThunderboltIbverbs.Read.Reassembly

/-! # The responder of a read

The context of one response from its first transmission on: acknowledgements take it
off the list or back-date it, and the timeout worker resends or drops it.  One turn of
`tbv_qp_timeout_work` is four steps, since acknowledgements arrive between its lock
sections.  The other end is the requester, the frames and acknowledgements between
the two are delivered in any order. -/
set_option autoImplicit false
namespace Tbv.ReadQueue

open Tbv.NativeData
open Trans

def readRespMaxRetries : Nat := 3

/-- `struct tbv_read_resp_ctx`; `listed` is whether it is on `pending_read_resps`. -/
structure RespCtx where
  queuedJiffies : Int := 0
  retries : Nat := 0
  responseSent : Bool := false
  retrying : Bool := false
  closing : Bool := false
  listed : Bool := true
  deriving DecidableEq, Repr

/-- `tbv_read_resp_retry_jiffies`; `retryJiffies` is `TBV_READ_RESP_RETRY_MS`. -/
def readRespRetryJiffies (retryJiffies qpTimeout : Nat) : Nat :=
  if qpTimeout = 0 then 0 else min (if retryJiffies = 0 then 1 else retryJiffies) qpTimeout

def entryExpired (queued now : Int) (timeout : Nat) : Bool :=
  timeout ≠ 0 && queued ≠ 0 && decide (queued + timeout ≤ now)

/-- `tbv_qp_note_read_resp_sent`. -/
def RespCtx.noteSent (ctx : RespCtx) (now : Int) : RespCtx :=
  if ctx.listed && !ctx.closing then { ctx with responseSent := true, queuedJiffies := now }
  else ctx

/-- `tbv_qp_take_read_resp`. -/
def RespCtx.take (ctx : RespCtx) : RespCtx :=
  if ctx.listed then { ctx with listed := false, closing := true } else ctx

/-- `tbv_qp_retry_read_resp`. -/
def RespCtx.retry (ctx : RespCtx) (now : Int) (timeout : Nat) : RespCtx :=
  if ctx.listed && !ctx.closing then
    { ctx with queuedJiffies := if timeout ≠ 0 then now - timeout else 1 }
  else ctx

/-- The fate of the context in `tbv_qp_timeout_reap_read_resps`. -/
inductive Reaped where
  | left | retry | drop
  deriving DecidableEq, Repr

/-- `tbv_qp_timeout_reap_read_resps`, for the one context. -/
def RespCtx.reap (ctx : RespCtx) (now : Int) (timeout : Nat) : RespCtx × Reaped :=
  if !ctx.listed || !entryExpired ctx.queuedJiffies now timeout || ctx.retrying then (ctx, .left)
  else if readRespMaxRetries ≤ ctx.retries then
    ({ ctx with listed := false, closing := true }, .drop)
  else ({ ctx with retrying := true, queuedJiffies := now }, .retry)

/-- The last section of the worker for a context it has retried. -/
def RespCtx.resent (ctx : RespCtx) (now : Int) (wasSent : Bool) : RespCtx :=
  if ctx.closing then { ctx with retrying := false }
  else
    { ctx with
      retries := if wasSent && decide (ctx.retries < 255) then ctx.retries + 1 else ctx.retries
      responseSent := true
      queuedJiffies := now
      retrying := false }

/-- Where the timeout worker stands with the context. -/
inductive WorkStage where
  | idle
  | toRetry
  | checked (closing wasSent : Bool)
  | sent (wasSent : Bool)
  deriving DecidableEq, Repr

/-- One READ whose response loses one fragment of its first transmission. -/
structure LostFragment where
  read : PostedRead
  lost : Nat
  inside : lost < responseCount read.total
  qpTimeout : Nat
  retryJiffies : Nat

def LostFragment.reads (link : LostFragment) : PostedReads := ⟨[link.read], by simp⟩

def LostFragment.timeout (link : LostFragment) : Nat :=
  readRespRetryJiffies link.retryJiffies link.qpTimeout

/-- Both ends of the READ.  `data` holds the fragments in flight by their index and
`acks` the acknowledgements; `transmissions` counts the responses sent and `dropped`
records that the context was put on the drop list. -/
structure Exchange where
  now : Int
  requester : Requester
  ctx : RespCtx := {}
  noted : Bool := false
  work : WorkStage := .idle
  data : List Nat := []
  acks : List ReadAckStatus := []
  transmissions : Nat := 0
  dropped : Bool := false
  deriving DecidableEq

inductive ExchangeEvent where
  /-- Time passes. -/
  | tick (jiffies : Nat)
  /-- `tbv_read_req_workfn` notes that the first transmission is out. -/
  | note
  /-- A fragment reaches `tbv_rx_handle_rdma_read_resp`. -/
  | deliver (index : Nat)
  /-- An acknowledgement reaches the responder. -/
  | ack (index : Nat)
  /-- The worker looks at the list, with the time it read `late` jiffies ago. -/
  | reap (late : Nat)
  | check
  | send
  | finish
  deriving DecidableEq

/-- The state after `tbv_read_req_workfn` has queued the context and sent the
response, all but the lost fragment of which is in flight. -/
def LostFragment.start (link : LostFragment) (now : Int) : Exchange :=
  { now, requester := link.reads.start
    data := (List.range (responseCount link.read.total)).filter (· ≠ link.lost)
    transmissions := 1 }

/-- The context is on the list and the worker would find it expired. -/
def LostFragment.expired (link : LostFragment) (s : Exchange) (late : Nat) : Bool :=
  s.ctx.listed && entryExpired s.ctx.queuedJiffies (s.now - late) link.timeout

def LostFragment.step (link : LostFragment) (s : Exchange) : ExchangeEvent → Option Exchange
  | .tick jiffies => some { s with now := s.now + jiffies }
  | .note => if s.noted then none else some { s with noted := true, ctx := s.ctx.noteSent s.now }
  | .deliver index =>
      match s.data[index]? with
      | none => none
      | some frag =>
          (link.reads.step s.requester ⟨0, frag, true⟩).map fun next =>
            { s with
              requester := next
              data := s.data.eraseIdx index
              acks := s.acks ++ (next.acks.drop s.requester.acks.length).map Prod.snd }
  | .ack index =>
      match s.acks[index]? with
      | none => none
      | some status =>
          some { s with
            acks := s.acks.eraseIdx index
            ctx := if status = .retry then s.ctx.retry s.now link.timeout else s.ctx.take }
  | .reap late =>
      -- without a timeout the worker returns at once
      if s.work ≠ .idle ∨ link.qpTimeout = 0 then none
      else
        match s.ctx.reap (s.now - late) link.timeout with
        | (ctx, .left) => some { s with ctx }
        | (ctx, .retry) => some { s with ctx, work := .toRetry }
        | (ctx, .drop) => some { s with ctx, dropped := true }
  | .check =>
      if s.work ≠ .toRetry then none
      else some { s with work := .checked s.ctx.closing s.ctx.responseSent }
  | .send =>
      match s.work with
      | .checked true wasSent => some { s with work := .sent wasSent }
      | .checked false wasSent =>
          some { s with
            work := .sent wasSent
            data := s.data ++ List.range (responseCount link.read.total)
            transmissions := s.transmissions + 1 }
      | _ => none
  | .finish =>
      match s.work with
      | .sent wasSent => some { s with work := .idle, ctx := s.ctx.resent s.now wasSent }
      | _ => none

end Tbv.ReadQueue
