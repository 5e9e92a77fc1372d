import ThunderboltIbverbs.Lib.Run
import ThunderboltIbverbs.Lib.Threads

/-! # The send queue of an Apple QP

`kernel/ibdev.c`, `proto/apple_tx.h`.  Posts, the SQ worker, TX-done callbacks, the timeout
worker and the flush of a QP, each cut at its lock sections; any number of threads interleave.
The two window counters are atomics that only the acquiring section changes under the lock. -/
set_option autoImplicit false
namespace Tbv.Sq

def ecanceled : Int := -125
def etimedout : Int := -110
def enotconn : Int := -107
def emsgsize : Int := -90
def enomem : Int := -12

def appleFrameSize : Nat := 4096
def rawDescsPerChunk : Nat := 17
def ucWireMaxRetries : Nat := 7
def psnMask : Nat := 2 ^ 24 - 1

inductive QpState where
  | reset | init | rtr | rts | sqd | sqe | err
  deriving DecidableEq, Repr

def QpState.usesTransport : QpState → Bool
  | .rtr | .rts | .sqd | .sqe => true
  | _ => false

/-! ## The window knobs -/

structure Knobs where
  maxInflightWr : Nat := 4
  maxInflightFrames : Nat := 4
  groupFrames : Nat := 0
  budgetFrames : Nat := 0
  pipeline : Bool := false
  rawMode : Bool := false
  deriving DecidableEq, Repr

def Knobs.group (k : Knobs) : Nat := if k.groupFrames ≠ 0 then k.groupFrames else k.maxInflightFrames

def Knobs.budget (k : Knobs) : Nat :=
  if k.budgetFrames ≠ 0 then k.budgetFrames else k.maxInflightFrames

def Knobs.exclusive (k : Knobs) (frames : Nat) : Bool := !k.pipeline && decide (0 < frames)

def frameCharge (frames maxFrames : Nat) : Nat := if maxFrames = 0 then 0 else min frames maxFrames

/-- The cast of an unsigned knob to `int`. -/
def toInt32 (n : Nat) : Int := if n < 2 ^ 31 then n else (n : Int) - 2 ^ 32

def windowOk (curWr curFrames : Int) (exclusive : Bool) (maxWr maxFrames frameCharge : Nat) : Bool :=
  if curWr < 0 ∨ curFrames < 0 then false
  else if exclusive && (curWr != 0 || curFrames != 0) then false
  else if !exclusive && maxWr != 0 && decide (toInt32 maxWr ≤ curWr) then false
  else if maxFrames ≠ 0 ∧ maxFrames < (curFrames.toNat + frameCharge) % 2 ^ 32 then false
  else true

/-- `pending_descs` of a message, or the error of `tbv_apple_raw_desc_count`. -/
def Knobs.descCount (k : Knobs) (length : Nat) : Option Nat :=
  if k.rawMode then
    if length = 0 ∨ length % appleFrameSize ≠ 0 then none
    else if (2 ^ 32 - 1) / rawDescsPerChunk < length / appleFrameSize then none
    else some (length / appleFrameSize * rawDescsPerChunk)
  else some ((length + appleFrameSize - 1) / appleFrameSize)

/-! ## The QP -/

/-- `struct tbv_send_ctx` with its queue entry.  Its number stands for its address: a context
is never used again for another work request. -/
structure SendCtx where
  length : Nat := 0
  signaled : Bool := false
  psn : Nat := 0
  slotCounted : Bool := false
  pending : Bool := false
  queued : Bool := false
  retrying : Bool := false
  retries : Nat := 0
  ready : Bool := false
  completionStatus : Int := 0
  txPending : Nat := 0
  applePending : Int := 0
  completed : Bool := false
  windowAcquired : Bool := false
  windowWrAcquired : Bool := false
  windowFrames : Nat := 0
  deriving DecidableEq, Repr

/-- A unit of the window, with the send that acquired it. -/
inductive Charge where
  | wr (send : Nat)
  | frames (send count : Nat)
  deriving DecidableEq, Repr

def Charge.send : Charge → Nat
  | .wr send => send
  | .frames send _ => send

/-- `onPath` are the frames handed to the path whose callback has not run, by send, and
`delayed` the completion works that wait for their delay.  The last two fields are history:
what was acquired and not released, and the completions pushed. -/
structure Qp where
  knobs : Knobs
  maxSendWr : Nat
  state : QpState := .reset
  closing : Bool := false
  sendPsn : Nat := 0
  sends : Nat → SendCtx := fun _ => {}
  posted : Nat := 0
  slots : Nat := 0
  pendingSends : List Nat := []
  appleSq : List Nat := []
  txInflight : Int := 0
  txInflightFrames : Int := 0
  onPath : List Nat := []
  delayed : List Nat := []
  ledger : List Charge := []
  completions : List (Nat × Int) := []

def Qp.modCtx (q : Qp) (s : Nat) (change : SendCtx → SendCtx) : Qp :=
  { q with sends := Function.update q.sends s (change (q.sends s)) }

def Qp.stopping (q : Qp) : Bool := q.closing || !q.state.usesTransport

/-- The units an acquisition takes. -/
def charges (s : Nat) (wr : Bool) (frames : Nat) : List Charge :=
  (if wr then [.wr s] else []) ++ if frames ≠ 0 then [.frames s frames] else []

def Qp.acquire (q : Qp) (s : Nat) (wr : Bool) (frames : Nat) : Qp :=
  { q with
    txInflight := if wr then q.txInflight + 1 else q.txInflight
    txInflightFrames := q.txInflightFrames + frames
    ledger := q.ledger ++ charges s wr frames }

/-- The first half of `tbv_qp_release_apple_tx_window`. -/
def Qp.releaseWr (q : Qp) (s : Nat) (wr : Bool) : Qp :=
  if wr then { q with txInflight := q.txInflight - 1, ledger := q.ledger.erase (.wr s) } else q

def Qp.releaseFrames (q : Qp) (s frames : Nat) : Qp :=
  if frames ≠ 0 then
    { q with
      txInflightFrames := q.txInflightFrames - frames
      ledger := q.ledger.erase (.frames s frames) }
  else q

/-! ## The pending list -/

def SendCtx.off (c : SendCtx) : SendCtx := { c with pending := false, retrying := false }

def Qp.takeOff (q : Qp) (gone : List Nat) : Qp :=
  { q with sends := fun s => if s ∈ gone then (q.sends s).off else q.sends s }

/-- `tbv_qp_unqueue_send`: the QP and whether the send was on the list. -/
def Qp.unqueueSend (q : Qp) (s : Nat) : Qp × Bool :=
  if s ∈ q.pendingSends then
    ({ q with pendingSends := q.pendingSends.erase s }.takeOff [s], true)
  else (q, false)

/-- `tbv_qp_drain_ready_sends_locked`: the QP and the sends it hands over. -/
def Qp.drainReady (q : Qp) : Qp × List Nat :=
  let gone := q.pendingSends.takeWhile fun s => (q.sends s).ready
  ({ q with pendingSends := q.pendingSends.drop gone.length }.takeOff gone, gone)

def SendCtx.markReady (c : SendCtx) (status : Int) : SendCtx :=
  if c.ready then c else { c with ready := true, completionStatus := status, retrying := false }

def Qp.completeSendOrdered (q : Qp) (psn : Nat) (status : Int) : Qp × List Nat :=
  match q.pendingSends.find? fun s => (q.sends s).psn == psn with
  | none => (q, [])
  | some s => (q.modCtx s fun c => c.markReady status).drainReady

def Qp.flushSends (q : Qp) : Qp × List Nat :=
  let gone := q.pendingSends
  ({ q with
      pendingSends := []
      sends := fun s => if s ∈ gone then ((q.sends s).markReady ecanceled).off else q.sends s },
    gone)

/-- What `tbv_qp_timeout_reap_tx` has collected so far. -/
structure Reaped where
  qp : Qp
  retry : List Nat := []
  failed : Bool := false
  gone : List Nat := []

/-- One send of `tbv_qp_timeout_reap_tx`: an expired one is retried on the wire while it may
be, and failed otherwise.  An Apple send is not retryable and has no wire ACK. -/
def Reaped.send (expired : List Nat) (r : Reaped) (s : Nat) : Reaped :=
  let c := r.qp.sends s
  if !r.qp.pendingSends.contains s || c.ready || !c.queued || !expired.contains s then r
  else if !c.retrying && c.txPending == 0 && decide (c.retries < ucWireMaxRetries) &&
      !r.qp.closing && r.qp.state != .err then
    { r with qp := r.qp.modCtx s fun c => { c with retrying := true }, retry := r.retry ++ [s] }
  else
    let drained := (r.qp.modCtx s fun c => c.markReady etimedout).drainReady
    { r with qp := drained.1, failed := true, gone := r.gone ++ drained.2 }

def Qp.reapTx (q : Qp) (expired : List Nat) : Reaped :=
  q.pendingSends.foldl (Reaped.send expired) { qp := q }

/-! ## Threads -/

inductive Frame where
  -- `tbv_post_apple_send`
  | reserveSlot (length : Nat) (signaled : Bool)
  | takePsn (s : Nat)
  | queueSend (s : Nat)
  | queueEntry (s : Nat)
  -- `tbv_apple_sq_work`, `tbv_apple_sq_transmit`, `tbv_apple_sq_get_tx_resources`
  | pop
  | transmit (s : Nat)
  | lookup (s : Nat)
  | findPath (s : Nat)
  | tryAcquire (s : Nat)
  | reserve (s : Nat) (wr : Bool) (frames : Nat)
  | giveBack (s : Nat) (wr : Bool) (frames : Nat) (ret : Int)
  | giveBackFrames (s frames : Nat) (ret : Int)
  | mark (s : Nat) (wr : Bool) (frames : Nat)
  | arm (s : Nat)
  | nextChunk (s chunks posted group : Nat)
  | post (s pieces chunks posted group : Nat)
  | waitGroup (s chunks posted : Nat)
  | transmitFailed (s : Nat) (ret : Int)
  -- `tbv_send_complete`
  | complete (s : Nat) (status : Int)
  | releaseSlot (s : Nat)
  | releaseWindow (s : Nat)
  | releaseFrames (s frames : Nat)
  | pushWc (s : Nat) (status : Int)
  -- `tbv_apple_send_tx_done`, `tbv_apple_complete_ordered_sends`, `tbv_send_tx_done`
  | appleTxDone (s : Nat) (status : Int)
  | completeOrdered (psn : Nat) (status : Int) (delays : Bool)
  | completeSends (sends : List Nat)
  | sendTxDone (s : Nat) (status : Int)
  -- `tbv_qp_timeout_work`
  | reap (expired : List Nat)
  | retry (sends : List Nat) (failed : Bool) (gone : List Nat)
  | retryPosted (s : Nat) (sends : List Nat) (failed : Bool) (gone : List Nat)
  | completeStatus (s : Nat)
  -- `tbv_qp_mark_error`, `tbv_qp_flush_error`
  | markError
  | flushSq
  | flushEntry (s : Nat)
  | flushSends
  deriving DecidableEq, Repr

/-- What a call out of the send queue returns: a path lookup, a reservation, a submission;
or whether `apple_tx_completion_delay_us` is set. -/
abbrev Choice := Int

abbrev Outcome := Option (Qp × List Frame)

def flush : List Frame := [.flushSq, .flushSends]

/-- `tbv_qp_try_acquire_apple_tx_window` in the loop of `tbv_qp_wait_apple_tx_window`. -/
def execTryAcquire (q : Qp) (s : Nat) : Outcome :=
  let frames := (q.knobs.descCount (q.sends s).length).getD 0
  let charge := frameCharge frames q.knobs.group
  let exclusive := q.knobs.exclusive frames
  let wr := q.knobs.maxInflightWr != 0 || exclusive
  if !exclusive && q.knobs.maxInflightWr == 0 && q.knobs.budget == 0 then
    some (q, [.reserve s false 0])
  else if q.stopping then some (q, [.transmitFailed s ecanceled])
  else if windowOk q.txInflight q.txInflightFrames exclusive q.knobs.maxInflightWr q.knobs.budget
      charge then
    some (q.acquire s wr charge, [.reserve s wr charge])
  else some (q, [.tryAcquire s])

/-- The context becomes the holder of what its worker acquired. -/
def Qp.markHolder (q : Qp) (s : Nat) (wr : Bool) (frames : Nat) : Qp :=
  q.modCtx s fun c => { c with
    windowWrAcquired := wr
    windowFrames := frames
    windowAcquired := wr || frames != 0
    applePending := (q.knobs.descCount c.length).getD 0 }

/-- After a frame, or the pieces of one, went to the path. -/
def nextAfter (q : Qp) (s chunks posted group : Nat) : Frame :=
  if q.knobs.group ≠ 0 ∧ q.knobs.group ≤ group ∧ 0 < chunks then .waitGroup s chunks posted
  else .nextChunk s chunks posted group

def Qp.piecesPerChunk (q : Qp) : Nat := if q.knobs.rawMode then rawDescsPerChunk else 1

def execPost (q : Qp) (s pieces chunks posted group : Nat) (ret : Choice) : Outcome :=
  if ret ≠ 0 then some (q, [.transmitFailed s ret])
  else
    let q := { q with onPath := q.onPath ++ [s] }
    if 1 < pieces then some (q, [.post s (pieces - 1) chunks (posted + 1) group])
    else some (q, [nextAfter q s (chunks - 1) (posted + 1) (group + 1)])

/-- `tbv_apple_sq_wait_frame_group`. -/
def execWaitGroup (q : Qp) (s chunks posted : Nat) : Outcome :=
  let c := q.sends s
  if c.applePending ≤ ((q.knobs.descCount c.length).getD 0 : Int) - posted then
    some (q, [.nextChunk s chunks posted 0])
  else if c.completed || q.stopping then some (q, [.transmitFailed s ecanceled])
  else none

/-- The window section of `tbv_send_complete`.  Nobody else reads the mark, so it is cleared
with the first atomic. -/
def execReleaseWindow (q : Qp) (s : Nat) : Outcome :=
  let c := q.sends s
  if c.windowAcquired then
    some ((q.releaseWr s c.windowWrAcquired).modCtx s fun c => { c with windowAcquired := false },
      [.releaseFrames s c.windowFrames])
  else some (q, [])

/-- The section after a retransmission attempt of the timeout worker. -/
def execRetryPosted (q : Qp) (s : Nat) (sends : List Nat) (failed : Bool) (gone : List Nat)
    (ret : Choice) : Outcome :=
  let q := if ret = 0 then q.modCtx s fun c => { c with txPending := c.txPending + 1 } else q
  if (q.sends s).pending && !q.closing && q.state != .err then
    if ret = 0 then
      some (q.modCtx s fun c => { c with queued := true, retries := c.retries + 1 },
        [.retry sends failed gone])
    else if ret = enomem then
      some (q.modCtx s fun c => { c with queued := true, retrying := false },
        [.retry sends failed gone])
    else if ret = enotconn then
      some (q.modCtx s fun c => { c with
        queued := true, retrying := false, retries := c.retries + 1 }, [.retry sends failed gone])
    else
      let drained := (q.modCtx s fun c => c.markReady etimedout).drainReady
      some (drained.1, [.retry sends true (gone ++ drained.2)])
  else some (q.modCtx s fun c => { c with retrying := false }, [.retry sends failed gone])

def exec (q : Qp) (frame : Frame) (choice : Choice) : Outcome :=
  match frame with
  | .reserveSlot length signaled =>
      if q.closing || q.state == .err then some (q, [])
      else if max q.maxSendWr 1 ≤ q.slots then some (q, [])
      else
        some ({ q with
          posted := q.posted + 1
          slots := q.slots + 1
          sends := Function.update q.sends q.posted { length, signaled, slotCounted := true } },
          [.takePsn q.posted])
  | .takePsn s =>
      some ({ q with sendPsn := (q.sendPsn &&& psnMask) + 1 &&& psnMask }.modCtx s
        (fun c => { c with psn := q.sendPsn &&& psnMask }), [.queueSend s])
  | .queueSend s =>
      some ({ q with pendingSends := q.pendingSends ++ [s] }.modCtx s
        (fun c => { c with queued := false, pending := true, retrying := false }), [.queueEntry s])
  | .queueEntry s => some ({ q with appleSq := q.appleSq ++ [s] }, [])
  | .pop =>
      match q.appleSq with
      | [] => some (q, [])
      | s :: rest => some ({ q with appleSq := rest }, [.transmit s, .pop])
  | .transmit s =>
      match q.knobs.descCount (q.sends s).length with
      | none => some (q, [.transmitFailed s emsgsize])
      | some _ => some (q, [.lookup s])
  | .lookup s => some (q, if q.stopping then [.transmitFailed s ecanceled] else [.findPath s])
  | .findPath s => some (q, if choice = 0 then [.tryAcquire s] else [.transmitFailed s enotconn])
  | .tryAcquire s => execTryAcquire q s
  | .reserve s wr frames =>
      some (q, if choice = 0 then [.mark s wr frames] else [.giveBack s wr frames choice])
  | .giveBack s wr frames ret => some (q.releaseWr s wr, [.giveBackFrames s frames ret])
  | .giveBackFrames s frames ret =>
      some (q.releaseFrames s frames,
        if ret = enomem then [.lookup s] else [.transmitFailed s ret])
  | .mark s wr frames =>
      let chunks := ((q.sends s).length + appleFrameSize - 1) / appleFrameSize
      some (q.markHolder s wr frames, [.arm s, .nextChunk s chunks 0 0])
  | .arm s =>
      some (if (q.sends s).pending then q.modCtx s fun c => { c with queued := true } else q, [])
  | .nextChunk s chunks posted group =>
      if chunks = 0 then some (q, [])
      else if q.stopping then some (q, [.transmitFailed s ecanceled])
      else some (q, [.post s q.piecesPerChunk chunks posted group])
  | .post s pieces chunks posted group => execPost q s pieces chunks posted group choice
  | .waitGroup s chunks posted => execWaitGroup q s chunks posted
  | .transmitFailed s ret =>
      some ((q.unqueueSend s).1, if (q.unqueueSend s).2 then [.complete s ret] else [])
  | .complete s status =>
      if (q.sends s).completed then some (q, [])
      else
        some (q.modCtx s fun c => { c with completed := true },
          [.releaseSlot s, .releaseWindow s, .pushWc s status])
  | .releaseSlot s =>
      if (q.sends s).slotCounted then
        some ({ q with slots := q.slots - 1 }.modCtx s fun c => { c with slotCounted := false }, [])
      else some (q, [])
  | .releaseWindow s => execReleaseWindow q s
  | .releaseFrames s frames => some (q.releaseFrames s frames, [])
  | .pushWc s status =>
      some (if (q.sends s).signaled then { q with completions := q.completions ++ [(s, status)] }
        else q, [])
  | .appleTxDone s status =>
      let left := (q.sends s).applePending - 1
      some (q.modCtx s fun c => { c with applePending := left },
        if status ≠ 0 ∨ left = 0 then [.completeOrdered (q.sends s).psn status true] else [])
  | .completeOrdered psn status delays =>
      let out := q.completeSendOrdered psn status
      some (out.1, if delays then [.completeSends out.2] else out.2.map .completeStatus)
  | .completeSends [] => some (q, [])
  | .completeSends (s :: rest) =>
      if (q.sends s).completionStatus = 0 ∧ choice ≠ 0 then
        some ({ q with delayed := q.delayed ++ [s] }, [.completeSends rest])
      else some (q, [.complete s (q.sends s).completionStatus, .completeSends rest])
  | .sendTxDone s status =>
      let drained := (q.sends s).txPending ≤ 1
      let q' := q.modCtx s fun c => { c with
        txPending := c.txPending - 1, retrying := c.retrying && !decide drained }
      some (q', if status = 0 then (if drained then [.complete s 0] else [])
        else [.completeOrdered (q.sends s).psn status false])
  | .reap expired =>
      let out := q.reapTx expired
      some (out.qp, [.retry out.retry out.failed out.gone])
  | .retry [] failed gone =>
      some (q, (if failed then [.markError] else []) ++ gone.map .completeStatus)
  | .retry (s :: rest) failed gone =>
      if (q.sends s).pending && !q.closing && q.state != .err && (q.sends s).txPending == 0 then
        some (q, [.retryPosted s rest failed gone])
      else some (q.modCtx s fun c => { c with retrying := false }, [.retry rest failed gone])
  | .retryPosted s rest failed gone => execRetryPosted q s rest failed gone choice
  | .completeStatus s => some (q, [.complete s (q.sends s).completionStatus])
  | .markError =>
      if !q.closing && q.state != .err then some ({ q with state := .err }, flush) else some (q, [])
  | .flushSq => some ({ q with appleSq := [] }, q.appleSq.map .flushEntry)
  | .flushEntry s =>
      some ((q.unqueueSend s).1, if (q.unqueueSend s).2 then [.complete s ecanceled] else [])
  | .flushSends => some (q.flushSends.1, q.flushSends.2.map .completeStatus)

/-- `modify`: a transition the core lets through, with a new PSN or not. -/
inductive Event where
  | postSend (length : Nat) (signaled : Bool)
  | sqWork
  | appleTxDone (place : Nat) (status : Int)
  | sendTxDone (s : Nat) (status : Int)
  | completeWork (place : Nat)
  | timeoutWork (expired : List Nat)
  | errorWork
  | modify (next : QpState) (sqPsn : Option Nat)
  | close
  deriving DecidableEq, Repr

def react (q : Qp) : Event → Outcome
  | .postSend length signaled =>
      if length = 0 ∨ 2 ^ 32 ≤ length then some (q, [])
      else if !q.closing && q.state == .rts then some (q, [.reserveSlot length signaled])
      else some (q, [])
  | .sqWork => some (q, [.pop])
  | .appleTxDone place status =>
      match q.onPath[place]? with
      | some s => some ({ q with onPath := q.onPath.eraseIdx place }, [.appleTxDone s status])
      | none => none
  | .sendTxDone s status =>
      if (q.sends s).txPending = 0 then none else some (q, [.sendTxDone s status])
  | .completeWork place =>
      match q.delayed[place]? with
      | some s => some ({ q with delayed := q.delayed.eraseIdx place }, [.complete s 0])
      | none => none
  | .timeoutWork expired => some (q, [.reap expired])
  | .errorWork => some (q, [.markError])
  | .modify next sqPsn =>
      some ({ q with state := next, sendPsn := (sqPsn.getD q.sendPsn) &&& psnMask },
        if (q.state != .err && next == .err) || (q.state.usesTransport && !next.usesTransport) then
          flush
        else [])
  | .close => some ({ q with closing := true }, flush)

abbrev St := Threads.State Qp Frame
abbrev Lbl := Threads.Label Event Choice

def step : St → Lbl → Option St := Threads.step react exec

def start (knobs : Knobs) (maxSendWr : Nat) : St := ⟨{ knobs, maxSendWr }, []⟩

end Tbv.Sq
