import ThunderboltIbverbs.Path.Model
import ThunderboltIbverbs.Rail.Model

/-! # The quiesce of an Apple rail, one section at a time

`tbv_apple_path_quiesce` sleeps between its sections and holds `quiesce_lock` only, so binds,
the worker of the QP, the scheduler and the ring run in between.  A packet is what retirement
sees of it: the queue it belongs to and, as history, the epoch of its enqueue.  There is one
Apple QPN, so there is one Apple QP at a time; it keeps the QPN until it is destroyed. -/
set_option autoImplicit false
namespace Tbv.AppleRail

open NativePath (enomem)

def eio : Int := -5
def enospc : Int := -28

def applePrimaryQpn : Nat := 0x900

structure Packet where
  epoch : Nat
  control : Bool
  deriving DecidableEq, Repr

inductive PathState where
  | new | ringAllocated | ringStarted | tunnelEnabled | stopped
  deriving DecidableEq, Repr

/-- How far `tbv_destroy_qp` has come with a QP.  When it is refused it is over, and may be called
again; `retired` is what its quiesce leaves when it succeeds. -/
inductive Destroy where
  | idle | running | retired
  deriving DecidableEq, Repr

/-- A QP and its `apple_sq_work`.  `transports` is `tbv_qp_state_uses_transport` of its state;
`path`: the work has looked up the path and not yet put it. -/
structure Sender where
  tqp : Qp
  closing : Bool := false
  transports : Bool := false
  path : Bool := false
  destroy : Destroy := .idle
  deriving DecidableEq, Repr

inductive Phase where
  | closeTx | markError | stopProducers | cancelQueued | drain | barrier | waitRefs | settle
  | reopen
  deriving DecidableEq, Repr

/-- The locals of `tbv_apple_path_quiesce`. -/
structure Quiesce where
  phase : Phase
  owner : Option Nat
  ownerRef : Bool
  wasQuarantined : Bool
  barrier : Bool := false
  restart : Bool := false
  ret : Int := 0
  deriving DecidableEq, Repr

/-- `hand` is the packet the scheduler has dequeued and not yet given to `tb_ring_tx`; `ring`
are the descriptors submitted and not retired.  `qpn` is the QP of this rail that has the Apple
QPN, out of `tbv_qpn_ida`; QPs are numbered in the order in which they are created. -/
structure World where
  rail : Rail := {}
  qpn : Option Nat := none
  created : Nat := 0
  senders : Nat → Sender
  pathState : PathState := .tunnelEnabled
  txControlQueue : List Packet := []
  txDataQueue : List Packet := []
  hand : Option Packet := none
  ring : List Packet := []
  quiesce : Option Quiesce := none

namespace World

/-- Everything that is queued, or submitted and unretired. -/
def packets (w : World) : List Packet :=
  w.txControlQueue ++ w.txDataQueue ++ w.hand.toList ++ w.ring

def setSender (w : World) (q : Nat) (sender : Sender) : World :=
  { w with senders := Function.update w.senders q sender }

def setPath (w : World) (path : Path) : World := { w with rail := { w.rail with path } }

def setInflight (w : World) (txInflight : Nat) : World :=
  w.setPath { w.rail.path with txInflight }

/-- `tbv_path_tx_admits_locked`. -/
def txAdmits (w : World) : Bool := w.pathState == .tunnelEnabled && !w.rail.path.txClosed

def ringsStarted (w : World) : Bool :=
  w.pathState == .ringStarted || w.pathState == .tunnelEnabled

def boundTo (w : World) (q : Nat) : Bool :=
  w.rail.bind.state == .bound && w.rail.bind.qp == some q &&
    w.rail.bind.epoch == (w.senders q).tqp.bindEpoch

def txRetired (w : World) : Bool :=
  w.rail.path.txInflight == 0 && w.txControlQueue.isEmpty && w.txDataQueue.isEmpty

/-! ## The QPs -/

/-- `tbv_alloc_qpn` of an Apple backend; `elsewhere`: a QP of another rail has the QPN. -/
def allocQpn (w : World) (elsewhere : Bool) : Int :=
  if elsewhere || w.qpn.isSome then enospc else applePrimaryQpn

/-- `tbv_create_qp`: admission, and then the QPN. -/
def createQp (w : World) (elsewhere : Bool) (now : Nat) : World :=
  let out := w.rail.admit now
  let qpn := w.allocQpn elsewhere
  let w := { w with rail := out.1 }
  if out.2 ≠ 0 ∨ qpn < 0 then w
  else
    { w with qpn := some w.created, created := w.created + 1 }.setSender w.created
      { tqp := { id := w.created, qpNum := qpn.toNat } }

/-- The core runs no `modify_qp` beside `destroy_qp`. -/
def modifiable (w : World) (q : Nat) : Bool :=
  w.qpn == some q && (w.senders q).destroy == .idle

/-- A quiesce runs that a `modify_qp` of the QP has called. -/
def modifying (w : World) (q : Nat) : Bool :=
  w.quiesce.any fun z => !z.ownerRef && z.owner == some q

/-- `tbv_destroy_qp` begins. -/
def close (w : World) (q : Nat) : Option World :=
  if w.modifiable q && !w.modifying q then
    some (w.setSender q { w.senders q with closing := true, destroy := .running })
  else none

/-- The end of `tbv_destroy_qp`: `tbv_free_qpn`. -/
def freeQpn (w : World) (q : Nat) : Option World :=
  if w.qpn = some q ∧ (w.senders q).destroy = .retired then some { w with qpn := none } else none

def appleBind (w : World) (q : Nat) (remoteKnown : Bool) (remoteQpn now : Nat) : World :=
  let out := (w.senders q).tqp.appleBindRail w.rail remoteKnown remoteQpn now
  { w with rail := out.rail }.setSender q { w.senders q with tqp := out.tqp }

def appleUnbind (w : World) (q : Nat) : World :=
  let out := (w.senders q).tqp.appleUnbindRail w.rail
  { w with rail := out.1 }.setSender q { w.senders q with tqp := out.2 }

/-- `tbv_apple_sq_get_tx_resources`, up to the path: the QP is not stopping and the rail is
bound to it. -/
def takePath (w : World) (q : Nat) : Option World :=
  if (w.senders q).closing || !(w.senders q).transports || (w.senders q).path || !w.boundTo q then
    none
  else some (w.setSender q { w.senders q with path := true })

/-- `tbv_path_enqueue_control`, `tbv_path_enqueue_data` under the worker of a QP. -/
def enqueue (w : World) (q : Nat) (control : Bool) : Option World :=
  let pkt : Packet := ⟨w.rail.bind.epoch, control⟩
  if !(w.senders q).path || !w.txAdmits then none
  else if control then some { w with txControlQueue := w.txControlQueue ++ [pkt] }
  else some { w with txDataQueue := w.txDataQueue ++ [pkt] }

/-! ## The scheduler and the ring -/

/-- The dequeue section of `tbv_path_schedule_tx`. -/
def dequeue (w : World) : Option World :=
  if !w.txAdmits || w.hand.isSome then none
  else
    match w.txControlQueue, w.txDataQueue with
    | pkt :: rest, _ => some
        ({ w with txControlQueue := rest, hand := some pkt }.setInflight
          (w.rail.path.txInflight + 1))
    | [], pkt :: rest => some
        ({ w with txDataQueue := rest, hand := some pkt }.setInflight
          (w.rail.path.txInflight + 1))
    | [], [] => none

def requeue (w : World) (pkt : Packet) : World :=
  if pkt.control then { w with hand := none, txControlQueue := pkt :: w.txControlQueue }
  else { w with hand := none, txDataQueue := pkt :: w.txDataQueue }

/-- What `tbv_path_schedule_tx` does with the return of `tb_ring_tx`; a ring that is stopped
takes nothing. -/
def ringTx (w : World) (ret : Int) : Option World :=
  match w.hand with
  | none => none
  | some pkt =>
      if ret = 0 then
        if w.rail.path.ringsStopped then none
        else some { w with hand := none, ring := w.ring ++ [pkt] }
      else if ret = enomem ∧ w.pathState = .tunnelEnabled then
        some ((w.requeue pkt).setInflight (w.rail.path.txInflight - 1))
      else some ({ w with hand := none }.setInflight (w.rail.path.txInflight - 1))

/-- The callbacks of the `count` oldest descriptors, completed or canceled. -/
def retire (w : World) (count : Nat) : World :=
  { w with ring := w.ring.drop count }.setInflight
    (w.rail.path.txInflight - (w.ring.take count).length)

/-! ## The sections of `tbv_apple_path_quiesce` -/

/-- What a section meets outside of the rail: `verbs_registered`, the number of descriptors
`tb_ring_stop` retires, the return of the call it makes, and the time. -/
structure Choice where
  registered : Bool := true
  retired : Nat := 0
  ret : Int := 0
  now : Nat := 0
  deriving DecidableEq, Repr

def owner (w : World) : Option Nat → Option Nat
  | some q => some q
  | none => w.rail.bind.qp.filter fun q => !(w.senders q).closing

def go (w : World) (z : Quiesce) (phase : Phase) : World :=
  { w with quiesce := some { z with phase } }

def setState (w : World) (state : BindState) : World :=
  { w with rail := { w.rail with bind := { w.rail.bind with state } } }

/-- A QP that a quiesce is called for exists, and its destroy is not past it. -/
def callable (w : World) : Option Nat → Bool
  | some q => w.qpn == some q && (w.senders q).destroy != .retired
  | none => true

def beginQuiesce (w : World) (tqp : Option Nat) : Option World :=
  if w.quiesce.isSome || !w.callable tqp then none
  else
    let wasQuarantined : Bool := w.rail.bind.state == .quarantined
    let z : Quiesce := { phase := .closeTx, owner := w.owner tqp, wasQuarantined,
                         ownerRef := tqp.isNone && (w.owner tqp).isSome }
    some { (if wasQuarantined then w else w.setState .quiescing) with quiesce := some z }

/-- `tbv_qp_mark_error`, of an owner the quiesce has found itself. -/
def markError (w : World) (z : Quiesce) : World :=
  match z.owner with
  | none => w
  | some q =>
      if z.ownerRef then w.setSender q { w.senders q with transports := false } else w

/-- `cancel_work_sync` of the owner's `apple_sq_work` returns once the work has ended. -/
def producersStopped (w : World) (z : Quiesce) : Bool :=
  match z.owner with
  | none => true
  | some q => !(w.senders q).path

def ringBarrier (w : World) (restart : Bool) (c : Choice) : World × Int :=
  if !w.ringsStarted then (w, if w.rail.path.txInflight = 0 then 0 else eio)
  else
    let w :=
      if w.rail.path.ringsStopped then w
      else
        let w := w.retire c.retired
        w.setPath { w.rail.path with ringsStopped := true }
    if w.rail.path.txInflight ≠ 0 then (w, eio)
    else if !restart then (w, 0)
    else (w.setPath { w.rail.path with ringsStopped := false }, c.ret)

def releaseOwner (w : World) (z : Quiesce) : World :=
  match z.owner with
  | none => w
  | some q =>
      let w := w.setSender q
        { w.senders q with tqp := { (w.senders q).tqp with railBound := false } }
      if w.rail.bind.qp = some q then
        { w with rail := { w.rail with bind := { w.rail.bind with qp := none } } }
      else w

/-- The quiesce returns; `tbv_destroy_qp` goes on or is refused. -/
def finish (w : World) (z : Quiesce) : World :=
  let w := { w with quiesce := none }
  match z.owner with
  | none => w
  | some q =>
      if z.ownerRef || (w.senders q).destroy != .running then w
      else w.setSender q
        { w.senders q with destroy := if z.ret = 0 then .retired else .idle }

/-- The last section under `bind_lock`. -/
def settle (w : World) (z : Quiesce) (now : Nat) : World :=
  let w := { w with rail := { w.rail with bind := { w.rail.bind with
    lastTeardownError := z.ret } } }.releaseOwner z
  let w :=
    if z.ret = 0 ∧ ¬ (z.barrier ∧ z.restart) then
      if z.wasQuarantined then w else w.setState .unbound
    else
      { w with rail := { w.rail with bind := { w.rail.bind with
        state := .quarantined
        quarantineRxMark := w.rail.path.dataRxCompleted
        quarantineSince := now } } }
  if w.rail.bind.state = .unbound ∧ ¬ z.barrier ∧ ¬ w.rail.removing then w.go z .reopen
  else w.finish z

def quiesceNext (w : World) (z : Quiesce) (c : Choice) : Option World :=
  match z.phase with
  | .closeTx => some ((w.setPath w.rail.path.closeTx).go z .markError)
  | .markError => some ((w.markError z).go z .stopProducers)
  | .stopProducers => if w.producersStopped z then some (w.go z .cancelQueued) else none
  | .cancelQueued => some ({ w with txControlQueue := [], txDataQueue := [] }.go z .drain)
  | .drain =>
      if w.txRetired then some (w.go z .waitRefs)
      else
        some (w.go { z with barrier := true, restart := !w.rail.removing && c.registered } .barrier)
  | .barrier =>
      let out := w.ringBarrier z.restart c
      some (out.1.go { z with ret := out.2 } .waitRefs)
  | .waitRefs =>
      if z.ret = 0 ∧ z.owner.isSome ∧ c.ret ≠ 0 then some (w.go { z with ret := eio } .settle)
      else some (w.go z .settle)
  | .settle => some (w.settle z c.now)
  | .reopen => some ((w.setPath w.rail.path.openTx).finish z)

end World

/-! ## The system -/

inductive Event where
  -- the calls of the verbs: create, modify, destroy
  | createQp (elsewhere : Bool) (now : Nat)
  | bind (q : Nat) (remoteKnown : Bool) (remoteQpn now : Nat)
  | unbind (q : Nat)
  | transition (q : Nat) (transports : Bool)
  | close (q : Nat)
  | freeQpn (q : Nat)
  -- the rail and its path
  | remove
  | pathState (state : PathState)
  | rxCompleted
  -- the worker of a QP
  | takePath (q : Nat)
  | enqueue (q : Nat) (control : Bool)
  | putPath (q : Nat)
  | cancel (i : Nat)
  -- the scheduler and the ring
  | dequeue
  | ringTx (ret : Int)
  | retire
  -- `tbv_apple_path_quiesce`
  | quiesce (tqp : Option Nat)
  | next (c : World.Choice)
  deriving DecidableEq, Repr

def World.step (w : World) : Event → Option World
  | .createQp elsewhere now => some (w.createQp elsewhere now)
  | .bind q remoteKnown remoteQpn now =>
      if w.modifiable q then some (w.appleBind q remoteKnown remoteQpn now) else none
  -- at the end of a modify, or of a destroy
  | .unbind q =>
      if (w.senders q).destroy = .running then none else some (w.appleUnbind q)
  | .transition q transports => some (w.setSender q { w.senders q with transports })
  | .close q => w.close q
  | .freeQpn q => w.freeQpn q
  | .remove => some { w with rail := { w.rail with removing := true } }
  | .pathState state => some { w with pathState := state }
  | .rxCompleted => some (w.setPath
      { w.rail.path with dataRxCompleted := w.rail.path.dataRxCompleted + 1 })
  | .takePath q => w.takePath q
  | .enqueue q control => w.enqueue q control
  | .putPath q => some (w.setSender q { w.senders q with path := false })
  | .cancel i => some { w with txDataQueue := w.txDataQueue.eraseIdx i }
  | .dequeue => w.dequeue
  | .ringTx ret => w.ringTx ret
  | .retire => if w.ring.isEmpty then none else some (w.retire 1)
  | .quiesce tqp => w.beginQuiesce tqp
  | .next c => w.quiesce.bind fun z => w.quiesceNext z c

end Tbv.AppleRail
