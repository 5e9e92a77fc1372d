import ThunderboltIbverbs.Lib.Run

/-! # The binding of an Apple rail

`kernel/ibdev.c`, the functions under `rail->bind_lock`.  FA57 frames carry no incarnation of
the connection, so a rail records which QP epoch owns its path.  A QP is named by a number, and
`struct tbv_rail_bind` keeps the name of its owner. -/
set_option autoImplicit false
namespace Tbv.AppleRail

def enodev : Int := -19
def ebusy : Int := -16
def einval : Int := -22

theorem enodev_ne_zero : enodev ≠ 0 := by decide
theorem ebusy_ne_zero : ebusy ≠ 0 := by decide
theorem einval_ne_zero : einval ≠ 0 := by decide

def appleQpnShift : Nat := 8

inductive BindState where
  | unbound | bound | quiescing | quarantined
  deriving DecidableEq, Repr

/-- `struct tbv_rail_bind`, what the code decides by. -/
structure Bind where
  state : BindState := .unbound
  qp : Option Nat := none
  epoch : Nat := 0
  localQpn : Nat := 0
  remoteQpn : Nat := 0
  remoteQpnKnown : Bool := false
  bindRefused : Nat := 0
  lastTeardownError : Int := 0
  quarantineRxMark : UInt64 := 0
  quarantineSince : Nat := 0
  deriving DecidableEq, Repr

/-- What the binding reads and writes of `struct tbv_path`. -/
structure Path where
  txClosed : Bool := false
  txInflight : Nat := 0
  dataRxCompleted : UInt64 := 0
  ringsStopped : Bool := false
  localTransmitPath : Int := -1
  deriving DecidableEq, Repr

structure Rail where
  removing : Bool := false
  bind : Bind := {}
  path : Path := {}
  deriving DecidableEq, Repr

/-- What the binding reads and writes of `struct tbv_qp`. -/
structure Qp where
  id : Nat
  qpNum : Nat
  usesAppleTransport : Bool := true
  uc : Bool := true
  hasRail : Bool := true
  railBound : Bool := false
  bindEpoch : Nat := 0
  deriving DecidableEq, Repr

def Qp.ownsAppleRail (tqp : Qp) : Bool := tqp.usesAppleTransport && tqp.uc

def Path.closeTx (path : Path) : Path := { path with txClosed := true }

/-- `tbv_path_open_tx`.  What it schedules is a step of the path. -/
def Path.openTx (path : Path) : Path := { path with txClosed := false }

/-- One more `bind_refused`. -/
def Rail.refuse (rail : Rail) : Rail :=
  { rail with bind := { rail.bind with bindRefused := rail.bind.bindRefused + 1 } }

/-- The peer has been silent since the barrier and nothing is left of the teardown. -/
def Rail.liftable (rail : Rail) : Bool :=
  rail.path.dataRxCompleted == rail.bind.quarantineRxMark && rail.path.txInflight == 0 &&
    !rail.path.ringsStopped && rail.bind.lastTeardownError == 0

def Rail.lift (rail : Rail) : Rail :=
  { rail with bind := { rail.bind with state := .unbound }, path := rail.path.openTx }

/-- The next attempt must again observe a silent peer. -/
def Rail.rearm (rail : Rail) (now : Nat) : Rail :=
  { rail with bind := { rail.bind with
      quarantineRxMark := rail.path.dataRxCompleted, quarantineSince := now } }

def Rail.admitLocked (rail : Rail) (newSession : Bool) (now : Nat) : Rail × Int :=
  if rail.removing then (rail, enodev)
  else
    match rail.bind.state with
    | .unbound => (rail, 0)
    | .bound => (rail, 0)
    | .quiescing => (rail.refuse, ebusy)
    | .quarantined =>
        if !newSession then (rail.refuse, ebusy)
        else if rail.liftable then (rail.lift, 0)
        else (rail.refuse.rearm now, ebusy)

def Rail.admit (rail : Rail) (now : Nat) : Rail × Int :=
  if rail.bind.state = .quarantined then (rail, 0) else rail.admitLocked false now

def appleRemoteQpnHop (remoteQpn : Nat) : Nat := remoteQpn >>> appleQpnShift

/-- The remote QPN names the hop this rail transmits on, as far as that is known. -/
def Path.reaches (path : Path) (remoteQpn : Nat) : Bool :=
  decide (path.localTransmitPath < 0) ||
    decide ((appleRemoteQpnHop remoteQpn : Int) = path.localTransmitPath)

def Rail.checkRemoteQpnLocked (rail : Rail) (remoteQpn : Nat) : Rail × Int :=
  if rail.path.reaches remoteQpn then (rail, 0) else (rail.refuse, einval)

/-- A call of `tbv_qp_apple_bind_rail` when it gives the lock back: the rail, the QP, whether
`apple_bind_refused` is counted, and the return value. -/
structure Outcome where
  rail : Rail
  tqp : Qp
  refused : Bool := false
  ret : Int := 0

def Qp.rebindRail (tqp : Qp) (rail : Rail) (remoteKnown : Bool) (remoteQpn : Nat) : Outcome :=
  if rail.bind.state ≠ .bound ∨ rail.bind.qp ≠ some tqp.id ∨ rail.bind.epoch ≠ tqp.bindEpoch then
    { rail := rail.refuse, tqp, refused := true, ret := ebusy }
  else if remoteKnown ∧ rail.bind.remoteQpnKnown ∧ rail.bind.remoteQpn ≠ remoteQpn then
    { rail := rail.refuse, tqp, refused := true, ret := einval }
  else if remoteKnown ∧ ¬ rail.bind.remoteQpnKnown then
    let checked := rail.checkRemoteQpnLocked remoteQpn
    if checked.2 ≠ 0 then { rail := checked.1, tqp, refused := true, ret := checked.2 }
    else
      { rail := { checked.1 with bind := { checked.1.bind with remoteQpn, remoteQpnKnown := true } }
        tqp }
  else { rail, tqp }

def Qp.takeRail (tqp : Qp) (rail : Rail) (remoteKnown : Bool) (remoteQpn : Nat) : Outcome where
  rail := { rail with bind := { rail.bind with
    epoch := rail.bind.epoch + 1
    state := .bound
    qp := some tqp.id
    localQpn := tqp.qpNum
    remoteQpn := if remoteKnown then remoteQpn else 0
    remoteQpnKnown := remoteKnown } }
  tqp := { tqp with bindEpoch := rail.bind.epoch + 1, railBound := true }

/-- The binding of a QP that is not bound: admission, owner, remote hop. -/
def Qp.bindNewRail (tqp : Qp) (rail : Rail) (remoteKnown : Bool) (remoteQpn now : Nat) :
    Outcome :=
  let admitted := rail.admitLocked remoteKnown now
  if admitted.2 ≠ 0 then
    { rail := admitted.1, tqp, refused := admitted.2 = ebusy, ret := admitted.2 }
  else if admitted.1.bind.state = .bound then
    { rail := admitted.1.refuse, tqp, refused := true, ret := ebusy }
  else
    let checked := if remoteKnown then admitted.1.checkRemoteQpnLocked remoteQpn
      else (admitted.1, 0)
    if checked.2 ≠ 0 then { rail := checked.1, tqp, refused := true, ret := checked.2 }
    else tqp.takeRail checked.1 remoteKnown remoteQpn

def Qp.appleBindRail (tqp : Qp) (rail : Rail) (remoteKnown : Bool) (remoteQpn now : Nat) :
    Outcome :=
  if !tqp.ownsAppleRail || !tqp.hasRail then { rail, tqp }
  else if tqp.railBound then tqp.rebindRail rail remoteKnown remoteQpn
  else tqp.bindNewRail rail remoteKnown remoteQpn now

def Qp.appleUnbindRail (tqp : Qp) (rail : Rail) : Rail × Qp :=
  if !tqp.hasRail || !tqp.railBound then (rail, tqp)
  else
    (if rail.bind.qp = some tqp.id then
        { rail with bind := { rail.bind with
          qp := none
          state := if rail.bind.state = .bound then .unbound else rail.bind.state } }
      else rail,
      { tqp with railBound := false })

end Tbv.AppleRail
