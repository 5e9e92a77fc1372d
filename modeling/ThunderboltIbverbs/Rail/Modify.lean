import ThunderboltIbverbs.Rail.Model
import Mathlib.Logic.Function.Iterate

/-! # The modify of a QP

`tbv_modify_qp` takes the lock of the QP twice.  Between the two sections it counts the QP on
the tunnel of its rail and binds the rail, and `tbv_qp_mark_error` may run in every gap. -/
set_option autoImplicit false
namespace Tbv.ModifyQp

open AppleRail

def enotconn : Int := -107

def maxReadCtx : Nat := 128

def psnMask : Nat := 0x00ffffff

inductive QpState where
  | reset | init | rtr | rts | sqd | sqe | err
  deriving DecidableEq, Repr

/-- The bits of an attribute mask; `other` are those that only `ib_modify_qp_is_ok` reads. -/
inductive AttrFlag where
  | state | curState | pkeyIndex | port | qkey | accessFlags | av | pathMtu | destQpn | rqPsn
  | maxDestRdAtomic | minRnrTimer | sqPsn | timeout | retryCnt | rnrRetry | maxQpRdAtomic
  | other (bit : Nat)
  deriving DecidableEq, Repr

abbrev AttrMask := AttrFlag → Bool

/-- `struct rdma_ah_attr`: the reference to the GID table, and the rest of it. -/
structure AhAttr where
  address : Nat := 0
  sgidAttr : Option Nat := none
  deriving DecidableEq, Repr

/-- `struct ib_qp_attr`, what the modify reads. -/
structure QpAttr where
  qpState : QpState := .reset
  curQpState : QpState := .reset
  pkeyIndex : Nat := 0
  portNum : Nat := 0
  qkey : Nat := 0
  qpAccessFlags : Nat := 0
  ahAttr : AhAttr := {}
  pathMtu : Nat := 0
  destQpNum : Nat := 0
  rqPsn : Nat := 0
  maxDestRdAtomic : Nat := 0
  minRnrTimer : Nat := 0
  sqPsn : Nat := 0
  timeout : Nat := 0
  retryCnt : Nat := 0
  rnrRetry : Nat := 0
  maxRdAtomic : Nat := 0
  deriving DecidableEq, Repr

/-- What the modify reads and writes of `struct tbv_qp`.  `earlyCreditSrc` is
`early_remote_recv_credit_src_qp`, where it is known. -/
structure VerbsQp extends Qp where
  state : QpState := .reset
  attr : QpAttr := {}
  closing : Bool := false
  sendPsn : Nat := 0
  rxExpectedPsn : Nat := 0
  destQpKnown : Bool := false
  ackTimeoutSet : Bool := false
  earlyCreditSrc : Option Nat := none
  appleTunnelActive : Bool := false
  deriving DecidableEq, Repr

/-- The QP and its rail.  `railLive`: the rail still has references; `peerPresent`: it has a
peer, with its state and its `xd`; `tunnelEnabled`: its path is `TBV_PATH_TUNNEL_ENABLED`. -/
structure Site where
  tqp : VerbsQp
  rail : Rail := {}
  railLive : Bool := true
  peerPresent : Bool := true
  tunnelEnabled : Bool := true
  appleTunnelQps : Nat := 0
  deriving DecidableEq, Repr

/-- A call.  `isOk` is `ib_modify_qp_is_ok` of the kernel at the type of the QP; `quiesced` is
what `tbv_apple_path_quiesce` makes of the QP and its rail. -/
structure Call where
  attr : Option QpAttr
  mask : AttrMask
  now : Nat := 0
  isOk : QpState → QpState → AttrMask → Bool
  quiesced : Site → Site := id

/-- How often `tbv_qp_mark_error` runs: before the first section, and behind the first section,
the tunnel, the bind and the second section. -/
structure Gaps where
  entered : Nat := 0
  validated : Nat := 0
  tunnelled : Nat := 0
  bound : Nat := 0
  settled : Nat := 0

def QpState.usesTransport : QpState → Bool
  | .rtr | .rts | .sqd | .sqe => true
  | _ => false

/-! ## The other thread -/

/-- `tbv_qp_mark_error`, the section under the lock. -/
def VerbsQp.markError (tqp : VerbsQp) : VerbsQp :=
  if tqp.closing = false ∧ tqp.state ≠ .err then
    { tqp with state := .err, attr := { tqp.attr with qpState := .err } }
  else tqp

def Site.markErrors (site : Site) (count : Nat) : Site :=
  { site with tqp := VerbsQp.markError^[count] site.tqp }

/-! ## The sections -/

def Call.nextState (call : Call) (attr : QpAttr) (cur : QpState) : QpState :=
  if call.mask .state then attr.qpState else cur

/-- `tbv_validate_modify_qp_locked`. -/
def Call.validate (call : Call) (attr : QpAttr) (tqp : VerbsQp) : Int :=
  if call.mask .curState ∧ attr.curQpState ≠ tqp.state then einval
  else if call.isOk tqp.state (call.nextState attr tqp.state) call.mask = false then einval
  else if call.mask .destQpn ∧ tqp.earlyCreditSrc.any (· ≠ attr.destQpNum) then einval
  else 0

def Call.commit (call : Call) (attr : QpAttr) (tqp : VerbsQp) : VerbsQp :=
  let masked {α : Type} (flag : AttrFlag) (new old : α) : α := if call.mask flag then new else old
  { tqp with
    state := masked .state attr.qpState tqp.state
    destQpKnown := masked .destQpn true tqp.destQpKnown
    rxExpectedPsn := masked .rqPsn (attr.rqPsn &&& psnMask) tqp.rxExpectedPsn
    sendPsn := masked .sqPsn (attr.sqPsn &&& psnMask) tqp.sendPsn
    ackTimeoutSet := masked .timeout true tqp.ackTimeoutSet
    attr := { tqp.attr with
      qpState := masked .state attr.qpState tqp.attr.qpState
      pkeyIndex := masked .pkeyIndex attr.pkeyIndex tqp.attr.pkeyIndex
      portNum := masked .port attr.portNum tqp.attr.portNum
      qkey := masked .qkey attr.qkey tqp.attr.qkey
      qpAccessFlags := masked .accessFlags attr.qpAccessFlags tqp.attr.qpAccessFlags
      -- the reference of the GID table stays with the RDMA core
      ahAttr := masked .av { attr.ahAttr with sgidAttr := none } tqp.attr.ahAttr
      pathMtu := masked .pathMtu attr.pathMtu tqp.attr.pathMtu
      destQpNum := masked .destQpn attr.destQpNum tqp.attr.destQpNum
      rqPsn := masked .rqPsn (attr.rqPsn &&& psnMask) tqp.attr.rqPsn
      maxDestRdAtomic := masked .maxDestRdAtomic attr.maxDestRdAtomic tqp.attr.maxDestRdAtomic
      minRnrTimer := masked .minRnrTimer attr.minRnrTimer tqp.attr.minRnrTimer
      sqPsn := masked .sqPsn (attr.sqPsn &&& psnMask) tqp.attr.sqPsn
      timeout := masked .timeout attr.timeout tqp.attr.timeout
      retryCnt := masked .retryCnt attr.retryCnt tqp.attr.retryCnt
      rnrRetry := masked .rnrRetry attr.rnrRetry tqp.attr.rnrRetry
      maxRdAtomic := masked .maxQpRdAtomic attr.maxRdAtomic tqp.attr.maxRdAtomic } }

/-! ## The tunnel and the rail -/

/-- The QP is counted on the tunnel. -/
def Site.takeTunnel (site : Site) : Site :=
  { site with tqp := { site.tqp with appleTunnelActive := true },
              appleTunnelQps := site.appleTunnelQps + 1 }

/-- `tbv_qp_ensure_apple_tunnel`, with `acquired` and the return value. -/
def Site.ensureAppleTunnel (site : Site) : Site × Bool × Int :=
  if !site.tqp.usesAppleTransport then (site, false, 0)
  else if !site.tqp.hasRail || !site.railLive then (site, false, enodev)
  else if !site.peerPresent then (site, false, enodev)
  else if site.tqp.appleTunnelActive then (site, false, 0)
  else if site.rail.removing then (site, false, enodev)
  else if site.tunnelEnabled then (site.takeTunnel, true, 0)
  else (site, false, enotconn)

def Site.releaseAppleTunnel (site : Site) : Site :=
  if !site.tqp.usesAppleTransport then site
  else if !site.tqp.hasRail || !site.railLive then site
  else if !site.peerPresent then site
  else if site.tqp.appleTunnelActive then
    { site with tqp := { site.tqp with appleTunnelActive := false },
                appleTunnelQps := site.appleTunnelQps - 1 }
  else site

def Site.setBinding (site : Site) (out : Outcome) : Site :=
  { site with tqp := { site.tqp with toQp := out.tqp }, rail := out.rail }

/-- The call of `tbv_qp_apple_bind_rail`. -/
def Call.bindRail (call : Call) (attr : QpAttr) (site : Site) : Outcome :=
  site.tqp.toQp.appleBindRail site.rail (call.mask .destQpn) attr.destQpNum call.now

/-- A call, or a part of it, when it returns.  `marks`: the runs of `tbv_qp_mark_error` until
then. -/
structure Return where
  site : Site
  acquired : Bool := false
  ret : Int := 0
  marks : Nat := 0

/-- The tunnel and the rail, between the two sections.  `acquired` is `apple_tunnel_acquired`. -/
def Call.activate (call : Call) (attr : QpAttr) (gaps : Gaps) (site : Site) : Return :=
  let ensured := site.ensureAppleTunnel
  if ensured.2.2 ≠ 0 then { site := ensured.1, ret := ensured.2.2 }
  else
    let tunnelled := ensured.1.markErrors gaps.tunnelled
    let out := call.bindRail attr tunnelled
    let bound := (tunnelled.setBinding out).markErrors gaps.bound
    let marks := gaps.tunnelled + gaps.bound
    if out.ret ≠ 0 then
      { site := if ensured.2.1 then bound.releaseAppleTunnel else bound, ret := out.ret, marks }
    else { site := bound, acquired := ensured.2.1, marks }

/-- Leaving the transport ends the epoch on the rail. -/
def Call.deactivate (call : Call) (site : Site) : Site :=
  let site := if site.tqp.hasRail && site.tqp.ownsAppleRail then call.quiesced site else site
  let out := site.tqp.toQp.appleUnbindRail site.rail
  let unbound : Site := { site with tqp := { site.tqp with toQp := out.2 }, rail := out.1 }
  unbound.releaseAppleTunnel

/-- The second section, and what follows it.  The flush of the queues of the QP leaves the site
alone. -/
def Call.settle (call : Call) (attr : QpAttr) (gaps : Gaps) (deactivates acquired : Bool)
    (site : Site) : Return :=
  let ret := call.validate attr site.tqp
  if ret ≠ 0 then
    let settled := site.markErrors gaps.settled
    { site := if acquired then settled.releaseAppleTunnel else settled, ret
      marks := gaps.settled }
  else
    let committed := { site with tqp := call.commit attr site.tqp }
    { site := if deactivates then call.deactivate committed else committed }

def Call.tooManyReads (call : Call) (attr : QpAttr) : Prop :=
  call.mask .maxDestRdAtomic = true ∧ maxReadCtx < attr.maxDestRdAtomic ∨
    call.mask .maxQpRdAtomic = true ∧ maxReadCtx < attr.maxRdAtomic

instance (call : Call) (attr : QpAttr) : Decidable (call.tooManyReads attr) :=
  inferInstanceAs (Decidable (_ ∨ _))

/-- `activate_apple_tunnel`. -/
def Call.activates (call : Call) (attr : QpAttr) (tqp : VerbsQp) : Bool :=
  tqp.usesAppleTransport && (call.nextState attr tqp.state).usesTransport

/-- `deactivate_apple_tunnel`. -/
def Call.deactivates (call : Call) (attr : QpAttr) (tqp : VerbsQp) : Bool :=
  tqp.usesAppleTransport && tqp.state.usesTransport &&
    !(call.nextState attr tqp.state).usesTransport

def Call.modifyQp (call : Call) (gaps : Gaps) (site : Site) : Return :=
  match call.attr with
  | none => { site, ret := einval }
  | some attr =>
      if call.tooManyReads attr then { site, ret := einval }
      else
        let first := site.markErrors gaps.entered
        let ret := call.validate attr first.tqp
        if ret ≠ 0 then { site := first, ret, marks := gaps.entered }
        else
          let validated := first.markErrors gaps.validated
          let marks := gaps.entered + gaps.validated
          let activated := if call.activates attr first.tqp then call.activate attr gaps validated
            else { site := validated }
          if activated.ret ≠ 0 then { activated with marks := marks + activated.marks }
          else
            let settled := call.settle attr gaps (call.deactivates attr first.tqp)
              activated.acquired activated.site
            { settled with marks := marks + activated.marks + settled.marks }

end Tbv.ModifyQp
