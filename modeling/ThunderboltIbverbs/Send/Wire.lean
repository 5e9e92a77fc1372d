import ThunderboltIbverbs.Proto.NativeWire
import ThunderboltIbverbs.Send.Model

/-! # A work request on the wire

From the `ib_send_wr` of a post to the bytes of its framed fragments:
`tbv_prepare_send_segments`, the context `tbv_post_send_one` fills, and the loop of
`tbv_native_send_ctx_post_frames`, with every allocation and copy succeeding. -/
set_option autoImplicit false
namespace Tbv.SendQueue

open Tbv.NativeData

/-- `struct ib_sge`. -/
structure Sge where
  addr : UInt64
  length : UInt32
  lkey : UInt32
  deriving DecidableEq, Repr

/-- `struct tbv_mr`, as far as a send reads it. -/
structure Mr where
  start : UInt64
  length : UInt64
  dmaMr : Bool := false
  deriving DecidableEq, Repr

/-- `struct ib_send_wr` of the four operations sent as frames; the flags are
`IB_SEND_SOLICITED` and `IB_SEND_INLINE`. -/
structure IbSendWr where
  opcode : SendOp
  sgList : List Sge
  solicited : Bool := false
  inline : Bool := false
  immData : UInt32 := 0
  remoteAddr : UInt64 := 0
  rkey : UInt32 := 0
  deriving DecidableEq, Repr

/-- What a post reads of a native QP. -/
structure PostQp where
  type : QpType
  qpNum : UInt32
  destQpNum : UInt32
  sendPsn : UInt32
  allowsPost : Bool := true
  destQpKnown : Bool := true
  deriving DecidableEq, Repr

inductive PostError where
  | einval | eopnotsupp | emsgsize | efault
  deriving DecidableEq, Repr

def maxSge : Nat := 4

/-! ## `tbv_prepare_send_segments` -/

/-- The loop over the SGEs, `total` bytes having been counted before. -/
def prepareSendSegmentsLoop (mrs : UInt32 → Option Mr) :
    List Sge → Nat → Except PostError (List Segment)
  | [], _ => .ok []
  | sge :: rest, total =>
      if positive : 0 < sge.length.toNat then
        if 2 ^ 32 ≤ total + sge.length.toNat ∨ maxMsgSize < total + sge.length.toNat then
          .error .emsgsize
        else if 2 ^ 64 ≤ sge.addr.toNat + sge.length.toNat then .error .einval
        else
          match mrs sge.lkey with
          | none => .error .einval
          | some mr =>
              if mr.dmaMr then .error .eopnotsupp
              else if 2 ^ 64 ≤ mr.start.toNat + mr.length.toNat ∨
                  sge.addr.toNat < mr.start.toNat ∨
                  mr.start.toNat + mr.length.toNat < sge.addr.toNat + sge.length.toNat then
                .error .efault
              else
                (prepareSendSegmentsLoop mrs rest (total + sge.length.toNat)).map
                  (⟨sge.addr.toNat, sge.length.toNat, positive⟩ :: ·)
      else prepareSendSegmentsLoop mrs rest total

def prepareSendSegments (mrs : UInt32 → Option Mr) (wr : IbSendWr) :
    Except PostError (List Segment) :=
  if wr.inline then .error .eopnotsupp
  else if maxSge < wr.sgList.length then .error .einval
  else prepareSendSegmentsLoop mrs wr.sgList 0

/-! ## The context and its frames -/

/-- The part of `struct tbv_send_ctx` the fragments are built from. -/
structure WireCtx where
  opcode : SendOp
  segs : List Segment
  totalLen : Nat
  immData : Nat
  remoteAddr : Nat := 0
  rkey : Nat := 0
  psn : Nat
  solicited : Bool := false
  retryable : Bool := false
  deriving DecidableEq, Repr

/-- `ctx->solicited = !!(wr->send_flags & IB_SEND_SOLICITED)`, then the unconditional
solicit of sends that are not retryable. -/
def WireCtx.setSolicited (ctx : WireCtx) (wr : IbSendWr) : WireCtx :=
  let ctx := { ctx with solicited := wr.solicited }
  if !ctx.retryable then { ctx with solicited := true } else ctx

def WireCtx.setRetryable (ctx : WireCtx) (qp : PostQp) : WireCtx :=
  { ctx with retryable := qp.type = .rc }

/-- The context `tbv_post_send_one` fills, in its order: `solicited` is decided on the
zeroed `retryable`, which is assigned after it. -/
def fillCtx (qp : PostQp) (wr : IbSendWr) (segs : List Segment) : WireCtx :=
  let ctx : WireCtx :=
    { opcode := wr.opcode
      segs
      totalLen := totalLen segs
      immData := if wr.opcode.hasImm then wr.immData.toNat else 0
      psn := qp.sendPsn.toNat % psnMod }
  let ctx := (ctx.setSolicited wr).setRetryable qp
  if wr.opcode.isWrite then
    { ctx with remoteAddr := wr.remoteAddr.toNat, rkey := wr.rkey.toNat }
  else ctx

/-- `tbv_post_send_one`, up to the context it posts. -/
def postSendOne (qp : PostQp) (mrs : UInt32 → Option Mr) (wr : IbSendWr) :
    Except PostError WireCtx :=
  if !qp.allowsPost || !qp.destQpKnown then .error .einval
  else
    match prepareSendSegments mrs wr with
    | .error err => .error err
    | .ok segs =>
        if wr.opcode.isWrite && decide (2 ^ 64 ≤ wr.remoteAddr.toNat + totalLen segs) then
          .error .einval
        else .ok (fillCtx qp wr segs)

def WireCtx.buildNativeHeader (ctx : WireCtx) (qp : PostQp) (offset payloadLen : Nat)
    (last : Bool) : Header :=
  let flags := if last then fLast else 0
  { opcode := ctx.opcode.opcode
    flags := if last && ctx.solicited then flags ||| fSolicited else flags
    destQp := qp.destQpNum.toNat
    srcQp := qp.qpNum.toNat
    psn := ctx.psn
    length := payloadLen
    immData :=
      if ctx.opcode.isSend then ctx.totalLen
      else if ctx.opcode.hasImm then ctx.immData else ctx.totalLen
    remoteAddr := if ctx.opcode.isSend then 0 else ctx.remoteAddr
    rkey :=
      if ctx.opcode.isSend then (if ctx.opcode.hasImm then ctx.immData else 0) else ctx.rkey
    fragOffset := offset }

/-- One frame of `tbv_native_send_ctx_post_frames`: the header and then the payload. -/
def WireCtx.frame (ctx : WireCtx) (qp : PostQp) (memory : Nat → UInt8) (offset : Nat) :
    Except PostError (List UInt8) :=
  let payloadLen := min (ctx.totalLen - offset) maxPayload
  match copySendRange memory ctx.segs offset payloadLen with
  | none => .error .efault
  | some payload =>
      match buildHeader (hdrSize + payloadLen) (ctx.buildNativeHeader qp offset payloadLen
          (offset + payloadLen = ctx.totalLen)) with
      | .error .emsgsize => .error .emsgsize
      | .error _ => .error .einval
      | .ok header => .ok (header ++ payload)

/-- The loop of `tbv_native_send_ctx_post_frames`, at most `fuel` turns of it. -/
def WireCtx.framesLoop (ctx : WireCtx) (qp : PostQp) (memory : Nat → UInt8) :
    Nat → Nat → Except PostError (List (List UInt8))
  | 0, _ => .ok []
  | fuel + 1, offset =>
      match ctx.frame qp memory offset with
      | .error err => .error err
      | .ok frame =>
          let next := offset + min (ctx.totalLen - offset) maxPayload
          if next < ctx.totalLen then (ctx.framesLoop qp memory fuel next).map (frame :: ·)
          else .ok [frame]

/-- The framed fragments `tbv_native_send_ctx_post_frames` builds. -/
def WireCtx.frames (ctx : WireCtx) (qp : PostQp) (memory : Nat → UInt8) :
    Except PostError (List (List UInt8)) :=
  ctx.framesLoop qp memory (fragCount ctx.totalLen) 0

/-! ## What the receiver sees -/

def gatherSges (memory : Nat → UInt8) (sges : List Sge) : List UInt8 :=
  sges.flatMap fun sge => readRange memory sge.addr.toNat sge.length.toNat

/-- The total length `tbv_rx_handle_send_fragment` and
`tbv_rx_handle_rdma_write_fragment` read; a WRITE with immediate carries none and ends
with its last fragment. -/
def rxTotalLen (hdr : Header) : Option Nat :=
  if hdr.opcode = .rdmaWriteImm then none else some hdr.immData

/-- The immediate the receiver reads. -/
def rxImmData (hdr : Header) : Option Nat :=
  if hdr.opcode = .sendImm then some hdr.rkey
  else if hdr.opcode = .rdmaWriteImm then some hdr.immData
  else none

/-- A received frame: its parsed header, and the payload behind it. -/
def rxFrame (frame : List UInt8) : Option (Header × List UInt8) :=
  match parseHeader frame with
  | .error _ => none
  | .ok hdr => some (hdr, frame.drop hdrSize)

/-- The parsed fragments tell the receiver the work request `wr` posted on `qp`. -/
structure Delivers (qp : PostQp) (wr : IbSendWr) (memory : Nat → UInt8)
    (fragments : List (Header × List UInt8)) : Prop where
  some_ : fragments ≠ []
  offsets : ∀ i hdr payload, fragments[i]? = some (hdr, payload) →
    hdr.fragOffset = ((fragments.take i).map fun frag => frag.1.length).sum ∧
      hdr.length = payload.length
  total : (fragments.map fun frag => frag.1.length).sum = (gatherSges memory wr.sgList).length
  payload : (fragments.map Prod.snd).flatten = gatherSges memory wr.sgList
  last : ∀ i hdr payload, fragments[i]? = some (hdr, payload) →
    (hasFlag hdr.flags fLast = true ↔ i + 1 = fragments.length)
  fields : ∀ hdr payload, (hdr, payload) ∈ fragments →
    hdr.opcode = wr.opcode.opcode ∧ hdr.destQp = qp.destQpNum.toNat ∧
    hdr.srcQp = qp.qpNum.toNat ∧ hdr.psn = qp.sendPsn.toNat % psnMod ∧
    (wr.opcode ≠ .rdmaWriteImm → rxTotalLen hdr = some (gatherSges memory wr.sgList).length) ∧
    rxImmData hdr = (if wr.opcode.hasImm then some wr.immData.toNat else none) ∧
    (wr.opcode.isWrite = true → hdr.remoteAddr = wr.remoteAddr.toNat ∧ hdr.rkey = wr.rkey.toNat)
  solicited : qp.type = .rc → ∀ i hdr payload, fragments[i]? = some (hdr, payload) →
    i + 1 = fragments.length → (hasFlag hdr.flags fSolicited = true ↔ wr.solicited = true)

end Tbv.SendQueue
