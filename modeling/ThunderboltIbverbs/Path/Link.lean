import ThunderboltIbverbs.Lib.Run
import ThunderboltIbverbs.Path.Model

/-! # Two connected native paths

The two ends of a rail and what is between them.  `wire s` holds the frames end
`s` handed to its ring that its peer has not received, `received s` those the
peer has received; delivery is in order and lossless.  The senders above a path
are the driver's own emitters: `controlEmission` and `dataEmission` list the
opcodes each queue is given. -/
set_option autoImplicit false
namespace Tbv.NativePath

open Tbv.NativeData

/-- The frames the verbs layer sends with `TBV_PATH_SEND_CONTROL`: send
acknowledgements, read acknowledgements, receive credits, and the READ status
frame, an `RDMA_READ_RESP` (`tbv_send_read_status_on_path`).  Path credits come
from the path itself. -/
def controlEmission (hdr : Header) : Bool :=
  !hasFlag hdr.flags fRawStream &&
    (hdr.opcode == .sendAck || hdr.opcode == .rdmaReadAck || hdr.opcode == .recvCredit ||
      hdr.opcode == .rdmaReadResp)

/-- The frames that go through the data queue with a header of their own: SEND
and WRITE fragments, READ requests, READ response fragments and MADs. -/
def dataEmission (hdr : Header) : Bool :=
  !hasFlag hdr.flags fRawStream && consumesRxCredit hdr.opcode &&
    decide (hdr.length ≤ maxPayload)

structure ControlFrame where
  hdr : Header
  emitted : controlEmission hdr = true

def ControlFrame.packet (c : ControlFrame) : TxPacket where
  frame := { len := hdrSize, parsed := some c.hdr }
  origin := .control
  control := true

structure FramedFrame where
  hdr : Header
  done : Option Nat
  doneCtx : Option Nat
  emitted : dataEmission hdr = true

def FramedFrame.packet (f : FramedFrame) : TxPacket where
  frame := { len := hdrSize + f.hdr.length, parsed := some f.hdr }
  origin := .framed
  done := f.done
  doneCtx := f.doneCtx
  ownerCtx := f.doneCtx

structure Link where
  path : Bool → Path
  wire : Bool → List TxPacket
  received : Bool → List TxPacket

/-- Two started paths that learned each other's RX ring size from the HELLO
exchange. -/
def Link.init (cfg : Bool → PathConfig) : Link where
  path side := setRemoteRxCapacity (Path.fresh (cfg side)) (cfg !side).rxRingSize
  wire _ := []
  received _ := []

/-- One step at `side`.  A refused enqueue leaves the path as it was. -/
inductive Event where
  | control (side : Bool) (frame : ControlFrame)
  | framed (side : Bool) (frame : FramedFrame)
  | reserve (side : Bool) (frames : Nat)
  | release (side : Bool) (frames : Nat)
  | framedList (side : Bool) (frames : List FramedFrame)
  | stream (side : Bool) (pages : PageStream)
  | schedule (side : Bool)
  | complete (side : Bool) (canceled : Bool)
  | deliver (side : Bool)
  | cancelDone (side : Bool) (done doneCtx : Option Nat)
  | cancelOwner (side : Bool) (ownerCtx : Option Nat)

def orKeep (p : Path) : Except Int Path → Path
  | .ok q => q
  | .error _ => p

def Link.setPath (l : Link) (side : Bool) (p : Path) : Link :=
  { l with path := Function.update l.path side p }

/-- The frame end `side` posted first and its peer has not seen reaches the
peer's RX callback. -/
def Link.deliver (l : Link) (side : Bool) : Link :=
  match l.wire side with
  | [] => l
  | pkt :: rest =>
      { path := Function.update l.path (!side) (rxComplete (l.path !side) pkt.frame)
        wire := Function.update l.wire side rest
        received := Function.update l.received side (l.received side ++ [pkt]) }

/-- A scheduler iteration whose `tb_ring_tx` succeeds. -/
def Link.schedule (l : Link) (side : Bool) : Link :=
  match scheduleTx (l.path side) .ok with
  | (p, none) => l.setPath side p
  | (p, some pkt) =>
      { l.setPath side p with wire := Function.update l.wire side (l.wire side ++ [pkt]) }

def Link.apply (l : Link) : Event → Link
  | .control side frame =>
      l.setPath side (orKeep (l.path side) (enqueueControl (l.path side) frame.packet))
  | .framed side frame =>
      l.setPath side (orKeep (l.path side) (enqueueData (l.path side) frame.packet))
  | .reserve side frames =>
      l.setPath side (orKeep (l.path side) (reserveData (l.path side) frames))
  | .release side frames => l.setPath side (releaseDataReservation (l.path side) frames)
  | .framedList side frames =>
      l.setPath side (orKeep (l.path side)
        (enqueueReservedDataList (l.path side) (frames.map FramedFrame.packet)))
  | .stream side pages => l.setPath side (sendPageStream (l.path side) pages)
  | .schedule side => l.schedule side
  | .complete side canceled => l.setPath side (txComplete (l.path side) canceled)
  | .deliver side => l.deliver side
  | .cancelDone side done doneCtx =>
      l.setPath side (cancelDataDoneCtx (l.path side) done doneCtx)
  | .cancelOwner side ownerCtx => l.setPath side (cancelDataOwnerCtx (l.path side) ownerCtx)

def Link.step (l : Link) (e : Event) : Option Link := some (l.apply e)

/-- The states two connected paths reach by steps that all meet `ok`. -/
def Link.Reached (ok : Link → Event → Prop) (cfg : Bool → PathConfig) : Link → Prop :=
  Trans.Reaches Link.step ok (Link.init cfg)

theorem Link.run_step (events : List Event) (l : Link) :
    Trans.run Link.step events l = some (events.foldl Link.apply l) := by
  induction events generalizing l with
  | nil => rfl
  | cons e rest ih => simpa [Trans.run, Link.step] using ih (l.apply e)

theorem Link.reached_foldl (cfg : Bool → PathConfig) (events : List Event) :
    Link.Reached (fun _ _ => True) cfg (events.foldl Link.apply (Link.init cfg)) :=
  Trans.reaches_of_run_free (Link.run_step events _)

end Tbv.NativePath
