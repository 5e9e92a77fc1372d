import ThunderboltIbverbs.Path.Model
import ThunderboltIbverbs.Send.Wire

/-! # The framed part of a post

`tbv_native_send_ctx_post_frames` behind the zero-copy branch, with everything it takes and
gives back: path reservations, rail references, references of the context and `tx_pending`.
The arrays `paths`, `reservations`, `frame_lists` and `packet_lists` are one list of lanes.
The kick of the paths at the end of a call that queued something is a step of the paths. -/
set_option autoImplicit false
namespace Tbv.FramedPost

open Tbv.NativeData Tbv.NativePath
open Tbv.SendQueue (WireCtx PostQp PostError fragCount fragLen)

def einval : Int := -22
def efault : Int := -14
def emsgsize : Int := -90
def eio : Int := -5

def maxLanes : Nat := 4

/-- What a post reads and writes of a `struct tbv_rail`; `dataReady` is
`tbv_rail_data_ready(rail) && !rail->removing`. -/
structure Rail where
  path : Path
  refcnt : Nat
  dataReady : Bool

/-- The rails, by number, and the counters of the send context. -/
structure World where
  rails : Nat → Rail
  txPending : Nat
  refs : Nat

/-- Entry `i` of the arrays: `paths[i]` by its rail, `reservations[i]` and the two lists. -/
structure Lane where
  rail : Nat
  reservation : Nat := 0
  frames : List (List UInt8) := []
  packets : List TxPacket := []

/-- The rails of the peer, in list order, and what the call reads of the QP. -/
structure Post where
  ctx : WireCtx
  qp : PostQp
  memory : Nat → UInt8
  fragmentStriping : Bool
  peerRails : List Nat
  peerRails_nodup : peerRails.Nodup
  ownRail : Nat

/-- What can go wrong from outside: allocations by fragment or packet, `ib_umem_copy_from` by
fragment, and the paths another thread closes before the packets are enqueued. -/
structure Faults where
  kmalloc : Nat → Bool := fun _ => false
  umemCopy : Nat → Option Int := fun _ => none
  kzalloc : Nat → Bool := fun _ => false
  packetAlloc : Nat → Nat → Bool := fun _ _ => false
  closed : Nat → Bool := fun _ => false

def World.path (w : World) (r : Nat) : Path := (w.rails r).path

def World.setPath (w : World) (r : Nat) (path : Path) : World :=
  { w with rails := Function.update w.rails r { w.rails r with path } }

/-- `refcount_inc(&rail->refcnt)`. -/
def World.getRail (w : World) (r : Nat) : World :=
  { w with rails := Function.update w.rails r { w.rails r with refcnt := (w.rails r).refcnt + 1 } }

/-- `tbv_rail_put`. -/
def World.putRail (w : World) (r : Nat) : World :=
  { w with rails := Function.update w.rails r { w.rails r with refcnt := (w.rails r).refcnt - 1 } }

/-! ## Collecting the paths -/

/-- The loop of `tbv_collect_native_data_paths_for_qp_locked`, `room` entries being free. -/
def collectPathsLoop (w : World) : List Nat → Nat → World × List Nat
  | [], _ => (w, [])
  | _ :: _, 0 => (w, [])
  | r :: rest, room + 1 =>
      if (w.rails r).dataReady then
        let taken := collectPathsLoop (w.getRail r) rest room
        (taken.1, r :: taken.2)
      else collectPathsLoop w rest (room + 1)

/-- `tbv_select_native_data_path_for_qp_locked`. -/
def selectPath (w : World) (r : Nat) : World × List Nat :=
  if (w.rails r).dataReady then (w.getRail r, [r]) else (w, [])

/-- `native_fragment_striping && !tbv_send_ctx_is_write(ctx)`. -/
def Post.striping (p : Post) : Bool := p.fragmentStriping && !p.ctx.opcode.isWrite

def Post.nfrags (p : Post) : Nat := fragCount p.ctx.totalLen

/-- `(ctx->psn + frag_idx) % path_count`, or 0 without striping. -/
def Post.pathIdx (p : Post) (pathCount fragIdx : Nat) : Nat :=
  if p.striping then (p.ctx.psn + fragIdx) % pathCount else 0

/-- `reservations` before anything is reserved: how many frames each path is to carry. -/
def Post.wanted (p : Post) (pathCount : Nat) : List Nat :=
  (List.range p.nfrags).foldl (fun counts i => counts.modify (p.pathIdx pathCount i) (· + 1))
    (List.replicate pathCount 0)

def Post.collect (p : Post) (w : World) : World × List Lane :=
  let taken := if p.striping then collectPathsLoop w p.peerRails maxLanes
    else selectPath w p.ownRail
  (taken.1, List.zipWith (fun rail reservation => { rail, reservation }) taken.2
    (p.wanted taken.2.length))

/-! ## Reserving -/

/-- The loop over `tbv_path_reserve_data`.  When it fails, the entries behind the failing one
still hold what they want. -/
def reserveLanes (w : World) : List Lane → World × List Lane × Int
  | [] => (w, [], 0)
  | lane :: rest =>
      if lane.reservation = 0 then
        let out := reserveLanes w rest
        (out.1, lane :: out.2.1, out.2.2)
      else
        match reserveData (w.path lane.rail) lane.reservation with
        | .error ret => (w, { lane with reservation := 0 } :: rest, ret)
        | .ok path =>
            let out := reserveLanes (w.setPath lane.rail path) rest
            (out.1, lane :: out.2.1, out.2.2)

/-- One turn of `tbv_release_path_reservations`. -/
def releaseReservation (w : World) (lane : Lane) : World :=
  if lane.reservation = 0 then w
  else w.setPath lane.rail (releaseDataReservation (w.path lane.rail) lane.reservation)

def releasePathReservations (w : World) (lanes : List Lane) : World :=
  lanes.foldl releaseReservation w

def releasePathRefs (w : World) (lanes : List Lane) : World :=
  lanes.foldl (fun w lane => w.putRail lane.rail) w

/-! ## Building frames -/

def postErrno : PostError → Int
  | .efault => efault
  | .emsgsize => emsgsize
  | _ => einval

/-- One turn of the loop: the buffer, the copy, the header, the owned frame. -/
def Post.buildFrame (p : Post) (faults : Faults) (fragIdx offset : Nat) :
    Except Int (List UInt8) :=
  if faults.kmalloc fragIdx then .error enomem
  else
    match faults.umemCopy fragIdx with
    | some ret => .error ret
    | none =>
        match p.ctx.frame p.qp p.memory offset with
        | .error err => .error (postErrno err)
        | .ok frame => if faults.kzalloc fragIdx then .error enomem else .ok frame

def Lane.addFrame (lane : Lane) (frame : List UInt8) : Lane :=
  { lane with frames := lane.frames ++ [frame] }

/-- The loop over the fragments, at most `fuel` turns of it; `fragIdx` have been built. -/
def Post.buildFrames (p : Post) (faults : Faults) :
    Nat → Nat → Nat → List Lane → Except Int (List Lane)
  | 0, _, _, lanes => .ok lanes
  | fuel + 1, fragIdx, offset, lanes =>
      match p.buildFrame faults fragIdx offset with
      | .error ret => .error ret
      | .ok frame =>
          let lanes := lanes.modify (p.pathIdx lanes.length fragIdx) (·.addFrame frame)
          let next := offset + fragLen p.ctx.totalLen offset
          if next < p.ctx.totalLen then p.buildFrames faults fuel (fragIdx + 1) next lanes
          else .ok lanes

/-! ## Preparing packets -/

/-- `tbv_send_tx_done` and the context it is given. -/
def sendTxDone : Nat := 0
def sendCtx : Nat := 0

def framePacket (frame : List UInt8) : TxPacket where
  frame := { len := frame.length, parsed := (parseHeader frame).toOption }
  origin := .framed
  done := some sendTxDone
  doneCtx := some sendCtx

/-- `tbv_path_release_prepared_list_silent`. -/
def releaseSilent (w : World) (r : Nat) (packets : List TxPacket) (status : Int) : World :=
  w.setPath r (releasePacketList (w.path r)
    (packets.map fun pkt => { pkt with done := none, doneCtx := none }) status)

/-- The loop of `tbv_path_prepare_owned_list`, with the packets it has prepared when it stops. -/
def prepareLoop (allocFails : Nat → Bool) : Nat → List (List UInt8) → List TxPacket × Int
  | _, [] => ([], 0)
  | i, frame :: rest =>
      if frame.length = 0 ∨ frameSize < frame.length then ([], einval)
      else if allocFails i then ([], enomem)
      else
        let out := prepareLoop allocFails (i + 1) rest
        (framePacket frame :: out.1, out.2)

/-- `tbv_path_prepare_owned_list` for one lane; the frames are used up either way. -/
def prepareOwnedList (faults : Faults) (w : World) (lane : Lane) : World × Lane × Int :=
  let out := prepareLoop (faults.packetAlloc lane.rail) 0 lane.frames
  if out.2 = 0 then (w, { lane with frames := [], packets := out.1 }, 0)
  else (releaseSilent w lane.rail out.1 out.2, { lane with frames := [] }, out.2)

/-- The loop over `tbv_path_prepare_owned_list`. -/
def prepareLanes (faults : Faults) (w : World) : List Lane → World × List Lane × Int
  | [] => (w, [], 0)
  | lane :: rest =>
      if lane.frames = [] then
        let out := prepareLanes faults w rest
        (out.1, lane :: out.2.1, out.2.2)
      else
        let first := prepareOwnedList faults w lane
        if first.2.2 ≠ 0 then (first.1, first.2.1 :: rest, first.2.2)
        else
          let out := prepareLanes faults first.1 rest
          (out.1, first.2.1 :: out.2.1, out.2.2)

def totalFrames (lanes : List Lane) : Nat := (lanes.map fun lane => lane.packets.length).sum

/-- `atomic_add(total_frames, &ctx->tx_pending)` and as many `tbv_send_ctx_get`. -/
def World.charge (w : World) (frames : Nat) : World :=
  { w with txPending := w.txPending + frames, refs := w.refs + frames }

def World.uncharge (w : World) (frames : Nat) : World :=
  { w with txPending := w.txPending - frames, refs := w.refs - frames }

/-! ## Enqueueing -/

/-- `tbv_path_enqueue_prepared_reserved`, which releases the packets when it fails. -/
def enqueuePrepared (faults : Faults) (w : World) (lane : Lane) : World × Int :=
  match if faults.closed lane.rail then .error enotconn
    else enqueueReservedDataList (w.path lane.rail) lane.packets with
  | .error ret => (releaseSilent w lane.rail lane.packets ret, ret)
  | .ok path => (w.setPath lane.rail path, 0)

def releaseAllSilent (w : World) (lanes : List Lane) (status : Int) : World :=
  lanes.foldl (fun w lane => releaseSilent w lane.rail lane.packets status) w

/-- `packet_counts` and `reservations` are cleared and the list is empty. -/
def Lane.clear (lane : Lane) : Lane := { lane with reservation := 0, packets := [] }

/-- The loop over the paths; `queued` frames are on their queues.  Once one path has taken
its frames the call is not undone. -/
def enqueueLanes (faults : Faults) (w : World) : List Lane → Nat → World × List Lane × Int
  | [], _ => (w, [], 0)
  | lane :: rest, queued =>
      if lane.packets = [] then
        let out := enqueueLanes faults w rest queued
        (out.1, lane :: out.2.1, out.2.2)
      else
        let first := enqueuePrepared faults w lane
        if first.2 = 0 then
          let out := enqueueLanes faults first.1 rest (queued + lane.packets.length)
          (out.1, lane.clear :: out.2.1, out.2.2)
        else
          let w := releaseAllSilent first.1 rest first.2
          let w := releasePathReservations w (lane :: rest)
          (w.uncharge (totalFrames (lane :: rest)), lane.clear :: rest.map Lane.clear,
            if queued = 0 then first.2 else 0)

/-! ## The call -/

/-- The label `err_release_paths`. -/
def errReleasePaths (w : World) (lanes : List Lane) (ret : Int) : World × Int :=
  let w := releaseAllSilent w lanes ret
  (releasePathRefs (releasePathReservations w lanes) lanes, ret)

/-- Behind the loop over the fragments. -/
def sendFrames (faults : Faults) (w : World) (lanes : List Lane) : World × Int :=
  let prepared := prepareLanes faults w lanes
  if prepared.2.2 ≠ 0 then errReleasePaths prepared.1 prepared.2.1 prepared.2.2
  else if totalFrames prepared.2.1 = 0 then errReleasePaths prepared.1 prepared.2.1 eio
  else
    let charged := prepared.1.charge (totalFrames prepared.2.1)
    let out := enqueueLanes faults charged prepared.2.1 0
    if out.2.2 ≠ 0 then errReleasePaths out.1 out.2.1 out.2.2
    else (releasePathRefs out.1 out.2.1, 0)

/-- The framed part of `tbv_native_send_ctx_post_frames`. -/
def Post.postFrames (p : Post) (faults : Faults) (w : World) : World × Int :=
  let collected := p.collect w
  if collected.2 = [] then (collected.1, enotconn)
  else
    let reserved := reserveLanes collected.1 collected.2
    if reserved.2.2 ≠ 0 then
      (releasePathRefs (releasePathReservations reserved.1 reserved.2.1) reserved.2.1,
        reserved.2.2)
    else
      match p.buildFrames faults p.nfrags 0 0 reserved.2.1 with
      | .error ret => errReleasePaths reserved.1 reserved.2.1 ret
      | .ok lanes => sendFrames faults reserved.1 lanes

end Tbv.FramedPost
