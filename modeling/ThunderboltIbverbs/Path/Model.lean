import ThunderboltIbverbs.Proto.NativeData

/-! # One native path: the TX queues, the scheduler and the RX callback

`kernel/path.c`.  A path owns two software queues, a staging pool and one TX
ring, and gates data packets by the credits its peer returned.  Pointers
(`done_ctx`, `owner_ctx`, callback functions) are `Option Nat`, `none` for
`NULL`.  A frame's bytes matter to a path only through their length and through
what `tbv_native_data_parse_header` makes of them, which for a page of user
memory can be anything.

One iteration of the loop in `tbv_path_schedule_tx` is one step here: from the
dequeue under `tx_lock` to the return of `tb_ring_tx` the packet belongs to the
one scheduler that `tx_scheduling` admits. -/
set_option autoImplicit false
namespace Tbv.NativePath

open Tbv.NativeData

def dataCreditControlReserve : Nat := 256
def u32Max : Nat := 2 ^ 32 - 1

/-- What the path reads of a frame: its length and its parsed header. -/
structure WireFrame where
  len : Nat
  parsed : Option Header
  deriving DecidableEq, Repr

/-- Who built a packet.  The code keeps no such field; it says which stream a
zero-copy packet belongs to and at which byte offset. -/
inductive Origin where
  | control
  | framed
  | streamHeader (sid : Nat)
  | streamPayload (sid offset : Nat)
  deriving DecidableEq, Repr

structure TxPacket where
  frame : WireFrame
  origin : Origin
  done : Option Nat := none
  doneCtx : Option Nat := none
  ownerCtx : Option Nat := none
  startCreditGroupFrames : Nat := 0
  control : Bool := false
  zcopy : Bool := false
  rawStreamStart : Bool := false
  rawStreamEnd : Bool := false
  rawStreamCounted : Bool := false
  canceled : Bool := false
  deriving DecidableEq, Repr

/-- The ring sizes of `struct tbv_path_config` and the module parameter
`native_tx_max_inflight`. -/
structure PathConfig where
  txRingSize : Nat
  rxRingSize : Nat
  nativeTxMaxInflight : Nat
  txRingSize_pos : 0 < txRingSize
  rxRingSize_pos : 0 < rxRingSize
  rxRingSize_u32 : rxRingSize < 2 ^ 32

/-- The rings `tbv_path_default_config` gives a native path, under the default
throttle. -/
def nativeConfig : PathConfig where
  txRingSize := 4096
  rxRingSize := 4096
  nativeTxMaxInflight := 32
  txRingSize_pos := by decide
  rxRingSize_pos := by decide
  rxRingSize_u32 := by decide

/-- `struct tbv_path`, less its statistics.  `ring` lists the packets submitted
to the NHI and not yet retired, oldest first; `released` is the history of the
packets given back with the status their `done` callback saw. -/
structure Path where
  cfg : PathConfig
  tunnelEnabled : Bool := true
  txClosed : Bool := false
  txFrameCount : Nat
  txFree : Nat
  txInflight : Nat := 0
  txControlQueue : List TxPacket := []
  txDataQueue : List TxPacket := []
  txControlQueued : Nat := 0
  txDataQueued : Nat := 0
  txDataReserved : Nat := 0
  txDataQueueLimit : Nat
  txRemoteDataCredits : Nat := 0
  txRemoteDataCreditMax : Nat := 0
  rxDataCreditPending : Nat := 0
  txRawStreamActive : Bool := false
  txRawStreamOwner : Option Nat := none
  txRawStreamInflight : Nat := 0
  txRawStreamEndSeen : Bool := false
  rxRawPending : Bool := false
  rxRawHdr : Header := { opcode := .send }
  rxRawDone : Nat := 0
  rxRawRemaining : Nat := 0
  ring : List TxPacket := []
  released : List (TxPacket × Int) := []
  nextStream : Nat := 0

def enomem : Int := -12
def ecanceled : Int := -125
def enotconn : Int := -107

/-- A path whose rings have just been started: the staging pool holds one frame
for every TX descriptor and the data queue 64 times as many packets. -/
def Path.fresh (cfg : PathConfig) : Path where
  cfg := cfg
  txFrameCount := cfg.txRingSize
  txFree := cfg.txRingSize
  txDataQueueLimit := cfg.txRingSize * 64

/-! ## Windows and limits -/

def dataCreditWindow (rxRingSize : Nat) : Nat :=
  if rxRingSize = 0 then 0
  else
    let credits :=
      if rxRingSize ≤ dataCreditControlReserve then rxRingSize / 2
      else rxRingSize - dataCreditControlReserve
    let batched :=
      if creditBatch < credits then credits - credits % creditBatch else credits
    if batched = 0 then 1 else batched

/-- `tbv_path_tx_inflight_limit` of a native path. -/
def txInflightLimit (p : Path) : Nat :=
  if p.cfg.nativeTxMaxInflight = 0 then 0
  else min (max p.cfg.nativeTxMaxInflight 1) p.cfg.txRingSize

def txControlFrameReserve (p : Path) : Nat :=
  if p.txFrameCount ≤ 1 then 0
  else min (max (p.txFrameCount / 4) 1) dataCreditControlReserve

/-- `tbv_path_tx_admits_locked`. -/
def txAdmits (p : Path) : Bool := p.tunnelEnabled && !p.txClosed

/-! ## Enqueueing -/

def txPacketRelease (p : Path) (pkt : TxPacket) (status : Int) : Path :=
  { p with released := p.released ++ [(pkt, status)] }

def releasePacketList (p : Path) (pkts : List TxPacket) (status : Int) : Path :=
  pkts.foldl (fun q pkt => txPacketRelease q pkt status) p

/-- `tbv_path_enqueue_control`; the packet pool falls back to an allocation,
so only admission can refuse. -/
def enqueueControl (p : Path) (pkt : TxPacket) : Except Int Path :=
  if !txAdmits p then .error enotconn
  else .ok { p with
    txControlQueue := p.txControlQueue ++ [pkt]
    txControlQueued := p.txControlQueued + 1 }

def enqueueData (p : Path) (pkt : TxPacket) : Except Int Path :=
  let queued (q : Path) : Path := { q with
    txDataQueue := q.txDataQueue ++ [{ pkt with startCreditGroupFrames := 1 }]
    txDataQueued := q.txDataQueued + 1 }
  if !txAdmits p then .error enotconn
  else if p.txDataReserved ≠ 0 then
    .ok (queued { p with txDataReserved := p.txDataReserved - 1 })
  else if p.txDataQueueLimit ≤ p.txDataQueued then .error enomem
  else .ok (queued p)

/-- The first packet of a list carries the size of its credit group. -/
def markGroup (count : Nat) : List TxPacket → List TxPacket
  | [] => []
  | pkt :: rest =>
      { pkt with startCreditGroupFrames := count } ::
        rest.map fun q => { q with startCreditGroupFrames := 0 }

def enqueueDataList (p : Path) (pkts : List TxPacket) : Except Int Path :=
  let count := pkts.length
  if count = 0 then .ok p
  else if !txAdmits p then .error enotconn
  else if p.txDataQueueLimit < count ∨
      p.txDataQueueLimit - count < p.txDataQueued + p.txDataReserved then .error enomem
  else .ok { p with
    txDataQueue := p.txDataQueue ++ markGroup count pkts
    txDataQueued := p.txDataQueued + count }

def enqueueReservedDataList (p : Path) (pkts : List TxPacket) : Except Int Path :=
  let count := pkts.length
  if count = 0 then .ok p
  else if !txAdmits p then .error enotconn
  else if p.txDataReserved < count then .error enomem
  else .ok { p with
    txDataReserved := p.txDataReserved - count
    txDataQueue := p.txDataQueue ++ markGroup count pkts
    txDataQueued := p.txDataQueued + count }

def reserveData (p : Path) (frames : Nat) : Except Int Path :=
  if frames = 0 then .ok p
  else if !txAdmits p then .error enotconn
  else if p.txDataQueueLimit < frames ∨
      p.txDataQueueLimit - frames < p.txDataQueued + p.txDataReserved then .error enomem
  else .ok { p with txDataReserved := p.txDataReserved + frames }

def releaseDataReservation (p : Path) (frames : Nat) : Path :=
  { p with txDataReserved := p.txDataReserved - frames }

/-! ## Page streams -/

/-- What `tbv_native_send_ctx_post_frames` hands to `tbv_path_send_page_stream`:
the native header of a WRITE, the send context that owns the stream, and the
pages `tbv_send_page_stream_next` yields. -/
structure PageStream where
  hdr : Header
  owner : Nat
  pageCtx : Nat
  metaDone : Nat
  pageDone : Nat
  pages : List WireFrame
  isWrite : hdr.opcode = .rdmaWrite ∨ hdr.opcode = .rdmaWriteImm
  knownFlags : hdr.flags &&& ~~~(fLast ||| fSolicited) = 0
  nonempty : pages ≠ []
  pageLen : ∀ page ∈ pages, 0 < page.len ∧ page.len ≤ frameSize
  fits : (pages.map WireFrame.len).sum ≤ maxMsgSize

def PageStream.totalLength (s : PageStream) : Nat := (s.pages.map WireFrame.len).sum

def PageStream.headerPacket (s : PageStream) (sid : Nat) : TxPacket where
  frame :=
    { len := hdrSize
      parsed := some { s.hdr with
        length := s.totalLength
        flags := s.hdr.flags ||| fLast ||| fRawStream } }
  origin := .streamHeader sid
  done := some s.metaDone
  doneCtx := some s.owner
  ownerCtx := some s.owner
  rawStreamStart := true

/-- The zero-copy packets of the pages still to come at byte `prepared`. -/
def payloadPackets (owner pageDone pageCtx sid : Nat) : Nat → List WireFrame → List TxPacket
  | _, [] => []
  | prepared, page :: rest =>
      { frame := page
        origin := .streamPayload sid prepared
        done := some pageDone
        doneCtx := some pageCtx
        ownerCtx := some owner
        zcopy := true
        rawStreamEnd := rest.isEmpty } ::
      payloadPackets owner pageDone pageCtx sid (prepared + page.len) rest

def PageStream.packets (s : PageStream) (sid : Nat) : List TxPacket :=
  s.headerPacket sid :: payloadPackets s.owner s.pageDone s.pageCtx sid 0 s.pages

/-- `tbv_path_send_page_stream`: the prepared packets are enqueued as one group,
or all released with the error. -/
def sendPageStream (p : Path) (s : PageStream) : Path :=
  match enqueueDataList p (s.packets p.nextStream) with
  | .ok q => { q with nextStream := p.nextStream + 1 }
  | .error status => releasePacketList p (s.packets p.nextStream) status

/-! ## Raw stream accounting -/

/-- `tbv_path_count_raw_stream_locked`. -/
def countRawStream (p : Path) (pkt : TxPacket) : Path × TxPacket :=
  let p := if pkt.rawStreamStart then
      { p with
        txRawStreamActive := true
        txRawStreamOwner := pkt.ownerCtx
        txRawStreamInflight := 0
        txRawStreamEndSeen := false }
    else p
  if p.txRawStreamActive && pkt.ownerCtx == p.txRawStreamOwner then
    ({ p with txRawStreamInflight := p.txRawStreamInflight + 1 },
      { pkt with rawStreamCounted := true })
  else (p, pkt)

def finishRawStreamIfNeeded (p : Path) (pkt : TxPacket) : Path :=
  if !pkt.rawStreamCounted then p
  else
    let p :=
      if p.txRawStreamOwner == pkt.ownerCtx then
        let endSeen := pkt.rawStreamEnd || p.txRawStreamEndSeen
        let inflight := p.txRawStreamInflight - 1
        if endSeen && inflight == 0 then
          { p with
            txRawStreamInflight := inflight
            txRawStreamActive := false
            txRawStreamOwner := none
            txRawStreamEndSeen := false }
        else { p with txRawStreamInflight := inflight, txRawStreamEndSeen := endSeen }
      else p
    if p.txRawStreamActive then p
    else
      { p with
        txRawStreamOwner := none
        txRawStreamEndSeen := false
        txRawStreamInflight := 0 }

/-! ## The scheduler -/

/-- The packet `tbv_path_schedule_tx` would take next, with whether it comes
from the control queue: inside a raw stream only that stream's next page. -/
def scheduleChoice (p : Path) : Option (Bool × TxPacket) :=
  if !txAdmits p then none
  else if p.txRawStreamActive then
    match p.txDataQueue with
    | [] => none
    | pkt :: _ =>
        if !pkt.zcopy || pkt.rawStreamStart || pkt.ownerCtx != p.txRawStreamOwner then none
        else some (false, pkt)
  else
    match p.txControlQueue with
    | pkt :: _ => some (true, pkt)
    | [] =>
        match p.txDataQueue with
        | [] => none
        | pkt :: _ => some (false, pkt)

/-- The gates between the choice of a packet and its dequeue: the in-flight
limit, the staging pool with its control reserve, and the remote credits. -/
def scheduleBlocked (p : Path) (fromControlQueue : Bool) (pkt : TxPacket) : Bool :=
  let needsStaging := fromControlQueue || !pkt.zcopy
  let limit := txInflightLimit p
  (!fromControlQueue && limit != 0 && decide (limit ≤ p.txInflight)) ||
  (needsStaging && p.txFree == 0) ||
  (needsStaging && !fromControlQueue &&
    decide (p.txFrameCount - p.txInflight ≤ txControlFrameReserve p)) ||
  (!pkt.control && p.txRemoteDataCreditMax != 0 &&
    decide (p.txRemoteDataCredits <
      max 1 (startCreditRequired pkt.startCreditGroupFrames p.txRemoteDataCreditMax)))

def chargesCredit (p : Path) (pkt : TxPacket) : Bool :=
  !pkt.control && p.txRemoteDataCreditMax != 0

/-- The dequeue section: one credit is charged, the packet leaves its queue, is
counted into the raw stream and takes a staging frame unless it is zero-copy. -/
def scheduleTake (p : Path) (fromControlQueue : Bool) (pkt : TxPacket) : Path × TxPacket :=
  let p := if chargesCredit p pkt then
      { p with txRemoteDataCredits := p.txRemoteDataCredits - 1 } else p
  let p := if fromControlQueue then
      { p with
        txControlQueue := p.txControlQueue.tail
        txControlQueued := p.txControlQueued - 1 }
    else
      { p with
        txDataQueue := p.txDataQueue.tail
        txDataQueued := p.txDataQueued - 1 }
  let (p, pkt) := countRawStream p { pkt with startCreditGroupFrames := 0 }
  ({ p with
      txFree := if fromControlQueue || !pkt.zcopy then p.txFree - 1 else p.txFree
      txInflight := p.txInflight + 1 }, pkt)

/-- What `tb_ring_tx` returns: `-ENOMEM` for a full ring, another error for a
ring that is not running. -/
inductive RingTx where
  | ok
  | error (status : Int)
  deriving DecidableEq, Repr

/-- The error path after `tb_ring_tx`: the staging frame, the raw stream fields
and the credit go back; a full ring puts the packet back at the head of its
queue, any other error releases it. -/
def scheduleRollback (old taken : Path) (fromControlQueue : Bool) (pkt : TxPacket)
    (status : Int) : Path :=
  let back : Path := { taken with
    txFree := old.txFree
    txInflight := old.txInflight
    txRawStreamActive := old.txRawStreamActive
    txRawStreamOwner := old.txRawStreamOwner
    txRawStreamInflight := old.txRawStreamInflight
    txRawStreamEndSeen := old.txRawStreamEndSeen
    txRemoteDataCredits :=
      if chargesCredit old pkt &&
          decide (taken.txRemoteDataCredits < taken.txRemoteDataCreditMax) then
        taken.txRemoteDataCredits + 1
      else taken.txRemoteDataCredits }
  if status = enomem ∧ taken.tunnelEnabled = true ∧
      (pkt.control = true ∨ pkt.done.isSome ∨ pkt.ownerCtx.isSome) then
    if fromControlQueue then
      { back with
        txControlQueue := pkt :: back.txControlQueue
        txControlQueued := back.txControlQueued + 1 }
    else
      { back with
        txDataQueue := pkt :: back.txDataQueue
        txDataQueued := back.txDataQueued + 1 }
  else txPacketRelease back pkt status

/-- One iteration of the loop in `tbv_path_schedule_tx`, with the packet it
handed to the ring. -/
def scheduleTx (p : Path) (ring : RingTx) : Path × Option TxPacket :=
  match scheduleChoice p with
  | none => (p, none)
  | some (fromControlQueue, pkt) =>
      if scheduleBlocked p fromControlQueue pkt then (p, none)
      else
        let (taken, posted) := scheduleTake p fromControlQueue pkt
        match ring with
        | .ok => ({ taken with ring := taken.ring ++ [posted] }, some posted)
        | .error status => (scheduleRollback p taken fromControlQueue pkt status, none)

/-- `tbv_path_tx_complete` and `tbv_path_zcopy_tx_complete`: the ring retires its
oldest descriptor. -/
def txComplete (p : Path) (canceled : Bool) : Path :=
  match p.ring with
  | [] => p
  | pkt :: rest =>
      let p := { p with
        ring := rest
        txFree := if pkt.zcopy then p.txFree else p.txFree + 1 }
      let p := finishRawStreamIfNeeded p pkt
      let p := txPacketRelease p pkt (if canceled || pkt.canceled then ecanceled else 0)
      { p with txInflight := p.txInflight - 1 }

/-! ## Cancelling -/

def packetMatches (pkt : TxPacket) (done doneCtx ownerCtx : Option Nat) : Bool :=
  (ownerCtx.isSome && pkt.ownerCtx == ownerCtx) ||
  (done.isSome && doneCtx.isSome && pkt.done == done && pkt.doneCtx == doneCtx)

/-- `tbv_path_cancel_data_match`: queued packets are released with
`-ECANCELED`, submitted ones only marked. -/
def cancelDataMatch (p : Path) (done doneCtx ownerCtx : Option Nat) : Path :=
  if (done.isNone || doneCtx.isNone) && ownerCtx.isNone then p
  else
    let p := if ownerCtx.isSome && p.txRawStreamActive && p.txRawStreamOwner == ownerCtx then
        { p with
          txRawStreamActive := false
          txRawStreamOwner := none
          txRawStreamEndSeen := false
          txRawStreamInflight := 0 }
      else p
    let hit (pkt : TxPacket) : Bool := packetMatches pkt done doneCtx ownerCtx
    let cancel := p.txDataQueue.filter hit
    let p := { p with
      txDataQueue := p.txDataQueue.filter (fun pkt => !hit pkt)
      txDataQueued := p.txDataQueued - cancel.length
      ring := p.ring.map fun pkt =>
        if !pkt.control && hit pkt then { pkt with canceled := true } else pkt }
    releasePacketList p cancel ecanceled

def cancelDataDoneCtx (p : Path) (done doneCtx : Option Nat) : Path :=
  cancelDataMatch p done doneCtx none

def cancelDataOwnerCtx (p : Path) (ownerCtx : Option Nat) : Path :=
  cancelDataMatch p none none ownerCtx

/-! ## Credits and reception -/

def setRemoteRxCapacity (p : Path) (rxRingSize : Nat) : Path :=
  { p with
    txRemoteDataCreditMax := dataCreditWindow rxRingSize
    txRemoteDataCredits := dataCreditWindow rxRingSize
    rxDataCreditPending := 0 }

def addRemoteRxCredits (p : Path) (credits : Nat) : Path :=
  if credits = 0 ∨ p.txRemoteDataCreditMax = 0 then p
  else
    { p with
      txRemoteDataCredits :=
        if p.txRemoteDataCreditMax ≤ p.txRemoteDataCredits then p.txRemoteDataCreditMax
        else if p.txRemoteDataCreditMax - p.txRemoteDataCredits < credits then
          p.txRemoteDataCreditMax
        else p.txRemoteDataCredits + credits }

/-- The frame `tbv_path_send_rx_credit` puts on the control queue. -/
def pathCreditPacket (credits : Nat) : TxPacket where
  frame := { len := hdrSize, parsed := some { opcode := .pathCredit, immData := credits } }
  origin := .control
  control := true

/-- `tbv_path_return_rx_data_credit`; a refused frame leaves the credits
pending. -/
def returnRxDataCredit (p : Path) (credits : Nat) : Path :=
  if credits = 0 then p
  else
    let threshold := creditReturnThreshold (dataCreditWindow p.cfg.rxRingSize)
    let pending := min u32Max (p.rxDataCreditPending + credits)
    if threshold ≤ pending then
      let p := { p with rxDataCreditPending := 0 }
      match enqueueControl p (pathCreditPacket pending) with
      | .ok q => q
      | .error _ =>
          { p with rxDataCreditPending := min u32Max (p.rxDataCreditPending + pending) }
    else { p with rxDataCreditPending := pending }

def consumesRxCredit : Op → Bool
  | .send | .sendImm | .rdmaWrite | .rdmaWriteImm | .rdmaReadReq | .rdmaReadResp | .mad => true
  | _ => false

def validPathCredit (hdr : Header) : Bool :=
  hdr.opcode == .pathCredit && hdr.immData != 0 && hdr.flags == 0 && hdr.destQp == 0 &&
    hdr.srcQp == 0 && hdr.psn == 0 && hdr.length == 0 && hdr.remoteAddr == 0 && hdr.rkey == 0

def rxStartRaw (p : Path) (hdr : Header) : Path :=
  { p with
    rxRawHdr := hdr
    rxRawDone := 0
    rxRawRemaining := hdr.length
    rxRawPending := hdr.length != 0 }

/-- What `tbv_path_rx_complete` hands up to the verbs layer. -/
inductive RxUp where
  | nothing
  | rawPayload (hdr : Header)
  | frame (frame : WireFrame)
  deriving DecidableEq, Repr

def rxRawPayload (p : Path) (len : Nat) : Path × RxUp :=
  let stop : Path := { p with rxRawPending := false, rxRawRemaining := 0 }
  if !p.rxRawPending || len == 0 || decide (p.rxRawRemaining < len) then (stop, .nothing)
  else
    let stream := { p.rxRawHdr with length := p.rxRawDone + p.rxRawRemaining, fragOffset := 0 }
    match rawPayloadHeader stream p.rxRawDone p.rxRawRemaining len with
    | none => (stop, .nothing)
    | some hdr =>
        ({ p with
            rxRawPending := if len = p.rxRawRemaining then false else p.rxRawPending
            rxRawDone := p.rxRawDone + len
            rxRawRemaining := p.rxRawRemaining - len }, .rawPayload hdr)

/-- What the RX callback does with a frame, before it touches the credits: the
new path, the credits to return to the peer, the credits the peer returned, and
what goes up. -/
def rxClassify (p : Path) (frame : WireFrame) : Path × Nat × Nat × RxUp :=
  if frameSize < frame.len then (p, 0, 0, .nothing)
  else if p.rxRawPending then
    let (q, up) := rxRawPayload p frame.len
    (q, 1, 0, up)
  else
    match frame.parsed with
    | none => (p, 0, 0, .frame frame)
    | some hdr =>
        if hdr.opcode = .pathCredit then
          if validPathCredit hdr then (p, 0, hdr.immData, .nothing) else (p, 0, 0, .nothing)
        else if hasFlag hdr.flags fRawStream then
          if frame.len ≠ hdrSize ∨ hdr.length = 0 ∨
              hdr.flags &&& ~~~(fLast ||| fSolicited ||| fRawStream) ≠ 0 then
            (p, 0, 0, .nothing)
          else (rxStartRaw p hdr, 1, 0, .nothing)
        else (p, if consumesRxCredit hdr.opcode then 1 else 0, 0, .frame frame)

/-- `tbv_path_rx_complete` of a native path whose RX repost succeeds. -/
def rxComplete (p : Path) (frame : WireFrame) : Path :=
  let (q, returned, added, _) := rxClassify p frame
  addRemoteRxCredits (returnRxDataCredit q returned) added

end Tbv.NativePath
