import ThunderboltIbverbs.Lib.Run
import ThunderboltIbverbs.Lib.Threads
import ThunderboltIbverbs.Path.Model

/-! # The TX side of a path, one lock section at a time

`kernel/path.c`.  `Path.Model` takes an iteration of the scheduler as one step; here every
section under `tx_lock`, every `tb_ring_tx`, every `done` callback and every change of
`tx_inflight` is a step of its own, and any number of threads interleave.  A packet is held
by value by whoever owns it (a queue, the scheduler, the ring, a callback, a private list);
`canceled` is the one field somebody else writes, so it stands beside the packets. -/
set_option autoImplicit false
namespace Tbv.Tx

open NativeData
open NativePath (enomem ecanceled enotconn dataCreditWindow dataCreditControlReserve)

def einval : Int := -22

/-- `struct tbv_tx_packet`.  `id` stands for its address: a packet of the pool that is taken
again is a new one. -/
structure TxPacket where
  id : Nat
  control : Bool := false
  zcopy : Bool := false
  done : Option Nat := none
  doneCtx : Option Nat := none
  ownerCtx : Option Nat := none
  startCreditGroupFrames : Nat := 0
  rawStreamStart : Bool := false
  rawStreamEnd : Bool := false
  rawStreamCounted : Bool := false
  deriving DecidableEq, Repr

/-- The limits of a path: its TX ring and the in-flight limit of its backend before it is
clamped (`native_tx_max_inflight`, or `TBV_DATA_TX_MAX_INFLIGHT`). -/
structure Config where
  txRingSize : Nat
  txMaxInflight : Nat
  pos : 0 < txRingSize

/-- The `tx_raw_stream_*` fields. -/
structure RawStream where
  active : Bool := false
  owner : Option Nat := none
  endSeen : Bool := false
  inflight : Nat := 0
  deriving DecidableEq, Repr

/-- A descriptor of the ring: the packet it was submitted for and, unless the packet is
zero-copy, its staging frame. -/
structure Desc where
  frame : Option Nat
  pkt : TxPacket
  deriving DecidableEq, Repr

/-- The TX side of `struct tbv_path`.  `txFrames i` is `tx_frames[i].packet`, `canceled` the
packets whose `canceled` is set, `ring` the descriptors submitted and not yet given to
their callback.  The last fields are history: the packets whose enqueue returned 0, those of
page streams that failed, those given back and with which status, those of other sends that
failed, those whose callback ran (`completed` if the ring did not cancel it), and those an
owner canceled before that. -/
structure Path where
  cfg : Config
  tunnelEnabled : Bool := true
  txClosed : Bool := false
  txScheduling : Bool := false
  txInflight : Nat := 0
  txControlQueue : List TxPacket := []
  txDataQueue : List TxPacket := []
  txControlQueued : Nat := 0
  txDataQueued : Nat := 0
  txDataReserved : Nat := 0
  txRemoteDataCredits : Nat := 0
  txRemoteDataCreditMax : Nat := 0
  rawStream : RawStream := {}
  txFree : List Nat
  txFrames : Nat → Option TxPacket := fun _ => none
  txZcopyInflight : List TxPacket := []
  canceled : List Nat := []
  ringRunning : Bool := true
  ring : List Desc := []
  flushed : Bool := false
  nextId : Nat := 0
  owed : List TxPacket := []
  failed : List TxPacket := []
  released : List (Nat × Int) := []
  refused : List Nat := []
  retired : List Nat := []
  completed : List Nat := []
  covered : List Nat := []

def Path.txFrameCount (p : Path) : Nat := p.cfg.txRingSize
def Path.txDataQueueLimit (p : Path) : Nat := p.cfg.txRingSize * 64

def Path.fresh (cfg : Config) : Path where
  cfg := cfg
  txFree := List.range cfg.txRingSize

def Path.txInflightLimit (p : Path) : Nat :=
  if p.cfg.txMaxInflight = 0 then 0 else min (max p.cfg.txMaxInflight 1) p.cfg.txRingSize

def Path.txControlFrameReserve (p : Path) : Nat :=
  if p.txFrameCount ≤ 1 then 0
  else min (max (p.txFrameCount / 4) 1) dataCreditControlReserve

/-- `tbv_path_tx_admits_locked`. -/
def Path.txAdmits (p : Path) : Bool := p.tunnelEnabled && !p.txClosed

/-! ## Sending -/

/-- The path takes the packets over and owes each of them its `done`. -/
def Path.take (p : Path) (pkts : List TxPacket) : Path :=
  { p with nextId := p.nextId + pkts.length, owed := p.owed ++ pkts }

/-- A page stream fails and gives its packets back itself. -/
def Path.fail (p : Path) (pkts : List TxPacket) : Path :=
  { p with nextId := p.nextId + pkts.length, failed := p.failed ++ pkts }

/-- The send fails and forgets its packets. -/
def Path.refuse (p : Path) (count : Nat) : Path :=
  { p with
    nextId := p.nextId + count
    refused := p.refused ++ List.range' p.nextId count }

def Path.enqueueControl (p : Path) (pkt : TxPacket) : Option Path :=
  if !p.txAdmits then none
  else
    some { p with
      txControlQueue := p.txControlQueue ++ [pkt]
      txControlQueued := p.txControlQueued + 1 }

def Path.enqueueData (p : Path) (pkt : TxPacket) : Option Path :=
  let pkt := { pkt with startCreditGroupFrames := 1 }
  let queued (p : Path) : Path := { p with
    txDataQueue := p.txDataQueue ++ [pkt], txDataQueued := p.txDataQueued + 1 }
  if !p.txAdmits then none
  else if p.txDataReserved ≠ 0 then some (queued { p with txDataReserved := p.txDataReserved - 1 })
  else if p.txDataQueueLimit ≤ p.txDataQueued then none
  else some (queued p)

/-- The first packet of a list carries the size of its credit group. -/
def markGroup (count : Nat) : List TxPacket → List TxPacket
  | [] => []
  | pkt :: rest =>
      { pkt with startCreditGroupFrames := count } ::
        rest.map fun q => { q with startCreditGroupFrames := 0 }

def Path.spliceData (p : Path) (pkts : List TxPacket) : Path :=
  { p with
    txDataQueue := p.txDataQueue ++ markGroup pkts.length pkts
    txDataQueued := p.txDataQueued + pkts.length }

def Path.enqueueDataList (p : Path) (pkts : List TxPacket) : Except Int Path :=
  if !p.txAdmits then .error enotconn
  else if p.txDataQueueLimit < pkts.length ∨
      p.txDataQueueLimit - pkts.length < p.txDataQueued + p.txDataReserved then .error enomem
  else .ok (p.spliceData pkts)

def Path.enqueueReservedDataList (p : Path) (pkts : List TxPacket) : Option Path :=
  if !p.txAdmits || decide (p.txDataReserved < pkts.length) then none
  else some ({ p with txDataReserved := p.txDataReserved - pkts.length }.spliceData pkts)

/-- The packets of `tbv_path_prepare_owned_list`: all with one `done` and one context. -/
def ownedList (id count : Nat) (done doneCtx : Option Nat) : List TxPacket :=
  (List.range' id count).map fun id => { id, done, doneCtx, ownerCtx := doneCtx }

/-- What the callback `next` of a page stream gives: an error, or a page with its `done` and
what keeps it from being mapped or allocated. -/
inductive NextPage where
  | error (ret : Int)
  | page (len : Nat) (done doneCtx : Option Nat) (fault : Option Int)
  deriving DecidableEq, Repr

/-- A call of `tbv_path_send_page_stream`.  Its one caller gives the send context as
`meta_done_ctx`.  `early`: what fails before the first packet is allocated. -/
structure PageStream where
  totalLength : Nat
  maxRawPayload : Nat
  metaDone : Option Nat
  metaCtx : Nat
  early : Option Int
  pages : List NextPage
  deriving DecidableEq, Repr

/-- The pages prepared before the loop ends, the page whose `done` it called itself, and
its error, 0 if there is none. -/
structure PreparedPages where
  packets : List TxPacket
  faulted : Option (TxPacket × Int)
  ret : Int
  deriving DecidableEq, Repr

def PageStream.preparePages (s : PageStream) (id : Nat) :
    Nat → List NextPage → Option PreparedPages
  | prepared, [] => if prepared = s.totalLength then some ⟨[], none, 0⟩ else none
  | prepared, next :: rest =>
      if prepared = s.totalLength then some ⟨[], none, 0⟩
      else
        match next with
        | .error ret => if ret = 0 then none else some ⟨[], none, ret⟩
        | .page len done doneCtx fault =>
            let fault := if len = 0 ∨ s.maxRawPayload < len ∨ s.totalLength - prepared < len
              then some einval else fault
            let last : Bool := prepared + len = s.totalLength
            let pkt : TxPacket := { id, zcopy := true, done, doneCtx, ownerCtx := s.metaCtx,
                                    rawStreamEnd := last }
            match fault with
            | some ret => if ret = 0 then none else some ⟨[], some (pkt, ret), ret⟩
            | none =>
                (s.preparePages (id + 1) (prepared + len) rest).map fun later =>
                  { later with packets := pkt :: later.packets }

def PageStream.metaPacket (s : PageStream) (id : Nat) : TxPacket :=
  { id, done := s.metaDone, doneCtx := s.metaCtx, ownerCtx := s.metaCtx, rawStreamStart := true }

/-! ## Raw streams -/

/-- `tbv_path_count_raw_stream_locked`. -/
def RawStream.count (raw : RawStream) (pkt : TxPacket) : RawStream × TxPacket :=
  let raw := if pkt.rawStreamStart then ⟨true, pkt.ownerCtx, false, 0⟩ else raw
  if raw.active && pkt.ownerCtx == raw.owner then
    ({ raw with inflight := raw.inflight + 1 }, { pkt with rawStreamCounted := true })
  else (raw, pkt)

/-- `tbv_path_finish_raw_stream_if_needed`. -/
def RawStream.finish (raw : RawStream) (pkt : TxPacket) : RawStream :=
  if !pkt.rawStreamCounted then raw
  else
    let raw : RawStream :=
      if raw.owner == pkt.ownerCtx then
        let endSeen := pkt.rawStreamEnd || raw.endSeen
        let inflight := raw.inflight - 1
        if endSeen && inflight == 0 then ⟨false, none, false, inflight⟩
        else { raw with inflight, endSeen }
      else raw
    if raw.active then raw else {}

/-! ## The scheduler -/

/-- The packet the loop would take next and whether it comes from the control queue. -/
def Path.choose (p : Path) : Option (Bool × TxPacket) :=
  if p.rawStream.active then
    match p.txDataQueue with
    | [] => none
    | pkt :: _ =>
        if !pkt.zcopy || pkt.rawStreamStart || pkt.ownerCtx != p.rawStream.owner then none
        else some (false, pkt)
  else
    match p.txControlQueue, p.txDataQueue with
    | pkt :: _, _ => some (true, pkt)
    | [], pkt :: _ => some (false, pkt)
    | [], [] => none

/-- What the loop finds between the choice of a packet and its dequeue. -/
inductive Gate where
  | inflightLimit | noStagingFrame | controlReserve | credits
  deriving DecidableEq, Repr

def Path.needsStaging (fromControlQueue : Bool) (pkt : TxPacket) : Bool :=
  fromControlQueue || !pkt.zcopy

def Path.charges (p : Path) (pkt : TxPacket) : Bool :=
  !pkt.control && p.txRemoteDataCreditMax != 0

def Path.gate (p : Path) (fromControlQueue : Bool) (pkt : TxPacket) : Option Gate :=
  let staging := Path.needsStaging fromControlQueue pkt
  if !fromControlQueue && p.txInflightLimit != 0 && decide (p.txInflightLimit ≤ p.txInflight) then
    some .inflightLimit
  else if staging && p.txFree.isEmpty then some .noStagingFrame
  else if staging && !fromControlQueue &&
      decide (p.txFrameCount - p.txInflight ≤ p.txControlFrameReserve) then some .controlReserve
  else if p.charges pkt && decide (p.txRemoteDataCredits <
      max 1 (startCreditRequired pkt.startCreditGroupFrames p.txRemoteDataCreditMax)) then
    some .credits
  else none

/-- A packet between its dequeue and the return of `tb_ring_tx`, with what the scheduler
keeps to undo it. -/
structure Hand where
  pkt : TxPacket
  frame : Option Nat
  oldRawStream : RawStream
  chargedDataCredit : Bool
  oldStartCreditGroupFrames : Nat
  deriving DecidableEq, Repr

def Path.dequeue (p : Path) (fromControlQueue : Bool) (pkt : TxPacket) : Path × Hand :=
  let staging := Path.needsStaging fromControlQueue pkt
  let counted := p.rawStream.count { pkt with startCreditGroupFrames := 0 }
  ({ p with
      txRemoteDataCredits :=
        if p.charges pkt then p.txRemoteDataCredits - 1 else p.txRemoteDataCredits
      txControlQueue := if fromControlQueue then p.txControlQueue.tail else p.txControlQueue
      txControlQueued := if fromControlQueue then p.txControlQueued - 1 else p.txControlQueued
      txDataQueue := if fromControlQueue then p.txDataQueue else p.txDataQueue.tail
      txDataQueued := if fromControlQueue then p.txDataQueued else p.txDataQueued - 1
      rawStream := counted.1
      txFree := if staging then p.txFree.tail else p.txFree
      txInflight := p.txInflight + 1 },
    { pkt := counted.2
      frame := if staging then p.txFree.head? else none
      oldRawStream := p.rawStream
      chargedDataCredit := p.charges pkt
      oldStartCreditGroupFrames := pkt.startCreditGroupFrames })

/-! ## Threads -/

/-- `tbv_path_packet_matches`, with the arguments of the cancel. -/
structure Match where
  done : Option Nat
  doneCtx : Option Nat
  ownerCtx : Option Nat
  deriving DecidableEq, Repr

def Match.covers (m : Match) (pkt : TxPacket) : Bool :=
  (m.ownerCtx.isSome && pkt.ownerCtx == m.ownerCtx) ||
    (m.done.isSome && m.doneCtx.isSome && pkt.done == m.done && pkt.doneCtx == m.doneCtx)

inductive Frame where
  -- `tbv_path_schedule_tx`
  | schedule
  | iterate
  | attach (hand : Hand)
  | ringTx (hand : Hand)
  | detach (hand : Hand) (ret : Int)
  | takeBack (hand : Hand) (ret : Int)
  | inflightDec
  | finishRawStream (pkt : TxPacket)
  | release (pkt : TxPacket) (status : Int)
  | stopScheduling
  -- `tbv_path_tx_complete`, `tbv_path_zcopy_tx_complete`
  | callback (desc : Desc) (canceled : Bool)
  | completed (pkt : TxPacket) (canceled : Bool)
  -- `tbv_path_cancel_data_match`, `tbv_path_cancel_queued_tx_status`
  | cancel (who : Match)
  | cancelQueued (status : Int)
  -- `tbv_path_destroy`
  | disableTunnel
  | ringStop
  | ringStopped
  | flush
  deriving DecidableEq, Repr

/-- What `tb_ring_tx`, or another call out of the path, returns. -/
abbrev Choice := Int

abbrev Outcome := Option (Path × List Frame)

/-- The loop's last section. -/
def Path.stop (p : Path) : Path := { p with txScheduling := false }

def execIterate (p : Path) : Outcome :=
  if !p.txAdmits || (p.txControlQueue.isEmpty && p.txDataQueue.isEmpty) then some (p.stop, [])
  else
    match p.choose with
    | none => some (p.stop, [])
    | some (fromControlQueue, pkt) =>
        match p.gate fromControlQueue pkt with
        | some _ => some (p.stop, [])
        | none =>
            let out := p.dequeue fromControlQueue pkt
            some (out.1, [.attach out.2])

/-- `f->packet = packet`, or the section that puts a zero-copy packet on its list. -/
def execAttach (p : Path) (hand : Hand) : Outcome :=
  match hand.frame with
  | some i =>
      some ({ p with txFrames := Function.update p.txFrames i (some hand.pkt) }, [.ringTx hand])
  | none => some ({ p with txZcopyInflight := p.txZcopyInflight ++ [hand.pkt] }, [.ringTx hand])

def execRingTx (p : Path) (hand : Hand) (ret : Choice) : Outcome :=
  if ret = 0 then
    if p.ringRunning then
      some ({ p with ring := p.ring ++ [⟨hand.frame, hand.pkt⟩] }, [.iterate])
    else none
  else
    match hand.frame with
    | some _ => some (p, [.detach hand ret])
    | none => some (p, [.takeBack hand ret])

/-- What goes back after a failed `tb_ring_tx`, whatever becomes of the packet. -/
def Path.undo (p : Path) (hand : Hand) : Path :=
  { p with
    txFree := match hand.frame with
      | some i => p.txFree ++ [i]
      | none => p.txFree
    txZcopyInflight := match hand.frame with
      | some _ => p.txZcopyInflight
      | none => p.txZcopyInflight.filter fun q => q.id != hand.pkt.id
    rawStream := hand.oldRawStream
    txRemoteDataCredits :=
      if hand.chargedDataCredit && decide (p.txRemoteDataCredits < p.txRemoteDataCreditMax) then
        p.txRemoteDataCredits + 1
      else p.txRemoteDataCredits }

def Path.putBackControl (p : Path) (pkt : TxPacket) : Path :=
  { p with
    txControlQueue := pkt :: p.txControlQueue
    txControlQueued := p.txControlQueued + 1
    txScheduling := false }

def Path.putBackData (p : Path) (pkt : TxPacket) : Path :=
  { p with
    txDataQueue := pkt :: p.txDataQueue
    txDataQueued := p.txDataQueued + 1
    txScheduling := false }

/-- A full ring puts the packet back, unless nobody asks for it. -/
def Path.requeues (p : Path) (pkt : TxPacket) (ret : Int) : Bool :=
  ret == enomem && p.tunnelEnabled && (pkt.control || pkt.done.isSome || pkt.ownerCtx.isSome)

/-- The section after a failed `tb_ring_tx`. -/
def execTakeBack (p : Path) (hand : Hand) (ret : Int) : Outcome :=
  let pkt := { hand.pkt with rawStreamCounted := false }
  if p.requeues pkt ret then
    if pkt.control then some ((p.undo hand).putBackControl pkt, [.inflightDec])
    else
      some ((p.undo hand).putBackData
        { pkt with startCreditGroupFrames := hand.oldStartCreditGroupFrames }, [.inflightDec])
  else
    some (p.undo hand, if pkt.zcopy then
        [.inflightDec, .finishRawStream pkt, .release pkt ret, .stopScheduling]
      else [.inflightDec, .release pkt ret, .stopScheduling])

/-- The packet a ring callback finds: that of the staging frame, or the zero-copy packet the
descriptor is part of. -/
def Path.descPacket (p : Path) (desc : Desc) : Option TxPacket :=
  match desc.frame with
  | some i => p.txFrames i
  | none => some desc.pkt

/-- The first section of a ring callback. -/
def Path.freeDesc (p : Path) (desc : Desc) : Path :=
  match desc.frame with
  | some i =>
      { p with
        txFrames := Function.update p.txFrames i none
        txFree := p.txFree ++ [i] }
  | none =>
      { p with txZcopyInflight := p.txZcopyInflight.filter fun q => q.id != desc.pkt.id }

def Path.noteRetired (p : Path) (id : Nat) (canceled : Bool) : Path :=
  { p with
    retired := p.retired ++ [id]
    completed := if canceled then p.completed else p.completed ++ [id] }

def execCallback (p : Path) (desc : Desc) (canceled : Bool) : Outcome :=
  match p.descPacket desc with
  | some pkt =>
      some ((p.freeDesc desc).noteRetired pkt.id canceled,
        [.finishRawStream pkt, .completed pkt canceled, .inflightDec, .schedule])
  | none => some (p.freeDesc desc, [.inflightDec, .schedule])

def releases (pkts : List TxPacket) (status : Int) : List Frame :=
  pkts.map fun pkt => .release pkt status

/-- `packet->canceled` is set on what is attached: the staging frames and the zero-copy
list. -/
def Path.attached (p : Path) : List TxPacket :=
  ((List.range p.txFrameCount).filterMap p.txFrames).filter (fun pkt => !pkt.control) ++
    p.txZcopyInflight

def Match.cutsStream (m : Match) (raw : RawStream) : Bool :=
  m.ownerCtx.isSome && raw.active && raw.owner == m.ownerCtx

/-- The section of `tbv_path_cancel_data_match`, and the release of its private list. -/
def execCancel (p : Path) (m : Match) : Outcome :=
  let cut := m.cutsStream p.rawStream
  let taken := p.txDataQueue.filter m.covers
  some ({ p with
    rawStream := if cut then {} else p.rawStream
    txDataQueue := p.txDataQueue.filter fun pkt => !m.covers pkt
    txDataQueued := p.txDataQueued - taken.length
    canceled := p.canceled ++ (p.attached.filter m.covers).map TxPacket.id
    covered := p.covered ++ ((p.owed.filter fun pkt =>
      !pkt.control && m.covers pkt && !p.retired.contains pkt.id).map TxPacket.id) },
    releases (taken.map fun pkt => { pkt with ownerCtx := none }) ecanceled ++
      if cut then [.schedule] else [])

def Path.emptyQueues (p : Path) : Path :=
  { p with
    txControlQueue := [], txDataQueue := []
    txControlQueued := 0, txDataQueued := 0, txDataReserved := 0
    rawStream := {} }

/-- `tbv_path_cancel_queued_tx_status`: its section, and the release of both lists. -/
def execCancelQueued (p : Path) (status : Int) : Outcome :=
  some (p.emptyQueues, releases (p.txControlQueue ++ p.txDataQueue) status)

def exec (p : Path) (frame : Frame) (choice : Choice) : Outcome :=
  match frame with
  | .schedule =>
      if p.txScheduling then some (p, []) else some ({ p with txScheduling := true }, [.iterate])
  | .iterate => execIterate p
  | .attach hand => execAttach p hand
  | .ringTx hand => execRingTx p hand choice
  | .detach hand ret =>
      match hand.frame with
      | some i => some ({ p with txFrames := Function.update p.txFrames i none }, [.takeBack hand ret])
      | none => none
  | .takeBack hand ret => execTakeBack p hand ret
  | .inflightDec => some ({ p with txInflight := p.txInflight - 1 }, [])
  | .finishRawStream pkt => some ({ p with rawStream := p.rawStream.finish pkt }, [])
  | .release pkt status => some ({ p with released := p.released ++ [(pkt.id, status)] }, [])
  | .stopScheduling => some (p.stop, [])
  | .callback desc canceled => execCallback p desc canceled
  | .completed pkt canceled =>
      let status := if canceled || p.canceled.contains pkt.id then ecanceled else 0
      some ({ p with released := p.released ++ [(pkt.id, status)] }, [])
  | .cancel m => execCancel p m
  | .cancelQueued status => execCancelQueued p status
  | .disableTunnel =>
      some (if choice = 0 then { p with tunnelEnabled := false } else p, [])
  | .ringStop => some ({ p with ringRunning := false }, [])
  -- `tb_ring_stop` returns when every descriptor has been given to its callback
  | .ringStopped =>
      if p.ring.isEmpty then some ({ p with tunnelEnabled := false }, [.flush]) else none
  | .flush =>
      some ({ p.emptyQueues with flushed := true },
        releases (p.txControlQueue ++ p.txDataQueue) ecanceled ++ [.stopScheduling])

/-- What happens on a path.  `fault`: the arguments are refused or an allocation fails. -/
inductive Event where
  | sendControl (done doneCtx : Option Nat) (fault : Bool)
  | sendData (done doneCtx : Option Nat) (fault : Bool)
  | sendReservedList (count : Nat) (done doneCtx : Option Nat) (fault : Bool)
  | sendPageStream (stream : PageStream)
  | reserveData (frames : Nat)
  | releaseDataReservation (frames : Nat)
  | kick
  | retire (place : Nat) (canceled : Bool)
  | addRemoteRxCredits (credits : Nat)
  | setRemoteRxCapacity (rxRingSize : Nat)
  | closeTx
  | openTx
  | cancel (who : Match)
  | cancelQueued
  | ringStop
  | ringStart
  | destroy
  deriving DecidableEq, Repr

/-- A send of one packet or of one list: enqueued, then scheduled or kicked, or refused. -/
def Path.send (p : Path) (pkts : List TxPacket) (queued : Option Path) : Outcome :=
  match queued with
  | some q => some (q.take pkts, [.schedule])
  | none => some (p.refuse pkts.length, [])

/-- `tbv_path_send_page_stream`. -/
def reactPageStream (p : Path) (s : PageStream) : Outcome :=
  let first := s.metaPacket p.nextId
  let early := if s.totalLength = 0 then some einval else s.early
  match early with
  | some ret => if ret = 0 then none else some (p.fail [first], [.release first ret])
  | none =>
      (s.preparePages (p.nextId + 1) 0 s.pages).map fun prepared =>
        let pkts := first :: prepared.packets
        match prepared.faulted with
        | some (page, ret) =>
            (p.fail (pkts ++ [page]), .release page ret :: releases pkts ret)
        | none =>
            if prepared.ret ≠ 0 then
              (p.fail pkts, releases pkts prepared.ret)
            else
              match p.enqueueDataList pkts with
              | .ok q => (q.take pkts, [.schedule])
              | .error ret => (p.fail pkts, releases pkts ret)

def react (p : Path) : Event → Outcome
  | .sendControl done doneCtx fault =>
      let pkt : TxPacket := { id := p.nextId, control := true, done, doneCtx, ownerCtx := doneCtx }
      p.send [pkt] (if fault then none else p.enqueueControl pkt)
  | .sendData done doneCtx fault =>
      let pkt : TxPacket := { id := p.nextId, done, doneCtx, ownerCtx := doneCtx }
      p.send [pkt] (if fault then none else p.enqueueData pkt)
  | .sendReservedList count done doneCtx fault =>
      let pkts := ownedList p.nextId count done doneCtx
      if count = 0 then some (p, [])
      else p.send pkts (if fault then none else p.enqueueReservedDataList pkts)
  | .sendPageStream s => reactPageStream p s
  | .reserveData frames =>
      if !p.txAdmits || decide (p.txDataQueueLimit < frames) ||
          decide (p.txDataQueueLimit - frames < p.txDataQueued + p.txDataReserved) then some (p, [])
      else some ({ p with txDataReserved := p.txDataReserved + frames }, [])
  | .releaseDataReservation frames =>
      some ({ p with txDataReserved := p.txDataReserved - frames }, [])
  | .kick => some (p, [.schedule])
  | .retire place canceled =>
      match p.ring[place]? with
      | some desc => some ({ p with ring := p.ring.eraseIdx place }, [.callback desc canceled])
      | none => none
  | .addRemoteRxCredits credits =>
      if p.txRemoteDataCreditMax = 0 ∨ credits = 0 then some (p, [])
      else
        let credits := min (p.txRemoteDataCredits + credits) p.txRemoteDataCreditMax
        if credits = p.txRemoteDataCredits then some (p, [])
        else some ({ p with txRemoteDataCredits := credits }, [.schedule])
  | .setRemoteRxCapacity rxRingSize =>
      let credits := dataCreditWindow rxRingSize
      some ({ p with txRemoteDataCreditMax := credits, txRemoteDataCredits := credits },
        [.schedule])
  | .closeTx => some ({ p with txClosed := true }, [])
  | .openTx => some ({ p with txClosed := false }, [.schedule])
  | .cancel m =>
      if (m.done.isNone || m.doneCtx.isNone) && m.ownerCtx.isNone then some (p, [])
      else some (p, [.cancel m])
  | .cancelQueued => some (p, [.cancelQueued ecanceled])
  | .ringStop => some ({ p with ringRunning := false }, [])
  | .ringStart => some ({ p with ringRunning := true }, [])
  | .destroy => some (p, [.disableTunnel, .ringStop, .ringStopped])

abbrev St := Threads.State Path Frame
abbrev Lbl := Threads.Label Event Choice

def step : St → Lbl → Option St := Threads.step react exec

def start (cfg : Config) : St := ⟨Path.fresh cfg, []⟩

end Tbv.Tx
