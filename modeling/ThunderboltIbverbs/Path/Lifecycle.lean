import ThunderboltIbverbs.Lib.Holdings

/-! # The life of a path

From `tbv_path_init` to `tbv_path_destroy`: the rings, hop IDs, tunnel, frames and packet pools of
a path, with what each function takes and gives back in the order of its calls.  A path is set up
once and destroyed once; between the two its tunnel is enabled, its rings are stopped and started
by the barrier, and any of the calls may fail.  Each function is one step: the ones that can run at
the same time, enabling the tunnel and the barrier, touch different fields. -/
set_option autoImplicit false
namespace Tbv.PathLife

open Holdings

def enomem : Int := -12
def ebusy : Int := -16
def einval : Int := -22
def eio : Int := -5
def eprobeDefer : Int := -517

/-- An error that the Thunderbolt core returns. -/
abbrev Errno := { code : Int // code < 0 }

/-- `TBV_DATA_QUEUE_MULTIPLIER` and `TBV_DATA_PACKET_POOL_LIMIT`. -/
def dataQueueMultiplier : Nat := 64

def dataPacketPoolLimit : Nat := 1024

inductive PathState where
  | new | ringAllocated | ringStarted | tunnelEnabled | stopped
  deriving DecidableEq, Repr

/-- What a path takes.  `throttled` is the entry of a ring in `tbv_thr_rings`, `running` a ring
between `tb_ring_start` and `tb_ring_stop`, `tunnel` the paths that `tb_xdomain_enable_paths`
programs. -/
inductive Res where
  | trace
  | txWq
  | inHop (id : Nat)
  | outHop (id : Nat)
  | ring (tx : Bool)
  | throttled (tx : Bool)
  | frames (tx : Bool)
  | buf (tx : Bool) (i : Nat)
  | dma (tx : Bool) (i : Nat)
  | running (tx : Bool)
  | controlPackets
  | dataPackets
  | dataBuf (i : Nat)
  | tunnel (out in_ : Nat)
  deriving DecidableEq, Repr

/-- What refers to what: the table of throttled rings and the frames to a ring, a buffer to the
array of its frame, a mapping to its buffer, the tunnel to hop IDs and rings. -/
inductive Needs : Res → Res → Prop
  | throttled (tx : Bool) : Needs (.throttled tx) (.ring tx)
  | frames (tx : Bool) : Needs (.frames tx) (.ring tx)
  | buf (tx : Bool) (i : Nat) : Needs (.buf tx i) (.frames tx)
  | dma (tx : Bool) (i : Nat) : Needs (.dma tx i) (.buf tx i)
  | running (tx : Bool) : Needs (.running tx) (.ring tx)
  | dataBuf (i : Nat) : Needs (.dataBuf i) .dataPackets
  | tunnelOut (out in_ : Nat) : Needs (.tunnel out in_) (.outHop out)
  | tunnelIn (out in_ : Nat) : Needs (.tunnel out in_) (.inHop in_)
  | tunnelRing (out in_ : Nat) (tx : Bool) : Needs (.tunnel out in_) (.ring tx)

/-- While a ring runs the NHI may read and write the buffers that are mapped for it. -/
inductive Pins : Res → Res → Prop
  | needs {q r : Res} : Needs q r → Pins q r
  | dma (tx : Bool) (i : Nat) : Pins (.running tx) (.dma tx i)

def rules : Rules Res where
  needs := Needs
  pins := Pins
  single := fun _ => True

/-- The fields of `struct tbv_path_config` and of the rail used here; `receivePath` is `none` when
it is negative. -/
structure PathConfig where
  txRingSize : Nat
  rxRingSize : Nat
  receivePath : Option Nat
  apple : Bool
  deriving DecidableEq, Repr

/-- `struct tbv_path`, as far as its resources go: pointers as whether they are set, arrays by
their length, hop IDs as `none` when they are -1.  `throttled` says which of its rings are in
`tbv_thr_rings`; `destroyed` is set when the rail is freed. -/
structure Path where
  cfg : PathConfig
  state : PathState := .new
  txTrace : Bool := false
  txWq : Bool := false
  remoteTransmitPath : Option Nat := none
  localTransmitPath : Option Nat := none
  ring : Bool → Bool := fun _ => false
  throttled : Bool → Bool := fun _ => false
  frames : Bool → Option Nat := fun _ => none
  controlPackets : Bool := false
  dataPackets : Option Nat := none
  ringsStopped : Bool := false
  destroyed : Bool := false

def PathConfig.dataPacketCount (cfg : PathConfig) : Nat :=
  min (cfg.txRingSize * dataQueueMultiplier) dataPacketPoolLimit

def PathConfig.ringSize (cfg : PathConfig) (tx : Bool) : Nat :=
  if tx then cfg.txRingSize else cfg.rxRingSize

namespace Path

def setRing (p : Path) (tx on : Bool) : Path := { p with ring := Function.update p.ring tx on }

def setThrottled (p : Path) (tx on : Bool) : Path :=
  { p with throttled := Function.update p.throttled tx on }

def setFrames (p : Path) (tx : Bool) (count : Option Nat) : Path :=
  { p with frames := Function.update p.frames tx count }

def ringsStarted (p : Path) : Bool := p.state = .ringStarted || p.state = .tunnelEnabled

end Path

/-- What a function leaves: the path, its takings and givings, and its return value. -/
structure Out where
  path : Path
  acts : List (Act Res) := []
  ret : Int := 0

/-! ## Frames -/

inductive FrameFault where
  | noBuf | noMapping
  deriving DecidableEq, Repr

/-- What goes wrong in `tbv_path_alloc_frames`. -/
structure FrameEnv where
  dmaReady : Bool := true
  array : Bool := true
  fault : Nat → Option FrameFault := fun _ => none

def unmapFrames (tx : Bool) : Nat → List (Act Res)
  | 0 => []
  | i + 1 => .give (.dma tx i) :: .give (.buf tx i) :: unmapFrames tx i

/-- The loop of `tbv_path_alloc_frames` from frame `i` on, `left` frames. -/
def mapFrames (tx : Bool) (fault : Nat → Option FrameFault) (i : Nat) :
    Nat → List (Act Res) × Int
  | 0 => ([], 0)
  | left + 1 =>
      match fault i with
      | none =>
          let rest := mapFrames tx fault (i + 1) left
          (.take (.buf tx i) :: .take (.dma tx i) :: rest.1, rest.2)
      | some .noBuf => (unmapFrames tx i, enomem)
      | some .noMapping => (.take (.buf tx i) :: .give (.buf tx i) :: unmapFrames tx i, eio)

def allocFrames (p : Path) (tx : Bool) (env : FrameEnv) : Out :=
  if !env.dmaReady then ⟨p, [], eprobeDefer⟩
  else if !env.array then ⟨p, [], enomem⟩
  else
    let count := p.cfg.ringSize tx
    let mapped := mapFrames tx env.fault 0 count
    if mapped.2 = 0 then ⟨p.setFrames tx (some count), .take (.frames tx) :: mapped.1, 0⟩
    else ⟨p, .take (.frames tx) :: mapped.1 ++ [.give (.frames tx)], mapped.2⟩

/-- The loop of `tbv_path_free_frames` from frame `i` on. -/
def dropFrames (tx dmaReady : Bool) (i : Nat) : Nat → List (Act Res)
  | 0 => []
  | left + 1 =>
      (if dmaReady then [.give (.dma tx i)] else []) ++
        .give (.buf tx i) :: dropFrames tx dmaReady (i + 1) left

def freeFrames (p : Path) (tx dmaReady : Bool) : Out :=
  match p.frames tx, p.ring tx with
  | some count, true =>
      ⟨p.setFrames tx none, dropFrames tx dmaReady 0 count ++ [.give (.frames tx)], 0⟩
  | _, _ => ⟨p, [], 0⟩

/-! ## Packet pools -/

def allocControlPackets (p : Path) (allocs : Bool) : Out :=
  if allocs then ⟨{ p with controlPackets := true }, [.take .controlPackets], 0⟩
  else ⟨p, [], enomem⟩

def freeControlPackets (p : Path) : Out :=
  ⟨{ p with controlPackets := false }, if p.controlPackets then [.give .controlPackets] else [], 0⟩

def dropDataBufs : Nat → List (Act Res)
  | 0 => []
  | i + 1 => .give (.dataBuf i) :: dropDataBufs i

/-- The loop of `tbv_path_alloc_data_packets`; the error path frees the buffers downwards. -/
def takeDataBufs (allocs : Nat → Bool) (i : Nat) : Nat → List (Act Res) × Bool
  | 0 => ([], true)
  | left + 1 =>
      if allocs i then
        let rest := takeDataBufs allocs (i + 1) left
        (.take (.dataBuf i) :: rest.1, rest.2)
      else (dropDataBufs i, false)

def allocDataPackets (p : Path) (array : Bool) (allocs : Nat → Bool) : Out :=
  if !p.cfg.apple then ⟨p, [], 0⟩
  else if !array then ⟨p, [], enomem⟩
  else
    let count := p.cfg.dataPacketCount
    let bufs := takeDataBufs allocs 0 count
    if bufs.2 then ⟨{ p with dataPackets := some count }, .take .dataPackets :: bufs.1, 0⟩
    else ⟨p, .take .dataPackets :: bufs.1 ++ [.give .dataPackets], enomem⟩

/-- `tbv_path_free_data_packets`, which counts upwards. -/
def freeDataPackets (p : Path) : Out :=
  match p.dataPackets with
  | some count =>
      ⟨{ p with dataPackets := none },
        (List.range count).map (fun i => .give (.dataBuf i)) ++ [.give .dataPackets], 0⟩
  | none => ⟨p, [], 0⟩

/-! ## Setting up -/

/-- What the calls of `tbv_path_alloc_rings` return.  `wantsWq` is whether a dedicated worker is
configured; `recorded` says which rings `tbv_thr_add` puts in the table, and `throttle` is what
`tbv_path_configure_ring_throttling` returns. -/
structure AllocEnv where
  trace : Bool := true
  wantsWq : Bool := false
  wq : Bool := true
  inHop : Except Errno Nat
  txRing : Bool := true
  outHop : Except Errno Nat
  rxRing : Bool := true
  recorded : Bool → Bool := fun _ => false
  throttle : Int := 0
  frames : Bool → FrameEnv := fun _ => {}
  control : Bool := true
  dataArray : Bool := true
  dataBuf : Nat → Bool := fun _ => true

/-- One more step of a function after what it has done so far. -/
def Out.bind (out : Out) (next : Path → Out) : Out :=
  let later := next out.path
  ⟨later.path, out.acts ++ later.acts, later.ret⟩

/-- An error label: the release of one resource, and the labels below it, with the error. -/
def releaseInHop (p : Path) (ret : Int) : Out :=
  match p.remoteTransmitPath with
  | some id => ⟨{ p with remoteTransmitPath := none }, [.give (.inHop id)], ret⟩
  | none => ⟨p, [], ret⟩

/-- `err_tx_ring`. -/
def releaseTxRing (p : Path) (ret : Int) : Out :=
  (⟨p.setRing true false, [.give (.ring true)], ret⟩ : Out).bind (releaseInHop · ret)

/-- `err_out_hop`. -/
def releaseOutHop (p : Path) (ret : Int) : Out :=
  (⟨{ p with localTransmitPath := none },
    p.localTransmitPath.toList.map fun id => .give (.outHop id), ret⟩ : Out).bind
      (releaseTxRing · ret)

/-- `err_rx_ring`; the entries of the rings in `tbv_thr_rings` stay. -/
def releaseRxRing (p : Path) (ret : Int) : Out :=
  (⟨p.setRing false false, [.give (.ring false)], ret⟩ : Out).bind (releaseOutHop · ret)

/-- `err_tx_frames`. -/
def releaseTxFrames (p : Path) (dmaReady : Bool) (ret : Int) : Out :=
  (freeFrames p true dmaReady).bind (releaseRxRing · ret)

/-- `err_rx_frames`. -/
def releaseRxFrames (p : Path) (dmaReady : Bool) (ret : Int) : Out :=
  (freeFrames p false dmaReady).bind (releaseTxFrames · dmaReady ret)

/-- `err_control_packets`. -/
def releaseControl (p : Path) (dmaReady : Bool) (ret : Int) : Out :=
  (freeControlPackets p).bind (releaseRxFrames · dmaReady ret)

/-- The next step when the one before it succeeded, its error label when it did not. -/
def Out.orElse (out : Out) (next : Path → Out) (release : Path → Int → Out) : Out :=
  out.bind fun p => if out.ret = 0 then next p else release p out.ret

/-- The data packets, the last of `tbv_path_alloc_rings`. -/
def allocData (p : Path) (env : AllocEnv) (dmaReady : Bool) : Out :=
  (allocDataPackets p env.dataArray env.dataBuf).orElse
    (fun p => ⟨{ p with state := .ringAllocated }, [], 0⟩)
    (releaseControl · dmaReady)

def allocPools (p : Path) (env : AllocEnv) (dmaReady : Bool) : Out :=
  (allocControlPackets p env.control).orElse (allocData · env dmaReady)
    (releaseRxFrames · dmaReady)

def allocRxFrames (p : Path) (env : AllocEnv) (dmaReady : Bool) : Out :=
  (allocFrames p false (env.frames false)).orElse (allocPools · env dmaReady)
    (releaseTxFrames · dmaReady)

def allocTxFrames (p : Path) (env : AllocEnv) (dmaReady : Bool) : Out :=
  (allocFrames p true (env.frames true)).orElse (allocRxFrames · env dmaReady) releaseRxRing

def recordThrottled (p : Path) (tx recorded : Bool) : Out :=
  if recorded then ⟨p.setThrottled tx true, [.take (.throttled tx)], 0⟩ else ⟨p, [], 0⟩

def configureRingThrottling (p : Path) (env : AllocEnv) : Out :=
  ((recordThrottled p true (env.recorded true)).bind
    (recordThrottled · false (env.recorded false))).bind fun p => ⟨p, [], env.throttle⟩

def allocRxRing (p : Path) (env : AllocEnv) (dmaReady : Bool) : Out :=
  if env.rxRing then
    (⟨p.setRing false true, [.take (.ring false)], 0⟩ : Out).bind fun p =>
      (configureRingThrottling p env).orElse (allocTxFrames · env dmaReady) releaseRxRing
  else releaseOutHop p enomem

def allocOutHop (p : Path) (env : AllocEnv) (dmaReady : Bool) : Out :=
  match env.outHop with
  | .error ret => releaseTxRing p ret.1
  | .ok id =>
      (⟨{ p with localTransmitPath := some id }, [.take (.outHop id)], 0⟩ : Out).bind
        (allocRxRing · env dmaReady)

def allocTxRing (p : Path) (env : AllocEnv) (dmaReady : Bool) : Out :=
  if env.txRing then
    (⟨p.setRing true true, [.take (.ring true)], 0⟩ : Out).bind (allocOutHop · env dmaReady)
  else releaseInHop p enomem

/-- `tb_xdomain_alloc_in_hopid` for one wanted ID: another one is released again. -/
def allocInHop (p : Path) (wanted : Nat) (answer : Except Errno Nat) : Out :=
  match answer with
  | .error ret => ⟨p, [], ret.1⟩
  | .ok id =>
      if id = wanted then ⟨{ p with remoteTransmitPath := some id }, [.take (.inHop id)], 0⟩
      else ⟨p, [.take (.inHop id), .give (.inHop id)], ebusy⟩

/-- `tbv_txtrace_alloc`, when there is no trace yet. -/
def createTrace (p : Path) (allocs : Bool) : Out :=
  if !p.txTrace && allocs then ⟨{ p with txTrace := true }, [.take .trace], 0⟩ else ⟨p, [], 0⟩

def createTxWq (p : Path) (wants allocs : Bool) : Out :=
  if !p.txWq && wants && allocs then ⟨{ p with txWq := true }, [.take .txWq], 0⟩ else ⟨p, [], 0⟩

def allocRings (p : Path) (env : AllocEnv) (dmaReady : Bool) : Out :=
  if p.state = .new ∨ p.state = .stopped then
    ((createTrace p env.trace).bind (createTxWq · env.wantsWq env.wq)).bind fun p =>
      match p.cfg.receivePath with
      | none => allocTxRing p env dmaReady
      | some wanted =>
          (allocInHop p wanted env.inHop).orElse (allocTxRing · env dmaReady)
            (fun p ret => ⟨p, [], ret⟩)
  else ⟨p, [], ebusy⟩

/-! ## Running -/

/-- `tb_ring_start` of both rings. -/
def startActs : List (Act Res) := [.take (.running true), .take (.running false)]

/-- `tbv_path_start_rings`; `posted` is what posting the RX frames returns. -/
def startRings (p : Path) (posted : Int) : Out :=
  if p.state = .ringAllocated then ⟨{ p with state := .ringStarted }, startActs, posted⟩
  else ⟨p, [], einval⟩

/-- The last part of `tbv_path_enable_tunnel`: programming the paths. -/
def enablePaths (p : Path) (remote : Nat) (enabled : Int) : Out :=
  if enabled ≠ 0 then
    ⟨{ p with remoteTransmitPath := none },
      p.remoteTransmitPath.toList.map fun id => .give (.inHop id), enabled⟩
  else
    ⟨{ p with state := .tunnelEnabled },
      p.localTransmitPath.toList.map fun out => .take (.tunnel out remote), 0⟩

def enableTunnel (p : Path) (remote : Nat) (inHop : Except Errno Nat) (enabled : Int) : Out :=
  if p.state ≠ .ringStarted then ⟨p, [], einval⟩
  else
    match p.remoteTransmitPath with
    | some id => if id = remote then enablePaths p remote enabled else ⟨p, [], ebusy⟩
    | none =>
        (allocInHop p remote inHop).orElse (enablePaths · remote enabled)
          (fun p ret => ⟨p, [], ret⟩)

/-- `tb_ring_stop` of the rings of the barrier: TX first. -/
def stopActs : List (Act Res) := [.give (.running true), .give (.running false)]

/-- `tbv_path_ring_barrier`; `unretired` is `tx_inflight` after the stop and `posted` what
`tbv_path_restart_rings` returns. -/
def ringBarrier (p : Path) (restart : Bool) (unretired : Nat) (posted : Int) : Out :=
  if !p.ringsStarted || !p.ring true || !p.ring false then
    ⟨p, [], if unretired ≠ 0 then eio else 0⟩
  else
    let stopped : Out :=
      if p.ringsStopped then ⟨p, [], 0⟩ else ⟨{ p with ringsStopped := true }, stopActs, 0⟩
    stopped.bind fun p =>
      if unretired ≠ 0 then ⟨p, [], eio⟩
      else if !restart then ⟨p, [], 0⟩
      else ⟨{ p with ringsStopped := false }, startActs, posted⟩

/-! ## Taking down -/

def disableTunnel (p : Path) (disabled : Int) : Out :=
  if p.state ≠ .tunnelEnabled then ⟨p, [], 0⟩
  else if disabled ≠ 0 then ⟨p, [], disabled⟩
  else
    match p.localTransmitPath, p.remoteTransmitPath with
    | some out, some in_ =>
        ⟨{ p with remoteTransmitPath := none, state := .ringStarted },
          [.give (.tunnel out in_), .give (.inHop in_)], 0⟩
    | _, _ => ⟨{ p with remoteTransmitPath := none, state := .ringStarted }, [], 0⟩

/-- One ring of `tbv_path_destroy`: its table entry, its frames and the ring. -/
def dropRing (p : Path) (tx dmaReady : Bool) : Out :=
  if p.ring tx then
    (⟨p.setThrottled tx false, if p.throttled tx then [.give (.throttled tx)] else [], 0⟩ :
      Out).bind fun p => (freeFrames p tx dmaReady).bind fun p =>
        ⟨p.setRing tx false, [.give (.ring tx)], 0⟩
  else ⟨p, [], 0⟩

/-- The rings are stopped, RX first, unless a barrier has stopped them. -/
def stopRings (p : Path) (started : Bool) : Out :=
  if started then
    if p.ringsStopped then ⟨{ p with state := .ringAllocated }, [], 0⟩
    else
      ⟨{ p with state := .ringAllocated, ringsStopped := true },
        (if p.ring false then [.give (.running false)] else []) ++
          if p.ring true then [.give (.running true)] else [], 0⟩
  else ⟨p, [], 0⟩

def dropOutHop (p : Path) : Out :=
  ⟨{ p with localTransmitPath := none },
    p.localTransmitPath.toList.map fun id => .give (.outHop id), 0⟩

def dropTraceAndWq (p : Path) : Out :=
  ⟨{ p with txTrace := false, txWq := false, state := .stopped, destroyed := true },
    (if p.txTrace then [.give .trace] else []) ++ if p.txWq then [.give .txWq] else [], 0⟩

/-- The first part of `tbv_path_destroy`: the tunnel goes down, the rings stop, and the in hop ID
is released. -/
def quiesce (p : Path) (disabled : Int) : Out :=
  let tunnelEnabled := p.state = .tunnelEnabled
  let started := p.ringsStarted
  (if tunnelEnabled then
    let disable := disableTunnel p disabled
    disable.bind fun p => if disable.ret ≠ 0 then releaseInHop p 0 else ⟨p, [], 0⟩
  else ⟨p, [], 0⟩ : Out).bind fun p => (stopRings p started).bind fun p =>
    if tunnelEnabled then ⟨p, [], 0⟩ else releaseInHop p 0

/-- `tbv_path_destroy`, after which the rail is freed; the packets still queued are not shown. -/
def destroy (p : Path) (disabled : Int) (dmaReady : Bool) : Out :=
  (quiesce p disabled).bind fun p => (dropRing p false dmaReady).bind fun p =>
    (dropOutHop p).bind fun p => (dropRing p true dmaReady).bind fun p =>
      (freeDataPackets p).bind fun p => (freeControlPackets p).bind dropTraceAndWq

inductive Call where
  | allocRings (env : AllocEnv) (dmaReady : Bool)
  | startRings (posted : Int)
  | enableTunnel (remote : Nat) (inHop : Except Errno Nat) (enabled : Int)
  | ringBarrier (restart : Bool) (unretired : Nat) (posted : Int)
  | destroy (disabled : Int) (dmaReady : Bool)

def Path.call (p : Path) : Call → Out
  | .allocRings env dmaReady => allocRings p env dmaReady
  | .startRings posted => startRings p posted
  | .enableTunnel remote inHop enabled => enableTunnel p remote inHop enabled
  | .ringBarrier restart unretired posted => ringBarrier p restart unretired posted
  | .destroy disabled dmaReady => destroy p disabled dmaReady

def step (p : Path) (call : Call) : Option (Path × List (Act Res)) :=
  if p.destroyed then none else some ((p.call call).path, (p.call call).acts)

end Tbv.PathLife
