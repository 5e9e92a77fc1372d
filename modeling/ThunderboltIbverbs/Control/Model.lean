import ThunderboltIbverbs.Lib.Run
import ThunderboltIbverbs.Lib.Threads
import ThunderboltIbverbs.Path.Model

/-! # Native control: HELLO and READY

`kernel/native_control.c`.  A host has one peer and any number of rails to it, all with
the peer's route; a rail is found by its id.  Each packet handler, each run of
`tbv_native_control_work` and the probe of a rail is a thread; a section under
`state->lock`, a single flag write and a call into the Thunderbolt core is one frame of
it.  A response to a request is matched by route and protocol only, so any message of the
peer may come back as one. -/
set_option autoImplicit false
namespace Tbv.Control

def helloRetries : Nat := 5
def tunnelRetries : Nat := 20
def readyRetries : Nat := 10

inductive Op where
  | hello | helloAck | ready | readyAck
  deriving DecidableEq, Repr

/-- `struct tbv_native_wire_hello`, less the fields no receiver acts on.  A transmit path
of -1 is `U32_MAX` on the wire. -/
structure Hello where
  railId : Nat
  transmitPath : Int
  rxRingSize : Nat
  deriving DecidableEq, Repr

structure Msg where
  op : Op
  hello : Hello
  deriving DecidableEq, Repr

inductive PathState where
  | new | ringAllocated | ringStarted | tunnelEnabled | stopped
  deriving DecidableEq, Repr

/-- The parts of `struct tbv_rail` and its path that native control uses.  `published`:
`tbv_ibdev_rail_event` was called with the rail data-ready. -/
structure Rail where
  present : Bool := false
  state : PathState := .new
  localTransmitPath : Int := -1
  rxRingSize : Nat := 0
  negotiated : Bool := false
  remoteTransmitPath : Int := -1
  txRemoteDataCreditMax : Nat := 0
  readySent : Bool := false
  remoteReady : Bool := false
  removing : Bool := false
  workState : Bool := false
  workStop : Bool := false
  workQueued : Bool := false
  workRunning : Bool := false
  attempts : Nat := 0
  tunnelAttempts : Nat := 0
  readyAttempts : Nat := 0
  published : Bool := false
  deriving DecidableEq, Repr

/-- `tbv_rail_data_ready` of a native rail. -/
def Rail.dataReady (rail : Rail) : Bool :=
  rail.state == .tunnelEnabled && rail.readySent && rail.remoteReady

def Rail.fillHello (rail : Rail) (railId : Nat) : Hello :=
  ⟨railId, if 0 ≤ rail.localTransmitPath then rail.localTransmitPath else -1, rail.rxRingSize⟩

/-- `state->negotiate_native`, `state->enable_tunnels`, `peer->control_lock` and every
message this host has sent. -/
structure Host where
  rails : Nat → Rail := fun _ => {}
  negotiateNative : Bool := true
  enableTunnels : Bool := true
  controlLock : Bool := false
  sent : List Msg := []

def Host.modRail (host : Host) (railId : Nat) (f : Rail → Rail) : Host :=
  { host with rails := Function.update host.rails railId (f (host.rails railId)) }

def Host.send (host : Host) (op : Op) (hello : Hello) : Host :=
  { host with sent := host.sent ++ [⟨op, hello⟩] }

def Host.lock (host : Host) (held : Bool) : Host := { host with controlLock := held }

/-- `tbv_native_control_apply_remote` on the rail it found. -/
def Rail.applyRemote (rail : Rail) (remote : Hello) : Rail :=
  { rail with
    negotiated := true
    remoteTransmitPath := remote.transmitPath
    txRemoteDataCreditMax := NativePath.dataCreditWindow remote.rxRingSize }

/-! ## Threads -/

/-- Where a probe is: `tbv_service_probe` once the rail is on its peer's list, then
`tbv_native_control_queue_rail`. -/
inductive ProbeStage where
  | allocRings | startRings | workState | attempts | readySent | remoteReady | schedule
  deriving DecidableEq, Repr

inductive Frame where
  | probe (railId : Nat) (stage : ProbeStage)
  | removing (railId : Nat)
  | workStop (railId : Nat)
  -- `tbv_native_control_work`
  | check (railId : Nat)
  | hello (railId : Nat)
  | helloWait (railId : Nat)
  | helloApply (railId : Nat) (remote : Hello)
  | helloFailed (railId : Nat)
  | tunnelStage (railId : Nat)
  | tunnel (railId : Nat)
  | tunnelCheck (railId : Nat)
  | readyStage (railId : Nat)
  | ready (railId : Nat)
  | readyWait (railId : Nat)
  | readyMark (railId : Nat) (remote : Hello)
  | readyUnlock (railId : Nat)
  | readyFailed (railId : Nat)
  | readySent (railId : Nat)
  | readyCheck (railId : Nat)
  | retry (railId : Nat)
  | done (railId : Nat)
  -- `tbv_native_control_handle_packet`
  | helloSnapshot (remote : Hello)
  | helloRemote (reply remote : Hello)
  | helloReply (reply : Hello)
  | ackApply (remote : Hello)
  | readySnapshot (remote : Hello)
  | readySnapshotEnabled (remote : Hello)
  | markRemote (remote : Hello)
  | readyReply (reply : Hello)
  | markLocal (railId : Nat)
  | kick (railId : Nat)
  -- `tbv_ibdev_rail_event(state, rail, true)`
  | publish (railId : Nat)
  deriving DecidableEq, Repr

/-- What a call returns: success, a failure, the out-HopID, or the response. -/
inductive Choice where
  | ok
  | fail
  | transmitPath (path : Nat)
  | response (msg : Msg)
  deriving DecidableEq, Repr

abbrev Outcome := Option (Host × List Frame)

/-- The section after an edge: `tbv_rail_data_ready` and not removing. -/
def Host.publishes (host : Host) (railId : Nat) : List Frame :=
  if (host.rails railId).dataReady && !(host.rails railId).removing then [.publish railId] else []

/-- `tbv_native_control_mark_remote_ready` on a rail that was found. -/
def Host.markRemoteReady (host : Host) (railId : Nat) : Host :=
  host.modRail railId fun rail => { rail with remoteReady := true }

/-- `tbv_native_control_mark_local_ready_sent` on a rail that was found. -/
def Host.markLocalReadySent (host : Host) (railId : Nat) : Host :=
  host.modRail railId fun rail => { rail with readySent := true }

def execProbe (host : Host) (railId : Nat) (choice : Choice) : ProbeStage → Outcome
  | .allocRings =>
      match choice with
      | .transmitPath path =>
          if (host.rails railId).state != .new then some (host, [])
          else
            some (host.modRail railId fun rail =>
              { rail with localTransmitPath := path, state := .ringAllocated },
              [.probe railId .startRings])
      | _ => none
  | .startRings =>
      if (host.rails railId).state != .ringAllocated then some (host, [])
      else
        some (host.modRail railId fun rail => { rail with state := .ringStarted },
          if host.negotiateNative then [.probe railId .workState] else [])
  | .workState =>
      some (host.modRail railId fun rail => { rail with workState := true, workStop := false },
        [.probe railId .attempts])
  | .attempts =>
      some (host.modRail railId fun rail =>
        { rail with attempts := 0, tunnelAttempts := 0, readyAttempts := 0 },
        [.probe railId .readySent])
  | .readySent =>
      some (host.modRail railId fun rail => { rail with readySent := false },
        [.probe railId .remoteReady])
  | .remoteReady =>
      some (host.modRail railId fun rail => { rail with remoteReady := false },
        [.probe railId .schedule])
  | .schedule => some (host.modRail railId fun rail => { rail with workQueued := true }, [])

def execWork (host : Host) (choice : Choice) : Frame → Outcome
  | .check r =>
      let rail := host.rails r
      if !rail.workState || rail.workStop ||
          (rail.state != .ringStarted && rail.state != .tunnelEnabled) then some (host, [])
      else if host.negotiateNative && !rail.negotiated then
        some (host.modRail r fun rail => { rail with attempts := rail.attempts + 1 }, [.hello r])
      else some (host, [.tunnelStage r])
  -- `tbv_native_control_exchange_once`
  | .hello r =>
      let rail := host.rails r
      if rail.state != .ringStarted then some (host, [.helloFailed r])
      else if host.controlLock then none
      else some ((host.lock true).send .hello (rail.fillHello r), [.helloWait r])
  | .helloWait r =>
      match choice with
      | .response msg =>
          if msg.op = .helloAck then some (host, [.helloApply r msg.hello])
          else some (host.lock false, [.helloFailed r])
      | .fail => some (host.lock false, [.helloFailed r])
      | _ => none
  | .helloApply r remote =>
      if (host.rails remote.railId).present then
        some ((host.modRail remote.railId fun rail => rail.applyRemote remote).lock false,
          [.tunnelStage r])
      else some (host.lock false, [.helloFailed r])
  | .helloFailed r =>
      some (host, if (host.rails r).attempts < helloRetries then [.retry r] else [])
  | .tunnelStage r =>
      let rail := host.rails r
      if host.enableTunnels && rail.state == .ringStarted then
        if !rail.negotiated || rail.remoteTransmitPath < 0 then some (host, [])
        else
          some (host.modRail r fun rail => { rail with tunnelAttempts := rail.tunnelAttempts + 1 },
            [.tunnel r])
      else some (host, [.readyStage r])
  -- `tbv_native_control_enable_tunnel_once`
  | .tunnel r =>
      if host.controlLock then none
      else
        match choice with
        | .ok =>
            if (host.rails r).state == .ringStarted then
              some (host.modRail r fun rail => { rail with state := .tunnelEnabled },
                [.tunnelCheck r])
            else none
        | .fail =>
            some (host, if (host.rails r).tunnelAttempts < tunnelRetries then [.retry r] else [])
        | _ => none
  | .tunnelCheck r => some (host, host.publishes r ++ [.readyStage r])
  | .readyStage r =>
      let rail := host.rails r
      if host.enableTunnels && rail.state == .tunnelEnabled && !rail.readySent then
        some (host.modRail r fun rail => { rail with readyAttempts := rail.readyAttempts + 1 },
          [.ready r])
      else some (host, [])
  -- `tbv_native_control_ready_once`
  | .ready r =>
      let rail := host.rails r
      if rail.state != .tunnelEnabled then some (host, [.readyFailed r])
      else if host.controlLock then none
      else some ((host.lock true).send .ready (rail.fillHello r), [.readyWait r])
  | .readyWait r =>
      match choice with
      | .response msg =>
          if msg.op = .readyAck ∧ msg.hello.railId = r then some (host, [.readyMark r msg.hello])
          else some (host.lock false, [.readyFailed r])
      | .fail => some (host.lock false, [.readyFailed r])
      | _ => none
  | .readyMark r remote =>
      if (host.rails remote.railId).present then
        let host := host.markRemoteReady remote.railId
        some (host, host.publishes remote.railId ++ [.readyUnlock r])
      else some (host.lock false, [.readyFailed r])
  | .readyUnlock r => some (host.lock false, [.readySent r])
  | .readyFailed r =>
      if (host.rails r).dataReady then some (host, [.readySent r])
      else some (host, if (host.rails r).readyAttempts < readyRetries then [.retry r] else [])
  | .readySent r =>
      some (host.modRail r fun rail => { rail with readySent := true }, [.readyCheck r])
  | .readyCheck r => some (host, host.publishes r)
  | .retry r =>
      if (host.rails r).workStop then some (host, [])
      else some (host.modRail r fun rail => { rail with workQueued := true }, [])
  | .done r => some (host.modRail r fun rail => { rail with workRunning := false }, [])
  | _ => none

def execHandler (host : Host) (choice : Choice) : Frame → Outcome
  | .helloSnapshot remote =>
      let rail := host.rails remote.railId
      if rail.present then some (host, [.helloRemote (rail.fillHello remote.railId) remote])
      else some (host, [])
  | .helloRemote reply remote =>
      some (host.modRail remote.railId fun rail => rail.applyRemote remote,
        [.helloReply reply, .kick remote.railId])
  | .helloReply reply =>
      match choice with
      | .ok => some (host.send .helloAck reply, [])
      | .fail => some (host, [])
      | _ => none
  | .ackApply remote =>
      if (host.rails remote.railId).present then
        some (host.modRail remote.railId fun rail => rail.applyRemote remote, [])
      else some (host, [])
  | .readySnapshot remote =>
      some (host, if (host.rails remote.railId).present then [.readySnapshotEnabled remote] else [])
  | .readySnapshotEnabled remote =>
      let rail := host.rails remote.railId
      if rail.state = .tunnelEnabled then
        some (host, [.markRemote remote, .readyReply (rail.fillHello remote.railId),
          .kick remote.railId])
      else some (host, [.markRemote remote, .kick remote.railId])
  | .markRemote remote =>
      let host := host.markRemoteReady remote.railId
      some (host, host.publishes remote.railId)
  | .readyReply reply =>
      match choice with
      | .ok => some (host.send .readyAck reply, [.markLocal reply.railId])
      | .fail => some (host, [])
      | _ => none
  | .markLocal r =>
      let host := host.markLocalReadySent r
      some (host, host.publishes r)
  -- `tbv_native_control_kick_matching_rail`
  | .kick r =>
      let rail := host.rails r
      if rail.present && rail.workState && !rail.workStop && rail.state != .stopped then
        some (host.modRail r fun rail => { rail with workQueued := true }, [])
      else some (host, [])
  | _ => none

def exec (host : Host) (frame : Frame) (choice : Choice) : Outcome :=
  match frame with
  | .probe r stage => execProbe host r choice stage
  | .removing r => some (host.modRail r fun rail => { rail with removing := true }, [])
  | .workStop r => some (host.modRail r fun rail => { rail with workStop := true }, [])
  | .publish r =>
      some (host.modRail r fun rail =>
        { rail with published := rail.published || rail.dataReady }, [])
  | .helloSnapshot _ | .helloRemote _ _ | .helloReply _ | .ackApply _ | .readySnapshot _
  | .readySnapshotEnabled _ | .markRemote _ | .readyReply _ | .markLocal _ | .kick _ =>
      execHandler host choice frame
  | _ => execWork host choice frame

/-- What happens around a host.  A rail is probed once; its work runs once at a time. -/
inductive Event where
  | probe (railId rxRingSize : Nat)
  | remove (railId : Nat)
  | work (railId : Nat)
  | packet (msg : Msg)
  deriving DecidableEq, Repr

def react (host : Host) : Event → Outcome
  | .probe r rxRingSize =>
      if (host.rails r).present then none
      else
        some (host.modRail r fun rail => { rail with present := true, rxRingSize := rxRingSize },
          [.probe r .allocRings])
  | .remove r => some (host, [.removing r, .workStop r])
  | .work r =>
      if (host.rails r).workQueued && !(host.rails r).workRunning then
        some (host.modRail r fun rail => { rail with workQueued := false, workRunning := true },
          [.check r, .done r])
      else none
  | .packet msg =>
      match msg.op with
      | .hello => some (host, [.helloSnapshot msg.hello])
      | .helloAck => some (host, [.ackApply msg.hello])
      | .ready => some (host, [.readySnapshot msg.hello])
      | .readyAck => some (host, [])

abbrev St := Threads.State Host Frame
abbrev Lbl := Threads.Label Event Choice

def step : St → Lbl → Option St := Threads.step react exec

def start (negotiateNative enableTunnels : Bool) : St :=
  ⟨{ negotiateNative := negotiateNative, enableTunnels := enableTunnels }, []⟩

end Tbv.Control
