import ThunderboltIbverbs.Control.Model

/-! # Data-ready against an enabled peer

Two hosts; every message either has ever sent may arrive at the other at any later moment,
any number of times or never.  READY and READY_ACK are sent only by a rail whose tunnel is
enabled, and a tunnel is enabled only with a record of the peer's rail.  The record is the
peer's for good as long as no HELLO is answered by a rail that has no transmit path yet. -/
set_option autoImplicit false
namespace Tbv.Control

open Trans

/-! ## Two hosts -/

abbrev Net := Bool → St

def carries : Lbl → Option Msg
  | .event (.packet msg) => some msg
  | .run _ (.response msg) => some msg
  | _ => none

def netStep (net : Net) (label : Bool × Lbl) : Option Net :=
  if ∀ msg ∈ carries label.2, msg ∈ (net !label.1).shared.sent then
    (step (net label.1) label.2).map (Function.update net label.1)
  else none

def netStart (negotiateNative enableTunnels : Bool → Bool) : Net :=
  fun side => start (negotiateNative side) (enableTunnels side)

def PeerReady (rail peer : Rail) : Prop :=
  peer.state = .tunnelEnabled ∧ peer.remoteTransmitPath = rail.localTransmitPath ∧
    peer.txRemoteDataCreditMax = NativePath.dataCreditWindow rail.rxRingSize

def answers (net : Net) (label : Bool × Lbl) : Option Nat :=
  match label.2 with
  | .run thread _ =>
      match (net label.1).top thread with
      | some (.helloSnapshot remote) => some remote.railId
      | _ => none
  | .event _ => none

def Prepared (net : Net) (label : Bool × Lbl) : Prop :=
  ∀ r ∈ answers net label, ((net label.1).shared.rails r).present = true →
    0 ≤ ((net label.1).shared.rails r).localTransmitPath

instance (net : Net) (label : Bool × Lbl) : Decidable (Prepared net label) :=
  inferInstanceAs (Decidable (∀ r ∈ answers net label, _))

/-! ## What messages say -/

structure Names (host : Host) (hello : Hello) : Prop where
  path : hello.transmitPath = (host.rails hello.railId).localTransmitPath
  known : 0 ≤ hello.transmitPath
  size : hello.rxRingSize = (host.rails hello.railId).rxRingSize

def Enabled (host : Host) (r : Nat) : Prop := (host.rails r).state = .tunnelEnabled

def MsgOk (host : Host) (msg : Msg) : Prop :=
  match msg.op with
  | .hello | .helloAck => Names host msg.hello
  | .ready | .readyAck => Enabled host msg.hello.railId

def FrameOk (host peer : Host) : Frame → Prop
  | .helloSnapshot remote | .ackApply remote | .helloApply _ remote => Names peer remote
  | .helloRemote reply remote => Names host reply ∧ Names peer remote
  | .helloReply reply => Names host reply
  | .readySnapshot remote | .readySnapshotEnabled remote | .markRemote remote
  | .readyMark _ remote => Enabled peer remote.railId
  | .readyReply reply => Enabled host reply.railId
  | .tunnel r => (host.rails r).negotiated = true
  | .probe r _ => (host.rails r).present = true
  | _ => True

structure RailFacts (rail peer : Rail) : Prop where
  new : rail.state = .new → rail.localTransmitPath = -1
  known : rail.state ≠ .new → 0 ≤ rail.localTransmitPath
  absent : rail.present = false → rail.state = .new
  enabled : rail.state = .tunnelEnabled → rail.negotiated = true
  recorded : rail.negotiated = true →
    0 ≤ peer.localTransmitPath ∧ rail.remoteTransmitPath = peer.localTransmitPath ∧
      rail.txRemoteDataCreditMax = NativePath.dataCreditWindow peer.rxRingSize
  remoteReady : rail.remoteReady = true → peer.state = .tunnelEnabled

structure Facts (host peer : Host) : Prop where
  rails : ∀ r, RailFacts (host.rails r) (peer.rails r)
  sent : ∀ msg ∈ host.sent, MsgOk host msg

/-! ## Rails only go on -/

/-- A path is given to a rail once and a tunnel stays enabled. -/
structure RailLater (rail next : Rail) : Prop where
  present : rail.present = true → next.present = true
  enabled : rail.state = .tunnelEnabled → next.state = .tunnelEnabled
  path : 0 ≤ rail.localTransmitPath →
    next.localTransmitPath = rail.localTransmitPath ∧ next.rxRingSize = rail.rxRingSize
  negotiated : rail.negotiated = true → next.negotiated = true

def Later (host next : Host) : Prop := ∀ r, RailLater (host.rails r) (next.rails r)

theorem RailLater.refl (rail : Rail) : RailLater rail rail := ⟨id, id, fun _ => ⟨rfl, rfl⟩, id⟩

section Later
variable {host next peer : Host}

theorem Names.later {hello : Hello} (names : Names host hello) (later : Later host next) :
    Names next hello := by
  obtain ⟨path, known, size⟩ := names
  obtain ⟨samePath, sameSize⟩ := (later hello.railId).path (by rw [← path]; exact known)
  exact ⟨by rw [path, samePath], known, by rw [size, sameSize]⟩

theorem MsgOk.later {msg : Msg} (ok : MsgOk host msg) (later : Later host next) :
    MsgOk next msg := by
  obtain ⟨op, hello⟩ := msg
  cases op with
  | hello | helloAck => exact Names.later ok later
  | ready | readyAck => exact (later _).enabled ok

theorem FrameOk.later {frame : Frame} (ok : FrameOk host peer frame) (later : Later host next) :
    FrameOk next peer frame := by
  cases frame with
  | helloRemote reply remote => exact ⟨ok.1.later later, ok.2⟩
  | helloReply reply => exact Names.later ok later
  | readyReply reply => exact (later _).enabled ok
  | tunnel r => exact (later r).negotiated ok
  | probe r stage => exact (later r).present ok
  | _ => exact ok

theorem FrameOk.later_peer {frame : Frame} {peer' : Host} (ok : FrameOk host peer frame)
    (later : Later peer peer') : FrameOk host peer' frame := by
  cases frame with
  | helloSnapshot remote | ackApply remote | helloApply r remote => exact Names.later ok later
  | helloRemote reply remote => exact ⟨ok.1, ok.2.later later⟩
  | readySnapshot remote | readySnapshotEnabled remote | markRemote remote | readyMark r remote =>
      exact (later _).enabled ok
  | _ => exact ok

theorem RailFacts.later_peer {rail peer peer' : Rail} (facts : RailFacts rail peer)
    (later : RailLater peer peer') : RailFacts rail peer' where
  new := facts.new
  known := facts.known
  absent := facts.absent
  enabled := facts.enabled
  recorded := fun negotiated => by
    obtain ⟨there, path, window⟩ := facts.recorded negotiated
    obtain ⟨samePath, sameSize⟩ := later.path there
    exact ⟨by rw [samePath]; exact there, by rw [samePath, path], by rw [sameSize, window]⟩
  remoteReady := fun ready => later.enabled (facts.remoteReady ready)

end Later

/-! ## One step of a host -/

structure GoesOn (host peer next : Host) : Prop where
  facts : Facts next peer
  later : Later host next

section Step
variable {host next peer : Host}

/-- A step that changes one rail. -/
theorem Facts.modRail (facts : Facts host peer) {s : Nat} {f : Rail → Rail}
    (rail : RailFacts (f (host.rails s)) (peer.rails s))
    (goes : RailLater (host.rails s) (f (host.rails s))) :
    GoesOn host peer (host.modRail s f) := by
  have later : Later host (host.modRail s f) := by
    intro r
    by_cases is : r = s
    · subst is
      simpa [Host.modRail] using goes
    · simpa [Host.modRail, Function.update_of_ne is] using RailLater.refl (host.rails r)
  refine ⟨⟨fun r => ?_, fun msg among => (facts.sent msg among).later later⟩, later⟩
  by_cases is : r = s
  · subst is
    simpa [Host.modRail] using rail
  · simpa [Host.modRail, Function.update_of_ne is] using facts.rails r

/-- A step that changes nothing of the record of a rail. -/
theorem Facts.keep (facts : Facts host peer) {s : Nat} {f : Rail → Rail}
    (same : ∀ rail, (f rail).present = rail.present ∧ (f rail).state = rail.state ∧
      (f rail).localTransmitPath = rail.localTransmitPath ∧
      (f rail).rxRingSize = rail.rxRingSize ∧ (f rail).negotiated = rail.negotiated ∧
      (f rail).remoteTransmitPath = rail.remoteTransmitPath ∧
      (f rail).txRemoteDataCreditMax = rail.txRemoteDataCreditMax ∧
      ((f rail).remoteReady = true → rail.remoteReady = true)) :
    GoesOn host peer (host.modRail s f) := by
  obtain ⟨present, state, path, size, negotiated, remotePath, window, ready⟩ :=
    same (host.rails s)
  have before := facts.rails s
  refine facts.modRail ⟨?_, ?_, ?_, ?_, ?_, fun is => before.remoteReady (ready is)⟩
    ⟨?_, ?_, ?_, ?_⟩
  · rw [state, path]
    exact before.new
  · rw [state, path]
    exact before.known
  · rw [present, state]
    exact before.absent
  · rw [state, negotiated]
    exact before.enabled
  · rw [negotiated, remotePath, window]
    exact before.recorded
  · rw [present]
    exact id
  · rw [state]
    exact id
  · exact fun _ => ⟨path, size⟩
  · rw [negotiated]
    exact id

theorem Facts.still (facts : Facts host peer) : GoesOn host peer host :=
  ⟨facts, fun r => RailLater.refl (host.rails r)⟩

theorem GoesOn.lock (goes : GoesOn host peer next) (held : Bool) :
    GoesOn host peer (next.lock held) := by
  have same : Later next (next.lock held) := fun r => RailLater.refl (next.rails r)
  exact ⟨⟨goes.facts.rails, fun msg among => (goes.facts.sent msg among).later same⟩, goes.later⟩

/-- A message that says the truth is sent. -/
theorem GoesOn.send (goes : GoesOn host peer next) {op : Op} {hello : Hello}
    (ok : MsgOk next ⟨op, hello⟩) : GoesOn host peer (next.send op hello) := by
  have same : Later next (next.send op hello) := fun r => RailLater.refl (next.rails r)
  refine ⟨⟨goes.facts.rails, fun msg among => ?_⟩, goes.later⟩
  rcases List.mem_append.mp among with old | new
  · exact (goes.facts.sent msg old).later same
  · cases List.mem_singleton.mp new
    exact ok.later same

theorem names_fillHello {r : Nat} (there : 0 ≤ (host.rails r).localTransmitPath) :
    Names host ((host.rails r).fillHello r) := by
  unfold Rail.fillHello
  rw [if_pos there]
  exact ⟨rfl, there, rfl⟩

/-- A record of what the peer's rail says of itself. -/
theorem Facts.applyRemote (facts : Facts host peer) {remote : Hello} (names : Names peer remote) :
    GoesOn host peer (host.modRail remote.railId fun rail => rail.applyRemote remote) := by
  have before := facts.rails remote.railId
  refine facts.modRail ⟨before.new, before.known, before.absent, fun _ => rfl, fun _ => ?_,
    before.remoteReady⟩ ⟨id, id, fun _ => ⟨rfl, rfl⟩, fun _ => rfl⟩
  refine ⟨?_, names.path, ?_⟩
  · rw [← names.path]
    exact names.known
  · rw [← names.size]
    rfl

theorem Facts.markRemoteReady (facts : Facts host peer) {r : Nat} (enabled : Enabled peer r) :
    GoesOn host peer (host.markRemoteReady r) := by
  have before := facts.rails r
  exact facts.modRail ⟨before.new, before.known, before.absent, before.enabled, before.recorded,
    fun _ => enabled⟩ ⟨id, id, fun _ => ⟨rfl, rfl⟩, id⟩

/-- What a step leads to: the host goes on, and the new frames know what they say. -/
structure Leads (host peer next : Host) (pushed : List Frame) : Prop where
  goes : GoesOn host peer next
  pushed : ∀ frame ∈ pushed, FrameOk next peer frame

theorem frameOk_publishes {other : Host} (r : Nat) :
    ∀ frame ∈ other.publishes r, FrameOk next peer frame := by
  intro frame among
  unfold Host.publishes at among
  split at among
  · cases List.mem_singleton.mp among
    trivial
  · cases among

/-- The rail goes from one state before the tunnel to the next. -/
theorem Facts.advance (facts : Facts host peer) {s : Nat} {f : Rail → Rail}
    (present : (host.rails s).present = true) (below : (host.rails s).state ≠ .tunnelEnabled)
    (known : 0 ≤ (f (host.rails s)).localTransmitPath)
    (stays : 0 ≤ (host.rails s).localTransmitPath →
      (f (host.rails s)).localTransmitPath = (host.rails s).localTransmitPath)
    (state : (f (host.rails s)).state ≠ .new)
    (enabled : (f (host.rails s)).state = .tunnelEnabled → (host.rails s).negotiated = true)
    (same : ∀ rail, (f rail).present = rail.present ∧ (f rail).rxRingSize = rail.rxRingSize ∧
      (f rail).negotiated = rail.negotiated ∧
      (f rail).remoteTransmitPath = rail.remoteTransmitPath ∧
      (f rail).txRemoteDataCreditMax = rail.txRemoteDataCreditMax ∧
      (f rail).remoteReady = rail.remoteReady) :
    GoesOn host peer (host.modRail s f) := by
  obtain ⟨samePresent, size, negotiated, remotePath, window, ready⟩ := same (host.rails s)
  have before := facts.rails s
  refine facts.modRail ⟨fun is => absurd is state, fun _ => known, ?_, ?_, ?_, ?_⟩
    ⟨?_, fun is => absurd is below, fun there => ⟨stays there, size⟩, ?_⟩
  · rw [samePresent, present]
    exact nofun
  · rw [negotiated]
    exact enabled
  · rw [negotiated, remotePath, window]
    exact before.recorded
  · rw [ready]
    exact before.remoteReady
  · rw [samePresent]
    exact id
  · rw [negotiated]
    exact id

theorem execProbe_leads {s : Nat} {choice : Choice} {stage : ProbeStage} {pushed : List Frame}
    (facts : Facts host peer) (present : (host.rails s).present = true)
    (executed : execProbe host s choice stage = some (next, pushed)) :
    Leads host peer next pushed := by
  have before := facts.rails s
  cases stage <;> simp only [execProbe] at executed
  case allocRings =>
    split at executed
    · rename_i path
      split at executed
      · cases executed
        exact ⟨facts.still, nofun⟩
      · rename_i isNew
        have new : (host.rails s).state = .new := by simpa using isNew
        cases executed
        refine ⟨facts.advance present (by simp [new]) (Int.natCast_nonneg path) (fun there => ?_)
          nofun nofun fun _ => ⟨rfl, rfl, rfl, rfl, rfl, rfl⟩, ?_⟩
        · rw [before.new new] at there
          exact absurd there (by decide)
        · simp [FrameOk, Host.modRail, present]
    · cases executed
  case startRings =>
    split at executed
    · cases executed
      exact ⟨facts.still, nofun⟩
    · rename_i isAllocated
      have allocated : (host.rails s).state = .ringAllocated := by simpa using isAllocated
      cases executed
      refine ⟨facts.advance present (by simp [allocated]) (before.known (by simp [allocated]))
        (fun _ => rfl) nofun nofun fun _ => ⟨rfl, rfl, rfl, rfl, rfl, rfl⟩, ?_⟩
      split
      · simp [FrameOk, Host.modRail, present]
      · exact nofun
  all_goals
    cases executed
    refine ⟨facts.keep fun rail => ⟨rfl, rfl, rfl, rfl, rfl, rfl, rfl, ?_⟩,
      by simp [FrameOk, Host.modRail, present]⟩
    first
      | exact id
      | exact nofun

theorem Facts.leads_keep (facts : Facts host peer) {s : Nat} {f : Rail → Rail}
    {pushed : List Frame} (same : ∀ rail, (f rail).present = rail.present ∧
      (f rail).state = rail.state ∧ (f rail).localTransmitPath = rail.localTransmitPath ∧
      (f rail).rxRingSize = rail.rxRingSize ∧ (f rail).negotiated = rail.negotiated ∧
      (f rail).remoteTransmitPath = rail.remoteTransmitPath ∧
      (f rail).txRemoteDataCreditMax = rail.txRemoteDataCreditMax ∧
      ((f rail).remoteReady = true → rail.remoteReady = true))
    (plain : ∀ frame ∈ pushed, ∀ any, FrameOk any peer frame) :
    Leads host peer (host.modRail s f) pushed :=
  ⟨facts.keep same, fun frame among => plain frame among _⟩

theorem execWork_leads {frame : Frame} {choice : Choice} {pushed : List Frame}
    (facts : Facts host peer) (knows : FrameOk host peer frame)
    (genuine : ∀ msg, choice = .response msg → MsgOk peer msg)
    (executed : execWork host choice frame = some (next, pushed)) :
    Leads host peer next pushed := by
  cases frame with
  | hello r =>
      simp only [execWork] at executed
      split at executed
      · cases executed
        exact ⟨facts.still, by simp [FrameOk]⟩
      · rename_i started
        split at executed
        · cases executed
        · cases executed
          have there : 0 ≤ (host.rails r).localTransmitPath := by
            refine (facts.rails r).known ?_
            simp only [bne_iff_ne, not_not] at started
            simp [started]
          exact ⟨(facts.still.lock true).send (names_fillHello there), by simp [FrameOk]⟩
  | helloWait r =>
      simp only [execWork] at executed
      split at executed
      · rename_i msg
        split at executed
        · rename_i isAck
          cases executed
          have ok := genuine msg rfl
          obtain ⟨op, hello⟩ := msg
          cases isAck
          refine ⟨facts.still, fun frame among => ?_⟩
          cases List.mem_singleton.mp among
          exact ok
        · cases executed
          exact ⟨facts.still.lock false, by simp [FrameOk]⟩
      · cases executed
        exact ⟨facts.still.lock false, by simp [FrameOk]⟩
      · cases executed
  | helloApply r remote =>
      simp only [execWork] at executed
      split at executed
      · cases executed
        exact ⟨(facts.applyRemote knows).lock false, by simp [FrameOk]⟩
      · cases executed
        exact ⟨facts.still.lock false, by simp [FrameOk]⟩
  | tunnelStage r =>
      simp only [execWork] at executed
      split at executed
      · split at executed
        · cases executed
          exact ⟨facts.still, nofun⟩
        · rename_i recorded
          have negotiated : (host.rails r).negotiated = true := by
            by_contra unknown
            exact recorded (by simp [unknown])
          cases executed
          refine ⟨facts.keep fun rail => ⟨rfl, rfl, rfl, rfl, rfl, rfl, rfl, id⟩, ?_⟩
          simp [FrameOk, Host.modRail, negotiated]
      · cases executed
        exact ⟨facts.still, by simp [FrameOk]⟩
  | tunnel r =>
      simp only [execWork] at executed
      split at executed
      · cases executed
      · split at executed
        · split at executed
          · rename_i isStarted
            have started : (host.rails r).state = .ringStarted := by simpa using isStarted
            have present : (host.rails r).present = true := by
              by_contra gone
              have new := (facts.rails r).absent (by simpa using gone)
              rw [started] at new
              cases new
            cases executed
            refine ⟨facts.advance present (by simp [started]) ((facts.rails r).known ?_)
              (fun _ => rfl) nofun (fun _ => knows) fun _ => ⟨rfl, rfl, rfl, rfl, rfl, rfl⟩,
              by simp [FrameOk]⟩
            simp [started]
          · cases executed
        · cases executed
          refine ⟨facts.still, ?_⟩
          split
          · simp [FrameOk]
          · exact nofun
        · cases executed
  | tunnelCheck r =>
      cases executed
      refine ⟨facts.still, fun frame among => ?_⟩
      rcases List.mem_append.mp among with published | stage
      · exact frameOk_publishes r frame published
      · cases List.mem_singleton.mp stage
        trivial
  | ready r =>
      simp only [execWork] at executed
      split at executed
      · cases executed
        exact ⟨facts.still, by simp [FrameOk]⟩
      · rename_i isEnabled
        split at executed
        · cases executed
        · cases executed
          have enabled : Enabled host r := by simpa [Enabled] using isEnabled
          exact ⟨(facts.still.lock true).send enabled, by simp [FrameOk]⟩
  | readyWait r =>
      simp only [execWork] at executed
      split at executed
      · rename_i msg
        split at executed
        · rename_i isAck
          cases executed
          have ok := genuine msg rfl
          obtain ⟨op, hello⟩ := msg
          cases isAck.1
          refine ⟨facts.still, fun frame among => ?_⟩
          cases List.mem_singleton.mp among
          exact ok
        · cases executed
          exact ⟨facts.still.lock false, by simp [FrameOk]⟩
      · cases executed
        exact ⟨facts.still.lock false, by simp [FrameOk]⟩
      · cases executed
  | readyMark r remote =>
      simp only [execWork] at executed
      split at executed
      · cases executed
        refine ⟨facts.markRemoteReady knows, fun frame among => ?_⟩
        rcases List.mem_append.mp among with published | unlock
        · exact frameOk_publishes remote.railId frame published
        · cases List.mem_singleton.mp unlock
          trivial
      · cases executed
        exact ⟨facts.still.lock false, by simp [FrameOk]⟩
  | readyUnlock r =>
      cases executed
      exact ⟨facts.still.lock false, by simp [FrameOk]⟩
  | readyCheck r =>
      cases executed
      exact ⟨facts.still, frameOk_publishes r⟩
  | check r | helloFailed r | readyStage r | readyFailed r | readySent r | retry r | done r =>
      simp only [execWork] at executed
      repeat' split at executed
      all_goals cases executed
      all_goals first
        | exact ⟨facts.still, by simp [FrameOk]⟩
        | exact facts.leads_keep (fun rail => ⟨rfl, rfl, rfl, rfl, rfl, rfl, rfl, id⟩)
            (by simp [FrameOk])
  | _ => cases executed

theorem execHandler_leads {frame : Frame} {choice : Choice} {pushed : List Frame}
    (facts : Facts host peer) (knows : FrameOk host peer frame)
    (prepared : ∀ remote, frame = .helloSnapshot remote →
      (host.rails remote.railId).present = true →
      0 ≤ (host.rails remote.railId).localTransmitPath)
    (executed : execHandler host choice frame = some (next, pushed)) :
    Leads host peer next pushed := by
  cases frame with
  | helloSnapshot remote =>
      simp only [execHandler] at executed
      split at executed
      · rename_i present
        cases executed
        refine ⟨facts.still, fun frame among => ?_⟩
        cases List.mem_singleton.mp among
        exact ⟨names_fillHello (prepared remote rfl present), knows⟩
      · cases executed
        exact ⟨facts.still, nofun⟩
  | helloRemote reply remote =>
      cases executed
      have goes := facts.applyRemote knows.2
      refine ⟨goes, fun frame among => ?_⟩
      simp only [List.mem_cons, List.not_mem_nil, or_false] at among
      rcases among with rfl | rfl
      · exact knows.1.later goes.later
      · trivial
  | helloReply reply =>
      simp only [execHandler] at executed
      split at executed <;> cases executed
      · exact ⟨facts.still.send knows, nofun⟩
      · exact ⟨facts.still, nofun⟩
  | ackApply remote =>
      simp only [execHandler] at executed
      split at executed <;> cases executed
      · exact ⟨facts.applyRemote knows, nofun⟩
      · exact ⟨facts.still, nofun⟩
  | readySnapshot remote =>
      cases executed
      refine ⟨facts.still, fun frame among => ?_⟩
      split at among
      · cases List.mem_singleton.mp among
        exact knows
      · cases among
  | readySnapshotEnabled remote =>
      simp only [execHandler] at executed
      split at executed
      · rename_i enabled
        cases executed
        refine ⟨facts.still, fun frame among => ?_⟩
        simp only [List.mem_cons, List.not_mem_nil, or_false] at among
        rcases among with rfl | rfl | rfl
        · exact knows
        · exact enabled
        · trivial
      · cases executed
        refine ⟨facts.still, fun frame among => ?_⟩
        simp only [List.mem_cons, List.not_mem_nil, or_false] at among
        rcases among with rfl | rfl
        · exact knows
        · trivial
  | markRemote remote =>
      cases executed
      exact ⟨facts.markRemoteReady knows, frameOk_publishes remote.railId⟩
  | readyReply reply =>
      simp only [execHandler] at executed
      split at executed <;> cases executed
      · exact ⟨facts.still.send knows, by simp [FrameOk]⟩
      · exact ⟨facts.still, nofun⟩
  | markLocal r =>
      cases executed
      exact ⟨facts.keep fun rail => ⟨rfl, rfl, rfl, rfl, rfl, rfl, rfl, id⟩, frameOk_publishes r⟩
  | kick r =>
      simp only [execHandler] at executed
      split at executed <;> cases executed
      · exact facts.leads_keep (fun rail => ⟨rfl, rfl, rfl, rfl, rfl, rfl, rfl, id⟩) nofun
      · exact ⟨facts.still, nofun⟩
  | _ => cases executed

theorem exec_leads {frame : Frame} {choice : Choice} {pushed : List Frame}
    (facts : Facts host peer) (knows : FrameOk host peer frame)
    (genuine : ∀ msg, choice = .response msg → MsgOk peer msg)
    (prepared : ∀ remote, frame = .helloSnapshot remote →
      (host.rails remote.railId).present = true →
      0 ≤ (host.rails remote.railId).localTransmitPath)
    (executed : exec host frame choice = some (next, pushed)) :
    Leads host peer next pushed := by
  cases frame with
  | probe r stage => exact execProbe_leads facts knows executed
  | removing r | workStop r | publish r =>
      cases executed
      exact facts.leads_keep (fun rail => ⟨rfl, rfl, rfl, rfl, rfl, rfl, rfl, id⟩) nofun
  | helloSnapshot remote | helloRemote reply remote | helloReply reply | ackApply remote
  | readySnapshot remote | readySnapshotEnabled remote | markRemote remote | readyReply reply
  | markLocal r | kick r =>
      simp only [exec] at executed
      exact execHandler_leads facts knows prepared executed
  | check r | hello r | helloWait r | helloApply r remote | helloFailed r | tunnelStage r
  | tunnel r | tunnelCheck r | readyStage r | ready r | readyWait r | readyMark r remote
  | readyUnlock r | readyFailed r | readySent r | readyCheck r | retry r | done r =>
      simp only [exec] at executed
      exact execWork_leads facts knows genuine executed

theorem react_leads {event : Event} {pushed : List Frame} (facts : Facts host peer)
    (genuine : ∀ msg, event = .packet msg → MsgOk peer msg)
    (reacted : react host event = some (next, pushed)) : Leads host peer next pushed := by
  cases event with
  | probe r rxRingSize =>
      simp only [react] at reacted
      split at reacted
      · cases reacted
      · rename_i absent
        have before := facts.rails r
        have new := before.absent (by simpa using absent)
        cases reacted
        refine ⟨facts.modRail ⟨before.new, before.known, nofun, before.enabled, before.recorded,
          before.remoteReady⟩ ⟨fun _ => rfl, id, fun there => ?_, id⟩, ?_⟩
        · rw [before.new new] at there
          exact absurd there (by decide)
        · simp [FrameOk, Host.modRail]
  | remove r =>
      cases reacted
      exact ⟨facts.still, by simp [FrameOk]⟩
  | work r =>
      simp only [react] at reacted
      split at reacted <;> cases reacted
      exact facts.leads_keep (fun rail => ⟨rfl, rfl, rfl, rfl, rfl, rfl, rfl, id⟩)
        (by simp [FrameOk])
  | packet msg =>
      have ok := genuine msg rfl
      obtain ⟨op, hello⟩ := msg
      cases op <;> cases reacted
      · refine ⟨facts.still, fun frame among => ?_⟩
        cases List.mem_singleton.mp among
        exact ok
      · refine ⟨facts.still, fun frame among => ?_⟩
        cases List.mem_singleton.mp among
        exact ok
      · refine ⟨facts.still, fun frame among => ?_⟩
        cases List.mem_singleton.mp among
        exact ok
      · exact ⟨facts.still, nofun⟩

end Step

/-! ## Runs -/

structure Agreed (net : Net) : Prop where
  facts : ∀ side, Facts (net side).shared (net !side).shared
  frames : ∀ side frame, (net side).Has frame →
    FrameOk (net side).shared (net !side).shared frame

theorem agreed_start (negotiateNative enableTunnels : Bool → Bool) :
    Agreed (netStart negotiateNative enableTunnels) where
  facts := fun side => by
    refine ⟨fun r => ⟨fun _ => rfl, fun other => absurd rfl other, fun _ => rfl, nofun, nofun,
      nofun⟩, nofun⟩
  frames := fun side frame has => by
    obtain ⟨stack, among, -⟩ := has
    cases among

theorem Agreed.update {net : Net} (agreed : Agreed net) (side : Bool) {st : St}
    (goes : GoesOn (net side).shared (net !side).shared st.shared)
    (frames : ∀ frame, st.Has frame → FrameOk st.shared (net !side).shared frame) :
    Agreed (Function.update net side st) := by
  have here : Function.update net side st side = st := Function.update_self ..
  have there : Function.update net side st (!side) = net !side :=
    Function.update_of_ne (by simp) ..
  have split : ∀ dir, dir = side ∨ dir = !side := by
    intro dir
    cases dir <;> cases side <;> simp
  constructor
  · intro dir
    rcases split dir with rfl | rfl
    · rw [here, there]
      exact goes.facts
    · rw [Bool.not_not, here, there]
      have facts := agreed.facts !side
      rw [Bool.not_not] at facts
      exact ⟨fun r => (facts.rails r).later_peer (goes.later r), facts.sent⟩
  · intro dir frame has
    rcases split dir with rfl | rfl
    · rw [here] at has ⊢
      rw [there]
      exact frames frame has
    · rw [there] at has ⊢
      rw [Bool.not_not, here]
      have known := agreed.frames (!side) frame has
      rw [Bool.not_not] at known
      exact known.later_peer goes.later

theorem Agreed.step {net next : Net} {label : Bool × Lbl} (agreed : Agreed net)
    (prepared : Prepared net label) (stepped : netStep net label = some next) : Agreed next := by
  obtain ⟨side, label⟩ := label
  unfold netStep at stepped
  split at stepped
  · rename_i genuine
    obtain ⟨st, taken, rfl⟩ := Option.map_eq_some_iff.mp stepped
    have facts := agreed.facts side
    have sent : ∀ msg ∈ carries label, MsgOk (net !side).shared msg := fun msg carried =>
      (agreed.facts !side).sent msg (genuine msg carried)
    cases label with
    | event event =>
        obtain ⟨host, code, reacted, rfl⟩ := Threads.step_event taken
        have leads := react_leads facts (fun msg is => sent msg (by simp [carries, is])) reacted
        refine agreed.update side leads.goes fun frame has => ?_
        rcases Threads.State.has_of_event has with new | old
        · exact leads.pushed frame new
        · exact (agreed.frames side frame old).later leads.goes.later
    | run thread choice =>
        obtain ⟨frame, rest, host, pushed, found, executed, rfl⟩ := Threads.step_run taken
        have top := Threads.State.top_of_getElem? found
        have leads := exec_leads facts (agreed.frames side frame (Threads.State.has_of_top found))
          (fun msg is => sent msg (by simp [carries, is]))
          (fun remote is => prepared remote.railId (by simp [answers, top, is])) executed
        refine agreed.update side leads.goes fun other has => ?_
        rcases Threads.State.has_of_run found has with new | old
        · exact leads.pushed other new
        · exact (agreed.frames side other old).later leads.goes.later
  · cases stepped

/-- In every run in which no HELLO is answered by a rail without a transmit path: a rail
that is data-ready has an enabled peer with its transmit path and its window on record. -/
theorem ready_against_enabled_peer (negotiateNative enableTunnels : Bool → Bool) (net : Net)
    (reached : Reaches netStep Prepared (netStart negotiateNative enableTunnels) net)
    (side : Bool) (r : Nat) (ready : ((net side).shared.rails r).dataReady = true) :
    PeerReady ((net side).shared.rails r) ((net !side).shared.rails r) := by
  have agreed : Agreed net := reached.invariant (agreed_start negotiateNative enableTunnels)
    fun agreed prepared stepped => agreed.step prepared stepped
  have remote : ((net side).shared.rails r).remoteReady = true := by
    simp only [Rail.dataReady, Bool.and_eq_true] at ready
    exact ready.2
  have enabled := ((agreed.facts side).rails r).remoteReady remote
  have peer := (agreed.facts !side).rails r
  rw [Bool.not_not] at peer
  obtain ⟨-, path, window⟩ := peer.recorded (peer.enabled enabled)
  exact ⟨enabled, path, window⟩

/-! Runs of two hosts: `true` is probed late in the second one. -/

/-- A rail's probe, from its peer's list to the first queueing of its work. -/
def probed (side : Bool) (path : Nat) : List (Bool × Lbl) :=
  (side, .run 0 (.transmitPath path)) :: List.replicate 6 (side, .run 0 .ok)

def goesOn (side : Bool) (thread frames : Nat) : List (Bool × Lbl) :=
  List.replicate frames (side, .run thread .ok)

/-- `false` asks and enables, then `true` enables and is answered READY_ACK. -/
def handshake (thread : Nat) : List (Bool × Lbl) :=
  [(false, (.event (.work 0) : Lbl))] ++ goesOn false thread 2 ++
    [(true, (.event (.packet ⟨.hello, ⟨0, 9, 512⟩⟩) : Lbl))] ++ goesOn true thread 4 ++
    [(false, (.run thread (.response ⟨.helloAck, ⟨0, 8, 512⟩⟩) : Lbl))] ++ goesOn false thread 3 ++
    [(true, (.event (.work 0) : Lbl))] ++ goesOn true (thread + 1) 6 ++
    [(false, (.event (.packet ⟨.ready, ⟨0, 8, 512⟩⟩) : Lbl))] ++ goesOn false (thread + 1) 6 ++
    [(true, (.run (thread + 1) (.response ⟨.readyAck, ⟨0, 9, 512⟩⟩) : Lbl))] ++
      goesOn true (thread + 1) 5

def bothProbed : List (Bool × Lbl) :=
  [(true, .event (.probe 0 512)), (false, .event (.probe 0 512))] ++ probed false 9 ++ probed true 8

theorem ready_against_enabled_peer_handshake : ∃ net,
    Reaches netStep Prepared (netStart (fun _ => true) fun _ => true) net ∧
      ((net true).shared.rails 0).dataReady = true ∧
      PeerReady ((net true).shared.rails 0) ((net false).shared.rails 0) := by
  have ran : (guarded netStep Prepared (bothProbed ++ handshake 1)
      (netStart (fun _ => true) fun _ => true)).any
      (fun net => ((net true).shared.rails 0).dataReady) = true := by decide +kernel
  obtain ⟨net, reached, ready⟩ := exists_reaches_of_guarded ran
  exact ⟨net, reached, ready, ready_against_enabled_peer _ _ net reached true 0 ready⟩

/-- The HELLO of `false` is answered before the rings of `true` are allocated, and the
answer comes in when all is agreed. -/
def answeredEarly : List (Bool × Lbl) :=
  [(true, (.event (.probe 0 512) : Lbl)), (false, .event (.probe 0 512))] ++ probed false 9 ++
    [(false, (.event (.work 0) : Lbl))] ++ goesOn false 1 2 ++
    [(true, (.event (.packet ⟨.hello, ⟨0, 9, 512⟩⟩) : Lbl))] ++ goesOn true 1 4 ++
    [(false, (.run 1 .fail : Lbl))] ++ goesOn false 1 3 ++ probed true 8 ++ handshake 2 ++
    [(false, (.event (.packet ⟨.helloAck, ⟨0, -1, 512⟩⟩) : Lbl)), (false, .run 4 .ok)]

theorem early_answer_overwrites_path :
    ¬ ∀ (negotiateNative enableTunnels : Bool → Bool) (net : Net),
      Reaches netStep (fun _ _ => True) (netStart negotiateNative enableTunnels) net →
      ∀ (side : Bool) (r : Nat), ((net side).shared.rails r).dataReady = true →
        PeerReady ((net side).shared.rails r) ((net !side).shared.rails r) := by
  intro always
  have ran : (guarded netStep (fun _ _ => True) answeredEarly
      (netStart (fun _ => true) fun _ => true)).any
      (fun net => ((net true).shared.rails 0).dataReady &&
        ((net true).shared.rails 0).localTransmitPath == 8 &&
        ((net false).shared.rails 0).remoteTransmitPath == -1) = true := by decide +kernel
  obtain ⟨net, reached, found⟩ := exists_reaches_of_guarded ran
  simp only [Bool.and_eq_true, beq_iff_eq] at found
  obtain ⟨⟨ready, here⟩, recorded⟩ := found
  have agrees := (always _ _ net reached true 0 ready).2.1
  rw [here] at agrees
  exact absurd (recorded.symm.trans agrees) (by decide)

end Tbv.Control
