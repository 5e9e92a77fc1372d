import ThunderboltIbverbs.Lib.Restart
import ThunderboltIbverbs.Service.Model

/-! # The loops that publish rails

`tbv_service_apple_rail_work`, `tbv_ibdev_netdev_retry_work` and the catch-up of `tbv_ibdev_start`
look for the first rail to publish, hand it to `tbv_ibdev_rail_event`, and look again.  Each relies on
the event to change a flag that it looks at.  The rails are those of all peers in list order. -/
set_option autoImplicit false
namespace Tbv.Service

def eprobeDefer : Int := -517
def enodev : Int := -19
def enotconn : Int := -107

/-- What the loops look at and do not change.  `minimalReady` is `tbv_tbnet_minimal_path_ready` for a
remote UUID, and `netdevRegistered` tells if the netdev that a backend needs is registered. -/
structure Facts where
  registerEnabled : Bool
  appleRailsWaitTbnet : Bool
  minimalPacket : Bool
  servicesRegistered : Bool
  enableTunnels : Bool
  minimalReady : Option Nat → Bool
  netdevRegistered : Backend → Bool

/-- What `tbv_path_enable_tunnel` and `tbv_ibdev_register_one` return in each turn of a loop; a
registration is deferred only while its netdev is missing. -/
structure Results (netdevRegistered : Backend → Bool) where
  tunnel : Nat → Int
  register : Nat → Rail → Int
  defers : ∀ turn rail, register turn rail = eprobeDefer → netdevRegistered rail.peer.backend = false

/-- `tbv_rail_data_ready`, of a native rail. -/
def Rail.dataReady (rail : Rail) : Bool :=
  rail.pathState == .tunnelEnabled && rail.nativeReadySent && rail.nativeRemoteReady

/-- `tbv_ibdev_rail_publish_ready_locked`. -/
def publishReady (facts : Facts) (rail : Rail) : Bool :=
  if rail.removing then false
  else
    match rail.peer.backend with
    | .native => rail.dataReady
    | .apple =>
        if facts.appleRailsWaitTbnet && !facts.minimalReady rail.peer.xd.remoteUuid then false
        else rail.pathState == .tunnelEnabled

/-- The up edge of `tbv_ibdev_rail_event`, with what the registration would return. -/
def railEvent (facts : Facts) (registered : Int) (rail : Rail) : Rail × Int :=
  if !facts.registerEnabled then (rail, 0)
  else if rail.ibdev then (rail, 0)
  else if rail.ibdevRegisterFailed then (rail, 0)
  else if rail.ibdevRegisterDeferred then (rail, 0)
  else if !publishReady facts rail then (rail, 0)
  else
    let failed := { rail with ibdevRegisterFailed := true, ibdevRegisterDeferred := false }
    match rail.nameIndex with
    | .error .enodev => (failed, enodev)
    | .error .erange => (failed, -34)
    | .ok _ =>
        if registered = 0 then ({ rail with ibdevRegisterDeferred := false, ibdev := true }, 0)
        else if registered = eprobeDefer then
          ({ rail with ibdevRegisterDeferred := true }, registered)
        else (failed, registered)

/-! ## The Apple worker -/

def tbnetPathReady (facts : Facts) (remoteUuid : Option Nat) : Bool :=
  if !facts.minimalPacket then true else facts.minimalReady remoteUuid

def Rail.appleServiceReady (rail : Rail) : Bool :=
  rail.pathState == .ringStarted || rail.pathState == .tunnelEnabled

/-- The rails `tbv_service_next_pending_apple_rail` returns. -/
def servicePending (facts : Facts) (rail : Rail) : Bool :=
  rail.peer.backend == .apple && !(rail.removing || rail.ibdev || rail.ibdevRegisterFailed ||
    rail.ibdevRegisterDeferred || !rail.appleServiceReady) &&
    tbnetPathReady facts rail.peer.xd.remoteUuid

/-- `tbv_service_enable_apple_rail_tunnel`, with what enabling the tunnel would return. -/
def enableAppleRailTunnel (tunnel : Int) (rail : Rail) : Rail × Int :=
  if rail.removing then (rail, enodev)
  else
    match rail.pathState with
    | .tunnelEnabled => (rail, 0)
    | .ringStarted => if tunnel = 0 then ({ rail with pathState := .tunnelEnabled }, 0) else (rail, tunnel)
    | .idle => (rail, enotconn)

/-- `tbv_service_publish_apple_rail`; the worker returns on an error. -/
def publishAppleRail (facts : Facts) (results : Results facts.netdevRegistered) (turn : Nat)
    (rail : Rail) : Restart.Visit Rail :=
  let up := enableAppleRailTunnel (results.tunnel turn) rail
  if up.2 ≠ 0 then ⟨up.1, false, true⟩
  else
    let out := railEvent facts (results.register turn up.1) up.1
    ⟨out.1, true, out.2 ≠ 0⟩

/-- The worker looks for rails at all. -/
def Facts.workerRuns (facts : Facts) : Bool :=
  facts.servicesRegistered && facts.enableTunnels && tbnetPathReady facts none

def appleRailWork (facts : Facts) (results : Results facts.netdevRegistered) :
    Restart.Loop Rail → Restart.Loop Rail :=
  Restart.step (servicePending facts) (publishAppleRail facts results)

/-! ## The retry for a late netdev -/

/-- The rails `tbv_ibdev_netdev_retry_work` looks for. -/
def retryPending (facts : Facts) (rail : Rail) : Bool :=
  !(!rail.ibdevRegisterDeferred || rail.ibdev || rail.ibdevRegisterFailed) &&
    facts.netdevRegistered rail.peer.backend && publishReady facts rail

/-- The latch is cleared before the event, unless the rail changed in between. -/
def retryRail (facts : Facts) (results : Results facts.netdevRegistered) (turn : Nat) (rail : Rail) :
    Restart.Visit Rail :=
  if rail.ibdevRegisterDeferred && !rail.ibdev && !rail.ibdevRegisterFailed then
    let cleared := { rail with ibdevRegisterDeferred := false }
    ⟨(railEvent facts (results.register turn cleared) cleared).1, true, false⟩
  else ⟨rail, false, false⟩

def netdevRetryWork (facts : Facts) (results : Results facts.netdevRegistered) :
    Restart.Loop Rail → Restart.Loop Rail :=
  Restart.step (retryPending facts) (retryRail facts results)

/-! ## The catch-up at the start -/

/-- The rails the catch-up of `tbv_ibdev_start` looks for. -/
def catchupPending (facts : Facts) (rail : Rail) : Bool :=
  !(rail.ibdev || rail.ibdevRegisterFailed || rail.ibdevRegisterDeferred) && publishReady facts rail

def catchupRail (facts : Facts) (results : Results facts.netdevRegistered) (turn : Nat) (rail : Rail) :
    Restart.Visit Rail :=
  ⟨(railEvent facts (results.register turn rail) rail).1, true, false⟩

/-- `tbv_ibdev_start` enables registration before it catches up. -/
def Facts.started (facts : Facts) : Facts := { facts with registerEnabled := true }

def startCatchup (facts : Facts) (results : Results facts.netdevRegistered) :
    Restart.Loop Rail → Restart.Loop Rail :=
  Restart.step (catchupPending facts.started) (catchupRail facts.started results)

/-! ## What an event changes -/

section
variable {facts : Facts} {registered : Int} {rail : Rail}

/-- The event returns before it does anything. -/
def Blocked (facts : Facts) (rail : Rail) : Prop :=
  facts.registerEnabled = false ∨
    facts.appleRailsWaitTbnet = true ∧ facts.minimalReady rail.peer.xd.remoteUuid = false

/-- An event that gets past its gates leaves a flag set; only a device makes it return 0. -/
theorem railEvent_acts (enabled : facts.registerEnabled = true)
    (new : rail.ibdev = false ∧ rail.ibdevRegisterFailed = false ∧ rail.ibdevRegisterDeferred = false)
    (ready : publishReady facts rail = true) :
    let out := railEvent facts registered rail
    (out.1.ibdev = true ∧ out.2 = 0 ∧ ∃ i, rail.nameIndex = .ok i) ∨
      (out.1.ibdevRegisterFailed = true ∧ out.2 ≠ 0) ∨
      (out.1.ibdevRegisterDeferred = true ∧ out.2 ≠ 0 ∧ registered = eprobeDefer) := by
  obtain ⟨ibdev, failed, deferred⟩ := new
  unfold railEvent
  simp only [enabled, ibdev, failed, deferred, ready, Bool.not_true, Bool.false_eq_true, if_false]
  split
  · exact .inr (.inl ⟨rfl, (by decide : enodev ≠ 0)⟩)
  · exact .inr (.inl ⟨rfl, (by decide : (-34 : Int) ≠ 0)⟩)
  · rename_i i named
    split
    · exact .inl ⟨rfl, rfl, i, named⟩
    · rename_i refused
      split
      · rename_i late
        exact .inr (.inr ⟨rfl, refused, late⟩)
      · exact .inr (.inl ⟨rfl, refused⟩)

theorem railEvent_registers (enabled : facts.registerEnabled = true)
    (new : rail.ibdev = false ∧ rail.ibdevRegisterFailed = false ∧ rail.ibdevRegisterDeferred = false)
    (ready : publishReady facts rail = true) {i : Int} (named : rail.nameIndex = .ok i) :
    railEvent facts 0 rail = ({ rail with ibdevRegisterDeferred := false, ibdev := true }, 0) := by
  obtain ⟨ibdev, failed, deferred⟩ := new
  unfold railEvent
  simp only [enabled, ibdev, failed, deferred, ready, named, Bool.not_true, Bool.false_eq_true,
    if_false, if_true]

theorem railEvent_blocked (blocked : Blocked facts rail) (apple : rail.peer.backend = .apple)
    (present : rail.removing = false) : railEvent facts registered rail = (rail, 0) := by
  have unready : facts.registerEnabled = true → publishReady facts rail = false := by
    intro enabled
    obtain disabled | ⟨waits, missing⟩ := blocked
    · rw [disabled] at enabled
      cases enabled
    · unfold publishReady
      simp only [present, apple, waits, missing, Bool.false_eq_true, if_false, Bool.not_false,
        Bool.and_self, if_true]
  unfold railEvent
  cases enabled : facts.registerEnabled with
  | false => rfl
  | true =>
      rw [unready enabled]
      repeat' split
      all_goals first | rfl | simp_all

/-! ## The loops over the whole list -/

theorem catchup_ends (results : Results facts.netdevRegistered) (rails : List Rail) :
    Restart.Ends (startCatchup facts results) { items := rails } := by
  refine @Restart.ends_of_progress _ _ _ (fun _ => True) ?_ _ false fun _ => trivial
  intro turn front rail back _ _ pending
  simp only [catchupPending, Bool.and_eq_true, Bool.not_eq_true', Bool.or_eq_false_iff] at pending
  obtain ⟨⟨⟨ibdev, failed⟩, deferred⟩, ready⟩ := pending
  refine .inr ⟨?_, trivial⟩
  unfold catchupPending catchupRail
  obtain ⟨set, _, _⟩ | ⟨set, _⟩ | ⟨set, _, _⟩ := @railEvent_acts facts.started
    (results.register turn rail) rail rfl ⟨ibdev, failed, deferred⟩ ready
  all_goals simp [set]

theorem retry_ends (results : Results facts.netdevRegistered) (rails : List Rail) :
    Restart.Ends (netdevRetryWork facts results) { items := rails } := by
  refine @Restart.ends_of_progress _ _ _ (fun _ => True) ?_ _ false fun _ => trivial
  intro turn front rail back _ _ pending
  simp only [retryPending, Bool.and_eq_true, Bool.not_eq_true', Bool.or_eq_false_iff,
    Bool.not_eq_false'] at pending
  obtain ⟨⟨⟨⟨deferred, ibdev⟩, failed⟩, registered⟩, ready⟩ := pending
  refine .inr ⟨?_, trivial⟩
  unfold retryRail
  rw [if_pos (by simp [deferred, ibdev, failed])]
  dsimp only
  cases enabled : facts.registerEnabled with
  | false => simp [retryPending, railEvent, enabled]
  | true =>
      obtain ⟨set, _, _⟩ | ⟨set, _⟩ | ⟨_, _, late⟩ := @railEvent_acts facts
        (results.register turn { rail with ibdevRegisterDeferred := false })
        { rail with ibdevRegisterDeferred := false } enabled ⟨ibdev, failed, rfl⟩ ready
      · simp [retryPending, set]
      · simp [retryPending, set]
      · -- a registration is not deferred again once its netdev is there
        have missing := results.defers turn _ late
        rw [registered] at missing
        cases missing

/-- The rails the worker comes to: those it selects, up to the first that has no name. -/
def reached : List Rail → List Rail
  | [] => []
  | rail :: rest => if rail.nameIndex.toOption.isSome then rail :: reached rest else [rail]

theorem mem_reached_head (rail : Rail) (rest : List Rail) : rail ∈ reached (rail :: rest) := by
  unfold reached
  split
  · exact List.mem_cons_self
  · exact List.mem_singleton_self rail

theorem reached_named {rail : Rail} {i : Int} (named : rail.nameIndex = .ok i) (rest : List Rail) :
    reached (rail :: rest) = rail :: reached rest := by
  rw [reached, named]
  rfl

/-- What the worker selects. -/
structure Pending (facts : Facts) (rail : Rail) : Prop where
  apple : rail.peer.backend = .apple
  present : rail.removing = false
  new : rail.ibdev = false ∧ rail.ibdevRegisterFailed = false ∧ rail.ibdevRegisterDeferred = false
  ready : rail.pathState = .ringStarted ∨ rail.pathState = .tunnelEnabled
  tbnet : tbnetPathReady facts rail.peer.xd.remoteUuid = true

theorem servicePending_iff : servicePending facts rail = true ↔ Pending facts rail := by
  simp only [servicePending, Rail.appleServiceReady, Bool.and_eq_true, Bool.not_eq_true',
    Bool.or_eq_false_iff, Bool.not_eq_false', Bool.or_eq_true, beq_iff_eq]
  constructor
  · rintro ⟨⟨apple, ⟨⟨⟨present, ibdev⟩, failed⟩, deferred⟩, ready⟩, tbnet⟩
    exact ⟨apple, present, ⟨ibdev, failed, deferred⟩, ready, tbnet⟩
  · rintro ⟨apple, present, ⟨ibdev, failed, deferred⟩, ready, tbnet⟩
    exact ⟨⟨apple, ⟨⟨⟨present, ibdev⟩, failed⟩, deferred⟩, ready⟩, tbnet⟩

def Rail.up (rail : Rail) : Rail := { rail with pathState := .tunnelEnabled }

theorem enable_pending (pending : Pending facts rail) (tunnel : Int) :
    enableAppleRailTunnel tunnel rail =
      if rail.pathState = .ringStarted ∧ tunnel ≠ 0 then (rail, tunnel) else (rail.up, 0) := by
  unfold enableAppleRailTunnel
  rw [if_neg (by simp [pending.present])]
  obtain started | enabled := pending.ready
  · by_cases works : tunnel = 0 <;> simp [started, works, Rail.up]
  · have same : rail.up = rail := by
      rw [Rail.up, ← enabled]
    simp [enabled, same]

theorem Pending.up (pending : Pending facts rail) : Pending facts rail.up :=
  ⟨pending.apple, pending.present, pending.new, .inr rfl, pending.tbnet⟩

theorem Pending.publishReady (pending : Pending facts rail) (free : ¬ Blocked facts rail) :
    publishReady facts rail.up = true := by
  unfold Service.publishReady Rail.up
  have gate : ¬ (facts.appleRailsWaitTbnet = true ∧
      facts.minimalReady rail.peer.xd.remoteUuid = false) := fun both => free (.inr both)
  simp only [pending.present, pending.apple, Bool.false_eq_true, if_false]
  rw [if_neg (by simpa using gate)]
  rfl

theorem service_ends (results : Results facts.netdevRegistered) {rails : List Rail} {done : Bool}
    (free : done = false →
      ∀ rail ∈ reached (rails.filter (servicePending facts)), ¬ Blocked facts rail) :
    Restart.Ends (appleRailWork facts results) { items := rails, done } := by
  refine @Restart.ends_of_progress _ _ _ (fun rails =>
    ∀ rail ∈ reached (rails.filter (servicePending facts)), ¬ Blocked facts rail) ?_ _ done free
  intro turn front rail back inv before selected
  have skip : front.filter (servicePending facts) = [] :=
    List.filter_eq_nil_iff.mpr fun other mem => by simp [before other mem]
  rw [List.filter_append, skip, List.nil_append, List.filter_cons_of_pos selected] at inv
  have pending := servicePending_iff.mp selected
  have passes := inv rail (mem_reached_head ..)
  unfold publishAppleRail
  rw [enable_pending pending]
  split
  · rename_i down
    rw [if_pos down.2]
    exact .inl rfl
  · rw [if_neg (by simp)]
    dsimp only
    have enabled : facts.registerEnabled = true := by
      by_contra disabled
      exact passes (.inl (Bool.eq_false_iff.mpr disabled))
    obtain ⟨set, _, i, named⟩ | ⟨_, err⟩ | ⟨_, err, _⟩ := @railEvent_acts facts
      (results.register turn rail.up) rail.up enabled pending.up.new (pending.publishReady passes)
    · have gone : servicePending facts
          (railEvent facts (results.register turn rail.up) rail.up).1 = false := by
        simp [servicePending, set]
      refine .inr ⟨gone, ?_⟩
      rw [List.filter_append, skip, List.nil_append, List.filter_cons_of_neg (by simp [gone])]
      have named' : rail.nameIndex = .ok i := named
      rw [reached_named named'] at inv
      exact fun other mem => inv other (List.mem_cons_of_mem _ mem)
    · exact .inl (by simpa using err)
    · exact .inl (by simpa using err)

/-! ## A loop that never returns -/

/-- The worker is at work, and a rail it comes to is blocked. -/
def Stuck (facts : Facts) (loop : Restart.Loop Rail) : Prop :=
  loop.done = false ∧
    ∃ rail ∈ reached (loop.items.filter (servicePending facts)), Blocked facts rail

def allWorks (netdevRegistered : Backend → Bool) : Results netdevRegistered where
  tunnel := fun _ => 0
  register := fun _ _ => 0
  defers := fun _ _ late => by cases late

theorem Stuck.step {loop : Restart.Loop Rail} (stuck : Stuck facts loop) :
    Stuck facts (appleRailWork facts (allWorks facts.netdevRegistered) loop) := by
  obtain ⟨going, bad, comes, blocked⟩ := stuck
  have some : ∃ rail ∈ loop.items, servicePending facts rail = true := by
    cases selected : loop.items.filter (servicePending facts) with
    | nil =>
        rw [selected] at comes
        cases comes
    | cons rail rest =>
        have mem : rail ∈ loop.items.filter (servicePending facts) := by
          rw [selected]
          exact List.mem_cons_self
        exact ⟨rail, List.mem_filter.mp mem⟩
  obtain ⟨first, mem, selected⟩ := some
  obtain ⟨⟨front, rail, back⟩, chosen⟩ := Restart.choose_isSome mem selected
  obtain ⟨_, before, selected⟩ := Restart.choose_some chosen
  have skip : front.filter (servicePending facts) = [] :=
    List.filter_eq_nil_iff.mpr fun other mem => by simp [before other mem]
  rw [Restart.choose_filter chosen] at comes
  have pending := servicePending_iff.mp selected
  have goes : enableAppleRailTunnel 0 rail = (rail.up, 0) :=
    (enable_pending pending 0).trans (if_neg fun both => both.2 rfl)
  unfold appleRailWork
  rw [Restart.step_some going chosen]
  by_cases here : Blocked facts rail
  · have visit : publishAppleRail facts (allWorks facts.netdevRegistered) loop.turn rail =
        ⟨rail.up, true, false⟩ := by
      unfold publishAppleRail allWorks
      dsimp only
      rw [goes, if_neg (by simp)]
      dsimp only
      rw [@railEvent_blocked facts 0 rail.up here pending.apple pending.present]
      rfl
    refine ⟨congrArg Restart.Visit.stop visit, rail.up, ?_, here⟩
    dsimp only
    rw [visit, List.filter_append, skip, List.nil_append,
      List.filter_cons_of_pos (servicePending_iff.mpr pending.up)]
    exact mem_reached_head ..
  · -- the blocked rail comes later, so this one has a name
    obtain ⟨i, named⟩ : ∃ i, rail.nameIndex = .ok i := by
      cases name : rail.nameIndex with
      | ok i => exact ⟨i, rfl⟩
      | error err =>
          rw [reached, name] at comes
          obtain rfl := List.mem_singleton.mp comes
          exact absurd blocked here
    rw [reached_named named] at comes
    have later : bad ∈ reached (back.filter (servicePending facts)) :=
      (List.mem_cons.mp comes).resolve_left fun same => here (same ▸ blocked)
    have enabled : facts.registerEnabled = true := by
      by_contra disabled
      exact here (.inl (Bool.eq_false_iff.mpr disabled))
    have visit : publishAppleRail facts (allWorks facts.netdevRegistered) loop.turn rail =
        ⟨{ rail.up with ibdevRegisterDeferred := false, ibdev := true }, true, false⟩ := by
      unfold publishAppleRail allWorks
      dsimp only
      rw [goes, if_neg (by simp)]
      dsimp only
      rw [@railEvent_registers facts rail.up enabled pending.up.new (pending.publishReady here) i named]
      rfl
    refine ⟨congrArg Restart.Visit.stop visit, bad, ?_, blocked⟩
    dsimp only
    rw [visit, List.filter_append, skip, List.nil_append,
      List.filter_cons_of_neg (by simp [servicePending])]
    exact later

theorem Stuck.never {loop : Restart.Loop Rail} (stuck : Stuck facts loop) (n : Nat) :
    ((appleRailWork facts (allWorks facts.netdevRegistered))^[n] loop).done = false := by
  have always : Stuck facts ((appleRailWork facts (allWorks facts.netdevRegistered))^[n] loop) := by
    induction n with
    | zero => exact stuck
    | succ n ih =>
        rw [Function.iterate_succ_apply']
        exact ih.step
  exact always.1

end

/-- Whatever the tunnels and the registrations return, each loop returns and hands no rail to
`tbv_ibdev_rail_event` twice. -/
def PublicationEnds (facts : Facts) (rails : List Rail) : Prop :=
  ∀ results : Results facts.netdevRegistered,
    Restart.Ends (appleRailWork facts results) { items := rails, done := !facts.workerRuns } ∧
      Restart.Ends (netdevRetryWork facts results) { items := rails } ∧
      Restart.Ends (startCatchup facts results) { items := rails }

theorem not_publicationEnds {facts : Facts} {rails : List Rail} (runs : facts.workerRuns = true)
    {rail : Rail} (comes : rail ∈ reached (rails.filter (servicePending facts)))
    (blocked : Blocked facts rail) : ¬ PublicationEnds facts rails := by
  intro ends
  obtain ⟨n, done⟩ := (ends (allWorks facts.netdevRegistered)).1.returns
  have stuck : Stuck facts { items := rails, done := !facts.workerRuns } :=
    ⟨by rw [runs]; rfl, rail, comes, blocked⟩
  rw [stuck.never n] at done
  cases done

/-- The loops end if and only if the Apple worker comes to no rail that the event turns away: none
while registration is off, and none that waits for a session its selection did not ask for. -/
theorem publication_loops_end_iff (facts : Facts) (rails : List Rail) :
    PublicationEnds facts rails ↔ (facts.workerRuns = true →
      ∀ rail ∈ reached (rails.filter (servicePending facts)), ¬ Blocked facts rail) := by
  constructor
  · intro ends runs rail comes blocked
    exact not_publicationEnds runs comes blocked ends
  · intro free results
    refine ⟨service_ends results fun going => free ?_, retry_ends results rails,
      catchup_ends results rails⟩
    simpa using going

/-- The module with `enable_tunnels=1`, and `register_verbs` off as it is by default. -/
def tunnelsOnly : Facts where
  registerEnabled := false
  appleRailsWaitTbnet := false
  minimalPacket := false
  servicesRegistered := true
  enableTunnels := true
  minimalReady := fun _ => false
  netdevRegistered := fun _ => true

def macRail : Rail where
  peer := ⟨0, .apple, { ident := 0 }⟩
  key := ⟨0, 0, 0, applePrtcid⟩
  pathState := .ringStarted

theorem apple_worker_spins : ¬ ∀ (facts : Facts) (rails : List Rail), PublicationEnds facts rails :=
  fun always => @not_publicationEnds tunnelsOnly [macRail] rfl macRail List.mem_cons_self (.inl rfl)
    (always tunnelsOnly [macRail])

end Tbv.Service
