import Mathlib.Data.List.Pairwise
import ThunderboltIbverbs.Service.Model

/-! # The names of the rails

A rail is kept apart from the others by its peer and by its key.  Its device is named after the
domain, the backend and the lane only, so two XDomains of one domain can ask for the same name. -/
set_option autoImplicit false
namespace Tbv.Service

/-! ## Admission -/

inductive ProbeErrno where
  | enodev | enomem | ebusy | eexist
  deriving DecidableEq, Repr

/-- `struct tb_service`: what the other side advertises. -/
structure TbService where
  xd : XDomain
  key : String
  prtcid : Nat
  deriving DecidableEq, Repr

/-- `struct tb_service_id`; an id without a key matches by the protocol alone. -/
structure ServiceId where
  protocolKey : Option String
  protocolId : Nat
  driverData : Nat := 0
  deriving DecidableEq, Repr

def serviceIds : List ServiceId := [
  ⟨some "tbverbs", nativePrtcid, 0⟩, ⟨some "tbverb1", nativePrtcid, 1⟩,
  ⟨some "tbverb2", nativePrtcid, 2⟩, ⟨some "tbverb3", nativePrtcid, 3⟩,
  ⟨none, applePrtcid, 0⟩]

def ServiceId.matches (id : ServiceId) (svc : TbService) : Bool :=
  id.protocolKey.all (· == svc.key) && id.protocolId == svc.prtcid

/-- `tbv_service_backend_from_id`. -/
def ServiceId.backend (id : ServiceId) : Backend :=
  if id.protocolId = applePrtcid then .apple else .native

def pathId (svc : TbService) (id : ServiceId) (backend : Backend) : Nat :=
  match backend with
  | .apple => svc.prtcid
  | .native =>
      if id.driverData = 0 then svc.prtcid
      else (svc.prtcid <<< 8) % 2 ^ 32 ||| id.driverData

/-- `tbv_rail_key_init`, as the probe calls it. -/
def railKey (xd : XDomain) (pathId : Nat) : RailKey := ⟨xd.route, xd.link, xd.depth, pathId⟩

def keyCmp (a b : RailKey) : Ordering :=
  if a.route < b.route then .lt else if b.route < a.route then .gt
  else if a.localAdapter < b.localAdapter then .lt else if b.localAdapter < a.localAdapter then .gt
  else if a.remoteAdapter < b.remoteAdapter then .lt
  else if b.remoteAdapter < a.remoteAdapter then .gt
  else if a.pathId < b.pathId then .lt else if b.pathId < a.pathId then .gt
  else .eq

structure PeerEntry where
  peer : Peer
  refcnt : Nat
  rails : List Rail
  deriving DecidableEq, Repr

structure ServiceState where
  peers : List PeerEntry := []
  nextPeerId : Nat := 0
  nativeControlSourceAware : Bool := true
  nativeLegacyAmbiguousLimited : Nat := 0
  backendEnabled : Backend → Bool := fun _ => true
  nativeLaneCount : Nat := maxLanes

namespace ServiceState

def rails (st : ServiceState) : List Rail := st.peers.flatMap PeerEntry.rails

end ServiceState

/-- `tbv_peer_matches`. -/
def Peer.isFor (peer : Peer) (backend : Backend) (xd : XDomain) : Bool :=
  peer.backend == backend && peer.xd == xd

def XDomain.sameRemoteHost (a b : XDomain) : Bool :=
  if a = b then true
  else
    match a.remoteUuid, b.remoteUuid with
    | some x, some y => x == y
    | _, _ => a.route == b.route && a.link == b.link && a.depth == b.depth

/-- `tbv_native_legacy_xdomain_allowed_locked`. -/
def legacyXdomainAllowed (xd : XDomain) : List PeerEntry → Bool
  | [] => true
  | pos :: rest =>
      if pos.peer.backend ≠ .native then legacyXdomainAllowed xd rest
      else if pos.peer.xd = xd then true
      else if !pos.peer.xd.sameRemoteHost xd then legacyXdomainAllowed xd rest
      else false

/-- `tbv_native_legacy_rail_key_allowed_locked`. -/
def legacyRailKeyAllowed (peers : List PeerEntry) (peer : Peer) (key : RailKey) : Bool :=
  peers.all fun pos => pos.peer.backend != .native || pos.peer == peer ||
    pos.rails.all fun rail => keyCmp key rail.key != .eq

/-- The reference `tbv_peer_get_or_create` takes on a peer that is there. -/
def takeRef (backend : Backend) (xd : XDomain) : List PeerEntry → Option (List PeerEntry × Peer)
  | [] => none
  | pos :: rest =>
      if pos.peer.isFor backend xd then some ({ pos with refcnt := pos.refcnt + 1 } :: rest, pos.peer)
      else (takeRef backend xd rest).map fun out => (pos :: out.1, out.2)

/-- `tbv_peer_get_or_create`; `memory` tells if the allocation succeeds. -/
def getOrCreate (st : ServiceState) (backend : Backend) (xd : XDomain) (memory : Bool) :
    ServiceState × Except ProbeErrno Peer :=
  if !memory then (st, .error .enomem)
  else
    match takeRef backend xd st.peers with
    | some (peers, peer) => ({ st with peers }, .ok peer)
    | none =>
        if backend = .native ∧ !st.nativeControlSourceAware ∧ !legacyXdomainAllowed xd st.peers then
          ({ st with nativeLegacyAmbiguousLimited := st.nativeLegacyAmbiguousLimited + 1 },
            .error .ebusy)
        else
          let peer : Peer := ⟨st.nextPeerId, backend, xd⟩
          ({ st with
            peers := st.peers ++ [⟨peer, 1, []⟩]
            nextPeerId := (st.nextPeerId + 1) % 2 ^ 32 }, .ok peer)

/-- `tbv_peer_put`. -/
def putPeer (st : ServiceState) (peer : Peer) : ServiceState :=
  { st with peers := st.peers.filterMap fun entry =>
      if entry.peer = peer then
        if entry.refcnt ≤ 1 then none else some { entry with refcnt := entry.refcnt - 1 }
      else some entry }

/-- Where `tbv_peer_add_rail` puts a rail: before the first one with a larger key, unless one with
the same key comes first. -/
def insertRail (rail : Rail) : List Rail → Option (List Rail)
  | [] => some [rail]
  | pos :: rest =>
      match keyCmp rail.key pos.key with
      | .eq => none
      | .lt => some (rail :: pos :: rest)
      | .gt => (insertRail rail rest).map (pos :: ·)

def setRails (st : ServiceState) (peer : Peer) (change : List Rail → List Rail) : ServiceState :=
  { st with peers := st.peers.map fun entry =>
      if entry.peer = peer then { entry with rails := change entry.rails } else entry }

/-- `tbv_peer_add_rail`; `memory` tells if the allocation succeeds and `railId` what the ida
returns. -/
def addRail (st : ServiceState) (peer : Peer) (key : RailKey) (nativeLane : Nat) (memory : Bool)
    (railId : Option Nat) : ServiceState × Option ProbeErrno :=
  if !memory then (st, some .enomem)
  else
    match railId with
    | none => (st, some .enomem)
    | some railId =>
        if peer.backend = .native ∧ !st.nativeControlSourceAware ∧
            !legacyRailKeyAllowed st.peers peer key then
          ({ st with nativeLegacyAmbiguousLimited := st.nativeLegacyAmbiguousLimited + 1 },
            some .ebusy)
        else
          let rail : Rail := { peer, key, railId, nativeLane }
          let mine := ((st.peers.find? fun entry => entry.peer == peer).map (·.rails)).getD []
          match insertRail rail mine with
          | none => (st, some .eexist)
          | some rails => (setRails st peer fun _ => rails, none)

/-- `tbv_service_apple_xdomain_allowed`. -/
def XDomain.appleAllowed (xd : XDomain) : Bool := xd.vendorName.all (· == "Apple Inc.")

/-- A probe of a service by the bus, and what the allocations in it come to. -/
structure Probe where
  svc : TbService
  id : ServiceId
  known : id ∈ serviceIds
  matched : id.matches svc = true
  bindingMemory : Bool := true
  peerMemory : Bool := true
  railMemory : Bool := true
  railId : Option Nat := some 0

/-- `tbv_service_probe` up to the rail.  A probe whose rings cannot be allocated removes the rail
again, as a removal of the service does. -/
def probe (st : ServiceState) (p : Probe) : ServiceState × Option ProbeErrno :=
  let backend := p.id.backend
  let xd := p.svc.xd
  if !st.backendEnabled backend then (st, some .enodev)
  else if backend = .apple ∧ !xd.appleAllowed then (st, some .enodev)
  else if backend = .native ∧ st.nativeLaneCount ≤ p.id.driverData then (st, some .enodev)
  else if !p.bindingMemory then (st, some .enomem)
  else
    match getOrCreate st backend xd p.peerMemory with
    | (st, .error err) => (st, some err)
    | (st, .ok peer) =>
        match addRail st peer (railKey xd (pathId p.svc p.id backend)) p.id.driverData
          p.railMemory p.railId with
        | (st, none) => (st, none)
        | (st, some err) => (putPeer st peer, some err)

inductive ServiceEvent where
  | probe (p : Probe)
  | beginRemove (peer : Peer) (key : RailKey)
  | finishRemove (peer : Peer) (key : RailKey)

/-- A removal marks the rail first, and unlinks it and puts its peer when the device is gone and
nobody refers to the rail. -/
def ServiceState.step (st : ServiceState) : ServiceEvent → ServiceState
  | .probe p => (probe st p).1
  | .beginRemove peer key => setRails st peer fun rails =>
      rails.map fun rail => if rail.key = key then { rail with removing := true } else rail
  | .finishRemove peer key =>
      if st.rails.any fun rail => rail.peer == peer && rail.key == key && rail.removing then
        putPeer (setRails st peer fun rails => rails.filter (·.key != key)) peer
      else st

/-! ## Rails of one peer -/

/-- Keys are in the order of their fields. -/
def RailKey.Before (a b : RailKey) : Prop :=
  a.route < b.route ∨ a.route = b.route ∧ (a.localAdapter < b.localAdapter ∨
    a.localAdapter = b.localAdapter ∧ (a.remoteAdapter < b.remoteAdapter ∨
      a.remoteAdapter = b.remoteAdapter ∧ a.pathId < b.pathId))

theorem field_lt_iff {x y : Nat} {rest : Ordering} :
    (if x < y then .lt else if y < x then .gt else rest) = Ordering.lt ↔
      x < y ∨ x = y ∧ rest = .lt := by
  obtain less | rfl | more := Nat.lt_trichotomy x y
  · simp [less]
  · simp
  · simp [more, Nat.lt_asymm more, Nat.ne_of_gt more]

theorem field_gt_iff {x y : Nat} {rest : Ordering} :
    (if x < y then .lt else if y < x then .gt else rest) = Ordering.gt ↔
      y < x ∨ y = x ∧ rest = .gt := by
  obtain less | rfl | more := Nat.lt_trichotomy x y
  · simp [less, Nat.lt_asymm less, Nat.ne_of_gt less]
  · simp
  · simp [more, Nat.lt_asymm more]

theorem keyCmp_lt_iff {a b : RailKey} : keyCmp a b = .lt ↔ a.Before b := by
  unfold keyCmp RailKey.Before
  simp only [field_lt_iff, reduceCtorEq, and_false, or_false]

theorem keyCmp_gt_iff {a b : RailKey} : keyCmp a b = .gt ↔ b.Before a := by
  unfold keyCmp RailKey.Before
  simp only [field_gt_iff, reduceCtorEq, and_false, or_false]

theorem RailKey.Before.trans {a b c : RailKey} (ab : a.Before b) (bc : b.Before c) : a.Before c := by
  unfold RailKey.Before at *
  omega

theorem RailKey.Before.ne {a b : RailKey} (before : a.Before b) : a ≠ b := by
  rintro rfl
  unfold RailKey.Before at before
  omega

/-- The path id of a native lane; an Apple service has its protocol id. -/
def lanePathId : Backend → Nat → Nat
  | .apple, _ => applePrtcid
  | .native, lane => if lane = 0 then nativePrtcid else (nativePrtcid <<< 8) % 2 ^ 32 ||| lane

structure Rail.Made (peer : Peer) (rail : Rail) : Prop where
  mine : rail.peer = peer
  key : rail.key = railKey peer.xd (lanePathId peer.backend rail.nativeLane)

/-- A peer's list is sorted by key, which is why one pass finds a key that is there. -/
structure PeerEntry.Keyed (entry : PeerEntry) : Prop where
  sorted : entry.rails.Pairwise fun a b => a.key.Before b.key
  made : ∀ rail ∈ entry.rails, rail.Made entry.peer

/-- There is one peer for a backend and an XDomain. -/
structure Keyed (peers : List PeerEntry) : Prop where
  apart : peers.Pairwise fun a b =>
    ¬ (a.peer.backend = b.peer.backend ∧ a.peer.xd = b.peer.xd)
  entries : ∀ entry ∈ peers, entry.Keyed

theorem insertRail_keyed {rail : Rail} {rails after : List Rail}
    (sorted : rails.Pairwise fun a b => a.key.Before b.key)
    (inserted : insertRail rail rails = some after) :
    (after.Pairwise fun a b => a.key.Before b.key) ∧
      ∀ other, other ∈ after ↔ other = rail ∨ other ∈ rails := by
  induction rails generalizing after with
  | nil =>
      obtain rfl := Option.some.inj inserted
      exact ⟨List.pairwise_singleton .., fun other => by simp⟩
  | cons pos rest ih =>
      obtain ⟨least, sorted'⟩ := List.pairwise_cons.mp sorted
      unfold insertRail at inserted
      cases order : keyCmp rail.key pos.key with
      | eq =>
          rw [order] at inserted
          cases inserted
      | lt =>
          rw [order] at inserted
          obtain rfl := Option.some.inj inserted
          refine ⟨List.pairwise_cons.mpr ⟨fun other mem => ?_, sorted⟩, fun other => List.mem_cons⟩
          rcases List.mem_cons.mp mem with rfl | later
          · exact keyCmp_lt_iff.mp order
          · exact (keyCmp_lt_iff.mp order).trans (least other later)
      | gt =>
          rw [order] at inserted
          obtain ⟨tail, found, rfl⟩ := Option.map_eq_some_iff.mp inserted
          obtain ⟨sortedTail, members⟩ := ih sorted' found
          refine ⟨List.pairwise_cons.mpr ⟨fun other mem => ?_, sortedTail⟩, fun other => ?_⟩
          · rcases (members other).mp mem with rfl | later
            · exact keyCmp_gt_iff.mp order
            · exact least other later
          · rw [List.mem_cons, members, List.mem_cons]
            exact or_left_comm

section
variable {peers : List PeerEntry} {backend : Backend} {xd : XDomain}

theorem takeRef_some {after : List PeerEntry} {peer : Peer}
    (taken : takeRef backend xd peers = some (after, peer)) :
    peer.backend = backend ∧ peer.xd = xd ∧ (∃ entry ∈ after, entry.peer = peer) ∧
      after.map PeerEntry.peer = peers.map PeerEntry.peer ∧
      ∀ entry ∈ after, ∃ before ∈ peers, entry.peer = before.peer ∧ entry.rails = before.rails := by
  induction peers generalizing after with
  | nil => cases taken
  | cons pos rest ih =>
      unfold takeRef at taken
      split at taken
      · rename_i same
        obtain ⟨rfl, rfl⟩ := Prod.mk.inj (Option.some.inj taken)
        simp only [Peer.isFor, Bool.and_eq_true, beq_iff_eq] at same
        refine ⟨same.1, same.2, ⟨_, List.mem_cons_self, rfl⟩, rfl, fun entry mem => ?_⟩
        rcases List.mem_cons.mp mem with rfl | later
        · exact ⟨pos, List.mem_cons_self, rfl, rfl⟩
        · exact ⟨entry, List.mem_cons_of_mem _ later, rfl, rfl⟩
      · obtain ⟨⟨tail, found⟩, inner, is⟩ := Option.map_eq_some_iff.mp taken
        obtain ⟨rfl, rfl⟩ := Prod.mk.inj is
        obtain ⟨mine, route, ⟨here, mem, same⟩, names, kept⟩ := ih inner
        refine ⟨mine, route, ⟨here, List.mem_cons_of_mem _ mem, same⟩, ?_, fun entry mem => ?_⟩
        · rw [List.map_cons, List.map_cons, names]
        · rcases List.mem_cons.mp mem with rfl | later
          · exact ⟨entry, List.mem_cons_self, rfl, rfl⟩
          · obtain ⟨before, mem, same⟩ := kept entry later
            exact ⟨before, List.mem_cons_of_mem _ mem, same⟩

theorem takeRef_none (missing : takeRef backend xd peers = none) :
    ∀ entry ∈ peers, ¬ (entry.peer.backend = backend ∧ entry.peer.xd = xd) := by
  induction peers with
  | nil => nofun
  | cons pos rest ih =>
      unfold takeRef at missing
      split at missing
      · cases missing
      · rename_i other
        intro entry mem
        rcases List.mem_cons.mp mem with rfl | later
        · simpa [Peer.isFor] using other
        · exact ih (Option.map_eq_none_iff.mp missing) entry later

/-- Peers with the same names are as far apart, whatever else their entries hold. -/
theorem Keyed.of_same {after : List PeerEntry} (keyed : Keyed peers)
    (names : after.map PeerEntry.peer = peers.map PeerEntry.peer)
    (entries : ∀ entry ∈ after, entry.Keyed) : Keyed after := by
  refine ⟨?_, entries⟩
  have apart := keyed.apart
  rw [← List.pairwise_map (f := PeerEntry.peer) (R := fun a b : Peer =>
    ¬ (a.backend = b.backend ∧ a.xd = b.xd))] at apart ⊢
  rw [names]
  exact apart

/-- Taking entries away, or changing other fields of theirs, keeps the peers apart. -/
theorem Keyed.filterMap {change : PeerEntry → Option PeerEntry} (keyed : Keyed peers)
    (kept : ∀ entry after, change entry = some after →
      after.peer = entry.peer ∧ after.rails = entry.rails) : Keyed (peers.filterMap change) := by
  refine ⟨keyed.apart.filterMap change ?_, fun after mem => ?_⟩
  · intro a b apart a' fromA b' fromB same
    rw [(kept a a' fromA).1, (kept b b' fromB).1] at same
    exact apart same
  · obtain ⟨entry, mem, found⟩ := List.mem_filterMap.mp mem
    obtain ⟨samePeer, sameRails⟩ := kept entry after found
    obtain ⟨sorted, made⟩ := keyed.entries entry mem
    exact ⟨sameRails ▸ sorted, samePeer ▸ sameRails ▸ made⟩

end

section
variable {st : ServiceState}

theorem Keyed.putPeer (keyed : Keyed st.peers) (peer : Peer) : Keyed (putPeer st peer).peers := by
  refine keyed.filterMap fun entry after changed => ?_
  split at changed
  · split at changed
    · cases changed
    · obtain rfl := Option.some.inj changed
      exact ⟨rfl, rfl⟩
  · obtain rfl := Option.some.inj changed
    exact ⟨rfl, rfl⟩

theorem Keyed.setRails (keyed : Keyed st.peers) {peer : Peer} {change : List Rail → List Rail}
    (kept : ∀ entry ∈ st.peers, entry.peer = peer →
      PeerEntry.Keyed { entry with rails := change entry.rails }) :
    Keyed (setRails st peer change).peers := by
  refine keyed.of_same ?_ fun after mem => ?_
  · unfold Service.setRails
    rw [List.map_map]
    refine List.map_congr_left fun entry _ => ?_
    dsimp only [Function.comp]
    split <;> rfl
  · obtain ⟨entry, among, rfl⟩ := List.mem_map.mp mem
    split
    · rename_i same
      exact kept entry among same
    · exact keyed.entries entry among

theorem Keyed.getOrCreate (keyed : Keyed st.peers) (backend : Backend) (xd : XDomain)
    (memory : Bool) : Keyed (getOrCreate st backend xd memory).1.peers ∧
      ∀ peer, (getOrCreate st backend xd memory).2 = .ok peer →
        peer.backend = backend ∧ peer.xd = xd := by
  unfold Service.getOrCreate
  split
  · exact ⟨keyed, fun _ is => nomatch is⟩
  · cases taken : takeRef backend xd st.peers with
    | some found =>
        obtain ⟨peers, peer⟩ := found
        obtain ⟨mine, route, _, names, kept⟩ := takeRef_some taken
        refine ⟨keyed.of_same names fun entry mem => ?_, fun other is => ?_⟩
        · obtain ⟨before, mem, samePeer, sameRails⟩ := kept entry mem
          obtain ⟨sorted, made⟩ := keyed.entries before mem
          exact ⟨sameRails ▸ sorted, samePeer ▸ sameRails ▸ made⟩
        · obtain rfl := Except.ok.inj is
          exact ⟨mine, route⟩
    | none =>
        dsimp only
        split
        · exact ⟨keyed, fun _ is => nomatch is⟩
        · refine ⟨⟨List.pairwise_append.mpr ⟨keyed.apart, List.pairwise_singleton .., ?_⟩, ?_⟩, ?_⟩
          · intro entry mem new last
            rw [List.mem_singleton.mp last]
            exact takeRef_none taken entry mem
          · intro entry mem
            rcases List.mem_append.mp mem with old | last
            · exact keyed.entries entry old
            · rw [List.mem_singleton.mp last]
              exact ⟨List.Pairwise.nil, fun _ mem => absurd mem List.not_mem_nil⟩
          · intro peer is
            obtain rfl := Except.ok.inj is
            exact ⟨rfl, rfl⟩

theorem Keyed.addRail (keyed : Keyed st.peers) {peer : Peer} {key : RailKey} {nativeLane : Nat}
    (own : key = railKey peer.xd (lanePathId peer.backend nativeLane)) (memory : Bool)
    (railId : Option Nat) : Keyed (addRail st peer key nativeLane memory railId).1.peers := by
  unfold Service.addRail
  split
  · exact keyed
  cases railId with
  | none => exact keyed
  | some railId =>
      dsimp only
      split
      · exact keyed
      have found : PeerEntry.Keyed ⟨peer, 0,
          ((st.peers.find? fun entry => entry.peer == peer).map (·.rails)).getD []⟩ := by
        cases here : st.peers.find? fun entry => entry.peer == peer with
        | none => exact ⟨List.Pairwise.nil, fun _ mem => absurd mem List.not_mem_nil⟩
        | some entry =>
            obtain ⟨sorted, made⟩ := keyed.entries entry (List.mem_of_find?_eq_some here)
            have test := List.find?_some here
            have same : entry.peer = peer := beq_iff_eq.mp test
            exact ⟨sorted, same ▸ made⟩
      cases inserted : insertRail { peer, key, railId, nativeLane }
          (((st.peers.find? fun entry => entry.peer == peer).map (·.rails)).getD []) with
      | none => exact keyed
      | some rails =>
          obtain ⟨sorted, members⟩ := insertRail_keyed found.sorted inserted
          refine keyed.setRails fun entry _ same => ⟨sorted, fun rail mem => ?_⟩
          dsimp only
          rw [same]
          rcases (members rail).mp mem with rfl | old
          · exact ⟨rfl, own⟩
          · exact found.made rail old

/-- The key of a service is that of its lane. -/
theorem Probe.pathId_eq (p : Probe) :
    pathId p.svc p.id p.id.backend = lanePathId p.id.backend p.id.driverData := by
  have matched := p.matched
  have known := p.known
  simp only [ServiceId.matches, Bool.and_eq_true, beq_iff_eq] at matched
  unfold pathId lanePathId ServiceId.backend
  rw [← matched.2]
  simp only [serviceIds, List.mem_cons, List.not_mem_nil, or_false] at known
  rcases known with is | is | is | is | is <;> rw [is] <;> rfl

theorem Keyed.probe (keyed : Keyed st.peers) (p : Probe) : Keyed (probe st p).1.peers := by
  unfold Service.probe
  dsimp only
  split
  · exact keyed
  split
  · exact keyed
  split
  · exact keyed
  split
  · exact keyed
  obtain ⟨keyed', isFor⟩ := keyed.getOrCreate p.id.backend p.svc.xd p.peerMemory
  cases got : Service.getOrCreate st p.id.backend p.svc.xd p.peerMemory with
  | mk st' out =>
      rw [got] at keyed' isFor
      cases out with
      | error err => exact keyed'
      | ok peer =>
          obtain ⟨mine, route⟩ := isFor peer rfl
          have own : railKey p.svc.xd (pathId p.svc p.id p.id.backend) =
              railKey peer.xd (lanePathId peer.backend p.id.driverData) := by
            rw [p.pathId_eq, mine, route]
          have added := keyed'.addRail own p.railMemory p.railId
          dsimp only
          cases add : Service.addRail st' peer (railKey p.svc.xd (pathId p.svc p.id p.id.backend))
              p.id.driverData p.railMemory p.railId with
          | mk st'' ret =>
              rw [add] at added
              cases ret with
              | none => exact added
              | some err => exact added.putPeer peer

theorem Keyed.step (keyed : Keyed st.peers) (event : ServiceEvent) :
    Keyed (st.step event).peers := by
  cases event with
  | probe p => exact keyed.probe p
  | beginRemove peer key =>
      refine keyed.setRails fun entry mem _ => ?_
      obtain ⟨sorted, made⟩ := keyed.entries entry mem
      have same : ∀ rail : Rail,
          (if rail.key = key then { rail with removing := true } else rail).key = rail.key ∧
          (if rail.key = key then { rail with removing := true } else rail).peer = rail.peer ∧
          (if rail.key = key then { rail with removing := true } else rail).nativeLane =
            rail.nativeLane := by
        intro rail
        split <;> exact ⟨rfl, rfl, rfl⟩
      refine ⟨List.pairwise_map.mpr (sorted.imp fun {a b} before => ?_), fun rail mem => ?_⟩
      · rw [(same a).1, (same b).1]
        exact before
      · obtain ⟨old, among, rfl⟩ := List.mem_map.mp mem
        obtain ⟨mine, own⟩ := made old among
        exact ⟨(same old).2.1.trans mine, by rw [(same old).1, (same old).2.2]; exact own⟩
  | finishRemove peer key =>
      unfold ServiceState.step
      dsimp only
      split
      · refine Keyed.putPeer (keyed.setRails fun entry mem _ => ?_) peer
        obtain ⟨sorted, made⟩ := keyed.entries entry mem
        exact ⟨sorted.filter _, fun rail mem => made rail (List.mem_filter.mp mem).1⟩
      · exact keyed

theorem Keyed.run (keyed : Keyed st.peers) (events : List ServiceEvent) :
    Keyed (events.foldl ServiceState.step st).peers := by
  induction events generalizing st with
  | nil => exact keyed
  | cons event rest ih => exact ih (keyed.step event)

end

/-! ## Names -/

/-- Different live rails that have a name have different names. -/
def DistinctNames (st : ServiceState) : Prop :=
  st.rails.Pairwise fun a b => ∀ i, a.nameIndex = .ok i → b.nameIndex ≠ .ok i

/-- The rails of one backend and, if native, one lane on one domain belong to one XDomain. -/
def OneXDomain (st : ServiceState) : Prop :=
  ∀ a ∈ st.rails, ∀ b ∈ st.rails, a.peer.backend = b.peer.backend →
    (a.peer.backend = .native → a.nativeLane = b.nativeLane ∧ a.nativeLane < maxLanes) →
    a.peer.xd.domain = b.peer.xd.domain → 0 ≤ a.peer.xd.domain → a.peer.xd = b.peer.xd

section
variable {a b : Rail} {i : Int}

theorem slot_ok {slot : Nat} (found : a.slot = .ok slot) :
    (a.peer.backend = .native ∧ slot = a.nativeLane ∧ slot < maxLanes) ∨
      (a.peer.backend = .apple ∧ slot = maxLanes) := by
  unfold Rail.slot at found
  cases backend : a.peer.backend with
  | native =>
      rw [backend] at found
      dsimp only at found
      split at found
      · cases found
      · obtain rfl := Except.ok.inj found
        exact .inl ⟨rfl, rfl, by omega⟩
  | apple =>
      rw [backend] at found
      exact .inr ⟨rfl, (Except.ok.inj found).symm⟩

theorem nameIndex_ok (named : a.nameIndex = .ok i) :
    0 ≤ a.peer.xd.domain ∧ ∃ slot, a.slot = .ok slot ∧ i = a.peer.xd.domain * (maxLanes + 1) + slot := by
  unfold Rail.nameIndex at named
  split at named
  · cases named
  · cases found : a.slot with
    | error err =>
        rw [found] at named
        cases named
    | ok slot =>
        rw [found] at named
        exact ⟨by omega, slot, rfl, (Except.ok.inj named).symm⟩

theorem same_name (namedA : a.nameIndex = .ok i) (namedB : b.nameIndex = .ok i) :
    a.peer.backend = b.peer.backend ∧
      (a.peer.backend = .native → a.nativeLane = b.nativeLane ∧ a.nativeLane < maxLanes) ∧
      a.peer.xd.domain = b.peer.xd.domain ∧ 0 ≤ a.peer.xd.domain := by
  obtain ⟨posA, slotA, foundA, isA⟩ := nameIndex_ok namedA
  obtain ⟨posB, slotB, foundB, isB⟩ := nameIndex_ok namedB
  have lanes : maxLanes = 4 := rfl
  rw [lanes] at isA isB ⊢
  have slotsA := slot_ok foundA
  have slotsB := slot_ok foundB
  rw [lanes] at slotsA slotsB
  have domains : a.peer.xd.domain = b.peer.xd.domain := by omega
  have slots : slotA = slotB := by omega
  obtain ⟨native, lane, few⟩ | ⟨apple, high⟩ := slotsA
  · obtain ⟨native', lane', _⟩ | ⟨_, high'⟩ := slotsB
    · exact ⟨native.trans native'.symm, fun _ => ⟨by omega, by omega⟩, domains, posA⟩
    · omega
  · obtain ⟨_, _, few'⟩ | ⟨apple', _⟩ := slotsB
    · omega
    · refine ⟨apple.trans apple'.symm, fun native => ?_, domains, posA⟩
      rw [apple] at native
      cases native

theorem name_of_same (backend : a.peer.backend = b.peer.backend)
    (lanes : a.peer.backend = .native → a.nativeLane = b.nativeLane ∧ a.nativeLane < maxLanes)
    (domains : a.peer.xd.domain = b.peer.xd.domain) (positive : 0 ≤ a.peer.xd.domain) :
    ∃ i, a.nameIndex = .ok i ∧ b.nameIndex = .ok i := by
  have slots : ∃ slot, a.slot = .ok slot ∧ b.slot = .ok slot := by
    unfold Rail.slot
    rw [← backend]
    cases mine : a.peer.backend with
    | native =>
        obtain ⟨same, few⟩ := lanes mine
        refine ⟨a.nativeLane, ?_, ?_⟩ <;> dsimp only
        · rw [if_neg (by omega)]
        · rw [if_neg (by omega), same]
    | apple => exact ⟨maxLanes, rfl, rfl⟩
  obtain ⟨slot, foundA, foundB⟩ := slots
  unfold Rail.nameIndex
  rw [← domains, if_neg (by omega), if_neg (by omega), foundA, foundB]
  exact ⟨_, rfl, rfl⟩

end

/-- Two rails of one peer never have one name: its lanes have different keys. -/
theorem PeerEntry.Keyed.names {entry : PeerEntry} (keyed : entry.Keyed) :
    entry.rails.Pairwise fun a b => ∀ i, a.nameIndex = .ok i → b.nameIndex ≠ .ok i := by
  refine keyed.sorted.imp_of_mem fun {a b} memA memB before i namedA namedB => before.ne ?_
  obtain ⟨_, lanes, _, _⟩ := same_name namedA namedB
  obtain ⟨mineA, keyA⟩ := keyed.made a memA
  obtain ⟨_, keyB⟩ := keyed.made b memB
  rw [keyA, keyB]
  cases backend : entry.peer.backend with
  | native => rw [(lanes (by rw [mineA, backend])).1]
  | apple => rfl

theorem Keyed.distinctNames_iff {st : ServiceState} (keyed : Keyed st.peers) :
    DistinctNames st ↔ OneXDomain st := by
  constructor
  · intro distinct a memA b memB backend lanes domains positive
    by_contra apart
    obtain ⟨i, namedA, namedB⟩ := name_of_same backend lanes domains positive
    have symmetric : Std.Symm fun a b : Rail => ∀ i, a.nameIndex = .ok i → b.nameIndex ≠ .ok i :=
      ⟨fun _ _ differ i named other => differ i other named⟩
    refine distinct.forall memA memB ?_ i namedA namedB
    rintro rfl
    exact apart rfl
  · intro one
    refine List.pairwise_flatMap.mpr ⟨fun entry mem => (keyed.entries entry mem).names, ?_⟩
    refine keyed.apart.imp_of_mem fun {x y} memX memY apart a memA b memB i namedA namedB => ?_
    obtain ⟨backend, lanes, domains, positive⟩ := same_name namedA namedB
    have mineA := ((keyed.entries x memX).made a memA).mine
    have mineB := ((keyed.entries y memY).made b memB).mine
    refine apart ⟨?_, ?_⟩
    · rw [← mineA, ← mineB]
      exact backend
    · rw [← mineA, ← mineB]
      exact one a (List.mem_flatMap.mpr ⟨x, memX, memA⟩) b (List.mem_flatMap.mpr ⟨y, memY, memB⟩)
        backend lanes domains positive

/-- At any time live rails have different names if and only if no two XDomains of one domain have
live rails of the same backend and lane. -/
theorem live_names_distinct_iff (init : ServiceState) (empty : init.peers = [])
    (events : List ServiceEvent) :
    DistinctNames (events.foldl ServiceState.step init) ↔
      OneXDomain (events.foldl ServiceState.step init) := by
  have keyed : Keyed init.peers :=
    empty ▸ ⟨List.Pairwise.nil, fun _ mem => absurd mem List.not_mem_nil⟩
  exact (keyed.run events).distinctNames_iff

def laneZero (xd : XDomain) : Probe where
  svc := ⟨xd, "tbverbs", nativePrtcid⟩
  id := ⟨some "tbverbs", nativePrtcid, 0⟩
  known := List.mem_cons_self
  matched := rfl

def laneOne (xd : XDomain) : Probe where
  svc := ⟨xd, "tbverb1", nativePrtcid⟩
  id := ⟨some "tbverb1", nativePrtcid, 1⟩
  known := by decide
  matched := rfl

/-- A cable is used with two lanes and loses the first one, which a second cable of the domain
then has; a third cable is in another domain. -/
def rebound : List ServiceEvent :=
  let first : XDomain := { ident := 1, route := 1 }
  [.probe (laneZero first), .probe (laneOne first),
    .beginRemove ⟨0, .native, first⟩ (railKey first nativePrtcid),
    .finishRemove ⟨0, .native, first⟩ (railKey first nativePrtcid),
    .probe (laneZero { ident := 2, route := 3 }),
    .probe (laneZero { ident := 3, route := 1, domain := 1 })]

instance (st : ServiceState) : Decidable (OneXDomain st) :=
  inferInstanceAs (Decidable (∀ a ∈ st.rails, ∀ b ∈ st.rails, _ = _ → (_ = _ → _ = _ ∧ _ < _) →
    _ = _ → _ ≤ _ → _ = _))

theorem live_names_distinct_iff_rebound :
    (rebound.foldl ServiceState.step {}).rails.map Rail.nameIndex = [.ok 1, .ok 0, .ok 5] ∧
      DistinctNames (rebound.foldl ServiceState.step {}) :=
  ⟨by decide +kernel, (live_names_distinct_iff {} rfl rebound).mpr (by decide +kernel)⟩

/-- Two cables into one domain: the rails of their first lanes ask for one name. -/
theorem two_cables_one_name : ¬ ∀ (init : ServiceState) (events : List ServiceEvent),
    init.peers = [] → init.nativeControlSourceAware = true →
      DistinctNames (events.foldl ServiceState.step init) := by
  intro always
  have distinct := always {} [.probe (laneZero { ident := 1, route := 1 }),
    .probe (laneZero { ident := 2, route := 3 })] rfl rfl
  have named : (⟨⟨0, .native, { ident := 1, route := 1 }⟩, railKey { ident := 1, route := 1 } 1, 0, 0,
      false, .idle, false, false, false, false, false⟩ : Rail).nameIndex = .ok 0 := rfl
  exact (List.pairwise_pair.mp distinct) 0 named rfl

end Tbv.Service
