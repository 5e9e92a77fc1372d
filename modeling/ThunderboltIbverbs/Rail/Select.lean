import ThunderboltIbverbs.Tx.Load
import Mathlib.Data.List.MinMax
import Mathlib.Data.Prod.Lex

/-! # The rail of a new queue pair

`tbv_select_qp_rail_locked` takes, of the rails of a native peer that are ready, one with the
fewest queue pairs, and among these one with the smallest load metric.  The metric is the load
as long as every data packet of the rail's path was completed by the ring. -/
set_option autoImplicit false
namespace Tbv.RailSelect

open Trans
open Tx (Metered Idle Completes meter unused u32Max)

/-- The parts of `struct tbv_rail` that the choice reads.  `dataReady`: `tbv_rail_data_ready`;
`ibdev`: it has an `ib_device`. -/
structure Rail where
  railId : Nat
  dataReady : Bool
  removing : Bool
  ibdev : Bool
  nativeQpBindCount : Int
  path : Metered

structure Peer where
  nativeQpRrRailId : Nat
  rails : List Rail

def qpRrDistance (railId nextRailId : Nat) : Nat :=
  if nextRailId ≤ railId then railId - nextRailId else u32Max - nextRailId + 1 + railId

def Rail.qps (rail : Rail) : Nat := rail.nativeQpBindCount.toNat
def Rail.pending (rail : Rail) : Nat := rail.path.pendingDataFrames

def Rail.eligible (rail : Rail) : Bool := rail.dataReady && !rail.removing && rail.ibdev

/-- The condition under which a rail takes the place of the best one so far. -/
def Rail.beats (nextRailId : Nat) (rail best : Rail) : Bool :=
  let distance := qpRrDistance rail.railId nextRailId
  let bestDistance := qpRrDistance best.railId nextRailId
  decide (rail.qps < best.qps) || (rail.qps == best.qps &&
    (decide (rail.pending < best.pending) || (rail.pending == best.pending &&
      (decide (distance < bestDistance) || (distance == bestDistance &&
        decide (rail.railId < best.railId))))))

def consider (nextRailId : Nat) (best : Option Rail) (rail : Rail) : Option Rail :=
  if !rail.eligible then best
  else
    match best with
    | none => some rail
    | some other => if rail.beats nextRailId other then some rail else some other

def Peer.bestRail (peer : Peer) : Option Rail :=
  peer.rails.foldl (consider peer.nativeQpRrRailId) none

/-- The queue pair is counted on its rail, and the next choice starts behind it. -/
def Peer.bindTo (peer : Peer) (best : Rail) : Peer where
  nativeQpRrRailId := (best.railId + 1) % (u32Max + 1)
  rails := peer.rails.map fun rail =>
    if rail.railId = best.railId then { rail with nativeQpBindCount := rail.nativeQpBindCount + 1 }
    else rail

/-- `tbv_select_qp_rail_locked`: the rail, `counted` and the peer afterwards.  `homeReady`:
`tbv_ibdev_rail_publish_ready_locked` of the device's own rail; `peer`: its peer, if that is a
native one. -/
def selectQpRail (home : Rail) (homeReady native gsi : Bool) (peer : Option Peer) :
    Option (Rail × Bool × Option Peer) :=
  if home.removing then none
  else if !native || gsi then
    if !native && !homeReady then none else some (home, false, peer)
  else
    match peer with
    | none => none
    | some peer => peer.bestRail.map fun best => (best, true, some (peer.bindTo best))

/-! ## The choice is a minimum -/

def Rail.key (nextRailId : Nat) (rail : Rail) : Nat ×ₗ Nat ×ₗ Nat ×ₗ Nat :=
  toLex (rail.qps, toLex (rail.pending, toLex (qpRrDistance rail.railId nextRailId, rail.railId)))

theorem beats_iff {nextRailId : Nat} {rail best : Rail} :
    rail.beats nextRailId best = true ↔ rail.key nextRailId < best.key nextRailId := by
  simp [Rail.beats, Rail.key, Prod.Lex.toLex_lt_toLex]

theorem bestRail_eq_argmin (peer : Peer) :
    peer.bestRail = (peer.rails.filter Rail.eligible).argmin (Rail.key peer.nativeQpRrRailId) := by
  unfold Peer.bestRail List.argmin
  rw [List.foldl_filter]
  congr 1
  funext best rail
  cases best with
  | none => cases eligible : rail.eligible <;> simp [consider, eligible, List.argAux]
  | some other =>
      cases eligible : rail.eligible <;> simp [consider, eligible, List.argAux, beats_iff]

theorem bestRail_least {peer : Peer} {best : Rail} (is : peer.bestRail = some best) :
    best ∈ peer.rails ∧ best.eligible = true ∧ ∀ rail ∈ peer.rails, rail.eligible = true →
      best.qps ≤ rail.qps ∧ (rail.qps = best.qps → best.pending ≤ rail.pending) := by
  rw [bestRail_eq_argmin] at is
  obtain ⟨among, eligible⟩ := List.mem_filter.mp (List.argmin_mem is)
  refine ⟨among, eligible, fun rail inside ready => ?_⟩
  have least := List.le_of_mem_argmin (List.mem_filter.mpr ⟨inside, ready⟩) is
  simp only [Rail.key, Prod.Lex.toLex_le_toLex] at least
  omega

/-- The path has come to rest after a run in which every data packet that left it was completed
by the ring. -/
def Rail.Completed (rail : Rail) : Prop :=
  ∃ cfg labels, run meter labels (unused cfg) = some rail.path ∧
    Meets meter Completes labels (unused cfg) ∧ Idle rail.path.st ∧
    rail.path.st.shared.dataLoad < u32Max

theorem Rail.Completed.pending_eq {rail : Rail} (completed : rail.Completed) :
    rail.pending = rail.path.st.shared.dataLoad := by
  obtain ⟨cfg, labels, ran, completes, idle, fits⟩ := completed
  exact (Tx.pending_exact_iff ran idle fits).mpr completes

/-- Between submissions and completions the metric is the number of data packets on the path
just if every data packet that left was completed by the ring; and of the ready rails with as
many queue pairs the chosen one has the fewest, where that holds. -/
theorem rail_load_exact_iff (cfg : Tx.Config) (labels : List Tx.Lbl) (m : Metered)
    (ran : run meter labels (unused cfg) = some m) (idle : Idle m.st)
    (fits : m.st.shared.dataLoad < u32Max) :
    (m.pendingDataFrames = m.st.shared.dataLoad ↔ Meets meter Completes labels (unused cfg)) ∧
    ∀ home homeReady peer best counted after,
      selectQpRail home homeReady true false (some peer) = some (best, counted, after) →
      best ∈ peer.rails ∧ best.eligible = true ∧ ∀ rail ∈ peer.rails, rail.eligible = true →
        best.qps ≤ rail.qps ∧ (rail.qps = best.qps → best.Completed → rail.Completed →
          best.path.st.shared.dataLoad ≤ rail.path.st.shared.dataLoad) := by
  refine ⟨Tx.pending_exact_iff ran idle fits, ?_⟩
  intro home homeReady peer best counted after selected
  simp only [selectQpRail, Bool.not_true, Bool.or_self, Bool.false_eq_true, if_false] at selected
  split at selected
  · cases selected
  · obtain ⟨chosen, is, same⟩ := Option.map_eq_some_iff.mp selected
    cases same
    obtain ⟨among, eligible, least⟩ := bestRail_least is
    refine ⟨among, eligible, fun rail inside ready => ?_⟩
    obtain ⟨fewest, lightest⟩ := least rail inside ready
    refine ⟨fewest, fun same completed other => ?_⟩
    rw [← completed.pending_eq, ← other.pending_eq]
    exact lightest same

def oneRing : Tx.Config := ⟨4, 32, by decide⟩

/-- A packet is sent and completed, another one waits for the ring. -/
def completedSend : List Tx.Lbl :=
  [.event (.sendData none none false), .run 0 0, .run 0 0, .run 0 0, .run 0 0, .run 0 0,
    .event (.retire 0 false), .run 1 0, .run 1 0, .run 1 0, .run 1 0, .run 1 0, .run 1 0,
    .event (.sendData none none false)]

theorem rail_load_exact_iff_completedSend : ∃ m, run meter completedSend (unused oneRing) = some m ∧
    m.st.shared.dataLoad = 1 ∧ m.pendingDataFrames = 1 := by
  have ends : (guarded meter Completes completedSend (unused oneRing)).any (fun m =>
      m.st.threads.all (fun stack => stack.all fun frame => Tx.inflightWeight frame == 0) &&
        m.st.shared.dataLoad == 1) = true := by decide +kernel
  obtain ⟨m, ran, found⟩ := (Option.any_eq_true _ _).mp ends
  simp only [Bool.and_eq_true, List.all_eq_true, beq_iff_eq] at found
  obtain ⟨light, one⟩ := found
  refine ⟨m, run_of_guarded ran, one, ?_⟩
  rw [← one]
  exact (rail_load_exact_iff oneRing completedSend m (run_of_guarded ran)
    (fun frame ⟨stack, among, inside⟩ => light stack among frame inside)
    (by rw [one]; decide)).1.mpr (meets_of_guarded ran)

/-- Two packets are queued and canceled before the ring has seen them. -/
def canceledSends : List Tx.Lbl :=
  [.event (.sendData none none false), .event (.sendData none none false), .event .cancelQueued,
    .run 2 0, .run 2 0, .run 2 0, .run 0 0, .run 0 0, .run 1 0, .run 1 0]

/-- A packet is queued on a path that a quiesce has closed. -/
def waitingSend : List Tx.Lbl :=
  [.event (.sendData none none false), .event .closeTx, .run 0 0, .run 0 0]

def railOf (railId : Nat) (labels : List Tx.Lbl) : Option Rail :=
  (run meter labels (unused oneRing)).map fun path =>
    { railId, dataReady := true, removing := false, ibdev := true, nativeQpBindCount := 0, path }

/-- The rail whose packets were canceled scores 2 with nothing on it, and the next queue pair
goes to the rail that has a packet to send. -/
theorem canceled_sends_keep_scoring :
    ¬ (∀ cfg labels m, run meter labels (unused cfg) = some m → Idle m.st →
      m.st.shared.dataLoad < u32Max → m.pendingDataFrames = m.st.shared.dataLoad) ∧
    (railOf 0 canceledSends).any (fun first => (railOf 1 waitingSend).any fun second =>
      first.path.st.shared.dataLoad == 0 && first.pending == 2 &&
        second.path.st.shared.dataLoad == 1 && second.pending == 1 &&
        (selectQpRail first true true false (some ⟨0, [first, second]⟩)).any fun out =>
          out.1.railId == 1) = true := by
  refine ⟨fun exact => ?_, by decide +kernel⟩
  have ends : (run meter canceledSends (unused oneRing)).any (fun m =>
      m.st.threads.all (fun stack => stack.all fun frame => Tx.inflightWeight frame == 0) &&
        m.st.shared.dataLoad == 0 && m.pendingDataFrames == 2) = true := by decide +kernel
  obtain ⟨m, ran, found⟩ := (Option.any_eq_true _ _).mp ends
  simp only [Bool.and_eq_true, List.all_eq_true, beq_iff_eq] at found
  obtain ⟨⟨light, empty⟩, two⟩ := found
  have same := exact oneRing canceledSends m ran
    (fun frame ⟨stack, among, inside⟩ => light stack among frame inside) (by rw [empty]; decide)
  rw [two, empty] at same
  cases same

end Tbv.RailSelect
