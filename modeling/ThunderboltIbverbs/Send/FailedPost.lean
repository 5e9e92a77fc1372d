import ThunderboltIbverbs.Send.FramedPost

/-! # What a failed framed post leaves behind

Every step that fails hands the lanes to a label that gives back what they hold.  The books
below say at each step what that is; only the reservation loop leaves wishes in the books. -/
set_option autoImplicit false
namespace Tbv.FramedPost

open Tbv.NativeData Tbv.NativePath
open Tbv.SendQueue (WireCtx PostQp PostError fragCount fragLen)

/-! ## Books -/

def World.reserved (w : World) (r : Nat) : Nat := (w.path r).txDataReserved

structure SameQueues (p q : Path) : Prop where
  data : q.txDataQueue = p.txDataQueue
  dataQueued : q.txDataQueued = p.txDataQueued
  control : q.txControlQueue = p.txControlQueue
  controlQueued : q.txControlQueued = p.txControlQueued

/-- What the lanes say is reserved on a rail, and how often it stands in them. -/
def heldOn (r : Nat) (lanes : List Lane) : Nat :=
  (lanes.map fun lane => if lane.rail = r then lane.reservation else 0).sum

def countOn (r : Nat) (lanes : List Lane) : Nat :=
  (lanes.map fun lane => if lane.rail = r then 1 else 0).sum

/-- `w'` differs from `w` by the reservations `held` and the rail references `taken`. -/
structure Holding (w w' : World) (held taken : Nat → Nat) : Prop where
  reserved : ∀ r, w'.reserved r = w.reserved r + held r
  refcnt : ∀ r, (w'.rails r).refcnt = (w.rails r).refcnt + taken r
  queues : ∀ r, SameQueues (w.path r) (w'.path r)
  txPending : w'.txPending = w.txPending
  refs : w'.refs = w.refs

def Untraced (w w' : World) : Prop := Holding w w' (fun _ => 0) fun _ => 0

section
variable {w w' w'' : World} {held taken : Nat → Nat} {lanes rest : List Lane} {lane : Lane}
  {faults : Faults}

theorem SameQueues.refl (p : Path) : SameQueues p p := ⟨rfl, rfl, rfl, rfl⟩

theorem SameQueues.trans {p q r : Path} (first : SameQueues p q) (second : SameQueues q r) :
    SameQueues p r :=
  ⟨second.data.trans first.data, second.dataQueued.trans first.dataQueued,
    second.control.trans first.control, second.controlQueued.trans first.controlQueued⟩

@[simp] theorem heldOn_nil (r : Nat) : heldOn r [] = 0 := rfl
@[simp] theorem countOn_nil (r : Nat) : countOn r [] = 0 := rfl

@[simp] theorem heldOn_cons (r : Nat) (lane : Lane) (lanes : List Lane) :
    heldOn r (lane :: lanes) = (if lane.rail = r then lane.reservation else 0) + heldOn r lanes :=
  rfl

@[simp] theorem countOn_cons (r : Nat) (lane : Lane) (lanes : List Lane) :
    countOn r (lane :: lanes) = (if lane.rail = r then 1 else 0) + countOn r lanes := rfl

@[simp] theorem countOn_append (r : Nat) (front back : List Lane) :
    countOn r (front ++ back) = countOn r front + countOn r back := by
  simp [countOn]

theorem heldOn_eq_zero_iff {r : Nat} :
    heldOn r lanes = 0 ↔ ∀ lane ∈ lanes, lane.rail = r → lane.reservation = 0 := by
  induction lanes with
  | nil => simp
  | cons lane rest ih => by_cases same : lane.rail = r <;> simp [same, ih]

theorem path_setPath (w : World) (r s : Nat) (path : Path) :
    (w.setPath r path).path s = if s = r then path else w.path s := by
  unfold World.setPath World.path
  by_cases same : s = r
  · simp [same]
  · simp [same]

theorem refcnt_setPath (w : World) (r s : Nat) (path : Path) :
    ((w.setPath r path).rails s).refcnt = (w.rails s).refcnt := by
  unfold World.setPath
  by_cases same : s = r
  · simp [same]
  · simp [Function.update_of_ne same]

theorem Holding.refl (w : World) : Untraced w w :=
  ⟨fun _ => rfl, fun _ => rfl, fun _ => .refl _, rfl, rfl⟩

theorem Holding.setPath {path : Path} {r : Nat} {held' : Nat → Nat}
    (holding : Holding w w' held taken)
    (queues : SameQueues (w'.path r) path)
    (here : path.txDataReserved = w.reserved r + held' r)
    (elsewhere : ∀ s, s ≠ r → held' s = held s) :
    Holding w (w'.setPath r path) held' taken := by
  refine ⟨fun s => ?_, fun s => ?_, fun s => ?_, holding.txPending, holding.refs⟩
  · unfold World.reserved
    rw [path_setPath]
    split
    · rename_i same
      rw [same]
      exact here
    · rename_i other
      rw [elsewhere s other]
      exact holding.reserved s
  · rw [refcnt_setPath]
    exact holding.refcnt s
  · rw [path_setPath]
    split
    · rename_i same
      rw [same]
      exact (holding.queues r).trans queues
    · exact holding.queues s

theorem Holding.congr {held' taken' : Nat → Nat} (holding : Holding w w' held taken)
    (reserved : ∀ r, held' r = held r) (counted : ∀ r, taken' r = taken r) :
    Holding w w' held' taken' := by
  rw [funext reserved, funext counted]
  exact holding

/-! ## Giving back -/

theorem releasePacketList_same (path : Path) (packets : List TxPacket) (status : Int) :
    SameQueues path (releasePacketList path packets status) ∧
      (releasePacketList path packets status).txDataReserved = path.txDataReserved := by
  unfold releasePacketList
  induction packets generalizing path with
  | nil => exact ⟨.refl path, rfl⟩
  | cons pkt rest ih =>
      have first : SameQueues path (txPacketRelease path pkt status) := ⟨rfl, rfl, rfl, rfl⟩
      have inner := ih (txPacketRelease path pkt status)
      exact ⟨first.trans inner.1, inner.2⟩

theorem Holding.releaseSilent (holding : Holding w w' held taken) (r : Nat)
    (packets : List TxPacket) (status : Int) :
    Holding w (releaseSilent w' r packets status) held taken := by
  have same := releasePacketList_same (w'.path r)
    (packets.map fun pkt => { pkt with done := none, doneCtx := none }) status
  exact holding.setPath same.1 (same.2.trans (holding.reserved r)) fun _ _ => rfl

theorem Holding.releaseAllSilent (holding : Holding w w' held taken) (lanes : List Lane)
    (status : Int) : Holding w (releaseAllSilent w' lanes status) held taken := by
  induction lanes generalizing w' with
  | nil => exact holding
  | cons lane rest ih => exact ih (holding.releaseSilent lane.rail lane.packets status)

theorem Holding.releaseReservation (holding : Holding w w' held taken) (lane : Lane)
    (held' : Nat → Nat) (own : w.reserved lane.rail + held lane.rail - lane.reservation =
      w.reserved lane.rail + held' lane.rail)
    (elsewhere : ∀ r, r ≠ lane.rail → held' r = held r) :
    Holding w (releaseReservation w' lane) held' taken := by
  unfold FramedPost.releaseReservation
  split
  · rename_i none
    refine holding.congr (fun r => ?_) fun _ => rfl
    by_cases same : r = lane.rail
    · rw [same]
      omega
    · exact elsewhere r same
  · refine holding.setPath ⟨rfl, rfl, rfl, rfl⟩ ?_ elsewhere
    rw [← own, ← holding.reserved]
    rfl

/-- Lanes that hold what they say give it back. -/
theorem Holding.releasePathReservations (left : Nat → Nat)
    (holding : Holding w w' (fun r => left r + heldOn r lanes) taken) :
    Holding w (releasePathReservations w' lanes) left taken := by
  induction lanes generalizing w' with
  | nil => exact holding
  | cons lane rest ih =>
      refine ih (holding.releaseReservation lane (fun r => left r + heldOn r rest) ?_ ?_)
      · simp only [heldOn_cons, if_pos]
        omega
      · intro r other
        simp [heldOn_cons, Ne.symm other]

theorem Holding.putRail (holding : Holding w w' held taken) (r : Nat) (taken' : Nat → Nat)
    (own : taken r = taken' r + 1) (elsewhere : ∀ s, s ≠ r → taken' s = taken s) :
    Holding w (w'.putRail r) held taken' := by
  have paths (s : Nat) : (w'.putRail r).path s = w'.path s := by
    unfold World.putRail World.path
    by_cases same : s = r
    · simp [same]
    · simp [Function.update_of_ne same]
  refine ⟨fun s => ?_, fun s => ?_, fun s => ?_, holding.txPending, holding.refs⟩
  · unfold World.reserved
    rw [paths]
    exact holding.reserved s
  · have before := holding.refcnt s
    unfold World.putRail
    by_cases same : s = r
    · subst same
      simp only [Function.update_self]
      omega
    · simp only [Function.update_of_ne same]
      rw [elsewhere s same]
      exact before
  · rw [paths]
    exact holding.queues s

theorem Holding.releasePathRefs (left : Nat → Nat)
    (holding : Holding w w' held fun r => left r + countOn r lanes) :
    Holding w (releasePathRefs w' lanes) held left := by
  induction lanes generalizing w' with
  | nil => exact holding
  | cons lane rest ih =>
      refine ih (holding.putRail lane.rail (fun r => left r + countOn r rest) ?_ ?_)
      · simp only [countOn_cons, if_pos]
        omega
      · intro r other
        simp [countOn_cons, Ne.symm other]

/-- The label `err_release_paths` gives back what the lanes hold. -/
theorem Holding.errReleasePaths (holding : Holding w w' (heldOn · lanes) (countOn · lanes))
    (ret : Int) : Untraced w (errReleasePaths w' lanes ret).1 := by
  have released := holding.releaseAllSilent lanes ret
  have given := Holding.releasePathReservations (fun _ => 0)
    (released.congr (fun r => Nat.zero_add (heldOn r lanes)) fun _ => rfl)
  exact Holding.releasePathRefs (fun _ => 0)
    (given.congr (fun _ => rfl) fun r => Nat.zero_add (countOn r lanes))

/-! ## Frames and packets -/

/-- What an entry of the arrays says about its path. -/
def Lane.claim (lane : Lane) : Nat × Nat := (lane.rail, lane.reservation)

theorem heldOn_congr {lanes lanes' : List Lane}
    (same : lanes'.map Lane.claim = lanes.map Lane.claim) (r : Nat) : heldOn r lanes' = heldOn r lanes := by
  have by_claims (lanes : List Lane) : heldOn r lanes =
      ((lanes.map Lane.claim).map fun claim => if claim.1 = r then claim.2 else 0).sum := by
    rw [List.map_map]
    rfl
  rw [by_claims, by_claims, same]

theorem countOn_congr {lanes lanes' : List Lane}
    (same : lanes'.map Lane.claim = lanes.map Lane.claim) (r : Nat) :
    countOn r lanes' = countOn r lanes := by
  have by_claims (lanes : List Lane) : countOn r lanes =
      ((lanes.map Lane.claim).map fun claim => if claim.1 = r then 1 else 0).sum := by
    rw [List.map_map]
    rfl
  rw [by_claims, by_claims, same]

theorem buildFrames_claims {p : Post} {fuel fragIdx offset : Nat} {lanes lanes' : List Lane}
    (built : p.buildFrames faults fuel fragIdx offset lanes = .ok lanes') :
    lanes'.map Lane.claim = lanes.map Lane.claim := by
  induction fuel generalizing fragIdx offset lanes with
  | zero =>
      cases built
      rfl
  | succ fuel ih =>
      unfold Post.buildFrames at built
      split at built
      · cases built
      · rename_i frame _
        have same : (lanes.modify (p.pathIdx lanes.length fragIdx) (·.addFrame frame)).map
            Lane.claim = lanes.map Lane.claim := by
          apply List.ext_getElem
          · simp
          · intro i _ _
            simp only [List.getElem_map, List.getElem_modify]
            split <;> rfl
        dsimp only at built
        split at built
        · exact (ih built).trans same
        · cases built
          exact same

theorem prepareOwnedList_spec (faults : Faults) (w' : World) (lane : Lane)
    (holding : Holding w w' held taken) :
    Holding w (prepareOwnedList faults w' lane).1 held taken ∧
      (prepareOwnedList faults w' lane).2.1.claim = lane.claim := by
  unfold prepareOwnedList
  dsimp only
  split
  · exact ⟨holding, rfl⟩
  · exact ⟨holding.releaseSilent _ _ _, rfl⟩

theorem prepareLanes_spec (faults : Faults) (w' : World) (lanes : List Lane)
    (holding : Holding w w' held taken) :
    Holding w (prepareLanes faults w' lanes).1 held taken ∧
      (prepareLanes faults w' lanes).2.1.map Lane.claim = lanes.map Lane.claim := by
  induction lanes generalizing w' with
  | nil => exact ⟨holding, rfl⟩
  | cons lane rest ih =>
      unfold prepareLanes
      split
      · have inner := ih w' holding
        exact ⟨inner.1, by rw [List.map_cons, List.map_cons, inner.2]⟩
      · have first := prepareOwnedList_spec faults w' lane holding
        dsimp only
        split
        · exact ⟨first.1, by rw [List.map_cons, List.map_cons, first.2]⟩
        · have inner := ih _ first.1
          exact ⟨inner.1, by rw [List.map_cons, List.map_cons, first.2, inner.2]⟩

/-! ## The queues -/

theorem totalFrames_cons (lane : Lane) (lanes : List Lane) :
    totalFrames (lane :: lanes) = lane.packets.length + totalFrames lanes := rfl

theorem heldOn_clear (r : Nat) (lanes : List Lane) : heldOn r (lanes.map Lane.clear) = 0 := by
  rw [heldOn_eq_zero_iff]
  intro lane among _
  obtain ⟨cleared, _, rfl⟩ := List.mem_map.mp among
  rfl

theorem countOn_clear (r : Nat) (lanes : List Lane) :
    countOn r (lanes.map Lane.clear) = countOn r lanes := by
  unfold countOn
  rw [List.map_map]
  rfl

theorem Holding.uncharge {frames : Nat} (holding : Holding (w.charge frames) w' held taken) :
    Holding w (w'.uncharge frames) held taken := by
  refine ⟨holding.reserved, holding.refcnt, holding.queues, ?_, ?_⟩
  · show w'.txPending - frames = w.txPending
    rw [holding.txPending]
    exact Nat.add_sub_cancel _ _
  · show w'.refs - frames = w.refs
    rw [holding.refs]
    exact Nat.add_sub_cancel _ _

theorem Holding.charge (holding : Holding w w' held taken) (frames : Nat) :
    Holding (w.charge frames) (w'.charge frames) held taken :=
  ⟨holding.reserved, holding.refcnt, holding.queues,
    congrArg (· + frames) holding.txPending, congrArg (· + frames) holding.refs⟩

/-- A path that has not taken its frames releases them, and nothing else happens to it. -/
theorem enqueuePrepared_failed (holding : Holding w w' held taken)
    (failed : (enqueuePrepared faults w' lane).2 ≠ 0) :
    Holding w (enqueuePrepared faults w' lane).1 held taken := by
  unfold enqueuePrepared at failed ⊢
  split
  · exact holding.releaseSilent _ _ _
  · rename_i took
    rw [took] at failed
    exact absurd rfl failed

theorem enqueueLanes_queued (faults : Faults) (w' : World) (lanes : List Lane) {queued : Nat}
    (some : queued ≠ 0) : (enqueueLanes faults w' lanes queued).2.2 = 0 := by
  induction lanes generalizing w' queued with
  | nil => rfl
  | cons lane rest ih =>
      unfold enqueueLanes
      split
      · exact ih w' some
      · dsimp only
        split
        · exact ih _ (by omega)
        · rfl

/-- The first path refuses its frames: the call takes everything back. -/
theorem enqueueLanes_failed {frames : Nat} (left : Nat → Nat)
    (holding : Holding (w.charge frames) w' (fun r => left r + heldOn r lanes) taken)
    (all : frames = totalFrames lanes) (failed : (enqueueLanes faults w' lanes 0).2.2 ≠ 0) :
    Holding w (enqueueLanes faults w' lanes 0).1
        (fun r => left r + heldOn r (enqueueLanes faults w' lanes 0).2.1) taken ∧
      ∀ r, countOn r (enqueueLanes faults w' lanes 0).2.1 = countOn r lanes := by
  induction lanes generalizing w' left with
  | nil => exact absurd rfl failed
  | cons lane rest ih =>
      unfold enqueueLanes at failed ⊢
      split
      · rename_i empty
        rw [if_pos empty] at failed
        have none : totalFrames (lane :: rest) = totalFrames rest := by
          rw [totalFrames_cons, empty, List.length_nil, Nat.zero_add]
        obtain ⟨after, counted⟩ := ih
          (fun r => left r + if lane.rail = r then lane.reservation else 0)
          (holding.congr (fun r => by rw [heldOn_cons, Nat.add_assoc]) fun _ => rfl)
          (all.trans none) failed
        exact ⟨after.congr (fun r => by rw [heldOn_cons, Nat.add_assoc]) fun _ => rfl,
          fun r => by rw [countOn_cons, countOn_cons, counted]⟩
      · rename_i some
        rw [if_neg some] at failed
        dsimp only at failed ⊢
        split
        · rename_i took
          rw [if_pos took] at failed
          have more : 0 + lane.packets.length ≠ 0 := by
            rw [Nat.zero_add]
            exact fun zero => some (List.length_eq_zero_iff.mp zero)
          exact absurd (enqueueLanes_queued faults _ rest more) failed
        · rename_i refused
          have released := (enqueuePrepared_failed holding refused).releaseAllSilent rest
            (enqueuePrepared faults w' lane).2
          refine ⟨?_, fun r => ?_⟩
          · rw [← all]
            refine (Holding.releasePathReservations left released).uncharge.congr (fun r => ?_) fun _ => rfl
            have cleared := heldOn_clear r (lane :: rest)
            rw [List.map_cons] at cleared
            rw [cleared, Nat.add_zero]
          · have cleared := countOn_clear r (lane :: rest)
            rwa [List.map_cons] at cleared

/-- Behind the loop over the fragments a failure leaves no trace. -/
theorem Holding.sendFrames (holding : Holding w w' (heldOn · lanes) (countOn · lanes))
    (failed : (sendFrames faults w' lanes).2 ≠ 0) : Untraced w (sendFrames faults w' lanes).1 := by
  obtain ⟨prepared, claims⟩ := prepareLanes_spec faults w' lanes holding
  have prepared := prepared.congr (heldOn_congr claims) (countOn_congr claims)
  unfold FramedPost.sendFrames at failed ⊢
  dsimp only at failed ⊢
  split
  · exact prepared.errReleasePaths _
  · rename_i succeeded
    rw [if_neg succeeded] at failed
    split
    · exact prepared.errReleasePaths _
    · rename_i some
      rw [if_neg some] at failed
      split
      · rename_i refused
        have charged := prepared.charge (totalFrames (prepareLanes faults w' lanes).2.1)
        obtain ⟨after, counted⟩ := enqueueLanes_failed (fun _ => 0)
          (charged.congr (fun r => Nat.zero_add _) fun _ => rfl) rfl refused
        exact (after.congr (fun r => (Nat.zero_add _).symm) counted).errReleasePaths _
      · rename_i took
        rw [if_neg took] at failed
        exact absurd rfl failed

end

/-! ## Reserving -/

def Lane.Fits (lane : Lane) (w : World) : Prop :=
  lane.reservation = 0 ∨ txAdmits (w.path lane.rail) = true ∧
    lane.reservation ≤ (w.path lane.rail).txDataQueueLimit ∧
    (w.path lane.rail).txDataQueued + (w.path lane.rail).txDataReserved ≤
      (w.path lane.rail).txDataQueueLimit - lane.reservation

instance (lane : Lane) (w : World) : Decidable (lane.Fits w) :=
  inferInstanceAs (Decidable (_ ∨ _ ∧ _ ∧ _))

/-- A path refuses its reservation, and one behind it that is to carry frames too has
reservations of other posts. -/
def SpillsOver (w : World) (lanes : List Lane) : Prop :=
  ∃ before lane after, lanes = before ++ lane :: after ∧ (∀ l ∈ before, l.Fits w) ∧
    ¬ lane.Fits w ∧ ∃ l ∈ after, 0 < l.reservation ∧ 0 < w.reserved l.rail

section
variable {w w' w'' : World} {held taken : Nat → Nat} {lanes rest : List Lane} {lane : Lane}

theorem reserveData_refuses (path : Path) (frames : Nat) (some : frames ≠ 0)
    (full : ¬ (txAdmits path = true ∧ frames ≤ path.txDataQueueLimit ∧
      path.txDataQueued + path.txDataReserved ≤ path.txDataQueueLimit - frames)) :
    ∃ ret, reserveData path frames = .error ret ∧ ret ≠ 0 := by
  unfold reserveData
  rw [if_neg some]
  split
  · exact ⟨enotconn, rfl, by decide⟩
  · rename_i admits
    rw [if_pos (by
      by_contra room
      exact full ⟨by simpa using admits, by omega, by omega⟩)]
    exact ⟨enomem, rfl, by decide⟩

theorem reserveData_grants (path : Path) (frames : Nat) (some : frames ≠ 0)
    (admits : txAdmits path = true) (room : frames ≤ path.txDataQueueLimit ∧
      path.txDataQueued + path.txDataReserved ≤ path.txDataQueueLimit - frames) :
    reserveData path frames = .ok { path with txDataReserved := path.txDataReserved + frames } := by
  unfold reserveData
  rw [if_neg some, if_neg (by simp [admits]), if_neg (by omega)]

/-- How the reservation loop may end: everything is granted, or a path refuses, what is before
it is held and what is behind it only wished for. -/
inductive Reserves (w : World) (taken : Nat → Nat) :
    (Nat → Nat) → List Lane → World × List Lane × Int → Prop
  | granted {held : Nat → Nat} {lanes : List Lane} {w' : World} (all : ∀ l ∈ lanes, l.Fits w)
      (holding : Holding w w' (fun r => held r + heldOn r lanes) taken) :
      Reserves w taken held lanes (w', lanes, 0)
  | refused {held : Nat → Nat} (before : List Lane) {after : List Lane} {lane : Lane}
      {w' : World} {ret : Int}
      (all : ∀ l ∈ before, l.Fits w) (full : ¬ lane.Fits w) (error : ret ≠ 0)
      (holding : Holding w w' (fun r => held r + heldOn r before) taken) :
      Reserves w taken held (before ++ lane :: after)
        (w', before ++ { lane with reservation := 0 } :: after, ret)

theorem Reserves.cons {out : World × List Lane × Int} (fits : lane.Fits w)
    (reserves : Reserves w taken
      (fun r => held r + if lane.rail = r then lane.reservation else 0) rest out) :
    Reserves w taken held (lane :: rest) (out.1, lane :: out.2.1, out.2.2) := by
  cases reserves with
  | granted all holding =>
      refine .granted (List.forall_mem_cons.mpr ⟨fits, all⟩) (holding.congr (fun r => ?_) fun _ => rfl)
      rw [heldOn_cons, Nat.add_assoc]
  | refused before all full error holding =>
      refine .refused (lane :: before) (List.forall_mem_cons.mpr ⟨fits, all⟩) full error
        (holding.congr (fun r => ?_) fun _ => rfl)
      rw [heldOn_cons, Nat.add_assoc]

theorem reserveLanes_reserves (lanes : List Lane) {w' : World}
    (same : ∀ lane ∈ lanes, w'.path lane.rail = w.path lane.rail)
    (distinct : (lanes.map Lane.rail).Nodup) (holding : Holding w w' held taken) :
    Reserves w taken held lanes (reserveLanes w' lanes) := by
  induction lanes generalizing w' held with
  | nil => exact .granted nofun holding
  | cons lane rest ih =>
      rw [List.map_cons, List.nodup_cons] at distinct
      obtain ⟨apart, distinct⟩ := distinct
      obtain ⟨here, later⟩ := List.forall_mem_cons.mp same
      unfold reserveLanes
      split
      · rename_i none
        refine .cons (.inl none) (ih later distinct (holding.congr (fun r => ?_) fun _ => rfl))
        rw [none]
        split <;> rfl
      · rename_i some
        rw [here]
        by_cases room : lane.Fits w
        · obtain ⟨admits, within⟩ := room.resolve_left some
          rw [reserveData_grants _ _ some admits within]
          refine .cons room (ih (fun l among => ?_) distinct (holding.setPath ?_ ?_ ?_))
          · have other : l.rail ≠ lane.rail := fun is =>
              apart (List.mem_map.mpr ⟨l, among, is⟩)
            rw [path_setPath, if_neg other]
            exact later l among
          · rw [here]
            exact ⟨rfl, rfl, rfl, rfl⟩
          · have now := holding.reserved lane.rail
            unfold World.reserved at now
            rw [here] at now
            show _ + _ = _ + (_ + if lane.rail = lane.rail then _ else _)
            unfold World.reserved
            rw [if_pos rfl]
            omega
          · intro r other
            rw [if_neg (Ne.symm other), Nat.add_zero]
        · obtain ⟨ret, refuses, error⟩ := reserveData_refuses (w.path lane.rail) lane.reservation
            some fun within => room (.inr within)
          rw [refuses]
          exact .refused [] nofun room error holding

/-! ## Collecting -/

theorem Holding.getRail (holding : Holding w w' held taken) (r : Nat) (taken' : Nat → Nat)
    (own : taken' r = taken r + 1) (elsewhere : ∀ s, s ≠ r → taken' s = taken s) :
    Holding w (w'.getRail r) held taken' ∧ ∀ s, (w'.getRail r).path s = w'.path s := by
  have paths (s : Nat) : (w'.getRail r).path s = w'.path s := by
    unfold World.getRail World.path
    by_cases same : s = r
    · simp [same]
    · simp [Function.update_of_ne same]
  refine ⟨⟨fun s => ?_, fun s => ?_, fun s => ?_, holding.txPending, holding.refs⟩, paths⟩
  · unfold World.reserved
    rw [paths]
    exact holding.reserved s
  · have before := holding.refcnt s
    unfold World.getRail
    by_cases same : s = r
    · subst same
      simp only [Function.update_self]
      omega
    · simp only [Function.update_of_ne same]
      rw [elsewhere s same]
      exact before
  · rw [paths]
    exact holding.queues s

theorem collectPathsLoop_spec (rails : List Nat) {w' : World} (room : Nat)
    (holding : Holding w w' held taken) (same : ∀ r, w'.path r = w.path r) :
    Holding w (collectPathsLoop w' rails room).1 held
        (fun r => taken r + (collectPathsLoop w' rails room).2.count r) ∧
      (collectPathsLoop w' rails room).2.Sublist rails ∧
      ∀ r, (collectPathsLoop w' rails room).1.path r = w.path r := by
  induction rails generalizing w' room taken with
  | nil => exact ⟨holding, .slnil, same⟩
  | cons rail rest ih =>
      cases room with
      | zero => exact ⟨holding, List.nil_sublist _, same⟩
      | succ room =>
          unfold collectPathsLoop
          split
          · obtain ⟨got, paths⟩ := holding.getRail rail
              (fun r => taken r + if rail = r then 1 else 0) (by rw [if_pos rfl])
              fun s other => by rw [if_neg (Ne.symm other), Nat.add_zero]
            obtain ⟨after, among, paths'⟩ := ih room got fun r => (paths r).trans (same r)
            refine ⟨after.congr (fun _ => rfl) fun r => ?_, among.cons_cons rail, paths'⟩
            simp only [List.count_cons, beq_iff_eq]
            omega
          · obtain ⟨after, among, paths⟩ := ih (room + 1) holding same
            exact ⟨after, among.cons rail, paths⟩

theorem selectPath_spec (w : World) (rail : Nat) :
    Holding w (selectPath w rail).1 (fun _ => 0) (fun r => (selectPath w rail).2.count r) ∧
      (selectPath w rail).2.Nodup ∧ ∀ r, (selectPath w rail).1.path r = w.path r := by
  unfold selectPath
  split
  · obtain ⟨got, paths⟩ := (Holding.refl w).getRail rail
      (fun r => [rail].count r) (by simp) fun s other => by
        simp [Ne.symm other]
    exact ⟨got, List.pairwise_singleton _ _, paths⟩
  · exact ⟨.refl w, List.Pairwise.nil, fun _ => rfl⟩

theorem length_wanted (p : Post) (pathCount : Nat) : (p.wanted pathCount).length = pathCount := by
  unfold Post.wanted
  generalize List.range p.nfrags = indices
  suffices ∀ counts : List Nat, (indices.foldl (fun counts i =>
      counts.modify (p.pathIdx pathCount i) (· + 1)) counts).length = counts.length by
    rw [this, List.length_replicate]
  induction indices with
  | nil => exact fun _ => rfl
  | cons i rest ih =>
      intro counts
      rw [List.foldl_cons, ih, List.length_modify]

/-- The lanes stand for different rails, hold a reference of each, and have changed no path. -/
theorem collect_spec (p : Post) (w : World) :
    Holding w (p.collect w).1 (fun _ => 0) (countOn · (p.collect w).2) ∧
      ((p.collect w).2.map Lane.rail).Nodup ∧ ∀ r, (p.collect w).1.path r = w.path r := by
  unfold Post.collect
  dsimp only
  obtain ⟨out, outEq⟩ : ∃ out, out = if p.striping then collectPathsLoop w p.peerRails maxLanes
    else selectPath w p.ownRail := ⟨_, rfl⟩
  have spec : Holding w out.1 (fun _ => 0) (fun r => out.2.count r) ∧ out.2.Nodup ∧
      ∀ r, out.1.path r = w.path r := by
    rw [outEq]
    split
    · obtain ⟨holding, among, paths⟩ :=
        collectPathsLoop_spec p.peerRails maxLanes (Holding.refl w) fun _ => rfl
      exact ⟨holding.congr (fun _ => rfl) fun r => (Nat.zero_add _).symm,
        among.nodup p.peerRails_nodup, paths⟩
    · exact selectPath_spec w p.ownRail
  rw [← outEq]
  obtain ⟨holding, distinct, paths⟩ := spec
  have rails : (List.zipWith (fun rail reservation => ({ rail, reservation } : Lane)) out.2
      (p.wanted out.2.length)).map Lane.rail = out.2 := by
    rw [List.map_zipWith]
    apply List.ext_getElem
    · simp [length_wanted]
    · intro i _ _
      simp
  refine ⟨holding.congr (fun _ => rfl) fun r => ?_, by rw [rails]; exact distinct, paths⟩
  generalize List.zipWith _ out.2 _ = lanes at rails
  rw [← rails]
  clear rails
  induction lanes with
  | nil => rfl
  | cons lane rest ih =>
      simp only [countOn_cons, List.map_cons, List.count_cons, beq_iff_eq, ih]
      omega

end

/-! ## The call -/

/-- A call that returns an error leaves no trace. -/
def Post.FailsUntraced (p : Post) (faults : Faults) (w : World) : Prop :=
  (p.postFrames faults w).2 ≠ 0 → Untraced w (p.postFrames faults w).1

section
variable {w w' : World} {held taken : Nat → Nat} {lanes before after : List Lane} {lane : Lane}

/-- Lanes whose wishes meet paths without reservations give back nothing. -/
theorem Holding.releaseIdle (holding : Holding w w' (fun _ => 0) taken)
    (idle : ∀ l ∈ lanes, l.reservation = 0 ∨ w.reserved l.rail = 0) :
    Holding w (FramedPost.releasePathReservations w' lanes) (fun _ => 0) taken := by
  induction lanes generalizing w' with
  | nil => exact holding
  | cons lane rest ih =>
      obtain ⟨here, later⟩ := List.forall_mem_cons.mp idle
      exact ih (holding.releaseReservation lane _ (by omega) fun _ _ => rfl) later

theorem reserved_releasePathReservations (w : World) (lanes : List Lane) (r : Nat) :
    (releasePathReservations w lanes).reserved r = w.reserved r - heldOn r lanes := by
  unfold releasePathReservations
  induction lanes generalizing w with
  | nil => rfl
  | cons lane rest ih =>
      have first : (releaseReservation w lane).reserved r =
          w.reserved r - if lane.rail = r then lane.reservation else 0 := by
        unfold releaseReservation
        split
        · rename_i none
          rw [none]
          split <;> rfl
        · unfold World.reserved
          rw [path_setPath]
          by_cases same : r = lane.rail
          · rw [if_pos same, if_pos same.symm, same]
            rfl
          · rw [if_neg same, if_neg (Ne.symm same), Nat.sub_zero]
      rw [List.foldl_cons, ih, first, heldOn_cons, Nat.sub_add_eq]

theorem reserved_releasePathRefs (w : World) (lanes : List Lane) (r : Nat) :
    (releasePathRefs w lanes).reserved r = w.reserved r := by
  unfold releasePathRefs
  induction lanes generalizing w with
  | nil => rfl
  | cons lane rest ih =>
      rw [List.foldl_cons, ih]
      unfold World.reserved World.path World.putRail
      by_cases same : r = lane.rail
      · simp [same]
      · simp [Function.update_of_ne same]

/-- The first lane that does not fit stands in one place. -/
theorem after_eq_of_first {before' after' : List Lane} {lane' : Lane}
    (fits : ∀ l ∈ before, l.Fits w) (full : ¬ lane.Fits w) (fits' : ∀ l ∈ before', l.Fits w)
    (full' : ¬ lane'.Fits w) (split : before ++ lane :: after = before' ++ lane' :: after') :
    after = after' := by
  rcases List.append_eq_append_iff.mp split with ⟨between, is, rest⟩ | ⟨between, is, rest⟩
  · cases between with
    | nil => exact (List.cons.inj rest).2
    | cons l between =>
        have among : lane ∈ before' := by
          rw [is, (List.cons.inj rest).1]
          simp
        exact absurd (fits' lane among) full
  · cases between with
    | nil => exact (List.cons.inj rest).2.symm
    | cons l between =>
        have among : lane' ∈ before := by
          rw [is, (List.cons.inj rest).1]
          simp
        exact absurd (fits lane' among) full'

/-- Behind a refused reservation the call takes back what it holds, and what it only wished
for. -/
theorem untraced_of_refused_iff
    (holding : Holding w w' (heldOn · before) (countOn · (before ++ lane :: after)))
    (fits : ∀ l ∈ before, l.Fits w) (full : ¬ lane.Fits w) :
    Untraced w (releasePathRefs (releasePathReservations w'
        (before ++ { lane with reservation := 0 } :: after))
        (before ++ { lane with reservation := 0 } :: after)) ↔
      ¬ SpillsOver w (before ++ lane :: after) := by
  have granted : Holding w (releasePathReservations w' before) (fun _ => 0)
      (countOn · (before ++ { lane with reservation := 0 } :: after)) :=
    Holding.releasePathReservations (fun _ => 0) (holding.congr (fun r => Nat.zero_add _) fun r => by simp)
  have parts : releasePathReservations w' (before ++ { lane with reservation := 0 } :: after) =
      releasePathReservations (releasePathReservations w' before) after := by
    unfold releasePathReservations
    rw [List.foldl_append, List.foldl_cons]
    congr 1
  rw [parts]
  constructor
  · rintro untraced ⟨before', lane', after', split, fits', full', l, among, wants, others⟩
    have same := after_eq_of_first fits full fits' full' split
    rw [← same] at among
    have left := untraced.reserved l.rail
    rw [reserved_releasePathRefs, reserved_releasePathReservations, granted.reserved,
      Nat.add_zero] at left
    have some : heldOn l.rail after ≠ 0 := fun none =>
      absurd (heldOn_eq_zero_iff.mp none l among rfl) (by omega)
    omega
  · intro within
    have idle : ∀ l ∈ after, l.reservation = 0 ∨ w.reserved l.rail = 0 := by
      intro l among
      by_contra both
      exact within ⟨before, lane, after, rfl, fits, full, l, among, by omega, by omega⟩
    exact Holding.releasePathRefs (fun _ => 0)
      ((granted.releaseIdle idle).congr (fun _ => rfl) fun r => Nat.zero_add _)

end

/-- A failed framed post leaves no trace, unless a path refuses its reservation in front of one
that is to carry frames too and has reservations of others. -/
theorem failed_post_untraced_iff (p : Post) (faults : Faults) (w : World) :
    p.FailsUntraced faults w ↔ ¬ SpillsOver w (p.collect w).2 := by
  obtain ⟨collected, distinct, paths⟩ := collect_spec p w
  have reserves := reserveLanes_reserves (p.collect w).2 (fun lane _ => paths lane.rail) distinct
    collected
  unfold Post.FailsUntraced Post.postFrames
  dsimp only
  generalize p.collect w = out at *
  obtain ⟨w', lanes⟩ := out
  dsimp only at *
  split
  · rename_i none
    refine iff_of_true (fun _ => ?_) ?_
    · exact collected.congr (fun _ => rfl) fun r => by rw [none, countOn_nil]
    · rintro ⟨before, lane, after, split, _⟩
      rw [none] at split
      simp at split
  · generalize reserveLanes w' lanes = reserved at *
    cases reserves with
    | @granted _ w'' all holding =>
        have held : Holding w w'' (heldOn · lanes) (countOn · lanes) :=
          holding.congr (fun r => (Nat.zero_add _).symm) fun _ => rfl
        rw [if_neg (by simp)]
        refine iff_of_true (fun failed => ?_) ?_
        · split at failed
          · exact held.errReleasePaths _
          · rename_i built builtEq
            have claims := buildFrames_claims builtEq
            have ready := held.congr (heldOn_congr claims) (countOn_congr claims)
            exact ready.sendFrames failed
        · rintro ⟨before, lane, after, split, _, full, _⟩
          exact full (all lane (by rw [split]; simp))
    | refused before all full error holding =>
        rw [if_pos error]
        have verdict := untraced_of_refused_iff
          (holding.congr (fun r => (Nat.zero_add _).symm) fun _ => rfl) all full
        exact ⟨fun untraced => verdict.mp (untraced error), fun within _ => verdict.mpr within⟩

def twoLaneSend : Post where
  ctx :=
    { opcode := .send, segs := [⟨0, 4049, Nat.succ_pos _⟩], totalLen := 4049, immData := 0, psn := 0 }
  qp := { type := .rc, qpNum := 1, destQpNum := 2, sendPsn := 0 }
  memory := fun _ => 7
  fragmentStriping := true
  peerRails := [0, 1]
  peerRails_nodup := by decide
  ownRail := 0

/-- All of rail 0 is reserved by other posts, and 5 frames of rail 1. -/
def reservedByOthers : World where
  rails r :=
    { path := { Path.fresh nativeConfig with
        txDataReserved := if r = 0 then (Path.fresh nativeConfig).txDataQueueLimit else 5 }
      refcnt := 1
      dataReady := true }
  txPending := 0
  refs := 2

/-- Rail 0 refuses, and rail 1 loses a reservation this call never had. -/
theorem failed_post_takes_reservation :
    (twoLaneSend.postFrames {} reservedByOthers).2 = enomem ∧
      reservedByOthers.reserved 1 = 5 ∧
      (twoLaneSend.postFrames {} reservedByOthers).1.reserved 1 = 4 ∧
      ¬ twoLaneSend.FailsUntraced {} reservedByOthers := by
  have refused : (twoLaneSend.postFrames {} reservedByOthers).2 = enomem := by decide +kernel
  have before : reservedByOthers.reserved 1 = 5 := by decide +kernel
  have after : (twoLaneSend.postFrames {} reservedByOthers).1.reserved 1 = 4 := by decide +kernel
  refine ⟨refused, before, after, fun untraced => ?_⟩
  have same := (untraced (by rw [refused]; decide)).reserved 1
  rw [before, after] at same
  cases same

end Tbv.FramedPost
