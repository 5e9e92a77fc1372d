import ThunderboltIbverbs.Sq.Window

/-! # Admission to an idle window

`tbv_qp_try_acquire_apple_tx_window` beside `tbv_qp_apple_tx_window_available`.  The charge
of a work request is capped by the group knob and admitted by the budget knob, so whether an
idle window takes the next send is a matter of the knobs alone. -/
set_option autoImplicit false
namespace Tbv.Sq

open Threads Trans

/-- `tbv_qp_try_acquire_apple_tx_window`: nothing when it returns false, else the QP,
`*wr_acquired`, `*frames_acquired` and `*ret`. -/
def Qp.tryAcquireWindow (q : Qp) (s frames : Nat) : Option (Qp × Bool × Nat × Int) :=
  let charge := frameCharge frames q.knobs.group
  let exclusive := q.knobs.exclusive frames
  let wr := q.knobs.maxInflightWr != 0 || exclusive
  if !exclusive && q.knobs.maxInflightWr == 0 && q.knobs.budget == 0 then some (q, false, 0, 0)
  else if q.stopping then some (q, false, 0, ecanceled)
  else if windowOk q.txInflight q.txInflightFrames exclusive q.knobs.maxInflightWr q.knobs.budget
      charge then some (q.acquire s wr charge, wr, charge, 0)
  else none

def Qp.windowAvailable (q : Qp) (frames : Nat) : Bool :=
  let charge := frameCharge frames q.knobs.group
  let exclusive := q.knobs.exclusive frames
  if !exclusive && q.knobs.maxInflightWr == 0 && q.knobs.budget == 0 then true
  else if q.stopping then true
  else windowOk q.txInflight q.txInflightFrames exclusive q.knobs.maxInflightWr q.knobs.budget
    charge

/-- The knobs are `unsigned int` module parameters. -/
structure Knobs.U32 (k : Knobs) : Prop where
  maxInflightWr : k.maxInflightWr < 2 ^ 32
  maxInflightFrames : k.maxInflightFrames < 2 ^ 32
  groupFrames : k.groupFrames < 2 ^ 32
  budgetFrames : k.budgetFrames < 2 ^ 32

/-- `frames` is the number of frames of a work request that can be posted. -/
def Knobs.IsFrameCount (k : Knobs) (frames : Nat) : Prop :=
  ∃ length < 2 ^ 32, k.descCount length = some frames

/-- What an idle window is to promise to a work request of `frames` frames. -/
structure AlwaysAdmits (k : Knobs) (frames : Nat) : Prop where
  idle : ∀ (q : Qp) (s : Nat), q.knobs = k → q.stopping = false → q.txInflight = 0 →
    q.txInflightFrames = 0 → ∃ q' wr charge, q.tryAcquireWindow s frames = some (q', wr, charge, 0) ∧
      q'.txInflight = q.txInflight + (if wr then 1 else 0) ∧
      q'.txInflightFrames = q.txInflightFrames + charge
  available : ∀ maxSendWr st, Reaches step (fun _ _ => True) (start k maxSendWr) st →
    ∀ s, (st.shared.tryAcquireWindow s frames).isSome = st.shared.windowAvailable frames
  blocked : ∀ maxSendWr st, Reaches step (fun _ _ => True) (start k maxSendWr) st →
    ∀ s, st.Has (.tryAcquire s) → st.shared.windowAvailable frames = false →
      ∃ x ∈ st.shared.ledger, x.send ≠ s

/-- The knobs under which an idle window takes a work request of `frames` frames. -/
def Knobs.AdmitsIdle (k : Knobs) (frames : Nat) : Prop :=
  (k.pipeline = false ∨ k.maxInflightWr < 2 ^ 31) ∧
    (k.budget = 0 ∨ frameCharge frames k.group ≤ k.budget)

/-! ## One call -/

theorem execTryAcquire_eq (q : Qp) (s : Nat) :
    execTryAcquire q s =
      match q.tryAcquireWindow s ((q.knobs.descCount (q.sends s).length).getD 0) with
      | none => some (q, [.tryAcquire s])
      | some (q', wr, charge, ret) =>
          some (q', [if ret = 0 then .reserve s wr charge else .transmitFailed s ret]) := by
  unfold execTryAcquire Qp.tryAcquireWindow
  dsimp only
  split
  · rfl
  · split
    · rfl
    · split <;> rfl

theorem isSome_tryAcquireWindow (q : Qp) (s frames : Nat) :
    (q.tryAcquireWindow s frames).isSome = q.windowAvailable frames := by
  unfold Qp.tryAcquireWindow Qp.windowAvailable
  dsimp only
  split
  · rfl
  · split
    · rfl
    · split
      · rename_i fits
        exact fits.symm
      · rename_i full
        simpa using full

theorem Knobs.IsFrameCount.lt {k : Knobs} {frames : Nat} (counted : k.IsFrameCount frames) :
    frames < 2 ^ 32 := by
  obtain ⟨length, bounded, counted⟩ := counted
  unfold Knobs.descCount appleFrameSize rawDescsPerChunk at counted
  split at counted
  · split at counted
    · cases counted
    · split at counted <;> cases counted
      omega
  · cases counted
    omega

theorem frameCharge_le (frames maxFrames : Nat) : frameCharge frames maxFrames ≤ frames := by
  unfold frameCharge
  split
  · exact Nat.zero_le _
  · exact Nat.min_le_left _ _

theorem windowOk_idle (maxFrames : Nat) {maxWr charge : Nat} (exclusive : Bool) (wr : maxWr < 2 ^ 32)
    (small : charge < 2 ^ 32) :
    windowOk 0 0 exclusive maxWr maxFrames charge = true ↔
      (exclusive = true ∨ maxWr < 2 ^ 31) ∧ (maxFrames = 0 ∨ charge ≤ maxFrames) := by
  have sum : (Int.toNat 0 + charge) % 2 ^ 32 = charge := by
    rw [Int.toNat_zero, Nat.zero_add, Nat.mod_eq_of_lt small]
  have signed : toInt32 maxWr ≤ 0 ↔ maxWr = 0 ∨ 2 ^ 31 ≤ maxWr := by
    unfold toInt32
    split <;> omega
  unfold windowOk
  rw [sum]
  cases exclusive <;> simp [signed]
  omega

section Idle
variable {q q' : Qp} {s frames charge : Nat} {wr : Bool} {ret : Int}

/-- The counters rise by what is reported, in every case that returns true. -/
theorem tryAcquireWindow_raises (acquired : q.tryAcquireWindow s frames = some (q', wr, charge, ret)) :
    q'.txInflight = q.txInflight + (if wr then 1 else 0) ∧
      q'.txInflightFrames = q.txInflightFrames + charge := by
  unfold Qp.tryAcquireWindow at acquired
  dsimp only at acquired
  split at acquired
  · cases acquired
    simp
  · split at acquired
    · cases acquired
      simp
    · split at acquired <;> cases acquired
      refine ⟨?_, rfl⟩
      unfold Qp.acquire
      dsimp only
      split <;> simp

theorem tryAcquireWindow_live (acquired : q.tryAcquireWindow s frames = some (q', wr, charge, ret))
    (live : q.stopping = false) : ret = 0 := by
  unfold Qp.tryAcquireWindow at acquired
  dsimp only at acquired
  rw [live] at acquired
  split at acquired
  · cases acquired
    rfl
  · rw [if_neg (by simp)] at acquired
    split at acquired <;> cases acquired
    rfl

theorem tryAcquireWindow_knobs (acquired : q.tryAcquireWindow s frames = some (q', wr, charge, ret)) :
    q'.knobs = q.knobs := by
  unfold Qp.tryAcquireWindow at acquired
  dsimp only at acquired
  repeat' split at acquired
  all_goals cases acquired
  all_goals rfl

theorem windowAvailable_idle (range : q.knobs.U32) (some_ : 0 < frames) (small : frames < 2 ^ 32)
    (live : q.stopping = false) (wrs : q.txInflight = 0) (held : q.txInflightFrames = 0) :
    q.windowAvailable frames = true ↔ q.knobs.AdmitsIdle frames := by
  have charged := frameCharge_le frames q.knobs.group
  have alone : q.knobs.exclusive frames = true ↔ q.knobs.pipeline = false := by
    simp [Knobs.exclusive, some_]
  have idle := windowOk_idle q.knobs.budget (q.knobs.exclusive frames)
    range.maxInflightWr (Nat.lt_of_le_of_lt charged small)
  rw [alone] at idle
  unfold Qp.windowAvailable
  dsimp only
  rw [live, wrs, held, if_neg Bool.false_ne_true]
  split
  · rename_i unlimited
    simp only [Bool.and_eq_true, beq_iff_eq] at unlimited
    refine iff_of_true rfl ⟨.inr ?_, .inl unlimited.2⟩
    rw [unlimited.1.2]
    decide
  · exact idle

end Idle

/-! ## Who holds the window -/

/-- The section of the worker in `tbv_qp_acquire_apple_tx_window`: it waits, or the call is over. -/
theorem execTryAcquire_cases {q q' : Qp} {s : Nat} {pushed : List Frame}
    (ran : execTryAcquire q s = some (q', pushed)) :
    (q' = q ∧ pushed = [.tryAcquire s]) ∨ ∃ frames wr charge ret,
      q.tryAcquireWindow s frames = some (q', wr, charge, ret) ∧
        pushed = [if ret = 0 then .reserve s wr charge else .transmitFailed s ret] := by
  rw [execTryAcquire_eq] at ran
  split at ran
  · cases ran
    exact .inl ⟨rfl, rfl⟩
  · rename_i acquired
    cases ran
    exact .inr ⟨_, _, _, _, acquired, rfl⟩

section Knobs
variable (q : Qp)

@[simp] theorem unqueueSend_knobs (s : Nat) : (q.unqueueSend s).1.knobs = q.knobs := by
  unfold Qp.unqueueSend
  split <;> rfl

@[simp] theorem releaseWr_knobs (s : Nat) (wr : Bool) : (q.releaseWr s wr).knobs = q.knobs := by
  unfold Qp.releaseWr
  split <;> rfl

@[simp] theorem releaseFrames_knobs (s frames : Nat) :
    (q.releaseFrames s frames).knobs = q.knobs := by
  unfold Qp.releaseFrames
  split <;> rfl

@[simp] theorem completeSendOrdered_knobs (psn : Nat) (status : Int) :
    (q.completeSendOrdered psn status).1.knobs = q.knobs := by
  unfold Qp.completeSendOrdered
  split <;> rfl

@[simp] theorem reapTx_knobs (expired : List Nat) : (q.reapTx expired).qp.knobs = q.knobs := by
  refine reapTx_invariant (P := fun r => r.qp.knobs = q.knobs) expired rfl fun r s same => ?_
  refine Eq.trans ?_ same
  unfold Reaped.send
  dsimp only
  split
  · rfl
  · split <;> rfl

end Knobs

theorem exec_knobs {q q' : Qp} {frame : Frame} {choice : Choice} {pushed : List Frame}
    (ran : exec q frame choice = some (q', pushed)) : q'.knobs = q.knobs := by
  cases frame with
  | completeSends sends | retry sends _ _ =>
      cases sends <;> simp only [exec] at ran <;> (repeat' split at ran) <;> cases ran <;> rfl
  | tryAcquire s =>
      obtain ⟨rfl, -⟩ | ⟨frames, wr, charge, ret, acquired, -⟩ := execTryAcquire_cases ran
      · rfl
      · exact tryAcquireWindow_knobs acquired
  | _ =>
      simp only [exec, execPost, execWaitGroup, execReleaseWindow, execRetryPosted] at ran
      repeat' split at ran
      all_goals cases ran
      all_goals first
        | rfl
        | exact unqueueSend_knobs _ _
        | exact releaseWr_knobs _ _ _
        | exact releaseFrames_knobs _ _ _
        | exact completeSendOrdered_knobs _ _ _
        | exact reapTx_knobs _ _

/-- Only the window section of a completion leaves frames to be released. -/
theorem exec_releaseFrames {q q' : Qp} {frame : Frame} {choice : Choice} {pushed : List Frame}
    (ran : exec q frame choice = some (q', pushed)) {s frames : Nat}
    (among : .releaseFrames s frames ∈ pushed) :
    frame = .releaseWindow s ∧ (q.sends s).windowAcquired = true := by
  cases frame with
  | completeSends sends | retry sends _ _ =>
      cases sends <;> simp only [exec] at ran <;> (repeat' split at ran) <;> cases ran <;>
        simp at among
  | releaseWindow holder =>
      simp only [exec, execReleaseWindow] at ran
      split at ran <;> cases ran
      · rename_i holds
        obtain ⟨rfl, -⟩ := Frame.releaseFrames.inj (List.mem_singleton.mp among)
        exact ⟨rfl, holds⟩
      · cases among
  | tryAcquire s =>
      obtain ⟨-, rfl⟩ | ⟨frames, wr, charge, ret, -, rfl⟩ := execTryAcquire_cases ran
      · simp at among
      · split at among <;> simp at among
  | _ =>
      simp only [exec, execPost, execWaitGroup, execRetryPosted, nextAfter] at ran
      repeat' split at ran
      all_goals cases ran
      all_goals simp [flush] at among

theorem react_knobs {q q' : Qp} {event : Event} {code : List Frame}
    (reacted : react q event = some (q', code)) :
    q'.knobs = q.knobs ∧ ∀ s frames, .releaseFrames s frames ∉ code := by
  cases event with
  | modify next sqPsn =>
      cases reacted
      refine ⟨rfl, fun s frames => ?_⟩
      split <;> simp [flush]
  | _ =>
      simp only [react] at reacted
      repeat' split at reacted
      all_goals cases reacted
      all_goals simp [flush]

/-- A send whose frames are being released has no queue entry any more. -/
def Released (st : St) : Prop :=
  ∀ s frames, st.Has (.releaseFrames s frames) → entries st s = 0 ∧ s < st.shared.posted

theorem Released.run {st : St} {thread : Nat} {frame : Frame} {rest pushed : List Frame} {q : Qp}
    {choice : Choice} (released : Released st) (ledger : Ledger st)
    (found : st.threads[thread]? = some (frame :: rest))
    (ran : exec st.shared frame choice = some (q, pushed)) :
    Released ⟨q, st.threads.set thread (pushed ++ rest)⟩ := by
  have windowing := exec_windowing ran
  intro s frames has
  have before : entries st s = 0 ∧ s < st.shared.posted := by
    rcases State.has_of_run found has with new | old
    · obtain ⟨-, acquired⟩ := exec_releaseFrames ran new
      refine ⟨ledger.places.marked s acquired, ?_⟩
      by_contra beyond
      have free := (ledger.places.fresh s (by omega)).2
      rw [free] at acquired
      cases acquired
    · exact released s frames old
  have moved := @entries_run _ _ _ _ pushed q found s
  have below := windowing.entries_le before.2
  exact ⟨by omega, Nat.lt_of_lt_of_le before.2 windowing.posted_le⟩

theorem Released.event {st : St} {event : Event} {q : Qp} {code : List Frame}
    (released : Released st) (reacted : react st.shared event = some (q, code)) :
    Released ⟨q, st.threads ++ [code]⟩ := by
  obtain ⟨same, queue, light⟩ := react_light reacted
  intro s frames has
  rcases State.has_of_event has with new | old
  · exact absurd new ((react_knobs reacted).2 s frames)
  · obtain ⟨none, inside⟩ := released s frames old
    have weightless : weigh (entryWeight s) code = 0 :=
      weigh_eq_zero fun next among => by simp [entryWeight, (light next among).1]
    have total := @State.total_event _ _ st (entryWeight s) code q
    unfold entries at none ⊢
    dsimp only
    rw [queue, total, weightless]
    exact ⟨none, same.posted ▸ inside⟩

/-- Whoever waits for the window holds no part of it. -/
theorem Ledger.holder_ne {st : St} (ledger : Ledger st) (released : Released st) {s : Nat}
    (waits : st.Has (.tryAcquire s)) {x : Charge} (held : x ∈ st.shared.ledger) : x.send ≠ s := by
  rintro rfl
  have balance : st.shared.ledger.count x = ((st.shared.sends x.send).holds x.send).count x +
    st.total (chargeWeight x) := ledger.balance x
  have entry : entryWeight x.send (.tryAcquire x.send) = 1 := by simp [entryWeight, entryOf]
  have below := State.weight_le_total (entryWeight x.send) waits
  have once := ledger.places.once x.send
  have unmarked : (st.shared.sends x.send).windowAcquired = false := by
    by_contra acquired
    have none := ledger.places.marked x.send (by simpa using acquired)
    unfold entries at none
    omega
  have carried : st.total (chargeWeight x) ≠ 0 := by
    have some_ := List.count_pos_iff.mpr held
    rw [holds_free unmarked, List.count_nil] at balance
    omega
  refine carried (State.total_eq_zero.mpr fun frame has => ?_)
  by_contra weighs
  have among : x ∈ chargesOf frame := List.count_pos_iff.mp (Nat.pos_of_ne_zero weighs)
  have total : st.total (entryWeight x.send) = 1 := by
    unfold entries at once
    omega
  -- a frame with a charge of its own has the entry too, unless it gives the frames back
  have alone : ∀ {other}, st.Has other → entryOf other = some x.send →
      other = .tryAcquire x.send := by
    intro other present same
    have weight : entryWeight x.send other = 1 := by simp [entryWeight, same]
    exact State.eq_of_total_one total present waits (by omega) (by omega)
  cases frame with
  | reserve s wr frames | giveBack s wr frames ret | mark s wr frames | giveBackFrames s frames ret =>
      have owner := send_of_mem_charges among
      cases alone has (congrArg some owner.symm)
  | releaseFrames s frames =>
      have owner := send_of_mem_charges among
      have none := (released s frames has).1
      rw [← owner] at none
      unfold entries at none
      omega
  | _ => cases among

/-! ## Every knob -/

/-- What is kept in every run, whatever the marks do. -/
structure Held (k : Knobs) (st : St) : Prop where
  knobs : st.shared.knobs = k
  ledger : Ledger st
  released : Released st

theorem held_of_reached {k : Knobs} {maxSendWr : Nat} {st : St}
    (reached : Reaches step (fun _ _ => True) (start k maxSendWr) st) : Held k st := by
  refine @Reaches.invariant _ _ _ _ _ (Held k) ⟨rfl, ledger_start k maxSendWr, ?_⟩ ?_ _ reached
  · rintro s frames ⟨stack, among, -⟩
    cases among
  · intro state next label held _ stepped
    cases label with
    | event event =>
        obtain ⟨q, code, reacted, rfl⟩ := step_event stepped
        exact ⟨(react_knobs reacted).1.trans held.knobs, held.ledger.event reacted,
          held.released.event reacted⟩
    | run thread choice =>
        obtain ⟨frame, rest, q, pushed, found, executed, rfl⟩ := step_run stepped
        exact ⟨(exec_knobs executed).trans held.knobs,
          held.ledger.run found (exec_windowing executed),
          held.released.run held.ledger found executed⟩

section Admits
variable {k : Knobs} {frames : Nat}

theorem Knobs.AdmitsIdle.idle (admits : k.AdmitsIdle frames) (range : k.U32)
    (counted : k.IsFrameCount frames) (some_ : 1 ≤ frames) {q : Qp} (same : q.knobs = k)
    (live : q.stopping = false) (wrs : q.txInflight = 0) (held : q.txInflightFrames = 0) (s : Nat) :
    ∃ q' wr charge, q.tryAcquireWindow s frames = some (q', wr, charge, 0) ∧
      q'.txInflight = q.txInflight + (if wr then 1 else 0) ∧
      q'.txInflightFrames = q.txInflightFrames + charge := by
  subst same
  have available := (windowAvailable_idle range some_ counted.lt live wrs held).mpr admits
  rw [← isSome_tryAcquireWindow q s] at available
  obtain ⟨⟨q', wr, charge, ret⟩, acquired⟩ := Option.isSome_iff_exists.mp available
  obtain rfl := tryAcquireWindow_live acquired live
  exact ⟨q', wr, charge, acquired, tryAcquireWindow_raises acquired⟩

theorem Knobs.AdmitsIdle.blocked (admits : k.AdmitsIdle frames) (range : k.U32)
    (counted : k.IsFrameCount frames) (some_ : 1 ≤ frames) {st : St} (held : Held k st) {s : Nat}
    (waits : st.Has (.tryAcquire s)) (full : st.shared.windowAvailable frames = false) :
    ∃ x ∈ st.shared.ledger, x.send ≠ s := by
  have live : st.shared.stopping = false := by
    by_contra stops
    unfold Qp.windowAvailable at full
    dsimp only at full
    rw [if_pos (c := st.shared.stopping = true) (by simpa using stops), ite_self] at full
    cases full
  have some_held : st.shared.ledger ≠ [] := by
    intro empty
    obtain ⟨wrs, total⟩ := held.ledger.counted
    rw [Qp.heldWrs, empty] at wrs
    rw [Qp.heldFrames, empty] at total
    have available := (windowAvailable_idle (held.knobs ▸ range) some_ counted.lt live wrs
      total).mpr (held.knobs ▸ admits)
    rw [full] at available
    cases available
  obtain ⟨x, among⟩ := List.exists_mem_of_ne_nil _ some_held
  exact ⟨x, among, held.ledger.holder_ne held.released waits among⟩

/-- An idle window takes the next work request exactly under these knobs. -/
theorem always_admits_iff (k : Knobs) (frames : Nat) (range : k.U32)
    (counted : k.IsFrameCount frames) (some_ : 1 ≤ frames) :
    AlwaysAdmits k frames ↔ k.AdmitsIdle frames := by
  constructor
  · intro always
    have live : ({ knobs := k, maxSendWr := 1, state := .rts } : Qp).stopping = false := rfl
    obtain ⟨q', wr, charge, acquired, -⟩ := always.idle _ 0 rfl live rfl rfl
    have available := Option.isSome_of_eq_some acquired
    rw [isSome_tryAcquireWindow] at available
    exact (windowAvailable_idle range some_ counted.lt live rfl rfl).mp available
  · intro admits
    refine ⟨fun q s same live wrs held => admits.idle range counted some_ same live wrs held s,
      fun _ st _ s => isSome_tryAcquireWindow st.shared s frames, fun _ st reached s waits full => ?_⟩
    exact admits.blocked range counted some_ (held_of_reached reached) waits full

theorem always_admits_iff_default :
    (Knobs.U32 {} ∧ Knobs.IsFrameCount {} 8 ∧ 1 ≤ 8) ∧
      (AlwaysAdmits {} 8 ↔ Knobs.AdmitsIdle {} 8) :=
  have counted : Knobs.IsFrameCount {} 8 := ⟨32768, by decide, rfl⟩
  have range : Knobs.U32 {} := ⟨by decide, by decide, by decide, by decide⟩
  ⟨⟨range, counted, by decide⟩, always_admits_iff {} 8 range counted (by decide)⟩

/-- A group of 8 frames and a budget of 4: a send of 8 frames waits for a release
that nobody owes. -/
theorem idle_window_refuses : ¬ ∀ (k : Knobs) (frames : Nat), k.U32 → k.IsFrameCount frames →
    1 ≤ frames → AlwaysAdmits k frames := by
  intro always
  have admits := always { groupFrames := 8, budgetFrames := 4 } 8
    ⟨by decide, by decide, by decide, by decide⟩ ⟨32768, by decide, rfl⟩ (by decide)
  obtain ⟨q', wr, charge, acquired, -⟩ := admits.idle
    { knobs := { groupFrames := 8, budgetFrames := 4 }, maxSendWr := 1, state := .rts } 0 rfl rfl rfl rfl
  cases acquired

end Admits

end Tbv.Sq
