import ThunderboltIbverbs.Sq.Model

/-! # What a section of the send queue does to the window -/
set_option autoImplicit false
namespace Tbv.Sq

open Threads

/-- What the window reads of a context. -/
structure SendCtx.SameWindow (c c' : SendCtx) : Prop where
  acquired : c'.windowAcquired = c.windowAcquired
  wr : c'.windowWrAcquired = c.windowWrAcquired
  frames : c'.windowFrames = c.windowFrames
  completed : c'.completed = c.completed

/-- The window, its contexts and its history are the same. -/
structure Calm (q q' : Qp) : Prop where
  inflight : q'.txInflight = q.txInflight
  frames : q'.txInflightFrames = q.txInflightFrames
  ledger : q'.ledger = q.ledger
  posted : q'.posted = q.posted
  sends : ∀ s, (q.sends s).SameWindow (q'.sends s)

theorem SendCtx.SameWindow.refl (c : SendCtx) : c.SameWindow c := ⟨rfl, rfl, rfl, rfl⟩

theorem SendCtx.SameWindow.trans {a b c : SendCtx} (one : a.SameWindow b) (two : b.SameWindow c) :
    a.SameWindow c :=
  ⟨two.acquired.trans one.acquired, two.wr.trans one.wr, two.frames.trans one.frames,
    two.completed.trans one.completed⟩

theorem Calm.refl (q : Qp) : Calm q q := ⟨rfl, rfl, rfl, rfl, fun _ => .refl _⟩

theorem Calm.trans {a b c : Qp} (one : Calm a b) (two : Calm b c) : Calm a c :=
  ⟨two.inflight.trans one.inflight, two.frames.trans one.frames, two.ledger.trans one.ledger,
    two.posted.trans one.posted, fun s => (one.sends s).trans (two.sends s)⟩

theorem calm_modCtx {q : Qp} {s : Nat} {change : SendCtx → SendCtx}
    (same : ∀ c : SendCtx, c.SameWindow (change c)) : Calm q (q.modCtx s change) := by
  refine ⟨rfl, rfl, rfl, rfl, fun other => ?_⟩
  by_cases this : other = s
  · subst this
    simpa [Qp.modCtx] using same _
  · simpa [Qp.modCtx, this] using SendCtx.SameWindow.refl _

theorem calm_changed {q p : Qp} {s : Nat} {change : SendCtx → SendCtx}
    (inflight : p.txInflight = q.txInflight) (frames : p.txInflightFrames = q.txInflightFrames)
    (ledger : p.ledger = q.ledger) (posted : p.posted = q.posted) (sends : p.sends = q.sends)
    (same : ∀ c : SendCtx, c.SameWindow (change c)) : Calm q (p.modCtx s change) := by
  have first : Calm q p := ⟨inflight, frames, ledger, posted, fun s => sends ▸ .refl _⟩
  exact first.trans (calm_modCtx same)

theorem sameWindow_markReady (c : SendCtx) (status : Int) : c.SameWindow (c.markReady status) := by
  unfold SendCtx.markReady
  split <;> exact ⟨rfl, rfl, rfl, rfl⟩

theorem calm_takeOff (q : Qp) (left gone : List Nat) :
    Calm q ({ q with pendingSends := left }.takeOff gone) := by
  refine ⟨rfl, rfl, rfl, rfl, fun s => ?_⟩
  simp only [Qp.takeOff]
  split <;> exact ⟨rfl, rfl, rfl, rfl⟩

theorem calm_unqueueSend (q : Qp) (s : Nat) : Calm q (q.unqueueSend s).1 := by
  unfold Qp.unqueueSend
  split
  · exact calm_takeOff q _ [s]
  · exact .refl q

theorem calm_drainReady (q : Qp) : Calm q q.drainReady.1 := calm_takeOff q _ _

theorem calm_completeSendOrdered (q : Qp) (psn : Nat) (status : Int) :
    Calm q (q.completeSendOrdered psn status).1 := by
  unfold Qp.completeSendOrdered
  split
  · exact .refl q
  · exact (calm_modCtx fun c => sameWindow_markReady c status).trans (calm_drainReady _)

theorem calm_flushSends (q : Qp) : Calm q q.flushSends.1 := by
  refine ⟨rfl, rfl, rfl, rfl, fun s => ?_⟩
  simp only [Qp.flushSends]
  split
  · have ready := sameWindow_markReady (q.sends s) ecanceled
    exact ready.trans ⟨rfl, rfl, rfl, rfl⟩
  · exact .refl _

theorem calm_reap (expired : List Nat) (r : Reaped) (s : Nat) :
    Calm r.qp (r.send expired s).qp := by
  unfold Reaped.send
  dsimp only
  split
  · exact .refl _
  · split
    · dsimp only
      refine calm_modCtx ?_
      exact fun c => ⟨rfl, rfl, rfl, rfl⟩
    · exact (calm_modCtx fun c => sameWindow_markReady c etimedout).trans (calm_drainReady _)

/-- What holds before the reaper looks at the first send and is kept at each. -/
theorem reapTx_invariant {P : Reaped → Prop} {q : Qp} (expired : List Nat)
    (atStart : P { qp := q }) (kept : ∀ r s, P r → P (r.send expired s)) :
    P (q.reapTx expired) :=
  List.foldlRecOn q.pendingSends _ atStart fun r inv s _ => kept r s inv

theorem calm_reapTx (q : Qp) (expired : List Nat) : Calm q (q.reapTx expired).qp :=
  reapTx_invariant (P := fun r => Calm q r.qp) expired (.refl q) fun r s calm =>
    calm.trans (calm_reap expired r s)

theorem reap_appleSq (expired : List Nat) (r : Reaped) (s : Nat) :
    (r.send expired s).qp.appleSq = r.qp.appleSq := by
  unfold Reaped.send
  dsimp only
  split
  · rfl
  · split <;> rfl

theorem reapTx_appleSq (q : Qp) (expired : List Nat) : (q.reapTx expired).qp.appleSq = q.appleSq :=
  reapTx_invariant (P := fun r => r.qp.appleSq = q.appleSq) expired rfl fun r s same =>
    (reap_appleSq expired r s).trans same

theorem calm_retryPosted {q q' : Qp} {s : Nat} {sends gone : List Nat} {failed : Bool}
    {ret : Choice} {pushed : List Frame}
    (ran : execRetryPosted q s sends failed gone ret = some (q', pushed)) :
    Calm q q' ∧ ∃ failed gone, pushed = [.retry sends failed gone] := by
  simp only [execRetryPosted] at ran
  generalize isPosted : (if ret = 0 then
    q.modCtx s fun c => { c with txPending := c.txPending + 1 } else q) = p at ran
  have first : Calm q p := by
    rw [← isPosted]
    split
    · refine calm_modCtx ?_
      exact fun c => ⟨rfl, rfl, rfl, rfl⟩
    · exact .refl q
  repeat' split at ran
  all_goals cases ran
  all_goals refine ⟨first.trans ?_, _, _, rfl⟩
  case isTrue.isFalse.isFalse.isFalse =>
    exact (calm_modCtx fun c => sameWindow_markReady c etimedout).trans (calm_drainReady _)
  all_goals refine calm_modCtx ?_
  all_goals exact fun c => ⟨rfl, rfl, rfl, rfl⟩

section Release
variable (q : Qp) (s frames : Nat) (wr : Bool)

@[simp] theorem releaseWr_sends : (q.releaseWr s wr).sends = q.sends := by
  unfold Qp.releaseWr
  split <;> rfl

@[simp] theorem releaseWr_appleSq : (q.releaseWr s wr).appleSq = q.appleSq := by
  unfold Qp.releaseWr
  split <;> rfl

@[simp] theorem releaseWr_posted : (q.releaseWr s wr).posted = q.posted := by
  unfold Qp.releaseWr
  split <;> rfl

@[simp] theorem releaseFrames_sends : (q.releaseFrames s frames).sends = q.sends := by
  unfold Qp.releaseFrames
  split <;> rfl

@[simp] theorem releaseFrames_appleSq : (q.releaseFrames s frames).appleSq = q.appleSq := by
  unfold Qp.releaseFrames
  split <;> rfl

@[simp] theorem releaseFrames_posted : (q.releaseFrames s frames).posted = q.posted := by
  unfold Qp.releaseFrames
  split <;> rfl

end Release

/-! ## Entries and charges -/

/-- The queue entry of a send is still to be queued, or a worker has it and has not marked the
send. -/
def entryOf : Frame → Option Nat
  | .takePsn s | .queueSend s | .queueEntry s | .transmit s | .lookup s | .findPath s
  | .tryAcquire s | .reserve s _ _ | .giveBack s _ _ _ | .giveBackFrames s _ _ | .mark s _ _ =>
      some s
  | _ => none

def entryWeight (s : Nat) (frame : Frame) : Nat := if entryOf frame = some s then 1 else 0

/-- What a thread has acquired, or has still to release. -/
def chargesOf : Frame → List Charge
  | .reserve s wr frames | .giveBack s wr frames _ | .mark s wr frames => charges s wr frames
  | .giveBackFrames s frames _ | .releaseFrames s frames => charges s false frames
  | _ => []

def chargeWeight (x : Charge) (frame : Frame) : Nat := (chargesOf frame).count x

/-- What a section does to the window. -/
inductive Windowing (q : Qp) : Frame → Qp → List Frame → Prop
  | calm {frame : Frame} {q' : Qp} {pushed : List Frame} (same : Calm q q')
      (entries : ∀ s, q'.appleSq.count s + weigh (entryWeight s) pushed ≤
        q.appleSq.count s + entryWeight s frame)
      (carries : ∀ x, weigh (chargeWeight x) pushed = chargeWeight x frame)
      (quiet : ∀ s, frame ≠ .releaseWindow s) : Windowing q frame q' pushed
  | admits (length : Nat) (signaled : Bool) : Windowing q (.reserveSlot length signaled)
      { q with
        posted := q.posted + 1
        slots := q.slots + 1
        sends := Function.update q.sends q.posted { length, signaled, slotCounted := true } }
      [.takePsn q.posted]
  | acquires (s : Nat) (wr : Bool) (frames : Nat) :
      Windowing q (.tryAcquire s) (q.acquire s wr frames) [.reserve s wr frames]
  | givesBack (s : Nat) (wr : Bool) (frames : Nat) (ret : Int) :
      Windowing q (.giveBack s wr frames ret) (q.releaseWr s wr) [.giveBackFrames s frames ret]
  | givesBackFrames (s frames : Nat) (ret : Int) {pushed : List Frame}
      (next : pushed = [.lookup s] ∨ pushed = [.transmitFailed s ret]) :
      Windowing q (.giveBackFrames s frames ret) (q.releaseFrames s frames) pushed
  | marks (s : Nat) (wr : Bool) (frames chunks : Nat) :
      Windowing q (.mark s wr frames) (q.markHolder s wr frames) [.arm s, .nextChunk s chunks 0 0]
  | completes (s : Nat) (status : Int) : Windowing q (.complete s status)
      (q.modCtx s fun c => { c with completed := true })
      [.releaseSlot s, .releaseWindow s, .pushWc s status]
  | releases (s : Nat) (holds : (q.sends s).windowAcquired = true) :
      Windowing q (.releaseWindow s)
        ((q.releaseWr s (q.sends s).windowWrAcquired).modCtx s
          fun c => { c with windowAcquired := false })
        [.releaseFrames s (q.sends s).windowFrames]
  | holdsNothing (s : Nat) (free : (q.sends s).windowAcquired = false) :
      Windowing q (.releaseWindow s) q []
  | releasesFrames (s frames : Nat) :
      Windowing q (.releaseFrames s frames) (q.releaseFrames s frames) []

section Cases
variable {q q' : Qp} {pushed : List Frame} {choice : Choice}

theorem Windowing.of_calm {frame : Frame} (same : Calm q q') (entries : q'.appleSq = q.appleSq)
    (hands : ∀ s, weigh (entryWeight s) pushed ≤ entryWeight s frame)
    (carries : ∀ x, weigh (chargeWeight x) pushed = chargeWeight x frame)
    (quiet : ∀ s, frame ≠ .releaseWindow s) : Windowing q frame q' pushed := by
  refine .calm same (fun s => ?_) carries quiet
  rw [entries]
  exact Nat.add_le_add_left (hands s) _

theorem Windowing.of_light {frame : Frame} (same : Calm q q') (entries : q'.appleSq = q.appleSq)
    (light : ∀ next ∈ pushed, entryOf next = none ∧ chargesOf next = [])
    (none : chargesOf frame = []) (quiet : ∀ s, frame ≠ .releaseWindow s) :
    Windowing q frame q' pushed := by
  refine .of_calm same entries (fun s => ?_) (fun x => ?_) quiet
  · rw [weigh_eq_zero fun next among => by simp [entryWeight, (light next among).1]]
    exact Nat.zero_le _
  · rw [weigh_eq_zero fun next among => by simp [chargeWeight, (light next among).2], chargeWeight,
      none]
    rfl

theorem execTryAcquire_windowing {s : Nat} (ran : execTryAcquire q s = some (q', pushed)) :
    Windowing q (.tryAcquire s) q' pushed := by
  have hands : ∀ {next : Frame}, entryOf next = some s →
      ∀ other, weigh (entryWeight other) [next] ≤ entryWeight other (.tryAcquire s) := by
    intro next same other
    have this : entryOf (.tryAcquire s) = some s := rfl
    simp [entryWeight, same, this]
  simp only [execTryAcquire] at ran
  split at ran
  · cases ran
    exact .of_calm (.refl q) rfl (hands rfl) (by simp [chargeWeight, chargesOf, charges]) nofun
  · split at ran
    · cases ran
      exact .of_calm (.refl q) rfl (by simp [entryWeight, entryOf])
        (by simp [chargeWeight, chargesOf]) nofun
    · split at ran <;> cases ran
      · exact .acquires s _ _
      · exact .of_calm (.refl q) rfl (hands rfl) (by simp [chargeWeight, chargesOf]) nofun

theorem weightless_map {make : Nat → Frame} (sends : List Nat)
    (light : ∀ s, entryOf (make s) = none ∧ chargesOf (make s) = []) :
    ∀ next ∈ sends.map make, entryOf next = none ∧ chargesOf next = [] := by
  intro next among
  obtain ⟨s, -, rfl⟩ := List.mem_map.mp among
  exact light s

theorem reserveSlot_windowing {length : Nat} {signaled : Bool}
    (ran : exec q (.reserveSlot length signaled) choice = some (q', pushed)) :
    Windowing q (.reserveSlot length signaled) q' pushed := by
  simp only [exec] at ran
  repeat' split at ran
  all_goals cases ran
  · exact .of_light (.refl q) rfl (by simp) rfl nofun
  · exact .of_light (.refl q) rfl (by simp) rfl nofun
  · exact .admits length signaled

theorem pop_windowing
    (ran : exec q .pop choice = some (q', pushed)) :
    Windowing q .pop q' pushed := by
  simp only [exec] at ran
  split at ran <;> cases ran
  · exact .of_light (.refl q) rfl (by simp) rfl nofun
  · rename_i s rest queue
    refine .calm ⟨rfl, rfl, rfl, rfl, fun _ => .refl _⟩ (fun other => ?_)
      (by simp [chargeWeight, chargesOf]) nofun
    simp [queue, entryWeight, entryOf, List.count_cons]

theorem transmit_windowing {s : Nat}
    (ran : exec q (.transmit s) choice = some (q', pushed)) :
    Windowing q (.transmit s) q' pushed := by
  simp only [exec] at ran
  split at ran <;> cases ran
  · exact .of_light (.refl q) rfl (by simp [entryOf, chargesOf]) rfl nofun
  · exact .of_calm (.refl q) rfl (by simp [entryWeight, entryOf])
      (by simp [chargeWeight, chargesOf]) nofun

theorem giveBackFrames_windowing {s frames : Nat} {ret : Int}
    (ran : exec q (.giveBackFrames s frames ret) choice = some (q', pushed)) :
    Windowing q (.giveBackFrames s frames ret) q' pushed := by
  cases ran
  refine .givesBackFrames s frames ret ?_
  split
  · exact .inl rfl
  · exact .inr rfl

theorem arm_windowing {s : Nat}
    (ran : exec q (.arm s) choice = some (q', pushed)) :
    Windowing q (.arm s) q' pushed := by
  cases ran
  refine .of_light ?_ ?_ (by simp) rfl nofun
  · split
    · exact calm_modCtx fun c => ⟨rfl, rfl, rfl, rfl⟩
    · exact .refl q
  · split <;> rfl

theorem nextChunk_windowing {s chunks posted group : Nat}
    (ran : exec q (.nextChunk s chunks posted group) choice = some (q', pushed)) :
    Windowing q (.nextChunk s chunks posted group) q' pushed := by
  simp only [exec] at ran
  repeat' split at ran
  all_goals cases ran
  all_goals refine .of_light (.refl q) rfl ?_ rfl nofun
  all_goals simp [entryOf, chargesOf]

theorem post_windowing {s pieces chunks posted group : Nat}
    (ran : exec q (.post s pieces chunks posted group) choice = some (q', pushed)) :
    Windowing q (.post s pieces chunks posted group) q' pushed := by
  simp only [exec, execPost] at ran
  repeat' split at ran
  all_goals cases ran
  all_goals refine .of_light ⟨rfl, rfl, rfl, rfl, fun _ => .refl _⟩ rfl ?_ rfl nofun
  · simp [entryOf, chargesOf]
  · simp [entryOf, chargesOf]
  · simp only [nextAfter]
    split <;> simp [entryOf, chargesOf]

theorem waitGroup_windowing {s chunks posted : Nat}
    (ran : exec q (.waitGroup s chunks posted) choice = some (q', pushed)) :
    Windowing q (.waitGroup s chunks posted) q' pushed := by
  simp only [exec, execWaitGroup] at ran
  repeat' split at ran
  all_goals cases ran
  all_goals refine .of_light (.refl q) rfl ?_ rfl nofun
  all_goals simp [entryOf, chargesOf]

theorem releaseSlot_windowing {s : Nat}
    (ran : exec q (.releaseSlot s) choice = some (q', pushed)) :
    Windowing q (.releaseSlot s) q' pushed := by
  simp only [exec] at ran
  split at ran <;> cases ran
  · refine .of_light (calm_changed rfl rfl rfl rfl rfl ?_) rfl (by simp) rfl nofun
    exact fun c => ⟨rfl, rfl, rfl, rfl⟩
  · exact .of_light (.refl q) rfl (by simp) rfl nofun

theorem releaseWindow_windowing {s : Nat}
    (ran : exec q (.releaseWindow s) choice = some (q', pushed)) :
    Windowing q (.releaseWindow s) q' pushed := by
  simp only [exec, execReleaseWindow] at ran
  split at ran <;> cases ran
  · rename_i holds
    exact .releases s holds
  · rename_i free
    exact .holdsNothing s (by simpa using free)

theorem pushWc_windowing {s : Nat} {status : Int}
    (ran : exec q (.pushWc s status) choice = some (q', pushed)) :
    Windowing q (.pushWc s status) q' pushed := by
  cases ran
  refine .of_light ?_ ?_ (by simp) rfl nofun
  · split
    · exact ⟨rfl, rfl, rfl, rfl, fun _ => .refl _⟩
    · exact .refl q
  · split <;> rfl

theorem completeOrdered_windowing {psn : Nat} {status : Int} {delays : Bool}
    (ran : exec q (.completeOrdered psn status delays) choice = some (q', pushed)) :
    Windowing q (.completeOrdered psn status delays) q' pushed := by
  cases ran
  refine .of_light (calm_completeSendOrdered q psn status) ?_ ?_ rfl nofun
  · unfold Qp.completeSendOrdered
    split <;> rfl
  · split
    · simp [entryOf, chargesOf]
    · exact weightless_map _ fun s => ⟨rfl, rfl⟩

theorem completeSends_windowing {sends : List Nat}
    (ran : exec q (.completeSends sends) choice = some (q', pushed)) :
    Windowing q (.completeSends sends) q' pushed := by
  cases sends with
  | nil =>
      cases ran
      exact .of_light (.refl q) rfl (by simp) rfl nofun
  | cons s rest =>
      simp only [exec] at ran
      split at ran <;> cases ran
      · refine .of_light ⟨rfl, rfl, rfl, rfl, fun _ => .refl _⟩ rfl ?_ rfl nofun
        simp [entryOf, chargesOf]
      · exact .of_light (.refl q) rfl (by simp [entryOf, chargesOf]) rfl nofun

theorem sendTxDone_windowing {s : Nat} {status : Int}
    (ran : exec q (.sendTxDone s status) choice = some (q', pushed)) :
    Windowing q (.sendTxDone s status) q' pushed := by
  cases ran
  refine .of_light (calm_modCtx ?_) rfl ?_ rfl nofun
  · exact fun c => ⟨rfl, rfl, rfl, rfl⟩
  · repeat' split
    all_goals simp [entryOf, chargesOf]

theorem retry_windowing {sends : List Nat} {failed : Bool} {gone : List Nat}
    (ran : exec q (.retry sends failed gone) choice = some (q', pushed)) :
    Windowing q (.retry sends failed gone) q' pushed := by
  cases sends with
  | nil =>
      cases ran
      refine .of_light (.refl q) rfl (fun next among => ?_) rfl nofun
      rcases List.mem_append.mp among with first | later
      · split at first
        · cases List.mem_singleton.mp first
          exact ⟨rfl, rfl⟩
        · cases first
      · exact weightless_map gone (fun s => ⟨rfl, rfl⟩) next later
  | cons s rest =>
      simp only [exec] at ran
      split at ran <;> cases ran
      · exact .of_light (.refl q) rfl (by simp [entryOf, chargesOf]) rfl nofun
      · refine .of_light (calm_modCtx ?_) rfl (by simp [entryOf, chargesOf]) rfl nofun
        exact fun c => ⟨rfl, rfl, rfl, rfl⟩

theorem retryPosted_windowing {s : Nat} {sends : List Nat} {failed : Bool} {gone : List Nat}
    (ran : exec q (.retryPosted s sends failed gone) choice = some (q', pushed)) :
    Windowing q (.retryPosted s sends failed gone) q' pushed := by
  obtain ⟨same, _, _, rfl⟩ := calm_retryPosted ran
  refine .of_light same ?_ (by simp [entryOf, chargesOf]) rfl nofun
  simp only [exec, execRetryPosted] at ran
  repeat' split at ran
  all_goals cases ran
  all_goals rfl

theorem markError_windowing
    (ran : exec q .markError choice = some (q', pushed)) :
    Windowing q .markError q' pushed := by
  simp only [exec] at ran
  split at ran <;> cases ran
  · refine .of_light ⟨rfl, rfl, rfl, rfl, fun _ => .refl _⟩ rfl ?_ rfl nofun
    simp [flush, entryOf, chargesOf]
  · exact .of_light (.refl q) rfl (by simp) rfl nofun

theorem flushSq_windowing
    (ran : exec q .flushSq choice = some (q', pushed)) :
    Windowing q .flushSq q' pushed := by
  cases ran
  refine .calm ⟨rfl, rfl, rfl, rfl, fun _ => .refl _⟩ (fun other => ?_) (fun x => ?_) nofun
  · rw [weigh_eq_zero fun next among => by
      simp [entryWeight, (weightless_map q.appleSq (fun s => ⟨rfl, rfl⟩) next among).1]]
    exact Nat.zero_le _
  · rw [weigh_eq_zero fun next among => by
      simp [chargeWeight, (weightless_map q.appleSq (fun s => ⟨rfl, rfl⟩) next among).2]]
    rfl

theorem exec_windowing {frame : Frame}
    (ran : exec q frame choice = some (q', pushed)) : Windowing q frame q' pushed := by
  cases frame with
  | reserveSlot length signaled => exact reserveSlot_windowing ran
  | takePsn s =>
      cases ran
      refine .of_calm (calm_changed rfl rfl rfl rfl rfl ?_) rfl (by simp [entryWeight, entryOf])
        (by simp [chargeWeight, chargesOf]) nofun
      exact fun c => ⟨rfl, rfl, rfl, rfl⟩
  | queueSend s =>
      cases ran
      refine .of_calm (calm_changed rfl rfl rfl rfl rfl ?_) rfl (by simp [entryWeight, entryOf])
        (by simp [chargeWeight, chargesOf]) nofun
      exact fun c => ⟨rfl, rfl, rfl, rfl⟩
  | queueEntry s =>
      cases ran
      refine .calm ⟨rfl, rfl, rfl, rfl, fun _ => .refl _⟩ (fun other => ?_)
        (by simp [chargeWeight, chargesOf]) nofun
      simp [entryWeight, entryOf, List.count_singleton]
  | pop => exact pop_windowing ran
  | transmit s => exact transmit_windowing ran
  | lookup s | findPath s | reserve s wr frames =>
      cases ran
      refine .of_calm (.refl q) rfl (fun other => ?_) (fun x => ?_) nofun
      · split <;> simp [entryWeight, entryOf]
      · split <;> simp [chargeWeight, chargesOf]
  | tryAcquire s => exact execTryAcquire_windowing ran
  | giveBack s wr frames ret =>
      cases ran
      exact .givesBack s wr frames ret
  | giveBackFrames s frames ret => exact giveBackFrames_windowing ran
  | mark s wr frames =>
      cases ran
      exact .marks s wr frames _
  | arm s => exact arm_windowing ran
  | nextChunk s chunks posted group => exact nextChunk_windowing ran
  | post s pieces chunks posted group => exact post_windowing ran
  | waitGroup s chunks posted => exact waitGroup_windowing ran
  | transmitFailed s ret | flushEntry s =>
      cases ran
      refine .of_light (calm_unqueueSend q s) ?_ ?_ rfl nofun
      · unfold Qp.unqueueSend
        split <;> rfl
      · split <;> simp [entryOf, chargesOf]
  | complete s status =>
      simp only [exec] at ran
      split at ran <;> cases ran
      · exact .of_light (.refl q) rfl (by simp) rfl nofun
      · exact .completes s status
  | releaseSlot s => exact releaseSlot_windowing ran
  | releaseWindow s => exact releaseWindow_windowing ran
  | releaseFrames s frames =>
      cases ran
      exact .releasesFrames s frames
  | pushWc s status => exact pushWc_windowing ran
  | appleTxDone s status =>
      cases ran
      refine .of_light (calm_modCtx ?_) rfl ?_ rfl nofun
      · exact fun c => ⟨rfl, rfl, rfl, rfl⟩
      · split <;> simp [entryOf, chargesOf]
  | completeOrdered psn status delays => exact completeOrdered_windowing ran
  | completeSends sends => exact completeSends_windowing ran
  | sendTxDone s status => exact sendTxDone_windowing ran
  | reap expired =>
      cases ran
      exact .of_light (calm_reapTx q expired) (reapTx_appleSq q expired)
        (by simp [entryOf, chargesOf]) rfl nofun
  | retry sends failed gone => exact retry_windowing ran
  | retryPosted s sends failed gone => exact retryPosted_windowing ran
  | completeStatus s =>
      cases ran
      exact .of_light (.refl q) rfl (by simp [entryOf, chargesOf]) rfl nofun
  | markError => exact markError_windowing ran
  | flushSq => exact flushSq_windowing ran
  | flushSends =>
      cases ran
      exact .of_light (calm_flushSends q) rfl (weightless_map _ fun s => ⟨rfl, rfl⟩) rfl nofun

end Cases

theorem Windowing.entries_le {q q' : Qp} {frame : Frame} {pushed : List Frame}
    (windowing : Windowing q frame q' pushed) {s : Nat} (old : s < q.posted) :
    q'.appleSq.count s + weigh (entryWeight s) pushed ≤ q.appleSq.count s + entryWeight s frame := by
  cases windowing with
  | calm same entries carries quiet => exact entries s
  | admits length signaled =>
      have other : q.posted ≠ s := Nat.ne_of_gt old
      simp [entryWeight, entryOf, other]
  | givesBackFrames s' frames ret next =>
      rcases next with rfl | rfl <;> simp [entryWeight, entryOf]
  | _ => simp [Qp.acquire, Qp.markHolder, Qp.modCtx, entryWeight, entryOf]

theorem Windowing.posted_le {q q' : Qp} {frame : Frame} {pushed : List Frame}
    (windowing : Windowing q frame q' pushed) : q.posted ≤ q'.posted := by
  cases windowing with
  | calm same entries carries quiet => exact Nat.le_of_eq same.posted.symm
  | admits length signaled => exact Nat.le_succ _
  | _ => simp [Qp.acquire, Qp.markHolder, Qp.modCtx]

theorem react_light {q q' : Qp} {event : Event} {code : List Frame}
    (reacted : react q event = some (q', code)) :
    Calm q q' ∧ q'.appleSq = q.appleSq ∧ ∀ next ∈ code, entryOf next = none ∧ chargesOf next = [] := by
  have same : ∀ {p : Qp}, p.txInflight = q.txInflight → p.txInflightFrames = q.txInflightFrames →
      p.ledger = q.ledger → p.posted = q.posted → p.sends = q.sends → Calm q p :=
    fun inflight frames ledger posted sends =>
      ⟨inflight, frames, ledger, posted, fun s => sends ▸ .refl _⟩
  cases event with
  | modify next sqPsn =>
      cases reacted
      refine ⟨same rfl rfl rfl rfl rfl, rfl, ?_⟩
      split <;> simp [flush, entryOf, chargesOf]
  | _ =>
      simp only [react] at reacted
      repeat' split at reacted
      all_goals cases reacted
      all_goals refine ⟨same rfl rfl rfl rfl rfl, rfl, ?_⟩
      all_goals simp [flush, entryOf, chargesOf]

end Tbv.Sq
