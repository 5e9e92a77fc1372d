import ThunderboltIbverbs.Lib.Solo
import ThunderboltIbverbs.Sq.Admission

/-! # The worker of the send queue

`tbv_apple_sq_work` is a work item: it never runs beside itself, so one thread at most has its
sections.  It takes the sends off the queue in order and hands the frames of each to the path in
order, unless it gives up in between. -/
set_option autoImplicit false
namespace Tbv.Sq

open Threads Trans

/-- The sections of `tbv_apple_sq_work`. -/
def Frame.works : Frame → Bool
  | .pop | .transmit _ | .lookup _ | .findPath _ | .tryAcquire _ | .reserve _ _ _
  | .giveBack _ _ _ _ | .giveBackFrames _ _ _ | .mark _ _ _ | .nextChunk _ _ _ _
  | .post _ _ _ _ _ | .waitGroup _ _ _ => true
  | _ => false

/-- The worker has a send and has not come to its frames. -/
def Frame.before : Frame → Option Nat
  | .transmit s | .lookup s | .findPath s | .tryAcquire s | .reserve s _ _ | .giveBack s _ _ _
  | .giveBackFrames s _ _ | .mark s _ _ => some s
  | _ => none

/-- The worker is among the frames of a send: how many are left and how many are handed over. -/
def Frame.amid : Frame → Option (Nat × Nat × Nat)
  | .nextChunk s chunks posted _ | .waitGroup s chunks posted => some (s, chunks, posted)
  | .post s 1 (chunks + 1) posted _ => some (s, chunks + 1, posted)
  | _ => none

def Frame.entering : Frame → Option Nat
  | .takePsn s | .queueSend s | .queueEntry s => some s
  | _ => none

def SameLengths (q q' : Qp) : Prop := ∀ s, (q'.sends s).length = (q.sends s).length

/-- The messages and the queue are the same. -/
structure Plain (q q' : Qp) : Prop where
  posted : q'.posted = q.posted
  queue : q'.appleSq = q.appleSq
  lengths : SameLengths q q'

/-- The number of frames of a message. -/
def pieces (length : Nat) : Nat := (length + appleFrameSize - 1) / appleFrameSize

/-- What a section does to the queue and to the worker's place in it. -/
inductive Working (q : Qp) : Frame → Choice → Qp → List Frame → Prop
  | apart {frame : Frame} {choice : Choice} {q' : Qp} {pushed : List Frame}
      (outside : frame.works = false) (noEntry : ∀ s, frame ≠ .queueEntry s)
      (quiet : ∀ next ∈ pushed, next.works = false)
      (posted : q'.posted = q.posted) (queue : q'.appleSq = q.appleSq ∨ q'.appleSq = [])
      (lengths : SameLengths q q') (entries : pushed.filterMap Frame.entering = frame.entering.toList) :
      Working q frame choice q' pushed
  | admits (length : Nat) (signaled : Bool) (choice : Choice) :
      Working q (.reserveSlot length signaled) choice
        { q with
          posted := q.posted + 1
          slots := q.slots + 1
          sends := Function.update q.sends q.posted { length, signaled, slotCounted := true } }
        [.takePsn q.posted]
  | enters (s : Nat) (choice : Choice) :
      Working q (.queueEntry s) choice { q with appleSq := q.appleSq ++ [s] } []
  | rests (choice : Choice) : Working q .pop choice q []
  | pops {s : Nat} {rest : List Nat} (queue : q.appleSq = s :: rest) (choice : Choice) :
      Working q .pop choice { q with appleSq := rest } [.transmit s, .pop]
  | goesOn {frame next : Frame} {s : Nat} {choice : Choice} {q' : Qp} (same : Plain q q')
      (one : frame.before = some s) (two : next.before = some s) :
      Working q frame choice q' [next]
  | fails {frame : Frame} {s : Nat} {choice : Choice} {q' : Qp} (ret : Int) (same : Plain q q')
      (sends : frame.before = some s ∨ ∃ chunks posted, frame.amid = some (s, chunks, posted))
      (refused : ∀ t count chunks posted group, frame = .post t count chunks posted group →
        choice ≠ 0) :
      Working q frame choice q' [.transmitFailed s ret]
  | begins (s : Nat) (wr : Bool) (frames : Nat) (choice : Choice) :
      Working q (.mark s wr frames) choice (q.markHolder s wr frames)
        [.arm s, .nextChunk s (pieces (q.sends s).length) 0 0]
  | ends (s posted group : Nat) (choice : Choice) :
      Working q (.nextChunk s 0 posted group) choice q []
  | moves {frame next : Frame} {s chunks posted : Nat} {choice : Choice}
      (one : frame.amid = some (s, chunks, posted)) (two : next.amid = some (s, chunks, posted))
      (handed : ∀ t count chunks posted group, frame ≠ .post t count chunks posted group) :
      Working q frame choice q [next]
  | hands {s chunks posted group : Nat} {next : Frame} {q' : Qp} (same : Plain q q')
      (onPath : q'.onPath = q.onPath ++ [s])
      (after : next.amid = some (s, chunks, posted + 1)) :
      Working q (.post s 1 (chunks + 1) posted group) 0 q' [next]

/-! ## Lengths -/

section Lengths
variable {q q' : Qp} {s : Nat}

theorem SameLengths.refl (q : Qp) : SameLengths q q := fun _ => rfl

theorem SameLengths.trans {a b c : Qp} (one : SameLengths a b) (two : SameLengths b c) :
    SameLengths a c := fun s => (two s).trans (one s)

theorem sameLengths_modCtx {change : SendCtx → SendCtx}
    (same : ∀ c : SendCtx, (change c).length = c.length) : SameLengths q (q.modCtx s change) := by
  intro other
  by_cases this : other = s
  · subst this
    simp [Qp.modCtx, same]
  · simp [Qp.modCtx, this]

theorem length_markReady (c : SendCtx) (status : Int) : (c.markReady status).length = c.length := by
  unfold SendCtx.markReady
  split <;> rfl

theorem sameLengths_takeOff (q : Qp) (left gone : List Nat) :
    SameLengths q ({ q with pendingSends := left }.takeOff gone) := by
  intro s
  simp only [Qp.takeOff]
  split <;> rfl

theorem sameLengths_unqueueSend (q : Qp) (s : Nat) : SameLengths q (q.unqueueSend s).1 := by
  unfold Qp.unqueueSend
  split
  · exact sameLengths_takeOff q _ [s]
  · exact .refl q

theorem sameLengths_drainReady (q : Qp) : SameLengths q q.drainReady.1 := sameLengths_takeOff q _ _

theorem sameLengths_markDrain (q : Qp) (s : Nat) (status : Int) :
    SameLengths q (q.modCtx s fun c => c.markReady status).drainReady.1 :=
  (sameLengths_modCtx fun c => length_markReady c status).trans (sameLengths_drainReady _)

theorem sameLengths_completeSendOrdered (q : Qp) (psn : Nat) (status : Int) :
    SameLengths q (q.completeSendOrdered psn status).1 := by
  unfold Qp.completeSendOrdered
  split
  · exact .refl q
  · exact sameLengths_markDrain q _ status

theorem sameLengths_flushSends (q : Qp) : SameLengths q q.flushSends.1 := by
  intro s
  simp only [Qp.flushSends]
  split
  · exact length_markReady _ _
  · rfl

theorem sameLengths_reap (expired : List Nat) (r : Reaped) (s : Nat) :
    SameLengths r.qp (r.send expired s).qp := by
  unfold Reaped.send
  dsimp only
  split
  · exact .refl _
  · split
    · dsimp only
      refine sameLengths_modCtx ?_
      exact fun c => rfl
    · exact sameLengths_markDrain _ _ _

theorem sameLengths_reapTx (q : Qp) (expired : List Nat) : SameLengths q (q.reapTx expired).qp :=
  reapTx_invariant (P := fun r => SameLengths q r.qp) expired (.refl q) fun r s same =>
    same.trans (sameLengths_reap expired r s)

end Lengths

/-! ## Sections -/

section Sections
variable {q q' : Qp} {pushed : List Frame} {choice : Choice}

theorem Plain.refl (q : Qp) : Plain q q := ⟨rfl, rfl, .refl q⟩

theorem Plain.modCtx {s : Nat} {change : SendCtx → SendCtx}
    (same : ∀ c : SendCtx, (change c).length = c.length) : Plain q (q.modCtx s change) :=
  ⟨rfl, rfl, sameLengths_modCtx same⟩

theorem Working.of_plain {frame : Frame} (outside : frame.works = false)
    (none : frame.entering = none) (same : Plain q q')
    (light : ∀ next ∈ pushed, next.works = false ∧ next.entering = .none) :
    Working q frame choice q' pushed := by
  refine .apart outside (fun s is => ?_) (fun next among => (light next among).1) same.posted
    (.inl same.queue) same.lengths ?_
  · subst is
    cases none
  rw [none, Option.toList_none, List.filterMap_eq_nil_iff]
  exact fun next among => (light next among).2

theorem light_map {make : Nat → Frame} (sends : List Nat)
    (light : ∀ s, (make s).works = false ∧ (make s).entering = none) :
    ∀ next ∈ sends.map make, next.works = false ∧ next.entering = none := by
  intro next among
  obtain ⟨s, -, rfl⟩ := List.mem_map.mp among
  exact light s

theorem plain_unqueueSend (q : Qp) (s : Nat) : Plain q (q.unqueueSend s).1 := by
  refine ⟨?_, ?_, sameLengths_unqueueSend q s⟩ <;> unfold Qp.unqueueSend <;> split <;> rfl

theorem plain_completeSendOrdered (q : Qp) (psn : Nat) (status : Int) :
    Plain q (q.completeSendOrdered psn status).1 := by
  refine ⟨?_, ?_, sameLengths_completeSendOrdered q psn status⟩ <;>
    unfold Qp.completeSendOrdered <;> split <;> rfl

theorem plain_reapTx (q : Qp) (expired : List Nat) : Plain q (q.reapTx expired).qp :=
  ⟨(calm_reapTx q expired).posted, reapTx_appleSq q expired, sameLengths_reapTx q expired⟩

theorem plain_retryPosted {s : Nat} {sends gone : List Nat} {failed : Bool}
    (ran : execRetryPosted q s sends failed gone choice = some (q', pushed)) :
    Plain q q' ∧ ∃ failed gone, pushed = [.retry sends failed gone] := by
  simp only [execRetryPosted] at ran
  generalize isPosted : (if choice = 0 then
    q.modCtx s fun c => { c with txPending := c.txPending + 1 } else q) = p at ran
  have first : Plain q p := by
    rw [← isPosted]
    split
    · refine .modCtx ?_
      exact fun c => rfl
    · exact .refl q
  have further : ∀ {r : Qp}, Plain p r → Plain q r := fun later =>
    ⟨later.posted.trans first.posted, later.queue.trans first.queue,
      first.lengths.trans later.lengths⟩
  repeat' split at ran
  all_goals cases ran
  all_goals refine ⟨further ?_, _, _, rfl⟩
  case isTrue.isFalse.isFalse.isFalse => exact ⟨rfl, rfl, sameLengths_markDrain _ _ _⟩
  all_goals refine .modCtx ?_
  all_goals exact fun c => rfl

theorem execTryAcquire_working {s : Nat} (ran : execTryAcquire q s = some (q', pushed)) :
    Working q (.tryAcquire s) choice q' pushed := by
  simp only [execTryAcquire] at ran
  repeat' split at ran
  all_goals cases ran
  · exact .goesOn (.refl q) rfl rfl
  · exact .fails _ (.refl q) (.inl rfl) (by simp)
  · exact .goesOn ⟨rfl, rfl, .refl q⟩ rfl rfl
  · exact .goesOn (.refl q) rfl rfl

/-- A post in the stream of the worker is one of a single frame that is left. -/
def Frame.Proper : Frame → Prop
  | .post _ pieces chunks _ _ => pieces = 1 ∧ chunks ≠ 0
  | _ => True

theorem reserveSlot_working {length : Nat} {signaled : Bool}
    (ran : exec q (.reserveSlot length signaled) choice = some (q', pushed)) :
    Working q (.reserveSlot length signaled) choice q' pushed := by
  simp only [exec] at ran
  repeat' split at ran
  all_goals cases ran
  · exact .of_plain rfl rfl (.refl q) (by simp)
  · exact .of_plain rfl rfl (.refl q) (by simp)
  · exact .admits length signaled choice

theorem pop_working
    (ran : exec q .pop choice = some (q', pushed)) :
    Working q .pop choice q' pushed := by
  simp only [exec] at ran
  split at ran <;> cases ran
  · exact .rests choice
  · rename_i s rest queue
    exact .pops queue choice

theorem giveBackFrames_working {s frames : Nat} {ret : Int}
    (ran : exec q (.giveBackFrames s frames ret) choice = some (q', pushed)) :
    Working q (.giveBackFrames s frames ret) choice q' pushed := by
  cases ran
  have same : Plain q (q.releaseFrames s frames) :=
    ⟨releaseFrames_posted .., releaseFrames_appleSq .., fun s => by simp⟩
  split
  · exact .goesOn same rfl rfl
  · exact .fails _ same (.inl rfl) (by simp)

theorem nextChunk_working {s chunks posted group : Nat}
    (streams : q.knobs.rawMode = false)
    (ran : exec q (.nextChunk s chunks posted group) choice = some (q', pushed)) :
    Working q (.nextChunk s chunks posted group) choice q' pushed := by
  simp only [exec, Qp.piecesPerChunk, streams, Bool.false_eq_true, if_false] at ran
  repeat' split at ran
  all_goals cases ran
  · rename_i nothing
    subst nothing
    exact .ends s posted group choice
  · exact .fails _ (.refl q) (.inr ⟨chunks, posted, rfl⟩) (by simp)
  · rename_i left _
    obtain ⟨chunks, rfl⟩ := Nat.exists_eq_succ_of_ne_zero left
    exact .moves rfl rfl (by simp)

theorem post_working {s pieces chunks posted group : Nat}
    (proper : Frame.Proper (.post s pieces chunks posted group))
    (ran : exec q (.post s pieces chunks posted group) choice = some (q', pushed)) :
    Working q (.post s pieces chunks posted group) choice q' pushed := by
  obtain ⟨rfl, left⟩ := proper
  obtain ⟨chunks, rfl⟩ := Nat.exists_eq_succ_of_ne_zero left
  simp only [exec, execPost] at ran
  repeat' split at ran
  all_goals cases ran
  · rename_i error
    exact .fails _ (.refl q) (.inr ⟨_, posted, rfl⟩) fun _ _ _ _ _ _ => error
  · rename_i many
    exact absurd many (Nat.lt_irrefl 1)
  · rename_i ok _
    rw [not_not] at ok
    subst ok
    refine .hands ⟨rfl, rfl, .refl q⟩ rfl ?_
    simp only [nextAfter]
    split <;> rfl

theorem waitGroup_working {s chunks posted : Nat}
    (ran : exec q (.waitGroup s chunks posted) choice = some (q', pushed)) :
    Working q (.waitGroup s chunks posted) choice q' pushed := by
  simp only [exec, execWaitGroup] at ran
  repeat' split at ran
  all_goals cases ran
  · exact .moves rfl rfl (by simp)
  · exact .fails _ (.refl q) (.inr ⟨chunks, posted, rfl⟩) (by simp)

theorem arm_working {s : Nat}
    (ran : exec q (.arm s) choice = some (q', pushed)) :
    Working q (.arm s) choice q' pushed := by
  cases ran
  refine .of_plain rfl rfl ?_ (by simp)
  split
  · refine .modCtx ?_
    exact fun c => rfl
  · exact .refl q

theorem complete_working {s : Nat} {status : Int}
    (ran : exec q (.complete s status) choice = some (q', pushed)) :
    Working q (.complete s status) choice q' pushed := by
  simp only [exec] at ran
  split at ran <;> cases ran
  · exact .of_plain rfl rfl (.refl q) (by simp)
  · refine .of_plain rfl rfl (.modCtx ?_) (by simp [Frame.works, Frame.entering])
    exact fun c => rfl

theorem releaseSlot_working {s : Nat}
    (ran : exec q (.releaseSlot s) choice = some (q', pushed)) :
    Working q (.releaseSlot s) choice q' pushed := by
  simp only [exec] at ran
  split at ran <;> cases ran
  · refine .of_plain rfl rfl ⟨rfl, rfl, ?_⟩ (by simp)
    exact sameLengths_modCtx fun c => rfl
  · exact .of_plain rfl rfl (.refl q) (by simp)

theorem releaseWindow_working {s : Nat}
    (ran : exec q (.releaseWindow s) choice = some (q', pushed)) :
    Working q (.releaseWindow s) choice q' pushed := by
  simp only [exec, execReleaseWindow] at ran
  split at ran <;> cases ran
  · have released : SameLengths q (q.releaseWr s (q.sends s).windowWrAcquired) :=
      fun s => by simp
    refine .of_plain rfl rfl ⟨releaseWr_posted .., releaseWr_appleSq .., released.trans ?_⟩
      (by simp [Frame.works, Frame.entering])
    exact sameLengths_modCtx fun c => rfl
  · exact .of_plain rfl rfl (.refl q) (by simp)

theorem completeOrdered_working {psn : Nat} {status : Int} {delays : Bool}
    (ran : exec q (.completeOrdered psn status delays) choice = some (q', pushed)) :
    Working q (.completeOrdered psn status delays) choice q' pushed := by
  cases ran
  refine .of_plain rfl rfl (plain_completeSendOrdered q psn status) ?_
  split
  · simp [Frame.works, Frame.entering]
  · exact light_map _ fun s => ⟨rfl, rfl⟩

theorem completeSends_working {sends : List Nat}
    (ran : exec q (.completeSends sends) choice = some (q', pushed)) :
    Working q (.completeSends sends) choice q' pushed := by
  cases sends with
  | nil =>
      cases ran
      exact .of_plain rfl rfl (.refl q) (by simp)
  | cons s rest =>
      simp only [exec] at ran
      split at ran <;> cases ran
      all_goals exact .of_plain rfl rfl ⟨rfl, rfl, .refl q⟩ (by simp [Frame.works, Frame.entering])

theorem sendTxDone_working {s : Nat} {status : Int}
    (ran : exec q (.sendTxDone s status) choice = some (q', pushed)) :
    Working q (.sendTxDone s status) choice q' pushed := by
  cases ran
  refine .of_plain rfl rfl (.modCtx ?_) ?_
  · exact fun c => rfl
  · repeat' split
    all_goals simp [Frame.works, Frame.entering]

theorem retry_working {sends : List Nat} {failed : Bool} {gone : List Nat}
    (ran : exec q (.retry sends failed gone) choice = some (q', pushed)) :
    Working q (.retry sends failed gone) choice q' pushed := by
  cases sends with
  | nil =>
      cases ran
      refine .of_plain rfl rfl (.refl q) fun next among => ?_
      rcases List.mem_append.mp among with first | later
      · split at first
        · cases List.mem_singleton.mp first
          exact ⟨rfl, rfl⟩
        · cases first
      · exact light_map gone (fun s => ⟨rfl, rfl⟩) next later
  | cons s rest =>
      simp only [exec] at ran
      split at ran <;> cases ran
      · exact .of_plain rfl rfl (.refl q) (by simp [Frame.works, Frame.entering])
      · refine .of_plain rfl rfl (.modCtx ?_) (by simp [Frame.works, Frame.entering])
        exact fun c => rfl

theorem flushSq_working
    (ran : exec q .flushSq choice = some (q', pushed)) :
    Working q .flushSq choice q' pushed := by
  cases ran
  have light : ∀ next ∈ q.appleSq.map Frame.flushEntry,
      next.works = false ∧ next.entering = none := light_map q.appleSq fun s => ⟨rfl, rfl⟩
  refine .apart rfl (by simp) (fun next among => (light next among).1) rfl (.inr rfl) (.refl q) ?_
  exact List.filterMap_eq_nil_iff.mpr fun next among => (light next among).2

theorem exec_working {frame : Frame} (streams : q.knobs.rawMode = false) (proper : frame.Proper)
    (ran : exec q frame choice = some (q', pushed)) : Working q frame choice q' pushed := by
  cases frame with
  | reserveSlot length signaled => exact reserveSlot_working ran
  | takePsn s =>
      cases ran
      refine .apart rfl (by simp) (by simp [Frame.works]) rfl (.inl rfl) ?_ rfl
      exact sameLengths_modCtx fun c => rfl
  | queueSend s =>
      cases ran
      refine .apart rfl (by simp) (by simp [Frame.works]) rfl (.inl rfl) ?_ rfl
      exact sameLengths_modCtx fun c => rfl
  | queueEntry s =>
      cases ran
      exact .enters s choice
  | pop => exact pop_working ran
  | transmit s =>
      simp only [exec] at ran
      split at ran <;> cases ran
      · exact .fails _ (.refl q) (.inl rfl) (by simp)
      · exact .goesOn (.refl q) rfl rfl
  | lookup s | findPath s | reserve s wr frames =>
      simp only [exec] at ran
      cases ran
      split
      all_goals first
        | exact .goesOn (.refl q) rfl rfl
        | exact .fails _ (.refl q) (.inl rfl) (by simp)
  | tryAcquire s => exact execTryAcquire_working ran
  | giveBack s wr frames ret =>
      cases ran
      exact .goesOn ⟨releaseWr_posted .., releaseWr_appleSq .., fun s => by simp⟩ rfl rfl
  | giveBackFrames s frames ret => exact giveBackFrames_working ran
  | mark s wr frames =>
      cases ran
      exact .begins s wr frames choice
  | nextChunk s chunks posted group => exact nextChunk_working streams ran
  | post s pieces chunks posted group => exact post_working proper ran
  | waitGroup s chunks posted => exact waitGroup_working ran
  | arm s => exact arm_working ran
  | transmitFailed s ret | flushEntry s =>
      cases ran
      refine .of_plain rfl rfl (plain_unqueueSend q s) ?_
      split <;> simp [Frame.works, Frame.entering]
  | complete s status => exact complete_working ran
  | releaseSlot s => exact releaseSlot_working ran
  | releaseWindow s => exact releaseWindow_working ran
  | releaseFrames s frames =>
      cases ran
      exact .of_plain rfl rfl ⟨releaseFrames_posted .., releaseFrames_appleSq .., fun s => by simp⟩
        (by simp)
  | pushWc s status =>
      cases ran
      refine .of_plain rfl rfl ?_ (by simp)
      split <;> exact ⟨rfl, rfl, .refl q⟩
  | appleTxDone s status =>
      cases ran
      refine .of_plain rfl rfl (.modCtx ?_) ?_
      · exact fun c => rfl
      · split <;> simp [Frame.works, Frame.entering]
  | completeOrdered psn status delays => exact completeOrdered_working ran
  | completeSends sends => exact completeSends_working ran
  | sendTxDone s status => exact sendTxDone_working ran
  | reap expired =>
      cases ran
      exact .of_plain rfl rfl (plain_reapTx q expired) (by simp [Frame.works, Frame.entering])
  | retry sends failed gone => exact retry_working ran
  | retryPosted s sends failed gone =>
      obtain ⟨same, _, _, rfl⟩ := plain_retryPosted ran
      exact .of_plain rfl rfl same (by simp [Frame.works, Frame.entering])
  | completeStatus s =>
      cases ran
      exact .of_plain rfl rfl (.refl q) (by simp [Frame.works, Frame.entering])
  | markError =>
      simp only [exec] at ran
      split at ran <;> cases ran
      · exact .of_plain rfl rfl ⟨rfl, rfl, .refl q⟩ (by simp [flush, Frame.works, Frame.entering])
      · exact .of_plain rfl rfl (.refl q) (by simp)
  | flushSq => exact flushSq_working ran
  | flushSends =>
      cases ran
      refine .of_plain rfl rfl ⟨rfl, rfl, sameLengths_flushSends q⟩ ?_
      exact light_map _ fun s => ⟨rfl, rfl⟩

end Sections

end Tbv.Sq
