import ThunderboltIbverbs.Send.Posting
import ThunderboltIbverbs.Send.RawOnce

/-! # The fragments of framed requests

Where every request is retryable there are no raw streams: a fragment is copied into a frame of
its own, after its request has taken its PSN, and starts at a multiple of the frame payload. -/
set_option autoImplicit false
namespace Tbv.SendQueue

open Tbv.NativeData

/-- The requests that a frame builds fragments of, now or when it retries them. -/
def Frame.sends : Frame → List Nat
  | .postFrames c _ _ caller => c :: caller.gathers
  | .worker stage => stage.gathers
  | _ => []

def Numbered (q : Qp) (c : Nat) : Prop :=
  ∃ n, q.ticket c = some n ∧ (q.ctx c).psn = q.cfg.psn n

/-- One of the offsets at which a request of `total` bytes is cut. -/
def OnGrid (total offset : Nat) : Prop := ∃ i < fragCount total, offset = i * maxPayload

def FramesStage.OnGrid (total : Nat) : FramesStage → Prop
  | .raw => False
  | .copy offset _ => SendQueue.OnGrid total offset
  | _ => True

theorem OnGrid.inside {total offset : Nat} (grid : OnGrid total offset) :
    offset + fragLen total offset ≤ total := by
  obtain ⟨i, inside, rfl⟩ := grid
  have payload : maxPayload = 4048 := rfl
  unfold fragCount at inside
  unfold fragLen
  simp only [payload] at inside ⊢
  split at inside <;> omega

theorem onGrid_zero (total : Nat) : OnGrid total 0 := by
  refine ⟨0, ?_, (Nat.zero_mul _).symm⟩
  have payload : maxPayload = 4048 := rfl
  unfold fragCount
  simp only [payload]
  split <;> omega

theorem OnGrid.next {total offset : Nat} (grid : OnGrid total offset)
    (more : offset + fragLen total offset < total) :
    OnGrid total (offset + fragLen total offset) := by
  obtain ⟨i, inside, rfl⟩ := grid
  have payload : maxPayload = 4048 := rfl
  have full : fragLen total (i * maxPayload) = maxPayload := by
    unfold fragLen at more ⊢
    omega
  rw [full, ← Nat.succ_mul] at more ⊢
  refine ⟨i + 1, ?_, rfl⟩
  unfold fragCount
  simp only [payload] at more ⊢
  split <;> omega

/-- A QP that has put only framed fragments on the wire. -/
structure Framed (st : St) : Prop where
  numbered : ∀ {f c}, st.Has f → c ∈ f.sends → Numbered st.shared c
  stage : ∀ {c reason stage caller}, st.Has (.postFrames c reason stage caller) →
    stage.OnGrid (totalLen (st.shared.ctx c).wr.segs)
  raw : ∀ c, st.shared.rawInFlight c = 0
  sizes : ∀ c, (st.shared.posted c).length = totalLen (st.shared.ctx c).wr.segs
  logged : ∀ {c offset payload}, .fragment c offset payload ∈ st.shared.log →
    Numbered st.shared c ∧ OnGrid (st.shared.posted c).length offset ∧
      payload.length = fragLen (st.shared.posted c).length offset

section
variable {st : St} {q q' : Qp} {f g : Frame} {choice : Choice} {pushed rest code : List Frame}
  {thread c : Nat}

theorem framed_start (cfg : QpConfig) (memory : Nat → UInt8) : Framed (start cfg memory) where
  numbered := by
    rintro f c ⟨stack, among, _⟩
    cases among
  stage := by
    rintro c reason stage caller ⟨stack, among, _⟩
    cases among
  raw := fun _ => rfl
  sizes := fun _ => rfl
  logged := fun among => by cases among

/-! ## What a frame builds fragments of -/

theorem Frame.sends_gathers (sends : c ∈ f.sends) : c ∈ f.gathers := by
  cases f with
  | postFrames | worker => exact sends
  | _ => cases sends

/-- A frame goes on with its own requests, takes them from the pending list, or is a post past its
PSN section. -/
theorem Follows.sends (follows : Follows q f pushed) (among : g ∈ pushed) (sends : c ∈ g.sends) :
    c ∈ f.sends ∨ c ∈ q.pendingSends ∨ ∃ stage, f = .post c stage ∧ f.afterPsn = true := by
  rcases follows.gathers (List.mem_flatMap.mpr ⟨g, among, Frame.sends_gathers sends⟩) with
    gathers | pending
  · cases f with
    | post d stage =>
        cases List.mem_singleton.mp gathers
        cases follows with
        | nothing => cases among
        | post next =>
            cases List.mem_singleton.mp among
            cases sends
        | toFrames late => exact .inr (.inr ⟨stage, rfl, by rcases late with rfl | rfl <;> rfl⟩)
        | detach may =>
            cases List.mem_singleton.mp among
            cases sends
        | error | readComplete | finishReads | cqPushRead =>
            cases List.mem_singleton.mp among
            cases sends
        | finishRead =>
            simp only [List.mem_cons, List.not_mem_nil, or_false] at among
            rcases among with rfl | rfl <;> cases sends
    | postFrames | worker => exact .inl gathers
    | _ => cases gathers
  · exact .inr (.inl pending)

theorem Numbered.run (posting : Posting st) (wf : f.WellFormed) (has : st.Has f)
    (executed : exec st.shared f choice = some (q', pushed)) (numbered : Numbered st.shared c) :
    Numbered q' c := by
  obtain ⟨n, ticket, psn⟩ := numbered
  have other : ∀ {d}, st.shared.ticket d = none → c ≠ d := by
    rintro d free rfl
    rw [free] at ticket
    cases ticket
  rcases (exec_effect wf executed).samePsns with same | ⟨d, credit, rfl, rfl⟩ | ⟨r, rfl, rfl⟩
  · exact ⟨n, by rw [same.ticket, ticket],
      by rw [same.psn c (posting.tickets.bounded ticket).2, psn, same.cfg]⟩
  · have apart := other (posting.early has rfl rfl)
    refine ⟨n, (Function.update_of_ne apart ..).trans ticket, ?_⟩
    exact (congrArg SendCtx.psn (Function.update_of_ne apart ..)).trans psn
  · have apart := other (posting.early has rfl rfl)
    exact ⟨n, (Function.update_of_ne apart ..).trans ticket, psn⟩

theorem Numbered.event (posting : Posting st) {event : Event}
    (reacts : Reacts st.shared event q' code) (numbered : Numbered st.shared c) :
    Numbered q' c := by
  obtain ⟨n, ticket, psn⟩ := numbered
  have same := reacts.samePsns
  exact ⟨n, by rw [same.ticket, ticket],
    by rw [same.psn c (posting.tickets.bounded ticket).2, psn, same.cfg]⟩

theorem Reacts.old {event : Event} (reacts : Reacts q event q' code) (old : c < q.nextOp) :
    (q'.ctx c).wr = (q.ctx c).wr ∧ q'.posted c = q.posted c := by
  have other : c ≠ q.nextOp := Nat.ne_of_lt old
  cases reacts with
  | postSend wr =>
      exact ⟨congrArg SendCtx.wr (Function.update_of_ne other ..), Function.update_of_ne other ..⟩
  | quiet only => exact ⟨only.static.wr c, congrFun only.posted c⟩
  | _ => exact ⟨rfl, rfl⟩

/-! ## The stages -/

/-- A frame in the middle of `tbv_native_send_ctx_post_frames` was in it before. -/
theorem Follows.frames_source {reason : PostReason} {stage : FramesStage} {caller : Caller}
    (follows : Follows q f pushed) (among : .postFrames c reason stage caller ∈ pushed) :
    stage = .select ∨ ∃ before, f = .postFrames c reason before caller := by
  cases follows with
  | nothing => cases among
  | toFrames | retry =>
      cases List.mem_singleton.mp among
      exact .inl rfl
  | frames =>
      cases List.mem_singleton.mp among
      exact .inr ⟨_, rfl⟩
  | @resume d reason' stage' caller' =>
      have resumed := List.mem_singleton.mp among
      cases caller' <;> cases resumed
  | @streamRefused d reason' caller' =>
      rcases List.mem_append.mp among with callback | last
      · cases List.eq_of_mem_replicate callback
      · have resumed := List.mem_singleton.mp last
        cases caller' <;> cases resumed
  | cancelled => cases List.eq_of_mem_replicate among
  | claim fresh one =>
      rcases one with rfl | rfl <;> simp at among
  | @finish who =>
      rcases List.mem_append.mp among with one | last
      · cases who <;> simp [finishOne] at one
      · cases List.mem_singleton.mp last
  | _ => simp at among

theorem exec_onGrid {reason : PostReason} {stage : FramesStage} {caller : Caller}
    (executed : exec q f choice = some (q', pushed)) (retryable : (q.ctx c).retryable = true)
    (was : ∀ before, f = .postFrames c reason before caller →
      before.OnGrid (totalLen (q.ctx c).wr.segs))
    (among : .postFrames c reason stage caller ∈ pushed) :
    stage.OnGrid (totalLen (q.ctx c).wr.segs) := by
  rcases (exec_follows executed).frames_source among with rfl | ⟨before, rfl⟩
  · trivial
  have grid := was before rfl
  have resumes : ∀ ret, Frame.postFrames c reason stage caller ≠ caller.resume c reason ret := by
    intro ret same
    cases caller <;> cases same
  have framed : (q.ctx c).usesRawStream q.cfg = false := by
    simp [SendCtx.usesRawStream, retryable]
  cases before with
  | raw => exact grid.elim
  | select =>
      simp only [exec, execPostFrames, framed, Bool.false_eq_true, if_false] at executed
      repeat' split at executed
      all_goals cases executed
      all_goals have same := List.mem_singleton.mp among
      · cases same
        exact onGrid_zero _
      · exact absurd same (resumes _)
  | copy offset frames =>
      simp only [exec, execPostFrames] at executed
      repeat' split at executed
      all_goals cases executed
      all_goals have same := List.mem_singleton.mp among
      · exact absurd same (resumes _)
      · rename_i more
        cases same
        exact OnGrid.next grid more
      · cases same
        trivial
      · exact absurd same (resumes _)
  | charge frames | enqueue frames | uncharge frames ret =>
      simp only [exec, execPostFrames] at executed
      repeat' split at executed
      all_goals cases executed
      all_goals have same := List.mem_singleton.mp among
      all_goals first
        | exact absurd same (resumes _)
        | cases same; trivial

theorem exec_raw (wf : f.WellFormed) (executed : exec q f choice = some (q', pushed))
    (framed : f.streams = none) (raw : ∀ c, q.rawInFlight c = 0) (c : Nat) :
    q'.rawInFlight c = 0 := by
  have none : q.rawInFlight = fun _ => 0 := funext raw
  cases exec_effect wf executed with
  | quiet only => rw [only.rawInFlight, none]
  | emit emits only => exact (congrFun only.rawInFlight c).trans (raw c)
  | takePsn is eq | takePsnRead is eq | complete is fresh eq | enqueue is eq => rw [eq]; exact raw c
  | queue is only | unqueue is negative listed only =>
      exact (congrFun only.rawInFlight c).trans (raw c)
  | unqueueReturn is negative listed only => exact (congrFun only.rawInFlight c).trans (raw c)
  | decide decided => rw [decided.base.rawInFlight, none]
  | stream is =>
      rw [is] at framed
      cases framed
  | @cancel d framed' raw' is eq =>
      rw [eq, Qp.dropInFlight, none]
      by_cases same : c = d
      · subst same
        simp
      · simp [Function.update_of_ne same]

/-! ## Every state -/

theorem Framed.run (framed : Framed st) (posting : Posting st)
    (retryable : ∀ c, (st.shared.ctx c).retryable = true) (wf : f.WellFormed)
    (found : st.threads[thread]? = some (f :: rest))
    (executed : exec st.shared f choice = some (q', pushed)) :
    Framed ⟨q', st.threads.set thread (pushed ++ rest)⟩ := by
  have top := Threads.State.has_of_top found
  have effect := exec_effect wf executed
  have static := effect.static
  have keep : ∀ {c}, Numbered st.shared c → Numbered q' c := Numbered.run posting wf top executed
  have noStream : f.streams = none := by
    cases f with
    | postFrames c reason stage caller =>
        cases stage with
        | raw => exact (framed.stage top).elim
        | _ => rfl
    | _ => rfl
  refine ⟨fun has sends => ?_, fun {c reason stage caller} has => ?_,
    exec_raw wf executed noStream framed.raw, fun c => ?_, fun {c offset payload} among => ?_⟩
  · rcases Threads.State.has_of_run found has with new | old
    · rcases (exec_follows executed).sends new sends with mine | listed | ⟨stage, rfl, after⟩
      · exact keep (framed.numbered top mine)
      · exact keep (posting.pending _ listed)
      · exact keep (posting.late top rfl after)
    · exact keep (framed.numbered old sends)
  · change stage.OnGrid (totalLen (q'.ctx c).wr.segs)
    rw [static.wr]
    rcases Threads.State.has_of_run found has with new | old
    · exact exec_onGrid executed (retryable c) (fun before is => framed.stage (is ▸ top)) new
    · exact framed.stage old
  · change (q'.posted c).length = totalLen (q'.ctx c).wr.segs
    rw [static.wr, static.posted]
    exact framed.sizes c
  · dsimp only at among ⊢
    rw [static.posted]
    rcases effect.log with same | ⟨entry, grown, emits⟩
    · rw [same] at among
      exact (framed.logged among).imp_left keep
    · rw [grown] at among
      rcases List.mem_append.mp among with old | new
      · exact (framed.logged old).imp_left keep
      · cases List.mem_singleton.mp new
        cases emits with
        | fragment reason frames caller copied =>
            have grid : OnGrid _ offset := framed.stage top
            rw [copySendRange_eq _ _ _ _ grid.inside] at copied
            rw [framed.sizes]
            refine ⟨keep (framed.numbered top (List.mem_cons_self ..)), grid, ?_⟩
            have inside := grid.inside
            rw [← Option.some.inj copied, List.length_take, List.length_drop, length_gather]
            omega

theorem Framed.event (framed : Framed st) (posting : Posting st) {event : Event}
    (reacts : Reacts st.shared event q' code) : Framed ⟨q', st.threads ++ [code]⟩ := by
  have keep : ∀ {c}, Numbered st.shared c → Numbered q' c := Numbered.event posting reacts
  -- The request that is posted has no frame yet, and none of its fragments is in the log.
  have same : ∀ {c}, Numbered st.shared c → (q'.ctx c).wr = (st.shared.ctx c).wr ∧
      q'.posted c = st.shared.posted c := by
    rintro c ⟨n, ticket, _⟩
    exact reacts.old (posting.tickets.bounded ticket).2
  have quiet : ∀ {g}, g ∈ code → g.sends = [] ∧
      ∀ c reason stage caller, g ≠ .postFrames c reason stage caller := by
    intro g among
    cases reacts with
    | postSend | postRead | txRetired =>
        cases List.mem_singleton.mp among
        exact ⟨rfl, by simp⟩
    | dma | memWrite => cases among
    | quiet only entry =>
        have isEntry := entry g among
        cases g with
        | worker stage =>
            cases stage <;> cases isEntry
            exact ⟨rfl, by simp⟩
        | _ => first | cases isEntry; done | exact ⟨rfl, by simp⟩
  refine ⟨fun has sends => ?_, fun {c reason stage caller} has => ?_, fun c => ?_, fun c => ?_,
    fun {c offset payload} among => ?_⟩
  · rcases Threads.State.has_of_event has with new | old
    · rw [(quiet new).1] at sends
      cases sends
    · exact keep (framed.numbered old sends)
  · rcases Threads.State.has_of_event has with new | old
    · exact ((quiet new).2 _ _ _ _ rfl).elim
    · rw [(same (framed.numbered old (List.mem_cons_self ..))).1]
      exact framed.stage old
  · have none := framed.raw c
    cases reacts with
    | quiet only => rwa [only.rawInFlight]
    | @txRetired d framed' raw isRaw status flying =>
        by_cases same : c = d
        · subst same
          simp only [Qp.dropInFlight, Function.update_self]
          omega
        · simpa [Qp.dropInFlight, Function.update_of_ne same] using none
    | _ => exact none
  · cases reacts with
    | postSend wr =>
        by_cases new : c = st.shared.nextOp
        · subst new
          simp [newCtx]
        · simpa [Function.update_of_ne new] using framed.sizes c
    | quiet only => rw [only.static.wr, only.posted]; exact framed.sizes c
    | _ => exact framed.sizes c
  · have before : .fragment c offset payload ∈ st.shared.log := by
      cases reacts with
      | quiet only => rwa [only.log] at among
      | @dma d =>
          have none := framed.raw d
          omega
      | _ => exact among
    have old := framed.logged before
    dsimp only
    rw [(same old.1).2]
    exact old.imp_left keep

/-- A fragment carries its piece of the bytes that were posted. -/
theorem Framed.payload (framed : Framed st) (same : SameBytes st) {offset : Nat}
    {payload : List UInt8} (logged : .fragment c offset payload ∈ st.shared.log) :
    payload = ((st.shared.posted c).drop offset).take
      (fragLen (st.shared.posted c).length offset) := by
  have size := (framed.logged logged).2.2
  rw [← size]
  exact List.prefix_iff_eq_take.mp (same c offset payload logged)

end

end Tbv.SendQueue
