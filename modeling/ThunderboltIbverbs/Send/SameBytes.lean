import ThunderboltIbverbs.Send.Calls

/-! # Every transmission carries the same bytes

A retransmission gathers the payload from user memory again, so it carries the bytes
that were posted as long as the application leaves them alone until the driver can
no longer read them.  A completion does not say so: a UC send completes at the local
drain and stays on the pending list for the reaper. -/
set_option autoImplicit false
namespace Tbv.SendQueue

open Tbv.NativeData

def Caller.gathers : Caller → List Nat
  | .post _ => []
  | .worker w => w.retry

def WorkerStage.gathers (stage : WorkerStage) : List Nat :=
  stage.picked.toList ++ (stage.lists.elim [] Worker.retry)

/-- The requests whose source segments a frame may still read. -/
def Frame.gathers : Frame → List Nat
  | .post c _ => [c]
  | .postFrames c _ _ caller => c :: caller.gathers
  | .worker stage => stage.gathers
  | _ => []

/-- The driver may still read the source segments of the request: it is being posted,
pending, on the worker's retry list, or pages of it are with the NHI. -/
def Held (st : St) (c : Nat) : Prop :=
  c ∈ st.shared.pendingSends ∨ 0 < st.shared.rawInFlight c ∨ ∃ f, st.Has f ∧ c ∈ f.gathers

/-- The address lies in a source segment of the request. -/
def Sources (wr : SendWr) (addr : Nat) : Prop :=
  ∃ seg ∈ wr.segs, seg.addr ≤ addr ∧ addr < seg.addr + seg.length

/-- The request is over for the application: its completion has been pushed, or its
post has returned an error. -/
def Entry.ends (c : Nat) : Entry → Bool
  | .completion d _ => d = c
  | .returned d _ ret => d = c && ret != 0
  | _ => false

/-- What the application promises: it writes to the memory of a request only before
it posts it or after its completion has been pushed, or when the post has failed. -/
def AppPromise (st : St) : Lbl → Prop
  | .event (.memWrite addr _) =>
      ∀ c < st.shared.nextOp, Sources (st.shared.ctx c).wr addr →
        ∃ entry ∈ st.shared.log, entry.ends c = true
  | _ => True

/-- No write reaches the memory of a request the driver still holds. -/
def WritesReleased (st : St) : Lbl → Prop
  | .event (.memWrite addr _) =>
      ∀ c < st.shared.nextOp, Sources (st.shared.ctx c).wr addr → ¬ Held st c
  | _ => True

instance (wr : SendWr) (addr : Nat) : Decidable (Sources wr addr) :=
  inferInstanceAs (Decidable (∃ seg ∈ wr.segs, _))

instance (st : St) (c : Nat) : Decidable (Held st c) :=
  inferInstanceAs (Decidable (_ ∨ _ ∨ ∃ f, st.Has f ∧ c ∈ f.gathers))

instance (st : St) (label : Lbl) : Decidable (AppPromise st label) :=
  match label with
  | .event (.memWrite addr _) => inferInstanceAs (Decidable (∀ c < st.shared.nextOp,
      Sources (st.shared.ctx c).wr addr → ∃ entry ∈ st.shared.log, entry.ends c = true))
  | .event (.postSend _) | .event (.postRead _) | .event (.ack _ _) | .event (.txRetired _ _ _)
  | .event (.dma _ _ _) | .event (.readRetired _ _) | .event (.readResponse _ _)
  | .event (.recvCredit _) | .event .timeoutWork | .event .error | .event .close
  | .event .stopProducers | .event .tick | .run _ _ => isTrue trivial

instance (st : St) (label : Lbl) : Decidable (WritesReleased st label) :=
  match label with
  | .event (.memWrite addr _) => inferInstanceAs (Decidable (∀ c < st.shared.nextOp,
      Sources (st.shared.ctx c).wr addr → ¬ Held st c))
  | .event (.postSend _) | .event (.postRead _) | .event (.ack _ _) | .event (.txRetired _ _ _)
  | .event (.dma _ _ _) | .event (.readRetired _ _) | .event (.readResponse _ _)
  | .event (.recvCredit _) | .event .timeoutWork | .event .error | .event .close
  | .event .stopProducers | .event .tick | .run _ _ => isTrue trivial

/-- Every fragment built for a request carries the bytes it held when it was posted. -/
def SameBytes (st : St) : Prop :=
  ∀ c offset payload, .fragment c offset payload ∈ st.shared.log →
    payload <+: (st.shared.posted c).drop offset

section
variable {q q' : Qp} {choice : Choice} {pushed : List Frame} {c : Nat}

theorem Caller.gathers_resume {caller : Caller} {reason : PostReason} {ret : Int} {d : Nat}
    (gathers : c ∈ (caller.resume d reason ret).gathers) : c = d ∨ c ∈ caller.gathers := by
  cases caller <;>
    simp_all [Caller.resume, Frame.gathers, WorkerStage.gathers, Caller.gathers,
      WorkerStage.picked, WorkerStage.lists]

theorem finishOne_gathers {who : Finisher} {d : Nat} :
    (finishOne q d who).flatMap Frame.gathers = [] := by
  cases who <;> rfl

theorem Follows.gathers {f : Frame} (follows : Follows q f pushed)
    (gathers : c ∈ pushed.flatMap Frame.gathers) : c ∈ f.gathers ∨ c ∈ q.pendingSends := by
  cases follows with
  | resume ret =>
      simp only [List.flatMap_cons, List.flatMap_nil, List.append_nil] at gathers
      exact .inl (List.mem_cons.mpr (Caller.gathers_resume gathers))
  | streamRefused pages ret =>
      simp only [List.flatMap_append, List.mem_append, List.flatMap_cons, List.flatMap_nil,
        List.append_nil] at gathers
      rcases gathers with callback | last
      · obtain ⟨g, among, refers⟩ := List.mem_flatMap.mp callback
        cases (List.mem_replicate.mp among).2
        cases refers
      · exact .inl (List.mem_cons.mpr (Caller.gathers_resume last))
  | cancelled packets =>
      obtain ⟨g, among, refers⟩ := List.mem_flatMap.mp gathers
      cases (List.mem_replicate.mp among).2
      cases refers
  | claim fresh one =>
      rcases one with rfl | rfl <;> cases gathers
  | finish =>
      rw [List.flatMap_append, finishOne_gathers] at gathers
      cases gathers
  | workerStart idle =>
      rename_i stage
      cases stage <;> simp_all [Frame.gathers, WorkerStage.gathers, WorkerStage.lists,
        WorkerStage.picked]
  | reap reaped retry completed =>
      simp only [List.flatMap_cons, List.flatMap_nil, List.append_nil] at gathers
      change c ∈ [] ++ _ at gathers
      rw [List.nil_append, WorkerStage.lists, Option.elim_some, retry] at gathers
      rcases reapSends_retry reaped gathers with none | some
      · cases none
      · exact .inr some
  | pick head reason =>
      refine .inl ?_
      simp_all [Frame.gathers, WorkerStage.gathers, WorkerStage.lists, WorkerStage.picked]
  | worker has has' idle noRef retry completed =>
      refine .inl ?_
      simp only [List.flatMap_cons, List.flatMap_nil, List.append_nil, Frame.gathers,
        WorkerStage.gathers, idle, has', Option.toList_none, Option.elim_some,
        List.nil_append] at gathers
      simp only [Frame.gathers, WorkerStage.gathers, has, Option.elim_some, List.mem_append]
      exact .inr (retry c gathers)
  | _ =>
      simp_all [Frame.gathers, WorkerStage.gathers, Caller.gathers, WorkerStage.lists,
        WorkerStage.picked]

/-- Only a posted stream puts raw pages in flight. -/
theorem Effect.rawInFlight {f : Frame} (effect : Effect q f q') (flying : 0 < q'.rawInFlight c) :
    0 < q.rawInFlight c ∨ c ∈ f.gathers := by
  cases effect with
  | quiet only => exact .inl (by rwa [only.rawInFlight] at flying)
  | emit emits only => exact .inl (by rwa [only.rawInFlight] at flying)
  | takePsn is eq => exact .inl (by subst eq; exact flying)
  | takePsnRead is eq => exact .inl (by subst eq; exact flying)
  | queue is only => exact .inl (by rwa [only.rawInFlight] at flying)
  | unqueue is negative listed only => exact .inl (by rwa [only.rawInFlight] at flying)
  | unqueueReturn is negative listed only => exact .inl (by rwa [only.rawInFlight] at flying)
  | decide decided => exact .inl (by rwa [decided.base.rawInFlight] at flying)
  | complete is fresh eq => exact .inl (by subst eq; exact flying)
  | enqueue is eq => exact .inl (by subst eq; exact flying)
  | @stream d frames reason caller is only =>
      subst is
      rw [only.rawInFlight] at flying
      by_cases same : c = d
      · exact .inr (by simp [Frame.gathers, same])
      · exact .inl (by simpa [Qp.addRawInFlight, Qp.note, Function.update_of_ne same] using flying)
  | @cancel d framed raw is eq =>
      subst eq
      by_cases same : c = d
      · subst same
        simp only [Qp.dropInFlight, Function.update_self] at flying
        exact .inl (by omega)
      · exact .inl (by simpa [Qp.dropInFlight, Function.update_of_ne same] using flying)

/-- A step of a thread holds no request that was not held before. -/
theorem Held.of_run {st : St} {thread : Nat} {f : Frame} {rest : List Frame}
    (found : st.threads[thread]? = some (f :: rest)) (wf : f.WellFormed)
    (executed : exec st.shared f choice = some (q', pushed))
    (held : Held ⟨q', st.threads.set thread (pushed ++ rest)⟩ c) : Held st c := by
  have effect := exec_effect wf executed
  have top := Threads.State.has_of_top found
  rcases held with listed | flying | ⟨g, has, gathers⟩
  · rcases effect.pending with sub | ⟨d, credit, is, grown⟩
    · exact .inl (sub.subset listed)
    · change c ∈ q'.pendingSends at listed
      rw [grown] at listed
      rcases List.mem_append.mp listed with old | new
      · exact .inl old
      · subst is
        exact .inr (.inr ⟨_, top, new⟩)
  · rcases effect.rawInFlight flying with old | gathers
    · exact .inr (.inl old)
    · exact .inr (.inr ⟨f, top, gathers⟩)
  · rcases Threads.State.has_of_run found has with new | old
    · rcases (exec_follows executed).gathers (List.mem_flatMap.mpr ⟨g, new, gathers⟩) with
        same | listed
      · exact .inr (.inr ⟨f, top, same⟩)
      · exact .inl listed
    · exact .inr (.inr ⟨g, old, gathers⟩)

/-- A fragment is cut out of the bytes its request holds now. -/
theorem prefix_of_copySendRange {mem : Nat → UInt8} {segs : List Segment} {offset : Nat}
    {payload : List UInt8}
    (copied : copySendRange mem segs offset (fragLen (totalLen segs) offset) = some payload) :
    payload <+: (gather mem segs).drop offset := by
  by_cases inside : offset ≤ totalLen segs
  · rw [copySendRange_eq mem segs offset _ (by unfold fragLen; omega)] at copied
    cases Option.some.inj copied
    exact List.take_prefix _ _
  · have empty : fragLen (totalLen segs) offset = 0 := by unfold fragLen; omega
    rw [empty] at copied
    cases Option.some.inj copied
    exact List.nil_prefix

end

/-! ## The invariant -/

structure Intact (st : St) : Prop where
  bytes : ∀ c, Held st c → gather st.shared.memory (st.shared.ctx c).wr.segs = st.shared.posted c
  known : ∀ c, Held st c → c < st.shared.nextOp
  logged : ∀ c offset payload, .fragment c offset payload ∈ st.shared.log → c < st.shared.nextOp
  same : SameBytes st

section
variable {st : St} {q' : Qp}

theorem Held.of_event {event : Event} {code : List Frame} {c : Nat}
    (reacts : Reacts st.shared event q' code) (held : Held ⟨q', st.threads ++ [code]⟩ c) :
    Held st c ∨ c = st.shared.nextOp ∧ .post c .start ∈ code := by
  have pending : q'.pendingSends = st.shared.pendingSends := by
    cases reacts with
    | quiet only entry => exact only.pendingSends
    | _ => rfl
  have raw : 0 < q'.rawInFlight c → 0 < st.shared.rawInFlight c := by
    intro flying
    cases reacts with
    | quiet only entry => rwa [only.rawInFlight] at flying
    | @txRetired d framed dropped isRaw status bounds =>
        by_cases same : c = d
        · subst same
          simp only [Qp.dropInFlight, Function.update_self] at flying
          omega
        · simpa [Qp.dropInFlight, Function.update_of_ne same] using flying
    | _ => exact flying
  rcases held with listed | flying | ⟨g, has, among⟩
  · exact .inl (.inl (by rwa [pending] at listed))
  · exact .inl (.inr (.inl (raw flying)))
  · rcases Threads.State.has_of_event has with new | old
    · cases reacts with
      | postSend wr =>
          cases List.mem_singleton.mp new
          cases List.mem_singleton.mp among
          exact .inr ⟨rfl, List.mem_singleton.mpr rfl⟩
      | quiet only entry =>
          have isEntry := entry g new
          cases g with
          | worker stage => cases stage <;> cases isEntry; cases among
          | _ => first | cases isEntry; done | cases among
      | dma => cases new
      | memWrite => cases new
      | postRead =>
          cases List.mem_singleton.mp new
          cases among
      | txRetired =>
          cases List.mem_singleton.mp new
          cases among
    · exact .inl (.inr (.inr ⟨g, old, among⟩))

/-- A step that holds nothing new, leaves what is held alone and logs only fragments
of what is held. -/
theorem Intact.step {st' : St} (intact : Intact st) (held : ∀ c, Held st' c → Held st c)
    (bytes : ∀ c, Held st c → gather st'.shared.memory (st'.shared.ctx c).wr.segs =
      gather st.shared.memory (st.shared.ctx c).wr.segs)
    (posted : st'.shared.posted = st.shared.posted)
    (nextOp : st.shared.nextOp ≤ st'.shared.nextOp)
    (log : ∀ c offset payload, .fragment c offset payload ∈ st'.shared.log →
      .fragment c offset payload ∈ st.shared.log ∨ Held st c ∧
        payload <+: (gather st.shared.memory (st.shared.ctx c).wr.segs).drop offset) :
    Intact st' where
  bytes c hold := by
    rw [bytes c (held c hold), posted]
    exact intact.bytes c (held c hold)
  known c hold := Nat.lt_of_lt_of_le (intact.known c (held c hold)) nextOp
  logged c offset payload among := by
    rcases log c offset payload among with old | ⟨hold, _⟩
    · exact Nat.lt_of_lt_of_le (intact.logged c offset payload old) nextOp
    · exact Nat.lt_of_lt_of_le (intact.known c hold) nextOp
  same c offset payload among := by
    rw [posted]
    rcases log c offset payload among with old | ⟨hold, cut⟩
    · exact intact.same c offset payload old
    · rwa [← intact.bytes c hold]

theorem Intact.postSend (intact : Intact st) (wr : SendWr) :
    Intact ⟨{ st.shared with
        nextOp := st.shared.nextOp + 1
        ctx := Function.update st.shared.ctx st.shared.nextOp (newCtx st.shared.cfg wr)
        posted := Function.update st.shared.posted st.shared.nextOp
          (gather st.shared.memory wr.segs) },
      st.threads ++ [[.post st.shared.nextOp .start]]⟩ := by
  have held := fun c => @Held.of_event st _ _ _ c (.postSend wr)
  refine ⟨fun c hold => ?_, fun c hold => ?_, fun c offset payload among => ?_,
    fun c offset payload among => ?_⟩
  · rcases held c hold with before | ⟨rfl, _⟩
    · have older : c ≠ st.shared.nextOp := Nat.ne_of_lt (intact.known c before)
      simpa [Function.update_of_ne older] using intact.bytes c before
    · simp [newCtx]
  · change c < st.shared.nextOp + 1
    rcases held c hold with before | ⟨rfl, _⟩
    · have := intact.known c before
      omega
    · omega
  · have := intact.logged c offset payload among
    change c < st.shared.nextOp + 1
    omega
  · have older : c ≠ st.shared.nextOp := Nat.ne_of_lt (intact.logged c offset payload among)
    simpa [Function.update_of_ne older] using intact.same c offset payload among

theorem Intact.event (intact : Intact st) {event : Event} {code : List Frame}
    (released : WritesReleased st (.event event))
    (reacts : Reacts st.shared event q' code) : Intact ⟨q', st.threads ++ [code]⟩ := by
  have held : .post st.shared.nextOp .start ∉ code →
      ∀ c, Held ⟨q', st.threads ++ [code]⟩ c → Held st c := by
    intro other c hold
    rcases Held.of_event reacts hold with before | ⟨rfl, new⟩
    · exact before
    · exact absurd new other
  cases reacts with
  | postSend wr => exact intact.postSend wr
  | quiet only entry =>
      have noPost : .post st.shared.nextOp .start ∉ code := fun among => by
        cases entry _ among
      refine intact.step (held noPost) (fun c _ => ?_) only.posted (le_of_eq only.nextOp.symm) ?_
      · change gather q'.memory (q'.ctx c).wr.segs = _
        rw [only.memory, only.static.wr]
      · intro c offset payload among
        change _ ∈ q'.log at among
        rw [only.log] at among
        exact .inl among
  | postRead signaled =>
      exact intact.step (held (by simp)) (fun _ _ => rfl) rfl (Nat.le_succ _)
        fun _ _ _ among => .inl among
  | txRetired status flying =>
      exact intact.step (held (by simp)) (fun _ _ => rfl) rfl (Nat.le_refl _)
        fun _ _ _ among => .inl among
  | @dma c offset len flying =>
      refine intact.step (held (by simp)) (fun _ _ => rfl) rfl (Nat.le_refl _) ?_
      intro d off payload among
      rcases List.mem_append.mp among with old | new
      · exact .inl old
      · cases List.mem_singleton.mp new
        exact .inr ⟨.inr (.inl flying), List.take_prefix _ _⟩
  | memWrite addr byte =>
      refine intact.step (held (by simp)) (fun c hold => ?_) rfl (Nat.le_refl _)
        fun _ _ _ among => .inl among
      -- A held request has no byte at the address that changes.
      refine gather_congr fun seg among i inside => ?_
      have apart : seg.addr + i ≠ addr := fun hit =>
        released c (intact.known c hold) ⟨seg, among, by omega, by omega⟩ hold
      exact Function.update_of_ne apart byte st.shared.memory

theorem Intact.run {choice : Choice} {pushed : List Frame} (intact : Intact st) {thread : Nat}
    {f : Frame} {rest : List Frame} (wf : f.WellFormed)
    (found : st.threads[thread]? = some (f :: rest))
    (executed : exec st.shared f choice = some (q', pushed)) :
    Intact ⟨q', st.threads.set thread (pushed ++ rest)⟩ := by
  have effect := exec_effect wf executed
  have static := effect.static
  refine intact.step (fun c => Held.of_run found wf executed) (fun c _ => ?_) static.posted
    (le_of_eq static.nextOp.symm) ?_
  · change gather q'.memory (q'.ctx c).wr.segs = _
    rw [static.memory, static.wr]
  · intro c offset payload among
    change _ ∈ q'.log at among
    rcases effect.log with same | ⟨entry, grown, emits⟩
    · rw [same] at among
      exact .inl among
    · rw [grown] at among
      rcases List.mem_append.mp among with old | new
      · exact .inl old
      · cases List.mem_singleton.mp new
        cases emits with
        | fragment reason frames caller copied =>
            refine .inr ⟨.inr (.inr ⟨_, Threads.State.has_of_top found, ?_⟩),
              prefix_of_copySendRange copied⟩
            exact List.mem_cons_self ..

theorem intact_start (cfg : QpConfig) (memory : Nat → UInt8) : Intact (start cfg memory) := by
  have free : ∀ c, ¬ Held (start cfg memory) c := by
    rintro c (listed | flying | ⟨g, ⟨code, among, _⟩, _⟩)
    · cases listed
    · cases flying
    · cases among
  refine ⟨fun c hold => absurd hold (free c), fun c hold => absurd hold (free c), ?_, ?_⟩
  · intro c offset payload among
    cases among
  · intro c offset payload among
    cases among

/-- In every run in which no write reaches memory the driver still holds, every
fragment ever built, at the first post and at every retransmission, carries the bytes
its request was posted with. -/
theorem transmissions_carry_posted_bytes (cfg : QpConfig) (memory : Nat → UInt8) (st : St)
    (reached : Trans.Reaches step WritesReleased (start cfg memory) st) : SameBytes st := by
  have intact : Intact st := by
    refine reaches_invariant (intact_start cfg memory) ?_ ?_ reached
    · intro st event q' code intact meets reacts
      exact intact.event meets reacts
    · intro st thread choice f rest q' pushed intact wf _ found executed
      exact intact.run wf found executed
  exact intact.same

/-! ## A run of a UC queue pair -/

def ucConfig : QpConfig where
  type := .uc
  maxSendWr := 16
  timeout := 1
  rnrTimeout := 1
  retryCnt := 0
  rnrRetry := 0
  zcopyMinBytes := 0
  initialPsn := 0

def oneByteSend : SendWr where
  opcode := .send
  segs := [⟨0, 1, Nat.zero_lt_one⟩]

def runs (t : Nat) (choices : List Choice) : List Lbl := choices.map (.run t)

/-- A post whose frame is taken by the path, and the callback that completes it. -/
def postAndDrain : List Lbl :=
  [(.event (.postSend oneByteSend) : Lbl)] ++
    runs 0 [.ok, .ok, .ok, .ok, .ok, .ok, .ok, .ok, .ok, .queued 1 0, .ok] ++
  [(.event (.txRetired 0 false 0) : Lbl)] ++ runs 1 [.ok, .ok, .cancelled 0 0, .ok, .ok]

/-- The acknowledgement takes the request off the pending list, and only then does
the application write to the buffer. -/
def ackAndWrite : List Lbl :=
  [(.event (.ack 0 .ok) : Lbl)] ++ runs 2 [.ok, .ok, .ok, .ok, .ok, .ok, .ok] ++
  [(.event (.memWrite 0 9) : Lbl)]

theorem transmissions_carry_posted_bytes_acked :
    ∃ st, Trans.Reaches step WritesReleased (start ucConfig fun _ => 7) st ∧
      st.shared.memory 0 = 9 ∧ .fragment 0 0 [7] ∈ st.shared.log ∧ SameBytes st := by
  have ran : (Trans.guarded step WritesReleased (postAndDrain ++ ackAndWrite)
      (start ucConfig fun _ => 7)).any (fun st =>
        decide (st.shared.memory 0 = 9) && decide (.fragment 0 0 [7] ∈ st.shared.log)) = true := by
    decide +kernel
  obtain ⟨st, reached, found⟩ := Trans.exists_reaches_of_guarded ran
  simp only [Bool.and_eq_true, decide_eq_true_eq] at found
  exact ⟨st, reached, found.1, found.2, transmissions_carry_posted_bytes _ _ st reached⟩

/-- The application writes to the buffer, then the reaper retransmits. -/
def writeAndReap : List Lbl :=
  [(.event (.memWrite 0 9) : Lbl), .event .tick, .event .timeoutWork] ++
    runs 4 [.fail 0, .ok, .ok, .ok, .ok, .ok]

/-- The buffer of a completed UC send is written to, as the application may do, and
the retransmission carries the new byte. -/
theorem retransmission_after_completion_differs :
    ¬ ∀ (cfg : QpConfig) (memory : Nat → UInt8) (st : St),
      Trans.Reaches step AppPromise (start cfg memory) st → SameBytes st := by
  intro always
  have ran : (Trans.guarded step AppPromise (postAndDrain ++ writeAndReap)
      (start ucConfig fun _ => 7)).any (fun st =>
        decide (.fragment 0 0 [9] ∈ st.shared.log) && decide (st.shared.posted 0 = [7])) = true := by
    decide +kernel
  obtain ⟨st, reached, found⟩ := Trans.exists_reaches_of_guarded ran
  simp only [Bool.and_eq_true, decide_eq_true_eq] at found
  have same := always ucConfig (fun _ => 7) st reached 0 0 [9] found.1
  rw [found.2] at same
  revert same
  decide

end

end Tbv.SendQueue
