import ThunderboltIbverbs.Send.Turns

/-! # The PSNs of accepted operations

A PSN is taken in one section, the request is queued in another and its frames are
handed to the path later, and nothing gives a PSN back.  So the accepted operations
have consecutive PSNs as long as no post fails behind its PSN section, and the pending
list is in order as long as posts reach it in the order of their PSNs. -/
set_option autoImplicit false
namespace Tbv.SendQueue

open Tbv.NativeData

def Entry.accepted : Entry → Option Nat
  | .returned _ psn ret | .returnedRead _ psn ret => if ret = 0 then some psn else none
  | _ => none

def accepted (log : List Entry) : List Nat := log.filterMap Entry.accepted

@[simp] theorem accepted_append (first second : List Entry) :
    accepted (first ++ second) = accepted first ++ accepted second := by
  simp [accepted]

/-- The accepted operations have the PSNs that follow the initial one, and the pending
list is in the order in which its PSNs were taken. -/
structure PsnsInOrder (st : St) : Prop where
  accepted : accepted st.shared.log =
    (List.range (accepted st.shared.log).length).map st.shared.cfg.psn
  pending : st.shared.pendingSends.Pairwise st.shared.Earlier
  psns : ∀ c ∈ st.shared.pendingSends,
    ∃ n ∈ st.shared.ticket c, (st.shared.ctx c).psn = st.shared.cfg.psn n

/-- A post fails here, behind its PSN section: there is no path, a reservation, an
allocation or the copy of the payload fails, or the path takes none of its frames. -/
def Frame.refused (q : Qp) (choice : Choice) : Frame → Bool
  | .postFrames c _ stage (.post _) =>
      match stage, choice with
      | .select, .fail _ | .copy _ _, .fail _ | .charge _, .fail _ => true
      | .copy offset _, .ok =>
          (copySendRange q.memory (q.ctx c).wr.segs offset
            (fragLen (totalLen (q.ctx c).wr.segs) offset)).isNone
      | .raw, .pages _ ret => ret != 0
      | .enqueue frames, .queued taken _ => taken == 0 && frames != 0
      | _, _ => false
  | .postRead _ .build | .postRead _ .send => choice != .ok
  | _ => false

def Frame.accepts : Frame → Option Nat
  | .post c (.framesPosted _ _) => some c
  | .postRead r .send => some r
  | _ => none

/-- No post fails behind its PSN section, and a post is queued, or returns, only when
no post with an earlier PSN still has to. -/
def PostsInOrder (st : St) : Lbl → Prop
  | .event _ => True
  | .run thread choice => ∀ f ∈ st.top thread, f.refused st.shared choice = false ∧
      (∀ c ∈ f.queues, ¬ ∃ g, st.Has g ∧ ∃ d ∈ g.queues, st.shared.Earlier d c) ∧
      (∀ c ∈ f.accepts, ¬ ∃ g, st.Has g ∧ ∃ d ∈ g.posts, st.shared.Earlier d c)

instance (st : St) (label : Lbl) : Decidable (PostsInOrder st label) :=
  match label with
  | .event _ => isTrue trivial
  | .run thread _ => inferInstanceAs (Decidable (∀ f ∈ st.top thread, _ ∧ _ ∧ _))

def Frame.onTrack : Frame → Prop
  | .post _ (.framesPosted _ ret) => ret = 0
  | .postFrames _ _ (.uncharge _ ret) (.post _) => ret = 0
  | .postRead _ (.unqueue _) | .postRead _ (.failed _) => False
  | _ => True

/-- The post has taken no PSN, also on its way out. -/
def Frame.untaken : Frame → Bool
  | .post _ (.giveBack _) => true
  | f => f.beforePsn

section
variable {q q' : Qp} {choice : Choice} {pushed : List Frame} {f : Frame} {c op : Nat}

theorem Frame.onTrack_of_posts (idle : f.posts = none) : f.onTrack := by
  cases f with
  | post c stage => cases idle
  | postRead r stage => cases idle
  | postFrames c reason stage caller =>
      cases caller with
      | post credit => cases idle
      | worker w => cases stage <;> trivial
  | _ => trivial

theorem execPostFrames_onTrack {reason : PostReason} {credit : Bool} {stage : FramesStage}
    (track : (Frame.postFrames c reason stage (.post credit)).onTrack)
    (go : (Frame.postFrames c reason stage (.post credit)).refused q choice = false)
    (executed : execPostFrames q c reason (.post credit) choice stage = some (q', pushed))
    {g : Frame} (among : g ∈ pushed) : g.onTrack := by
  cases stage <;> simp only [execPostFrames] at executed <;> repeat' split at executed
  all_goals cases executed
  all_goals simp_all [Frame.refused, Caller.resume, Frame.onTrack]

theorem execPostRead_onTrack {r : Nat} {stage : ReadStage}
    (track : (Frame.postRead r stage).onTrack)
    (go : (Frame.postRead r stage).refused q choice = false)
    (executed : execPostRead q r choice stage = some (q', pushed))
    {g : Frame} (among : g ∈ pushed) : g.onTrack := by
  cases stage <;> simp only [execPostRead, Qp.returnRead] at executed <;> repeat' split at executed
  all_goals cases executed
  all_goals simp_all [Frame.refused, Frame.onTrack]

/-- A post that has not failed and is not refused here has not failed after the step. -/
theorem exec_onTrack (track : f.onTrack) (go : f.refused q choice = false)
    (executed : exec q f choice = some (q', pushed)) {g : Frame} (among : g ∈ pushed) :
    g.onTrack := by
  have idle : f.posts = none → g.onTrack := fun none => by
    have empty := (exec_follows executed).posts none
    exact Frame.onTrack_of_posts (List.filterMap_eq_nil_iff.mp empty g among)
  cases f with
  | post c stage =>
      cases exec_follows executed with
      | nothing => cases among
      | @post _ _ stage' next =>
          cases List.mem_singleton.mp among
          cases stage' <;> first | trivial | skip
          cases stage <;> cases next
      | finishRead =>
          simp only [List.mem_cons, List.not_mem_nil, or_false] at among
          rcases among with rfl | rfl <;> trivial
      | _ =>
          cases List.mem_singleton.mp among
          trivial
  | postRead r stage => exact execPostRead_onTrack track go executed among
  | postFrames c reason stage caller =>
      cases caller with
      | post credit => exact execPostFrames_onTrack track go executed among
      | worker w => exact idle rfl
  | _ => exact idle rfl

theorem PostStage.untaken_of_early {stage : PostStage} (early : stage.early = true) :
    (Frame.post c stage).untaken = true := by
  cases stage <;> first | rfl | cases early

theorem ReadStage.untaken_of_early {stage : ReadStage} (early : stage.early = true) :
    (Frame.postRead c stage).untaken = true := by
  cases stage <;> first | rfl | cases early

/-- On a run in which nothing fails behind its PSN section, a post returns an error
only when it has no PSN. -/
theorem Effect.returned (effect : Effect q f q') (track : f.onTrack) :
    (accepted q'.log = accepted q.log ∧ (returns q'.log = returns q.log ∨
      ∃ op, returns q'.log = returns q.log ++ [op] ∧ f.posts = some op ∧ f.untaken = true)) ∨
    ∃ op, returns q'.log = returns q.log ++ [op] ∧ f.accepts = some op ∧ f.posts = some op ∧
      f.afterPsn = true ∧ accepted q'.log = accepted q.log ++ [f.psn q] := by
  rcases effect.log with same | ⟨entry, grown, emits⟩
  · rw [same]
    exact .inl ⟨rfl, .inl rfl⟩
  · rw [grown, accepted_append, returns_append]
    have silent : accepted [entry] = [] → returns [entry] = [] →
        (accepted q.log ++ accepted [entry] = accepted q.log ∧
          (returns q.log ++ returns [entry] = returns q.log ∨
          ∃ op, returns q.log ++ returns [entry] = returns q.log ++ [op] ∧
            f.posts = some op ∧ f.untaken = true)) := by
      intro noAccept noReturn
      rw [noAccept, noReturn, List.append_nil, List.append_nil]
      exact ⟨rfl, .inl rfl⟩
    cases emits with
    | @refused d stage ret psn early negative =>
        refine .inl ⟨?_, .inr ⟨d, rfl, rfl, PostStage.untaken_of_early early⟩⟩
        simp [accepted, Entry.accepted, negative]
    | failed d credit negative => exact absurd track negative
    | posted d credit => exact .inr ⟨d, rfl, rfl, rfl, rfl, rfl⟩
    | @refusedRead r stage ret psn early negative =>
        refine .inl ⟨?_, .inr ⟨r, rfl, rfl, ReadStage.untaken_of_early early⟩⟩
        simp [accepted, Entry.accepted, negative]
    | failedRead r negative => exact absurd track id
    | postedRead r => exact .inr ⟨r, rfl, rfl, rfl, rfl, rfl⟩
    | _ => exact .inl (silent rfl rfl)

/-- A post on its way out without a PSN comes from one without a PSN. -/
theorem Follows.untaken {g : Frame} (follows : Follows q f pushed) (track : f.onTrack)
    (among : g ∈ pushed) (untaken : g.untaken = true) : f.untaken = true ∧ f.takesPsn = false := by
  by_cases before : g.beforePsn = true
  · have sides := (follows.sides among).1 before
    refine ⟨?_, sides.2⟩
    cases f with
    | post c stage => cases stage <;> first | rfl | exact sides.1
    | _ => exact sides.1
  · have isGiveBack : ∃ c ret, g = .post c (.giveBack ret) := by
      cases g with
      | post c stage =>
          cases stage with
          | giveBack ret => exact ⟨c, ret, rfl⟩
          | _ => exact absurd untaken before
      | _ => exact absurd untaken before
    obtain ⟨c, ret, rfl⟩ := isGiveBack
    cases follows with
    | @post _ stage _ next =>
        cases List.mem_singleton.mp among
        cases stage with
        | reserve credit => exact ⟨rfl, rfl⟩
        | framesPosted credit ret' => exact absurd track next.2
        | _ => cases next
    | @resume _ _ _ caller _ => cases caller <;> cases List.mem_singleton.mp among
    | @streamRefused _ _ caller _ _ =>
        rcases List.mem_append.mp among with callback | last
        · cases (List.mem_replicate.mp callback).2
        · cases caller <;> cases List.mem_singleton.mp last
    | cancelled packets => cases (List.mem_replicate.mp among).2
    | claim fresh one => rcases one with rfl | rfl <;> simp at among
    | @finish who d rest err err' => cases who <;> simp [finishOne] at among
    | _ => simp at among

end

/-! ## The invariant -/

/-- Posts pass their sections in the order of their PSNs. -/
structure Ordered (st : St) : Prop where
  posting : Posting st
  track : ∀ {f}, st.Has f → f.onTrack
  untaken : ∀ {f op}, st.Has f → f.posts = some op → f.untaken = true →
    st.shared.ticket op = none
  accepted : accepted st.shared.log =
    (List.range (accepted st.shared.log).length).map st.shared.cfg.psn
  bound : (SendQueue.accepted st.shared.log).length ≤ st.shared.taken
  settled : ∀ {op n}, st.shared.ticket op = some n →
    (n < (SendQueue.accepted st.shared.log).length ↔ op ∈ returns st.shared.log)
  turn : InTurn st st.shared.pendingSends

section
variable {st : St} {q q' : Qp} {choice : Choice} {pushed : List Frame} {f : Frame} {c op : Nat}

theorem Carried.exists_frame (carried : Carried st) (old : op < st.shared.nextOp)
    (open_ : op ∉ returns st.shared.log) : ∃ g, st.Has g ∧ g.posts = some op := by
  by_contra none
  have empty : st.total (carries op) = 0 := by
    refine Threads.State.total_eq_zero.mpr fun g has => ?_
    have idle : g.posts ≠ some op := fun posts => none ⟨g, has, posts⟩
    simp [carries, idle]
  have one := carried op
  rw [empty, List.count_eq_zero.mpr open_, if_pos old] at one
  omega

/-- The post that returns 0 has the first PSN not accepted yet. -/
theorem Ordered.position (ordered : Ordered st) {n : Nat} (has : st.Has f)
    (posts : f.posts = some op) (ticket : st.shared.ticket op = some n)
    (first : ¬ ∃ g, st.Has g ∧ ∃ d ∈ g.posts, st.shared.Earlier d op) :
    n = (SendQueue.accepted st.shared.log).length := by
  have tickets := ordered.posting.tickets
  have reached : ¬ n < (SendQueue.accepted st.shared.log).length := fun below =>
    ordered.posting.carried.unreturned has posts ((ordered.settled ticket).mp below)
  by_contra differ
  have gap : (SendQueue.accepted st.shared.log).length < n := by omega
  obtain ⟨d, ticketD⟩ := tickets.onto (Nat.lt_trans gap (tickets.bounded ticket).1)
  have open_ : d ∉ returns st.shared.log := fun returned =>
    Nat.lt_irrefl _ ((ordered.settled ticketD).mpr returned)
  obtain ⟨g, hasG, postsG⟩ :=
    ordered.posting.carried.exists_frame (tickets.bounded ticketD).2 open_
  exact first ⟨g, hasG, d, postsG, _, ticketD, n, ticket, gap⟩

theorem Frame.untaken_not_takes_or (untaken : f.untaken = true) :
    f.beforePsn = true ∨ f.takesPsn = false := by
  cases f with
  | post c stage => cases stage <;> first | exact .inr rfl | exact .inl rfl
  | _ => exact .inl untaken

theorem Ordered.run_untaken (ordered : Ordered st) {thread : Nat} {rest : List Frame}
    (wf : f.WellFormed) (found : st.threads[thread]? = some (f :: rest))
    (executed : exec st.shared f choice = some (q', pushed)) {g : Frame}
    (has : Threads.State.Has ⟨q', st.threads.set thread (pushed ++ rest)⟩ g)
    (posts : g.posts = some op) (untaken : g.untaken = true) : q'.ticket op = none := by
  have top := Threads.State.has_of_top found
  have after := ordered.posting.run wf found executed
  by_cases before : g.beforePsn = true
  · exact after.early has posts before
  have idle : g.takesPsn = false :=
    (Frame.untaken_not_takes_or untaken).resolve_left before
  rcases Threads.State.has_of_run found has with new | old
  · have mine := exec_posts_of_mem wf executed new posts
    have source := (exec_follows executed).untaken (ordered.track top) new untaken
    rcases (exec_effect wf executed).psnSection with same | ⟨_, _, takes, _⟩
    · rw [same.ticket]
      exact ordered.untaken top mine source.1
    · rw [source.2] at takes
      cases takes
  · have none := ordered.untaken old posts untaken
    rcases (exec_effect wf executed).psnSection with same | ⟨other, mine, takes, _, ticket, _⟩
    · rw [same.ticket]
      exact none
    · have distinct : op ≠ other := fun eq => by
        rw [ordered.posting.carried.unique old top posts (eq ▸ mine), takes] at idle
        cases idle
      rw [ticket, Function.update_of_ne distinct]
      exact none

/-- What a step does to the accepted PSNs. -/
theorem Ordered.run_accepted (ordered : Ordered st) {thread : Nat} {rest : List Frame}
    (wf : f.WellFormed) (found : st.threads[thread]? = some (f :: rest))
    (executed : exec st.shared f choice = some (q', pushed))
    (first : ∀ c ∈ f.accepts, ¬ ∃ g, st.Has g ∧ ∃ d ∈ g.posts, st.shared.Earlier d c) :
    SendQueue.accepted q'.log =
      (List.range (SendQueue.accepted q'.log).length).map q'.cfg.psn ∧
    (SendQueue.accepted q'.log).length ≤ q'.taken ∧
    ∀ {op n}, q'.ticket op = some n →
      (n < (SendQueue.accepted q'.log).length ↔ op ∈ returns q'.log) := by
  have top := Threads.State.has_of_top found
  have effect := exec_effect wf executed
  rcases effect.psnSection with same | ⟨op, mine, takes, taken, ticket, _, log, cfg⟩
  · rw [same.cfg, same.taken, same.ticket]
    rcases effect.returned (ordered.track top) with
      ⟨kept, unchanged | ⟨op, returned, mine, untaken⟩⟩ |
      ⟨op, returned, accepts, mine, late, grown⟩
    · rw [kept, unchanged]
      exact ⟨ordered.accepted, ordered.bound, ordered.settled⟩
    · -- The post returns an error: it has no PSN, so no ticket is concerned.
      rw [kept, returned]
      refine ⟨ordered.accepted, ordered.bound, fun {other n} has => ?_⟩
      have none := ordered.untaken top mine untaken
      have distinct : other ≠ op := fun eq => by
        rw [eq, none] at has
        cases has
      simpa [distinct] using ordered.settled has
    · obtain ⟨n, has, psn⟩ := ordered.posting.late top mine late
      have position := ordered.position top mine has (first op accepts)
      rw [grown, returned, psn, position]
      refine ⟨?_, ?_, fun {other m} hasM => ?_⟩
      · rw [List.length_append, List.length_singleton, List.range_succ, List.map_append,
          ← ordered.accepted]
        rfl
      · have := (ordered.posting.tickets.bounded has).1
        simp only [List.length_append, List.length_singleton]
        omega
      · have settled := ordered.settled hasM
        simp only [List.length_append, List.length_singleton, List.mem_append,
          List.mem_singleton]
        constructor
        · intro below
          rcases Nat.lt_succ_iff_lt_or_eq.mp below with before | rfl
          · exact .inl (settled.mp before)
          · exact .inr (ordered.posting.tickets.injective hasM (position ▸ has))
        · rintro (old | rfl)
          · exact Nat.lt_succ_of_lt (settled.mpr old)
          · rw [has] at hasM
            cases hasM
            omega
  · rw [log, cfg, taken, ticket]
    refine ⟨ordered.accepted, Nat.le_succ_of_le ordered.bound, fun {other n} has => ?_⟩
    by_cases eq : other = op
    · subst eq
      rw [Function.update_self] at has
      cases has
      have bound := ordered.bound
      have open_ := ordered.posting.carried.unreturned top mine
      constructor
      · intro below
        omega
      · intro returned
        exact absurd returned open_
    · rw [Function.update_of_ne eq] at has
      exact ordered.settled has

theorem Ordered.run (ordered : Ordered st) {thread : Nat} {rest : List Frame} (wf : f.WellFormed)
    (meets : PostsInOrder st (.run thread choice))
    (found : st.threads[thread]? = some (f :: rest))
    (executed : exec st.shared f choice = some (q', pushed)) :
    Ordered ⟨q', st.threads.set thread (pushed ++ rest)⟩ := by
  obtain ⟨go, queueFirst, acceptFirst⟩ := meets f (Threads.State.top_of_getElem? found)
  obtain ⟨accepted, bound, settled⟩ := ordered.run_accepted wf found executed acceptFirst
  have fewer : q'.pendingSends.Sublist (st.shared.pendingSends ++ f.queues.toList) := by
    rcases (exec_effect wf executed).pending with shrinks | ⟨c, credit, rfl, grown⟩
    · exact shrinks.trans (List.sublist_append_left _ _)
    · rw [grown]
      exact .refl _
  have turn := ordered.turn.run ordered.posting wf found executed queueFirst fewer
  refine ⟨ordered.posting.run wf found executed, fun has => ?_,
    ordered.run_untaken wf found executed, accepted, bound, settled, turn⟩
  rcases Threads.State.has_of_run found has with new | old
  · exact exec_onTrack (ordered.track (Threads.State.has_of_top found)) go executed new
  · exact ordered.track old

theorem Reacts.accepted {event : Event} {code : List Frame} (reacts : Reacts q event q' code) :
    accepted q'.log = accepted q.log := by
  cases reacts with
  | quiet only entry => rw [only.log]
  | dma flying => simp [Qp.note, SendQueue.accepted, Entry.accepted]
  | _ => rfl

theorem Reacts.onTrack {event : Event} {code : List Frame} (reacts : Reacts q event q' code)
    {g : Frame} (among : g ∈ code) : g.onTrack := by
  cases reacts with
  | quiet only entry =>
      have first := entry g among
      cases g with
      | post d stage => cases first
      | postRead r stage => cases first
      | postFrames d reason stage caller => cases first
      | _ => trivial
  | dma => cases among
  | memWrite => cases among
  | _ =>
      cases List.mem_singleton.mp among
      trivial

theorem Ordered.event (ordered : Ordered st) {event : Event} {code : List Frame}
    (reacts : Reacts st.shared event q' code) : Ordered ⟨q', st.threads ++ [code]⟩ := by
  have same := reacts.samePsns
  have posting := ordered.posting.event reacts
  refine ⟨posting, fun {g} has => ?_, fun {g op} has posts untaken => ?_, ?_, ?_, ?_, ?_⟩
  · rcases Threads.State.has_of_event has with new | old
    · exact reacts.onTrack new
    · exact ordered.track old
  · rcases Threads.State.has_of_event has with new | old
    · have listed : op ∈ code.filterMap Frame.posts := List.mem_filterMap.mpr ⟨g, new, posts⟩
      rcases reacts.posts with ⟨_, _, sides⟩ | ⟨none, _⟩
      · exact posting.early has posts (sides g new).1
      · rw [none] at listed
        cases listed
    · dsimp only
      rw [same.ticket]
      exact ordered.untaken old posts untaken
  · dsimp only
    rw [reacts.accepted, same.cfg]
    exact ordered.accepted
  · dsimp only
    rw [reacts.accepted, same.taken]
    exact ordered.bound
  · dsimp only
    rw [reacts.accepted, reacts.returns, same.ticket]
    exact ordered.settled
  · dsimp only
    rw [reacts.pendingSends]
    exact ordered.turn.event reacts

theorem ordered_start (cfg : QpConfig) (memory : Nat → UInt8) : Ordered (start cfg memory) where
  posting := posting_start cfg memory
  track := fun ⟨_, among, _⟩ => nomatch among
  untaken := fun ⟨_, among, _⟩ => nomatch among
  accepted := rfl
  bound := Nat.le_refl _
  settled := fun has => nomatch has
  turn := inTurn_start cfg memory

/-- In every run in which no post fails behind its PSN section and posts pass each other
nowhere, the accepted operations have consecutive PSNs from the initial one on and the
pending list is in the order of its PSNs. -/
theorem accepted_psns_consecutive (cfg : QpConfig) (memory : Nat → UInt8) (st : St)
    (reached : Trans.Reaches step PostsInOrder (start cfg memory) st) : PsnsInOrder st := by
  have ordered : Ordered st := by
    refine reaches_invariant (ordered_start cfg memory) ?_ ?_ reached
    · intro st event q' code ordered _ reacts
      exact ordered.event reacts
    · intro st thread choice f rest q' pushed ordered wf meets found executed
      exact ordered.run wf meets found executed
  exact ⟨ordered.accepted, ordered.turn.sorted, ordered.posting.pending⟩

/-! ## Posts of an RC queue pair -/

def threePosts : List Lbl :=
  [(.event (.postSend oneByteSend) : Lbl)] ++ runs 0 postTaken ++
  [(.event (.postRead true) : Lbl)] ++ runs 1 [.ok, .ok, .ok, .ok, .ok, .ok] ++
  [(.event (.postSend oneByteSend) : Lbl)] ++ runs 2 postTaken

theorem accepted_psns_consecutive_three :
    ∃ st, Trans.Reaches step PostsInOrder (start rcConfig fun _ => 7) st ∧
      accepted st.shared.log = [2 ^ 24 - 1, 0, 1] ∧ st.shared.pendingSends = [0, 2] ∧
      PsnsInOrder st := by
  have ran : (Trans.guarded step PostsInOrder threePosts (start rcConfig fun _ => 7)).any
      (fun st => decide (accepted st.shared.log = [2 ^ 24 - 1, 0, 1]) &&
        decide (st.shared.pendingSends = [0, 2])) = true := by
    decide +kernel
  obtain ⟨st, reached, found⟩ := Trans.exists_reaches_of_guarded ran
  simp only [Bool.and_eq_true, decide_eq_true_eq] at found
  exact ⟨st, reached, found.1, found.2, accepted_psns_consecutive _ _ st reached⟩

def postWithoutPath : List Lbl :=
  [(.event (.postSend oneByteSend) : Lbl)] ++
    runs 0 [.ok, .ok, .ok, .ok, .ok, .fail enotconn, .ok] ++
  [(.event (.postSend oneByteSend) : Lbl)] ++ runs 1 postTaken

/-- The only accepted operation has the second PSN; the receiver waits for the first. -/
theorem accepted_psn_skipped :
    ¬ ∀ (cfg : QpConfig) (memory : Nat → UInt8) (st : St),
      Trans.Reaches step (fun _ _ => True) (start cfg memory) st → PsnsInOrder st := by
  intro always
  have ran : (Trans.guarded step (fun _ _ => True) postWithoutPath
      (start rcConfig fun _ => 7)).any (fun st =>
        decide (st.shared.cfg = rcConfig) && decide (accepted st.shared.log = [0])) = true := by
    decide +kernel
  obtain ⟨st, reached, found⟩ := Trans.exists_reaches_of_guarded ran
  simp only [Bool.and_eq_true, decide_eq_true_eq] at found
  have consecutive := (always rcConfig (fun _ => 7) st reached).accepted
  rw [found.1, found.2] at consecutive
  revert consecutive
  decide

end

end Tbv.SendQueue
