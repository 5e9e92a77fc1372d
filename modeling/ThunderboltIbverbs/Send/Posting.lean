import ThunderboltIbverbs.Send.Calls

/-! # Posts and the PSNs they take

Each post is carried on by one frame until it returns, takes at most one PSN, and the
PSNs taken are consecutive in the order in which they are taken.  What fails later is
not given back. -/
set_option autoImplicit false
namespace Tbv.SendQueue

open Tbv.NativeData

/-- The request whose post a frame carries on. -/
def Frame.posts : Frame → Option Nat
  | .post c _ => some c
  | .postFrames c _ _ (.post _) => some c
  | .postRead r _ => some r
  | _ => none

def Entry.returns : Entry → Option Nat
  | .returned c _ _ => some c
  | .returnedRead r _ _ => some r
  | _ => none

def returns (log : List Entry) : List Nat := log.filterMap Entry.returns

@[simp] theorem returns_append (first second : List Entry) :
    returns (first ++ second) = returns first ++ returns second := by
  simp [returns]

def Entry.completes : Entry → Option Nat
  | .completion c _ => some c
  | _ => none

/-- The requests whose completions have been pushed, in order. -/
def completions (log : List Entry) : List Nat := log.filterMap Entry.completes

@[simp] theorem completions_append (first second : List Entry) :
    completions (first ++ second) = completions first ++ completions second := by
  simp [completions]

def Frame.beforePsn : Frame → Bool
  | .post _ .start | .post _ .takeCredit | .post _ (.reserve _) | .post _ (.takePsn _) => true
  | .postRead _ .start | .postRead _ .reserve | .postRead _ .takePsn => true
  | _ => false

/-- The stage comes after it, and the post may still succeed or fail. -/
def Frame.afterPsn : Frame → Bool
  | .post _ (.queue _) | .post _ (.arm _) | .post _ (.framesPosted _ _) => true
  | .postFrames _ _ _ (.post _) => true
  | .postRead _ .build | .postRead _ .queue | .postRead _ .send | .postRead _ (.unqueue _)
  | .postRead _ (.failed _) => true
  | _ => false

def Frame.takesPsn : Frame → Bool
  | .post _ (.takePsn _) | .postRead _ .takePsn => true
  | _ => false

def QpConfig.psn (cfg : QpConfig) (n : Nat) : Nat := (cfg.initialPsn + n) % psnMod

def Frame.psn (q : Qp) : Frame → Nat
  | .post c _ => (q.ctx c).psn
  | .postFrames c _ _ _ => (q.ctx c).psn
  | .postRead r _ => (q.read r).psn
  | _ => 0

section
variable {q q' : Qp} {choice : Choice} {pushed : List Frame} {c : Nat}

/-! ## One frame carries a post on -/

theorem Quiet.returns (only : Quiet q q') : returns q'.log = returns q.log := by
  rw [only.log]

theorem execPost_posts {stage : PostStage}
    (executed : execPost q c choice stage = some (q', pushed)) :
    ∃ new, returns q'.log = returns q.log ++ new ∧
      pushed.filterMap Frame.posts ++ new = [c] := by
  have kept : ∀ {q'}, Quiet q q' → returns q'.log = returns q.log ++ [] := fun only => by
    rw [only.returns, List.append_nil]
  have noted : ∀ {q'} psn ret, Quiet q q' →
      returns (q'.note (.returned c psn ret)).log = returns q.log ++ [c] := fun psn ret only => by
    rw [Qp.note, returns_append, only.returns]
    rfl
  cases stage <;>
    simp only [execPost, Qp.refusePost, Qp.returnPost] at executed <;>
    repeat' split at executed
  all_goals cases executed
  all_goals first
    | exact ⟨[c], noted _ _ (.refl q), rfl⟩
    | exact ⟨[c], noted _ _ (quiet_returnRemoteRecvCredit q), rfl⟩
    | exact ⟨[], kept (.refl q), rfl⟩
    | exact ⟨[], kept (quiet_spendRecvCredit _ _), rfl⟩
    | exact ⟨[], kept (quiet_takeSlot _ _), rfl⟩
    | exact ⟨[], kept (quiet_armSendTimeout _ _), rfl⟩
    | exact ⟨[], (List.append_nil _).symm, rfl⟩
    | exact ⟨[c], returns_append q.log [_], rfl⟩

theorem filterMap_posts_replicate (count : Nat) (status : Int) :
    (List.replicate count (Frame.txDone c status)).filterMap Frame.posts = [] :=
  List.filterMap_eq_nil_iff.mpr fun g among => by
    cases (List.mem_replicate.mp among).2
    rfl

theorem finishOne_posts {who : Finisher} : (finishOne q c who).filterMap Frame.posts = [] := by
  cases who <;> rfl

theorem execPostFrames_posts {reason : PostReason} {caller : Caller} {stage : FramesStage}
    (executed : execPostFrames q c reason caller choice stage = some (q', pushed)) :
    pushed.filterMap Frame.posts = (Frame.postFrames c reason stage caller).posts.toList := by
  cases stage <;> simp only [execPostFrames] at executed <;> repeat' split at executed
  all_goals cases executed
  all_goals
    simp only [List.filterMap_append, filterMap_posts_replicate, List.filterMap_cons,
      List.filterMap_nil, List.nil_append]
    cases caller <;> rfl

theorem execPostRead_posts {r : Nat} {stage : ReadStage}
    (executed : execPostRead q r choice stage = some (q', pushed)) :
    ∃ new, returns q'.log = returns q.log ++ new ∧
      pushed.filterMap Frame.posts ++ new = [r] := by
  have kept : ∀ {q'}, Quiet q q' → returns q'.log = returns q.log ++ [] := fun only => by
    rw [only.returns, List.append_nil]
  have noted : ∀ {q'} psn ret, Quiet q q' →
      returns (q'.note (.returnedRead r psn ret)).log = returns q.log ++ [r] :=
    fun psn ret only => by
      rw [Qp.note, returns_append, only.returns]
      rfl
  cases stage <;> simp only [execPostRead, Qp.returnRead] at executed <;>
    repeat' split at executed
  all_goals cases executed
  all_goals first
    | exact ⟨[r], noted _ _ (.refl q), rfl⟩
    | exact ⟨[r], noted _ _ (quiet_releaseSendqCountedRead q r), rfl⟩
    | exact ⟨[], kept (.refl q), rfl⟩
    | exact ⟨[], kept (quiet_takeSlotRead _ _), rfl⟩
    | exact ⟨[], kept (quiet_queueRead _ _), rfl⟩
    | exact ⟨[], (List.append_nil _).symm, rfl⟩
    | exact ⟨[r], returns_append q.log [_], rfl⟩
    | exact ⟨[], kept (quiet_unqueueRead _ _), rfl⟩

theorem Follows.posts {f : Frame} (follows : Follows q f pushed) (idle : f.posts = none) :
    pushed.filterMap Frame.posts = [] := by
  cases follows with
  | post next => cases idle
  | toFrames late => cases idle
  | read next => cases idle
  | @frames d reason stage stage' caller entered =>
      cases caller with
      | post credit => cases idle
      | worker w => rfl
  | @resume d reason stage caller ret =>
      cases caller with
      | post credit => cases idle
      | worker w => rfl
  | @streamRefused d reason caller pages ret =>
      rw [List.filterMap_append, filterMap_posts_replicate]
      cases caller with
      | post credit => cases idle
      | worker w => rfl
  | cancelled packets => exact filterMap_posts_replicate _ _
  | finish =>
      rw [List.filterMap_append, finishOne_posts]
      rfl
  | claim fresh one => rcases one with rfl | rfl <;> rfl
  | _ => rfl

/-- The post of a request is carried on by the frame's successor or returns. -/
theorem exec_posts {f : Frame} (wf : f.WellFormed)
    (executed : exec q f choice = some (q', pushed)) :
    ∃ new, returns q'.log = returns q.log ++ new ∧
      pushed.filterMap Frame.posts ++ new = f.posts.toList := by
  have silent : ∀ {g : Frame}, (∀ c stage, g ≠ .post c stage) →
      (∀ r stage, g ≠ .postRead r stage) → Effect q g q' →
      returns q'.log = returns q.log ++ [] := by
    intro g noPost noRead effect
    rcases effect.log with same | ⟨entry, grown, emits⟩
    · rw [same, List.append_nil]
    · rw [grown, returns_append]
      cases emits <;> first | rfl | exact absurd rfl (noPost _ _) | exact absurd rfl (noRead _ _)
  have effect := exec_effect wf executed
  cases f with
  | post c stage => exact execPost_posts executed
  | postRead r stage => exact execPostRead_posts executed
  | postFrames c reason stage caller =>
      refine ⟨[], silent (by simp) (by simp) effect, ?_⟩
      rw [List.append_nil]
      exact execPostFrames_posts executed
  | _ =>
      refine ⟨[], silent (by simp) (by simp) effect, ?_⟩
      rw [List.append_nil]
      exact (exec_follows executed).posts rfl

/-- A posting frame was pushed by a frame of the same post, and it stands on the same
side of the PSN section unless it comes right after it. -/
theorem Follows.sides {f g : Frame} (follows : Follows q f pushed) (among : g ∈ pushed) :
    (g.beforePsn = true → f.beforePsn = true ∧ f.takesPsn = false) ∧
      (g.afterPsn = true → f.takesPsn = true ∨ f.afterPsn = true ∧ g.psn q = f.psn q) := by
  have idle : ∀ {h : Frame}, h.beforePsn = false → h.afterPsn = false →
      (h.beforePsn = true → f.beforePsn = true ∧ f.takesPsn = false) ∧
        (h.afterPsn = true → f.takesPsn = true ∨ f.afterPsn = true ∧ h.psn q = f.psn q) := by
    intro h before after
    simp [before, after]
  cases follows with
  | nothing => cases among
  | @post d stage stage' next =>
      cases List.mem_singleton.mp among
      cases stage <;> cases stage' <;> first
        | exact False.elim next
        | simp [Frame.beforePsn, Frame.afterPsn, Frame.takesPsn, Frame.psn]
  | @toFrames d stage credit late =>
      cases List.mem_singleton.mp among
      rcases late with rfl | rfl <;>
        simp [Frame.beforePsn, Frame.afterPsn, Frame.takesPsn, Frame.psn]
  | @frames d reason stage stage' caller entered =>
      cases List.mem_singleton.mp among
      cases caller <;> simp [Frame.beforePsn, Frame.afterPsn, Frame.takesPsn, Frame.psn]
  | @resume d reason stage caller ret =>
      cases List.mem_singleton.mp among
      cases caller <;>
        simp [Caller.resume, Frame.beforePsn, Frame.afterPsn, Frame.takesPsn, Frame.psn]
  | @streamRefused d reason caller pages ret =>
      rcases List.mem_append.mp among with callback | last
      · cases (List.mem_replicate.mp callback).2
        exact idle rfl rfl
      · cases List.mem_singleton.mp last
        cases caller <;>
          simp [Caller.resume, Frame.beforePsn, Frame.afterPsn, Frame.takesPsn, Frame.psn]
  | @read r stage stage' next =>
      cases List.mem_singleton.mp among
      cases stage <;> cases stage' <;> first
        | exact False.elim next
        | simp [Frame.beforePsn, Frame.afterPsn, Frame.takesPsn, Frame.psn]
  | cancelled packets =>
      cases (List.mem_replicate.mp among).2
      exact idle rfl rfl
  | claim fresh one =>
      rcases one with rfl | rfl <;> simp only [List.mem_cons, List.not_mem_nil, or_false] at among
      · subst among
        exact idle rfl rfl
      · rcases among with rfl | rfl <;> exact idle rfl rfl
  | @finish who d rest err err' =>
      rcases List.mem_append.mp among with one | last
      · cases who <;> simp only [finishOne, List.mem_cons, List.not_mem_nil, or_false] at one
        · subst one
          exact idle rfl rfl
        · rcases one with rfl | rfl | rfl <;> exact idle rfl rfl
        · rcases one with rfl | rfl <;> exact idle rfl rfl
        · rcases one with rfl | rfl <;> exact idle rfl rfl
      · cases List.mem_singleton.mp last
        exact idle rfl rfl
  | drained last uc =>
      simp only [List.mem_cons, List.not_mem_nil, or_false] at among
      rcases among with rfl | rfl <;> exact idle rfl rfl
  | flush =>
      simp only [List.mem_cons, List.not_mem_nil, or_false] at among
      rcases among with rfl | rfl <;> exact idle rfl rfl
  | workerError =>
      simp only [List.mem_cons, List.not_mem_nil, or_false] at among
      rcases among with rfl | rfl <;> exact idle rfl rfl
  | workerFinish reads status needResched =>
      simp only [List.mem_cons, List.not_mem_nil, or_false] at among
      rcases among with rfl | rfl | rfl <;> exact idle rfl rfl
  | finishRead r status reads status' =>
      simp only [List.mem_cons, List.not_mem_nil, or_false] at among
      rcases among with rfl | rfl <;> exact idle rfl rfl
  | _ =>
      cases List.mem_singleton.mp among
      exact idle rfl rfl

/-! ## Tickets -/

/-- The PSNs are taken one after the other: each ticket below `taken` belongs to one
request, and the next PSN is that of the next ticket. -/
structure Tickets (q : Qp) : Prop where
  bounded : ∀ {op n}, q.ticket op = some n → n < q.taken ∧ op < q.nextOp
  injective : ∀ {op other n}, q.ticket op = some n → q.ticket other = some n → op = other
  onto : ∀ {n}, n < q.taken → ∃ op, q.ticket op = some n
  sendPsn : q.sendPsn = q.cfg.psn q.taken

structure SamePsns (q q' : Qp) : Prop where
  cfg : q'.cfg = q.cfg
  nextOp : q.nextOp ≤ q'.nextOp
  ticket : q'.ticket = q.ticket
  taken : q'.taken = q.taken
  sendPsn : q'.sendPsn = q.sendPsn
  psn : ∀ c < q.nextOp, (q'.ctx c).psn = (q.ctx c).psn
  readPsn : ∀ r < q.nextOp, (q'.read r).psn = (q.read r).psn

theorem Quiet.samePsns (only : Quiet q q') : SamePsns q q' :=
  ⟨only.cfg, only.nextOp.ge, only.ticket, only.taken, only.sendPsn,
    fun c _ => congrArg Core.psn (only.core c), fun r _ => only.readPsn r⟩

theorem Effect.samePsns {f : Frame} (effect : Effect q f q') :
    SamePsns q q' ∨ (∃ c credit, f = .post c (.takePsn credit) ∧ q' = q.takePsn c) ∨
      ∃ r, f = .postRead r .takePsn ∧ q' = q.takePsnRead r := by
  cases effect with
  | quiet only => exact .inl only.samePsns
  | emit emits only => exact .inl { only.samePsns with }
  | @takePsn c credit is eq => exact .inr (.inl ⟨c, credit, is, eq⟩)
  | @takePsnRead r is eq => exact .inr (.inr ⟨r, is, eq⟩)
  | queue is only => exact .inl { only.samePsns with }
  | unqueue is negative listed only => exact .inl { only.samePsns with }
  | unqueueReturn is negative listed only => exact .inl { only.samePsns with }
  | decide decided =>
      have base := decided.base
      refine .inl ⟨base.cfg, base.nextOp.ge, base.ticket, base.taken, base.sendPsn,
        fun c _ => ?_, fun r _ => base.readPsn r⟩
      rcases decided.core c with same | ⟨_, status, _, set⟩
      · exact congrArg Core.psn same
      · exact congrArg Core.psn set
  | complete is fresh eq =>
      subst eq
      refine .inl ⟨rfl, Nat.le_refl _, rfl, rfl, rfl, fun d _ => ?_, fun _ _ => rfl⟩
      simp only [Qp.setCompleted, modCtx_ctx]
      split <;> simp_all
  | enqueue is eq =>
      subst eq
      exact .inl ⟨rfl, Nat.le_refl _, rfl, rfl, rfl, fun _ _ => rfl, fun _ _ => rfl⟩
  | stream is only => exact .inl { only.samePsns with }
  | cancel is eq =>
      subst eq
      exact .inl ⟨rfl, Nat.le_refl _, rfl, rfl, rfl, fun _ _ => rfl, fun _ _ => rfl⟩

theorem Reacts.samePsns {event : Event} {code : List Frame} (reacts : Reacts q event q' code) :
    SamePsns q q' := by
  cases reacts with
  | postSend wr =>
      refine ⟨rfl, Nat.le_succ _, rfl, rfl, rfl, fun c old => ?_, fun _ _ => rfl⟩
      simp [Function.update_of_ne (Nat.ne_of_lt old)]
  | postRead signaled =>
      refine ⟨rfl, Nat.le_succ _, rfl, rfl, rfl, fun _ _ => rfl, fun r old => ?_⟩
      simp [Function.update_of_ne (Nat.ne_of_lt old)]
  | quiet only entry => exact only.samePsns
  | _ => exact ⟨rfl, Nat.le_refl _, rfl, rfl, rfl, fun _ _ => rfl, fun _ _ => rfl⟩

theorem Tickets.keep (tickets : Tickets q) (same : SamePsns q q') : Tickets q' where
  bounded := fun {op n} has => by
    rw [same.ticket] at has
    have := tickets.bounded has
    exact ⟨same.taken ▸ this.1, Nat.lt_of_lt_of_le this.2 same.nextOp⟩
  injective := fun {op other n} one two => by
    rw [same.ticket] at one two
    exact tickets.injective one two
  onto := fun {n} below => by
    rw [same.taken] at below
    rw [same.ticket]
    exact tickets.onto below
  sendPsn := by rw [same.sendPsn, same.cfg, same.taken]; exact tickets.sendPsn

theorem psn_succ (cfg : QpConfig) (n : Nat) : psnNext (cfg.psn n % psnMod) = cfg.psn (n + 1) := by
  simp only [psnNext, QpConfig.psn, psnMod]
  omega

theorem Tickets.advance (tickets : Tickets q) {op : Nat} (old : op < q.nextOp)
    (none : q.ticket op = none) : Tickets (q.advancePsn op) where
  bounded := fun {other n} has => by
    simp only [Qp.advancePsn, Function.update_apply] at has ⊢
    split at has
    · rename_i same
      cases has
      exact ⟨Nat.lt_succ_self _, same ▸ old⟩
    · have := tickets.bounded has
      exact ⟨Nat.lt_succ_of_lt this.1, this.2⟩
  injective := fun {one two n} first second => by
    simp only [Qp.advancePsn, Function.update_apply] at first second
    split at first <;> split at second
    · simp_all
    · cases first
      exact absurd (tickets.bounded second).1 (Nat.lt_irrefl _)
    · cases second
      exact absurd (tickets.bounded first).1 (Nat.lt_irrefl _)
    · exact tickets.injective first second
  onto := fun {n} below => by
    simp only [Qp.advancePsn] at below ⊢
    rcases Nat.lt_succ_iff_lt_or_eq.mp below with before | rfl
    · obtain ⟨other, has⟩ := tickets.onto before
      refine ⟨other, ?_⟩
      rw [Function.update_of_ne, has]
      rintro rfl
      rw [none] at has
      cases has
    · exact ⟨op, by simp⟩
  sendPsn := by
    simp only [Qp.advancePsn]
    rw [tickets.sendPsn, psn_succ]

theorem Tickets.advanced_psn (tickets : Tickets q) : q.sendPsn % psnMod = q.cfg.psn q.taken := by
  rw [tickets.sendPsn, QpConfig.psn, Nat.mod_mod]

theorem SamePsns.frame (same : SamePsns q q') {g : Frame} {op : Nat} (posts : g.posts = some op)
    (old : op < q.nextOp) : g.psn q' = g.psn q := by
  cases g with
  | post c stage =>
      cases posts
      exact same.psn _ old
  | postFrames c reason stage caller =>
      cases caller with
      | post credit =>
          cases posts
          exact same.psn _ old
      | worker w => cases posts
  | postRead r stage =>
      cases posts
      exact same.readPsn _ old
  | _ => cases posts

/-! ## Every state -/

def carries (op : Nat) (f : Frame) : Nat := if f.posts = some op then 1 else 0

theorem weigh_carries (op : Nat) (code : List Frame) :
    Threads.weigh (carries op) code = (code.filterMap Frame.posts).count op := by
  induction code with
  | nil => rfl
  | cons f rest ih =>
      rw [Threads.weigh_cons, ih, carries]
      cases posts : f.posts with
      | none => simp [posts]
      | some other =>
          rw [List.filterMap_cons_some posts, List.count_cons]
          by_cases same : other = op <;> simp [same, Nat.add_comm]

/-- Each request given to the driver is carried on by one frame or has returned. -/
def Carried (st : St) : Prop :=
  ∀ op, st.total (carries op) + (returns st.shared.log).count op =
    if op < st.shared.nextOp then 1 else 0

section
variable {st : St} {f : Frame} {op : Nat}

theorem Carried.old (carried : Carried st) (has : st.Has f) (posts : f.posts = some op) :
    op < st.shared.nextOp := by
  have weighs := Threads.State.weight_le_total (carries op) has
  have one := carried op
  simp only [carries, posts, if_true] at weighs
  by_contra new
  rw [if_neg new] at one
  omega

theorem Carried.unique (carried : Carried st) {g : Frame} (has : st.Has f) (hasOther : st.Has g)
    (posts : f.posts = some op) (postsOther : g.posts = some op) : f = g := by
  have one := carried op
  rw [if_pos (carried.old has posts)] at one
  have weighs := Threads.State.weight_le_total (carries op) has
  simp only [carries, posts, if_true] at weighs
  refine @Threads.State.eq_of_total_one _ _ st (carries op) (by omega) _ _ has hasOther ?_ ?_
  · simp [carries, posts]
  · simp [carries, postsOther]

theorem Carried.unreturned (carried : Carried st) (has : st.Has f) (posts : f.posts = some op) :
    op ∉ returns st.shared.log := by
  have one := carried op
  rw [if_pos (carried.old has posts)] at one
  have weighs := Threads.State.weight_le_total (carries op) has
  simp only [carries, posts, if_true] at weighs
  refine List.count_eq_zero.mp ?_
  omega

theorem Carried.run (carried : Carried st) {thread : Nat} {rest : List Frame} (wf : f.WellFormed)
    (found : st.threads[thread]? = some (f :: rest))
    (executed : exec st.shared f choice = some (q', pushed)) :
    Carried ⟨q', st.threads.set thread (pushed ++ rest)⟩ := by
  intro op
  obtain ⟨new, log, split⟩ := exec_posts wf executed
  have moved := @Threads.State.total_run _ _ st (carries op) _ _ _ pushed q' found
  have balance : Threads.weigh (carries op) pushed + new.count op = carries op f := by
    rw [weigh_carries, ← List.count_append, split, carries]
    cases posts : f.posts with
    | none => rfl
    | some other => by_cases same : other = op <;> simp [same]
  have before := carried op
  dsimp only
  rw [log, List.count_append, (exec_effect wf executed).static.nextOp]
  omega

end

/-- Each request is carried on by one frame or has returned, and has a ticket exactly if
it has passed the PSN section. -/
structure Posting (st : St) : Prop where
  tickets : Tickets st.shared
  carried : Carried st
  early : ∀ {f op}, st.Has f → f.posts = some op → f.beforePsn = true →
    st.shared.ticket op = none
  late : ∀ {f op}, st.Has f → f.posts = some op → f.afterPsn = true →
    ∃ n, st.shared.ticket op = some n ∧ f.psn st.shared = st.shared.cfg.psn n
  pending : ∀ c ∈ st.shared.pendingSends,
    ∃ n, st.shared.ticket c = some n ∧ (st.shared.ctx c).psn = st.shared.cfg.psn n

section
variable {st : St} {f : Frame} {op : Nat}

theorem posting_start (cfg : QpConfig) (memory : Nat → UInt8) : Posting (start cfg memory) where
  tickets :=
    { bounded := fun has => nomatch has
      injective := fun has _ => nomatch has
      onto := fun below => absurd below (Nat.not_lt_zero _)
      sendPsn := rfl }
  carried := fun op => rfl
  early := fun has => by
    obtain ⟨code, among, _⟩ := has
    cases among
  late := fun has => by
    obtain ⟨code, among, _⟩ := has
    cases among
  pending := fun c listed => nomatch listed

theorem Frame.posts_of_isEntry {g : Frame} (entry : g.isEntry = true) : g.posts = none := by
  cases g <;> first | rfl | cases entry

theorem Reacts.returns {event : Event} {code : List Frame} (reacts : Reacts q event q' code) :
    returns q'.log = returns q.log := by
  cases reacts with
  | quiet only entry => exact only.returns
  | dma flying => simp [Qp.note, SendQueue.returns, Entry.returns]
  | _ => rfl

theorem Reacts.pendingSends {event : Event} {code : List Frame}
    (reacts : Reacts q event q' code) : q'.pendingSends = q.pendingSends := by
  cases reacts with
  | quiet only entry => exact only.pendingSends
  | _ => rfl

/-- A posting frame of an event's thread starts the post of a new request. -/
theorem Reacts.posts {event : Event} {code : List Frame} (reacts : Reacts q event q' code) :
    (code.filterMap Frame.posts = [q.nextOp] ∧ q'.nextOp = q.nextOp + 1 ∧
      ∀ g ∈ code, g.beforePsn = true ∧ g.afterPsn = false) ∨
    (code.filterMap Frame.posts = [] ∧ q'.nextOp = q.nextOp) := by
  cases reacts with
  | postSend wr => exact .inl ⟨rfl, rfl, by simp [Frame.beforePsn, Frame.afterPsn]⟩
  | postRead signaled => exact .inl ⟨rfl, rfl, by simp [Frame.beforePsn, Frame.afterPsn]⟩
  | quiet only entry =>
      refine .inr ⟨List.filterMap_eq_nil_iff.mpr fun g among => ?_, only.nextOp⟩
      exact Frame.posts_of_isEntry (entry g among)
  | _ => exact .inr ⟨rfl, rfl⟩

theorem Posting.event (posting : Posting st) {event : Event} {code : List Frame}
    (reacts : Reacts st.shared event q' code) : Posting ⟨q', st.threads ++ [code]⟩ := by
  have same := reacts.samePsns
  have fresh : ∀ {g op}, g ∈ code → g.posts = some op →
      op = st.shared.nextOp ∧ g.beforePsn = true ∧ g.afterPsn = false := by
    intro g op among posts
    have listed : op ∈ code.filterMap Frame.posts := List.mem_filterMap.mpr ⟨g, among, posts⟩
    rcases reacts.posts with ⟨new, _, sides⟩ | ⟨none, _⟩
    · rw [new] at listed
      exact ⟨List.mem_singleton.mp listed, sides g among⟩
    · rw [none] at listed
      cases listed
  refine ⟨posting.tickets.keep same, fun op => ?_, fun has posts before => ?_,
    fun has posts after => ?_, fun c listed => ?_⟩
  · have one := posting.carried op
    rw [Threads.State.total_event, weigh_carries]
    dsimp only
    rw [reacts.returns]
    rcases reacts.posts with ⟨new, next, _⟩ | ⟨none, next⟩
    · rw [new, next, List.count_singleton]
      by_cases isNew : st.shared.nextOp = op
      · subst isNew
        simp at one ⊢
        omega
      · simp only [beq_iff_eq, isNew, if_false]
        split at one <;> split <;> omega
    · rw [none, next]
      simpa using one
  · dsimp only
    rw [same.ticket]
    rcases Threads.State.has_of_event has with new | old
    · rw [(fresh new posts).1]
      cases has : st.shared.ticket st.shared.nextOp with
      | none => rfl
      | some n => exact absurd (posting.tickets.bounded has).2 (Nat.lt_irrefl _)
    · exact posting.early old posts before
  · dsimp only
    rw [same.ticket, same.cfg]
    rcases Threads.State.has_of_event has with new | old
    · rw [(fresh new posts).2.2] at after
      cases after
    · rw [same.frame posts (posting.carried.old old posts)]
      exact posting.late old posts after
  · dsimp only at listed ⊢
    rw [reacts.pendingSends] at listed
    obtain ⟨n, has, psn⟩ := posting.pending c listed
    refine ⟨n, by rw [same.ticket]; exact has, ?_⟩
    rw [same.psn c (posting.tickets.bounded has).2, same.cfg]
    exact psn

theorem Posting.run_same (posting : Posting st) {thread : Nat} {rest : List Frame} (wf : f.WellFormed)
    (found : st.threads[thread]? = some (f :: rest))
    (executed : exec st.shared f choice = some (q', pushed)) (idle : f.takesPsn = false)
    (same : SamePsns st.shared q') :
    (∀ {g op}, Threads.State.Has ⟨q', st.threads.set thread (pushed ++ rest)⟩ g →
      g.posts = some op → g.beforePsn = true → q'.ticket op = none) ∧
    (∀ {g op}, Threads.State.Has ⟨q', st.threads.set thread (pushed ++ rest)⟩ g →
      g.posts = some op → g.afterPsn = true →
      ∃ n, q'.ticket op = some n ∧ g.psn q' = q'.cfg.psn n) := by
  have top := Threads.State.has_of_top found
  obtain ⟨new, _, split⟩ := exec_posts wf executed
  have carried : ∀ {g op}, g ∈ pushed → g.posts = some op → f.posts = some op := by
    intro g op among posts
    have listed : op ∈ f.posts.toList := by
      rw [← split]
      exact List.mem_append_left _ (List.mem_filterMap.mpr ⟨g, among, posts⟩)
    exact Option.mem_toList.mp listed
  rw [same.ticket, same.cfg]
  constructor
  · intro g op has posts before
    rcases Threads.State.has_of_run found has with new | old
    · exact posting.early top (carried new posts)
        (((exec_follows executed).sides new).1 before).1
    · exact posting.early old posts before
  · intro g op has posts after
    rcases Threads.State.has_of_run found has with new | old
    · have mine := carried new posts
      rcases ((exec_follows executed).sides new).2 after with takes | ⟨late, psn⟩
      · rw [idle] at takes
        cases takes
      · rw [same.frame posts (posting.carried.old top mine), psn]
        exact posting.late top mine late
    · rw [same.frame posts (posting.carried.old old posts)]
      exact posting.late old posts after

theorem Posting.run_takes (posting : Posting st) {thread : Nat} {rest : List Frame} {next : Frame}
    (found : st.threads[thread]? = some (f :: rest))
    (carried : Carried ⟨q', st.threads.set thread ([next] ++ rest)⟩)
    (posts : next.posts = some op) (late : next.beforePsn = false)
    (cfg : q'.cfg = st.shared.cfg)
    (ticket : q'.ticket = Function.update st.shared.ticket op (some st.shared.taken))
    (psn : next.psn q' = q'.cfg.psn st.shared.taken)
    (others : ∀ {g : Frame} {other}, g.posts = some other → other ≠ op → g.psn q' = g.psn st.shared) :
    (∀ {g other}, Threads.State.Has ⟨q', st.threads.set thread ([next] ++ rest)⟩ g →
      g.posts = some other → g.beforePsn = true → q'.ticket other = none) ∧
    (∀ {g other}, Threads.State.Has ⟨q', st.threads.set thread ([next] ++ rest)⟩ g →
      g.posts = some other → g.afterPsn = true →
      ∃ n, q'.ticket other = some n ∧ g.psn q' = q'.cfg.psn n) := by
  have inNext : Threads.State.Has ⟨q', st.threads.set thread ([next] ++ rest)⟩ next := by
    refine ⟨next :: rest, ?_, List.mem_cons_self ..⟩
    have inside : thread < st.threads.length := (List.getElem?_eq_some_iff.mp found).1
    exact List.mem_of_getElem? (List.getElem?_set_self inside)
  have stood : ∀ {g other}, Threads.State.Has ⟨q', st.threads.set thread ([next] ++ rest)⟩ g →
      g.posts = some other → other ≠ op → st.Has g := by
    intro g other has mine distinct
    rcases Threads.State.has_of_run found has with new | old
    · cases List.mem_singleton.mp new
      rw [posts] at mine
      exact absurd (Option.some.inj mine).symm distinct
    · exact old
  constructor
  · intro g other has mine before
    by_cases same : other = op
    · subst same
      rw [carried.unique has inNext mine posts, late] at before
      cases before
    · rw [ticket, Function.update_of_ne same]
      exact posting.early (stood has mine same) mine before
  · intro g other has mine after
    by_cases same : other = op
    · subst same
      rw [carried.unique has inNext mine posts, ticket]
      exact ⟨st.shared.taken, by simp, psn⟩
    · rw [ticket, Function.update_of_ne same, others mine same, cfg]
      exact posting.late (stood has mine same) mine after

theorem takePsn_psn_other {g : Frame} {other : Nat} (mine : g.posts = some other)
    (distinct : other ≠ c) : g.psn (q.takePsn c) = g.psn q := by
  have ctx : ((q.takePsn c).ctx other).psn = (q.ctx other).psn := by
    simp [Qp.takePsn, modCtx_ctx, distinct, Qp.advancePsn]
  cases g with
  | post d stage => cases mine; exact ctx
  | postFrames d reason stage caller =>
      cases caller <;> cases mine
      exact ctx
  | postRead r stage => rfl
  | _ => cases mine

theorem takePsnRead_psn_other {r : Nat} {g : Frame} {other : Nat} (mine : g.posts = some other)
    (distinct : other ≠ r) : g.psn (q.takePsnRead r) = g.psn q := by
  cases g with
  | postRead d stage =>
      cases mine
      simp [Frame.psn, Qp.takePsnRead, Qp.modRead, Function.update_of_ne distinct, Qp.advancePsn]
  | _ => rfl

theorem exec_takesPsn (executed : exec q f choice = some (q', pushed))
    (takes : f.takesPsn = true) : q'.taken = q.taken + 1 := by
  cases f with
  | post c stage =>
      cases stage <;> cases takes
      cases executed
      rfl
  | postRead r stage =>
      cases stage <;> cases takes
      cases executed
      rfl
  | _ => cases takes

theorem Posting.run (posting : Posting st) {thread : Nat} {rest : List Frame} (wf : f.WellFormed)
    (found : st.threads[thread]? = some (f :: rest))
    (executed : exec st.shared f choice = some (q', pushed)) :
    Posting ⟨q', st.threads.set thread (pushed ++ rest)⟩ := by
  have top := Threads.State.has_of_top found
  have effect := exec_effect wf executed
  have carried := posting.carried.run wf found executed
  rcases effect.samePsns with same | ⟨c, credit, rfl, rfl⟩ | ⟨r, rfl, rfl⟩
  · have idle : f.takesPsn = false := by
      by_contra takes
      have advanced := exec_takesPsn executed (by simpa using takes)
      have := same.taken
      omega
    have sides := posting.run_same wf found executed idle same
    refine ⟨posting.tickets.keep same, carried, sides.1, sides.2, fun c listed => ?_⟩
    have before : ∃ n, st.shared.ticket c = some n ∧
        (st.shared.ctx c).psn = st.shared.cfg.psn n := by
      rcases effect.pending with shrinks | ⟨d, credit, rfl, grown⟩
      · exact posting.pending c (shrinks.subset listed)
      · dsimp only at listed
        rw [grown] at listed
        rcases List.mem_append.mp listed with old | new
        · exact posting.pending c old
        · cases List.mem_singleton.mp new
          exact posting.late top rfl rfl
    obtain ⟨n, has, psn⟩ := before
    refine ⟨n, by rw [same.ticket]; exact has, ?_⟩
    dsimp only
    rw [same.psn c (posting.tickets.bounded has).2, same.cfg]
    exact psn
  · cases executed
    have untaken := posting.early top rfl rfl
    have advanced := posting.tickets.advance (posting.carried.old top rfl) untaken
    have psn : ((st.shared.takePsn c).ctx c).psn = st.shared.cfg.psn st.shared.taken := by
      simp [Qp.takePsn, modCtx_ctx, posting.tickets.advanced_psn]
    have sides := posting.run_takes found carried rfl rfl rfl rfl psn takePsn_psn_other
    refine ⟨{ advanced with }, carried, sides.1, sides.2, fun d listed => ?_⟩
    obtain ⟨n, has, old⟩ := posting.pending d listed
    have distinct : d ≠ c := fun same => by
      rw [same, untaken] at has
      cases has
    refine ⟨n, by simpa [Qp.takePsn, Qp.modCtx, Qp.advancePsn, distinct] using has, ?_⟩
    have kept : ((st.shared.takePsn c).ctx d).psn = (st.shared.ctx d).psn := by
      simp [Qp.takePsn, modCtx_ctx, distinct, Qp.advancePsn]
    exact kept.trans old
  · cases executed
    have untaken := posting.early top rfl rfl
    have advanced := posting.tickets.advance (posting.carried.old top rfl) untaken
    have psn : ((st.shared.takePsnRead r).read r).psn = st.shared.cfg.psn st.shared.taken := by
      simp [Qp.takePsnRead, Qp.modRead, posting.tickets.advanced_psn]
    have sides := posting.run_takes found carried rfl rfl rfl rfl psn takePsnRead_psn_other
    refine ⟨{ advanced with }, carried, sides.1, sides.2, fun d listed => ?_⟩
    obtain ⟨n, has, old⟩ := posting.pending d listed
    have distinct : d ≠ r := fun same => by
      rw [same, untaken] at has
      cases has
    exact ⟨n, by simpa [Qp.takePsnRead, Qp.modRead, Qp.advancePsn, distinct] using has, old⟩

end

end

end Tbv.SendQueue
