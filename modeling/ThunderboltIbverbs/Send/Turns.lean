import ThunderboltIbverbs.Send.Posting
import ThunderboltIbverbs.Send.SameBytes

/-! # Requests in the order of their PSNs

The PSN of a request is taken in one section and the request queued in another.  A list
that only loses members, except where a post queues its request at its end, stays in the
order in which the PSNs were taken as long as no post overtakes another between the two. -/
set_option autoImplicit false
namespace Tbv.SendQueue

/-- The request took its PSN before the other one did. -/
def Qp.Earlier (q : Qp) (c d : Nat) : Prop :=
  ∃ m ∈ q.ticket c, ∃ n ∈ q.ticket d, m < n

instance (q : Qp) (c d : Nat) : Decidable (q.Earlier c d) :=
  inferInstanceAs (Decidable (∃ m ∈ q.ticket c, ∃ n ∈ q.ticket d, m < n))

def Frame.queues : Frame → Option Nat
  | .post c (.queue _) => some c
  | _ => none

section
variable {st : St} {q q' : Qp} {choice : Choice} {pushed : List Frame} {f : Frame} {c op : Nat}

theorem Effect.psnSection (effect : Effect q f q') :
    SamePsns q q' ∨ ∃ op, f.posts = some op ∧ f.takesPsn = true ∧ q'.taken = q.taken + 1 ∧
      q'.ticket = Function.update q.ticket op (some q.taken) ∧
      q'.pendingSends = q.pendingSends ∧ q'.log = q.log ∧ q'.cfg = q.cfg := by
  rcases effect.samePsns with same | ⟨c, credit, rfl, rfl⟩ | ⟨r, rfl, rfl⟩
  · exact .inl same
  · exact .inr ⟨c, rfl, rfl, rfl, rfl, rfl, rfl, rfl⟩
  · exact .inr ⟨r, rfl, rfl, rfl, rfl, rfl, rfl, rfl⟩

theorem Qp.Earlier.irrefl : ¬ q.Earlier c c := by
  rintro ⟨m, hasM, n, hasN, less⟩
  have : m = n := Option.some.inj (hasM.symm.trans hasN)
  omega

theorem nodup_of_earlier {chain : List Nat} (sorted : chain.Pairwise q.Earlier) : chain.Nodup := by
  refine sorted.imp fun {a b} earlier => ?_
  rintro rfl
  exact earlier.irrefl

theorem Qp.Earlier.keep {d : Nat} (same : q'.ticket = q.ticket) (earlier : q.Earlier c d) :
    q'.Earlier c d := by
  unfold Qp.Earlier at *
  rwa [same]

theorem Qp.Earlier.advance {d : Nat} {n : Nat} (none : q.ticket op = none)
    (ticket : q'.ticket = Function.update q.ticket op (some n)) (earlier : q.Earlier c d) :
    q'.Earlier c d := by
  obtain ⟨m, hasM, k, hasK, less⟩ := earlier
  have other : ∀ {e i}, i ∈ q.ticket e → q'.ticket e = q.ticket e := fun {e i} has => by
    rw [ticket, Function.update_of_ne]
    rintro rfl
    rw [none] at has
    cases has
  exact ⟨m, by rw [other hasM]; exact hasM, k, by rw [other hasK]; exact hasK, less⟩

theorem Tickets.earlier_or (tickets : Tickets q) {d m n : Nat} (ticketC : q.ticket c = some m)
    (ticketD : q.ticket d = some n) (distinct : c ≠ d) : q.Earlier c d ∨ q.Earlier d c := by
  rcases Nat.lt_trichotomy m n with less | same | more
  · exact .inl ⟨m, ticketC, n, ticketD, less⟩
  · exact absurd (tickets.injective ticketC (same ▸ ticketD)) distinct
  · exact .inr ⟨n, ticketD, m, ticketC, more⟩

theorem exec_posts_of_mem (wf : f.WellFormed) (executed : exec q f choice = some (q', pushed))
    {g : Frame} (among : g ∈ pushed) (posts : g.posts = some op) : f.posts = some op := by
  obtain ⟨new, _, split⟩ := exec_posts wf executed
  have listed : op ∈ f.posts.toList := by
    rw [← split]
    exact List.mem_append_left _ (List.mem_filterMap.mpr ⟨g, among, posts⟩)
  exact Option.mem_toList.mp listed

theorem Frame.posts_of_queues (queues : f.queues = some c) : f.posts = some c := by
  cases f with
  | post d stage => cases stage <;> first | exact queues | cases queues
  | _ => cases queues

theorem Follows.queues {g : Frame} (follows : Follows q f pushed) (among : g ∈ pushed)
    (queues : g.queues = some c) : f.takesPsn = true := by
  have isQueue : ∃ credit, g = .post c (.queue credit) := by
    cases g with
    | post d stage =>
        cases stage <;> cases queues
        exact ⟨_, rfl⟩
    | _ => cases queues
  obtain ⟨credit, rfl⟩ := isQueue
  rcases (follows.sides among).2 rfl with takes | ⟨late, _⟩
  · exact takes
  · cases follows with
    | @post _ stage _ next =>
        cases List.mem_singleton.mp among
        cases stage <;> first | rfl | cases next
    | @resume _ _ _ caller _ => cases caller <;> cases List.mem_singleton.mp among
    | @streamRefused _ _ caller _ _ =>
        rcases List.mem_append.mp among with callback | last
        · cases (List.mem_replicate.mp callback).2
        · cases caller <;> cases List.mem_singleton.mp last
    | cancelled packets => cases (List.mem_replicate.mp among).2
    | claim fresh one => rcases one with rfl | rfl <;> simp at among
    | @finish who d rest err err' => cases who <;> simp [finishOne] at among
    | _ => simp at among

theorem Frame.afterPsn_of_queues (queues : f.queues = some c) : f.afterPsn = true := by
  cases f with
  | post d stage => cases stage <;> first | rfl | cases queues
  | _ => cases queues

theorem Frame.beforePsn_of_takesPsn (takes : f.takesPsn = true) : f.beforePsn = true := by
  cases f with
  | post d stage => cases stage <;> first | rfl | cases takes
  | postRead r stage => cases stage <;> first | rfl | cases takes
  | _ => cases takes

theorem Frame.queues_of_takesPsn (takes : f.takesPsn = true) : f.queues = none := by
  cases f with
  | post d stage => cases stage <;> first | rfl | cases takes
  | _ => rfl

theorem exec_queue (queues : f.queues = some c)
    (executed : exec q f choice = some (q', pushed)) :
    ∃ next, pushed = [next] ∧ next.posts = some c ∧ next.queues = none := by
  cases f with
  | post d stage =>
      cases stage <;> cases queues
      simp only [exec, execPost] at executed
      split at executed <;> cases executed
      · exact ⟨_, rfl, rfl, rfl⟩
      · exact ⟨_, rfl, rfl, rfl⟩
  | _ => cases queues

theorem Posting.queued_once (posting : Posting st) {thread : Nat} {rest : List Frame} {g : Frame}
    {d : Nat} (wf : f.WellFormed) (found : st.threads[thread]? = some (f :: rest))
    (executed : exec st.shared f choice = some (q', pushed))
    (has : Threads.State.Has ⟨q', st.threads.set thread (pushed ++ rest)⟩ g)
    (queues : g.queues = some d) (queuesNow : f.queues = some c) : d ≠ c := by
  rintro rfl
  have after := posting.run wf found executed
  obtain ⟨next, rfl, posts, idle⟩ := exec_queue queuesNow executed
  have inNext : Threads.State.Has ⟨q', st.threads.set thread ([next] ++ rest)⟩ next := by
    refine ⟨next :: rest, ?_, List.mem_cons_self ..⟩
    have inside : thread < st.threads.length := (List.getElem?_eq_some_iff.mp found).1
    exact List.mem_of_getElem? (List.getElem?_set_self inside)
  have same := after.carried.unique has inNext (Frame.posts_of_queues queues) posts
  rw [same, idle] at queues
  cases queues

/-- The requests of the list took their PSNs in its order, and before every post that
still has to queue its request. -/
structure InTurn (st : St) (chain : List Nat) : Prop where
  sorted : chain.Pairwise st.shared.Earlier
  ticketed : ∀ {c}, c ∈ chain → ∃ n, st.shared.ticket c = some n
  above : ∀ {g d}, st.Has g → g.queues = some d → ∀ {c}, c ∈ chain → st.shared.Earlier c d

theorem InTurn.sublist {chain shorter : List Nat} (turn : InTurn st chain)
    (fewer : shorter.Sublist chain) : InTurn st shorter where
  sorted := turn.sorted.sublist fewer
  ticketed := fun listed => turn.ticketed (fewer.subset listed)
  above := fun has queues _ listed => turn.above has queues (fewer.subset listed)

/-- The request that is queued now comes last. -/
theorem InTurn.snoc {chain : List Nat} (turn : InTurn st chain) (posting : Posting st)
    (has : st.Has f) (queues : f.queues = some c)
    (first : ¬ ∃ g, st.Has g ∧ ∃ d ∈ g.queues, st.shared.Earlier d c) :
    (chain ++ [c]).Pairwise st.shared.Earlier ∧
      (∀ {b}, b ∈ chain ++ [c] → ∃ n, st.shared.ticket b = some n) ∧
      ∀ {g d}, st.Has g → g.queues = some d → d ≠ c → ∀ {b}, b ∈ chain ++ [c] →
        st.shared.Earlier b d := by
  have ticketOf : ∀ {g d}, st.Has g → g.queues = some d → ∃ n, st.shared.ticket d = some n := by
    intro g d hasG queuesG
    obtain ⟨n, ticket, _⟩ :=
      posting.late hasG (Frame.posts_of_queues queuesG) (Frame.afterPsn_of_queues queuesG)
    exact ⟨n, ticket⟩
  refine ⟨?_, fun {b} listed => ?_, fun {g d} hasG queuesG distinct {b} listed => ?_⟩
  · refine List.pairwise_append.mpr ⟨turn.sorted, List.pairwise_singleton _ _, ?_⟩
    intro b listed d new
    cases List.mem_singleton.mp new
    exact turn.above has queues listed
  · rcases List.mem_append.mp listed with old | new
    · exact turn.ticketed old
    · cases List.mem_singleton.mp new
      exact ticketOf has queues
  · rcases List.mem_append.mp listed with old | new
    · exact turn.above hasG queuesG old
    · cases List.mem_singleton.mp new
      obtain ⟨m, ticketC⟩ := ticketOf has queues
      obtain ⟨n, ticketD⟩ := ticketOf hasG queuesG
      rcases posting.tickets.earlier_or ticketC ticketD (Ne.symm distinct) with before | after
      · exact before
      · exact absurd ⟨g, hasG, d, queuesG, after⟩ first

/-- One step, for a list that loses members and gains what the frame queues. -/
theorem InTurn.run {chain chain' : List Nat} (turn : InTurn st chain) (posting : Posting st)
    {thread : Nat} {rest : List Frame} (wf : f.WellFormed)
    (found : st.threads[thread]? = some (f :: rest))
    (executed : exec st.shared f choice = some (q', pushed))
    (first : ∀ c ∈ f.queues, ¬ ∃ g, st.Has g ∧ ∃ d ∈ g.queues, st.shared.Earlier d c)
    (fewer : chain'.Sublist (chain ++ f.queues.toList)) :
    InTurn ⟨q', st.threads.set thread (pushed ++ rest)⟩ chain' := by
  have top := Threads.State.has_of_top found
  have effect := exec_effect wf executed
  refine InTurn.sublist ?_ fewer
  rcases effect.psnSection with same | ⟨op, mine, takes, taken, ticket, pending, log, cfg⟩
  · have idle : f.takesPsn = false := by
      by_contra takes
      have advanced := exec_takesPsn executed (by simpa using takes)
      have := same.taken
      omega
    have stood : ∀ {g d}, Threads.State.Has ⟨q', st.threads.set thread (pushed ++ rest)⟩ g →
        g.queues = some d → st.Has g := by
      intro g d has queues
      rcases Threads.State.has_of_run found has with new | old
      · rw [(exec_follows executed).queues new queues] at idle
        cases idle
      · exact old
    cases queuesNow : f.queues with
    | none =>
        rw [Option.toList_none, List.append_nil]
        refine ⟨turn.sorted.imp (Qp.Earlier.keep same.ticket), fun listed => ?_,
          fun has queues _ listed => ?_⟩
        · dsimp only
          rw [same.ticket]
          exact turn.ticketed listed
        · exact (turn.above (stood has queues) queues listed).keep same.ticket
    | some c =>
        have snoc := turn.snoc posting top queuesNow (first c queuesNow)
        refine ⟨snoc.1.imp (Qp.Earlier.keep same.ticket), fun listed => ?_,
          fun has queues _ listed => ?_⟩
        · dsimp only
          rw [same.ticket]
          exact snoc.2.1 listed
        · have distinct := posting.queued_once wf found executed has queues queuesNow
          exact (snoc.2.2 (stood has queues) queues distinct listed).keep same.ticket
  · have none := posting.early top mine (Frame.beforePsn_of_takesPsn takes)
    rw [Frame.queues_of_takesPsn takes, Option.toList_none, List.append_nil]
    have others : ∀ {c n}, st.shared.ticket c = some n → q'.ticket c = some n := by
      intro c n has
      rw [ticket, Function.update_of_ne]
      · exact has
      · rintro rfl
        rw [none] at has
        cases has
    refine ⟨turn.sorted.imp (Qp.Earlier.advance none ticket), fun listed => ?_,
      fun {g d} has queues c listed => ?_⟩
    · obtain ⟨n, has⟩ := turn.ticketed listed
      exact ⟨n, others has⟩
    · rcases Threads.State.has_of_run found has with new | old
      · have same : d = op := by
          have posts := exec_posts_of_mem wf executed new (Frame.posts_of_queues queues)
          rw [mine] at posts
          exact (Option.some.inj posts).symm
        subst same
        obtain ⟨n, has⟩ := turn.ticketed listed
        refine ⟨n, others has, st.shared.taken, ?_, (posting.tickets.bounded has).1⟩
        rw [ticket, Function.update_self]
        rfl
      · exact (turn.above old queues listed).advance none ticket

theorem Reacts.queues {event : Event} {code : List Frame} (reacts : Reacts q event q' code)
    {g : Frame} (among : g ∈ code) : g.queues = none := by
  cases reacts with
  | quiet only entry =>
      have first := entry g among
      cases g <;> first | rfl | cases first
  | dma => cases among
  | memWrite => cases among
  | _ =>
      cases List.mem_singleton.mp among
      rfl

theorem InTurn.event {chain : List Nat} (turn : InTurn st chain) {event : Event}
    {code : List Frame} (reacts : Reacts st.shared event q' code) :
    InTurn ⟨q', st.threads ++ [code]⟩ chain := by
  have same := reacts.samePsns
  refine ⟨turn.sorted.imp (Qp.Earlier.keep same.ticket), fun listed => ?_,
    fun has queues c listed => ?_⟩
  · dsimp only
    rw [same.ticket]
    exact turn.ticketed listed
  · rcases Threads.State.has_of_event has with new | old
    · rw [reacts.queues new] at queues
      cases queues
    · exact (turn.above old queues listed).keep same.ticket

theorem inTurn_start (cfg : QpConfig) (memory : Nat → UInt8) : InTurn (start cfg memory) [] where
  sorted := List.Pairwise.nil
  ticketed := fun listed => nomatch listed
  above := fun ⟨_, among, _⟩ => nomatch among

end

/-! ## Posts of an RC queue pair -/

def rcConfig : QpConfig := { ucConfig with type := .rc, retryCnt := 1, initialPsn := 2 ^ 24 - 1 }

/-- The choices of a post of one frame that is taken by the path. -/
def postTaken : List Choice := [.ok, .ok, .ok, .ok, .ok, .ok, .ok, .ok, .queued 1 0, .ok]

end Tbv.SendQueue
