import ThunderboltIbverbs.Send.Slots

/-! # The sender and the receiver's window

The receiver keeps 1024 early messages and as many acknowledgements, and trusts the
sender's queue depth to bound how far ahead of its oldest pending send a PSN can be.  The
depth bounds the slots in use; it bounds the PSNs only while every request younger than a
pending send keeps its slot. -/
set_option autoImplicit false
namespace Tbv.SendQueue

/-- `TBV_RX_REORDER_MAX_MESSAGES` and `TBV_ACK_HISTORY_SIZE`. -/
def rxReorderMaxMessages : Nat := 1024

def psnDistance (psn next : Nat) : Nat := (next + psnMod - psn) % psnMod

/-- Every pending send is inside the window below the next PSN: fewer than 1024 requests
took a PSN after it, and so the PSNs are apart. -/
def InsideWindow (q : Qp) : Prop :=
  ∀ c ∈ q.pendingSends, psnDistance (q.ctx c).psn q.sendPsn ≤ rxReorderMaxMessages ∧
    ∃ n, q.ticket c = some n ∧ q.taken - n ≤ rxReorderMaxMessages

/-- The send whose slot `tbv_qp_release_sendq_counted` is called for. -/
def Frame.releases : Frame → Option Nat
  | .releaseSendq c => some c
  | _ => none

/-- Posts queue their requests in the order of the PSNs; no request gives its slot back
while a send with an earlier PSN holds one; and no TX-done callback releases the slot of
a send that the peer has yet to acknowledge. -/
def SlotsInOrder (st : St) : Lbl → Prop
  | .event _ => True
  | .run thread _ => ∀ f ∈ st.top thread,
      (∀ c ∈ f.queues, ¬ ∃ g, st.Has g ∧ ∃ d ∈ g.queues, st.shared.Earlier d c) ∧
      (∀ given ∈ f.gives st.shared, ∀ c < st.shared.nextOp,
        (st.shared.ctx c).sqCounted = true → ¬ st.shared.Earlier c given.2) ∧
      (∀ c ∈ f.releases, (st.shared.ctx c).sqCounted = false)

instance (st : St) (label : Lbl) : Decidable (SlotsInOrder st label) :=
  match label with
  | .event _ => isTrue trivial
  | .run thread _ => inferInstanceAs (Decidable (∀ f ∈ st.top thread, _ ∧ _ ∧ _))

/-- The post is between its slot and the pending list: the slot it holds. -/
def Frame.enters : Frame → Option (Bool × Nat)
  | .post c (.takePsn _) | .post c (.queue _) => some (false, c)
  | .postRead r .takePsn => some (true, r)
  | _ => none

/-- Every request younger than a pending send holds a slot. -/
structure Windowed (st : St) : Prop where
  posting : Posting st
  turn : InTurn st st.shared.pendingSends
  readsTaken : ∀ {r}, r ∈ st.shared.pendingReads → st.shared.ticket r ≠ none
  covered : Covered st.shared
  bounded : st.shared.sendqCount ≤ st.shared.cfg.maxSendWr
  listed : ∀ {c}, c ∈ st.shared.pendingSends → (st.shared.ctx c).sqCounted = true
  entering : ∀ {g read op}, st.Has g → g.enters = some (read, op) →
    st.shared.counted read op = true
  placed : ∀ {c}, (st.shared.ctx c).sqCounted = true →
    c ∈ st.shared.pendingSends ∨ ∃ g, st.Has g ∧ g.enters = some (false, c)
  retained : ∀ {c op m n}, st.shared.ticket c = some m → st.shared.ticket op = some n →
    m ≤ n → (st.shared.ctx c).sqCounted = true → ∃ read, st.shared.counted read op = true

section
variable {st : St} {q q' : Qp} {f : Frame} {choice : Choice} {pushed : List Frame}

/-! ## The bound -/

/-- The requests from the ticket of a pending send on all hold slots. -/
theorem Windowed.distance_le (windowed : Windowed st) {c n : Nat}
    (listed : c ∈ st.shared.pendingSends) (ticket : st.shared.ticket c = some n) :
    st.shared.taken - n ≤ st.shared.cfg.maxSendWr := by
  obtain ⟨holders, enough, all⟩ := windowed.covered
  have held : ∀ k < st.shared.taken - n, ∃ op, st.shared.ticket op = some (n + k) ∧
      op ∈ holders.map Prod.snd := by
    intro k below
    obtain ⟨op, has⟩ := windowed.posting.tickets.onto (show n + k < st.shared.taken by omega)
    obtain ⟨read, counted⟩ :=
      windowed.retained ticket has (Nat.le_add_right n k) (windowed.listed listed)
    exact ⟨op, has, List.mem_map_of_mem (all counted)⟩
  choose! request hasTicket among using held
  have distinct : ((List.range (st.shared.taken - n)).map request).Nodup := by
    refine List.Nodup.map_on (fun k insideK l insideL same => ?_) List.nodup_range
    have first := hasTicket k (List.mem_range.mp insideK)
    have second := hasTicket l (List.mem_range.mp insideL)
    rw [same, second] at first
    have := Option.some.inj first
    omega
  have subset : (List.range (st.shared.taken - n)).map request ⊆ holders.map Prod.snd := by
    intro op listed
    obtain ⟨k, inside, rfl⟩ := List.mem_map.mp listed
    exact among k (List.mem_range.mp inside)
  have short := (List.subperm_of_subset distinct subset).length_le
  simp only [List.length_map, List.length_range] at short
  have := windowed.bounded
  omega

theorem psnDistance_psn (cfg : QpConfig) {n taken : Nat} (below : n ≤ taken)
    (near : taken - n < psnMod) : psnDistance (cfg.psn n) (cfg.psn taken) = taken - n := by
  unfold psnDistance QpConfig.psn psnMod at *
  omega

theorem Windowed.inside (windowed : Windowed st)
    (depth : st.shared.cfg.maxSendWr ≤ rxReorderMaxMessages) : InsideWindow st.shared := by
  intro c listed
  obtain ⟨n, ticket, psn⟩ := windowed.posting.pending c listed
  have near := (windowed.distance_le listed ticket).trans depth
  have below := (windowed.posting.tickets.bounded ticket).1
  refine ⟨?_, n, ticket, near⟩
  rw [psn, windowed.posting.tickets.sendPsn, psnDistance_psn _ below.le]
  · exact near
  · unfold rxReorderMaxMessages at near
    unfold psnMod
    omega

/-! ## Frames on their way to the pending list -/

theorem Frame.posts_of_enters {read : Bool} {op : Nat} (enters : f.enters = some (read, op)) :
    f.posts = some op := by
  cases f with
  | post c stage => cases stage <;> cases enters <;> rfl
  | postRead r stage =>
      cases stage <;> cases enters
      rfl
  | _ => cases enters

/-- A post reaches its PSN section through the slot it takes, and the pending list
through its PSN section. -/
theorem exec_enters {g : Frame} {read : Bool} {op : Nat} (wf : f.WellFormed)
    (executed : exec q f choice = some (q', pushed)) (among : g ∈ pushed)
    (enters : g.enters = some (read, op)) :
    f.enters = some (read, op) ∨ q'.counted read op = true := by
  have posts := exec_posts_of_mem wf executed among (Frame.posts_of_enters enters)
  have follows := exec_follows executed
  cases f with
  | post c stage =>
      cases posts
      cases stage with
      | reserve credit =>
          simp only [exec, execPost, Qp.refusePost, Qp.returnPost] at executed
          repeat' split at executed
          all_goals cases executed
          all_goals simp only [List.mem_singleton, List.not_mem_nil] at among
          all_goals
            subst among
            cases enters
          exact .inr (by simp [Qp.counted, Qp.takeSlot, Qp.modCtx])
      | takePsn credit =>
          cases executed
          cases List.mem_singleton.mp among
          cases enters
          exact .inl rfl
      | _ =>
          simp only [exec, execPost, Qp.refusePost, Qp.returnPost] at executed
          repeat' split at executed
          all_goals cases executed
          all_goals simp only [List.mem_singleton, List.not_mem_nil] at among
          all_goals
            subst among
            cases enters
  | postRead r stage =>
      cases posts
      cases stage with
      | reserve =>
          simp only [exec, execPostRead, Qp.returnRead] at executed
          repeat' split at executed
          all_goals cases executed
          all_goals simp only [List.mem_singleton, List.not_mem_nil] at among
          all_goals
            subst among
            cases enters
          exact .inr (by simp [Qp.counted, Qp.takeSlotRead, Qp.modRead])
      | _ =>
          simp only [exec, execPostRead, Qp.returnRead] at executed
          repeat' split at executed
          all_goals cases executed
          all_goals simp only [List.mem_singleton, List.not_mem_nil] at among
          all_goals
            subst among
            cases enters
  | postFrames c reason stage caller =>
      cases follows with
      | nothing => cases among
      | frames entered =>
          cases List.mem_singleton.mp among
          cases enters
      | resume ret =>
          cases List.mem_singleton.mp among
          cases caller <;> cases enters
      | streamRefused pages ret =>
          rcases List.mem_append.mp among with callback | last
          · cases (List.mem_replicate.mp callback).2
            cases enters
          · cases List.mem_singleton.mp last
            cases caller <;> cases enters
      | finishRead r status reads status' =>
          simp only [List.mem_cons, List.not_mem_nil, or_false] at among
          rcases among with rfl | rfl <;> cases enters
      | _ =>
          cases List.mem_singleton.mp among
          cases enters
  | _ => cases posts

/-- A send with a slot is passed on to the pending list. -/
theorem exec_placed {c : Nat} (executed : exec q f choice = some (q', pushed))
    (enters : f.enters = some (false, c)) :
    c ∈ q'.pendingSends ∨ ∃ g ∈ pushed, g.enters = some (false, c) := by
  cases f with
  | post d stage =>
      cases stage <;> cases enters
      · cases executed
        exact .inr ⟨_, List.mem_singleton.mpr rfl, rfl⟩
      · simp only [exec, execPost] at executed
        split at executed <;> cases executed <;> exact .inl (by simp [Qp.queueSend, Qp.modCtx])
  | postRead r stage => cases stage <;> cases enters
  | _ => cases enters

theorem exec_take {c : Nat} {credit : Bool}
    (executed : exec q (.post c (.reserve credit)) choice = some (q.takeSlot c, pushed)) :
    pushed = [.post c (.takePsn credit)] := by
  simp only [exec, execPost, Qp.refusePost, Qp.returnPost] at executed
  have changed : q ≠ q.takeSlot c := fun same => by
    have := congrArg Qp.sendqCount same
    simp [Qp.takeSlot, Qp.modCtx] at this
  repeat' split at executed
  all_goals simp only [Option.some.injEq, Prod.mk.injEq, reduceCtorEq] at executed
  all_goals first
    | exact absurd executed.1 changed
    | exact executed.2.symm
    | (have counts := congrArg Qp.sendqCount executed.1
       simp [Qp.takeSlot, Qp.modCtx, Qp.note] at counts)

theorem gives_reads_cases {r : Nat} (given : (true, r) ∈ f.gives q) :
    f.posts = some r ∧ f.enters = none ∨ r ∈ q.pendingReads := by
  cases f with
  | post c stage =>
      cases stage <;> simp only [Frame.gives] at given
      case framesPosted credit ret => split at given <;> simp at given
      all_goals cases given
  | postRead d stage =>
      cases stage <;> simp only [Frame.gives, List.mem_singleton, List.not_mem_nil] at given
      all_goals
        cases given
        exact .inl ⟨rfl, rfl⟩
  | worker stage =>
      cases stage <;> simp only [Frame.gives, List.not_mem_nil] at given
      obtain ⟨d, among, same⟩ := List.mem_map.mp given
      cases same
      exact .inr (List.mem_filter.mp among).1
  | readTxDone d status =>
      simp only [Frame.gives] at given
      split at given
      · cases given
      · rename_i listed
        cases List.mem_singleton.mp given
        exact .inr (by simpa using (not_or.mp listed).2)
  | completeRead d status =>
      simp only [Frame.gives] at given
      split at given
      · obtain ⟨e, among, same⟩ := List.mem_map.mp given
        cases same
        exact .inr ((List.takeWhile_sublist _).subset among)
      · cases given
  | flushReads =>
      obtain ⟨d, among, same⟩ := List.mem_map.mp given
      cases same
      exact .inr among
  | _ => cases given

theorem gives_sends_cases {c : Nat} (given : (false, c) ∈ f.gives q) :
    ∃ credit ret, ret ≠ 0 ∧ f = .post c (.framesPosted credit ret) := by
  cases f with
  | post d stage =>
      cases stage <;> simp only [Frame.gives] at given
      case framesPosted credit ret =>
        split at given
        · cases given
        · rename_i negative
          cases List.mem_singleton.mp given
          exact ⟨credit, ret, negative, rfl⟩
      all_goals cases given
  | postRead d stage =>
      cases stage <;> simp [Frame.gives] at given
  | worker stage =>
      cases stage <;> simp [Frame.gives] at given
  | readTxDone d status =>
      simp only [Frame.gives] at given
      split at given <;> simp at given
  | completeRead d status =>
      simp only [Frame.gives] at given
      split at given <;> simp at given
  | flushReads => simp [Frame.gives] at given
  | _ => cases given

theorem exec_refused {c : Nat} {credit : Bool} {ret : Int} (negative : ret ≠ 0)
    (listed : c ∈ q.pendingSends)
    (executed : exec q (.post c (.framesPosted credit ret)) choice = some (q', pushed)) :
    q'.pendingSends = q.pendingSends.erase c := by
  simp only [exec, execPost, if_neg negative, if_pos listed, Qp.refusePost, Qp.returnPost]
    at executed
  split at executed <;> cases executed <;> rfl

/-! ## One step -/

section
variable {thread : Nat} {rest : List Frame}

theorem Windowed.unlisted (windowed : Windowed st) {g : Frame} {c : Nat} (has : st.Has g)
    (enters : g.enters = some (false, c)) : c ∉ st.shared.pendingSends := by
  intro listed
  obtain ⟨n, ticket, _⟩ := windowed.posting.pending c listed
  cases g with
  | post d stage =>
      cases stage <;> cases enters
      · rw [windowed.posting.early has rfl rfl] at ticket
        cases ticket
      · exact (windowed.turn.above has rfl listed).irrefl
  | postRead r stage => cases stage <;> cases enters
  | _ => cases enters

/-- A frame on its way to the pending list keeps its slot over any section. -/
theorem Windowed.keeps_entering (windowed : Windowed st)
    (meets : SlotsInOrder st (.run thread choice))
    (found : st.threads[thread]? = some (f :: rest)) (slots : Slots st.shared f q')
    {g : Frame} {read : Bool} {op : Nat} (has : st.Has g) (enters : g.enters = some (read, op)) :
    q'.counted read op = true := by
  have top := Threads.State.has_of_top found
  have posts := Frame.posts_of_enters enters
  -- The frame that runs is another one, or it is this one and carries the same post.
  have other : f.posts = some op → f.enters = none → False := by
    intro mine idle
    rw [windowed.posting.carried.unique top has mine posts, enters] at idle
    cases idle
  rcases slots.kept (windowed.entering has enters) with kept | lost
  · exact kept
  · exfalso
    cases lost with
    | drained pending among =>
        refine windowed.unlisted has enters ?_
        rw [pending]
        exact List.mem_append_left _ among
    | given given =>
        cases read with
        | false =>
            obtain ⟨credit, ret, _, rfl⟩ := gives_sends_cases given
            exact other rfl rfl
        | true =>
            rcases gives_reads_cases given with ⟨mine, idle⟩ | listed
            · exact other mine idle
            · have early : g.beforePsn = true := by
                cases g with
                | post c stage => cases stage <;> cases enters
                | postRead r stage =>
                    cases stage <;> cases enters
                    rfl
                | _ => cases enters
              exact windowed.readsTaken listed (windowed.posting.early has posts early)
    | released is held =>
        subst is
        have free := (meets _ (Threads.State.top_of_getElem? found)).2.2 op rfl
        rw [held] at free
        cases free

/-- A request younger than a send that keeps its slot keeps its own. -/
theorem Windowed.keeps_younger (windowed : Windowed st)
    (meets : SlotsInOrder st (.run thread choice))
    (found : st.threads[thread]? = some (f :: rest)) (slots : Slots st.shared f q')
    {c op m n : Nat} (ticketC : st.shared.ticket c = some m)
    (ticketOp : st.shared.ticket op = some n) (older : m ≤ n)
    (held : (st.shared.ctx c).sqCounted = true) (holds : (q'.ctx c).sqCounted = true) :
    ∃ read, q'.counted read op = true := by
  obtain ⟨read, counted⟩ := windowed.retained ticketC ticketOp older held
  by_cases same : c = op
  · subst same
    exact ⟨false, by simpa [Qp.counted] using holds⟩
  have earlier : st.shared.Earlier c op := by
    refine ⟨m, ticketC, n, ticketOp, lt_of_le_of_ne older fun eq => same ?_⟩
    exact windowed.posting.tickets.injective ticketC (eq ▸ ticketOp)
  have notLater : ¬ st.shared.Earlier op c := by
    rintro ⟨k, hasK, l, hasL, less⟩
    rw [ticketOp] at hasK
    rw [ticketC] at hasL
    cases hasK
    cases hasL
    omega
  obtain ⟨_, ordered, kept⟩ := meets f (Threads.State.top_of_getElem? found)
  rcases slots.kept counted with stays | lost
  · exact ⟨read, stays⟩
  · exfalso
    cases lost with
    | drained pending among =>
        rcases windowed.placed held with listed | ⟨g, has, enters⟩
        · have sorted := windowed.turn.sorted
          rw [pending] at listed sorted
          rcases List.mem_append.mp listed with gone | stays
          · have left : c ∉ q'.pendingSends := by
              have distinct := (nodup_of_earlier windowed.turn.sorted)
              rw [pending] at distinct
              intro still
              exact (List.nodup_append.mp distinct).2.2 c gone c still rfl
            have free := slots.left_list (by rw [pending]; exact listed) left
            rw [holds] at free
            cases free
          · exact notLater ((List.pairwise_append.mp sorted).2.2 op among c stays)
        · have listed : op ∈ st.shared.pendingSends := by
            rw [pending]
            exact List.mem_append_left _ among
          cases g with
          | post d stage =>
              cases stage <;> cases enters
              · rw [windowed.posting.early has rfl rfl] at ticketC
                cases ticketC
              · exact notLater (windowed.turn.above has rfl listed)
          | postRead r stage => cases stage <;> cases enters
          | _ => cases enters
    | given given =>
        have old := (windowed.posting.tickets.bounded ticketC).2
        exact ordered _ given c old held earlier
    | released is heldOp =>
        subst is
        have free := kept op rfl
        rw [heldOp] at free
        cases free

theorem Effect.ticket_kept (effect : Effect q f q') (fresh : f.takesPsn = true →
    ∀ op, f.posts = some op → q.ticket op = none) {op n : Nat} (has : q.ticket op = some n) :
    q'.ticket op = some n := by
  rcases effect.psnSection with same | ⟨taker, mine, takes, _, ticket, _⟩
  · rw [same.ticket]
    exact has
  · rw [ticket, Function.update_of_ne]
    · exact has
    · rintro rfl
      rw [fresh takes _ mine] at has
      cases has

theorem Windowed.run (windowed : Windowed st) (wf : f.WellFormed)
    (meets : SlotsInOrder st (.run thread choice))
    (found : st.threads[thread]? = some (f :: rest))
    (executed : exec st.shared f choice = some (q', pushed)) :
    Windowed ⟨q', st.threads.set thread (pushed ++ rest)⟩ := by
  have top := Threads.State.has_of_top found
  have effect := exec_effect wf executed
  have slots := exec_slots (nodup_of_earlier windowed.turn.sorted) executed
  obtain ⟨queueFirst, ordered, kept⟩ := meets f (Threads.State.top_of_getElem? found)
  have posting := windowed.posting.run wf found executed
  have fewer : q'.pendingSends.Sublist (st.shared.pendingSends ++ f.queues.toList) := by
    rcases effect.pending with shrinks | ⟨c, credit, rfl, grown⟩
    · exact shrinks.trans (List.sublist_append_left _ _)
    · rw [grown]
      exact .refl _
  have turn := windowed.turn.run windowed.posting wf found executed queueFirst fewer
  have fresh : f.takesPsn = true → ∀ op, f.posts = some op → st.shared.ticket op = none :=
    fun takes op mine =>
      windowed.posting.early top mine (Frame.beforePsn_of_takesPsn takes)
  have entering : ∀ {g read op},
      Threads.State.Has ⟨q', st.threads.set thread (pushed ++ rest)⟩ g →
      g.enters = some (read, op) → q'.counted read op = true := by
    intro g read op has enters
    rcases Threads.State.has_of_run found has with new | old
    · rcases exec_enters wf executed new enters with before | taken
      · exact windowed.keeps_entering meets found slots top before
      · exact taken
    · exact windowed.keeps_entering meets found slots old enters
  refine ⟨posting, turn, fun {r} listed => ?_, slots.covered windowed.covered ?_, ?_,
    fun {c} listed => ?_, entering, fun {c} held => ?_, fun {c op m n} hasM hasN older held => ?_⟩
  · rcases slots.pendingReads listed with old | rfl
    · obtain ⟨n, has⟩ := Option.ne_none_iff_exists'.mp (windowed.readsTaken old)
      exact Option.ne_none_iff_exists'.mpr ⟨n, effect.ticket_kept fresh has⟩
    · obtain ⟨n, has, _⟩ := windowed.posting.late top rfl rfl
      exact Option.ne_none_iff_exists'.mpr ⟨n, effect.ticket_kept fresh has⟩
  · rintro c rfl
    exact kept c rfl
  · rw [effect.static.cfg]
    exact slots.count_le windowed.bounded
  · -- A send that stays listed keeps its slot; one that is queued now comes with it.
    rcases List.mem_append.mp (fewer.subset listed) with old | new
    · have counted : st.shared.counted false c = true := by
        simpa [Qp.counted] using windowed.listed old
      rcases slots.kept counted with stays | lost
      · simpa [Qp.counted] using stays
      · exfalso
        have distinct := (nodup_of_earlier windowed.turn.sorted)
        cases lost with
        | drained pending among =>
            rw [pending] at distinct
            exact (List.nodup_append.mp distinct).2.2 c among c listed rfl
        | given given =>
            obtain ⟨credit, ret, negative, rfl⟩ := gives_sends_cases given
            dsimp only at listed
            rw [exec_refused negative old executed, distinct.mem_erase_iff] at listed
            exact listed.1 rfl
        | released is heldC =>
            subst is
            have free := kept c rfl
            rw [heldC] at free
            cases free
    · have queues : f.queues = some c := Option.mem_toList.mp new
      have enters : f.enters = some (false, c) := by
        cases f with
        | post d stage =>
            cases stage <;> cases queues
            rfl
        | _ => cases queues
      simpa [Qp.counted] using windowed.keeps_entering meets found slots top enters
  · rcases slots.held_before held with before | ⟨credit, rfl, rfl⟩
    · rcases windowed.placed before with listed | ⟨g, has, enters⟩
      · left
        by_contra left
        have free := slots.left_list listed left
        rw [held] at free
        cases free
      · rcases Threads.State.has_after_run found has with rfl | stays
        · rcases exec_placed executed enters with listed | ⟨next, among, enters⟩
          · exact .inl listed
          · exact .inr ⟨next, Threads.State.has_of_pushed found among, enters⟩
        · exact .inr ⟨g, stays, enters⟩
    · cases exec_take executed
      exact .inr ⟨_, Threads.State.has_of_pushed found (List.mem_singleton.mpr rfl), rfl⟩
  · rcases effect.psnSection with same | ⟨taker, mine, takes, taken, ticket, _⟩
    · have held' : (q'.ctx c).sqCounted = true := held
      dsimp only at hasM hasN
      rw [same.ticket] at hasM hasN
      rcases slots.held_before held' with before | ⟨credit, rfl, rfl⟩
      · exact windowed.keeps_younger meets found slots hasM hasN older before held'
      · rw [windowed.posting.early top rfl rfl] at hasM
        cases hasM
    · -- The request that takes its PSN now is the youngest and has a slot.
      have enters : ∃ read, f.enters = some (read, taker) := by
        cases f with
        | post d stage =>
            cases stage <;> cases takes
            cases mine
            exact ⟨false, rfl⟩
        | postRead r stage =>
            cases stage <;> cases takes
            cases mine
            exact ⟨true, rfl⟩
        | _ => cases takes
      dsimp only at hasM hasN
      rw [ticket, Function.update_apply] at hasM hasN
      split at hasN
      · rename_i isTaker
        subst isTaker
        obtain ⟨read, enters⟩ := enters
        exact ⟨read, windowed.keeps_entering meets found slots top enters⟩
      · split at hasM
        · cases hasM
          have := (windowed.posting.tickets.bounded hasN).1
          omega
        · rcases slots.held_before held with before | ⟨credit, rfl, rfl⟩
          · exact windowed.keeps_younger meets found slots hasM hasN older before held
          · cases takes

theorem Windowed.event (windowed : Windowed st) {event : Event} {code : List Frame}
    (reacted : react st.shared event = some (q', code)) :
    Windowed ⟨q', st.threads ++ [code]⟩ := by
  have reacts := react_reacts reacted
  obtain ⟨count, reads, fewer, kept⟩ := react_slots reacted
  have same := reacts.samePsns
  have turn := windowed.turn.event reacts
  rw [← reacts.pendingSends] at turn
  have noEntry : ∀ {g}, g ∈ code → g.enters = none := by
    intro g among
    cases enters : g.enters with
    | none => rfl
    | some pair =>
        have posts := @Frame.posts_of_enters g pair.1 pair.2 enters
        cases reacts with
        | postSend wr =>
            cases List.mem_singleton.mp among
            cases enters
        | postRead signaled =>
            cases List.mem_singleton.mp among
            cases enters
        | txRetired status flying =>
            cases List.mem_singleton.mp among
            cases enters
        | dma flying => cases among
        | memWrite addr byte => cases among
        | quiet only entry =>
            rw [Frame.posts_of_isEntry (entry g among)] at posts
            cases posts
  have held : ∀ {c}, (q'.ctx c).sqCounted = true → (st.shared.ctx c).sqCounted = true := by
    intro c has
    have := @fewer false c (by simpa [Qp.counted] using has)
    simpa [Qp.counted] using this
  refine ⟨windowed.posting.event reacts, turn, fun {r} listed => ?_, ?_, ?_, fun {c} listed => ?_,
    fun {g read op} has enters => ?_, fun {c} has => ?_, fun {c op m n} hasM hasN older has => ?_⟩
  · dsimp only at listed ⊢
    rw [reads] at listed
    rw [same.ticket]
    exact windowed.readsTaken listed
  · obtain ⟨holders, enough, all⟩ := windowed.covered
    exact ⟨holders, by dsimp only; rw [count]; exact enough, fun has => all (fewer has)⟩
  · dsimp only
    rw [count, same.cfg]
    exact windowed.bounded
  · dsimp only at listed ⊢
    rw [reacts.pendingSends] at listed
    obtain ⟨n, ticket, _⟩ := windowed.posting.pending c listed
    have old := (windowed.posting.tickets.bounded ticket).2
    have := @kept false c old (by simpa [Qp.counted] using windowed.listed listed)
    simpa [Qp.counted] using this
  · rcases Threads.State.has_of_event has with new | old
    · rw [noEntry new] at enters
      cases enters
    · exact kept (windowed.posting.carried.old old (Frame.posts_of_enters enters))
        (windowed.entering old enters)
  · rcases windowed.placed (held has) with listed | ⟨g, standing, enters⟩
    · left
      dsimp only
      rw [reacts.pendingSends]
      exact listed
    · obtain ⟨stack, among, inside⟩ := standing
      exact .inr ⟨g, ⟨stack, List.mem_append_left _ among, inside⟩, enters⟩
  · dsimp only at hasM hasN
    rw [same.ticket] at hasM hasN
    obtain ⟨read, counted⟩ := windowed.retained hasM hasN older (held has)
    exact ⟨read, kept (windowed.posting.tickets.bounded hasN).2 counted⟩

theorem windowed_start (cfg : QpConfig) (memory : Nat → UInt8) : Windowed (start cfg memory) where
  posting := posting_start cfg memory
  turn := inTurn_start cfg memory
  readsTaken := fun listed => nomatch listed
  covered := ⟨[], Nat.zero_le _, fun {read op} has => by
    cases read <;> simp [Qp.counted, start, Qp.fresh, newCtx] at has⟩
  bounded := Nat.zero_le _
  listed := fun listed => nomatch listed
  entering := fun ⟨_, among, _⟩ => nomatch among
  placed := fun {c} held => by simp [start, Qp.fresh, newCtx] at held
  retained := fun has => nomatch has

end

end

/-- Whatever the queue pair's type, in every run whose slots are given back in the order
of the PSNs the sender stays inside the receiver's window. -/
theorem sender_inside_window (cfg : QpConfig) (depth : cfg.maxSendWr ≤ rxReorderMaxMessages)
    (memory : Nat → UInt8) (st : St)
    (reached : Trans.Reaches step SlotsInOrder (start cfg memory) st) :
    InsideWindow st.shared := by
  have windowed : st.shared.cfg = cfg ∧ Windowed st := by
    refine @reaches_invariant_react SlotsInOrder cfg memory st
      (fun st => st.shared.cfg = cfg ∧ Windowed st) ⟨rfl, windowed_start cfg memory⟩ ?_ ?_ reached
    · rintro st event q' code ⟨same, windowed⟩ _ reacted
      exact ⟨(react_reacts reacted).samePsns.cfg.trans same, windowed.event reacted⟩
    · rintro st thread choice f rest q' pushed ⟨same, windowed⟩ wf meets found executed
      exact ⟨(exec_effect wf executed).static.cfg.trans same,
        windowed.run wf meets found executed⟩
  exact windowed.2.inside (by rw [windowed.1]; exact depth)

/-! ## Runs of an RC queue pair -/

/-- Three sends, the second acknowledged before the first. -/
def ackOutOfOrder : List Lbl :=
  [(.event (.postSend oneByteSend) : Lbl)] ++ runs 0 postTaken ++
  [(.event (.postSend oneByteSend) : Lbl)] ++ runs 1 postTaken ++
  [(.event (.ack 0 .ok) : Lbl), .run 2 .ok, .run 2 .ok, .run 2 .ok] ++
  [(.event (.postSend oneByteSend) : Lbl)] ++ runs 3 postTaken

theorem sender_inside_window_three :
    rcConfig.maxSendWr ≤ rxReorderMaxMessages ∧
    ∃ st, Trans.Reaches step SlotsInOrder (start rcConfig fun _ => 7) st ∧
      st.shared.pendingSends = [0, 1, 2] ∧ st.shared.taken = 3 ∧ InsideWindow st.shared := by
  have ran : (Trans.guarded step SlotsInOrder ackOutOfOrder (start rcConfig fun _ => 7)).any
      (fun st => decide (st.shared.pendingSends = [0, 1, 2]) && decide (st.shared.taken = 3)) =
        true := by
    decide +kernel
  obtain ⟨st, reached, found⟩ := Trans.exists_reaches_of_guarded ran
  simp only [Bool.and_eq_true, decide_eq_true_eq] at found
  exact ⟨by decide, st, reached, found.1, found.2,
    sender_inside_window rcConfig (by decide) _ st reached⟩

/-- A queue pair whose first send is pending while every later post is refused. -/
structure Refusing (taken : Nat) (st : St) : Prop where
  cfg : st.shared.cfg = rcConfig
  open_ : st.shared.state = .rts ∧ st.shared.closing = false
  credits : st.shared.remoteRecvCredits = 0
  slots : st.shared.sendqCount = 1
  pending : st.shared.pendingSends = [0]
  some_ : 0 < st.shared.nextOp
  first : (st.shared.ctx 0).psn = rcConfig.psn 0
  next : st.shared.sendPsn = rcConfig.psn taken

theorem step_last {q q' : Qp} {f : Frame} {choice : Choice} {pushed : List Frame}
    (threads : List (List Frame)) (executed : exec q f choice = some (q', pushed)) :
    step ⟨q, threads ++ [[f]]⟩ (.run threads.length choice) =
      some ⟨q', threads ++ [pushed]⟩ := by
  simp [step, Threads.step, executed]

/-- A post that the path has no room for: the slot is given back and the PSN is not. -/
theorem Refusing.again {taken : Nat} {st : St} (refusing : Refusing taken st)
    (reached : Trans.Reaches step (fun _ _ => True) (start rcConfig fun _ => 7) st) :
    ∃ st', Trans.Reaches step (fun _ _ => True) (start rcConfig fun _ => 7) st' ∧
      Refusing (taken + 1) st' := by
  obtain ⟨q, threads⟩ := st
  obtain ⟨cfg, ⟨state, closing⟩, credits, slots, pending, old, first, next⟩ := refusing
  dsimp only at cfg state closing credits slots pending old first next
  have fresh : q.nextOp ≠ 0 := by omega
  let c := q.nextOp
  let q1 : Qp := { q with
    nextOp := c + 1
    ctx := Function.update q.ctx c (newCtx q.cfg oneByteSend)
    posted := Function.update q.posted c (gather q.memory oneByteSend.segs) }
  have ctx1 : q1.ctx c = newCtx rcConfig oneByteSend := by simp [q1, cfg]
  have posted : step ⟨q, threads⟩ (.event (.postSend oneByteSend)) =
      some ⟨q1, threads ++ [[.post c .start]]⟩ := rfl
  have started : exec q1 (.post c .start) .ok = some (q1, [.post c .takeCredit]) := by
    have allows : q1.allowsPost = true := by simp [Qp.allowsPost, Qp.live, q1, state, closing]
    have fits : ¬ NativeData.maxMsgSize < totalLen oneByteSend.segs := by decide
    simp [exec, execPost, allows, ctx1, newCtx, fits]
  have noCredit : exec q1 (.post c .takeCredit) .ok = some (q1, [.post c (.reserve false)]) := by
    simp [exec, execPost, Qp.live, q1, state, closing, credits]
  have reserved : exec q1 (.post c (.reserve false)) .ok =
      some (q1.takeSlot c, [.post c (.takePsn false)]) := by
    have room : ¬ rcConfig.maxSendWr ≤ 1 := by decide
    simp [exec, execPost, Qp.allowsPost, Qp.live, q1, state, closing, cfg, slots, room]
  have tookPsn : exec (q1.takeSlot c) (.post c (.takePsn false)) .ok =
      some ((q1.takeSlot c).takePsn c, [.post c (.queue false)]) := rfl
  let q3 := (q1.takeSlot c).takePsn c
  have queued : exec q3 (.post c (.queue false)) .ok =
      some (q3.queueSend c, [.postFrames c .initial .select (.post false)]) := by
    have retryable : (q3.ctx c).retryable = true := by
      simp [q3, Qp.takePsn, Qp.advancePsn, Qp.takeSlot, Qp.modCtx, ctx1, newCtx, rcConfig]
    simp [exec, execPost, retryable]
  let q4 := (q3.queueSend c).note (.transmit c .initial false)
  have refused : exec (q3.queueSend c) (.postFrames c .initial .select (.post false))
      (.fail enomem) = some (q4, [.post c (.framesPosted false enomem)]) := by
    simp [exec, execPostFrames, enomem, Caller.resume, Caller.isWorker, q4]
  let q5 := (q4.unqueueSend c).note (.returned c ((q4.unqueueSend c).ctx c).psn enomem)
  have returned : exec q4 (.post c (.framesPosted false enomem)) .ok = some (q5, []) := by
    have listed : c ∈ q4.pendingSends := by
      simp [q4, Qp.note, Qp.queueSend, Qp.modCtx]
    simp [exec, execPost, Qp.refusePost, Qp.returnPost, listed, enomem, q5]
  refine ⟨⟨q5, threads ++ [[]]⟩, ?_, ?_⟩
  · have reached := reached.step trivial posted
    have reached := reached.step trivial (step_last threads started)
    have reached := reached.step trivial (step_last threads noCredit)
    have reached := reached.step trivial (step_last threads reserved)
    have reached := reached.step trivial (step_last threads tookPsn)
    have reached := reached.step trivial (step_last threads queued)
    have reached := reached.step trivial (step_last threads refused)
    exact reached.step trivial (step_last threads returned)
  · have counted : ((q4.ctx c).sqCounted) = true := by
      simp [q4, q3, Qp.note, Qp.queueSend, Qp.takePsn, Qp.advancePsn, Qp.takeSlot, Qp.modCtx]
    refine ⟨?_, ⟨?_, ?_⟩, ?_, ?_, ?_, ?_, ?_, ?_⟩
    · simpa [q5, q4, q3, q1, Qp.note, Qp.unqueueSend, Qp.detach, Qp.queueSend, Qp.takePsn,
        Qp.advancePsn, Qp.takeSlot, Qp.modCtx] using cfg
    · simpa [q5, q4, q3, q1, Qp.note, Qp.unqueueSend, Qp.detach, Qp.queueSend, Qp.takePsn,
        Qp.advancePsn, Qp.takeSlot, Qp.modCtx] using state
    · simpa [q5, q4, q3, q1, Qp.note, Qp.unqueueSend, Qp.detach, Qp.queueSend, Qp.takePsn,
        Qp.advancePsn, Qp.takeSlot, Qp.modCtx] using closing
    · simpa [q5, q4, q3, q1, Qp.note, Qp.unqueueSend, Qp.detach, Qp.queueSend, Qp.takePsn,
        Qp.advancePsn, Qp.takeSlot, Qp.modCtx] using credits
    · simp [q5, Qp.note, Qp.unqueueSend, Qp.detach, counted]
      simp [q4, q3, q1, Qp.note, Qp.queueSend, Qp.takePsn, Qp.advancePsn, Qp.takeSlot, Qp.modCtx,
        slots]
    · have : [0, c].erase c = [0] := by simp [c, Ne.symm fresh]
      simpa [q5, q4, q3, q1, Qp.note, Qp.unqueueSend, Qp.detach, Qp.queueSend, Qp.takePsn,
        Qp.advancePsn, Qp.takeSlot, Qp.modCtx, pending] using this
    · simp [q5, q4, q3, q1, Qp.note, Qp.unqueueSend, Qp.detach, Qp.queueSend, Qp.takePsn,
        Qp.advancePsn, Qp.takeSlot, Qp.modCtx]
    · have apart : ¬ 0 = c := fun same => fresh same.symm
      simpa [q5, q4, q3, q1, Qp.note, Qp.unqueueSend, Qp.detach, Qp.queueSend, Qp.takePsn,
        Qp.advancePsn, Qp.takeSlot, modCtx_ctx, apart] using first
    · have advanced : q5.sendPsn = psnNext (q.sendPsn % psnMod) := by
        simp [q5, q4, q3, q1, Qp.note, Qp.unqueueSend, Qp.detach, Qp.queueSend, Qp.takePsn,
          Qp.advancePsn, Qp.takeSlot, Qp.modCtx]
      exact advanced.trans (by rw [next]; exact psn_succ rcConfig taken)

theorem refusing_reached (refused : Nat) :
    ∃ st, Trans.Reaches step (fun _ _ => True) (start rcConfig fun _ => 7) st ∧
      Refusing (refused + 1) st := by
  induction refused with
  | zero =>
      have ran : (Trans.guarded step (fun _ _ => True)
          ([.event (.postSend oneByteSend)] ++ runs 0 postTaken)
          (start rcConfig fun _ => 7)).any (fun st =>
            decide (st.shared.cfg = rcConfig) && decide (st.shared.state = .rts) &&
            decide (st.shared.closing = false) && decide (st.shared.remoteRecvCredits = 0) &&
            decide (st.shared.sendqCount = 1) && decide (st.shared.pendingSends = [0]) &&
            decide (st.shared.nextOp = 1) && decide ((st.shared.ctx 0).psn = rcConfig.psn 0) &&
            decide (st.shared.sendPsn = rcConfig.psn 1)) = true := by
        decide +kernel
      obtain ⟨st, reached, found⟩ := Trans.exists_reaches_of_guarded ran
      simp only [Bool.and_eq_true, decide_eq_true_eq] at found
      obtain ⟨⟨⟨⟨⟨⟨⟨⟨cfg, state⟩, closing⟩, credits⟩, slots⟩, pending⟩, some⟩, first⟩, next⟩ := found
      exact ⟨st, reached, cfg, ⟨state, closing⟩, credits, slots, pending, by omega, first, next⟩
  | succ refused ih =>
      obtain ⟨st, reached, refusing⟩ := ih
      exact refusing.again reached

/-- With one send pending, 1024 posts that the path has no room for take the next PSN out
of the window. -/
theorem refused_posts_leave_window :
    ¬ ∀ (cfg : QpConfig), cfg.maxSendWr ≤ rxReorderMaxMessages → ∀ (memory : Nat → UInt8)
      (st : St), Trans.Reaches step (fun _ _ => True) (start cfg memory) st →
        InsideWindow st.shared := by
  intro always
  obtain ⟨st, reached, refusing⟩ := refusing_reached 1024
  have inside := always rcConfig (by decide) _ st reached 0 (by rw [refusing.pending]; decide)
  rw [refusing.first, refusing.next] at inside
  revert inside
  rw [psnDistance_psn rcConfig (Nat.zero_le _) (by decide)]
  unfold rxReorderMaxMessages
  omega

end Tbv.SendQueue
