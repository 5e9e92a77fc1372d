import ThunderboltIbverbs.Pair.Model

/-! # A send that waits for a credit is not forgotten

Whenever a pending send waits for its receiver, or is about to be told to, the reaper
will come, a credit is on its way, or the receiver has no credit outstanding. -/
set_option autoImplicit false
namespace Tbv.Pair

open Tbv.NativeData
open SendQueue (QpConfig Frame Choice Event Posting Hot Abandoned)
open RecvQueue (Rx RecvWqe Env Input Serves)

/-! ## The receiver -/

/-- Every WQE a call still has to append is advertised after it. -/
def Promised : List Input → Prop
  | [] => True
  | .post _ :: rest => .advertise ∈ rest ∧ Promised rest
  | _ :: rest => Promised rest

theorem promised_postRecv (wqes : List RecvWqe) : Promised (postRecv wqes) := by
  induction wqes with
  | nil => trivial
  | cons wqe rest ih => exact ⟨by simp, ih⟩

theorem Promised.tail {input : Input} {rest : List Input} (promised : Promised (input :: rest)) :
    Promised rest := by
  cases input with
  | post wqe => exact promised.2
  | _ => exact promised

/-- What the receiver has posted and not advertised, a call is about to advertise. -/
structure Owing (rx : Threads.State Rx Input) : Prop where
  open_ : rx.shared.closing = false
  connected : rx.shared.destQp ≠ none
  settled : rx.shared.Settled
  bound : rx.shared.advertised ≤ rx.shared.recvq.length
  promised : ∀ code ∈ rx.threads, Promised code
  owed : rx.shared.advertised < rx.shared.recvq.length → rx.Has .advertise

theorem owing_start (ends : Ends) (cfg : QpConfig) (recvqSize : Nat)
    (striping remoteWrite : Bool) :
    Owing ⟨connectedRx ends cfg recvqSize striping remoteWrite, []⟩ where
  open_ := rfl
  connected := by simp [connectedRx]
  settled := fun _ _ _ found => nomatch found
  bound := Nat.le_refl _
  promised := fun _ among => nomatch among
  owed := fun more => absurd more (Nat.lt_irrefl _)

section Receiver
variable {rx : Threads.State Rx Input} {q' : Rx} {env : Env} {thread : Nat} {input : Input}
  {rest : List Input}

theorem Owing.call (owing : Owing rx) {code : List Input} (promised : Promised code) :
    Owing ⟨rx.shared, rx.threads ++ [code]⟩ where
  open_ := owing.open_
  connected := owing.connected
  settled := owing.settled
  bound := owing.bound
  promised := fun other among => by
    rcases List.mem_append.mp among with old | new
    · exact owing.promised other old
    · cases List.mem_singleton.mp new
      exact promised
  owed := fun more => by
    obtain ⟨stack, among, inside⟩ := owing.owed more
    exact ⟨stack, List.mem_append_left _ among, inside⟩

/-- What a section of the receiver sends back. -/
structure Answers (q q' : Rx) (new : List RecvQueue.Entry) : Prop where
  log : q'.log = q.log ++ new
  rnr : ∀ entry ∈ new, ∀ psn n, entry = .ack psn .rnr n → q'.advertised = 0
  credit : q.advertised = 0 → q'.advertised = 0 ∨ ∃ destQp n, .credit destQp n ∈ new

theorem promised_set (owing : Owing rx) (found : rx.threads[thread]? = some (input :: rest)) :
    ∀ code ∈ rx.threads.set thread ([] ++ rest), Promised code := by
  intro code among
  rcases List.mem_or_eq_of_mem_set among with old | rfl
  · exact owing.promised code old
  · exact (owing.promised _ (List.mem_of_getElem? found)).tail

theorem Owing.serve (owing : Owing rx) (found : rx.threads[thread]? = some (input :: rest))
    (serves : Serves rx.shared q') (other : input ≠ .advertise) :
    Owing ⟨q', rx.threads.set thread ([] ++ rest)⟩ ∧ ∃ new, Answers rx.shared q' new := by
  have bound := serves.bound owing.bound
  refine ⟨⟨serves.closing.trans owing.open_, serves.destQp.symm ▸ owing.connected,
    serves.settled owing.settled, bound, promised_set owing found, fun more => ?_⟩, ?_⟩
  · rcases Threads.State.has_after_run found (owing.owed (serves.owed more)) with same | stays
    · exact absurd same.symm other
    · exact stays
  · obtain ⟨new, noted, answers⟩ := serves.log owing.settled
    refine ⟨new, noted, fun entry among psn n is => ?_, fun none => .inl ?_⟩
    · subst is
      rcases answers _ among rfl with empty | closing
      · rw [empty] at bound
        exact Nat.le_zero.mp bound
      · rw [serves.closing, owing.open_] at closing
        cases closing
    · have := serves.fewer
      omega

/-- One section of the receiver, when the credits it advertises are sent. -/
theorem Owing.run (owing : Owing rx) (sent : env.creditSent = true)
    (found : rx.threads[thread]? = some (input :: rest)) :
    Owing ⟨rx.shared.step env input, rx.threads.set thread ([] ++ rest)⟩ ∧
      ∃ new, Answers rx.shared (rx.shared.step env input) new := by
  have promised := promised_set owing found
  cases input with
  | frame hdr payload =>
      exact owing.serve found (RecvQueue.serves_rxFrame hdr payload) (by simp)
  | drain => exact owing.serve found RecvQueue.moves_drainReorder.serves (by simp)
  | post wqe =>
      have owedNow : Threads.State.Has (⟨(rx.shared.postOne wqe).1,
          rx.threads.set thread ([] ++ rest)⟩ : Threads.State Rx Input) .advertise := by
        have inside : thread < rx.threads.length := (List.getElem?_eq_some_iff.mp found).1
        exact ⟨rest, List.mem_of_getElem? (List.getElem?_set_self inside),
          (owing.promised _ (List.mem_of_getElem? found)).1⟩
      have bound := owing.bound
      simp only [Rx.step]
      unfold Rx.postOne at owedNow ⊢
      split
      · exact ⟨⟨owing.open_, owing.connected, owing.settled, bound, promised,
          fun _ => by simpa [*] using owedNow⟩, [], by simp, by simp, .inl⟩
      · refine ⟨⟨owing.open_, owing.connected, owing.settled, ?_, promised,
          fun _ => by simpa [*] using owedNow⟩, [], by simp, by simp, .inl⟩
        simp only [List.length_append]
        omega
  | advertise =>
      simp only [Rx.step]
      unfold Rx.advertiseRecvCredits
      split
      · exact absurd ‹_› owing.connected
      split
      · rename_i idle
        have all : rx.shared.recvq.length ≤ rx.shared.advertised := by
          rcases idle with closing | all
          · rw [owing.open_] at closing
            cases closing
          · exact all
        exact ⟨⟨owing.open_, owing.connected, owing.settled, owing.bound, promised,
          fun more => absurd more (Nat.not_lt.mpr all)⟩, [], by simp, by simp, .inl⟩
      · exact ⟨⟨owing.open_, owing.connected, owing.settled, Nat.le_refl _, promised,
          fun more => absurd more (Nat.lt_irrefl _)⟩, _, rfl, by simp,
          fun _ => .inr ⟨_, _, List.mem_singleton_self _⟩⟩

end Receiver

/-! ## The pair -/

def Exposed (net : Net) : Prop :=
  ∃ c ∈ net.sender.shared.pendingSends, (net.sender.shared.ctx c).rnrWaiting = true ∨
    net.RnrUnderWay (net.sender.shared.ctx c).psn

def Covered (net : Net) : Prop :=
  Hot net.sender ∨ net.credits ≠ [] ∨ net.receiver.shared.advertised = 0

structure Watched (net : Net) : Prop where
  posting : Posting net.sender
  wellFormed : ∀ f, net.sender.Has f → f.WellFormed
  timed : net.sender.shared.cfg.timeout ≠ 0
  abandoned : Abandoned net.sender
  owing : Owing net.receiver
  covered : Exposed net → Covered net

section Sender
variable {st : SendQueue.St} {q' : SendQueue.Qp} {choice : Choice} {pushed : List Frame}
  {thread : Nat} {f : Frame} {rest : List Frame}

/-- An RNR acknowledgement is handled by the frames it brought. -/
theorem answersRnr_of_follows {q : SendQueue.Qp} {g : Frame} {psn : Nat}
    (follows : SendQueue.Follows q f pushed) (among : g ∈ pushed)
    (answers : answersRnr psn g = true) : answersRnr psn f = true := by
  cases follows with
  | ack given status =>
      cases List.mem_singleton.mp among
      cases status with
      | rnr => exact answers
      | _ => cases answers
  | resume ret =>
      cases List.mem_singleton.mp among
      rename_i caller
      cases caller <;> cases answers
  | streamRefused pages ret =>
      rename_i caller
      rcases List.mem_append.mp among with done | resumed
      · cases List.eq_of_mem_replicate done
        cases answers
      · cases List.mem_singleton.mp resumed
        cases caller <;> cases answers
  | claim fresh one =>
      rcases List.mem_cons.mp among with rfl | push
      · cases answers
      · rcases one with rfl | rfl
        · cases push
        · cases List.mem_singleton.mp push
          cases answers
  | cancelled packets =>
      cases List.eq_of_mem_replicate among
      cases answers
  | finish =>
      rename_i who c later err err'
      rcases List.mem_append.mp among with one | more
      · cases who <;> simp only [SendQueue.finishOne, List.mem_cons, List.not_mem_nil,
          or_false] at one
        all_goals rcases one with rfl | rfl | rfl <;> cases answers
      · cases List.mem_singleton.mp more
        cases answers
  | nothing => cases among
  | _ =>
      simp only [List.mem_cons, List.not_mem_nil, or_false] at among
      first
        | (subst among; cases answers)
        | (rcases among with rfl | rfl <;> cases answers)
        | (rcases among with rfl | rfl | rfl <;> cases answers)

theorem psn_of_pending (posting : Posting st) (wf : f.WellFormed)
    (found : st.threads[thread]? = some (f :: rest))
    (executed : SendQueue.exec st.shared f choice = some (q', pushed)) {c : Nat}
    (listed : c ∈ st.shared.pendingSends) : (q'.ctx c).psn = (st.shared.ctx c).psn := by
  obtain ⟨n, ticket, -⟩ := posting.pending c listed
  rcases (SendQueue.exec_effect wf executed).samePsns with same | ⟨d, credit, rfl, rfl⟩ |
    ⟨r, rfl, rfl⟩
  · exact same.psn c (posting.tickets.bounded ticket).2
  · have apart : c ≠ d := by
      rintro rfl
      rw [posting.early (Threads.State.has_of_top found) rfl rfl] at ticket
      cases ticket
    simp [SendQueue.Qp.takePsn, SendQueue.Qp.modCtx, SendQueue.Qp.advancePsn,
      Function.update_of_ne apart]
  · rfl

end Sender

section Steps
variable {net : Net} {ends : Ends}

/-- What a step of the sender's threads leaves exposed was exposed before. -/
theorem Exposed.before_run {q' : SendQueue.Qp} {choice : Choice} {pushed : List Frame}
    {thread : Nat} {f : Frame} {rest : List Frame} {data : List Header} (watched : Watched net)
    (found : net.sender.threads[thread]? = some (f :: rest))
    (executed : SendQueue.exec net.sender.shared f choice = some (q', pushed))
    (apart : PsnsApart net (.send (.run thread choice)))
    (exposed : Exposed { net with
      sender := ⟨q', net.sender.threads.set thread (pushed ++ rest)⟩, data := data }) :
    Exposed net := by
  obtain ⟨c, listed, why⟩ := exposed
  dsimp only at listed why
  have top := Threads.State.has_of_top found
  have wf := watched.wellFormed f top
  have effect := SendQueue.exec_effect wf executed
  have underWay : ∀ {psn}, Net.RnrUnderWay { net with
      sender := ⟨q', net.sender.threads.set thread (pushed ++ rest)⟩, data := data } psn →
      net.RnrUnderWay psn := by
    rintro psn (onWire | ⟨g, has, answers⟩)
    · exact .inl onWire
    · rcases Threads.State.has_of_run found has with new | old
      · exact .inr ⟨f, top, answersRnr_of_follows (SendQueue.exec_follows executed) new answers⟩
      · exact .inr ⟨g, old, answers⟩
  rcases why with waits | named
  · rcases SendQueue.exec_waiting wf executed listed waits with ⟨was, waited⟩ |
      ⟨psn, rfl, -, matched⟩
    · exact ⟨c, was, .inl waited⟩
    · obtain ⟨was, psnIs⟩ := SendQueue.mem_of_matchPsn matched
      exact ⟨c, was, .inr (.inr ⟨_, top, by simp [answersRnr, psnIs]⟩)⟩
  · have named := underWay named
    rcases effect.pending with fewer | ⟨d, credit, rfl, grown⟩
    · have was := fewer.subset listed
      rw [psn_of_pending watched.posting wf found executed was] at named
      exact ⟨c, was, .inr named⟩
    · rw [grown] at listed
      rcases List.mem_append.mp listed with old | new
      · rw [psn_of_pending watched.posting wf found executed old] at named
        exact ⟨c, old, .inr named⟩
      · -- the send is queued now, so nothing under way names it
        cases List.mem_singleton.mp new
        have queued : queuedNow net.sender (.run thread choice) = some c := by
          simp [queuedNow, Threads.State.top_of_getElem? found]
        have same : (q'.ctx c).psn = (net.sender.shared.ctx c).psn := by
          simp only [SendQueue.exec, SendQueue.execPost] at executed
          split at executed <;> cases executed <;>
            simp [SendQueue.Qp.queueSend, SendQueue.Qp.modCtx]
        rw [same] at named
        exact absurd named (apart c queued)

theorem Watched.run {thread : Nat} {choice : Choice} {st : SendQueue.St} {data : List Header}
    (watched : Watched net) (apart : PsnsApart net (.send (.run thread choice)))
    (stepped : SendQueue.step net.sender (.run thread choice) = some st) :
    Watched { net with sender := st, data := data } := by
  obtain ⟨f, rest, q', pushed, found, executed, rfl⟩ := Threads.step_run stepped
  have top := Threads.State.has_of_top found
  have wf := watched.wellFormed f top
  refine ⟨watched.posting.run wf found executed, fun g has => ?_, ?_,
    watched.abandoned.run wf found executed, watched.owing, fun exposed => ?_⟩
  · rcases Threads.State.has_of_run found has with new | old
    · exact (SendQueue.exec_follows executed).wellFormed wf new
    · exact watched.wellFormed g old
  · dsimp only
    rw [(SendQueue.exec_effect wf executed).static.cfg]
    exact watched.timed
  · have before := Exposed.before_run watched found executed apart exposed
    rcases watched.covered before with hot | credit | none
    · rcases hot.run watched.timed found executed with hot | empty
      · exact .inl hot
      · obtain ⟨c, listed, -⟩ := exposed
        dsimp only at listed
        rw [empty] at listed
        cases listed
    · exact .inr (.inl credit)
    · exact .inr (.inr none)

/-- An event of the sender: the RNR acknowledgements it starts to handle were on their
way. -/
theorem Watched.event {event : Event} {st : SendQueue.St} {data : List Header}
    {acks : List (Nat × SendAckStatus)} {credits : List Nat} (watched : Watched net)
    (open_ : event ≠ .close) (stepped : SendQueue.step net.sender (.event event) = some st)
    (arrives : ∀ {psn}, Net.RnrUnderWay { net with
      sender := st, data := data, acks := acks, credits := credits } psn → net.RnrUnderWay psn)
    (kept : Covered net → Covered { net with
      sender := st, data := data, acks := acks, credits := credits }) :
    Watched { net with sender := st, data := data, acks := acks, credits := credits } := by
  obtain ⟨q', code, reacted, rfl⟩ := Threads.step_event stepped
  have reacts := SendQueue.react_reacts reacted
  refine ⟨watched.posting.event reacts, fun g has => ?_, ?_,
    watched.abandoned.event open_ reacted, watched.owing, fun exposed => kept ?_⟩
  · rcases Threads.State.has_of_event has with new | old
    · exact reacts.wellFormed new
    · exact watched.wellFormed g old
  · dsimp only
    rw [reacts.samePsns.cfg]
    exact watched.timed
  · obtain ⟨c, listed, why⟩ := exposed
    dsimp only at listed why
    rw [reacts.pendingSends] at listed
    obtain ⟨n, ticket, -⟩ := watched.posting.pending c listed
    have psn := reacts.samePsns.psn c (watched.posting.tickets.bounded ticket).2
    rcases why with waits | named
    · exact watched.covered
        ⟨c, listed, .inl ((SendQueue.calm_react open_ reacted).waiting c waits)⟩
    · rw [psn] at named
      exact watched.covered ⟨c, listed, .inr (arrives named)⟩

/-- What is hot stays hot whatever happens. -/
theorem Covered.event {event : Event} {st : SendQueue.St} {data : List Header}
    {acks : List (Nat × SendAckStatus)} (open_ : event ≠ .close)
    (stepped : SendQueue.step net.sender (.event event) = some st) (covered : Covered net) :
    Covered { net with sender := st, data := data, acks := acks } := by
  obtain ⟨q', code, reacted, rfl⟩ := Threads.step_event stepped
  exact covered.imp (fun hot => hot.event open_ reacted) id

theorem no_answer_of_ownStep {q q' : SendQueue.Qp} {event : Event} {code : List Frame} {g : Frame}
    {psn : Nat} (own : ownStep (.event event) = true)
    (reacted : SendQueue.react q event = some (q', code)) (among : g ∈ code) :
    answersRnr psn g = false := by
  cases event with
  | ack given status => cases own
  | close => cases own
  | stopProducers => cases own
  | recvCredit credits => cases own
  | _ =>
      simp only [SendQueue.react] at reacted
      repeat' split at reacted
      all_goals cases reacted
      all_goals first
        | (cases List.mem_singleton.mp among; rfl)
        | cases among

theorem Watched.own {label : SendQueue.Lbl} {st : SendQueue.St} (watched : Watched net)
    (own : ownStep label = true) (apart : PsnsApart net (.send label))
    (stepped : SendQueue.step net.sender label = some st) :
    Watched { net with sender := st, data := net.data ++ sentFrames ends net.sender label } := by
  cases label with
  | run thread choice => exact watched.run apart stepped
  | event event =>
      have open_ : event ≠ .close := by
        rintro rfl
        cases own
      refine watched.event open_ stepped ?_ (Covered.event open_ stepped)
      obtain ⟨q', code, reacted, rfl⟩ := Threads.step_event stepped
      rintro psn (onWire | ⟨g, has, answers⟩)
      · exact .inl onWire
      · rcases Threads.State.has_of_event has with new | old
        · rw [no_answer_of_ownStep own reacted new] at answers
          cases answers
        · exact .inr ⟨g, old, answers⟩

/-- An acknowledgement arrives. -/
theorem Watched.ack {i psn : Nat} {status : SendAckStatus} {st : SendQueue.St}
    (watched : Watched net) (found : net.acks[i]? = some (psn, status))
    (stepped : SendQueue.step net.sender (.event (.ack psn status)) = some st) :
    Watched { net with sender := st, acks := net.acks.eraseIdx i } := by
  refine watched.event (by simp) stepped ?_ (Covered.event (by simp) stepped)
  cases stepped
  rintro other (⟨ack, among, rnr, names⟩ | ⟨g, has, answers⟩)
  · exact .inl ⟨ack, List.mem_of_mem_eraseIdx among, rnr, names⟩
  · rcases Threads.State.has_of_event has with new | old
    · cases List.mem_singleton.mp new
      cases status with
      | rnr => exact .inl ⟨_, List.mem_of_getElem? found, rfl, by simpa [answersRnr] using answers⟩
      | _ => cases answers
    · exact .inr ⟨g, old, answers⟩

/-- A credit arrives: the reaper will look at it. -/
theorem Watched.credit {credits : Nat} {wire : List Nat} {st : SendQueue.St}
    (watched : Watched net)
    (stepped : SendQueue.step net.sender (.event (.recvCredit credits)) = some st) :
    Watched { net with sender := st, credits := wire } := by
  have hot : Hot st := by
    obtain ⟨q', code, reacted, rfl⟩ := Threads.step_event stepped
    simp only [SendQueue.react] at reacted
    split at reacted
    · cases reacted
      have timed := watched.timed
      rcases @SendQueue.armed_or_dead_of_scheduleTimeout
        { net.sender.shared with
          remoteRecvCredits := net.sender.shared.remoteRecvCredits + credits } timed with
        armed | dead
      · exact .inl armed
      · exact .inr (.inl dead)
    · cases reacted
  refine watched.event (by simp) stepped ?_ fun _ => .inl hot
  obtain ⟨q', code, reacted, rfl⟩ := Threads.step_event stepped
  simp only [SendQueue.react] at reacted
  split at reacted
  · cases reacted
    rintro psn (onWire | ⟨g, has, answers⟩)
    · exact .inl onWire
    · rcases Threads.State.has_of_event has with new | old
      · cases new
      · exact .inr ⟨g, old, answers⟩
  · cases reacted

theorem Watched.answer {thread : Nat} {env : Env} {after : Threads.State Rx Input}
    (watched : Watched net) (sent : env.creditSent = true)
    (stepped : Threads.step noEvent serve net.receiver (.run thread env) = some after) :
    Watched (net.answer after) := by
  obtain ⟨input, rest, q', pushed, found, served, rfl⟩ := Threads.step_run stepped
  cases served
  obtain ⟨owing, new, noted, rnr, credit⟩ := watched.owing.run sent found
  have fresh : (net.receiver.shared.step env input).log.drop net.receiver.shared.log.length =
      new := by
    rw [noted, List.drop_left]
  refine ⟨watched.posting, watched.wellFormed, watched.timed, watched.abandoned, owing,
    fun exposed => ?_⟩
  have covered : Covered net → Covered (net.answer
      ⟨net.receiver.shared.step env input, net.receiver.threads.set thread ([] ++ rest)⟩) := by
    rintro (hot | credits | none)
    · exact .inl hot
    · exact .inr (.inl (by simp [Net.answer, credits]))
    · rcases credit none with still | ⟨destQp, n, among⟩
      · exact .inr (.inr still)
      · refine .inr (.inl ?_)
        have sends : n ∈ new.filterMap creditOf := List.mem_filterMap.mpr ⟨_, among, rfl⟩
        simp only [Net.answer, fresh]
        exact List.ne_nil_of_mem (List.mem_append_right _ sends)
  obtain ⟨c, listed, why⟩ := exposed
  rcases why with waits | ⟨ack, among, isRnr, names⟩ | handled
  · exact covered (watched.covered ⟨c, listed, .inl waits⟩)
  · simp only [Net.answer, fresh] at among
    rcases List.mem_append.mp among with old | answered
    · exact covered (watched.covered ⟨c, listed, .inr (.inl ⟨ack, old, isRnr, names⟩)⟩)
    · -- the receiver has just answered RNR: it holds nothing
      obtain ⟨entry, inNew, is⟩ := List.mem_filterMap.mp answered
      cases entry <;> cases is
      subst isRnr
      exact .inr (.inr (rnr _ inNew _ _ rfl))
  · exact covered (watched.covered ⟨c, listed, .inr (.inr handled)⟩)

theorem Watched.step {label : Label} {next : Net} (watched : Watched net)
    (lossless : Lossless label) (apart : PsnsApart net label)
    (stepped : step ends net label = some next) : Watched next := by
  cases label with
  | send label =>
      simp only [Pair.step] at stepped
      split at stepped
      · obtain ⟨st, taken, rfl⟩ := Option.map_eq_some_iff.mp stepped
        exact watched.own ‹_› apart taken
      · cases stepped
  | postRecv wqes =>
      cases stepped
      exact { watched with owing := watched.owing.call (promised_postRecv wqes) }
  | recv thread env =>
      obtain ⟨after, taken, rfl⟩ := Option.map_eq_some_iff.mp stepped
      exact watched.answer lossless taken
  | data i payload =>
      simp only [Pair.step] at stepped
      split at stepped
      · split at stepped
        · cases stepped
          exact { watched with owing := watched.owing.call trivial }
        · cases stepped
      · cases stepped
  | lose i =>
      simp only [Pair.step] at stepped
      split at stepped
      · cases stepped
        exact { watched with }
      · cases stepped
  | ack i =>
      simp only [Pair.step] at stepped
      split at stepped
      · obtain ⟨st, taken, rfl⟩ := Option.map_eq_some_iff.mp stepped
        exact watched.ack ‹_› taken
      · cases stepped
  | credit i =>
      simp only [Pair.step] at stepped
      split at stepped
      · split at stepped
        · obtain ⟨st, taken, rfl⟩ := Option.map_eq_some_iff.mp stepped
          exact watched.credit taken
        · rename_i dead
          cases stepped
          refine { watched with covered := fun _ => .inl (.inr (.inl ?_)) }
          simpa using dead
      · cases stepped

theorem watched_start (cfg : QpConfig) (memory : Nat → UInt8) (timed : cfg.timeout ≠ 0)
    {rx : Rx} (owing : Owing ⟨rx, []⟩) : Watched (start cfg memory rx) where
  posting := SendQueue.posting_start cfg memory
  wellFormed := fun _ ⟨_, among, _⟩ => nomatch among
  timed := timed
  abandoned := fun _ _ listed => nomatch listed
  owing := owing
  covered := fun ⟨_, listed, _⟩ => nomatch listed

/-- A send that waits for a credit the receiver has given is looked at again. -/
theorem Watched.unwedged (watched : Watched net) : ¬ Wedged net := by
  intro wedged
  obtain ⟨c, first, waits⟩ := wedged.waiting
  have listed : c ∈ net.sender.shared.pendingSends := List.mem_of_mem_head? first
  rcases watched.covered ⟨c, listed, .inl waits⟩ with (armed | dead | ⟨f, has, -⟩) | credit | none
  · rw [wedged.unarmed] at armed
    cases armed
  · exact wedged.senderIdle _ (watched.abandoned dead c listed waits)
  · exact wedged.senderIdle f has
  · exact credit wedged.credits
  · have some_ := List.length_pos_iff.mpr wedged.posted
    exact wedged.receiverIdle _ (watched.owing.owed (by omega))

end Steps

/-- In every run that queues no send under a PSN for which an RNR acknowledgement is
still on its way, a lossless control path never leaves the pair wedged, whatever
`rnr_retry` is.  The timeout of an RC QP in RTS is at least one jiffy. -/
theorem not_wedged (ends : Ends) (cfg : QpConfig) (memory : Nat → UInt8) (recvqSize : Nat)
    (striping remoteWrite : Bool) (timed : cfg.timeout ≠ 0) (net : Net)
    (reached : Trans.Reaches (step ends)
      (fun net label => Lossless label ∧ PsnsApart net label)
      (start cfg memory (connectedRx ends cfg recvqSize striping remoteWrite)) net) :
    ¬ Wedged net := by
  have watched : Watched net := by
    refine Trans.Reaches.invariant
      (watched_start cfg memory timed (owing_start ends cfg recvqSize striping remoteWrite)) ?_
      reached
    intro state next label watched meets stepped
    exact watched.step meets.1 meets.2 stepped
  exact watched.unwedged

end Tbv.Pair
