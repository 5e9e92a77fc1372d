import ThunderboltIbverbs.Recv.Waiting
import ThunderboltIbverbs.Apple.Waiting

/-! # Calls on the receive side

`tbv_post_recv` queues its WQEs one by one under `tqp->lock`, and drains at its end under
`rx_lock`; a refused WR makes it leave without the drain.  The handlers and the reaper hold
`rx_lock`, and the reaper marks an error after it has released it. -/
set_option autoImplicit false
namespace Tbv.RecvQueue

open Trans
open Tbv.NativeData

/-- The WQE `tbv_post_recv` makes of a WR. -/
def wqeOf (wr : AppleRx.RecvWr) : RecvWqe := ⟨wr.wqe.wrId, wr.wqe.addr, wr.wqe.length, wr.wqe.lkey⟩

inductive Section where
  | postLoop (wrs : List AppleRx.RecvWr) (posted : Bool)
  | advertise
  | drain
  | handle (hdr : Header) (payload : List UInt8)
  | reap (expiry : Expiry)
  | markError

inductive Event where
  | rxFrame (hdr : Header) (payload : List UInt8)
  | postRecv (wrs : List AppleRx.RecvWr)
  | reap (expiry : Expiry)

structure Choice where
  env : Env
  sgeValid : Bool

def Rx.allowsPost (q : Rx) : Bool := !q.closing && q.state != .reset && q.state != .err

/-- The checks of one turn of the loop of `tbv_post_recv`. -/
def Rx.accepts (q : Rx) (wr : AppleRx.RecvWr) (choice : Choice) : Bool :=
  decide (wr.numSge ≤ 1) && (wr.numSge != 1 || (wr.sge.isSome && choice.sgeValid)) &&
    (q.postOne (wqeOf wr)).2

def exec (q : Rx) (call : Section) (choice : Choice) : Option (Rx × List Section) :=
  match call with
  | .postLoop [] posted => some (q, if posted then [.advertise, .drain] else [])
  | .postLoop (wr :: rest) posted =>
      if q.accepts wr choice then some ((q.postOne (wqeOf wr)).1, [.postLoop rest true])
      else some (q, if posted then [.advertise] else [])
  | .advertise => some (q.advertiseRecvCredits choice.env, [])
  | .drain => some (q.drainReorder choice.env, [])
  | .handle hdr payload => some (q.rxFrame choice.env hdr payload, [])
  | .reap expiry =>
      some (q.timeoutReap choice.env expiry,
        if q.reapsFatally choice.env expiry then [.markError] else [])
  | .markError => some (q.markError choice.env, [])

def react (q : Rx) : Event → Option (Rx × List Section)
  | .rxFrame hdr payload => some (q, [.handle hdr payload])
  | .postRecv wrs => some (q, if q.allowsPost then [.postLoop wrs false] else [])
  | .reap expiry => some (q, [.reap expiry])

abbrev State := Threads.State Rx Section
abbrev Label := Threads.Label Event Choice

def callStep : State → Label → Option State := Threads.step react exec

def Quiet (st : State) : Prop := ∀ code ∈ st.threads, code = []

/-- A post is not refused after it has queued a buffer, and no frame ends an operation without
a drain. -/
def Prompt (st : State) : Label → Prop
  | .event _ => True
  | .run thread choice =>
      match st.top thread with
      | some (.postLoop (wr :: _) true) => st.shared.accepts wr choice = true
      | some (.handle hdr _) => ¬ st.shared.EndsAside hdr
      | _ => True

/-- The call will drain, or end what waits. -/
def Section.Serves : Section → Prop
  | .drain | .markError => True
  | .postLoop _ posted => posted = true
  | _ => False

/-- A message waits behind a buffer of a QP that is not in error. -/
def Rx.Due (q : Rx) : Prop := q.Waiting ∧ q.state ≠ .err

structure Attended (st : State) : Prop where
  openQp : st.shared.closing = false
  bounded : st.shared.Bounded
  owed : st.Owed Rx.Due Section.Serves

section Steps
variable {env : Env} {apart : Prop} {q next : Rx}

theorem Act.failed {owed : Option Nat} {out : Option Passed} (act : Act env apart owed q out next)
    (failed : q.state = .err) : next.state = .err := by
  cases act with
  | fail => rfl
  | prune =>
      obtain ⟨reorder, reorderCount, reorderBytes, log, pruned⟩ := @pruneStaleReorder_same q
      rw [pruned]
      exact failed
  | pass passes =>
      obtain ⟨log, rxMsg, ackHistory, rfl⟩ := passes.same
      exact failed
  | _ => exact failed

theorem Does.failed {owed : Option Nat} (does : Does env apart owed q next) :
    q.state = .err → next.state = .err := by
  refine does.keeps (R := fun q next => q.state = .err → next.state = .err) (fun _ => id)
    (fun one two => two ∘ one) Act.failed (fun passes => ?_) fun _ _ _ => id
  obtain ⟨log, rxMsg, ackHistory, rfl⟩ := passes.same
  exact id

/-- A call that makes acts, and after which the QP waits only if it did before. -/
theorem Attended.acts {st : State} (attended : Attended st) (env : Env) {thread : Nat} {call : Section}
    {rest pushed : List Section} (found : st.threads[thread]? = some (call :: rest))
    (does : Does env False none st.shared next)
    (eases : next.Due → (∃ other ∈ pushed, other.Serves) ∨ ¬ call.Serves ∧ st.shared.Waiting) :
    Attended ⟨next, st.threads.set thread (pushed ++ rest)⟩ where
  openQp := does.closing.trans attended.openQp
  bounded := does.bounded attended.bounded
  owed := attended.owed.run found fun due => by
    rcases eases due with served | ⟨notIt, waits⟩
    · exact .inl served
    · exact .inr ⟨notIt, waits, fun failed => due.2 (does.failed failed)⟩

theorem reorder_flushed (q : Rx) (env : Env) : (q.flushError env).reorder = [] := by
  unfold Rx.flushError
  obtain ⟨log, is⟩ := @flushRecvWqes_same env
    { (q.failMessage env .wrFlushErr).failWrite env .wrFlushErr with
      reorder := [], reorderCount := 0, reorderBytes := 0 }
  exact congrArg Rx.reorder is

/-- An error leaves nothing behind a buffer. -/
theorem markError_ends (openQp : q.closing = false) : ¬ (q.markError env).Due := by
  rintro ⟨⟨-, -, -, m, found, -⟩, running⟩
  unfold Rx.markError at found running
  split at found
  · rename_i already
    rcases already with closing | failed
    · rw [openQp] at closing
      cases closing
    · rw [if_pos (.inr failed)] at running
      exact running failed
  · unfold Rx.reorderFind at found
    rw [reorder_flushed] at found
    cases found

theorem Attended.step {st after : State} {label : Label} (attended : Attended st)
    (prompt : Prompt st label) (taken : callStep st label = some after) : Attended after := by
  obtain ⟨openQp, bounded, owed⟩ := attended
  cases label with
  | event event =>
      obtain ⟨shared, code, reacted, rfl⟩ := Threads.step_event taken
      cases event with
      | rxFrame hdr payload =>
          cases Option.some.inj reacted
          exact ⟨openQp, bounded, owed.event _ id⟩
      | postRecv wrs =>
          cases Option.some.inj reacted
          exact ⟨openQp, bounded, owed.event _ id⟩
      | reap expiry =>
          cases Option.some.inj reacted
          exact ⟨openQp, bounded, owed.event _ id⟩
  | run thread choice =>
      obtain ⟨call, rest, shared, pushed, found, executed, rfl⟩ := Threads.step_run taken
      have top := Threads.State.top_of_getElem? found
      have attended : Attended st := ⟨openQp, bounded, owed⟩
      cases call with
      | postLoop wrs posted =>
          cases wrs with
          | nil =>
              cases Option.some.inj executed
              refine attended.acts choice.env found .refl fun due => ?_
              cases posted with
              | true => exact .inl ⟨.drain, by simp, trivial⟩
              | false => exact .inr ⟨by simp [Section.Serves], due.1⟩
          | cons wr more =>
              simp only [exec] at executed
              split at executed
              · cases Option.some.inj executed
                exact attended.acts choice.env found (does_postOne _) fun _ =>
                  .inl ⟨_, List.mem_singleton_self _, rfl⟩
              · rename_i refused
                cases Option.some.inj executed
                refine attended.acts choice.env found .refl fun due =>
                  .inr ⟨fun queued => ?_, due.1⟩
                have posted : posted = true := queued
                simp only [Prompt, top, posted] at prompt
                exact refused prompt
      | advertise =>
          cases Option.some.inj executed
          refine attended.acts choice.env found does_advertiseRecvCredits fun due =>
            .inr ⟨id, ?_⟩
          have eases : Eases st.shared (st.shared.advertiseRecvCredits choice.env) := by
            unfold Rx.advertiseRecvCredits
            repeat' split
            all_goals exact id
          exact eases due.1
      | drain =>
          cases Option.some.inj executed
          exact attended.acts choice.env found does_drainReorder fun due =>
            absurd due.1 (settled_drainReorder openQp)
      | handle hdr payload =>
          cases Option.some.inj executed
          have ends : ¬ st.shared.EndsAside hdr := by simpa [Prompt, top] using prompt
          exact attended.acts choice.env found
            (@does_rxFrame choice.env False _ hdr payload bounded (fun is => is.elim)
              fun is => is.elim) fun due => .inr ⟨id, eases_rxFrame openQp bounded ends due.1⟩
      | reap expiry =>
          cases Option.some.inj executed
          refine attended.acts choice.env found
            (@does_timeoutReap choice.env False _ expiry fun is => is.elim) fun due => ?_
          cases fatal : st.shared.reapsFatally choice.env expiry with
          | true => exact .inl ⟨.markError, by simp, trivial⟩
          | false => exact .inr ⟨id, eases_timeoutReap openQp fatal due.1⟩
      | markError =>
          cases Option.some.inj executed
          exact attended.acts choice.env found does_markError fun due =>
            absurd due (markError_ends openQp)

end Steps

theorem Rx.Fresh.settled {q : Rx} (fresh : q.Fresh) : ¬ q.Waiting := by
  rintro ⟨-, -, -, m, found, -⟩
  unfold Rx.reorderFind at found
  rw [fresh.reorder] at found
  cases found

/-- When no call is in progress, a complete message at the expected PSN finds no buffer. -/
theorem expected_message_finds_no_buffer {start : Rx} (openQp : start.closing = false)
    (fresh : start.Fresh) {st : State} (reached : Reaches callStep Prompt ⟨start, []⟩ st)
    (quiet : Quiet st) (running : st.shared.state ≠ .err) : ¬ st.shared.Waiting := by
  have atStart : Attended ⟨start, []⟩ :=
    ⟨openQp, fresh.bounded, fun due => absurd due.1 fresh.settled⟩
  have attended : Attended st := reached.invariant atStart fun attended prompt taken =>
    attended.step prompt taken
  exact fun waits => attended.owed.settled quiet ⟨waits, running⟩

/-- No deliverable message of a native or an Apple QP waits behind a posted buffer: every run
whose posts are refused before or after all their buffers are queued, and whose frames end no
operation without a drain. -/
theorem no_message_waits_behind_a_buffer (start : Rx) (fresh : start.Fresh)
    (openQp : start.closing = false) (cfg : AppleRx.Config) (apple : AppleRx.Qp)
    (idle : AppleRx.Idle cfg apple) :
    (∀ st, Reaches callStep Prompt ⟨start, []⟩ st → Quiet st → st.shared.state ≠ .err →
      st.shared.rxMsg = none → st.shared.rxWrite = none →
        ∀ m, st.shared.reorderFind st.shared.expectedPsn = some m → m.complete = true →
          m.needsWqe = true → st.shared.recvq = []) ∧
    (∀ st, Reaches (AppleRx.step cfg) (AppleRx.Whole cfg) ⟨apple, []⟩ st → AppleRx.Quiet st →
      ∀ index < cfg.slotCount, (st.shared.pending index).ready = true → st.shared.recvq = []) := by
  constructor
  · intro st reached quiet running message write m found complete needs
    by_contra posted
    exact expected_message_finds_no_buffer openQp fresh reached quiet running
      ⟨message, write, posted, m, found, complete, needs⟩
  · intro st reached quiet index bound ready
    exact AppleRx.ready_slot_finds_no_buffer idle reached quiet bound ready

/-! ## Runs of calls -/

instance (m : RxMessage) (hdr : Header) (psn : Nat) : Decidable (∃ idx count,
    rxFragmentShape hdr.immData hdr.fragOffset hdr.length (hasFlag hdr.flags fLast) =
      some (idx, count) ∧ (m.sameMessage hdr psn && m.fragCount == count) = false) :=
  decidable_of_iff (∃ place ∈ rxFragmentShape hdr.immData hdr.fragOffset hdr.length
    (hasFlag hdr.flags fLast), (m.sameMessage hdr psn && m.fragCount == place.2) = false)
    Prod.exists

instance (q : Rx) (hdr : Header) (psn : Nat) : Decidable (q.Contradicted hdr psn) :=
  inferInstanceAs (Decidable (psnDelta psn q.expectedPsn = 0 ∧ ∃ m ∈ q.rxMsg,
    if q.cfg.striping then
      ∃ idx count, rxFragmentShape hdr.immData hdr.fragOffset hdr.length
        (hasFlag hdr.flags fLast) = some (idx, count) ∧
          (m.sameMessage hdr psn && m.fragCount == count) = false
    else m.sameMessage hdr psn = false))

theorem Rx.endsAside_iff (q : Rx) (hdr : Header) : q.EndsAside hdr ↔
    ((hdr.opcode = .send ∨ hdr.opcode = .sendImm) ∧ sendBadHeader hdr = false ∧
      q.Contradicted hdr (hdr.psn % psnMod)) ∨
    ((hdr.opcode = .rdmaWrite ∨ hdr.opcode = .rdmaWriteImm) ∧
      ∃ w ∈ q.rxWrite, w.psn ≠ q.expectedPsn) := by
  unfold Rx.EndsAside
  cases hdr.opcode <;> simp

instance (q : Rx) (hdr : Header) : Decidable (q.EndsAside hdr) :=
  decidable_of_iff' _ (q.endsAside_iff hdr)

instance (st : State) : (label : Label) → Decidable (Prompt st label)
  | .event _ => .isTrue trivial
  | .run thread choice => by
      unfold Prompt
      dsimp only
      split <;> infer_instance

instance (st : State) : Decidable (Quiet st) :=
  decidable_of_iff (∀ code ∈ st.threads, code.isEmpty = true) (by simp [Quiet])

namespace Calls

def choice : Choice := ⟨Collision.env, true⟩

def good : AppleRx.RecvWr := ⟨1, 0, none⟩

def call (event : Event) (thread sections : Nat) : List Label :=
  .event event :: List.replicate sections (.run thread choice)

def send (psn total offset len : Nat) : Event :=
  .rxFrame { opcode := .send, destQp := 1, srcQp := 2, psn
             flags := if offset + len = total then fLast else 0
             length := len, immData := total, fragOffset := offset } (List.replicate len 9)

/-- Three SENDs wait for the one before them, whose two fragments come last.  The first buffer is
for that one, and two more are posted together. -/
def labels : List Label :=
  call (.postRecv [good]) 0 4 ++ call (send 1 1 0 1) 1 1 ++ call (send 2 1 0 1) 2 1 ++
    call (send 3 1 0 1) 3 1 ++ call (send 0 4049 0 4048) 4 1 ++ call (send 0 4049 4048 1) 5 1 ++
    call (.postRecv [good, good]) 6 5

/-- Two messages of an Apple QP, and one buffer between them. -/
def appleLabels : List AppleRx.Label :=
  AppleRx.call (.rxFrame ⟨[1], 1, 3⟩) 0 5 ++ AppleRx.call (.postRecv [good]) 1 6 ++
    AppleRx.call (.rxFrame ⟨[2], 1, 3⟩) 2 5

end Calls

/-- A complete message waits in each, and there is no buffer. -/
theorem no_message_waits_behind_a_buffer_posted :
    (∃ st, Reaches callStep Prompt ⟨Collision.ready, []⟩ st ∧ Quiet st ∧ st.shared.consumed = 3 ∧
      (∃ m, st.shared.reorderFind st.shared.expectedPsn = some m ∧ m.complete = true ∧
        m.needsWqe = true) ∧ st.shared.recvq = []) ∧
    ∃ st, Reaches (AppleRx.step AppleRx.oneSlot) (AppleRx.Whole AppleRx.oneSlot) ⟨{}, []⟩ st ∧
      AppleRx.Quiet st ∧ st.shared.completed.length = 1 ∧ (st.shared.pending 0).ready = true ∧
      st.shared.recvq = [] := by
  obtain ⟨native, apple⟩ := no_message_waits_behind_a_buffer Collision.ready
    Collision.ready_fresh rfl AppleRx.oneSlot {} AppleRx.idle_oneSlot
  constructor
  · have ran : (guarded callStep Prompt Calls.labels ⟨Collision.ready, []⟩).any (fun st =>
        decide (Quiet st ∧ st.shared.state = .rtr ∧ st.shared.consumed = 3) &&
          st.shared.rxMsg.isNone && st.shared.rxWrite.isNone &&
          (st.shared.reorderFind st.shared.expectedPsn).any fun m =>
            m.complete && m.needsWqe) = true := by
      decide +kernel
    obtain ⟨st, reached, found⟩ := exists_reaches_of_guarded ran
    simp only [Bool.and_eq_true, decide_eq_true_eq, Option.isNone_iff_eq_none,
      Option.any_eq_true] at found
    obtain ⟨⟨⟨⟨quiet, state, consumed⟩, message⟩, write⟩, m, waits, complete, needs⟩ := found
    have running : st.shared.state ≠ .err := by
      rw [state]
      decide
    exact ⟨st, reached, quiet, consumed, ⟨m, waits, complete, needs⟩,
      native st reached quiet running message write m waits complete needs⟩
  · have ran : (guarded (AppleRx.step AppleRx.oneSlot) (AppleRx.Whole AppleRx.oneSlot)
        Calls.appleLabels ⟨{}, []⟩).any (fun st =>
          decide (AppleRx.Quiet st ∧ st.shared.completed.length = 1) &&
            (st.shared.pending 0).ready) = true := by
      decide +kernel
    obtain ⟨st, reached, found⟩ := exists_reaches_of_guarded ran
    simp only [Bool.and_eq_true, decide_eq_true_eq] at found
    obtain ⟨⟨quiet, completed⟩, ready⟩ := found
    exact ⟨st, reached, quiet, completed, ready, apple st reached quiet 0 (by decide) ready⟩

/-! ## A post that fails part-way -/

namespace Failed

open Calls (call good)

/-- A WR with two SGEs. -/
def bad : AppleRx.RecvWr := ⟨2, 2, none⟩

/-- One buffer, two SENDs in the wrong order, and a post of a good and a bad WR. -/
def labels : List Label :=
  call (.postRecv [good]) 0 4 ++ call (Calls.send 1 1 0 1) 1 1 ++
    call (Calls.send 0 1 0 1) 2 1 ++ call (.postRecv [good, bad]) 3 3

def start : State := ⟨Collision.ready, []⟩

def left : State := (run callStep labels start).getD start

/-- A whole message of an Apple QP, and the same post. -/
def appleLabels : List AppleRx.Label :=
  AppleRx.call (.rxFrame ⟨[1], 1, 3⟩) 0 5 ++ AppleRx.call (.postRecv [good, bad]) 1 2

end Failed

/-- The buffer that was queued before the bad WR stays behind the message that waits for it. -/
theorem failed_post_leaves_a_message_waiting :
    (run callStep Failed.labels Failed.start = some Failed.left ∧ Quiet Failed.left ∧
      Failed.left.shared.closing = false ∧ Failed.left.shared.state = .rtr ∧
      Failed.left.shared.rxMsg = none ∧ Failed.left.shared.rxWrite = none ∧
      (Failed.left.shared.reorderFind Failed.left.shared.expectedPsn).any
        (fun m => m.complete && m.needsWqe) = true ∧
      Failed.left.shared.recvq = [wqeOf Calls.good]) ∧
    (run (AppleRx.step AppleRx.oneSlot) Failed.appleLabels ⟨{}, []⟩).any (fun st =>
      decide (AppleRx.Quiet st ∧ (st.shared.pending 0).ready = true ∧
        st.shared.recvq = [Calls.good.wqe])) = true := by
  have ended : Failed.left.threads = [[], [], [], []] := rfl
  refine ⟨⟨rfl, ?_, rfl, rfl, rfl, rfl, by decide, by decide⟩, by decide +kernel⟩
  intro code among
  rw [ended] at among
  simpa using among

end Tbv.RecvQueue
