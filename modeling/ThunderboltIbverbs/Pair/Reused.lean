import ThunderboltIbverbs.Pair.Credits
import ThunderboltIbverbs.Recv.Reset
import ThunderboltIbverbs.Send.Outcome
import ThunderboltIbverbs.Send.Window

/-! # An RNR acknowledgement that outlives its PSN

PSNs wrap after 2^24 posts.  An RNR acknowledgement that is still on its way then stops
the send that has its PSN now; nothing tells that send to go on. -/
set_option autoImplicit false
namespace Tbv.Pair

open Tbv.NativeData
open SendQueue (QpConfig Frame Choice Event oneByteSend postTaken)
open RecvQueue (Rx RecvWqe Env Input willing)

/-! ## One connection -/

def ends : Ends := ⟨3, 7⟩

/-- `rnr_retry` 7. -/
def patient : QpConfig where
  type := .rc
  maxSendWr := 16
  timeout := 2
  rnrTimeout := 1
  retryCnt := 7
  rnrRetry := 7
  zcopyMinBytes := 0
  initialPsn := 0

def fresh : Net := start patient (fun _ => 7) (connectedRx ends patient 16 false false)

def runs (thread : Nat) (choices : List Choice) : List Label :=
  (SendQueue.runs thread choices).map .send

/-- The frame that is first on the wire arrives and is handled. -/
def arrives (thread : Nat) : List Label := [.data 0 [7], .recv thread willing]

def posts (thread : Nat) : List Label :=
  [.postRecv [⟨1, 0, 64, 9⟩], .recv thread willing, .recv thread willing, .recv thread willing]

def retries : List Choice :=
  [.ok, .ok, .ok, .ok, .ok, .ok, .ok, .queued 1 0, .ok, .ok, .ok, .ok, .ok, .ok, .ok]

/-- The frame of a send is retired, and its callback runs. -/
def retired (thread : Nat) : List Label :=
  [.send (.event (.txRetired 0 false 0)), .send (.run thread .ok)]

/-- A send finds no receive posted, twice: its first transmission and a retry both are
answered with RNR.  One answer makes it wait, the next credit makes it go on, and it is
delivered; the other answer is still on its way when everything else is done and another
receive has been posted. -/
def oneLeft : List Label :=
  [Label.send (.event (.postSend oneByteSend))] ++ runs 0 postTaken ++ arrives 0 ++ retired 1 ++
  [Label.send (.event .tick), .send (.event .tick), .send (.event .timeoutWork)] ++ runs 4 retries ++
  arrives 1 ++ retired 5 ++
  [Label.ack 0] ++ runs 6 [.ok, .ok, .ok] ++ posts 2 ++ [Label.credit 0] ++
  [Label.send (.event .timeoutWork)] ++ runs 8 retries ++ arrives 3 ++ retired 9 ++
  [Label.ack 1] ++ runs 10 [.ok, .ok, .ok, .ok, .ok, .ok, .cancelled 0 0, .ok, .ok] ++
  posts 4 ++ [Label.credit 0] ++
  [Label.send (.event .timeoutWork)] ++ runs 12 [.ok, .ok, .ok, .ok, .ok, .ok, .ok, .fail 0]

def idleNow (net : Net) : Bool :=
  decide (net.sender.shared.cfg = patient) && decide (net.sender.shared.state = .rts) &&
  !net.sender.shared.closing && decide (net.sender.shared.remoteRecvCredits = 1) &&
  decide (net.sender.shared.sendqCount = 0) && net.sender.shared.pendingSends.isEmpty &&
  decide (net.sender.shared.sendPsn = 1) && !net.sender.shared.timeoutArmed &&
  decide (net.sender.shared.nextOp = 1) && decide (net.sender.shared.inFlight 0 = 0) &&
  decide (net.sender.shared.rawInFlight 0 = 0) && net.sender.threads.all List.isEmpty &&
  net.receiver.threads.all List.isEmpty && !net.receiver.shared.recvq.isEmpty &&
  net.data.isEmpty && decide (net.acks = [(0, .rnr)]) && net.credits.isEmpty

theorem oneLeft_idle : (Trans.guarded (step ends)
    (fun net label => Lossless label ∧ PsnsApart net label) oneLeft fresh).any idleNow = true := by
  decide +kernel

/-! ## Requests that were never posted -/

/-- Only requests that were posted are referred to or in flight. -/
structure Posted (st : SendQueue.St) : Prop where
  posting : SendQueue.Posting st
  refs : ∀ {f}, st.Has f → ∀ c ∈ f.refs, c < st.shared.nextOp
  flight : ∀ c, 0 < st.shared.inFlight c + st.shared.rawInFlight c → c < st.shared.nextOp

theorem posted_of_reaches {cfg : QpConfig} {memory : Nat → UInt8} {st : SendQueue.St}
    (reached : Trans.Reaches SendQueue.step (fun _ _ => True) (SendQueue.start cfg memory) st) :
    Posted st := by
  refine SendQueue.reaches_invariant
    ⟨SendQueue.posting_start cfg memory, (fun ⟨_, among, _⟩ => nomatch among),
      fun c flying => absurd flying (Nat.lt_irrefl _)⟩ ?_ ?_ reached
  · intro st event q' code posted _ reacts
    have more := reacts.samePsns.nextOp
    refine ⟨posted.posting.event reacts, fun {f} has c among => ?_, fun c flying => ?_⟩
    · rcases Threads.State.has_of_event has with new | old
      · cases reacts with
        | quiet only entry =>
            rw [SendQueue.Frame.refs_of_isEntry (entry f new)] at among
            cases among
        | postSend wr =>
            cases List.mem_singleton.mp new
            cases List.mem_singleton.mp among
            exact Nat.lt_succ_self _
        | postRead signaled =>
            cases List.mem_singleton.mp new
            cases among
        | txRetired status flying =>
            cases List.mem_singleton.mp new
            cases List.mem_singleton.mp among
            exact posted.flight c (by omega)
        | dma => cases new
        | memWrite => cases new
      · exact Nat.lt_of_lt_of_le (posted.refs old c among) more
    · refine Nat.lt_of_lt_of_le (posted.flight c ?_) more
      cases reacts with
      | quiet only entry =>
          dsimp only at flying
          rw [only.inFlight, only.rawInFlight] at flying
          exact flying
      | txRetired status flew =>
          rename_i d framed raw isRaw
          simp only [SendQueue.Qp.dropInFlight, Function.update_apply] at flying
          split at flying <;> simp_all
          omega
      | _ => exact flying
  · intro st thread choice f rest q' pushed posted wf _ found executed
    have effect := SendQueue.exec_effect wf executed
    have top := Threads.State.has_of_top found
    have known : ∀ c ∈ st.shared.pendingSends, c < st.shared.nextOp := by
      intro c listed
      obtain ⟨n, ticket, -⟩ := posted.posting.pending c listed
      exact (posted.posting.tickets.bounded ticket).2
    refine ⟨posted.posting.run wf found executed, fun {g} has c among => ?_, fun c flying => ?_⟩
    · dsimp only
      rw [effect.static.nextOp]
      rcases Threads.State.has_of_run found has with new | old
      · rcases (SendQueue.exec_follows executed).refs new among with mine | listed
        · exact posted.refs top c mine
        · exact known c listed
      · exact posted.refs old c among
    · dsimp only at flying ⊢
      rw [effect.static.nextOp]
      rcases effect.flight c with ⟨framed, raw⟩ | ⟨reason, stage, caller, rfl⟩
      · exact posted.flight c (by omega)
      · exact posted.refs top c (List.mem_cons_self ..)

section Project
variable {ends : Ends} {ok : Net → Label → Prop} {cfg : QpConfig} {memory : Nat → UInt8} {rx : Rx}
  {net : Net}

theorem sender_reaches (reached : Trans.Reaches (step ends) ok (start cfg memory rx) net) :
    Trans.Reaches SendQueue.step (fun _ _ => True) (SendQueue.start cfg memory) net.sender := by
  induction reached with
  | init => exact .init
  | @step net next label before _ stepped ih =>
      cases label with
      | send label =>
          simp only [Pair.step] at stepped
          split at stepped
          · obtain ⟨st, taken, rfl⟩ := Option.map_eq_some_iff.mp stepped
            exact ih.step trivial taken
          · cases stepped
      | postRecv wqes =>
          cases stepped
          exact ih
      | recv thread env =>
          obtain ⟨after, taken, rfl⟩ := Option.map_eq_some_iff.mp stepped
          exact ih
      | data i payload =>
          simp only [Pair.step] at stepped
          repeat' split at stepped
          all_goals cases stepped
          exact ih
      | lose i =>
          simp only [Pair.step] at stepped
          split at stepped <;> cases stepped
          exact ih
      | ack i =>
          simp only [Pair.step] at stepped
          split at stepped
          · obtain ⟨st, taken, rfl⟩ := Option.map_eq_some_iff.mp stepped
            exact ih.step trivial taken
          · cases stepped
      | credit i =>
          simp only [Pair.step] at stepped
          split at stepped
          · split at stepped
            · obtain ⟨st, taken, rfl⟩ := Option.map_eq_some_iff.mp stepped
              exact ih.step trivial taken
            · cases stepped
              exact ih
          · cases stepped

end Project

/-! ## Posts that take a PSN and fail -/

/-- Everything is done but for one RNR acknowledgement of PSN 0. -/
structure Idle (psn : Nat) (net : Net) : Prop where
  cfg : net.sender.shared.cfg = patient
  open_ : net.sender.shared.state = .rts ∧ net.sender.shared.closing = false
  credits : net.sender.shared.remoteRecvCredits = 1
  slots : net.sender.shared.sendqCount = 0
  pending : net.sender.shared.pendingSends = []
  next : net.sender.shared.sendPsn = psn
  unarmed : net.sender.shared.timeoutArmed = false
  retired : ∀ c, net.sender.shared.inFlight c = 0 ∧ net.sender.shared.rawInFlight c = 0
  idle : ∀ f, ¬ net.sender.Has f
  receiverIdle : ∀ input, ¬ net.receiver.Has input
  posted : net.receiver.shared.recvq ≠ []
  data : net.data = []
  acks : net.acks = [(0, .rnr)]
  wire : net.credits = []

theorem step_own (ends : Ends) (net : Net) {q q' : SendQueue.Qp} {f : Frame} {choice : Choice}
    {pushed : List Frame} (threads : List (List Frame))
    (sender : net.sender = ⟨q, threads ++ [[f]]⟩)
    (executed : SendQueue.exec q f choice = some (q', pushed)) :
    step ends net (.send (.run threads.length choice)) = some { net with
      sender := ⟨q', threads ++ [pushed]⟩
      data := net.data ++ sentFrames ends net.sender (.run threads.length choice) } := by
  simp only [step, ownStep, if_true, sender]
  rw [SendQueue.step_last threads executed]
  rfl

/-- No frame stands on the stacks once an empty one is added. -/
theorem idle_append {threads : List (List Frame)} {q q' : SendQueue.Qp}
    (idle : ∀ f, ¬ Threads.State.Has (⟨q, threads⟩ : SendQueue.St) f) :
    ∀ f, ¬ Threads.State.Has (⟨q', threads ++ [[]]⟩ : SendQueue.St) f := by
  rintro f ⟨stack, among, inside⟩
  rcases List.mem_append.mp among with old | new
  · exact idle f ⟨stack, old, inside⟩
  · cases List.mem_singleton.mp new
    cases inside

abbrev Reached (net : Net) : Prop :=
  Trans.Reaches (step ends) (fun _ label => Lossless label) fresh net

theorem Reached.send {net net' : Net} {label : SendQueue.Lbl} (reached : Reached net)
    (stepped : step ends net (.send label) = some net') : Reached net' :=
  Trans.Reaches.step reached (show Lossless (.send label) from trivial) stepped

/-- The frames that a step of the last thread gives to the path. -/
theorem sentFrames_last {q : SendQueue.Qp} {f : Frame} {threads : List (List Frame)}
    {choice : Choice} (quiet : ∀ taken code, choice ≠ .queued taken code)
    (framed : ∀ r, f ≠ .postRead r .send) :
    sentFrames ends ⟨q, threads ++ [[f]]⟩ (.run threads.length choice) = [] := by
  cases choice with
  | queued taken code => exact absurd rfl (quiet taken code)
  | ok =>
      simp only [sentFrames, Threads.State.top]
      simp
      split
      · rename_i r is
        exact absurd (Option.some.inj is) (framed r)
      · rfl
  | _ => rfl

/-- A step of the last thread that sends nothing. -/
theorem Reached.quiet {q q' : SendQueue.Qp} {f : Frame} {pushed : List Frame} {choice : Choice}
    {threads : List (List Frame)} {rx : Threads.State Rx Input} {data : List Header}
    {acks : List (Nat × SendAckStatus)} {credits : List Nat}
    (reached : Reached ⟨⟨q, threads ++ [[f]]⟩, rx, data, acks, credits⟩)
    (executed : SendQueue.exec q f choice = some (q', pushed))
    (quiet : ∀ taken code, choice ≠ .queued taken code := by simp)
    (framed : ∀ r, f ≠ .postRead r .send := by simp) :
    Reached ⟨⟨q', threads ++ [pushed]⟩, rx, data, acks, credits⟩ := by
  have next := reached.send (step_own ends _ threads rfl executed)
  rw [sentFrames_last quiet framed, List.append_nil] at next
  exact next

/-- One more READ that gets no frame: its PSN is gone. -/
theorem Idle.again {psn : Nat} {net : Net} (idle : Idle psn net) (reached : Reached net) :
    ∃ net', Reached net' ∧ Idle ((psn + 1) % SendQueue.psnMod) net' := by
  obtain ⟨⟨q, threads⟩, rx, data, acks, credits⟩ := net
  obtain ⟨cfg, ⟨state, closing⟩, credit, slots, pending, next, unarmed, retired, none, rxNone,
    posted, noData, oneAck, noCredit⟩ := idle
  dsimp only at cfg state closing credit slots pending next unarmed retired none rxNone posted
  dsimp only at noData oneAck noCredit
  subst noData
  let r := q.nextOp
  let q1 : SendQueue.Qp := { q with
    nextOp := r + 1
    read := Function.update q.read r { signaled := true } }
  have allows : q1.allowsPost = true := by
    simp [SendQueue.Qp.allowsPost, SendQueue.Qp.live, q1, state, closing]
  have called : step ends ⟨⟨q, threads⟩, rx, [], acks, credits⟩
      (.send (.event (.postRead true))) =
      some ⟨⟨q1, threads ++ [[.postRead r .start]]⟩, rx, [], acks, credits⟩ := rfl
  have started : SendQueue.exec q1 (.postRead r .start) .ok = some (q1, [.postRead r .reserve]) := by
    simp [SendQueue.exec, SendQueue.execPostRead, allows]
  have reserved : SendQueue.exec q1 (.postRead r .reserve) .ok =
      some (q1.takeSlotRead r, [.postRead r .takePsn]) := by
    have room : ¬ q1.cfg.maxSendWr ≤ q1.sendqCount := by simp [q1, cfg, slots, patient]
    simp [SendQueue.exec, SendQueue.execPostRead, allows, room]
  let q2 := (q1.takeSlotRead r).takePsnRead r
  have tookPsn : SendQueue.exec (q1.takeSlotRead r) (.postRead r .takePsn) .ok =
      some (q2, [.postRead r .build]) := rfl
  have refused : SendQueue.exec q2 (.postRead r .build) (.fail SendQueue.enomem) =
      some (q2, [.postRead r (.failed SendQueue.enomem)]) := rfl
  let q3 := (q2.releaseSendqCountedRead r).note
    (.returnedRead r ((q2.releaseSendqCountedRead r).read r).psn SendQueue.enomem)
  have returned : SendQueue.exec q2 (.postRead r (.failed SendQueue.enomem)) .ok =
      some (q3, []) := by
    have same : ((q2.releaseSendqCountedRead r).read r).psn = (q2.read r).psn := by
      unfold SendQueue.Qp.releaseSendqCountedRead
      split <;> simp [SendQueue.Qp.modRead]
    simp [SendQueue.exec, SendQueue.execPostRead, SendQueue.Qp.returnRead, q3, same]
  have counted : (q2.read r).sqCounted = true := by
    simp [q2, SendQueue.Qp.takePsnRead, SendQueue.Qp.takeSlotRead, SendQueue.Qp.modRead,
      SendQueue.Qp.advancePsn]
  have last : q3 = (({ q2 with sendqCount := q2.sendqCount - 1 }.modRead r
      fun x => { x with sqCounted := false }).note
      (.returnedRead r ((q2.releaseSendqCountedRead r).read r).psn SendQueue.enomem)) := by
    simp only [q3]
    congr 1
    unfold SendQueue.Qp.releaseSendqCountedRead
    rw [if_pos counted]
  refine ⟨⟨⟨q3, threads ++ [[]]⟩, rx, [], acks, credits⟩, ?_, ?_⟩
  · have reached := reached.send called
    have reached := reached.send (step_own ends _ threads rfl started)
    have reached := reached.send (step_own ends _ threads rfl reserved)
    have reached := reached.send (step_own ends _ threads rfl tookPsn)
    have reached := reached.send (step_own ends _ threads rfl refused)
    have reached := reached.send (step_own ends _ threads rfl returned)
    simpa [sentFrames, Threads.State.top] using reached
  · rw [last]
    exact
      { cfg := cfg
        open_ := ⟨state, closing⟩
        credits := credit
        slots := by
          change q.sendqCount + 1 - 1 = 0
          omega
        pending := pending
        next := by
          change SendQueue.psnNext (q.sendPsn % SendQueue.psnMod) = _
          rw [next, SendQueue.psnNext]
          simp [SendQueue.psnMod, Nat.add_mod]
        unarmed := unarmed
        retired := retired
        idle := idle_append none
        receiverIdle := rxNone
        posted := posted
        data := rfl
        acks := oneAck
        wire := noCredit }

theorem Idle.later {net : Net} (idle : Idle 1 net) (reached : Reached net) (n : Nat) :
    ∃ net', Reached net' ∧ Idle ((1 + n) % SendQueue.psnMod) net' := by
  induction n with
  | zero => exact ⟨net, reached, idle⟩
  | succ n ih =>
      obtain ⟨middle, there, still⟩ := ih
      obtain ⟨net', further, idle'⟩ := still.again there
      refine ⟨net', further, ?_⟩
      rw [Nat.mod_add_mod, Nat.add_assoc] at idle'
      exact idle'

/-! ## The send that is stopped -/

/-- The send of PSN 0 once it is queued, with `n` frames in flight. -/
def sentCtx (n : Int) : SendQueue.SendCtx :=
  { SendQueue.newCtx patient oneByteSend with sqCounted := true, pending := true, txPending := n }

/-- The send of PSN 0 has taken the only credit and has `n` frames in flight. -/
structure Sent (c n : Nat) (q : SendQueue.Qp) : Prop where
  live : q.live = true
  pending : q.pendingSends = [c]
  ctx : q.ctx c = sentCtx n
  credits : q.remoteRecvCredits = 0
  unarmed : q.timeoutArmed = false
  flying : q.inFlight = Function.update (fun _ => 0) c n
  noRaw : q.rawInFlight = fun _ => 0

open SendQueue (Qp SendCtx newCtx) in
theorem Idle.queues {q : Qp} {threads : List (List Frame)} {rx : Threads.State Rx Input}
    (idle : Idle 0 ⟨⟨q, threads⟩, rx, [], [(0, .rnr)], []⟩)
    (reached : Reached ⟨⟨q, threads⟩, rx, [], [(0, .rnr)], []⟩) :
    ∃ c q', Sent c 0 q' ∧
      Reached ⟨⟨q', threads ++ [[.postFrames c .initial .select (.post true)]]⟩, rx, [],
        [(0, .rnr)], []⟩ := by
  obtain ⟨cfg, ⟨state, closing⟩, credit, slots, pending, next, unarmed, retired, -, -, -, -, -, -⟩
    := idle
  dsimp only at cfg state closing credit slots pending next unarmed retired
  let c := q.nextOp
  let q1 : Qp := { q with
    nextOp := c + 1
    ctx := Function.update q.ctx c (newCtx q.cfg oneByteSend)
    posted := Function.update q.posted c (SendQueue.gather q.memory oneByteSend.segs) }
  have ctx1 : q1.ctx c = newCtx patient oneByteSend := by simp [q1, cfg]
  have called : step ends ⟨⟨q, threads⟩, rx, [], [(0, .rnr)], []⟩
      (.send (.event (.postSend oneByteSend))) =
      some ⟨⟨q1, threads ++ [[.post c .start]]⟩, rx, [], [(0, .rnr)], []⟩ := rfl
  have started : SendQueue.exec q1 (.post c .start) .ok = some (q1, [.post c .takeCredit]) := by
    have allows : q1.allowsPost = true := by
      simp [Qp.allowsPost, Qp.live, q1, state, closing]
    have fits : ¬ maxMsgSize < SendQueue.totalLen oneByteSend.segs := by decide
    simp [SendQueue.exec, SendQueue.execPost, allows, ctx1, newCtx, fits]
  let q2 := q1.spendRecvCredit true
  have ctx2 : q2.ctx c = newCtx patient oneByteSend := ctx1
  have spent : SendQueue.exec q1 (.post c .takeCredit) .ok = some (q2, [.post c (.reserve true)]) := by
    have needs : oneByteSend.opcode.recvCreditRequired = true := rfl
    have live : q1.live = true := by simp [Qp.live, q1, state, closing]
    have one : q1.remoteRecvCredits = 1 := credit
    simp [SendQueue.exec, SendQueue.execPost, ctx1, newCtx, needs, live, one, q2]
  let q3 := q2.takeSlot c
  have reserved : SendQueue.exec q2 (.post c (.reserve true)) .ok =
      some (q3, [.post c (.takePsn true)]) := by
    have allows : q2.allowsPost = true := by
      simp [Qp.allowsPost, Qp.live, q2, q1, Qp.spendRecvCredit, state, closing]
    have room : ¬ q2.cfg.maxSendWr ≤ q2.sendqCount := by
      simp [q2, q1, Qp.spendRecvCredit, cfg, slots, patient]
    simp [SendQueue.exec, SendQueue.execPost, allows, room, q3]
  let q4 := q3.takePsn c
  have tookPsn : SendQueue.exec q3 (.post c (.takePsn true)) .ok =
      some (q4, [.post c (.queue true)]) := rfl
  let q5 := q4.queueSend c
  have queued : SendQueue.exec q4 (.post c (.queue true)) .ok =
      some (q5, [.postFrames c .initial .select (.post true)]) := by
    have retryable : (q4.ctx c).retryable = true := by
      simp [q4, q3, Qp.takePsn, Qp.advancePsn, Qp.takeSlot, Qp.modCtx, ctx2, newCtx, patient]
    simp [SendQueue.exec, SendQueue.execPost, retryable, q5]
  have sent : Sent c 0 q5 :=
    { live := by
        simp [q5, q4, q3, q2, q1, Qp.queueSend, Qp.takePsn, Qp.advancePsn, Qp.takeSlot, Qp.modCtx,
          Qp.spendRecvCredit, Qp.live, state, closing]
      pending := by
        simp [q5, q4, q3, q2, q1, Qp.queueSend, Qp.takePsn, Qp.advancePsn, Qp.takeSlot, Qp.modCtx,
          Qp.spendRecvCredit, pending]
      ctx := by
        simp [q5, q4, q3, Qp.queueSend, Qp.takePsn, Qp.advancePsn, Qp.takeSlot, Qp.modCtx,
          sentCtx, newCtx, q2, q1, Qp.spendRecvCredit, next, cfg]
      credits := by
        simp [q5, q4, q3, q2, q1, Qp.queueSend, Qp.takePsn, Qp.advancePsn, Qp.takeSlot, Qp.modCtx,
          Qp.spendRecvCredit, credit]
      unarmed := unarmed
      flying := by
        have before : q.inFlight = fun _ => 0 := funext fun c => (retired c).1
        rw [Function.update_eq_self_iff.mpr rfl]
        exact before
      noRaw := funext fun c => (retired c).2 }
  clear_value q5 q4 q3 q2 q1
  have reached := reached.send called
  have reached := reached.quiet started
  have reached := reached.quiet spent
  have reached := reached.quiet reserved
  have reached := reached.quiet tookPsn
  have reached := reached.quiet queued
  exact ⟨c, q5, sent, reached⟩

open SendQueue (Qp SendCtx newCtx) in
theorem Sent.transmits {c : Nat} {q : Qp} {threads : List (List Frame)}
    {rx : Threads.State Rx Input} {acks : List (Nat × SendAckStatus)} (sent : Sent c 0 q)
    (reached : Reached ⟨⟨q, threads ++ [[.postFrames c .initial .select (.post true)]]⟩, rx, [],
      acks, []⟩) :
    ∃ q' hdr, Sent c 1 q' ∧ Reached ⟨⟨q', threads ++ [[]]⟩, rx, [hdr], acks, []⟩ := by
  obtain ⟨live, pending, ctx, credits, unarmed, flying, noRaw⟩ := sent
  let q6 := q.note (.transmit c .initial false)
  have selected : SendQueue.exec q (.postFrames c .initial .select (.post true)) .ok =
      some (q6, [.postFrames c .initial (.copy 0 0) (.post true)]) := by
    have framed : (q.ctx c).usesRawStream q.cfg = false := by
      rw [ctx]
      simp [SendCtx.usesRawStream, sentCtx, newCtx, oneByteSend, SendQueue.SendOp.isWrite]
    simp [SendQueue.exec, SendQueue.execPostFrames, framed, SendQueue.Caller.isWorker, q6]
  let q7 := q6.note (.fragment c 0
    (((SendQueue.gather q6.memory oneByteSend.segs).drop 0).take 1))
  have copied : SendQueue.exec q6 (.postFrames c .initial (.copy 0 0) (.post true)) .ok =
      some (q7, [.postFrames c .initial (.charge 1) (.post true)]) := by
    have segs : (q6.ctx c).wr.segs = oneByteSend.segs := congrArg (fun x => x.wr.segs) ctx
    have total : SendQueue.totalLen oneByteSend.segs = 1 := rfl
    have range := SendQueue.copySendRange_eq q6.memory oneByteSend.segs 0 1 (by decide)
    have len : SendQueue.fragLen 1 0 = 1 := by decide
    simp [SendQueue.exec, SendQueue.execPostFrames, segs, total, len, range, q7]
  let q8 := q7.chargeTx c 1
  have charged : SendQueue.exec q7 (.postFrames c .initial (.charge 1) (.post true)) .ok =
      some (q8, [.postFrames c .initial (.enqueue 1) (.post true)]) := rfl
  let q9 := q8.addInFlight c 1
  have enqueued : SendQueue.exec q8 (.postFrames c .initial (.enqueue 1) (.post true))
      (.queued 1 0) = some (q9, [.post c (.framesPosted true 0)]) := rfl
  let q10 := q9.note (.returned c (q9.ctx c).psn 0)
  have returned : SendQueue.exec q9 (.post c (.framesPosted true 0)) .ok = some (q10, []) := rfl
  have after : Sent c 1 q10 := by
    constructor
    · simpa [q10, q9, q8, q7, q6, Qp.note, Qp.addInFlight, Qp.chargeTx, Qp.modCtx, Qp.live] using live
    · simpa [q10, q9, q8, q7, q6, Qp.note, Qp.addInFlight, Qp.chargeTx, Qp.modCtx] using pending
    · simp [q10, q9, q8, q7, q6, Qp.note, Qp.addInFlight, Qp.chargeTx, Qp.modCtx, ctx, sentCtx]
    · simpa [q10, q9, q8, q7, q6, Qp.note, Qp.addInFlight, Qp.chargeTx, Qp.modCtx] using credits
    · simpa [q10, q9, q8, q7, q6, Qp.note, Qp.addInFlight, Qp.chargeTx, Qp.modCtx] using unarmed
    · simp [q10, q9, q8, q7, q6, Qp.note, Qp.addInFlight, Qp.chargeTx, Qp.modCtx, flying]
    · simpa [q10, q9, q8, q7, q6, Qp.note, Qp.addInFlight, Qp.chargeTx, Qp.modCtx] using noRaw
  clear_value q10 q9 q8 q7 q6
  have reached := reached.quiet selected
  have reached := reached.quiet copied
  have reached := reached.quiet charged
  have reached := reached.send (step_own ends _ threads rfl enqueued)
  have reached := reached.quiet returned
  refine ⟨q10, fragmentHeader ends q8 c 0, after, ?_⟩
  simpa [sentFrames, Threads.State.top] using reached

/-- The send has stopped: it waits for a credit and nothing will call it. -/
structure Stopped (c : Nat) (q : SendQueue.Qp) : Prop where
  pending : q.pendingSends = [c]
  waiting : (q.ctx c).rnrWaiting = true
  credits : q.remoteRecvCredits = 0
  unarmed : q.timeoutArmed = false
  retired : ∀ c, q.inFlight c = 0 ∧ q.rawInFlight c = 0

open SendQueue (Qp SendCtx newCtx) in
/-- The frame is lost, and the RNR acknowledgement that was left makes the send wait before
the frame is retired. -/
theorem Sent.stops {c : Nat} {q : Qp} {threads : List (List Frame)} {hdr : Header}
    {rx : Threads.State Rx Input} (sent : Sent c 1 q)
    (reached : Reached ⟨⟨q, threads⟩, rx, [hdr], [(0, .rnr)], []⟩) :
    ∃ q', Stopped c q' ∧ Reached ⟨⟨q', threads ++ [[]] ++ [[]]⟩, rx, [], [], []⟩ := by
  obtain ⟨live, pending, ctx, credits, unarmed, flying, noRaw⟩ := sent
  have acked : SendQueue.exec q (.ack 0 .rnr) .ok = some (q, [.ackHandle 0 .rnr]) := by
    simp [SendQueue.exec, live]
  let q11 := q.startRnrWait c
  have waits : SendQueue.exec q (.ackHandle 0 .rnr) .ok = some (q11, [.finish .ack [] false]) := by
    have found : q.matchPsn 0 = some c := by
      have psn : (q.ctx c).psn = 0 := by rw [ctx]; rfl
      simp [Qp.matchPsn, pending, psn]
    have goesOn : (q.ctx c).rnrRetryExhausted = false := by rw [ctx]; rfl
    have needs : (q.ctx c).rnrWaitsForRecvCredit = true := by rw [ctx]; rfl
    simp [SendQueue.exec, Qp.handleAck, Qp.noteRnrAck, found, goesOn, live, needs, credits, q11]
  have ctx11 : q11.ctx c = { sentCtx 1 with
      rnrWaiting := true, retrying := false, queuedJiffies := q.jiffies } := by
    simp [q11, Qp.startRnrWait, Qp.markQueued, Qp.modCtx, ctx]
  have finished : SendQueue.exec q11 (.finish .ack [] false) .ok = some (q11, []) := rfl
  let q12 := q11.dropInFlight c 1 0
  let q13 := ((q12.note (.txDone c 0)).chargeTx c (-1)).clearRetrying c
  have ctx12 : q12.ctx c = q11.ctx c := rfl
  have done : SendQueue.exec q12 (.txDone c 0) .ok = some (q13, []) := by
    have retryable : (q12.ctx c).retryable = true := by rw [ctx12, ctx11]; rfl
    have waiting : (q12.ctx c).rnrWaiting = true := by rw [ctx12, ctx11]
    have last : (q12.ctx c).txPending = 1 := by rw [ctx12, ctx11]; rfl
    simp [SendQueue.exec, SendQueue.execTxDone, retryable, q13, Qp.noteTxDone, Qp.note,
      Qp.chargeTx, SendQueue.modCtx_ctx, waiting, last]
  have stopped : Stopped c q13 := by
    have last : q13.inFlight = Function.update q.inFlight c (q.inFlight c - 1) := by
      simp [q13, q12, q11, Qp.note, Qp.chargeTx, Qp.clearRetrying, Qp.modCtx, Qp.dropInFlight,
        Qp.startRnrWait, Qp.markQueued]
    have same : q13.rawInFlight = q.rawInFlight := by
      simp [q13, q12, q11, Qp.note, Qp.chargeTx, Qp.clearRetrying, Qp.modCtx, Qp.dropInFlight,
        Qp.startRnrWait, Qp.markQueued]
    constructor
    · simpa [q13, q12, q11, Qp.note, Qp.chargeTx, Qp.clearRetrying, Qp.modCtx, Qp.dropInFlight,
        Qp.startRnrWait, Qp.markQueued] using pending
    · simp [q13, Qp.note, Qp.chargeTx, Qp.clearRetrying, SendQueue.modCtx_ctx, ctx12, ctx11]
    · simpa [q13, q12, q11, Qp.note, Qp.chargeTx, Qp.clearRetrying, Qp.modCtx, Qp.dropInFlight,
        Qp.startRnrWait, Qp.markQueued] using credits
    · simpa [q13, q12, q11, Qp.note, Qp.chargeTx, Qp.clearRetrying, Qp.modCtx, Qp.dropInFlight,
        Qp.startRnrWait, Qp.markQueued] using unarmed
    · intro d
      rw [last, same, flying, noRaw]
      by_cases is : d = c
      · subst is
        simp
      · simp [Function.update_of_ne is]
  have lost : Reached ⟨⟨q, threads⟩, rx, [], [(0, .rnr)], []⟩ :=
    Trans.Reaches.step reached (show Lossless (.lose 0) from trivial) rfl
  have called : Reached ⟨⟨q, threads ++ [[.ack 0 .rnr]]⟩, rx, [], [], []⟩ :=
    Trans.Reaches.step lost (show Lossless (.ack 0) from trivial) rfl
  have flew : step ends ⟨⟨q11, threads ++ [[]]⟩, rx, [], [], []⟩
      (.send (.event (.txRetired c false 0))) =
      some ⟨⟨q12, threads ++ [[]] ++ [[.txDone c 0]]⟩, rx, [], [], []⟩ := by
    have one : q11.inFlight c = 1 := by
      have same : q11.inFlight = q.inFlight := rfl
      rw [same, flying, Function.update_self]
    have reacts : SendQueue.react q11 (.txRetired c false 0) = some (q12, [.txDone c 0]) := by
      simp [SendQueue.react, one, q12]
    simp [step, ownStep, SendQueue.step, Threads.step, reacts, sentFrames]
  clear_value q13 q12 q11
  have reached := called.quiet acked
  have reached := reached.quiet waits
  have reached := reached.quiet finished
  have reached := reached.send flew
  have reached := reached.quiet done
  exact ⟨q13, stopped, reached⟩

theorem Stopped.wedged {c : Nat} {q : SendQueue.Qp} {threads : List (List Frame)}
    {rx : Threads.State Rx Input} (stopped : Stopped c q)
    (idle : ∀ f, ¬ Threads.State.Has (⟨q, threads⟩ : SendQueue.St) f)
    (rxIdle : ∀ input, ¬ rx.Has input) (posted : rx.shared.recvq ≠ []) :
    Wedged ⟨⟨q, threads⟩, rx, [], [], []⟩ where
  data := rfl
  acks := rfl
  credits := rfl
  retired := stopped.retired
  senderIdle := idle
  receiverIdle := rxIdle
  unarmed := stopped.unarmed
  posted := posted
  waiting := ⟨c, by simp [stopped.pending], stopped.waiting⟩
  spent := stopped.credits

theorem Idle.wedges {net : Net} (idle : Idle 0 net) (reached : Reached net) :
    ∃ net', Reached net' ∧ Wedged net' := by
  obtain ⟨⟨q, threads⟩, rx, data, acks, credits⟩ := net
  obtain rfl := idle.data
  obtain rfl := idle.acks
  obtain rfl := idle.wire
  obtain ⟨c, q5, queued, reached⟩ := idle.queues reached
  obtain ⟨q10, hdr, sent, reached⟩ := queued.transmits reached
  obtain ⟨q13, stopped, reached⟩ := sent.stops reached
  refine ⟨_, reached, stopped.wedged ?_ idle.receiverIdle idle.posted⟩
  have posted := @idle_append _ q q13 idle.idle
  have acked := @idle_append _ q13 q13 posted
  exact @idle_append _ q13 q13 acked

/-- What `idleNow` finds is all that `Idle` says: no other request has been posted. -/
theorem idle_of_idleNow {net : Net} (found : idleNow net = true)
    (posted : Posted net.sender) : Idle 1 net := by
  simp only [idleNow, Bool.and_eq_true, decide_eq_true_eq, Bool.not_eq_true', List.isEmpty_iff,
    List.all_eq_true] at found
  obtain ⟨⟨⟨⟨⟨⟨⟨⟨⟨⟨⟨⟨⟨⟨⟨⟨cfg, state⟩, closing⟩, credits⟩, slots⟩, pending⟩, next⟩, unarmed⟩, one⟩,
    framed⟩, raw⟩, idle⟩, rxIdle⟩, recvq⟩, data⟩, acks⟩, wire⟩ := found
  refine ⟨cfg, ⟨state, closing⟩, credits, slots, pending, next, unarmed, fun c => ?_, ?_, ?_, ?_,
    data, acks, wire⟩
  · rcases Nat.eq_zero_or_pos c with rfl | later
    · exact ⟨framed, raw⟩
    · have unposted : ¬ 0 < net.sender.shared.inFlight c + net.sender.shared.rawInFlight c := by
        intro flying
        have below := posted.flight c flying
        omega
      omega
  · rintro f ⟨stack, among, inside⟩
    rw [idle stack among] at inside
    cases inside
  · rintro input ⟨stack, among, inside⟩
    rw [rxIdle stack among] at inside
    cases inside
  · rintro empty
    rw [empty] at recvq
    cases recvq

/-- With `rnr_retry` 7 and every control frame delivered, a pair can still come to a stop. -/
theorem stale_rnr_wedges :
    ¬ ∀ (ends : Ends) (cfg : QpConfig) (memory : Nat → UInt8) (recvqSize : Nat)
      (striping remoteWrite : Bool) (net : Net),
      cfg.type = .rc → cfg.rnrRetry % 8 = 7 → cfg.timeout ≠ 0 →
      Trans.Reaches (step ends) (fun _ label => Lossless label)
        (start cfg memory (connectedRx ends cfg recvqSize striping remoteWrite)) net →
      ¬ Wedged net := by
  intro claim
  obtain ⟨net, reached, found⟩ := Trans.exists_reaches_of_guarded oneLeft_idle
  have idle := idle_of_idleNow found (posted_of_reaches (sender_reaches reached))
  have lossless : Reached net := reached.mono fun _ _ meets => meets.1
  obtain ⟨net', reached', idle'⟩ := idle.later lossless (SendQueue.psnMod - 1)
  have wrapped : (1 + (SendQueue.psnMod - 1)) % SendQueue.psnMod = 0 := by decide
  rw [wrapped] at idle'
  obtain ⟨last, there, wedged⟩ := idle'.wedges reached'
  exact claim ends patient (fun _ => 7) 16 false false last rfl rfl (by decide) there wedged

/-- The run that leaves one acknowledgement on the wire meets the condition. -/
theorem not_wedged_oneLeft : ∃ net, Trans.Reaches (step ends)
    (fun net label => Lossless label ∧ PsnsApart net label) fresh net ∧ idleNow net = true ∧
    ¬ Wedged net := by
  obtain ⟨net, reached, found⟩ := Trans.exists_reaches_of_guarded oneLeft_idle
  exact ⟨net, reached, found,
    not_wedged ends patient (fun _ => 7) 16 false false (by decide) net reached⟩

end Tbv.Pair
