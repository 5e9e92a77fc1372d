import ThunderboltIbverbs.Pair.Sent
import ThunderboltIbverbs.Recv.ExactlyOnce
import ThunderboltIbverbs.Send.Outcome
import ThunderboltIbverbs.Send.CompletionOrder

/-! # What a completed send says of the other end

An RC requester, a responder and a network that loses, duplicates and reorders what they send.
The responder is given nothing but the fragments that the requester has built. -/
set_option autoImplicit false
namespace Tbv.Connection

open Trans
open Tbv.NativeData (Header)
open Tbv.SendQueue (PostQp QpConfig Frame Lbl Succeeding start buildNativeHeader totalLen
  WritesReleased)
open Tbv.RecvQueue (Peer Rx RecvWqe Arrival Env Steady Move Moves completions reorderMaxMessages)

/-- An RC QP without READs, with the receive side of the QP it is connected to, which waits for the
first PSN. -/
structure Link where
  cfg : QpConfig
  memory : Nat → UInt8
  qp : PostQp
  rx : Rx
  rc : cfg.type = .rc
  fresh : rx.Fresh
  expected : rx.expectedPsn = cfg.psn 0
  openQp : rx.closing = false
  unused : rx.consumed = 0 ∧ rx.log = [] ∧ rx.posted = rx.recvq

/-- Both ends, and the operation that each acknowledging thread of the requester is about.  The
operation `k` is the request with the ticket `k`. -/
structure State where
  tx : SendQueue.St
  rx : Rx
  acks : Nat → Option Nat

/-- The sections of `tbv_post_recv` at the responder. -/
inductive Receive where
  | post (wqe : RecvWqe)
  | advertise
  | drain

inductive Action where
  | requester (label : Lbl)
  /-- The frame of an entry of the requester's log arrives, for the first time or again. -/
  | fragment (env : Env) (place : Nat)
  | responder (env : Env) (receive : Receive)
  /-- An OK of the responder for the operation arrives. -/
  | acknowledge (k consumed : Nat)

/-- What is not the business of the requester alone: the OKs of the responder, and READs. -/
def foreign : Lbl → Bool
  | .event (.ack _ .ok) | .event (.postRead _) => true
  | _ => false

def okPsn : Frame → Option Nat
  | .ackHandle psn .ok => some psn
  | _ => none

def fragmentOf : SendQueue.Entry → Option Nat
  | .fragment c _ _ => some c
  | _ => none

def Receive.arrival : Receive → Arrival
  | .post wqe => .post wqe
  | .advertise => .advertise
  | .drain => .drain

def receive (rx : Rx) (env : Env) : Receive → Option Rx
  | .post wqe => if (rx.postOne wqe).2 then some (rx.postOne wqe).1 else none
  | .advertise => some (rx.advertiseRecvCredits env)
  | .drain => some (rx.drainReorder env)

def Unhindered (env : Env) : Prop :=
  env.allocMsg = true ∧ env.allocFrag = true ∧ env.cqFull = false

/-- No write reaches the memory of a request the driver still holds, a fragment arrives inside the
window, and an OK is not handled when a request 2^24 operations away waits under its PSN. -/
def Timely (st : State) : Action → Prop
  | .requester (.run thread _) =>
      ∀ psn ∈ (st.tx.top thread).bind okPsn, ∀ k ∈ st.acks thread,
        ∀ c ∈ st.tx.shared.matchPsn psn, ∀ n ∈ st.tx.shared.ticket c,
          n < k + SendQueue.psnMod ∧ k < n + SendQueue.psnMod
  | .requester (.event event) => WritesReleased st.tx (.event event)
  | .fragment env place =>
      Unhindered env ∧ ∀ c ∈ (st.tx.shared.log[place]?).bind fragmentOf,
        ∀ k ∈ st.tx.shared.ticket c, k < st.rx.consumed + reorderMaxMessages ∧
          st.rx.consumed + reorderMaxMessages ≤ k + RecvQueue.psnMod
  | .responder env _ => Unhindered env
  | .acknowledge _ _ => True

namespace Link
variable (link : Link)

def start : State := ⟨SendQueue.start link.cfg link.memory, link.rx, fun _ => none⟩

/-- The responder has sent an OK for the operation. -/
def Acknowledged (rx : Rx) (k : Nat) : Prop :=
  ∃ consumed, .ack (link.cfg.psn k) .ok consumed ∈ rx.log ∧ k < consumed

/-- The frame of a fragment: the header of `tbv_send_ctx_build_native_header`, and the bytes that
have been copied. -/
def frame (tx : SendQueue.St) : SendQueue.Entry → Option (Header × List UInt8)
  | .fragment c offset payload =>
      some (buildNativeHeader (tx.shared.ctx c).wr link.qp.destQpNum.toNat link.qp.qpNum.toNat
        (tx.shared.ctx c).psn offset payload.length
        (offset + payload.length = totalLen (tx.shared.ctx c).wr.segs), payload)
  | _ => none

def step (st : State) : Action → Option State
  | .requester label =>
      if foreign label then none
      else (SendQueue.step st.tx label).map fun tx => { st with tx }
  | .fragment env place =>
      ((st.tx.shared.log[place]?).bind (link.frame st.tx)).map fun frame =>
        { st with rx := st.rx.rxFrame env frame.1 frame.2 }
  | .responder env call => (receive st.rx env call).map fun rx => { st with rx }
  | .acknowledge k consumed =>
      if .ack (link.cfg.psn k) .ok consumed ∈ st.rx.log ∧ k < consumed then
        (SendQueue.step st.tx (.event (.ack (link.cfg.psn k) .ok))).map fun tx =>
          { st with tx, acks := Function.update st.acks st.tx.threads.length (some k) }
      else none

/-- The operations of the peer are the requests of the requester: what they ask for, and the bytes
they held when they were posted. -/
structure Posted (peer : Peer) (tx : SendQueue.St) : Prop where
  qp : peer.qp = link.qp
  starts : peer.start = link.cfg.initialPsn
  requests : ∀ {c k}, tx.shared.ticket c = some k →
    (tx.shared.ctx c).wr.opcode = peer.op k ∧
      (tx.shared.ctx c).wr.immData = (peer.ctx k).immData ∧
      (tx.shared.ctx c).wr.remoteAddr = (peer.ctx k).remoteAddr ∧
      (tx.shared.ctx c).wr.rkey = (peer.ctx k).rkey
  bytes : ∀ {c k}, tx.shared.ticket c = some k → tx.shared.posted c = peer.data k

end Link

/-! ## The responder's log only grows -/

section Log
variable {q next : Rx}

theorem note_grows (entry : RecvQueue.Entry) : q.log <+: (q.note entry).log :=
  List.prefix_append ..

theorem Move.grows (move : Move q next) : q.log <+: next.log := by
  cases move with
  | note | rnr | reack => exact note_grows _
  | consume => exact List.prefix_rfl
  | pop popped =>
      rw [RecvQueue.popRecv_same popped]
  | book => exact List.prefix_rfl

theorem Moves.grows (moves : Moves q next) : q.log <+: next.log := by
  induction moves with
  | refl => exact List.prefix_rfl
  | tail _ move ih => exact ih.trans (Move.grows move)

theorem receive_grows {env : Env} {call : Receive} (received : receive q env call = some next) :
    q.log <+: next.log := by
  cases call with
  | post wqe =>
      simp only [receive] at received
      split at received
      · cases received
        unfold RecvQueue.Rx.postOne
        split <;> exact List.prefix_rfl
      · cases received
  | advertise =>
      cases received
      unfold RecvQueue.Rx.advertiseRecvCredits
      split
      · exact List.prefix_rfl
      split
      · exact List.prefix_rfl
      split
      · exact note_grows _
      · exact List.prefix_rfl
  | drain =>
      cases received
      exact Moves.grows RecvQueue.moves_drainReorder

/-- A frame of a request is handled, or its endpoint is not valid. -/
theorem rxFrame_cases {env : Env} {hdr : Header} {payload : List UInt8} {op : SendQueue.SendOp}
    (isOp : hdr.opcode = op.opcode) :
    q.rxFrame env hdr payload = q ∨ q.rxFrame env hdr payload =
      if op.isSend then q.handleSendFragment env hdr payload
      else q.handleRdmaWriteFragment env hdr payload := by
  unfold RecvQueue.Rx.rxFrame
  rw [isOp]
  cases op <;>
    simp only [SendQueue.SendOp.opcode, SendQueue.SendOp.isSend, Bool.false_eq_true, if_true,
      if_false] <;>
    split
  all_goals first | exact .inl rfl | exact .inr rfl

theorem rxFrame_grows {env : Env} {hdr : Header} {payload : List UInt8} {op : SendQueue.SendOp}
    (isOp : hdr.opcode = op.opcode) : q.log <+: (q.rxFrame env hdr payload).log := by
  rcases rxFrame_cases isOp with same | handled
  · rw [same]
  · rw [handled]
    split
    · exact Moves.grows (RecvQueue.moves_handleSendFragment ..)
    · exact Moves.grows (RecvQueue.moves_handleRdmaWriteFragment ..)

theorem Link.Acknowledged.later {link : Link} {k : Nat} (acknowledged : link.Acknowledged q k)
    (grows : q.log <+: next.log) : link.Acknowledged next k := by
  obtain ⟨consumed, among, passed⟩ := acknowledged
  exact ⟨consumed, grows.subset among, passed⟩

end Log

/-! ## The requester -/

def Handles (psn : Nat) (f : Frame) : Prop := f = .ack psn .ok ∨ f = .ackHandle psn .ok

def Succeeds (tx : SendQueue.St) (c : Nat) : Prop :=
  Succeeding tx c ∨ .completion c .success ∈ tx.shared.log

/-- What holds of the requester whatever its acknowledgements are. -/
structure Posts (cfg : QpConfig) (tx : SendQueue.St) : Prop where
  posting : SendQueue.Posting tx
  cfg : tx.shared.cfg = cfg
  retryable : ∀ c, (tx.shared.ctx c).retryable = true
  fresh : ∀ {c}, tx.shared.nextOp ≤ c → SendQueue.Untouched tx c
  ripe : ∀ {g c}, tx.Has g → c ∈ g.drained → (tx.shared.ctx c).ready = true

section Requester
variable {cfg : QpConfig} {tx : SendQueue.St} {q' : SendQueue.Qp} {f : Frame}
  {choice : SendQueue.Choice} {pushed rest code : List Frame} {thread c : Nat}

def ofAck : Frame → Bool
  | .ack .. | .ackHandle .. => true
  | _ => false

theorem Handles.ofAck {psn : Nat} (handles : Handles psn f) : ofAck f = true := by
  rcases handles with rfl | rfl <;> rfl

theorem ofAck_resume (caller : SendQueue.Caller) (reason : SendQueue.PostReason) (ret : Int) :
    ofAck (caller.resume c reason ret) = false := by
  cases caller <;> rfl

theorem ofAck_finishOne {q : SendQueue.Qp} {who : SendQueue.Finisher} {g : Frame}
    (among : g ∈ SendQueue.finishOne q c who) : ofAck g = false := by
  cases who <;> simp only [SendQueue.finishOne, List.mem_cons, List.not_mem_nil, or_false] at among
  all_goals rcases among with rfl | rfl | rfl <;> rfl

/-- Only the arrival of an acknowledgement has it handled. -/
theorem ofAck_follows {q : SendQueue.Qp} {g : Frame} (follows : SendQueue.Follows q f pushed)
    (among : g ∈ pushed) (acks : ofAck g = true) :
    ∃ psn status, f = .ack psn status ∧ g = .ackHandle psn status := by
  cases follows with
  | nothing => cases among
  | ack psn status => exact ⟨psn, status, rfl, List.mem_singleton.mp among⟩
  | finish =>
      rcases List.mem_append.mp among with started | more
      · rw [ofAck_finishOne started] at acks
        cases acks
      · cases List.mem_singleton.mp more
        cases acks
  | resume ret =>
      rw [List.mem_singleton.mp among, ofAck_resume] at acks
      cases acks
  | streamRefused pages ret =>
      rcases List.mem_append.mp among with page | last
      · cases List.eq_of_mem_replicate page
        cases acks
      · rw [List.mem_singleton.mp last, ofAck_resume] at acks
        cases acks
  | cancelled =>
      cases List.eq_of_mem_replicate among
      cases acks
  | claim fresh one =>
      rcases one with rfl | rfl <;> simp only [List.mem_cons, List.not_mem_nil, or_false] at among
      · cases among
        cases acks
      · rcases among with rfl | rfl <;> cases acks
  | _ =>
      simp only [List.mem_cons, List.not_mem_nil, or_false] at among
      rcases among with rfl | rfl | rfl <;> cases acks

theorem Handles.source {q : SendQueue.Qp} {g : Frame} {psn : Nat} (handles : Handles psn g)
    (follows : SendQueue.Follows q f pushed) (among : g ∈ pushed) : Handles psn f := by
  obtain ⟨number, status, rfl, rfl⟩ := ofAck_follows follows among handles.ofAck
  rcases handles with other | same
  · cases other
  · cases same
    exact .inl rfl

theorem posts_start (cfg : QpConfig) (rc : cfg.type = .rc) (memory : Nat → UInt8) :
    Posts cfg (SendQueue.start cfg memory) := by
  have outcomes := SendQueue.outcomes_start cfg memory
  refine ⟨SendQueue.posting_start cfg memory, rfl, ?_, outcomes.fresh, outcomes.ripe⟩
  intro c
  exact decide_eq_true rc

theorem Posts.run (posts : Posts cfg tx) (wf : f.WellFormed)
    (found : tx.threads[thread]? = some (f :: rest))
    (executed : SendQueue.exec tx.shared f choice = some (q', pushed)) :
    Posts cfg ⟨q', tx.threads.set thread (pushed ++ rest)⟩ := by
  have top := Threads.State.has_of_top found
  have effect := SendQueue.exec_effect wf executed
  refine ⟨posts.posting.run wf found executed, effect.static.cfg.trans posts.cfg, ?_, ?_, ?_⟩
  · intro c
    exact (effect.static.retryable c).trans (posts.retryable c)
  · intro c new
    have beyond : tx.shared.nextOp ≤ c := effect.static.nextOp ▸ new
    refine (posts.fresh beyond).run wf found executed fun queues => ?_
    have old := posts.posting.carried.old top (SendQueue.Frame.posts_of_queues queues)
    omega
  · intro g c has listed
    rcases Threads.State.has_of_run found has with new | old
    · rcases SendQueue.exec_drained executed new listed with before | ready
      · exact (effect.ready c (posts.ripe top before)).1
      · exact ready
    · exact (effect.ready c (posts.ripe old listed)).1

theorem Posts.event (posts : Posts cfg tx) (rc : cfg.type = .rc) {event : SendQueue.Event}
    (reacts : SendQueue.Reacts tx.shared event q' code) :
    Posts cfg ⟨q', tx.threads ++ [code]⟩ := by
  have same := reacts.samePsns
  refine ⟨posts.posting.event reacts, same.cfg.trans posts.cfg,
    reacts.retryable (posts.cfg ▸ rc) posts.retryable, ?_, ?_⟩
  · intro c beyond
    exact (posts.fresh (Nat.le_trans same.nextOp beyond)).event reacts
  · intro g c has listed
    rcases Threads.State.has_of_event has with new | old
    · rw [(reacts.code new).1] at listed
      cases listed
    · rcases reacts.ctx c with same | ⟨rfl, _, _⟩
      · exact (congrArg SendQueue.Core.ready same).trans (posts.ripe old listed)
      · have unqueued :=
          (posts.fresh (Nat.le_refl _)).refs old (SendQueue.Frame.drained_subset listed)
        rw [SendQueue.Frame.drained_of_unqueued unqueued] at listed
        cases listed

/-- An event of the environment makes nothing succeed. -/
theorem Posts.event_succeeds (posts : Posts cfg tx) {event : SendQueue.Event}
    (reacts : SendQueue.Reacts tx.shared event q' code)
    (succeeds : Succeeds ⟨q', tx.threads ++ [code]⟩ c) : Succeeds tx c := by
  rcases succeeds with (sure | ⟨g, has, succeeds⟩) | logged
  · rcases reacts.ctx c with same | ⟨_, _, unready⟩
    · exact .inl (.inl (SendQueue.SendCtx.sure_of_core same sure))
    · have ready := sure.1
      rw [unready] at ready
      cases ready
  · rcases Threads.State.has_of_event has with new | stood
    · rw [(reacts.code new).2.1 c] at succeeds
      cases succeeds
    · refine .inl (.inr ⟨g, stood, SendQueue.Frame.succeeds_mono (fun fresh => ?_) succeeds⟩)
      rcases reacts.ctx c with same | ⟨rfl, _, _⟩
      · exact (congrArg SendQueue.Core.completed same).symm.trans fresh
      · exact (posts.fresh (Nat.le_refl _)).open_
  · right
    rcases reacts.log with same | ⟨_, _, _, grown⟩
    · exact same ▸ logged
    · simp only [grown, List.mem_append, List.mem_singleton, reduceCtorEq, or_false] at logged
      exact logged

/-- A frame makes only the request succeed that it matches with an OK. -/
theorem Posts.run_succeeds (posts : Posts cfg tx) (wf : f.WellFormed)
    (found : tx.threads[thread]? = some (f :: rest))
    (executed : SendQueue.exec tx.shared f choice = some (q', pushed))
    (succeeds : Succeeds ⟨q', tx.threads.set thread (pushed ++ rest)⟩ c) :
    Succeeds tx c ∨ ∃ psn, f = .ackHandle psn .ok ∧ tx.shared.matchPsn psn = some c := by
  have top := Threads.State.has_of_top found
  rcases succeeds with succeeding | logged
  · rcases succeeding.of_run wf (fun c listed => posts.ripe top listed) found executed with
      before | grants
    · exact .inl (.inl before)
    right
    cases f with
    | ackHandle psn status =>
        cases status with
        | ok => exact ⟨psn, rfl, (Option.filter_eq_some_iff.mp grants).1⟩
        | rnr => cases grants
        | error => cases grants
    | txDone d status =>
        simp only [SendQueue.Frame.grants, posts.retryable d, Bool.true_eq_false, false_and,
          and_false, if_false] at grants
        cases grants
    | _ => cases grants
  · left
    rcases (SendQueue.exec_effect wf executed).log with same | ⟨entry, grown, emits⟩
    · exact .inr (same ▸ logged)
    · dsimp only at logged
      rw [grown] at logged
      rcases List.mem_append.mp logged with old | new
      · exact .inr old
      · generalize eq : SendQueue.Entry.completion c .success = pushed at emits new
        cases List.mem_singleton.mp new
        cases emits with
        | completion d status =>
            injection eq with mine success
            have zero := SendQueue.wcStatus_success success.symm
            refine .inl (.inr ⟨_, top, ?_⟩)
            simp [SendQueue.Frame.succeeds, mine, zero]
        | _ => cases eq

/-- A ticket is never taken back. -/
theorem Posts.run_ticket (posts : Posts cfg tx) (wf : f.WellFormed)
    (found : tx.threads[thread]? = some (f :: rest))
    (executed : SendQueue.exec tx.shared f choice = some (q', pushed)) {n : Nat}
    (has : tx.shared.ticket c = some n) : q'.ticket c = some n := by
  have top := Threads.State.has_of_top found
  have kept : ∀ {d}, tx.shared.ticket d = none →
      Function.update tx.shared.ticket d (some tx.shared.taken) c = some n := by
    intro d none
    rw [Function.update_of_ne, has]
    rintro rfl
    rw [none] at has
    cases has
  rcases (SendQueue.exec_effect wf executed).samePsns with same | ⟨d, credit, rfl, rfl⟩ |
    ⟨r, rfl, rfl⟩
  · rw [same.ticket, has]
  · exact kept (posts.posting.early top rfl rfl)
  · exact kept (posts.posting.early top rfl rfl)

end Requester

/-! ## What arrives -/

section Arrives
variable {link : Link} {peer : Peer} {tx tx' : SendQueue.St}

/-- The requests with a ticket are the same before a step. -/
theorem Link.Posted.before (posted : link.Posted peer tx')
    (keeps : ∀ {c k}, tx.shared.ticket c = some k → tx'.shared.ticket c = some k ∧
      (tx'.shared.ctx c).wr = (tx.shared.ctx c).wr ∧
      tx'.shared.posted c = tx.shared.posted c) : link.Posted peer tx where
  qp := posted.qp
  starts := posted.starts
  requests has := by
    obtain ⟨ticket, wr, -⟩ := keeps has
    exact wr ▸ posted.requests ticket
  bytes has := by
    obtain ⟨ticket, -, bytes⟩ := keeps has
    exact bytes ▸ posted.bytes ticket

theorem Link.Posted.psn (posted : link.Posted peer tx) (k : Nat) :
    peer.psn k = link.cfg.psn k := by
  rw [Peer.psn, posted.starts]
  rfl

theorem Link.Posted.begins (posted : link.Posted peer tx) : peer.Begins link.rx where
  fresh := link.fresh
  expected := link.expected.trans (posted.psn 0).symm
  openQp := link.openQp
  consumed := link.unused.1
  log := link.unused.2.1
  posted := link.unused.2.2

/-- What arrives is the fragment of the operation that the peer sends. -/
theorem Link.Posted.frame (posted : link.Posted peer tx) (framed : SendQueue.Framed tx)
    (same : SendQueue.SameBytes tx) (cfg : tx.shared.cfg = link.cfg) {c offset : Nat}
    {payload : List UInt8} (logged : .fragment c offset payload ∈ tx.shared.log) :
    ∃ k i, tx.shared.ticket c = some k ∧ i < peer.count k ∧
      link.frame tx (.fragment c offset payload) = some (peer.header k i, peer.payload k i) := by
  obtain ⟨⟨k, ticket, psn⟩, ⟨i, inside, rfl⟩, -⟩ := framed.logged logged
  obtain ⟨opcode, immData, remoteAddr, rkey⟩ := posted.requests ticket
  have bytes := posted.bytes ticket
  have total : (tx.shared.posted c).length = peer.total k := by rw [bytes, peer.total_eq]
  have whole := (peer.facts k).total
  have segs : totalLen (tx.shared.ctx c).wr.segs = totalLen (peer.ctx k).segs := by
    rw [← framed.sizes, total]
    exact whole
  have isPsn : (tx.shared.ctx c).psn = (peer.ctx k).psn := by
    rw [psn, cfg, ← posted.psn]
    exact (RecvQueue.Peer.header_psn (p := peer) (k := k) (i := i)).symm
  have isPayload : payload = peer.payload k i := by
    rw [framed.payload same logged, bytes, ← peer.total_eq]
    rfl
  rw [total] at inside
  refine ⟨k, i, ticket, inside, ?_⟩
  have isHeader := SendQueue.header_eq_buildNativeHeader (peer.facts k) (Peer.offset i)
  change peer.header k i = _ at isHeader
  rw [Link.frame, isPayload, isHeader, RecvQueue.Peer.length_payload, isPsn, ← posted.qp]
  simp only [buildNativeHeader, opcode, immData, remoteAddr, rkey, segs, whole]
  rfl

/-- The responder's own calls are among the arrivals that the peer's runs are made of. -/
theorem receive_eq_arrive (rx : Rx) (env : Env) (call : Receive) :
    receive rx env call = peer.arrive rx (env, call.arrival) := by
  cases call <;> rfl

end Arrives

/-! ## Both ends -/

structure Kept (link : Link) (st : State) : Prop where
  reached : Reaches SendQueue.step WritesReleased (SendQueue.start link.cfg link.memory) st.tx
  posts : Posts link.cfg st.tx
  framed : SendQueue.Framed st.tx
  intact : SendQueue.Intact st.tx
  steady : ∀ {peer}, link.Posted peer st.tx → Steady peer False st.rx
  acks : ∀ {thread code psn f}, st.tx.threads[thread]? = some code → f ∈ code →
    Handles psn f → ∃ k, st.acks thread = some k ∧ psn = link.cfg.psn k ∧
      link.Acknowledged st.rx k
  success : ∀ {c}, Succeeds st.tx c →
    ∃ n, st.tx.shared.ticket c = some n ∧ link.Acknowledged st.rx n

section Kept
variable {link : Link} {st next : State} {tx : SendQueue.St} {rx : Rx} {env : Env}

theorem kept_start (link : Link) : Kept link link.start where
  reached := .init
  posts := posts_start link.cfg link.rc link.memory
  framed := SendQueue.framed_start link.cfg link.memory
  intact := SendQueue.intact_start link.cfg link.memory
  steady posted := .start posted.begins (fun unclean => unclean.elim) fun unclean => unclean.elim
  acks := fun found => by simp [Link.start, SendQueue.start] at found
  success := by
    rintro c ((sure | ⟨g, ⟨code, among, _⟩, _⟩) | logged)
    · cases sure.1
    · cases among
    · cases logged

theorem Kept.responds (kept : Kept link st) (grows : st.rx.log <+: rx.log)
    (steady : ∀ {peer}, link.Posted peer st.tx → Steady peer False rx) :
    Kept link { st with rx } := by
  refine ⟨kept.reached, kept.posts, kept.framed, kept.intact, steady, ?_, ?_⟩
  · intro thread code psn f found among handles
    obtain ⟨k, isAck, same, acknowledged⟩ := kept.acks found among handles
    exact ⟨k, isAck, same, acknowledged.later grows⟩
  · intro c succeeds
    obtain ⟨n, has, acknowledged⟩ := kept.success succeeds
    exact ⟨n, has, acknowledged.later grows⟩

theorem Kept.responder (kept : Kept link st) {call : Receive} (unhindered : Unhindered env)
    (received : receive st.rx env call = some rx) : Kept link { st with rx } := by
  refine kept.responds (receive_grows received) fun {peer} posted => ?_
  have window : peer.InWindow st.rx (env, call.arrival) := by
    obtain ⟨msg, frag, cq⟩ := unhindered
    cases call <;> exact ⟨⟨msg, frag, cq, trivial⟩, trivial⟩
  exact (kept.steady posted).arrive window (fun unclean => unclean.elim)
    ((receive_eq_arrive ..).symm.trans received)

theorem Kept.fragment (kept : Kept link st) {place : Nat} {frame : Header × List UInt8}
    (timely : Timely st (.fragment env place))
    (arrives : (st.tx.shared.log[place]?).bind (link.frame st.tx) = some frame) :
    Kept link { st with rx := st.rx.rxFrame env frame.1 frame.2 } := by
  obtain ⟨unhindered, near⟩ := timely
  obtain ⟨entry, at_, framed⟩ := Option.bind_eq_some_iff.mp arrives
  cases entry with
  | fragment c offset payload =>
      have logged := List.mem_of_getElem? at_
      have near := near c (by rw [at_]; rfl)
      cases framed
      refine kept.responds (rxFrame_grows rfl) fun {peer} posted => ?_
      have steady := kept.steady posted
      obtain ⟨k, i, ticket, inside, isFrame⟩ :=
        posted.frame kept.framed kept.intact.same kept.posts.cfg logged
      obtain ⟨ahead, behind⟩ := near k ticket
      have window : peer.InWindow st.rx (env, .fragment k i) := by
        obtain ⟨msg, frag, cq⟩ := unhindered
        exact ⟨⟨msg, frag, cq, inside, ahead⟩, behind⟩
      rw [Link.frame] at isFrame
      obtain ⟨isHeader, isPayload⟩ := Prod.mk.inj (Option.some.inj isFrame)
      rw [isHeader, isPayload]
      have isOp := RecvQueue.Peer.header_opcode (p := peer) (k := k) (i := i)
      rcases @rxFrame_cases st.rx env _ (peer.payload k i) _ isOp with same | handled
      · rwa [same]
      · exact steady.arrive window (fun unclean => unclean.elim) (congrArg some handled.symm)
  | _ => cases framed

/-- The frames that an event starts are about no OK unless it is one. -/
theorem Handles.of_event {q q' : SendQueue.Qp} {event : SendQueue.Event} {code : List Frame}
    {psn : Nat} {f : Frame} (handles : Handles psn f)
    (reacted : SendQueue.react q event = some (q', code)) (among : f ∈ code) :
    event = .ack psn .ok := by
  cases event with
  | ack number status =>
      cases reacted
      cases List.mem_singleton.mp among
      rcases handles with same | other
      · cases same
        rfl
      · cases other
  | _ =>
      have acks := handles.ofAck
      simp only [SendQueue.react] at reacted
      repeat' split at reacted
      all_goals cases reacted <;> simp only [List.mem_cons, List.not_mem_nil, or_false] at among
      all_goals rcases among with rfl | rfl <;> cases acks

theorem Kept.event (kept : Kept link st) {event : SendQueue.Event} {about : Option Nat}
    (stepped : SendQueue.step st.tx (.event event) = some tx)
    (released : WritesReleased st.tx (.event event))
    (tells : ∀ psn, event = .ack psn .ok → ∃ k, about = some k ∧ psn = link.cfg.psn k ∧
      link.Acknowledged st.rx k) :
    Kept link ⟨tx, st.rx, Function.update st.acks st.tx.threads.length about⟩ := by
  obtain ⟨q', code, reacted, rfl⟩ := Threads.step_event stepped
  have reacts := SendQueue.react_reacts reacted
  have keeps : ∀ {c k}, st.tx.shared.ticket c = some k → q'.ticket c = some k ∧
      (q'.ctx c).wr = (st.tx.shared.ctx c).wr ∧ q'.posted c = st.tx.shared.posted c := by
    intro c k has
    exact ⟨by rw [← has, reacts.samePsns.ticket],
      reacts.old (kept.posts.posting.tickets.bounded has).2⟩
  refine ⟨kept.reached.step released stepped, kept.posts.event link.rc reacts,
    kept.framed.event kept.posts.posting reacts, kept.intact.event released reacts,
    fun posted => kept.steady (posted.before keeps), ?_, ?_⟩
  · intro thread stack psn f found among handles
    change ∃ k, Function.update st.acks st.tx.threads.length about thread = some k ∧ _
    by_cases old : thread < st.tx.threads.length
    · rw [List.getElem?_append_left old] at found
      rw [Function.update_of_ne (Nat.ne_of_lt old)]
      exact kept.acks found among handles
    · have last : thread = st.tx.threads.length := by
        have := (List.getElem?_eq_some_iff.mp found).1
        simp only [List.length_append, List.length_singleton] at this
        omega
      subst last
      rw [List.getElem?_concat_length] at found
      cases found
      rw [Function.update_self]
      exact tells psn (handles.of_event reacted among)
  · intro c succeeds
    obtain ⟨n, has, acknowledged⟩ := kept.success (kept.posts.event_succeeds reacts succeeds)
    exact ⟨n, (keeps has).1, acknowledged⟩

theorem Kept.matched (kept : Kept link st) {psn thread c : Nat} {rest : List Frame}
    {choice : SendQueue.Choice} (timely : Timely st (.requester (.run thread choice)))
    (found : st.tx.threads[thread]? = some (.ackHandle psn .ok :: rest))
    (matched : st.tx.shared.matchPsn psn = some c) :
    ∃ n, st.tx.shared.ticket c = some n ∧ link.Acknowledged st.rx n := by
  obtain ⟨k, isAck, rfl, acknowledged⟩ := kept.acks found (List.mem_cons_self ..) (.inr rfl)
  have pending : c ∈ st.tx.shared.pendingSends := List.mem_of_find?_eq_some matched
  obtain ⟨n, has, psn⟩ := kept.posts.posting.pending c pending
  have top : (st.tx.top thread).bind okPsn = some (link.cfg.psn k) := by
    rw [Threads.State.top_of_getElem? found]
    rfl
  obtain ⟨ahead, behind⟩ := timely _ top k isAck c matched n has
  have same : (st.tx.shared.ctx c).psn = link.cfg.psn k := by
    have found := List.find?_some matched
    rw [beq_iff_eq] at found
    rw [found, QpConfig.psn, Nat.mod_mod]
  have here : n = k := by
    rw [psn, kept.posts.cfg, QpConfig.psn, QpConfig.psn] at same
    unfold SendQueue.psnMod at same ahead behind
    omega
  exact ⟨n, has, here ▸ acknowledged⟩

theorem Kept.run (kept : Kept link st) {thread : Nat} {choice : SendQueue.Choice}
    (timely : Timely st (.requester (.run thread choice)))
    (stepped : SendQueue.step st.tx (.run thread choice) = some tx) :
    Kept link { st with tx } := by
  obtain ⟨f, rest, q', pushed, found, executed, rfl⟩ := Threads.step_run stepped
  have wf := SendQueue.wellFormed_of_reaches kept.reached (Threads.State.has_of_top found)
  have static := (SendQueue.exec_effect wf executed).static
  have keeps : ∀ {c k}, st.tx.shared.ticket c = some k → q'.ticket c = some k ∧
      (q'.ctx c).wr = (st.tx.shared.ctx c).wr ∧ q'.posted c = st.tx.shared.posted c := by
    intro c k has
    exact ⟨kept.posts.run_ticket wf found executed has, static.wr c, congrFun static.posted c⟩
  have released : WritesReleased st.tx (.run thread choice) := trivial
  refine ⟨kept.reached.step released stepped, kept.posts.run wf found executed,
    kept.framed.run kept.posts.posting kept.posts.retryable wf found executed,
    kept.intact.run wf found executed, fun posted => kept.steady (posted.before keeps), ?_, ?_⟩
  · intro other stack psn g there among handles
    by_cases mine : thread = other
    · subst mine
      have inside : thread < st.tx.threads.length := (List.getElem?_eq_some_iff.mp found).1
      rw [List.getElem?_set_self inside] at there
      cases there
      rcases List.mem_append.mp among with new | below
      · exact kept.acks found (List.mem_cons_self ..)
          (handles.source (SendQueue.exec_follows executed) new)
      · exact kept.acks found (List.mem_cons_of_mem _ below) handles
    · rw [List.getElem?_set_ne mine] at there
      exact kept.acks there among handles
  · intro c succeeds
    rcases kept.posts.run_succeeds wf found executed succeeds with before | ⟨psn, rfl, matched⟩
    · obtain ⟨n, has, acknowledged⟩ := kept.success before
      exact ⟨n, (keeps has).1, acknowledged⟩
    · obtain ⟨n, has, acknowledged⟩ := kept.matched timely found matched
      exact ⟨n, (keeps has).1, acknowledged⟩

theorem Kept.step (kept : Kept link st) {action : Action} (timely : Timely st action)
    (stepped : link.step st action = some next) : Kept link next := by
  cases action with
  | requester label =>
      simp only [Link.step] at stepped
      split at stepped
      · cases stepped
      rename_i own
      obtain ⟨tx, taken, rfl⟩ := Option.map_eq_some_iff.mp stepped
      cases label with
      | event event =>
          have plain := @Kept.event _ _ _ kept event (st.acks st.tx.threads.length) taken timely
            fun psn isOk => absurd (by rw [isOk]; rfl) own
          rwa [Function.update_eq_self] at plain
      | run thread choice => exact kept.run timely taken
  | fragment env place =>
      simp only [Link.step] at stepped
      obtain ⟨frame, arrives, rfl⟩ := Option.map_eq_some_iff.mp stepped
      exact kept.fragment timely arrives
  | responder env call =>
      simp only [Link.step] at stepped
      obtain ⟨rx, received, rfl⟩ := Option.map_eq_some_iff.mp stepped
      exact kept.responder timely received
  | acknowledge k consumed =>
      simp only [Link.step] at stepped
      split at stepped
      · rename_i sent
        obtain ⟨tx, taken, rfl⟩ := Option.map_eq_some_iff.mp stepped
        refine kept.event taken trivial ?_
        rintro psn ⟨⟩
        exact ⟨k, rfl, rfl, consumed, sent⟩
      · cases stepped

end Kept

theorem completion_of_acknowledged {link : Link} {p : Peer} {rx : Rx} (received : p.Received rx)
    {k : Nat} (acknowledged : link.Acknowledged rx k) (takes : p.takesRecv k = true) :
    ∃ entry, (completions rx.log)[(p.takers k).length]? = some entry ∧ p.Completes k entry := by
  obtain ⟨consumed, among, passed⟩ := acknowledged
  obtain ⟨before, after, log⟩ := List.append_of_mem among
  obtain ⟨_, _, _, counted⟩ := (received.acked before _ .ok consumed after log).1 rfl
  have grows : ∀ {m n : Nat}, m ≤ n → p.takers m <+: p.takers n := by
    intro m n le
    induction le with
    | refl => exact List.prefix_rfl
    | step _ ih =>
        rw [p.takers_succ]
        exact ih.trans (List.prefix_append ..)
  have next : p.takers (k + 1) = p.takers k ++ [k] := by
    rw [p.takers_succ, takes, if_pos rfl]
  have fewer : (completions before).length ≤ (completions rx.log).length := by
    rw [log, RecvQueue.completions, RecvQueue.completions, List.filter_append, List.length_append]
    omega
  have size := received.inOrder.length_eq
  have through := (grows passed).length_le
  rw [next, List.length_append, List.length_singleton] at through
  have reached : p.takers (k + 1) <+: p.takers rx.consumed := by
    refine grows (Nat.lt_of_not_le fun beyond => ?_)
    have := (grows beyond).length_le
    omega
  obtain ⟨later, split⟩ := reached
  have inOrder := received.inOrder
  rw [← split, next, List.append_assoc] at inOrder
  have rest := List.forall₂_drop (p.takers k).length inOrder
  rw [List.drop_left, List.singleton_append] at rest
  obtain ⟨entry, others, completes, -, remains⟩ := List.forall₂_cons_left_iff.mp rest
  refine ⟨entry, ?_, completes⟩
  rw [← List.head?_drop, remains, List.head?_cons]

/-- What the request has come to at the other end. -/
def Received (peer : Peer) (st : State) (c : Nat) : Prop :=
  ∃ k, st.tx.shared.ticket c = some k ∧ (peer.takesRecv k = true →
    ∃ entry, (completions st.rx.log)[(peer.takers k).length]? = some entry ∧
      peer.Completes k entry ∧ ∀ wqe imm writes,
        entry = .recv wqe .success imm writes → RecvQueue.Fills writes (st.tx.shared.posted c))

/-! ## Two SENDs over a network that loses and reorders -/

instance (env : Env) : Decidable (Unhindered env) := inferInstanceAs (Decidable (_ ∧ _ ∧ _))

instance (st : State) : (action : Action) → Decidable (Timely st action)
  | .requester (.run _ _) => inferInstanceAs (Decidable (∀ psn ∈ (_ : Option Nat), _))
  | .requester (.event event) => inferInstanceAs (Decidable (WritesReleased st.tx (.event event)))
  | .fragment env _ => inferInstanceAs (Decidable (Unhindered env ∧ ∀ c ∈ (_ : Option Nat), _))
  | .responder env _ => inferInstanceAs (Decidable (Unhindered env))
  | .acknowledge _ _ => .isTrue trivial

namespace Lossy

open Tbv.SendQueue (SendWr IbSendWr fillCtx runs postTaken ackChoices)

def byte (addr : Nat) : UInt8 := if addr < 4048 then 1 else if addr = 4048 then 2 else 3

def segment (k : Nat) : SendQueue.Segment :=
  if k = 0 then ⟨0, 4049, Nat.succ_pos NativeData.maxPayload⟩ else ⟨4049, 1, Nat.zero_lt_one⟩

def send (k : Nat) : SendWr := { opcode := .send, segs := [segment k] }

def link : Link where
  cfg := { SendQueue.rcConfig with initialPsn := 0 }
  memory := byte
  qp := ⟨.rc, 2, 1, 0, true, true⟩
  rx := RecvQueue.Collision.ready
  rc := rfl
  fresh := RecvQueue.Collision.ready_fresh
  expected := rfl
  openQp := rfl
  unused := ⟨rfl, rfl, rfl⟩

def wr (k : Nat) : IbSendWr where
  opcode := .send
  sgList := [⟨.ofNat (segment k).addr, .ofNat (segment k).length, 0⟩]

def peer : Peer where
  qp := link.qp
  start := 0
  mrs := fun _ _ => some ⟨0, 4050, false⟩
  wr := wr
  memory := fun _ => byte
  ctx := fun k => fillCtx { link.qp with sendPsn := .ofNat ((0 + k) % RecvQueue.psnMod) } (wr k)
    [segment k]
  accepted := fun k => by cases k <;> rfl

def post (k : Nat) (choices : List SendQueue.Choice) : List Action :=
  .requester (.event (.postSend (send k))) :: (runs k choices).map .requester

def arrive (places : List Nat) : List Action :=
  places.map (.fragment RecvQueue.Collision.env)

/-- Both are posted, and what arrives is the tail of the first and the second. -/
def lost : List Action :=
  post 0 [.ok, .ok, .ok, .ok, .ok, .ok, .ok, .ok, .ok, .queued 2 0, .ok] ++ post 1 postTaken ++
    [.responder RecvQueue.Collision.env (.post ⟨1, 0, 8192, 0⟩),
      .responder RecvQueue.Collision.env (.post ⟨2, 0, 8192, 0⟩)] ++ arrive [2, 5]

def timeout : List Action :=
  [.requester (.event (.txRetired 0 false 0)), .requester (.run 2 .ok),
    .requester (.event (.txRetired 0 false 0)), .requester (.run 3 .ok),
    .requester (.event (.txRetired 1 false 0)), .requester (.run 4 .ok),
    .requester (.event .tick), .requester (.event .tick), .requester (.event .timeoutWork)]

/-- Everything is transmitted again, and arrives: the head of the first is new. -/
def retry : List Action :=
  (runs 7 [.ok, .ok, .ok, .ok, .ok, .ok, .ok, .ok, .queued 2 0, .ok, .ok, .ok, .ok, .ok, .ok,
    .queued 1 0, .ok, .ok, .ok, .ok, .ok, .ok, .ok]).map .requester ++ arrive [11, 12, 14]

def acknowledged : List Action :=
  .acknowledge 0 1 :: (runs 8 ackChoices).map .requester ++
    .acknowledge 1 2 :: (runs 9 ackChoices).map .requester

def exchange : List Action := lost ++ timeout ++ retry ++ acknowledged

def Done (st : State) : Prop :=
  st.tx.shared.nextOp = 2 ∧ ∀ k < 2, .completion k .success ∈ st.tx.shared.log ∧
    st.tx.shared.ticket k = some k ∧ (st.tx.shared.ctx k).wr = send k ∧
    st.tx.shared.posted k = peer.data k

instance (st : State) : Decidable (Done st) := inferInstanceAs (Decidable (_ ∧ _))

end Lossy

end Tbv.Connection
