import ThunderboltIbverbs.Recv.Spec

/-! # The receive side act by act

A finer account of the handlers than `Move`: what each act finds, and what the expected PSN
passes.  `apart` says that the frame does not carry the PSN of a message that is being
assembled while being of another kind. -/
set_option autoImplicit false
namespace Tbv.RecvQueue

open Tbv.NativeData

def verdictOf (status : WcStatus) : SendAckStatus := if status = .success then .ok else .error

/-- How the expected PSN passes an operation. -/
inductive Passage where
  | send (wqe : RecvWqe) (status : WcStatus) (imm : Option Nat) (writes : List Write)
    (cqFull : Bool)
  | write (status : WcStatus)
  | writeImm (wqe : RecvWqe) (status : WcStatus) (imm : Option Nat) (cqFull : Bool)
  | read
  | expire
  deriving DecidableEq, Repr

def Passage.verdict : Passage → Option SendAckStatus
  | .send _ status _ _ cqFull | .writeImm _ status _ cqFull =>
      some (if status = .success ∧ cqFull = false then .ok else .error)
  | .write status => some (verdictOf status)
  | .read => none
  | .expire => some .error

/-- The completion of the operation, if the CQ takes it. -/
def Passage.report : Passage → List Entry
  | .send wqe status imm writes false => [.recv wqe status imm writes]
  | .writeImm wqe status imm false => [.recvImm wqe status imm]
  | _ => []

abbrev Passed := Nat × Passage

def Entry.isAck : Entry → Bool
  | .ack .. => true
  | _ => false

/-- The message that is assembled has the PSN, or nothing is assembled and it is expected. -/
def Rx.Assembles (q : Rx) (psn : Nat) : Prop :=
  (∃ m, q.rxMsg = some m ∧ m.psn = psn) ∨ (q.rxMsg = none ∧ psn = q.expectedPsn)

/-- The PSN is not that of a message that is being assembled. -/
def Rx.Free (q : Rx) (psn : Nat) : Prop := q.rxMsg = none ∨ psn ≠ q.expectedPsn

def Rx.Alone (q : Rx) (psn : Nat) : Prop := ∀ w, q.rxWrite = some w → w.psn ≠ psn

/-- The expected PSN passes an operation that is to be acknowledged. -/
inductive Pass (env : Env) (apart : Prop) (q : Rx) : Nat → Passage → Rx → Prop
  | send {psn : Nat} (wqe : RecvWqe) (status : WcStatus) (imm : Option Nat) (writes : List Write)
      (here : q.Assembles psn) :
      Pass env apart q psn (.send wqe status imm writes env.cqFull)
        (({ q with rxMsg := none }.cqPush env (.recv wqe status imm writes)).consume psn
          (ackStatus env status))
  | write (status : WcStatus) (free : apart → q.rxMsg = none) :
      Pass env apart q q.expectedPsn (.write status) (q.consume q.expectedPsn (verdictOf status))
  | writeImm (wqe : RecvWqe) (status : WcStatus) (immData : Nat) (free : apart → q.rxMsg = none) :
      Pass env apart q q.expectedPsn
        (.writeImm wqe status (immOf (status = .success) immData) env.cqFull)
        ((q.pushImm env wqe status immData).consume q.expectedPsn (ackStatus env status))

/-- `owed` is the operation whose acknowledgement waits for the drain after it. -/
inductive Act (env : Env) (apart : Prop) (owed : Option Nat) (q : Rx) : Option Passed → Rx → Prop
  | aside (recvq : List RecvWqe) (advertised remoteCredits : Nat) (earlyCreditSrc : Option Nat)
      (posted : List RecvWqe) :
      Act env apart owed q none { q with
        recvq, advertised, remoteCredits, earlyCreditSrc, posted }
  | note {entry : Entry} (plain : entry.isAck = false) : Act env apart owed q none (q.note entry)
  | reack (psn : Nat) : Act env apart owed q none (q.reack psn)
  | notReady : Act env apart owed q none (q.sendAck q.expectedPsn .rnr)
  | refuse (psn : Nat) (quit : owed = none) : Act env apart owed q none (q.sendAck psn .error)
  | fail : Act env apart owed q none { q with state := .err }
  | setRnr (rnr : Option RnrMark) : Act env apart owed q none { q with rnr }
  | assemble {m : RxMessage} (here : q.Assembles m.psn)
      (fresh : q.rxMsg = none → q.reorderFind m.psn = none ∧ (apart → q.Alone m.psn)) :
      Act env apart owed q none { q with rxMsg := some m }
  | activate {w : RxWrite} (free : apart → q.Free w.psn) :
      Act env apart owed q none { q with rxWrite := some w }
  | endWrite : Act env apart owed q none { q with rxWrite := none }
  | prune : Act env apart owed q none q.pruneStaleReorder
  | unlink {m : ReorderMsg} (among : m ∈ q.reorder) :
      Act env apart owed q none (q.reorderUnlink m)
  | flush : Act env apart owed q none { q with reorder := [], reorderCount := 0, reorderBytes := 0 }
  | add {m : ReorderMsg} (new : q.reorderFind m.psn = none)
      (blank : m.frags = [] ∧ m.bufferedBytes = 0) (free : apart → q.Free m.psn) :
      Act env apart owed q none (q.reorderAdd m)
  | store {m stored : ReorderMsg} {offset held : Nat} {payload : List UInt8} (idx : Nat)
      (among : m ∈ q.reorder)
      (fits : storeFragment env q.reorderBytes m offset payload = .ok (stored, held)) :
      Act env apart owed q none ({ q with reorderBytes := held }.reorderSet (stored.mark idx))
  | pass {psn : Nat} {passage : Passage} {next : Rx} {verdict : SendAckStatus}
      (passes : Pass env apart q psn passage next) (other : owed ≠ some psn)
      (answers : passage.verdict = some verdict) :
      Act env apart owed q (some (psn, passage)) (next.sendAck psn verdict)
  | read (free : q.rxMsg = none) (other : owed ≠ some q.expectedPsn) :
      Act env apart owed q (some (q.expectedPsn, .read))
        { q with expectedPsn := psnNext q.expectedPsn, consumed := q.consumed + 1 }
  | expire {m : ReorderMsg} (found : q.reorderFind q.expectedPsn = some m) (quit : owed = none) :
      Act env apart owed q (some (m.psn, .expire)) ((q.reorderUnlink m).consume m.psn .error)

inductive Acts (env : Env) (apart : Prop) : Option Nat → Rx → List Passed → Rx → Prop
  | refl {owed : Option Nat} (q : Rx) : Acts env apart owed q [] q
  | tail {owed : Option Nat} {q mid next : Rx} {passed : List Passed} {out : Option Passed} :
      Acts env apart owed q passed mid → Act env apart owed mid out next →
      Acts env apart owed q (passed ++ out.toList) next
  | finish {q mid next last : Rx} {before now : List Passed} {psn : Nat} {passage : Passage}
      {verdict : SendAckStatus} :
      Acts env apart none q before mid → Pass env apart mid psn passage next →
      passage.verdict = some verdict → Acts env apart (some psn) next now last →
      Acts env apart none q (before ++ (psn, passage) :: now) (last.sendAck psn verdict)

theorem Acts.trans {env : Env} {apart : Prop} {owed : Option Nat} {q mid next : Rx}
    {first second : List Passed} (one : Acts env apart owed q first mid)
    (two : Acts env apart owed mid second next) : Acts env apart owed q (first ++ second) next := by
  induction two with
  | refl => simpa using one
  | tail _ act ih =>
      rw [← List.append_assoc]
      exact (ih one).tail act
  | finish _ passes answers later ih =>
      rw [← List.append_assoc]
      exact (ih one).finish passes answers later

/-- Some acts lead from the one state to the other. -/
def Does (env : Env) (apart : Prop) (owed : Option Nat) (q next : Rx) : Prop :=
  ∃ passed, Acts env apart owed q passed next

section Does
variable {env : Env} {apart : Prop} {owed : Option Nat} {q mid next : Rx}

/-- What every act keeps, with every passing and every acknowledgement, is kept throughout. -/
theorem Does.keeps {R : Rx → Rx → Prop} (refl : ∀ q, R q q)
    (trans : ∀ {q mid next}, R q mid → R mid next → R q next)
    (act : ∀ {owed q out next}, Act env apart owed q out next → R q next)
    (pass : ∀ {q psn passage next}, Pass env apart q psn passage next → R q next)
    (ack : ∀ q psn status, R q (q.sendAck psn status)) (does : Does env apart owed q next) :
    R q next := by
  obtain ⟨passed, acts⟩ := does
  induction acts with
  | refl => exact refl _
  | tail _ one ih => exact trans ih (act one)
  | finish _ passes _ _ before later =>
      exact trans (trans before (pass passes)) (trans later (ack ..))

theorem Does.refl : Does env apart owed q q := ⟨[], .refl q⟩

theorem Does.trans (one : Does env apart owed q mid) (two : Does env apart owed mid next) :
    Does env apart owed q next := by
  obtain ⟨first, one⟩ := one
  obtain ⟨second, two⟩ := two
  exact ⟨_, one.trans two⟩

theorem Act.does {out : Option Passed} (act : Act env apart owed q out next) :
    Does env apart owed q next :=
  ⟨_, (Acts.refl q).tail act⟩

theorem Does.finish {psn : Nat} {passage : Passage} {verdict : SendAckStatus} {last : Rx}
    (first : Does env apart none q mid) (passes : Pass env apart mid psn passage next)
    (answers : passage.verdict = some verdict) (later : Does env apart (some psn) next last) :
    Does env apart none q (last.sendAck psn verdict) := by
  obtain ⟨before, first⟩ := first
  obtain ⟨now, later⟩ := later
  exact ⟨_, first.finish passes answers later⟩

theorem does_note {entry : Entry} (plain : entry.isAck = false) :
    Does env apart owed q (q.note entry) := (Act.note plain).does

theorem does_refuse (psn : Nat) : Does env apart none q (q.sendAck psn .error) :=
  (Act.refuse psn rfl).does

theorem does_reack (psn : Nat) : Does env apart owed q (q.reack psn) := (Act.reack psn).does

theorem does_notReady {psn : Nat} (here : psn = q.expectedPsn) :
    Does env apart owed q (q.sendAck psn .rnr) := by
  rw [here]
  exact Act.notReady.does

theorem reorderFind_psn {psn : Nat} {m : ReorderMsg} (found : q.reorderFind psn = some m) :
    m.psn = psn := by
  simpa using List.find?_some found

theorem reorderFind_mem {psn : Nat} {m : ReorderMsg} (found : q.reorderFind psn = some m) :
    m ∈ q.reorder := List.mem_of_find?_eq_some found

theorem popRecv_same {wqe : RecvWqe} (popped : q.popRecv = some (wqe, next)) :
    next = { q with recvq := next.recvq, advertised := q.advertised - 1 } := by
  unfold Rx.popRecv at popped
  split at popped
  · cases popped
  · split at popped
    · cases popped
    · cases popped
      rfl

theorem does_pop {wqe : RecvWqe} (popped : q.popRecv = some (wqe, next)) :
    Does env apart owed q next := by
  rw [popRecv_same popped]
  exact (Act.aside ..).does

theorem does_completeSend {psn : Nat} (wqe : RecvWqe) (status : WcStatus) (imm : Option Nat)
    (writes : List Write) (here : q.Assembles psn) (other : owed ≠ some psn) :
    Does env apart owed q ({ q with rxMsg := none }.completeSend env psn wqe status imm writes) :=
  (Act.pass (.send wqe status imm writes here) other rfl).does

theorem does_finishSend (m : RxMessage) (here : q.Assembles m.psn) :
    Does env apart none q (q.finishSend env m) := does_completeSend _ _ _ _ here nofun

theorem clear_rxMsg (idle : q.rxMsg = none) : { q with rxMsg := none } = q := by
  rw [← idle]

theorem does_deliverReorderMsg {m : ReorderMsg} (found : q.reorderFind q.expectedPsn = some m)
    (idle : q.rxMsg = none) (other : owed ≠ some q.expectedPsn) :
    Does env apart owed q (q.deliverReorderMsg env m).1 := by
  unfold Rx.deliverReorderMsg
  split
  · exact does_notReady (reorderFind_psn found)
  · rename_i wqe next popped
    have same := popRecv_same popped
    have among : m ∈ next.reorder := by
      rw [same]
      exact reorderFind_mem found
    have free : (next.reorderUnlink m).rxMsg = none := by
      rw [same]
      exact idle
    have here : (next.reorderUnlink m).Assembles m.psn := by
      refine .inr ⟨free, ?_⟩
      rw [same]
      exact reorderFind_psn found
    have differs : owed ≠ some m.psn := by rwa [reorderFind_psn found]
    refine ((does_pop popped).trans (Act.unlink among).does).trans ?_
    have completes := @does_completeSend env apart _ _ _ wqe
      (if (copyFrags env wqe m.frags).1 = false then .locProtErr
        else if wqe.length < m.totalLen then .locLenErr else .success)
      (immOf m.withImm m.immData) (copyFrags env wqe m.frags).2 here differs
    rwa [clear_rxMsg free] at completes

theorem cqPush_same (entry : Entry) : ∃ log, q.cqPush env entry = { q with log } := by
  unfold Rx.cqPush
  split
  · exact ⟨q.log, rfl⟩
  · exact ⟨_, rfl⟩

theorem pushImm_same (wqe : RecvWqe) (status : WcStatus) (immData : Nat) :
    ∃ log, q.pushImm env wqe status immData = { q with log } := cqPush_same _

/-- A write leaves only its data behind. -/
theorem writeFrags_same (rkey remoteAddr : Nat) (frags : List ReorderFrag) :
    ∃ log, (q.writeFrags env rkey remoteAddr frags).1 = { q with log } := by
  induction frags generalizing q with
  | nil => exact ⟨q.log, rfl⟩
  | cons frag rest ih =>
      unfold Rx.writeFrags
      split
      · exact ⟨q.log, rfl⟩
      · split
        · obtain ⟨log, is⟩ := @ih (q.note (.wrote rkey (remoteAddr + frag.offset) frag.data))
          exact ⟨log, is⟩
        · exact ⟨q.log, rfl⟩

theorem does_writeFrags (rkey remoteAddr : Nat) (frags : List ReorderFrag) :
    Does env apart owed q (q.writeFrags env rkey remoteAddr frags).1 := by
  induction frags generalizing q with
  | nil => exact .refl
  | cons frag rest ih =>
      unfold Rx.writeFrags
      split
      · exact .refl
      · split
        · exact (does_note rfl).trans ih
        · exact .refl

theorem writeReorder_same (m : ReorderMsg) : ∃ log, (q.writeReorder env m).1 = { q with log } := by
  unfold Rx.writeReorder
  split
  · exact writeFrags_same ..
  · exact ⟨q.log, rfl⟩

theorem does_writeReorder (m : ReorderMsg) : Does env apart owed q (q.writeReorder env m).1 := by
  unfold Rx.writeReorder
  split
  · exact does_writeFrags ..
  · exact .refl

theorem does_passWrite {psn : Nat} (status : WcStatus) (here : psn = q.expectedPsn)
    (free : apart → q.rxMsg = none) (other : owed ≠ some psn) :
    Does env apart owed q (q.passWrite psn (verdictOf status)) := by
  subst here
  exact (Act.pass (.write status free) other rfl).does

theorem does_passImm {psn : Nat} (wqe : RecvWqe) (status : WcStatus) (immData : Nat)
    (here : psn = q.expectedPsn) (free : apart → q.rxMsg = none) (other : owed ≠ some psn) :
    Does env apart owed q ((q.pushImm env wqe status immData).passWrite psn (ackStatus env status)) := by
  subst here
  exact (Act.pass (.writeImm wqe status immData free) other rfl).does

theorem does_deliverReorderWrite {m : ReorderMsg} (found : q.reorderFind q.expectedPsn = some m)
    (idle : q.rxMsg = none) (other : owed ≠ some q.expectedPsn) :
    Does env apart owed q (q.deliverReorderWrite env m).1 := by
  have among := reorderFind_mem found
  have psn := reorderFind_psn found
  have differs : owed ≠ some m.psn := by rwa [psn]
  unfold Rx.deliverReorderWrite
  split
  · split
    · exact does_notReady psn
    · rename_i wqe next popped
      have same := popRecv_same popped
      have still : m ∈ next.reorder := by
        rw [same]
        exact among
      obtain ⟨log, written⟩ := @writeReorder_same env (next.reorderUnlink m) m
      refine (((does_pop popped).trans (Act.unlink still).does).trans
        (does_writeReorder m)).trans (does_passImm _ _ _ ?_ (fun _ => ?_) differs)
      · rw [written, same]
        exact psn
      · rw [written, same]
        exact idle
  · obtain ⟨log, written⟩ := @writeReorder_same env (q.reorderUnlink m) m
    refine ((Act.unlink among).does.trans (does_writeReorder m)).trans
      (does_passWrite _ ?_ (fun _ => ?_) differs)
    · rw [written]
      exact psn
    · rw [written]
      exact idle

theorem does_deliverReorderReadReq {m : ReorderMsg} (found : q.reorderFind q.expectedPsn = some m)
    (idle : q.rxMsg = none) (other : owed ≠ some q.expectedPsn) :
    Does env apart owed q (q.deliverReorderReadReq m).1 := by
  have free : (q.reorderUnlink m).rxMsg = none := idle
  have reads := (@Act.read env apart owed _ free other).does.trans
    (@does_note env apart owed _ (.readReq m.psn) rfl)
  unfold Rx.deliverReorderReadReq
  rw [reorderFind_psn found] at reads ⊢
  exact (Act.unlink (reorderFind_mem found)).does.trans reads

theorem does_deliverReorder {m : ReorderMsg} (found : q.reorderFind q.expectedPsn = some m)
    (idle : q.rxMsg = none) (other : owed ≠ some q.expectedPsn) :
    Does env apart owed q (q.deliverReorder env m).1 := by
  unfold Rx.deliverReorder
  split
  · exact does_deliverReorderWrite found idle other
  · exact does_deliverReorderReadReq found idle other
  · exact does_deliverReorderMsg found idle other

/-- A round that prunes changes only the list and the log. -/
theorem pruneStaleReorder_same : ∃ reorder reorderCount reorderBytes log,
    q.pruneStaleReorder = { q with reorder, reorderCount, reorderBytes, log } := by
  unfold Rx.pruneStaleReorder
  generalize q.reorder = messages
  induction messages generalizing q with
  | nil => exact ⟨q.reorder, q.reorderCount, q.reorderBytes, q.log, rfl⟩
  | cons m rest ih =>
      obtain ⟨reorder, count, bytes, log, is⟩ := @ih (q.pruneOne m)
      rw [List.foldl_cons, is]
      refine ⟨reorder, count, bytes, log, ?_⟩
      unfold Rx.pruneOne
      split
      · rfl
      · split <;> rfl

theorem reorderFind_fewer {psn : Nat} (missing : q.reorderFind psn = none)
    (fewer : ∀ m ∈ next.reorder, m ∈ q.reorder) : next.reorderFind psn = none :=
  List.find?_eq_none.mpr fun m among => List.find?_eq_none.mp missing m (fewer m among)

theorem pruneOne_fewer (m : ReorderMsg) : ∀ other ∈ (q.pruneOne m).reorder, other ∈ q.reorder := by
  intro other
  unfold Rx.pruneOne
  split
  · exact id
  split
  · exact fun among => (List.mem_filter.mp among).1
  · exact fun among => (List.mem_filter.mp among).1

theorem pruneStaleReorder_fewer : ∀ m ∈ q.pruneStaleReorder.reorder, m ∈ q.reorder := by
  suffices each : ∀ (messages : List ReorderMsg) (q : Rx),
      ∀ m ∈ (messages.foldl Rx.pruneOne q).reorder, m ∈ q.reorder from each q.reorder q
  intro messages
  induction messages with
  | nil => exact fun _ _ among => among
  | cons m rest ih =>
      intro q other among
      exact pruneOne_fewer m other (ih _ other among)

theorem reorderFind_past {psn : Nat} (past : psnDelta psn q.expectedPsn < 0) :
    q.pruneStaleReorder.reorderFind psn = none := by
  unfold Rx.pruneStaleReorder
  suffices each : ∀ (messages : List ReorderMsg) (q : Rx), psnDelta psn q.expectedPsn < 0 →
      (∀ m ∈ q.reorder, m.psn = psn → m ∈ messages) →
        (messages.foldl Rx.pruneOne q).reorderFind psn = none from
    each _ q past fun _ among _ => among
  intro messages
  induction messages with
  | nil =>
      intro q _ covers
      refine List.find?_eq_none.mpr fun m among is => ?_
      cases covers m among (beq_iff_eq.mp is)
  | cons m rest ih =>
      intro q past covers
      have expected : (q.pruneOne m).expectedPsn = q.expectedPsn := by
        unfold Rx.pruneOne
        split
        · rfl
        · split <;> rfl
      refine ih _ (expected ▸ past) fun other among is => ?_
      rcases List.mem_cons.mp (covers other (pruneOne_fewer m other among) is) with rfl | later
      · have gone : other ∉ (q.pruneOne other).reorder := by
          unfold Rx.pruneOne
          rw [is, if_neg (Int.not_le.mpr past)]
          split
          · exact fun among => absurd rfl (bne_iff_ne.mp (List.mem_filter.mp among).2)
          · exact fun among => absurd rfl (bne_iff_ne.mp (List.mem_filter.mp among).2)
        exact absurd among gone
      · exact later

/-- A delivery adds nothing to the list. -/
theorem deliverReorder_fewer (m : ReorderMsg) :
    ∀ other ∈ (q.deliverReorder env m).1.reorder, other ∈ q.reorder := by
  have kept : ∀ {wqe : RecvWqe} {left : Rx}, q.popRecv = some (wqe, left) →
      ∀ other ∈ (left.reorderUnlink m).reorder, other ∈ q.reorder := by
    intro wqe left popped other among
    rw [popRecv_same popped] at among
    exact (List.mem_filter.mp among).1
  intro other among
  unfold Rx.deliverReorder at among
  split at among
  · unfold Rx.deliverReorderWrite at among
    split at among
    · split at among
      · exact among
      · rename_i wqe left popped
        dsimp only at among
        obtain ⟨log, written⟩ := @writeReorder_same env (left.reorderUnlink m) m
        obtain ⟨log', pushed⟩ := @pushImm_same env ((left.reorderUnlink m).writeReorder env m).1 wqe
          ((left.reorderUnlink m).writeReorder env m).2 m.immData
        rw [pushed, written] at among
        exact kept popped other among
    · obtain ⟨log, written⟩ := @writeReorder_same env (q.reorderUnlink m) m
      dsimp only at among
      rw [written] at among
      exact (List.mem_filter.mp among).1
  · exact (List.mem_filter.mp among).1
  · unfold Rx.deliverReorderMsg at among
    split at among
    · exact among
    · rename_i wqe left popped
      dsimp only at among
      unfold Rx.completeSend at among
      obtain ⟨log, pushed⟩ := @cqPush_same env (left.reorderUnlink m) (.recv wqe
        (if (copyFrags env wqe m.frags).1 = false then .locProtErr
          else if wqe.length < m.totalLen then .locLenErr else .success)
        (immOf m.withImm m.immData) (copyFrags env wqe m.frags).2)
      dsimp only at among
      rw [pushed] at among
      exact kept popped other among

theorem does_drainLoop (fuel : Nat)
    (missing : ∀ psn ∈ owed, q.pruneStaleReorder.reorderFind psn = none) :
    Does env apart owed q (Rx.drainLoop env fuel q) := by
  induction fuel generalizing q with
  | zero => exact .refl
  | succ fuel ih =>
      have pruned := (@Act.prune env apart owed q).does
      unfold Rx.drainLoop
      split
      · exact .refl
      rename_i idle
      split
      · exact pruned
      rename_i m found
      split
      · exact pruned
      · obtain ⟨reorder, count, bytes, log, is⟩ := @pruneStaleReorder_same q
        have expected : q.pruneStaleReorder.expectedPsn = q.expectedPsn := by rw [is]
        have free : q.pruneStaleReorder.rxMsg = none := by
          rw [is]
          simp only [Bool.or_eq_true, Option.isSome_iff_ne_none, not_or, not_not] at idle
          exact idle.1
        rw [← expected] at found
        have other : owed ≠ some q.pruneStaleReorder.expectedPsn := fun is => by
          rw [missing _ is] at found
          cases found
        have delivered := pruned.trans (@does_deliverReorder env apart owed _ _ found free other)
        dsimp only
        split
        · refine delivered.trans (ih fun psn is => ?_)
          exact reorderFind_fewer (missing psn is) fun m among =>
            deliverReorder_fewer _ m (pruneStaleReorder_fewer m among)
        · exact delivered

theorem does_drainReorder : Does env apart none q (q.drainReorder env) := does_drainLoop _ nofun

/-- A drain after the operation whose acknowledgement it holds up. -/
theorem does_drainReorder_owing {psn : Nat} (past : psnDelta psn q.expectedPsn < 0) :
    Does env apart (some psn) q (q.drainReorder env) :=
  does_drainLoop _ fun other is => by
    cases is
    exact reorderFind_past past

/-! ## Buffering -/

theorem does_drop {m : ReorderMsg} (among : m ∈ q.reorder) : Does env apart none q (q.dropReorderMsg m) :=
  (Act.unlink among).does

theorem does_storeInto {m : ReorderMsg} (idx offset : Nat) (payload : List UInt8)
    {onError : Rx → StoreError → Rx} (among : m ∈ q.reorder)
    (failed : ∀ q err, Does env apart none q (onError q err)) :
    Does env apart none q (q.storeInto env m idx offset payload onError) := by
  unfold Rx.storeInto
  split
  · exact failed ..
  · rename_i stored held fits
    have stores := (@Act.store env apart none q m stored offset held payload idx among fits).does
    dsimp only
    split
    · exact stores.trans does_drainReorder
    · exact stores

theorem does_bufferInto {fresh : ReorderMsg} (idx offset : Nat) (payload : List UInt8)
    {onError : Rx → StoreError → Rx} (blank : fresh.frags = [] ∧ fresh.bufferedBytes = 0)
    (free : apart → q.Free fresh.psn) (failed : ∀ q err, Does env apart none q (onError q err)) :
    Does env apart none q (q.bufferInto env fresh idx offset payload onError) := by
  unfold Rx.bufferInto
  split
  · rename_i new
    split
    · exact does_refuse _
    split
    · exact does_refuse _
    · refine (Act.add new blank free).does.trans (does_storeInto _ _ _ ?_ failed)
      exact List.mem_append_right _ (List.mem_singleton_self _)
  · rename_i m found
    have among := reorderFind_mem found
    have dropped : ∀ psn, Does env apart none q ((q.dropReorderMsg m).sendAck psn .error) :=
      fun psn => (does_drop among).trans (does_refuse _)
    split
    · exact dropped ..
    split
    · split
      · exact dropped ..
      split
      · exact does_drainReorder
      · exact .refl
    · exact does_storeInto _ _ _ among failed

theorem does_bufferFragment {hdr : Header} {psn : Nat} (totalLen offset : Nat) (last : Bool)
    (payload : List UInt8) (free : apart → q.Free psn) :
    Does env apart none q (q.bufferFragment env hdr psn totalLen offset last payload) := by
  unfold Rx.bufferFragment
  dsimp only
  split
  · exact does_reack psn
  split
  · exact does_refuse _
  split
  · exact does_refuse _
  · refine does_bufferInto _ _ _ ⟨rfl, rfl⟩ free fun q err => ?_
    split
    · exact .refl
    rename_i m found
    split
    · exact does_drop (reorderFind_mem found)
    · exact (does_refuse _).trans (does_drop (reorderFind_mem (q := q.sendAck psn .error) found))

theorem does_bufferWriteFragment {hdr : Header} {psn : Nat} (totalLen offset : Nat)
    (last withImm : Bool) (payload : List UInt8) (free : apart → q.Free psn) :
    Does env apart none q (q.bufferWriteFragment env hdr psn totalLen offset last withImm payload) := by
  unfold Rx.bufferWriteFragment
  dsimp only
  split
  · exact does_reack psn
  split
  · exact does_refuse _
  split
  · exact does_refuse _
  · refine does_bufferInto _ _ _ ⟨rfl, rfl⟩ free fun q err => ?_
    split
    · exact .refl
    · rename_i m found
      exact (does_drop (reorderFind_mem found)).trans (does_refuse _)

/-! ## SEND -/

theorem does_clearRnr (srcQp psn : Nat) : Does env apart none q (q.clearRnr srcQp psn) := by
  unfold Rx.clearRnr
  split
  · exact (Act.setRnr none).does
  · exact .refl

theorem does_markRnr (hdr : Header) {psn : Nat} (here : psn = q.expectedPsn) :
    Does env apart none q (q.markRnr hdr psn) := by
  have marks := (@Act.setRnr env apart none q
    (some ⟨hdr.srcQp, psn % psnMod, hdr.remoteAddr, hdr.fragOffset⟩)).does
  exact marks.trans (does_notReady here)

theorem Rx.assembles_of_active {m : RxMessage} (active : q.rxMsg = some m) : q.Assembles m.psn :=
  .inl ⟨m, active, rfl⟩

theorem does_failActiveSend {m : RxMessage} (psn : Nat) (active : q.rxMsg = some m) :
    Does env apart none q (q.failActiveSend env m psn) := by
  have here := Rx.assembles_of_active active
  exact (does_finishSend { m with status := .locProtErr } here).trans (does_refuse _)

@[simp] theorem copy_psn (m : RxMessage) (offset : Nat) (payload : List UInt8) :
    (m.copy env offset payload).psn = m.psn := by
  unfold RxMessage.copy
  split <;> rfl

theorem does_assembled {m : RxMessage} (done : Bool) (here : q.Assembles m.psn)
    (fresh : q.rxMsg = none → q.reorderFind m.psn = none ∧ (apart → q.Alone m.psn)) :
    Does env apart none q (if done then (q.finishSend env m).drainReorder env
      else { q with rxMsg := some m }) := by
  split
  · exact (does_finishSend m here).trans does_drainReorder
  · exact (Act.assemble here fresh).does

theorem does_stripedFragment {m : RxMessage} (idx : Nat) (hdr : Header) (payload : List UInt8)
    (here : q.Assembles m.psn)
    (fresh : q.rxMsg = none → q.reorderFind m.psn = none ∧ (apart → q.Alone m.psn)) :
    Does env apart none q (q.stripedFragment env m idx hdr payload) := by
  unfold Rx.stripedFragment
  dsimp only
  generalize added : (if idx ∈ m.fragSeen then m else _) = m'
  have psn : m'.psn = m.psn := by
    rw [← added]
    split
    · rfl
    · exact copy_psn ..
  rw [← psn] at here fresh
  simpa using does_assembled (m'.fragsReceived = m'.fragCount) here fresh

theorem does_orderedFragment {m : RxMessage} (copyOffset : Nat) (copyPayload : List UInt8)
    (last : Bool) (here : q.Assembles m.psn)
    (fresh : q.rxMsg = none → q.reorderFind m.psn = none ∧ (apart → q.Alone m.psn)) :
    Does env apart none q (q.orderedFragment env m copyOffset copyPayload last) := by
  unfold Rx.orderedFragment
  dsimp only
  refine does_assembled last ?_ ?_
  · simpa using here
  · simpa using fresh

def Rx.Bounded (q : Rx) : Prop := q.expectedPsn < psnMod

theorem psnDelta_self (psn : Nat) : psnDelta psn psn = 0 := by
  unfold psnDelta psnMod
  dsimp only
  split <;> omega

theorem eq_of_psnDelta {psn expected : Nat} (one : psn < psnMod) (two : expected < psnMod)
    (zero : psnDelta psn expected = 0) : psn = expected := by
  unfold psnDelta psnMod at *
  dsimp only at zero
  split at zero <;> omega

theorem ne_of_psnDelta {psn expected : Nat} (later : psnDelta psn expected ≠ 0) : psn ≠ expected := by
  rintro rfl
  exact later (psnDelta_self psn)

/-- The first fragment of a message that nothing else is known of. -/
theorem does_firstFragment {hdr : Header} {psn count : Nat} {wqe : RecvWqe} {next : Rx}
    (popped : q.popRecv = some (wqe, next)) (idle : q.rxMsg = none) (here : psn = q.expectedPsn)
    (fresh : q.reorderFind psn = none) (alone : apart → q.Alone psn) :
    next.Assembles (newMessage hdr psn wqe count).psn ∧
      (next.rxMsg = none → next.reorderFind (newMessage hdr psn wqe count).psn = none ∧
        (apart → next.Alone (newMessage hdr psn wqe count).psn)) := by
  rw [popRecv_same popped]
  exact ⟨.inr ⟨idle, here⟩, fun _ => ⟨fresh, alone⟩⟩

theorem does_handleStriped {hdr : Header} {psn : Nat} (payload : List UInt8) (small : psn < psnMod)
    (bounded : q.Bounded) (alone : apart → q.Alone psn) :
    Does env apart none q (q.handleStriped env hdr psn payload) := by
  unfold Rx.handleStriped
  dsimp only
  split
  · exact does_refuse _
  rename_i idx count shape
  split
  · exact does_reack psn
  rename_i notPast
  split
  · rename_i buffers
    refine does_bufferFragment _ _ _ _ fun _ => ?_
    rcases buffers with later | ⟨idle, -⟩
    · exact .inr (ne_of_psnDelta (by omega))
    · exact .inl idle
  rename_i here
  simp only [not_or, not_and, Option.isSome_iff_ne_none, ne_eq, not_not] at here
  obtain ⟨notLater, unbuffered⟩ := here
  have expected : psn = q.expectedPsn := eq_of_psnDelta small bounded (by omega)
  split
  · rename_i m active
    split
    · exact does_stripedFragment _ _ _ (Rx.assembles_of_active active) fun idle => by
        rw [active] at idle
        cases idle
    · exact does_failActiveSend psn active
  · rename_i idle
    split
    · exact does_markRnr hdr expected
    · rename_i wqe next popped
      obtain ⟨assembles, fresh⟩ := @does_firstFragment apart q hdr psn count wqe next popped idle
        expected (unbuffered idle) alone
      exact (does_pop popped).trans (does_stripedFragment _ _ _ assembles fresh)

theorem does_handleOrdered {hdr : Header} {psn : Nat} (payload : List UInt8)
    (alone : apart → q.Alone psn) : Does env apart none q (q.handleOrdered env hdr psn payload) := by
  unfold Rx.handleOrdered
  dsimp only
  split
  · rename_i m active
    have here := Rx.assembles_of_active active
    have fresh : q.rxMsg = none → q.reorderFind m.psn = none ∧ (apart → q.Alone m.psn) := fun idle => by
      rw [active] at idle
      cases idle
    split
    · exact does_orderedFragment _ _ _ here fresh
    split
    · exact does_reack psn
    split
    · rename_i later
      exact does_bufferFragment _ _ _ _ fun _ => .inr (ne_of_psnDelta (by omega))
    split
    · split
      · exact .refl
      · exact does_orderedFragment _ _ _ here fresh
    split
    · exact .refl
    · exact does_failActiveSend psn active
  · rename_i idle
    split
    · exact does_bufferFragment _ _ _ _ fun _ => .inl idle
    rename_i here
    simp only [Bool.or_eq_true, Option.isSome_iff_ne_none, bne_iff_ne, not_or, not_not] at here
    split
    · exact does_markRnr hdr here.1.2
    · rename_i wqe next popped
      obtain ⟨assembles, fresh⟩ := @does_firstFragment apart q hdr psn 0 wqe next popped idle
        here.1.2 here.1.1 alone
      exact (does_pop popped).trans (does_orderedFragment _ _ _ assembles fresh)

theorem clearRnr_same (srcQp psn : Nat) : ∃ rnr, q.clearRnr srcQp psn = { q with rnr } := by
  unfold Rx.clearRnr
  split
  · exact ⟨none, rfl⟩
  · exact ⟨q.rnr, rfl⟩

theorem mod_psnMod_lt (psn : Nat) : psn % psnMod < psnMod := Nat.mod_lt _ (by decide)

theorem does_handleSendFragment (hdr : Header) (payload : List UInt8) (bounded : q.Bounded)
    (alone : apart → q.Alone (hdr.psn % psnMod)) :
    Does env apart none q (q.handleSendFragment env hdr payload) := by
  obtain ⟨rnr, cleared⟩ := @clearRnr_same q hdr.srcQp (hdr.psn % psnMod)
  unfold Rx.handleSendFragment
  dsimp only
  split
  · exact does_refuse _
  split
  · exact .refl
  split
  · refine (does_clearRnr ..).trans (does_handleStriped _ (mod_psnMod_lt _) ?_ ?_)
    · rw [cleared]
      exact bounded
    · rw [cleared]
      exact alone
  · refine (does_clearRnr ..).trans (does_handleOrdered _ ?_)
    rw [cleared]
    exact alone

/-! ## RDMA WRITE -/

theorem psnDelta_next (psn : Nat) : psnDelta psn (psnNext psn) < 0 := by
  unfold psnDelta psnNext psnMod
  dsimp only
  split <;> omega

theorem does_finishWrite (w : RxWrite) (status : WcStatus)
    (free : apart → w.psn = q.expectedPsn → q.rxMsg = none) :
    Does env apart none q (q.finishWrite env w status) := by
  have ends := (@Act.endWrite env apart none q).does
  unfold Rx.finishWrite
  cases w.immWqe with
  | none =>
      dsimp only
      split
      · exact ends.trans (does_refuse _)
      · rename_i here
        have here : w.psn = q.expectedPsn := not_not.mp here
        have passes := @Pass.write env apart { q with rxWrite := none } status
          fun is => free is here
        rw [here]
        exact ends.finish passes rfl (does_drainReorder_owing (psnDelta_next _))
  | some wqe =>
      have same : (q.pushImm env wqe status w.immData).expectedPsn = q.expectedPsn := by
        unfold Rx.pushImm Rx.cqPush
        split <;> rfl
      have moved : { q.pushImm env wqe status w.immData with rxWrite := none } =
          { q with rxWrite := none }.pushImm env wqe status w.immData := by
        unfold Rx.pushImm Rx.cqPush
        split <;> rfl
      dsimp only
      split
      · have noted : Does env apart none q (q.pushImm env wqe status w.immData) := by
          unfold Rx.pushImm Rx.cqPush
          split
          · exact .refl
          · exact does_note rfl
        exact (noted.trans Act.endWrite.does).trans (does_refuse _)
      · rename_i here
        rw [same] at here
        have here : w.psn = q.expectedPsn := not_not.mp here
        have passes := @Pass.writeImm env apart { q with rxWrite := none } wqe status w.immData
          fun is => free is here
        rw [moved, here]
        exact ends.finish passes rfl (does_drainReorder_owing (psnDelta_next _))

theorem Rx.Free.idle {psn : Nat} (free : q.Free psn) (here : psn = q.expectedPsn) : q.rxMsg = none :=
  free.resolve_right fun apart => apart here

theorem does_writeFragment (w : RxWrite) (copyOffset : Nat) (copyPayload : List UInt8) (last : Bool)
    (free : apart → q.Free w.psn) :
    Does env apart none q (q.writeFragment env w copyOffset copyPayload last) := by
  have ends : ∀ status, Does env apart none q (q.finishWrite env w status) :=
    fun status => does_finishWrite w status fun is => (free is).idle
  unfold Rx.writeFragment
  dsimp only
  split
  · split
    · exact ends _
    · exact (Act.activate free).does
  split
  · exact ends _
  have wrote := @does_note env apart none q
    (.wrote w.rkey (w.remoteAddr + copyOffset) copyPayload) rfl
  split
  · exact wrote.trans (does_finishWrite w _ fun is => (free is).idle)
  · exact wrote.trans (@Act.activate env apart none
      (q.note (.wrote w.rkey (w.remoteAddr + copyOffset) copyPayload))
      { w with received := copyOffset + copyPayload.length } free).does

theorem does_bufferOrDrop {hdr : Header} {psn : Nat} (payload : List UInt8)
    (free : apart → q.Free psn) : Does env apart none q (q.bufferOrDrop env hdr psn payload) := by
  unfold Rx.bufferOrDrop
  split
  · exact .refl
  · exact does_bufferWriteFragment _ _ _ _ _ free

theorem does_handleWrite {hdr : Header} {psn : Nat} (payload : List UInt8) (small : psn < psnMod)
    (bounded : q.Bounded) (free : apart → q.Free psn) :
    Does env apart none q (q.handleWrite env hdr psn payload) := by
  unfold Rx.handleWrite
  dsimp only
  split
  · exact does_reack psn
  rename_i notPast
  split
  · rename_i w active
    split
    · split
      · exact does_bufferOrDrop _ free
      · rename_i notLater
        have expected : psn = q.expectedPsn := eq_of_psnDelta small bounded (by omega)
        exact does_finishWrite _ _ fun is _ => (free is).idle expected
    rename_i same
    have psn : w.psn = psn := by
      simp only [Bool.not_eq_true', Bool.not_eq_false, RxWrite.sameWrite, Bool.and_eq_true,
        beq_iff_eq] at same
      exact same.1.1.1.1.2
    have goes : apart → q.Free w.psn := by rwa [psn]
    split
    · split
      · exact .refl
      · exact does_writeFragment _ _ _ _ goes
    split
    · exact does_bufferOrDrop _ free
    · exact does_writeFragment _ _ _ _ goes
  split
  · exact does_bufferOrDrop _ free
  rename_i here
  split
  · exact does_bufferOrDrop _ free
  split
  · split
    · exact does_refuse _
    · exact does_bufferOrDrop _ free
  split
  · split
    · exact does_markRnr hdr (not_not.mp here)
    · rename_i wqe next popped
      refine (does_pop popped).trans (does_writeFragment _ _ _ _ ?_)
      rw [popRecv_same popped]
      exact free
  · exact does_writeFragment _ _ _ _ free

theorem does_handleRdmaWriteFragment (hdr : Header) (payload : List UInt8) (bounded : q.Bounded)
    (free : apart → q.Free (hdr.psn % psnMod)) :
    Does env apart none q (q.handleRdmaWriteFragment env hdr payload) := by
  obtain ⟨rnr, cleared⟩ := @clearRnr_same q hdr.srcQp (hdr.psn % psnMod)
  unfold Rx.handleRdmaWriteFragment
  dsimp only
  split
  · exact does_refuse _
  split
  · exact .refl
  · refine (does_clearRnr ..).trans (does_handleWrite _ (mod_psnMod_lt _) ?_ ?_)
    · rw [cleared]
      exact bounded
    · rw [cleared]
      exact free

/-! ## READ requests, frames and posts -/

theorem does_bufferReadReq {hdr : Header} {psn : Nat} (free : apart → q.Free psn) :
    Does env apart none q (q.bufferReadReq env hdr psn) := by
  unfold Rx.bufferReadReq
  dsimp only
  split
  · exact does_note rfl
  split
  · exact does_note rfl
  split
  · rename_i new
    split
    · exact does_note rfl
    · exact (Act.add new ⟨rfl, rfl⟩ free).does
  · rename_i m found
    split
    · exact (does_drop (reorderFind_mem found)).trans (does_note rfl)
    · exact does_drainReorder

theorem does_handleRdmaReadReq (hdr : Header) (free : apart → q.Free (hdr.psn % psnMod)) :
    Does env apart none q (q.handleRdmaReadReq env hdr) := by
  unfold Rx.handleRdmaReadReq
  dsimp only
  split
  · exact does_note rfl
  split
  · exact does_bufferReadReq free
  · rename_i here
    simp only [not_or, not_not, Option.isSome_iff_ne_none, ne_eq] at here
    obtain ⟨expected, idle, -⟩ := here
    rw [expected]
    have passed := (@Act.read env apart none q idle nofun).does
    exact (passed.trans does_drainReorder).trans (does_note rfl)

theorem does_acceptRecvCredit (hdr : Header) : Does env apart none q (q.acceptRecvCredit hdr) := by
  have takes : ∀ total src accepted, Does env apart none q
      ({ q with remoteCredits := total, earlyCreditSrc := src }.note (.accepted accepted)) :=
    fun total src accepted => by
      have taken := (@Act.aside env apart none q q.recvq q.advertised total src q.posted).does
      exact taken.trans (does_note rfl)
  unfold Rx.acceptRecvCredit
  dsimp only
  by_cases fits : q.remoteCredits + hdr.immData < 2 ^ 32
  all_goals
    simp only [fits, if_true, if_false]
    repeat' split
    all_goals first
      | exact .refl
      | exact takes ..

/-- The frame does not carry the PSN of an operation of another kind that is being assembled. -/
def Rx.Apart (q : Rx) (hdr : Header) : Prop :=
  match hdr.opcode with
  | .send | .sendImm => q.Alone (hdr.psn % psnMod)
  | .rdmaWrite | .rdmaWriteImm | .rdmaReadReq => ∀ m, q.rxMsg = some m → m.psn ≠ hdr.psn % psnMod
  | _ => True

theorem Rx.free_of_apart {psn : Nat} (assembled : ∀ m, q.rxMsg = some m → m.psn = q.expectedPsn)
    (other : ∀ m, q.rxMsg = some m → m.psn ≠ psn) : q.Free psn := by
  cases active : q.rxMsg with
  | none => exact .inl active
  | some m =>
      refine .inr fun here => other m active ?_
      rw [here]
      exact assembled m active

theorem does_rxFrame (hdr : Header) (payload : List UInt8) (bounded : q.Bounded)
    (assembled : apart → ∀ m, q.rxMsg = some m → m.psn = q.expectedPsn)
    (separate : apart → q.Apart hdr) : Does env apart none q (q.rxFrame env hdr payload) := by
  have sends (is : hdr.opcode = .send ∨ hdr.opcode = .sendImm) :
      apart → q.Alone (hdr.psn % psnMod) := by
    rcases is with is | is <;> simpa [Rx.Apart, is] using separate
  have others (is : hdr.opcode = .rdmaWrite ∨ hdr.opcode = .rdmaWriteImm ∨
      hdr.opcode = .rdmaReadReq) : apart → q.Free (hdr.psn % psnMod) := fun apart => by
    refine Rx.free_of_apart (assembled apart) ?_
    rcases is with is | is | is <;> simpa [Rx.Apart, is] using separate apart
  unfold Rx.rxFrame
  split
  · split
    · exact .refl
    · exact does_acceptRecvCredit hdr
  · split
    · exact does_handleSendFragment hdr payload bounded (sends (.inl ‹_›))
    · exact .refl
  · split
    · exact does_handleSendFragment hdr payload bounded (sends (.inr ‹_›))
    · exact .refl
  · split
    · exact does_handleRdmaWriteFragment hdr payload bounded (others (.inl ‹_›))
    · exact .refl
  · split
    · exact does_handleRdmaWriteFragment hdr payload bounded (others (.inr (.inl ‹_›)))
    · exact .refl
  · split
    · exact does_handleRdmaReadReq hdr (others (.inr (.inr ‹_›)))
    · exact .refl
  · exact .refl

theorem does_postOne (wqe : RecvWqe) : Does env apart none q (q.postOne wqe).1 := by
  unfold Rx.postOne
  split
  · exact .refl
  · exact (Act.aside ..).does

theorem does_advertiseRecvCredits : Does env apart none q (q.advertiseRecvCredits env) := by
  unfold Rx.advertiseRecvCredits
  split
  · exact .refl
  split
  · exact .refl
  split
  · have taken := (@Act.aside env apart none q q.recvq q.recvq.length q.remoteCredits
      q.earlyCreditSrc q.posted).does
    exact taken.trans (does_note rfl)
  · exact .refl

end Does

end Tbv.RecvQueue
