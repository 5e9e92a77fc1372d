import ThunderboltIbverbs.Recv.Accounts
import ThunderboltIbverbs.Recv.Answered

/-! # The verdict on a duplicate

Every operation that the expected PSN passes leaves its verdict in a table of 1024 slots, out of
which a later fragment of it is answered.  The verdict is the one of the first acknowledgement
after the operation was passed. -/
set_option autoImplicit false
namespace Tbv.RecvQueue

open Trans
open Tbv.NativeData

/-- The slots of the table hold the verdicts on what was passed last, and what is assembled is
the expected operation alone. -/
structure Recorded (start : Nat) (passed : List Passed) (q : Rx) : Prop where
  expected : q.expectedPsn = (start + passed.length) % psnMod
  psns : ∀ (older newer : List Passed) (one : Passed), passed = older ++ one :: newer →
    one.1 = (start + older.length) % psnMod
  slots : ∀ (older newer : List Passed) (psn : Nat) (passage : Passage) (verdict : SendAckStatus),
    passed = older ++ (psn, passage) :: newer → passage.verdict = some verdict →
      newer.length < ackHistorySize → q.ackHistory (psn % ackHistorySize) = some (psn, verdict)
  here : ∀ m, q.rxMsg = some m → m.psn = q.expectedPsn
  alone : q.rxMsg ≠ none → q.reorderFind q.expectedPsn = none ∧ q.Alone q.expectedPsn

section Recorded
variable {env : Env} {owed : Option Nat} {q next : Rx} {start : Nat} {passed : List Passed}

theorem psnNext_mod (psn : Nat) : psnNext (psn % psnMod) = (psn + 1) % psnMod := Nat.mod_add_mod ..

theorem Recorded.bounded (recorded : Recorded start passed q) : q.Bounded := by
  rw [Rx.Bounded, recorded.expected]
  exact mod_psnMod_lt _

theorem Recorded.assembles (recorded : Recorded start passed q) {psn : Nat}
    (here : q.Assembles psn) : psn = q.expectedPsn := by
  rcases here with ⟨m, active, rfl⟩ | ⟨-, is⟩
  · exact recorded.here m active
  · exact is

/-- Fewer than 1024 operations apart, two PSNs have different slots. -/
theorem slot_ne {start first second : Nat} (before : first < second)
    (near : second < first + ackHistorySize) :
    (start + first) % psnMod % ackHistorySize ≠ (start + second) % psnMod % ackHistorySize := by
  unfold psnMod ackHistorySize at *
  omega

theorem Recorded.pass (recorded : Recorded start passed q) (passage : Passage)
    (moved : next.expectedPsn = psnNext q.expectedPsn)
    (stored : ∀ status, passage.verdict = some status → next.ackHistory =
      Function.update q.ackHistory (q.expectedPsn % ackHistorySize)
        (some (q.expectedPsn, status)))
    (kept : passage.verdict = none → next.ackHistory = q.ackHistory) (idle : next.rxMsg = none) :
    Recorded start (passed ++ [(q.expectedPsn, passage)]) next where
  expected := by
    rw [moved, recorded.expected, psnNext_mod]
    simp [Nat.add_assoc]
  psns := fun older newer one split => by
    rcases split_append split with ⟨-, rfl, rfl⟩ | ⟨earlier, -, before⟩
    · exact recorded.expected
    · exact recorded.psns older earlier one before
  slots := fun older newer psn other status split verdict near => by
    rcases split_append split with ⟨-, rfl, same⟩ | ⟨earlier, rfl, rfl⟩
    · cases same
      rw [stored status verdict, Function.update_self]
    · rw [List.length_append, List.length_singleton] at near
      have slot := recorded.slots older earlier psn other status rfl verdict (by omega)
      cases now : passage.verdict with
      | none => rw [kept now, slot]
      | some given =>
          have apart : psn % ackHistorySize ≠ q.expectedPsn % ackHistorySize := by
            have place : psn = (start + older.length) % psnMod := recorded.psns older earlier _ rfl
            rw [recorded.expected, place]
            refine slot_ne ?_ ?_
            · simp
            · simp
              omega
          rw [stored given now, Function.update_of_ne apart, slot]
  here := fun m active => by
    rw [idle] at active
    cases active
  alone := fun active => absurd idle active

/-- What leaves the expected PSN, the table and the active message alone. -/
theorem Recorded.keep (recorded : Recorded start passed q)
    (expected : next.expectedPsn = q.expectedPsn) (history : next.ackHistory = q.ackHistory)
    (message : next.rxMsg = q.rxMsg)
    (alone : q.rxMsg ≠ none → next.reorderFind q.expectedPsn = none ∧ next.Alone q.expectedPsn) :
    Recorded start passed next where
  expected := expected.trans recorded.expected
  psns := recorded.psns
  slots := fun older newer psn passage verdict split is near => by
    rw [history]
    exact recorded.slots older newer psn passage verdict split is near
  here := fun m active => by
    rw [expected]
    exact recorded.here m (message ▸ active)
  alone := fun active => by
    rw [expected]
    exact alone (message ▸ active)

theorem reorderFind_set {psn : Nat} {m : ReorderMsg} {old : ReorderMsg} (among : old ∈ q.reorder)
    (same : m.psn = old.psn) (missing : q.reorderFind psn = none) :
    (q.reorderSet m).reorderFind psn = none := by
  refine List.find?_eq_none.mpr fun other inside => ?_
  obtain ⟨before, was, rfl⟩ := List.mem_map.mp inside
  split
  · rw [same]
    exact List.find?_eq_none.mp missing old among
  · exact List.find?_eq_none.mp missing before was

theorem consume_history (status : SendAckStatus) (bounded : q.expectedPsn < psnMod) :
    (q.consume q.expectedPsn status).ackHistory =
      Function.update q.ackHistory (q.expectedPsn % ackHistorySize)
        (some (q.expectedPsn, status)) := by
  unfold Rx.consume Rx.ackHistoryStore
  dsimp only
  rw [Nat.mod_eq_of_lt bounded]

/-- An operation that is to be acknowledged is passed. -/
theorem Pass.recorded {psn : Nat} {passage : Passage} (passes : Pass env True q psn passage next)
    (recorded : Recorded start passed q) : Recorded start (passed ++ [(psn, passage)]) next := by
  have bounded := recorded.bounded
  cases passes with
  | send wqe status imm writes here =>
      obtain ⟨log, pushed⟩ := @cqPush_same env { q with rxMsg := none } (.recv wqe status imm writes)
      rw [pushed, recorded.assembles here]
      refine recorded.pass _ rfl (fun other is => ?_) (fun is => by cases is) rfl
      cases is
      exact consume_history (q := { q with rxMsg := none, log }) _ bounded
  | write status free =>
      refine recorded.pass _ rfl (fun other is => ?_) (fun is => by cases is) (free trivial)
      cases is
      exact consume_history _ bounded
  | writeImm wqe status immData free =>
      obtain ⟨log, pushed⟩ := @pushImm_same env q wqe status immData
      rw [pushed]
      refine recorded.pass _ rfl (fun other is => ?_) (fun is => by cases is) (free trivial)
      cases is
      exact consume_history (q := { q with log }) _ bounded

theorem Recorded.pruneOne (recorded : Recorded start passed q) (m : ReorderMsg) :
    Recorded start passed (q.pruneOne m) := by
  have fewer := @pruneOne_fewer q m
  unfold Rx.pruneOne at fewer ⊢
  split
  · exact recorded
  rename_i past
  rw [if_neg past] at fewer
  have missing := fun active => reorderFind_fewer (recorded.alone active).1 fewer
  split
  · rename_i read
    rw [if_pos read] at missing
    exact recorded.keep rfl rfl rfl fun active => ⟨missing active, (recorded.alone active).2⟩
  · rename_i other
    rw [if_neg other] at missing
    exact recorded.keep rfl rfl rfl fun active => ⟨missing active, (recorded.alone active).2⟩

theorem Recorded.prune (recorded : Recorded start passed q) (messages : List ReorderMsg) :
    Recorded start passed (messages.foldl Rx.pruneOne q) := by
  induction messages generalizing q with
  | nil => exact recorded
  | cons m rest ih => exact ih (recorded.pruneOne m)

theorem Act.recorded {out : Option Passed} (act : Act env True owed q out next)
    (recorded : Recorded start passed q) : Recorded start (passed ++ out.toList) next := by
  have bounded := recorded.bounded
  cases act with
  | aside | note | reack | notReady | refuse | fail | setRnr =>
      rw [Option.toList_none, List.append_nil]
      exact recorded.keep rfl rfl rfl recorded.alone
  | @assemble m here fresh =>
      rw [Option.toList_none, List.append_nil]
      have psn := recorded.assembles here
      refine ⟨recorded.expected, recorded.psns, recorded.slots, fun other is => ?_, fun _ => ?_⟩
      · cases is
        exact psn
      · by_cases idle : q.rxMsg = none
        · obtain ⟨missing, alone⟩ := fresh idle
          rw [psn] at missing alone
          exact ⟨missing, alone trivial⟩
        · exact recorded.alone idle
  | @activate w free =>
      rw [Option.toList_none, List.append_nil]
      refine recorded.keep rfl rfl rfl fun active => ⟨(recorded.alone active).1, fun other is => ?_⟩
      cases is
      exact (free trivial).resolve_left active
  | endWrite =>
      rw [Option.toList_none, List.append_nil]
      refine recorded.keep rfl rfl rfl fun active => ⟨(recorded.alone active).1, fun other is => ?_⟩
      cases is
  | prune =>
      rw [Option.toList_none, List.append_nil]
      exact recorded.prune _
  | @unlink m among =>
      rw [Option.toList_none, List.append_nil]
      refine recorded.keep rfl rfl rfl fun active => ⟨?_, (recorded.alone active).2⟩
      exact reorderFind_fewer (recorded.alone active).1 fun _ inside => (List.mem_filter.mp inside).1
  | flush =>
      rw [Option.toList_none, List.append_nil]
      exact recorded.keep rfl rfl rfl fun active => ⟨rfl, (recorded.alone active).2⟩
  | @add m new blank free =>
      rw [Option.toList_none, List.append_nil]
      refine recorded.keep rfl rfl rfl fun active => ⟨?_, (recorded.alone active).2⟩
      have differs := (free trivial).resolve_left active
      have missing := (recorded.alone active).1
      unfold Rx.reorderFind Rx.reorderAdd at *
      rw [List.find?_append, missing]
      simpa using differs
  | @store m stored offset held payload idx among fits =>
      rw [Option.toList_none, List.append_nil]
      obtain ⟨-, -, same, -, -⟩ := storeFragment_eq fits
      exact recorded.keep rfl rfl rfl fun active =>
        ⟨reorderFind_set (m := stored.mark idx) among same (recorded.alone active).1,
          (recorded.alone active).2⟩
  | pass passes =>
      have later := passes.recorded recorded
      exact later.keep rfl rfl rfl later.alone
  | read free =>
      exact recorded.pass _ rfl (fun other is => by cases is) (fun _ => rfl) free
  | @expire m found =>
      have idle : q.rxMsg = none := by
        by_contra active
        rw [(recorded.alone active).1] at found
        cases found
      rw [reorderFind_psn found]
      refine recorded.pass _ rfl (fun other is => ?_) (fun is => by cases is) idle
      cases is
      exact consume_history (q := q.reorderUnlink m) _ bounded

theorem Acts.recorded {now : List Passed} (acts : Acts env True owed q now next)
    (recorded : Recorded start passed q) : Recorded start (passed ++ now) next := by
  induction acts generalizing passed with
  | refl => rwa [List.append_nil]
  | tail _ act ih =>
      rw [← List.append_assoc]
      exact act.recorded (ih recorded)
  | @finish q mid next last before now psn passage _ _ passes _ _ first later =>
      have through := later (passes.recorded (first recorded))
      rw [List.append_assoc, List.append_assoc, List.singleton_append] at through
      exact through.keep rfl rfl rfl through.alone

theorem psnDelta_past {start first second : Nat} (before : first < second)
    (near : second ≤ first + ackHistorySize) :
    psnDelta ((start + first) % psnMod) ((start + second) % psnMod) < 0 := by
  unfold psnDelta psnMod ackHistorySize at *
  dsimp only
  split <;> omega

/-- One of the last 1024 operations is before the expected one. -/
theorem Recorded.past (recorded : Recorded start passed q) {older newer : List Passed} {psn : Nat}
    {passage : Passage} (split : passed = older ++ (psn, passage) :: newer)
    (near : newer.length < ackHistorySize) : psnDelta psn q.expectedPsn < 0 := by
  have place : psn = (start + older.length) % psnMod := recorded.psns older newer _ split
  rw [place, recorded.expected]
  refine psnDelta_past ?_ ?_
  · simp [split]
  · simp [split]
    omega

theorem Recorded.found (recorded : Recorded start passed q) {older newer : List Passed} {psn : Nat}
    {passage : Passage} {verdict : SendAckStatus}
    (split : passed = older ++ (psn, passage) :: newer) (is : passage.verdict = some verdict)
    (near : newer.length < ackHistorySize) : q.ackHistoryLookup psn = some verdict := by
  have place : psn = (start + older.length) % psnMod := recorded.psns older newer _ split
  have small : psn < psnMod := place ▸ mod_psnMod_lt _
  unfold Rx.ackHistoryLookup
  rw [recorded.slots older newer psn passage verdict split is near]
  simp [Nat.mod_eq_of_lt small]

/-- One of the last 1024 operations is the only one of its PSN among them. -/
theorem Recorded.unique (recorded : Recorded start passed q)
    {older newer older' newer' : List Passed} {psn : Nat} {passage other : Passage}
    (split : passed = older ++ (psn, passage) :: newer)
    (also : passed = older' ++ (psn, other) :: newer') (near : newer.length < ackHistorySize)
    (before : older.length ≤ older'.length) : older.length = older'.length := by
  by_contra differs
  have one : psn = (start + older.length) % psnMod := recorded.psns older newer _ split
  have two : psn = (start + older'.length) % psnMod := recorded.psns older' newer' _ also
  have length := length_split split
  have length' := length_split also
  have apart := @slot_ne start older.length older'.length (by omega) (by omega)
  rw [← one, ← two] at apart
  exact apart rfl

/-! ## The log -/

section Logged
variable {from' : Rx} {owes : Nat → Prop}

theorem Recorded.reack (recorded : Recorded start passed q) (psn : Nat)
    (logged : Logged from' owes passed q) : Logged from' owes passed (q.reack psn) := by
  refine logged.ack psn _ (fun _ => Or.inr) fun older newer passage verdict split is near _ => ?_
  rw [recorded.found split is near]
  rfl

/-- The answer to an operation that cannot be received yet. -/
theorem Recorded.notReady (recorded : Recorded start passed q) (status : SendAckStatus)
    (logged : Logged from' owes passed q) :
    Logged from' owes passed (q.sendAck q.expectedPsn status) := by
  refine logged.ack _ _ (fun _ => Or.inr) fun older newer passage verdict split _ near => ?_
  have past := recorded.past split near
  rw [psnDelta_self] at past
  exact absurd past (Int.lt_irrefl 0)

theorem Recorded.prune_logged (recorded : Recorded start passed q) (messages : List ReorderMsg)
    (logged : Logged from' owes passed q) :
    Logged from' owes passed (messages.foldl Rx.pruneOne q) := by
  induction messages generalizing q with
  | nil => exact logged
  | cons m rest ih =>
      refine ih (recorded.pruneOne m) ?_
      unfold Rx.pruneOne
      split
      · exact logged
      split
      · exact (logged.plain rfl).keep rfl rfl
      · exact (recorded.reack m.psn logged).keep rfl rfl

theorem cqPush_report (entry : Entry) :
    (q.cqPush env entry).log = q.log ++ if env.cqFull then [] else [entry] := by
  unfold Rx.cqPush
  split
  · exact (List.append_nil _).symm
  · rfl

theorem Pass.logged {psn : Nat} {passage : Passage} {apart : Prop} {now : Nat → Prop}
    (passes : Pass env apart q psn passage next) (logged : Logged from' owes passed q)
    (still : ∀ other, owes other → now other) (waits : now psn) :
    Logged from' now (passed ++ [(psn, passage)]) next := by
  obtain ⟨log, rxMsg, ackHistory, same⟩ := passes.same
  refine logged.pass psn passage still (fun _ => .inr waits) ?_ ?_
  · cases passes with
    | send wqe status imm writes =>
        refine (cqPush_report (q := { q with rxMsg := none }) _).trans ?_
        cases env.cqFull <;> rfl
    | write => exact (List.append_nil _).symm
    | writeImm wqe status immData =>
        refine (cqPush_report _).trans ?_
        cases env.cqFull <;> rfl
  · rw [same]

/-- Only the operation itself waits for its acknowledgement, so what answers it agrees. -/
theorem Recorded.settle (recorded : Recorded start passed q) {before now : List Passed} {psn : Nat}
    {passage : Passage} {verdict : SendAckStatus} (split : passed = before ++ (psn, passage) :: now)
    (answers : passage.verdict = some verdict) (skip : ∀ one ∈ now, one.1 ≠ psn)
    (logged : Logged from' (some psn = some ·) passed q) :
    Logged from' (none = some ·) passed (q.sendAck psn verdict) := by
  refine logged.ack psn verdict (fun other is => .inl (Option.some.inj is).symm)
    fun older newer another status other is near _ => ?_
  have length := length_split split
  have length' := length_split other
  rcases Nat.lt_or_ge before.length older.length with later | sooner
  · -- it would have been passed while the acknowledgement waited
    have among : (psn, another) ∈ now := by
      have dropped := congrArg (List.drop (before.length + 1)) (split.symm.trans other)
      rw [List.drop_append, List.drop_append] at dropped
      simp only [List.drop_eq_nil_of_le (Nat.le_succ before.length),
        Nat.add_sub_cancel_left] at dropped
      have kept : older.length - (before.length + 1) + (before.length + 1) = older.length := by omega
      have rest : before.length + 1 - older.length = 0 := by omega
      rw [rest, List.drop_zero] at dropped
      have : now = List.drop (before.length + 1) older ++ (psn, another) :: newer := by
        simpa using dropped
      rw [this]
      exact List.mem_append_right _ (List.mem_cons_self ..)
    exact absurd rfl (skip _ among)
  · have same := recorded.unique other split near sooner
    obtain ⟨-, rest⟩ := List.append_inj (split.symm.trans other) same.symm
    cases rest
    exact Option.some.inj (answers.symm.trans is)

/-- What the log says of the operations after one act. -/
theorem Act.logged {out : Option Passed} (act : Act env True owed q out next)
    (recorded : Recorded start passed q) (logged : Logged from' (owed = some ·) passed q) :
    Logged from' (owed = some ·) (passed ++ out.toList) next := by
  cases act with
  | aside | fail | setRnr | assemble | activate | endWrite | unlink | flush | add | store =>
      rw [Option.toList_none, List.append_nil]
      exact logged.keep rfl rfl
  | note plain =>
      rw [Option.toList_none, List.append_nil]
      exact logged.plain plain
  | reack psn =>
      rw [Option.toList_none, List.append_nil]
      exact recorded.reack psn logged
  | notReady =>
      rw [Option.toList_none, List.append_nil]
      exact recorded.notReady _ logged
  | refuse psn quit =>
      rw [Option.toList_none, List.append_nil]
      subst quit
      refine logged.ack psn .error (fun _ => Or.inr) fun older newer passage verdict _ is _ silent => ?_
      -- nothing waits, so what has no acknowledgement yet has expired
      rcases silent with rfl | waits
      · exact Option.some.inj is
      · cases waits
  | prune =>
      rw [Option.toList_none, List.append_nil]
      exact recorded.prune_logged _ logged
  | @pass psn passage mid verdict passes other answers =>
      have later := passes.recorded recorded
      have waits : Logged from' (fun one => owed = some one ∨ one = psn)
          (passed ++ [(psn, passage)]) mid := passes.logged logged (fun _ => Or.inl) (.inr rfl)
      refine waits.ack psn verdict (fun _ => Or.symm) fun older newer another status split is near _ => ?_
      rcases split_append split with ⟨rfl, rfl, same⟩ | ⟨earlier, rfl, before⟩
      · cases same
        exact Option.some.inj (answers.symm.trans is)
      · have here : passed ++ [(psn, passage)] = passed ++ (psn, passage) :: [] := rfl
        have same := later.unique split here near (by
          rw [before, List.length_append]
          omega)
        rw [before, List.length_append, List.length_cons] at same
        omega
  | read =>
      exact logged.pass _ .read (fun _ => id) (fun is => absurd rfl is) (List.append_nil _).symm rfl
  | expire found quit =>
      exact logged.pass _ .expire (fun _ => id) (fun _ => .inl rfl) (List.append_nil _).symm rfl

theorem Acts.logged {now : List Passed} (acts : Acts env True owed q now next)
    (recorded : Recorded start passed q) (logged : Logged from' (owed = some ·) passed q) :
    Logged from' (owed = some ·) (passed ++ now) next := by
  induction acts generalizing passed with
  | refl => rwa [List.append_nil]
  | tail first act ih =>
      rw [← List.append_assoc]
      exact act.logged (first.recorded recorded) (ih recorded logged)
  | @finish q mid next last before now psn passage verdict first passes answers rest ih later =>
      have reached := first.recorded recorded
      have passed' := passes.recorded reached
      have through := later passed' (passes.logged (ih recorded logged) (fun _ is => by cases is) rfl)
      have final := rest.recorded passed'
      have split : passed ++ before ++ [(psn, passage)] ++ now =
          (passed ++ before) ++ (psn, passage) :: now := by simp
      rw [← List.append_assoc, ← split]
      exact final.settle split answers (acts_skip rest) through

end Logged

/-! ## Duplicates -/

/-- A fragment of a SEND or WRITE with the PSN that passes validation and is not suppressed. -/
def Rx.Repeats (q : Rx) (hdr : Header) (psn : Nat) : Prop :=
  hdr.psn % psnMod = psn ∧ q.validEndpoint hdr = true ∧ q.rnrSuppresses hdr psn = false ∧
    match hdr.opcode with
    | .send | .sendImm => sendBadHeader hdr = false ∧ (q.cfg.striping = true →
        (rxFragmentShape hdr.immData hdr.fragOffset hdr.length (hasFlag hdr.flags fLast)).isSome)
    | .rdmaWrite | .rdmaWriteImm => writeBadHeader q.remoteWrite hdr = false
    | _ => False

instance (q : Rx) (hdr : Header) (psn : Nat) : Decidable (q.Repeats hdr psn) := by
  unfold Rx.Repeats
  cases hdr.opcode <;> exact inferInstance

variable {hdr : Header} {payload : List UInt8} {psn : Nat}

theorem handleStriped_past (past : psnDelta psn q.expectedPsn < 0)
    (shaped : (rxFragmentShape hdr.immData hdr.fragOffset hdr.length
      (hasFlag hdr.flags fLast)).isSome) : q.handleStriped env hdr psn payload = q.reack psn := by
  obtain ⟨⟨idx, count⟩, shape⟩ := Option.isSome_iff_exists.mp shaped
  unfold Rx.handleStriped
  dsimp only
  rw [shape]
  dsimp only
  rw [if_pos past]

theorem handleOrdered_past (past : psnDelta psn q.expectedPsn < 0)
    (here : ∀ m, q.rxMsg = some m → m.psn = q.expectedPsn) :
    q.handleOrdered env hdr psn payload = q.reack psn := by
  have differs : psn ≠ q.expectedPsn := ne_of_psnDelta (by omega)
  unfold Rx.handleOrdered
  dsimp only
  split
  · rename_i m active
    have other : m.sameMessage hdr psn = false := by
      have apart : m.psn ≠ psn := fun same => differs (same ▸ here m active)
      simp [RxMessage.sameMessage, apart]
    rw [if_neg (by simp [other]), if_pos past]
  · rw [if_pos (by simp [differs])]
    unfold Rx.bufferFragment
    dsimp only
    rw [if_pos past]

theorem handleWrite_past (past : psnDelta psn q.expectedPsn < 0) :
    q.handleWrite env hdr psn payload = q.reack psn := by
  unfold Rx.handleWrite
  dsimp only
  rw [if_pos past]

/-- A fragment behind the expected PSN is answered out of the table. -/
theorem rxFrame_past (past : psnDelta psn q.expectedPsn < 0) (repeats : q.Repeats hdr psn)
    (here : ∀ m, q.rxMsg = some m → m.psn = q.expectedPsn) :
    ∃ rnr, q.rxFrame env hdr payload = { q with rnr }.reack psn := by
  obtain ⟨is, valid, heard, accepted⟩ := repeats
  obtain ⟨rnr, cleared⟩ := @clearRnr_same q hdr.srcQp psn
  refine ⟨rnr, ?_⟩
  have send (good : sendBadHeader hdr = false ∧ (q.cfg.striping = true →
      (rxFragmentShape hdr.immData hdr.fragOffset hdr.length (hasFlag hdr.flags fLast)).isSome)) :
      q.handleSendFragment env hdr payload = { q with rnr }.reack psn := by
    unfold Rx.handleSendFragment
    dsimp only
    rw [is, if_neg (by simp [good.1]), if_neg (by simp [heard]), cleared]
    split
    · rename_i striping
      exact @handleStriped_past env { q with rnr } hdr payload psn past (good.2 striping)
    · exact @handleOrdered_past env { q with rnr } hdr payload psn past here
  have write (good : writeBadHeader q.remoteWrite hdr = false) :
      q.handleRdmaWriteFragment env hdr payload = { q with rnr }.reack psn := by
    unfold Rx.handleRdmaWriteFragment
    dsimp only
    rw [is, if_neg (by simp [good]), if_neg (by simp [heard]), cleared]
    exact @handleWrite_past env { q with rnr } hdr payload psn past
  unfold Rx.rxFrame
  split at accepted
  all_goals rename_i opcode
  · rw [opcode]
    exact (if_pos valid).trans (send accepted)
  · rw [opcode]
    exact (if_pos valid).trans (send accepted)
  · rw [opcode]
    exact (if_pos valid).trans (write accepted)
  · rw [opcode]
    exact (if_pos valid).trans (write accepted)
  · exact accepted.elim

/-- The answer to a duplicate of one of the last 1024 operations. -/
theorem Recorded.answers (recorded : Recorded start passed q) {older newer : List Passed}
    {passage : Passage} {verdict : SendAckStatus}
    (split : passed = older ++ (psn, passage) :: newer) (is : passage.verdict = some verdict)
    (near : newer.length < ackHistorySize) (repeats : q.Repeats hdr psn) :
    ∃ rnr, q.rxFrame env hdr payload = { q with rnr }.note (.ack psn verdict q.consumed) := by
  obtain ⟨rnr, answered⟩ :=
    @rxFrame_past env q hdr payload psn (recorded.past split near) repeats recorded.here
  have found : { q with rnr }.ackHistoryLookup psn = some verdict := recorded.found split is near
  refine ⟨rnr, answered.trans ?_⟩
  unfold Rx.reack
  rw [found]
  rfl

/-! ## Runs -/

/-- Nothing is assembled and nothing is buffered. -/
structure Rx.Fresh (q : Rx) : Prop where
  bounded : q.Bounded
  message : q.rxMsg = none
  write : q.rxWrite = none
  reorder : q.reorder = []

theorem Rx.Fresh.recorded (fresh : q.Fresh) : Recorded q.expectedPsn [] q where
  expected := (Nat.mod_eq_of_lt fresh.bounded).symm
  psns := fun older newer one split => by cases older <;> cases split
  slots := fun older newer psn passage verdict split => by cases older <;> cases split
  here := fun m active => by
    rw [fresh.message] at active
    cases active
  alone := fun active => absurd fresh.message active

/-- What a QP is before its first frame. -/
theorem Rx.Fresh.modify {attrs : Attrs} (fresh : q.Fresh) (modified : q.modify env attrs = some next) :
    next.Fresh := by
  have stored : (q.setAttrs attrs).Fresh := by
    refine ⟨?_, fresh.message, fresh.write, fresh.reorder⟩
    unfold Rx.setAttrs Rx.Bounded
    cases attrs.rqPsn with
    | none => exact fresh.bounded
    | some psn => exact mod_psnMod_lt psn
  have flushed : ((q.setAttrs attrs).flushError env).Fresh := by
    unfold Rx.flushError
    rw [stored.message]
    dsimp only
    rw [stored.write]
    obtain ⟨log, is⟩ := @flushRecvWqes_same env
      { q.setAttrs attrs with reorder := [], reorderCount := 0, reorderBytes := 0 }
    dsimp only
    rw [is]
    exact ⟨stored.bounded, stored.message, stored.write, rfl⟩
  have advertised : ∀ q : Rx, q.Fresh → (q.advertiseRecvCredits env).Fresh := fun q fresh => by
    unfold Rx.advertiseRecvCredits
    repeat' split
    all_goals exact ⟨fresh.bounded, fresh.message, fresh.write, fresh.reorder⟩
  unfold Rx.modify at modified
  dsimp only at modified
  split at modified
  · cases modified
  cases modified
  split
  all_goals split
  all_goals first
    | exact advertised _ flushed
    | exact advertised _ stored
    | exact flushed
    | exact stored

theorem fresh_created (cfg : RxConfig) : (Rx.created cfg).Fresh :=
  ⟨Nat.two_pow_pos 24, rfl, rfl, rfl⟩

/-- The step is no modify, and a frame does not carry the PSN of an operation of another kind
that is being assembled. -/
def Rx.Orderly (q : Rx) (label : Env × Happening) : Prop :=
  match label.2 with
  | .input (.frame hdr _) => q.Apart hdr
  | .modify _ => False
  | _ => True

/-- The steps from one state to another, with what the expected PSN passes in their acts. -/
inductive History (start : Rx) : List Passed → Rx → Prop
  | start : History start [] start
  | step {passed now : List Passed} {q : Rx} {label : Env × Happening} :
      History start passed q → q.Orderly label →
      Acts label.1 True none q now (q.happen label.1 label.2) →
      History start (passed ++ now) (q.happen label.1 label.2)

theorem Recorded.single (recorded : Recorded start passed q) : q.Single := by
  intro w active here
  by_contra message
  exact (recorded.alone message).2 w active here

/-- Every step of an orderly run is made of acts. -/
theorem Recorded.does (recorded : Recorded start passed q) {label : Env × Happening}
    (orderly : q.Orderly label) : Does label.1 True none q (q.happen label.1 label.2) := by
  obtain ⟨env, happening⟩ := label
  cases happening with
  | input input =>
      cases input with
      | frame hdr payload =>
          exact does_rxFrame hdr payload recorded.bounded (fun _ => recorded.here) fun _ => orderly
      | post wqe => exact does_postOne wqe
      | advertise => exact does_advertiseRecvCredits
      | drain => exact does_drainReorder
  | reap expiry => exact does_timeoutReap expiry fun _ => recorded.single
  | markError => exact does_markError
  | modify attrs => exact orderly.elim

theorem History.recorded {start : Rx} (fresh : start.Fresh) {passed : List Passed}
    (history : History start passed q) : Recorded start.expectedPsn passed q := by
  induction history with
  | start => exact fresh.recorded
  | step _ _ acts ih => exact acts.recorded ih

theorem exists_history {start : Rx} (fresh : start.Fresh)
    (reached : Reaches rxStep Rx.Orderly start q) : ∃ passed, History start passed q := by
  induction reached with
  | init => exact ⟨[], .start⟩
  | step _ orderly stepped ih =>
      obtain ⟨passed, history⟩ := ih
      cases Option.some.inj stepped
      obtain ⟨now, acts⟩ := (history.recorded fresh).does orderly
      exact ⟨passed ++ now, history.step orderly acts⟩

theorem History.logged {start : Rx} (fresh : start.Fresh) {passed : List Passed}
    (history : History start passed q) : Logged start (none = some ·) passed q := by
  induction history with
  | start => exact logged_start
  | step before _ acts ih => exact acts.logged (before.recorded fresh) ih

/-- The operations that were passed since `start` have the PSNs one after another, and the
completion of each stands in the log where it was passed. -/
structure Tells (start q : Rx) (passed : List Passed) (log : List Entry) : Prop where
  grown : q.log = start.log ++ log
  consumed : q.consumed = start.consumed + passed.length
  expected : q.expectedPsn = (start.expectedPsn + passed.length) % psnMod
  psns : ∀ (older newer : List Passed) (one : Passed), passed = older ++ one :: newer →
    one.1 = (start.expectedPsn + older.length) % psnMod
  placed : ∀ (older newer : List Passed) (psn : Nat) (passage : Passage),
    passed = older ++ (psn, passage) :: newer →
      Placed (start.consumed + older.length) passage.report log

/-- A duplicate of one of the last 1024 operations is answered once, with the verdict on the way
in which it was passed, and changes nothing else.  The first acknowledgement after the operation
was passed carries the same verdict; what has expired is not acknowledged at first. -/
def AnswersDuplicates (start q : Rx) (passed : List Passed) (log : List Entry) : Prop :=
  ∀ (older newer : List Passed) (psn : Nat) (passage : Passage) (verdict : SendAckStatus),
    passed = older ++ (psn, passage) :: newer → passage.verdict = some verdict →
      newer.length < ackHistorySize →
        (firstAck log psn (start.consumed + older.length) = some verdict ∨
          (firstAck log psn (start.consumed + older.length) = none ∧ passage = .expire)) ∧
        ∀ (env : Env) (hdr : Header) (payload : List UInt8), q.Repeats hdr psn →
          ∃ rnr, q.rxFrame env hdr payload = { q with rnr }.note (.ack psn verdict q.consumed)

end Recorded

/-! ## A SEND and a WRITE of one PSN -/

namespace Collision

def env : Env where
  allocMsg := true
  allocFrag := true
  cqFull := false
  recvMr := fun _ _ => true
  mr := fun _ => some true
  iova := fun _ _ _ => true
  creditSent := true

def connect : Attrs :=
  { state := some .rtr, remoteWrite := some true, destQp := some 2, rqPsn := some 0 }

def ready : Rx := (Rx.created ⟨1, 4, false⟩).happen env (.modify connect)

def send (offset : Nat) (flags : UInt8) : Header :=
  { opcode := .send, destQp := 1, srcQp := 2, flags, length := 1, immData := 2,
    fragOffset := offset }

def write (psn : Nat) : Header :=
  { opcode := .rdmaWrite, destQp := 1, srcQp := 2, psn, flags := fLast, length := 1, immData := 1,
    rkey := 7 }

def frame (hdr : Header) : Env × Happening := (env, .input (.frame hdr [9]))

def post : Env × Happening := (env, .input (.post ⟨1, 0, 64, 0⟩))

/-- The second half of a SEND arrives when the write with its PSN and the next one are done. -/
def labels : List (Env × Happening) :=
  [post, frame (send 0 0), frame (write 0), frame (write 1), frame (send 1 fLast)]

def served : Rx := (run rxStep labels ready).getD ready

/-- The frame finds the receive buffers deregistered. -/
def unbacked (hdr : Header) : Env × Happening :=
  ({ env with recvMr := fun _ _ => false }, .input (.frame hdr [9]))

/-- A SEND of two fragments fails, and the write after it is done. -/
def failing : List (Env × Happening) :=
  [post, unbacked (send 0 0), unbacked (send 1 fLast), frame (write 1)]

def failed : Rx := failing.foldl (fun q label => q.happen label.1 label.2) ready

theorem run_rxStep (labels : List (Env × Happening)) (q : Rx) : run rxStep labels q =
    some (labels.foldl (fun q label => q.happen label.1 label.2) q) := by
  induction labels generalizing q with
  | nil => rfl
  | cons label rest ih => exact ih _

theorem failing_orderly : Meets rxStep Rx.Orderly failing ready := by
  refine ⟨trivial, fun _ is => ?_⟩
  cases is
  refine ⟨fun _ active => (by cases active), fun _ is => ?_⟩
  cases is
  refine ⟨fun _ active => (by cases active), fun _ is => ?_⟩
  cases is
  exact ⟨fun _ active => (by cases active), fun _ _ => trivial⟩

example : failed.log = [.recv ⟨1, 0, 64, 0⟩ .locProtErr none [], .ack 0 .error 1,
    .wrote 7 0 [9], .ack 1 .ok 2] := by decide

theorem ready_fresh : ready.Fresh :=
  @Rx.Fresh.modify env _ _ connect (fresh_created ⟨1, 4, false⟩) rfl

end Collision

end Tbv.RecvQueue
