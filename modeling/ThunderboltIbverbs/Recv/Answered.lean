import ThunderboltIbverbs.Recv.Reap
import ThunderboltIbverbs.Lib.Trail

/-! # The acknowledgements in the log

The first acknowledgement of an operation that is sent once the operation is passed, against the
way in which it was passed.  Every acknowledgement in the log carries the number of operations
that were passed before it. -/
set_option autoImplicit false
namespace Tbv.RecvQueue

open Trans
open Tbv.NativeData

/-- The status in an acknowledgement of the PSN that was sent later than the given count. -/
def Entry.answers (psn count : Nat) : Entry → Option SendAckStatus
  | .ack other status consumed => if other = psn ∧ count < consumed then some status else none
  | _ => none

/-- The first acknowledgement of the PSN that is sent later than the given count. -/
def firstAck (log : List Entry) (psn count : Nat) : Option SendAckStatus :=
  log.findSome? (Entry.answers psn count)

/-- The report stands between the acknowledgements that are sent up to the count and those that
are sent later. -/
def Placed (count : Nat) (report log : List Entry) : Prop :=
  ∃ before after, log = before ++ report ++ after ∧
    (∀ psn status consumed, .ack psn status consumed ∈ before → consumed ≤ count) ∧
    ∀ psn status consumed, .ack psn status consumed ∈ after → count < consumed

section Lists
variable {base : Nat} {owes : Nat → Prop} {passed : List Passed} {log more : List Entry}
  {psn count : Nat}

theorem firstAck_append : firstAck (log ++ more) psn count =
    (firstAck log psn count).or (firstAck more psn count) := List.findSome?_append

theorem firstAck_plain {entry : Entry} (plain : entry.isAck = false) :
    firstAck [entry] psn count = none := by
  cases entry with
  | ack => cases plain
  | recv | recvImm | wrote | readReq | retryReadResp | readStatus | credit | accepted => rfl

theorem firstAck_ack (other consumed : Nat) (status : SendAckStatus) :
    firstAck [.ack other status consumed] psn count =
      if other = psn ∧ count < consumed then some status else none := by
  unfold firstAck Entry.answers
  rw [List.findSome?_singleton]

theorem firstAck_early
    (early : ∀ other status consumed, .ack other status consumed ∈ log → consumed ≤ count) :
    firstAck log psn count = none := by
  refine List.findSome?_eq_none_iff.mpr fun entry among => ?_
  cases entry with
  | ack other status consumed =>
      have late : ¬ count < consumed := Nat.not_lt.mpr (early other status consumed among)
      simp [Entry.answers, late]
  | recv | recvImm | wrote | readReq | retryReadResp | readStatus | credit | accepted => rfl

theorem Placed.append {report : List Entry} (placed : Placed count report log)
    (later : ∀ psn status consumed, .ack psn status consumed ∈ more → count < consumed) :
    Placed count report (log ++ more) := by
  obtain ⟨before, after, rfl, early, late⟩ := placed
  refine ⟨before, after ++ more, by simp, early, fun psn status consumed among => ?_⟩
  rcases List.mem_append.mp among with old | new
  · exact late psn status consumed old
  · exact later psn status consumed new

theorem isAck_of_report {passage : Passage} {entry : Entry} (among : entry ∈ passage.report) :
    entry.isAck = false := by
  unfold Passage.report at among
  split at among
  · rw [List.mem_singleton.mp among]
    rfl
  · rw [List.mem_singleton.mp among]
    rfl
  · cases among

theorem firstAck_report (passage : Passage) : firstAck passage.report psn count = none := by
  refine List.findSome?_eq_none_iff.mpr fun entry among => ?_
  have plain := isAck_of_report among
  cases entry with
  | ack => cases plain
  | recv | recvImm | wrote | readReq | retryReadResp | readStatus | credit | accepted => rfl

/-- What the log says of the operations that were passed since the count was `base`.  Of those
which `owes` names it may say nothing yet. -/
structure Told (base : Nat) (owes : Nat → Prop) (passed : List Passed) (log : List Entry) :
    Prop where
  counted : ∀ psn status consumed, .ack psn status consumed ∈ log →
    consumed ≤ base + passed.length
  placed : ∀ (older newer : List Passed) (psn : Nat) (passage : Passage),
    passed = older ++ (psn, passage) :: newer → Placed (base + older.length) passage.report log
  first : ∀ (older newer : List Passed) (psn : Nat) (passage : Passage) (verdict : SendAckStatus),
    passed = older ++ (psn, passage) :: newer → passage.verdict = some verdict →
      newer.length < ackHistorySize →
        firstAck log psn (base + older.length) = some verdict ∨
          (firstAck log psn (base + older.length) = none ∧ (passage = .expire ∨ owes psn))

theorem length_split {older newer : List Passed} {one : Passed}
    (split : passed = older ++ one :: newer) :
    passed.length = older.length + newer.length + 1 := by
  rw [split, List.length_append, List.length_cons]
  rfl

/-- What is no acknowledgement is added. -/
theorem Told.plain (told : Told base owes passed log) {entry : Entry} (plain : entry.isAck = false) :
    Told base owes passed (log ++ [entry]) where
  counted := fun psn status consumed among => by
    rcases List.mem_append.mp among with old | new
    · exact told.counted psn status consumed old
    · rw [← List.mem_singleton.mp new] at plain
      cases plain
  placed := fun older newer psn passage split =>
    (told.placed older newer psn passage split).append fun psn status consumed among => by
      rw [← List.mem_singleton.mp among] at plain
      cases plain
  first := fun older newer psn passage verdict split is near => by
    rw [firstAck_append, firstAck_plain plain, Option.or_none]
    exact told.first older newer psn passage verdict split is near

/-- An acknowledgement is added which agrees with the way in which the operation was passed. -/
theorem Told.ack {now : Nat → Prop} (told : Told base owes passed log) (psn : Nat)
    (status : SendAckStatus) (settles : ∀ other, owes other → other = psn ∨ now other)
    (agrees : ∀ (older newer : List Passed) (passage : Passage) (verdict : SendAckStatus),
      passed = older ++ (psn, passage) :: newer → passage.verdict = some verdict →
        newer.length < ackHistorySize → passage = .expire ∨ owes psn → status = verdict) :
    Told base now passed (log ++ [.ack psn status (base + passed.length)]) where
  counted := fun psn status consumed among => by
    rcases List.mem_append.mp among with old | new
    · exact told.counted psn status consumed old
    · cases List.mem_singleton.mp new
      exact Nat.le_refl _
  placed := fun older newer psn passage split =>
    (told.placed older newer psn passage split).append fun psn status consumed among => by
      cases List.mem_singleton.mp among
      have length := length_split split
      omega
  first := fun older newer other passage verdict split is near => by
    have length := length_split split
    rw [firstAck_append, firstAck_ack]
    rcases told.first older newer other passage verdict split is near with first | ⟨unsaid, silent⟩
    · rw [first, Option.some_or]
      exact .inl rfl
    rw [unsaid, Option.none_or]
    by_cases same : psn = other
    · subst same
      rw [if_pos ⟨rfl, by omega⟩, agrees older newer passage verdict split is near silent]
      exact .inl rfl
    · rw [if_neg fun both => same both.1]
      refine .inr ⟨rfl, silent.imp_right fun waits => ?_⟩
      exact (settles other waits).resolve_left fun is => same is.symm

/-- One more operation is passed, and its completion is added. -/
theorem Told.pass (told : Told base owes passed log) (psn : Nat) (passage : Passage)
    {now : Nat → Prop} (still : ∀ other, owes other → now other)
    (silent : passage.verdict ≠ none → passage = .expire ∨ now psn) :
    Told base now (passed ++ [(psn, passage)]) (log ++ passage.report) where
  counted := fun psn status consumed among => by
    rw [List.length_append, List.length_singleton]
    rcases List.mem_append.mp among with old | new
    · have early := told.counted psn status consumed old
      omega
    · cases isAck_of_report new
  placed := fun older newer psn passage split => by
    rcases split_append split with ⟨rfl, rfl, same⟩ | ⟨earlier, -, before⟩
    · cases same
      exact ⟨log, [], by simp, told.counted, fun _ _ _ among => by cases among⟩
    · exact (told.placed older earlier psn passage before).append
        fun psn status consumed among => by cases isAck_of_report among
  first := fun older newer other another verdict split is near => by
    rw [firstAck_append, firstAck_report, Option.or_none]
    rcases split_append split with ⟨rfl, rfl, same⟩ | ⟨earlier, rfl, before⟩
    · cases same
      refine .inr ⟨firstAck_early told.counted, silent ?_⟩
      rw [is]
      exact Option.some_ne_none _
    · rw [List.length_append, List.length_singleton] at near
      exact (told.first older earlier other another verdict before is (by omega)).imp_right
        fun ⟨unsaid, quiet⟩ => ⟨unsaid, quiet.imp_right (still other)⟩

end Lists

/-- The log since `start` and what it says of what was passed since then. -/
def Logged (start : Rx) (owes : Nat → Prop) (passed : List Passed) (q : Rx) : Prop :=
  q.consumed = start.consumed + passed.length ∧
    ∃ log, q.log = start.log ++ log ∧ Told start.consumed owes passed log

section Logged
variable {start q next : Rx} {owes : Nat → Prop} {passed : List Passed}

theorem logged_start : Logged start owes [] start := by
  refine ⟨rfl, [], (List.append_nil _).symm, ?_, ?_, ?_⟩
  · exact fun _ _ _ among => by cases among
  · exact fun older _ _ _ split => by cases older <;> cases split
  · exact fun older _ _ _ _ split => by cases older <;> cases split

theorem Logged.keep (logged : Logged start owes passed q) (log : next.log = q.log)
    (consumed : next.consumed = q.consumed) : Logged start owes passed next := by
  unfold Logged
  rwa [log, consumed]

theorem Logged.plain (logged : Logged start owes passed q) {entry : Entry}
    (plain : entry.isAck = false) : Logged start owes passed (q.note entry) := by
  obtain ⟨consumed, log, grown, told⟩ := logged
  refine ⟨consumed, log ++ [entry], ?_, told.plain plain⟩
  rw [Rx.note, grown, List.append_assoc]

theorem Logged.ack {now : Nat → Prop} (logged : Logged start owes passed q) (psn : Nat)
    (status : SendAckStatus) (settles : ∀ other, owes other → other = psn ∨ now other)
    (agrees : ∀ (older newer : List Passed) (passage : Passage) (verdict : SendAckStatus),
      passed = older ++ (psn, passage) :: newer → passage.verdict = some verdict →
        newer.length < ackHistorySize → passage = .expire ∨ owes psn → status = verdict) :
    Logged start now passed (q.sendAck psn status) := by
  obtain ⟨consumed, log, grown, told⟩ := logged
  refine ⟨consumed, _, ?_, told.ack psn status settles agrees⟩
  rw [Rx.sendAck, Rx.note, grown, List.append_assoc, consumed]

theorem Logged.pass {now : Nat → Prop} (logged : Logged start owes passed q) (psn : Nat)
    (passage : Passage) (still : ∀ other, owes other → now other)
    (silent : passage.verdict ≠ none → passage = .expire ∨ now psn)
    (log : next.log = q.log ++ passage.report) (moved : next.consumed = q.consumed + 1) :
    Logged start now (passed ++ [(psn, passage)]) next := by
  obtain ⟨consumed, before, grown, told⟩ := logged
  refine ⟨?_, before ++ passage.report, ?_, told.pass psn passage still silent⟩
  · rw [moved, consumed, List.length_append, List.length_singleton, Nat.add_assoc]
  · rw [log, grown, List.append_assoc]

end Logged

/-- While the acknowledgement of an operation waits, no other one of its PSN is passed. -/
theorem acts_skip {env : Env} {apart : Prop} {q next : Rx} {psn : Nat} {now : List Passed}
    (acts : Acts env apart (some psn) q now next) : ∀ one ∈ now, one.1 ≠ psn := by
  generalize owes : some psn = owed at acts
  induction acts with
  | refl => exact fun _ among => by cases among
  | tail _ act ih =>
      intro one among
      rcases List.mem_append.mp among with before | last
      · exact ih owes one before
      · cases act with
        | pass _ other =>
            cases List.mem_singleton.mp last
            exact fun same => other (owes.symm.trans (congrArg some same.symm))
        | read _ other =>
            cases List.mem_singleton.mp last
            exact fun same => other (owes.symm.trans (congrArg some same.symm))
        | expire _ quit =>
            rw [quit] at owes
            cases owes
        | aside | note | reack | notReady | refuse | fail | setRnr | assemble | activate
        | endWrite | prune | unlink | flush | add | store => cases last
  | finish => cases owes

end Tbv.RecvQueue
