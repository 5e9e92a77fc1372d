import Mathlib.Data.List.Nodup
import ThunderboltIbverbs.Tx.Kinds

/-! # Every accepted packet is retired once

The balance of packets gives at most one `done`, and none while a descriptor is submitted.
A cancel finds the packets of its owner on the queue or attached to a descriptor; the one
place where it does not look is the scheduler's own hand, between the dequeue and the
attachment and, after a refusal, between the detachment and the put-back. -/
set_option autoImplicit false
namespace Tbv.Tx

open Threads Trans
open NativePath (ecanceled)

def calls (p : Path) (id : Nat) : Nat := (p.released.map Prod.fst).count id

def OnPath (st : St) (id : Nat) : Prop :=
  (∃ pkt ∈ st.shared.txControlQueue ++ st.shared.txDataQueue, pkt.id = id) ∨
  (∃ desc ∈ st.shared.ring, desc.pkt.id = id) ∨ ∃ frame, st.Has frame ∧ packetWeight id frame = 1

structure RetiredOnce (st : St) : Prop where
  atMost : ∀ pkt ∈ st.shared.owed, calls st.shared pkt.id ≤ 1
  kept : ∀ pkt ∈ st.shared.owed, calls st.shared pkt.id = 0 → OnPath st pkt.id
  submitted : ∀ desc ∈ st.shared.ring, calls st.shared desc.pkt.id = 0
  status : ∀ id, (id, 0) ∈ st.shared.released → id ∈ st.shared.completed ∧ id ∉ st.shared.covered
  refused : ∀ id ∈ st.shared.refused, calls st.shared id = 0
  streams : ∀ pkt ∈ st.shared.failed,
    (∀ other status, st.Has (.release other status) → other.id ≠ pkt.id) → calls st.shared pkt.id = 1
  destroyed : st.shared.flushed = true → st.shared.ring = [] → (∀ frame, ¬ st.Has frame) →
    ∀ pkt ∈ st.shared.owed, calls st.shared pkt.id = 1

/-- A packet in the scheduler's hand that nothing else shows. -/
def unattached : Frame → Option TxPacket
  | .attach hand => some hand.pkt
  | .takeBack hand _ => if hand.frame.isSome then some hand.pkt else none
  | _ => none

def cancels (st : St) : Lbl → Option Match
  | .run thread _ =>
      match st.top thread with
      | some (.cancel m) => some m
      | _ => none
  | .event _ => none

/-- No cancel comes between while the scheduler has one of its packets in hand. -/
def InSight (st : St) (label : Lbl) : Prop :=
  ∀ m ∈ cancels st label, ¬ ∃ frame, st.Has frame ∧
    (unattached frame).any (fun pkt => !pkt.control && m.covers pkt) = true

instance (st : St) (label : Lbl) : Decidable (InSight st label) :=
  inferInstanceAs (Decidable (∀ m ∈ cancels st label, _))

/-! ## Statuses -/

def errorOf : Frame → Option Int
  | .detach _ ret | .takeBack _ ret => some ret
  | .release _ status | .cancelQueued status => some status
  | _ => none

/-- What is known of the status a packet will be, or was, given back with. -/
structure Statuses (st : St) : Prop where
  errors : ∀ frame status, st.Has frame → errorOf frame = some status → status ≠ 0
  completing : ∀ pkt canceled, st.Has (.completed pkt canceled) →
    pkt.id ∈ st.shared.retired ∧ (canceled = false → pkt.id ∈ st.shared.completed)
  done : ∀ id, (id, 0) ∈ st.shared.released → id ∈ st.shared.retired ∧ id ∈ st.shared.completed

theorem errorOf_releases {pkts : List TxPacket} {ret : Int} (error : ret ≠ 0) :
    ∀ other ∈ releases pkts ret, ∀ status, errorOf other = some status → status ≠ 0 := by
  rintro other among status is
  obtain ⟨pkt, -, rfl⟩ := List.mem_map.mp among
  cases is
  exact error

theorem not_completed_of_releases {pkts : List TxPacket} {ret : Int} {pkt : TxPacket}
    {canceled : Bool} : .completed pkt canceled ∉ releases pkts ret := by
  intro among
  obtain ⟨_, -, is⟩ := List.mem_map.mp among
  cases is

structure Notes (p p' : Path) (frame : Frame) (pushed : List Frame) : Prop where
  errors : ∀ other ∈ pushed, ∀ status, errorOf other = some status → status ≠ 0
  completing : ∀ pkt canceled, .completed pkt canceled ∈ pushed →
    pkt.id ∈ p'.retired ∧ (canceled = false → pkt.id ∈ p'.completed)
  released : ∀ call ∈ p'.released, call ∈ p.released ∨ call.2 ≠ 0 ∨
    ∃ pkt, frame = .completed pkt false ∧ call.1 = pkt.id ∧ pkt.id ∉ p.canceled
  kept : ∀ call ∈ p.released, call ∈ p'.released
  retired : ∀ id ∈ p.retired, id ∈ p'.retired
  completed : ∀ id ∈ p.completed, id ∈ p'.completed
  called : ∀ pkt canceled, .completed pkt canceled ∈ pushed →
    ∃ desc, frame = .callback desc canceled ∧ p.descPacket desc = some pkt

section Exec
variable {p p' : Path} {frame : Frame} {choice : Choice} {pushed : List Frame}

/-- A section that gives nothing back. -/
theorem notes_none (released : p'.released = p.released) (retired : p'.retired = p.retired)
    (completed : p'.completed = p.completed)
    (errors : ∀ other ∈ pushed, ∀ status, errorOf other = some status → status ≠ 0)
    (none : ∀ pkt canceled, .completed pkt canceled ∉ pushed) : Notes p p' frame pushed where
  errors := errors
  completing := fun pkt canceled among => absurd among (none pkt canceled)
  released := fun _ among => .inl (released ▸ among)
  kept := fun _ among => released ▸ among
  retired := fun _ among => retired ▸ among
  completed := fun _ among => completed ▸ among
  called := fun pkt canceled among => absurd among (none pkt canceled)

theorem exec_notes (error : ∀ status, errorOf frame = some status → status ≠ 0)
    (ran : exec p frame choice = some (p', pushed)) : Notes p p' frame pushed := by
  cases frame with
  | iterate =>
      rcases execIterate_cases ran with ⟨rfl, rfl⟩ | ⟨_, _, -, -, -, rfl, rfl⟩
      · exact notes_none rfl rfl rfl (by simp) (by simp)
      · exact notes_none rfl rfl rfl (by simp [errorOf]) (by simp)
  | takeBack hand ret =>
      have nonzero := error ret rfl
      rcases execTakeBack_cases ran with ⟨-, rfl, -, rfl⟩ | ⟨-, rfl, -, rfl⟩ | ⟨rfl, rfl⟩
      · exact notes_none rfl rfl rfl (by simp [errorOf]) (by simp)
      · exact notes_none rfl rfl rfl (by simp [errorOf]) (by simp)
      · refine notes_none rfl rfl rfl ?_ ?_
        · split <;> simp [errorOf, nonzero]
        · split <;> simp
  | ringTx hand =>
      simp only [exec, execRingTx] at ran
      split at ran
      · split at ran <;> cases ran
        exact notes_none rfl rfl rfl (by simp [errorOf]) (by simp)
      · rename_i failed
        split at ran <;> cases ran
        · exact notes_none rfl rfl rfl (by simp [errorOf, failed]) (by simp)
        · exact notes_none rfl rfl rfl (by simp [errorOf, failed]) (by simp)
  | detach hand ret =>
      have nonzero := error ret rfl
      simp only [exec] at ran
      split at ran <;> cases ran
      exact notes_none rfl rfl rfl (by simp [errorOf, nonzero]) (by simp)
  | callback desc canceled =>
      have freed : (p.freeDesc desc).released = p.released ∧
          (p.freeDesc desc).retired = p.retired ∧ (p.freeDesc desc).completed = p.completed := by
        unfold Path.freeDesc
        split <;> exact ⟨rfl, rfl, rfl⟩
      rcases execCallback_cases ran with ⟨-, rfl, rfl⟩ | ⟨pkt, finds, rfl, rfl⟩
      · exact notes_none freed.1 freed.2.1 freed.2.2 (by simp [errorOf]) (by simp)
      · have only : ∀ {other : TxPacket} {flag : Bool}, .completed other flag ∈
            [Frame.finishRawStream pkt, .completed pkt canceled, .inflightDec, .schedule] →
            other = pkt ∧ flag = canceled := by
          intro other flag among
          simpa using among
        refine ⟨by simp [errorOf], ?_, fun call among => .inl (freed.1 ▸ among),
          fun call among => ?_, fun id among => ?_, fun id among => ?_, ?_⟩
        · rintro other flag among
          obtain ⟨rfl, rfl⟩ := only among
          refine ⟨by simp [Path.noteRetired], fun whole => by simp [Path.noteRetired, whole]⟩
        · exact freed.1.symm ▸ among
        · simp only [Path.noteRetired, freed.2.1, List.mem_append]
          exact .inl among
        · simp only [Path.noteRetired, freed.2.2]
          split
          · exact among
          · exact List.mem_append_left _ among
        · rintro other flag among
          obtain ⟨rfl, rfl⟩ := only among
          exact ⟨desc, rfl, finds⟩
  | release pkt status =>
      cases ran
      refine ⟨by simp, by simp, fun call among => ?_, fun call among => List.mem_append_left _ among,
        fun _ => id, fun _ => id, by simp⟩
      rcases List.mem_append.mp among with old | new
      · exact .inl old
      · cases List.mem_singleton.mp new
        exact .inr (.inl (error status rfl))
  | completed pkt canceled =>
      cases ran
      refine ⟨by simp, by simp, fun call among => ?_, fun call among => List.mem_append_left _ among,
        fun _ => id, fun _ => id, by simp⟩
      rcases List.mem_append.mp among with old | new
      · exact .inl old
      · cases List.mem_singleton.mp new
        cases canceled with
        | true => exact .inr (.inl (by simp [ecanceled]))
        | false =>
            by_cases marked : pkt.id ∈ p.canceled
            · exact .inr (.inl (by simp [marked, ecanceled]))
            · exact .inr (.inr ⟨pkt, rfl, rfl, marked⟩)
  | cancel m =>
      cases ran
      refine notes_none rfl rfl rfl (fun other among => ?_) fun pkt canceled among => ?_
      · rcases List.mem_append.mp among with released | again
        · exact errorOf_releases (by decide) other released
        · split at again
          · cases List.mem_singleton.mp again
            simp [errorOf]
          · cases again
      · rcases List.mem_append.mp among with released | again
        · exact not_completed_of_releases released
        · split at again
          · cases List.mem_singleton.mp again
          · cases again
  | cancelQueued status =>
      cases ran
      exact notes_none rfl rfl rfl (errorOf_releases (error status rfl))
        fun pkt canceled => not_completed_of_releases
  | flush =>
      cases ran
      refine notes_none rfl rfl rfl (fun other among => ?_) fun pkt canceled among => ?_
      · rcases List.mem_append.mp among with released | last
        · exact errorOf_releases (by decide) other released
        · cases List.mem_singleton.mp last
          simp [errorOf]
      · rcases List.mem_append.mp among with released | last
        · exact not_completed_of_releases released
        · cases List.mem_singleton.mp last
  | schedule | attach hand | finishRawStream pkt | stopScheduling | disableTunnel | ringStop
  | ringStopped | inflightDec =>
      simp only [exec, execAttach] at ran
      repeat' split at ran
      all_goals cases ran
      all_goals exact notes_none rfl rfl rfl (by simp [errorOf]) (by simp)

end Exec

/-- An event leaves the history alone and starts no completion. -/
theorem reacts_notes {p p' : Path} {code : List Frame} (reacts : Reacts p p' code) :
    (p'.released = p.released ∧ p'.retired = p.retired ∧ p'.completed = p.completed ∧
      p'.canceled = p.canceled ∧ p'.covered = p.covered) ∧
    (∀ other ∈ code, ∀ status, errorOf other = some status → status ≠ 0) ∧
    ∀ pkt canceled, .completed pkt canceled ∉ code := by
  cases reacts with
  | fail ids fresh each error =>
      refine ⟨⟨rfl, rfl, rfl, rfl, rfl⟩, fun other among status is => ?_, fun pkt canceled among => ?_⟩
      · obtain ⟨call, inside, rfl⟩ := List.mem_map.mp among
        cases is
        exact error call inside
      · obtain ⟨call, -, is⟩ := List.mem_map.mp among
        cases is
  | cancelQueued =>
      refine ⟨⟨rfl, rfl, rfl, rfl, rfl⟩, fun other among status is => ?_, by simp⟩
      cases List.mem_singleton.mp among
      cases is
      decide
  | _ => exact ⟨⟨rfl, rfl, rfl, rfl, rfl⟩, by simp [errorOf], by simp⟩

theorem statuses_start (cfg : Config) : Statuses (start cfg) where
  errors := fun frame status has => by
    obtain ⟨stack, among, -⟩ := has
    cases among
  completing := fun pkt canceled has => by
    obtain ⟨stack, among, -⟩ := has
    cases among
  done := fun id among => absurd among List.not_mem_nil

theorem Statuses.step {st st' : St} {label : Lbl} (statuses : Statuses st)
    (stepped : step st label = some st') : Statuses st' := by
  cases label with
  | event event =>
      obtain ⟨p, code, reacted, rfl⟩ := step_event stepped
      obtain ⟨⟨released, retired, completed, -, -⟩, errors, none⟩ := reacts_notes (react_cases reacted)
      refine ⟨fun frame status has is => ?_, fun pkt canceled has => ?_, ?_⟩
      · rcases State.has_of_event has with new | old
        · exact errors frame new status is
        · exact statuses.errors frame status old is
      · rcases State.has_of_event has with new | old
        · exact absurd new (none pkt canceled)
        · rw [retired, completed]
          exact statuses.completing pkt canceled old
      · rw [released, retired, completed]
        exact statuses.done
  | run thread choice =>
      obtain ⟨frame, rest, p, pushed, found, executed, rfl⟩ := step_run stepped
      have top := State.has_of_top found
      have notes := exec_notes (fun status is => statuses.errors frame status top is) executed
      refine ⟨fun other status has is => ?_, fun pkt canceled has => ?_, fun id among => ?_⟩
      · rcases State.has_of_run found has with new | old
        · exact notes.errors other new status is
        · exact statuses.errors other status old is
      · rcases State.has_of_run found has with new | old
        · exact notes.completing pkt canceled new
        · obtain ⟨retired, completed⟩ := statuses.completing pkt canceled old
          exact ⟨notes.retired _ retired, fun whole => notes.completed _ (completed whole)⟩
      · rcases notes.released _ among with old | error | ⟨pkt, rfl, rfl, -⟩
        · obtain ⟨retired, completed⟩ := statuses.done id old
          exact ⟨notes.retired _ retired, notes.completed _ completed⟩
        · exact absurd rfl error
        · obtain ⟨retired, completed⟩ := statuses.completing pkt false top
          exact ⟨notes.retired _ retired, notes.completed _ (completed rfl)⟩

/-! ## One place for each packet -/

section Places
variable {st : St} {id : Nat}

theorem copies_pos {pkt : TxPacket} {pkts : List TxPacket} (among : pkt ∈ pkts) :
    1 ≤ copies pkt.id pkts := by
  rw [copies_eq_count]
  exact List.count_pos_iff.mpr (List.mem_map_of_mem among)

theorem exists_of_copies {pkts : List TxPacket} (some_ : 1 ≤ copies id pkts) :
    ∃ pkt ∈ pkts, pkt.id = id := by
  rw [copies_eq_count] at some_
  exact List.mem_map.mp (List.count_pos_iff.mp some_)

theorem Books.places (books : Books st) (id : Nat) : copies id st.shared.issued =
    copies id st.shared.txControlQueue + copies id st.shared.txDataQueue +
      copies id (st.shared.ring.map Desc.pkt) + calls st.shared id + st.total (packetWeight id) :=
  books.packets id

theorem Books.places_le (books : Books st) (id : Nat) :
    copies id st.shared.txControlQueue + copies id st.shared.txDataQueue +
      copies id (st.shared.ring.map Desc.pkt) + calls st.shared id + st.total (packetWeight id) ≤ 1 :=
  books.places id ▸ books.numbers.once id

theorem Books.calls_of_frame (books : Books st) {frame : Frame} (has : st.Has frame)
    (one : packetWeight id frame = 1) : calls st.shared id = 0 := by
  have bound := books.places_le id
  have below := State.weight_le_total (packetWeight id) has
  omega

theorem Books.calls_of_ring (books : Books st) {desc : Desc} (among : desc ∈ st.shared.ring) :
    calls st.shared desc.pkt.id = 0 := by
  have bound := books.places_le desc.pkt.id
  have there := copies_pos (List.mem_map_of_mem (f := Desc.pkt) among)
  omega

theorem packetWeight_of_attachedAs {frame : Frame} {desc : Desc}
    (is : attachedAs frame = some desc) : packetWeight desc.pkt.id frame = 1 := by
  cases frame <;> cases is <;> simp [packetWeight, isPacket]

theorem Books.calls_of_attached (books : Books st) {pkt : TxPacket}
    (among : pkt ∈ st.shared.attached) : calls st.shared pkt.id = 0 := by
  rcases List.mem_append.mp among with staging | zcopy
  · obtain ⟨i, -, entry⟩ := List.mem_filterMap.mp (List.mem_of_mem_filter staging)
    rcases books.table.live i pkt entry with ring | ⟨frame, has, is⟩
    · exact books.calls_of_ring ring
    · exact books.calls_of_frame has (packetWeight_of_attachedAs is)
  · have listed := copies_pos zcopy
    have balanced := books.zcopy pkt.id
    dsimp only [Threads.Balanced] at balanced
    have threads := @State.total_le_total _ _ st _ _ (zcopyWeight_le pkt.id)
    have ring := zcopyOf_le_ring pkt.id st.shared
    have bound := books.places_le pkt.id
    omega

theorem Numbers.unique {p : Path} (numbers : Numbers p) {one two : TxPacket} (first : one ∈ p.owed)
    (second : two ∈ p.owed) (same : one.id = two.id) : one = two := by
  have nodup : (p.issued.map TxPacket.id).Nodup := by
    refine List.nodup_iff_count.mpr fun id => ?_
    rw [← copies_eq_count]
    exact numbers.once id
  exact List.inj_on_of_nodup_map nodup (List.mem_append_left _ first)
    (List.mem_append_left _ second) same

/-- What is attached is where a cancel looks. -/
theorem Books.attached_listed (books : Books st) (kinds : Kinds st) {desc : Desc} {pkt : TxPacket}
    (attached : Attached st desc) (owed : pkt ∈ st.shared.owed) (same : desc.pkt.id = pkt.id)
    (data : pkt.control = false) : ∃ other ∈ st.shared.attached, other.core = pkt := by
  have known : Known st.shared desc := by
    rcases attached with ring | ⟨frame, has, is⟩
    · exact kinds.path.ring desc ring
    · refine kinds.frames frame desc has ?_
      cases frame <;> cases is <;> rfl
  have core : desc.pkt.core = pkt := books.numbers.unique known.2 owed same
  cases owner : desc.frame with
  | some i =>
      have entry := books.table.finds desc attached
      simp only [Path.descPacket, owner] at entry
      have one : 1 ≤ stagingOf i st.shared + st.total (stagingWeight i) := by
        rcases attached with ring | ⟨frame, has, is⟩
        · have counted := one_le_of_ring ring owner
          unfold stagingOf
          omega
        · have below := State.weight_le_total (stagingWeight i) has
          rw [one_of_attachedAs is owner] at below
          omega
      have inside : i < st.shared.txFrameCount := by
        by_contra outside
        have balanced := books.staging i
        dsimp only [Threads.Balanced] at balanced
        rw [if_neg outside] at balanced
        omega
      refine ⟨desc.pkt, List.mem_append_left _ (List.mem_filter.mpr ⟨?_, ?_⟩), core⟩
      · exact List.mem_filterMap.mpr ⟨i, List.mem_range.mpr inside, entry⟩
      · rw [← core] at data
        have same : desc.pkt.control = false := data
        simp [same]
  | none =>
      have one : 1 ≤ zcopyOf desc.pkt.id st.shared + st.total (zcopyWeight desc.pkt.id) := by
        rcases attached with ring | ⟨frame, has, is⟩
        · have below := @weight_le_weigh _ (fun other : Desc =>
            if other.frame = none then isPacket desc.pkt.id other.pkt else 0) _ _ ring
          simp only [owner, if_true, isPacket, weigh] at below
          simp only [zcopyOf, isPacket]
          omega
        · have below := State.weight_le_total (zcopyWeight desc.pkt.id) has
          have heavy : zcopyWeight desc.pkt.id frame = 1 := by
            cases frame <;> cases is <;> simp_all [zcopyWeight, isPacket]
          omega
      have balanced := books.zcopy desc.pkt.id
      dsimp only [Threads.Balanced] at balanced
      obtain ⟨other, listed, is⟩ := exists_of_copies (by rw [balanced]; exact one)
      exact ⟨other, List.mem_append_right _ listed,
        books.numbers.unique (kinds.path.zcopy other listed) owed (is.trans same)⟩

end Places

/-! ## Canceled packets -/

/-- A packet that a cancel covered is marked, or is given back with an error. -/
structure Doomed (st : St) : Prop where
  marked : ∀ id ∈ st.shared.canceled, (id, 0) ∉ st.shared.released
  covered : ∀ id ∈ st.shared.covered, id ∈ st.shared.canceled ∨
    (∃ pkt status, st.Has (.release pkt status) ∧ pkt.id = id) ∨
    ∃ status, status ≠ 0 ∧ (id, status) ∈ st.shared.released

theorem exec_marks {p p' : Path} {frame : Frame} {choice : Choice} {pushed : List Frame}
    (other : ∀ m, frame ≠ .cancel m) (ran : exec p frame choice = some (p', pushed)) :
    p'.canceled = p.canceled ∧ p'.covered = p.covered := by
  cases frame with
  | iterate =>
      rcases execIterate_cases ran with ⟨rfl, rfl⟩ | ⟨_, _, -, -, -, rfl, rfl⟩ <;> exact ⟨rfl, rfl⟩
  | takeBack hand ret =>
      rcases execTakeBack_cases ran with ⟨-, rfl, -, rfl⟩ | ⟨-, rfl, -, rfl⟩ | ⟨rfl, rfl⟩ <;>
        exact ⟨rfl, rfl⟩
  | callback desc canceled =>
      rcases execCallback_cases ran with ⟨-, rfl, -⟩ | ⟨pkt, -, rfl, -⟩ <;>
        simp only [Path.noteRetired, Path.freeDesc] <;> split <;> exact ⟨rfl, rfl⟩
  | cancel m => exact absurd rfl (other m)
  | cancelQueued status | flush =>
      cases ran
      exact ⟨rfl, rfl⟩
  | _ =>
      simp only [exec, execAttach, execRingTx] at ran
      repeat' split at ran
      all_goals cases ran
      all_goals exact ⟨rfl, rfl⟩

section Cancel
variable {st : St}

theorem not_released_of_calls {p : Path} {id : Nat} {status : Int} (none : calls p id = 0) :
    (id, status) ∉ p.released := by
  intro among
  have counted : 0 < calls p id := List.count_pos_iff.mpr (List.mem_map_of_mem among)
  omega

/-- Where a packet is that was accepted and whose descriptor has not been retired. -/
theorem Books.locate (books : Books st) (kinds : Kinds st) (statuses : Statuses st)
    {pkt : TxPacket} (owed : pkt ∈ st.shared.owed) (data : pkt.control = false)
    (unretired : pkt.id ∉ st.shared.retired) :
    (∃ other ∈ st.shared.txDataQueue, other.core = pkt) ∨
    (∃ other ∈ st.shared.attached, other.core = pkt) ∨
    (∃ frame other, st.Has frame ∧ unattached frame = some other ∧ other.core = pkt) ∨
    (∃ other status, st.Has (.release other status) ∧ other.id = pkt.id) ∨
    ∃ status, status ≠ 0 ∧ (pkt.id, status) ∈ st.shared.released := by
  have places := books.places pkt.id
  have issued : 1 ≤ copies pkt.id st.shared.issued := copies_pos (List.mem_append_left _ owed)
  rcases Nat.eq_zero_or_pos (copies pkt.id st.shared.txControlQueue) with control | control
  swap
  · obtain ⟨other, among, same⟩ := exists_of_copies control
    have here := kinds.path.control other among
    have core := books.numbers.unique here.2 owed same
    rw [← core] at data
    exact absurd (here.1.symm.trans data) (by decide)
  rcases Nat.eq_zero_or_pos (copies pkt.id st.shared.txDataQueue) with queue | queue
  swap
  · obtain ⟨other, among, same⟩ := exists_of_copies queue
    exact .inl ⟨other, among, books.numbers.unique (kinds.path.data other among).2 owed same⟩
  rcases Nat.eq_zero_or_pos (copies pkt.id (st.shared.ring.map Desc.pkt)) with ring | ring
  swap
  · obtain ⟨other, among, same⟩ := exists_of_copies ring
    obtain ⟨desc, inside, rfl⟩ := List.mem_map.mp among
    exact .inr (.inl (books.attached_listed kinds (.inl inside) owed same data))
  rcases Nat.eq_zero_or_pos (calls st.shared pkt.id) with released | released
  swap
  · obtain ⟨⟨id, status⟩, among, same⟩ := List.mem_map.mp (List.count_pos_iff.mp released)
    dsimp only at same
    subst same
    refine .inr (.inr (.inr (.inr ⟨status, ?_, among⟩)))
    rintro rfl
    exact unretired (statuses.done _ among).1
  have threads : st.total (packetWeight pkt.id) ≠ 0 := by omega
  have held : ∃ frame, st.Has frame ∧ packetWeight pkt.id frame ≠ 0 := by
    by_contra nobody
    refine threads (State.total_eq_zero.mpr fun frame has => ?_)
    by_contra heavy
    exact nobody ⟨frame, has, heavy⟩
  obtain ⟨frame, has, heavy⟩ := held
  have is : ∀ {other : TxPacket}, isPacket pkt.id other ≠ 0 → other.id = pkt.id := by
    intro other heavy
    by_contra different
    exact heavy (if_neg different)
  cases frame with
  | attach hand =>
      have known := kinds.frames _ _ has rfl
      exact .inr (.inr (.inl ⟨_, hand.pkt, has, rfl, books.numbers.unique known.2 owed (is heavy)⟩))
  | ringTx hand | detach hand ret =>
      exact .inr (.inl (books.attached_listed kinds (.inr ⟨_, has, rfl⟩) owed (is heavy) data))
  | takeBack hand ret =>
      have known := kinds.frames _ _ has rfl
      have core := books.numbers.unique known.2 owed (is heavy)
      cases owner : hand.frame with
      | some i =>
          exact .inr (.inr (.inl ⟨_, hand.pkt, has, by simp [unattached, owner], core⟩))
      | none =>
          have below := State.weight_le_total (zcopyWeight pkt.id) has
          have one : zcopyWeight pkt.id (.takeBack hand ret) = 1 := by
            simp [zcopyWeight, owner, isPacket, is heavy]
          have balanced := books.zcopy pkt.id
          dsimp only [Threads.Balanced] at balanced
          have there : 1 ≤ copies pkt.id st.shared.txZcopyInflight := by omega
          obtain ⟨other, listed, same⟩ := exists_of_copies there
          exact .inr (.inl ⟨other, List.mem_append_right _ listed,
            books.numbers.unique (kinds.path.zcopy other listed) owed same⟩)
  | callback desc canceled =>
      exact .inr (.inl (books.attached_listed kinds (.inr ⟨_, has, rfl⟩) owed (is heavy) data))
  | release other status => exact .inr (.inr (.inr (.inl ⟨other, status, has, is heavy⟩)))
  | completed other canceled =>
      have retired := (statuses.completing other canceled has).1
      rw [is heavy] at retired
      exact absurd retired unretired
  | _ => exact absurd rfl heavy

theorem Doomed.cancel (doomed : Doomed st) (books : Books st) (kinds : Kinds st)
    (statuses : Statuses st) {thread : Nat} {m : Match} {rest pushed : List Frame} {p : Path}
    {choice : Choice} (found : st.threads[thread]? = some (.cancel m :: rest))
    (sight : InSight st (.run thread choice))
    (ran : exec st.shared (.cancel m) choice = some (p, pushed)) :
    Doomed ⟨p, st.threads.set thread (pushed ++ rest)⟩ := by
  have top : cancels st (.run thread choice) = some m := by
    simp [cancels, State.top_of_getElem? found]
  have still : ∀ {pkt : TxPacket} {status : Int}, st.Has (.release pkt status) →
      State.Has ⟨p, st.threads.set thread (pushed ++ rest)⟩ (.release pkt status) := by
    intro pkt status has
    rcases State.has_after_run found has with same | still
    · cases same
    · exact still
  have taken : ∀ pkt ∈ st.shared.txDataQueue, m.covers pkt = true →
      ∃ other status, .release other status ∈ pushed ∧ other.id = pkt.id := by
    intro pkt among covers
    cases ran
    refine ⟨{ pkt with ownerCtx := none }, ecanceled, List.mem_append_left _ ?_, rfl⟩
    refine List.mem_map_of_mem (List.mem_map.mpr ⟨pkt, List.mem_filter.mpr ⟨among, covers⟩, rfl⟩)
  have canceled : p.canceled =
      st.shared.canceled ++ (st.shared.attached.filter m.covers).map TxPacket.id := by
    cases ran
    rfl
  have covered : p.covered = st.shared.covered ++ ((st.shared.owed.filter fun pkt =>
      !pkt.control && m.covers pkt && !st.shared.retired.contains pkt.id).map TxPacket.id) := by
    cases ran
    rfl
  have released : p.released = st.shared.released := by
    cases ran
    rfl
  constructor
  · intro id among
    dsimp only at among ⊢
    rw [canceled] at among
    rw [released]
    rcases List.mem_append.mp among with old | new
    · exact doomed.marked id old
    · obtain ⟨pkt, inside, rfl⟩ := List.mem_map.mp new
      exact not_released_of_calls (books.calls_of_attached (List.mem_of_mem_filter inside))
  · intro id among
    dsimp only at among ⊢
    rw [covered] at among
    rw [canceled, released]
    rcases List.mem_append.mp among with old | new
    · rcases doomed.covered id old with marked | ⟨pkt, status, has, is⟩ | gone
      · exact .inl (List.mem_append_left _ marked)
      · exact .inr (.inl ⟨pkt, status, still has, is⟩)
      · exact .inr (.inr gone)
    · obtain ⟨pkt, inside, rfl⟩ := List.mem_map.mp new
      obtain ⟨owed, chosen⟩ := List.mem_filter.mp inside
      simp only [Bool.and_eq_true, Bool.not_eq_true', List.contains_eq_mem, decide_eq_false_iff_not]
        at chosen
      obtain ⟨⟨data, covers⟩, unretired⟩ := chosen
      rcases books.locate kinds statuses owed data unretired with ⟨other, queue, core⟩ |
        ⟨other, attached, core⟩ | ⟨frame, other, has, hand, core⟩ | ⟨other, status, has, is⟩ | gone
      · subst core
        obtain ⟨gone, status, new, is⟩ := taken other queue covers
        exact .inr (.inl ⟨gone, status, State.has_of_pushed found new, is⟩)
      · subst core
        exact .inl (List.mem_append_right _
          (List.mem_map.mpr ⟨other, List.mem_filter.mpr ⟨attached, covers⟩, rfl⟩))
      · subst core
        refine absurd ⟨frame, has, ?_⟩ (sight m top)
        rw [hand]
        simp only [Option.any_some, Bool.and_eq_true, Bool.not_eq_true']
        exact ⟨data, covers⟩
      · exact .inr (.inl ⟨other, status, still has, is⟩)
      · exact .inr (.inr gone)

end Cancel

theorem Doomed.step {st st' : St} {label : Lbl} (doomed : Doomed st) (books : Books st)
    (kinds : Kinds st) (statuses : Statuses st) (sight : InSight st label)
    (stepped : step st label = some st') : Doomed st' := by
  cases label with
  | event event =>
      obtain ⟨p, code, reacted, rfl⟩ := step_event stepped
      obtain ⟨⟨released, -, -, canceled, covered⟩, -, -⟩ := reacts_notes (react_cases reacted)
      constructor
      · rw [canceled, released]
        exact doomed.marked
      · rw [canceled, released, covered]
        intro id among
        rcases doomed.covered id among with marked | ⟨pkt, status, ⟨stack, inside, standing⟩, is⟩ | gone
        · exact .inl marked
        · exact .inr (.inl ⟨pkt, status, ⟨stack, List.mem_append_left _ inside, standing⟩, is⟩)
        · exact .inr (.inr gone)
  | run thread choice =>
      obtain ⟨frame, rest, p, pushed, found, executed, rfl⟩ := step_run stepped
      have top := State.has_of_top found
      by_cases cancel : ∃ m, frame = .cancel m
      · obtain ⟨m, rfl⟩ := cancel
        exact doomed.cancel books kinds statuses found sight executed
      · obtain ⟨canceled, covered⟩ := exec_marks (fun m is => cancel ⟨m, is⟩) executed
        have notes := exec_notes (fun status is => statuses.errors frame status top is) executed
        constructor
        · intro id among released
          dsimp only at among released
          rw [canceled] at among
          rcases notes.released _ released with old | error | ⟨pkt, rfl, rfl, unmarked⟩
          · exact doomed.marked id among old
          · exact absurd rfl error
          · exact unmarked among
        · intro id among
          dsimp only at among ⊢
          rw [covered] at among
          rw [canceled]
          rcases doomed.covered id among with marked | ⟨pkt, status, has, is⟩ | ⟨status, error, gone⟩
          · exact .inl marked
          · rcases State.has_after_run found has with rfl | still
            · refine .inr (.inr ⟨status, statuses.errors _ status top rfl, ?_⟩)
              cases executed
              rw [← is]
              exact List.mem_append_right _ (List.mem_singleton_self _)
            · exact .inr (.inl ⟨pkt, status, still, is⟩)
          · exact .inr (.inr ⟨status, error, notes.kept _ gone⟩)

/-! ## The end of a path -/

/-- Once the tunnel is down nothing gets on a queue, and the flush leaves none behind. -/
structure Closing (st : St) : Prop where
  flush : st.Has .flush → st.shared.tunnelEnabled = false
  flushed : st.shared.flushed = true → st.shared.tunnelEnabled = false ∧
    st.shared.txControlQueue = [] ∧ st.shared.txDataQueue = []

theorem exec_closing {p p' : Path} {frame : Frame} {choice : Choice} {pushed : List Frame}
    (flush : frame = .flush → p.tunnelEnabled = false)
    (flushed : p.flushed = true →
      p.tunnelEnabled = false ∧ p.txControlQueue = [] ∧ p.txDataQueue = [])
    (ran : exec p frame choice = some (p', pushed)) :
    (p.tunnelEnabled = false → p'.tunnelEnabled = false) ∧
    (.flush ∈ pushed → p'.tunnelEnabled = false) ∧
    (p'.flushed = true → p'.tunnelEnabled = false ∧ p'.txControlQueue = [] ∧ p'.txDataQueue = []) := by
  cases frame with
  | iterate =>
      rcases execIterate_cases ran with ⟨rfl, rfl⟩ | ⟨_, _, admits, -, -, rfl, rfl⟩
      · exact ⟨id, by simp, flushed⟩
      · refine ⟨id, by simp, fun after => ?_⟩
        have down := (flushed after).1
        rw [Path.txAdmits, down] at admits
        cases admits
  | takeBack hand ret =>
      rcases execTakeBack_cases ran with ⟨-, rfl, again, rfl⟩ | ⟨-, rfl, again, rfl⟩ | ⟨rfl, rfl⟩
      · refine ⟨id, by simp, fun after => ?_⟩
        have down : p.tunnelEnabled = false := (flushed after).1
        simp [Path.requeues, down] at again
      · refine ⟨id, by simp, fun after => ?_⟩
        have down : p.tunnelEnabled = false := (flushed after).1
        simp [Path.requeues, down] at again
      · refine ⟨id, ?_, flushed⟩
        split <;> simp
  | callback desc canceled =>
      have freed : (p.freeDesc desc).tunnelEnabled = p.tunnelEnabled ∧
          (p.freeDesc desc).flushed = p.flushed ∧
          (p.freeDesc desc).txControlQueue = p.txControlQueue ∧
          (p.freeDesc desc).txDataQueue = p.txDataQueue := by
        unfold Path.freeDesc
        split <;> exact ⟨rfl, rfl, rfl, rfl⟩
      rcases execCallback_cases ran with ⟨-, rfl, rfl⟩ | ⟨pkt, -, rfl, rfl⟩ <;>
        simpa [Path.noteRetired, freed] using flushed
  | cancel m =>
      cases ran
      refine ⟨id, fun among => ?_, fun after => ⟨(flushed after).1, (flushed after).2.1, ?_⟩⟩
      · rcases List.mem_append.mp among with released | again
        · obtain ⟨_, -, is⟩ := List.mem_map.mp released
          cases is
        · split at again
          · cases List.mem_singleton.mp again
          · cases again
      · simp [(flushed after).2.2]
  | cancelQueued status =>
      cases ran
      refine ⟨id, fun among => ?_, fun after => ⟨(flushed after).1, rfl, rfl⟩⟩
      obtain ⟨_, -, is⟩ := List.mem_map.mp among
      cases is
  | flush =>
      cases ran
      exact ⟨id, fun _ => flush rfl, fun _ => ⟨flush rfl, rfl, rfl⟩⟩
  | disableTunnel =>
      cases ran
      split
      · exact ⟨fun _ => rfl, by simp, fun after => ⟨rfl, (flushed after).2⟩⟩
      · exact ⟨id, by simp, flushed⟩
  | ringStopped =>
      simp only [exec] at ran
      split at ran <;> cases ran
      exact ⟨fun _ => rfl, fun _ => rfl, fun after => ⟨rfl, (flushed after).2⟩⟩
  | _ =>
      simp only [exec, execAttach, execRingTx] at ran
      repeat' split at ran
      all_goals cases ran
      all_goals exact ⟨id, by simp, flushed⟩

theorem reacts_closing {p p' : Path} {code : List Frame} (reacts : Reacts p p' code)
    (flushed : p.flushed = true →
      p.tunnelEnabled = false ∧ p.txControlQueue = [] ∧ p.txDataQueue = []) :
    p'.tunnelEnabled = p.tunnelEnabled ∧ .flush ∉ code ∧
    (p'.flushed = true → p'.tunnelEnabled = false ∧ p'.txControlQueue = [] ∧ p'.txDataQueue = []) := by
  cases reacts with
  | sendControl ids fresh copied plain admits =>
      refine ⟨rfl, by simp, fun after => ?_⟩
      rw [Path.txAdmits, (flushed after).1] at admits
      cases admits
  | sendData ids fresh group same uncounted admits room =>
      refine ⟨rfl, by simp, fun after => ?_⟩
      rw [Path.txAdmits, (flushed after).1] at admits
      cases admits
  | fail ids fresh each error =>
      refine ⟨rfl, fun among => ?_, flushed⟩
      obtain ⟨_, -, is⟩ := List.mem_map.mp among
      cases is
  | _ => exact ⟨rfl, by simp, flushed⟩

theorem closing_start (cfg : Config) : Closing (start cfg) where
  flush := fun has => by
    obtain ⟨stack, among, -⟩ := has
    cases among
  flushed := fun is => by cases is

theorem Closing.step {st st' : St} {label : Lbl} (closing : Closing st)
    (stepped : step st label = some st') : Closing st' := by
  cases label with
  | event event =>
      obtain ⟨p, code, reacted, rfl⟩ := step_event stepped
      obtain ⟨same, none, flushed⟩ := reacts_closing (react_cases reacted) closing.flushed
      refine ⟨fun has => ?_, flushed⟩
      rcases State.has_of_event has with new | old
      · exact absurd new none
      · exact same.trans (closing.flush old)
  | run thread choice =>
      obtain ⟨frame, rest, p, pushed, found, executed, rfl⟩ := step_run stepped
      obtain ⟨down, news, flushed⟩ := exec_closing
        (fun is => closing.flush (is ▸ State.has_of_top found)) closing.flushed executed
      refine ⟨fun has => ?_, flushed⟩
      rcases State.has_of_run found has with new | old
      · exact news new
      · exact down (closing.flush old)

/-! ## Sends that fail -/

def Completing (st : St) : Prop :=
  ∀ pkt canceled, st.Has (.completed pkt canceled) → pkt.core ∈ st.shared.owed

theorem Completing.step {st st' : St} {label : Lbl} (completing : Completing st) (books : Books st)
    (kinds : Kinds st) (statuses : Statuses st) (stepped : step st label = some st') :
    Completing st' := by
  cases label with
  | event event =>
      obtain ⟨p, code, reacted, rfl⟩ := step_event stepped
      have reacts := react_cases reacted
      intro pkt canceled has
      rcases State.has_of_event has with new | old
      · exact absurd new ((reacts_notes reacts).2.2 pkt canceled)
      · exact reacts_owed reacts _ (completing pkt canceled old)
  | run thread choice =>
      obtain ⟨frame, rest, p, pushed, found, executed, rfl⟩ := step_run stepped
      have top := State.has_of_top found
      intro pkt canceled has
      dsimp only
      rw [(exec_keeps executed).owed]
      rcases State.has_of_run found has with new | old
      · have notes := exec_notes (fun status is => statuses.errors frame status top is) executed
        obtain ⟨desc, rfl, finds⟩ := notes.called pkt canceled new
        rw [books.table.finds desc (.inr ⟨_, top, rfl⟩)] at finds
        cases finds
        exact (kinds.frames _ desc top rfl).2
      · exact completing pkt canceled old

/-- The packets of a send that failed are not issued. -/
def RefusedGone (p : Path) : Prop := ∀ id ∈ p.refused, id < p.nextId ∧ copies id p.issued = 0

theorem RefusedGone.grow {p q : Path} {pkts : List TxPacket} (gone : RefusedGone p)
    (issued : q.issued.Perm (p.issued ++ pkts)) (next : q.nextId = p.nextId + pkts.length)
    (refused : q.refused = p.refused) (ids : Numbered p.nextId pkts) : RefusedGone q := by
  intro id among
  rw [refused] at among
  obtain ⟨below, none⟩ := gone id among
  have counted : copies id q.issued = copies id p.issued + copies id pkts := by
    rw [← copies_append]
    exact (issued.map _).sum_eq
  have fresh : copies id pkts = 0 := by
    refine copies_eq_zero fun pkt inside same => ?_
    have there : pkt.id ∈ List.range' p.nextId pkts.length := ids ▸ List.mem_map_of_mem inside
    simp only [List.mem_range'_1] at there
    omega
  exact ⟨by omega, by omega⟩

theorem RefusedGone.event {p p' : Path} {code : List Frame} (gone : RefusedGone p)
    (numbers : Numbers p) (reacts : Reacts p p' code) : RefusedGone p' := by
  cases reacts with
  | sendControl ids fresh copied plain admits => exact gone.grow (issued_take ..) rfl rfl ids
  | sendData ids fresh group same uncounted admits room => exact gone.grow (issued_take ..) rfl rfl ids
  | fail ids fresh each error => exact gone.grow (issued_fail ..) rfl rfl ids
  | refuse count =>
      intro id among
      rcases List.mem_append.mp among with old | new
      · obtain ⟨below, none⟩ := gone id old
        exact ⟨Nat.lt_add_right count below, none⟩
      · simp only [List.mem_range'_1] at new
        refine ⟨new.2, copies_eq_zero fun pkt inside same => ?_⟩
        have := numbers.below pkt inside
        omega
  | _ => exact gone

/-! ## Every run -/

structure Ledger (st : St) : Prop where
  books : Books st
  kinds : Kinds st
  statuses : Statuses st
  doomed : Doomed st
  completing : Completing st
  closing : Closing st
  refused : RefusedGone st.shared

theorem ledger_start (cfg : Config) : Ledger (start cfg) where
  books := books_start cfg
  kinds := kinds_start cfg
  statuses := statuses_start cfg
  doomed := ⟨fun id among => absurd among List.not_mem_nil, fun id among => absurd among List.not_mem_nil⟩
  completing := fun pkt canceled has => by
    obtain ⟨stack, among, -⟩ := has
    cases among
  closing := closing_start cfg
  refused := fun id among => absurd among List.not_mem_nil

theorem Ledger.step {st st' : St} {label : Lbl} (ledger : Ledger st) (sight : InSight st label)
    (stepped : step st label = some st') : Ledger st' where
  books := ledger.books.step stepped
  kinds := ledger.kinds.step stepped
  statuses := ledger.statuses.step stepped
  doomed := ledger.doomed.step ledger.books ledger.kinds ledger.statuses sight stepped
  completing := ledger.completing.step ledger.books ledger.kinds ledger.statuses stepped
  closing := ledger.closing.step stepped
  refused := by
    cases label with
    | event event =>
        obtain ⟨p, code, reacted, rfl⟩ := step_event stepped
        exact ledger.refused.event ledger.books.numbers (react_cases reacted)
    | run thread choice =>
        obtain ⟨frame, rest, p, pushed, found, executed, rfl⟩ := step_run stepped
        have keeps := exec_keeps executed
        intro id among
        dsimp only at among ⊢
        rw [keeps.refused] at among
        rw [keeps.nextId, keeps.issued]
        exact ledger.refused id among

section Facts
variable {st : St}

theorem Ledger.status (ledger : Ledger st) {id : Nat} (success : (id, 0) ∈ st.shared.released) :
    id ∈ st.shared.completed ∧ id ∉ st.shared.covered := by
  refine ⟨(ledger.statuses.done id success).2, fun covered => ?_⟩
  have once := ledger.books.places_le id
  have called : 0 < calls st.shared id := List.count_pos_iff.mpr (List.mem_map_of_mem success)
  rcases ledger.doomed.covered id covered with marked | ⟨pkt, status, has, rfl⟩ |
    ⟨status, error, gone⟩
  · exact ledger.doomed.marked id marked success
  · have none := ledger.books.calls_of_frame has (by simp [packetWeight, isPacket] :
      packetWeight pkt.id (.release pkt status) = 1)
    omega
  · have nodup : (st.shared.released.map Prod.fst).count id ≤ 1 := by
      unfold calls at once
      omega
    have both : (st.shared.released.map Prod.fst).count id ≥ 2 := by
      obtain ⟨before, after, split⟩ := List.append_of_mem success
      rw [split] at gone ⊢
      have there : id ∈ (before ++ after).map Prod.fst := by
        rcases List.mem_append.mp gone with early | late
        · exact List.mem_map.mpr ⟨_, List.mem_append_left _ early, rfl⟩
        · rcases List.mem_cons.mp late with same | late
          · exact absurd (congrArg Prod.snd same) error
          · exact List.mem_map.mpr ⟨_, List.mem_append_right _ late, rfl⟩
      have counted := List.count_pos_iff.mpr there
      simp only [List.map_append, List.count_append, List.map_cons, List.count_cons_self] at counted ⊢
      omega
    omega

/-- A packet of a failed page stream is in the hands of the failing call. -/
theorem Ledger.failed_place (ledger : Ledger st) {pkt : TxPacket} (failed : pkt ∈ st.shared.failed)
    (gone : ∀ other status, st.Has (.release other status) → other.id ≠ pkt.id) :
    calls st.shared pkt.id = 1 := by
  have places := ledger.books.places pkt.id
  have once := ledger.books.numbers.once pkt.id
  have issued : 1 ≤ copies pkt.id st.shared.issued := copies_pos (List.mem_append_right _ failed)
  have unowed : ∀ other ∈ st.shared.owed, other.id ≠ pkt.id := by
    intro other owed same
    have first := copies_pos owed
    have second := copies_pos failed
    rw [same] at first
    simp only [Path.issued, copies_append] at once
    omega
  have absent : ∀ {other : TxPacket}, other.core ∈ st.shared.owed → other.id ≠ pkt.id :=
    fun {other} owed => unowed other.core owed
  have control : copies pkt.id st.shared.txControlQueue = 0 :=
    copies_eq_zero fun other among => absent (ledger.kinds.path.control other among).2
  have data : copies pkt.id st.shared.txDataQueue = 0 :=
    copies_eq_zero fun other among => absent (ledger.kinds.path.data other among).2
  have ring : copies pkt.id (st.shared.ring.map Desc.pkt) = 0 := by
    refine copies_eq_zero fun other among => ?_
    obtain ⟨desc, inside, rfl⟩ := List.mem_map.mp among
    exact absent (ledger.kinds.path.ring desc inside).2
  have threads : st.total (packetWeight pkt.id) = 0 := by
    refine State.total_eq_zero.mpr fun frame has => ?_
    have zero : ∀ {other : TxPacket}, other.id ≠ pkt.id → isPacket pkt.id other = 0 :=
      fun different => if_neg different
    cases frame with
    | attach hand | ringTx hand | detach hand ret | takeBack hand ret =>
        exact zero (absent (ledger.kinds.frames _ _ has rfl).2)
    | callback desc canceled => exact zero (absent (ledger.kinds.frames _ _ has rfl).2)
    | release other status => exact zero (gone other status has)
    | completed other canceled => exact zero (absent (ledger.completing other canceled has))
    | _ => rfl
  omega

end Facts

/-- In every run in which no cancel comes while the scheduler has one of its packets in
hand. -/
theorem accepted_retired_once (cfg : Config) (st : St)
    (reached : Reaches step InSight (start cfg) st) : RetiredOnce st := by
  have ledger : Ledger st := reached.invariant (ledger_start cfg)
    fun ledger sight stepped => ledger.step sight stepped
  have books := ledger.books
  have issued : ∀ pkt ∈ st.shared.owed, 1 ≤ copies pkt.id st.shared.issued :=
    fun pkt owed => copies_pos (List.mem_append_left _ owed)
  constructor
  · intro pkt _
    have := books.places_le pkt.id
    omega
  · intro pkt owed none
    have places := books.places pkt.id
    have one := issued pkt owed
    by_contra lost
    simp only [OnPath, not_or, not_exists, not_and, List.mem_append] at lost
    obtain ⟨queues, ring, threads⟩ := lost
    have control : copies pkt.id st.shared.txControlQueue = 0 :=
      copies_eq_zero fun other among => queues other (.inl among)
    have data : copies pkt.id st.shared.txDataQueue = 0 :=
      copies_eq_zero fun other among => queues other (.inr among)
    have submitted : copies pkt.id (st.shared.ring.map Desc.pkt) = 0 := by
      refine copies_eq_zero fun other among => ?_
      obtain ⟨desc, inside, rfl⟩ := List.mem_map.mp among
      exact ring desc inside
    have held : st.total (packetWeight pkt.id) = 0 := by
      refine State.total_eq_zero.mpr fun frame has => ?_
      have below := State.weight_le_total (packetWeight pkt.id) has
      have bound := books.places_le pkt.id
      have other := threads frame has
      omega
    omega
  · exact fun desc among => books.calls_of_ring among
  · exact fun id success => ledger.status success
  · intro id among
    have none := (ledger.refused id among).2
    have := books.places id
    omega
  · exact fun pkt failed gone => ledger.failed_place failed gone
  · intro flushed ring idle pkt owed
    obtain ⟨-, control, data⟩ := ledger.closing.flushed flushed
    have places := books.places pkt.id
    have once := books.numbers.once pkt.id
    have one := issued pkt owed
    have held : st.total (packetWeight pkt.id) = 0 :=
      State.total_eq_zero.mpr fun frame has => absurd has (idle frame)
    rw [control, data, ring] at places
    simp only [copies_nil, List.map_nil] at places
    omega

/-! Runs on a path with two descriptors. -/

def twoDescriptors : Config := ⟨2, 32, by decide⟩

/-- A packet completes, one is canceled on its descriptor, one on the queue, and the path is
destroyed. -/
def someCanceled : List Lbl :=
  [.event (.sendData (some 1) (some 1) false), .run 0 0, .run 0 0, .run 0 0, .run 0 0, .run 0 0,
    .event (.retire 0 false), .run 1 0, .run 1 0, .run 1 0, .run 1 0, .run 1 0, .run 1 0,
    .event (.sendData (some 1) (some 2) false), .run 2 0, .run 2 0, .run 2 0, .run 2 0, .run 2 0,
    .event (.sendData (some 1) (some 2) false), .event (.cancel ⟨none, none, some 2⟩), .run 4 0,
    .run 4 0, .run 3 0, .run 3 0, .event .destroy, .run 5 0, .run 5 0, .event (.retire 0 true),
    .run 6 0, .run 6 0, .run 6 0, .run 6 0, .run 6 0, .run 6 0, .run 5 0, .run 5 0, .run 5 0]

theorem accepted_retired_once_someCanceled :
    ∃ st, Reaches step InSight (start twoDescriptors) st ∧
      st.shared.released = [(0, 0), (2, ecanceled), (1, ecanceled)] ∧ st.shared.flushed = true ∧
      RetiredOnce st := by
  have ran : (guarded step InSight someCanceled (start twoDescriptors)).any
      (fun st => st.shared.released == [(0, 0), (2, ecanceled), (1, ecanceled)] &&
        st.shared.flushed) = true := by decide +kernel
  obtain ⟨st, reached, found⟩ := exists_reaches_of_guarded ran
  simp only [Bool.and_eq_true, beq_iff_eq] at found
  exact ⟨st, reached, found.1, found.2, accepted_retired_once _ st reached⟩

/-- The cancel comes between the dequeue and the attachment. -/
def canceledInHand : List Lbl :=
  [.event (.sendData (some 1) (some 1) false), .run 0 0, .run 0 0,
    .event (.cancel ⟨none, none, some 1⟩), .run 1 0, .run 0 0, .run 0 0, .run 0 0,
    .event (.retire 0 false), .run 2 0, .run 2 0, .run 2 0]

theorem cancel_misses_packet_in_hand : ¬ ∀ (cfg : Config) (st : St),
    Reaches step (fun _ _ => True) (start cfg) st → RetiredOnce st := by
  intro always
  have ran : (guarded step (fun _ _ => True) canceledInHand (start twoDescriptors)).any
      (fun st => decide ((0, 0) ∈ st.shared.released) && decide (0 ∈ st.shared.covered)) = true := by
    decide +kernel
  obtain ⟨st, reached, found⟩ := exists_reaches_of_guarded ran
  simp only [Bool.and_eq_true, decide_eq_true_eq] at found
  exact ((always _ st reached).status 0 found.1).2 found.2

end Tbv.Tx
