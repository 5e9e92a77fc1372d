import ThunderboltIbverbs.Recv.Reap
import ThunderboltIbverbs.Lib.Trail

/-! # The accounts of the reorder list

`rx_reorder_count` and `rx_reorder_bytes` against the list itself, through every act of the
receive side. -/
set_option autoImplicit false
namespace Tbv.RecvQueue

open Trans
open Tbv.NativeData

def ReorderMsg.fragBytes (m : ReorderMsg) : Nat := (m.frags.map fun frag => frag.data.length).sum

structure Accounts (reorder : List ReorderMsg) (number total : Nat) : Prop where
  count : number = reorder.length
  bytes : total = (reorder.map ReorderMsg.bufferedBytes).sum
  capped : total ≤ reorderMaxBytes
  distinct : (reorder.map ReorderMsg.psn).Nodup
  held : ∀ m ∈ reorder, m.bufferedBytes = m.fragBytes

def Rx.Accounted (q : Rx) : Prop := Accounts q.reorder q.reorderCount q.reorderBytes

section Lists
variable {reorder : List ReorderMsg} {m new : ReorderMsg} {count bytes : Nat}

theorem filter_away (away : ∀ other ∈ reorder, other.psn ≠ m.psn) :
    reorder.filter (fun other => other.psn != m.psn) = reorder :=
  List.filter_eq_self.mpr fun other among => by simpa using away other among

/-- A message stands on the list once. -/
theorem perm_unlinked (distinct : (reorder.map ReorderMsg.psn).Nodup) (among : m ∈ reorder) :
    reorder.Perm (m :: reorder.filter fun other => other.psn != m.psn) := by
  induction reorder with
  | nil => cases among
  | cons head rest ih =>
      rw [List.map_cons, List.nodup_cons] at distinct
      obtain ⟨apart, distinct⟩ := distinct
      rcases List.mem_cons.mp among with rfl | later
      · have away : ∀ other ∈ rest, other.psn ≠ m.psn := fun other inside same =>
          apart (same ▸ List.mem_map_of_mem inside)
        simp [filter_away away]
      · have differs : head.psn ≠ m.psn := fun same =>
          apart (same ▸ List.mem_map_of_mem later)
        rw [List.filter_cons_of_pos (by simpa using differs)]
        exact ((ih distinct later).cons head).trans (List.Perm.swap ..)

/-- The message that is put in place of another. -/
theorem perm_replaced (distinct : (reorder.map ReorderMsg.psn).Nodup) (among : m ∈ reorder)
    (same : new.psn = m.psn) :
    (reorder.map fun other => if other.psn = new.psn then new else other).Perm
      (new :: reorder.filter fun other => other.psn != m.psn) := by
  have replaced := (perm_unlinked distinct among).map
    fun other => if other.psn = new.psn then new else other
  rw [List.map_cons, if_pos same.symm] at replaced
  refine replaced.trans (.of_eq ?_)
  congr 1
  refine (List.map_congr_left fun other inside => ?_).trans (List.map_id _)
  have differs : other.psn ≠ m.psn := by simpa using (List.mem_filter.mp inside).2
  rw [if_neg (same ▸ differs), id]

theorem Accounts.perm {other : List ReorderMsg} (accounts : Accounts reorder count bytes)
    (perm : reorder.Perm other) : Accounts other count bytes where
  count := by rw [accounts.count, perm.length_eq]
  bytes := by rw [accounts.bytes, (perm.map _).sum_eq]
  capped := accounts.capped
  distinct := (perm.map _).nodup_iff.mp accounts.distinct
  held := fun m among => accounts.held m (perm.mem_iff.mpr among)

theorem Accounts.tail (accounts : Accounts (m :: reorder) count bytes) :
    Accounts reorder (count - 1) (bytes - m.bufferedBytes) where
  count := by simp [accounts.count]
  bytes := by simp [accounts.bytes]
  capped := (Nat.sub_le ..).trans accounts.capped
  distinct := (List.nodup_cons.mp accounts.distinct).2
  held := fun other among => accounts.held other (List.mem_cons_of_mem _ among)

theorem Accounts.unlink (accounts : Accounts reorder count bytes) (among : m ∈ reorder) :
    Accounts (reorder.filter fun other => other.psn != m.psn) (count - 1)
      (bytes - m.bufferedBytes) :=
  (accounts.perm (perm_unlinked accounts.distinct among)).tail

theorem Accounts.add (accounts : Accounts reorder count bytes)
    (new : ∀ other ∈ reorder, other.psn ≠ m.psn) (blank : m.frags = [] ∧ m.bufferedBytes = 0) :
    Accounts (reorder ++ [m]) (count + 1) bytes where
  count := by simp [accounts.count]
  bytes := by simp [accounts.bytes, blank.2]
  capped := accounts.capped
  distinct := by
    rw [List.map_append, List.nodup_append]
    refine ⟨accounts.distinct, List.pairwise_singleton .., fun psn inside other last => ?_⟩
    obtain ⟨before, among, rfl⟩ := List.mem_map.mp inside
    rw [List.map_singleton, List.mem_singleton] at last
    exact last ▸ new before among
  held := fun other among => by
    rcases List.mem_append.mp among with old | last
    · exact accounts.held other old
    · cases List.mem_singleton.mp last
      simp [ReorderMsg.fragBytes, blank]

/-- A message with some bytes more is put in place of itself. -/
theorem Accounts.replace {more : Nat} (accounts : Accounts reorder count bytes) (among : m ∈ reorder)
    (same : new.psn = m.psn) (buffered : new.bufferedBytes = m.bufferedBytes + more)
    (frags : new.fragBytes = m.fragBytes + more) (fits : bytes + more ≤ reorderMaxBytes) :
    Accounts (reorder.map fun other => if other.psn = new.psn then new else other) count
      (bytes + more) := by
  have first := accounts.perm (perm_unlinked accounts.distinct among)
  refine Accounts.perm ?_ (perm_replaced accounts.distinct among same).symm
  have total := first.bytes
  rw [List.map_cons, List.sum_cons] at total
  refine ⟨first.count, ?_, fits, ?_, ?_⟩
  · rw [List.map_cons, List.sum_cons]
    omega
  · simpa [same] using first.distinct
  · rintro other (_ | ⟨_, inside⟩)
    · rw [buffered, frags, accounts.held m among]
    · exact first.held other (List.mem_cons_of_mem _ inside)

end Lists

section Acts
variable {env : Env} {apart : Prop} {q next : Rx}

theorem storeFragment_eq {held more : Nat} {m stored : ReorderMsg} {offset : Nat}
    {payload : List UInt8} (fits : storeFragment env held m offset payload = .ok (stored, more)) :
    more = held + payload.length ∧ (payload ≠ [] → more ≤ reorderMaxBytes) ∧ stored.psn = m.psn ∧
      stored.bufferedBytes = m.bufferedBytes + payload.length ∧
      stored.fragBytes = m.fragBytes + payload.length := by
  unfold storeFragment at fits
  split at fits
  · rename_i empty
    cases fits
    simp [empty]
  split at fits
  · cases fits
  rename_i room
  split at fits
  · cases fits
  · cases fits
    refine ⟨rfl, fun _ => ?_, rfl, rfl, ?_⟩
    · omega
    · simp [ReorderMsg.fragBytes]

theorem accounted_reorderUnlink {m : ReorderMsg} (accounts : q.Accounted) (among : m ∈ q.reorder) :
    (q.reorderUnlink m).Accounted := Accounts.unlink accounts among

theorem pruneOne_keeps {m other : ReorderMsg} (differs : other.psn ≠ m.psn)
    (among : other ∈ q.reorder) : other ∈ (q.pruneOne m).reorder := by
  unfold Rx.pruneOne
  split
  · exact among
  split
  · exact List.mem_filter.mpr ⟨among, by simpa using differs⟩
  · exact List.mem_filter.mpr ⟨among, by simpa using differs⟩

theorem accounted_pruneOne {m : ReorderMsg} (accounts : q.Accounted) (among : m ∈ q.reorder) :
    (q.pruneOne m).Accounted := by
  unfold Rx.pruneOne
  split
  · exact accounts
  split
  · exact Accounts.unlink accounts among
  · exact Accounts.unlink accounts among

theorem accounted_prune (messages : List ReorderMsg) (distinct : (messages.map ReorderMsg.psn).Nodup)
    (among : ∀ m ∈ messages, m ∈ q.reorder) (accounts : q.Accounted) :
    (messages.foldl Rx.pruneOne q).Accounted := by
  induction messages generalizing q with
  | nil => exact accounts
  | cons m rest ih =>
      rw [List.map_cons, List.nodup_cons] at distinct
      rw [List.foldl_cons]
      refine ih distinct.2 (fun other inside => ?_)
        (accounted_pruneOne accounts (among m (List.mem_cons_self ..)))
      refine pruneOne_keeps (fun same => distinct.1 ?_) (among other (List.mem_cons_of_mem _ inside))
      exact same ▸ List.mem_map_of_mem inside

theorem away_of_reorderFind {psn : Nat} (new : q.reorderFind psn = none) :
    ∀ m ∈ q.reorder, m.psn ≠ psn := fun m among => by
  simpa using List.find?_eq_none.mp new m among

theorem reorderFind_unlink {m : ReorderMsg} {psn : Nat} (is : m.psn = psn) :
    (q.reorderUnlink m).reorderFind psn = none := by
  refine List.find?_eq_none.mpr fun other inside => ?_
  have differs : other.psn ≠ m.psn := by simpa using (List.mem_filter.mp inside).2
  simpa [← is] using differs

/-- Passing an operation leaves the list alone. -/
theorem Pass.same {psn : Nat} {passage : Passage} (passes : Pass env apart q psn passage next) :
    ∃ log rxMsg ackHistory, next = { q with
      rxMsg, ackHistory, log, expectedPsn := psnNext psn, consumed := q.consumed + 1 } := by
  cases passes with
  | send wqe status imm writes =>
      obtain ⟨log, pushed⟩ := @cqPush_same env { q with rxMsg := none } (.recv wqe status imm writes)
      rw [pushed]
      exact ⟨log, none, _, rfl⟩
  | write => exact ⟨q.log, q.rxMsg, _, rfl⟩
  | writeImm wqe status immData =>
      obtain ⟨log, pushed⟩ := @pushImm_same env q wqe status immData
      rw [pushed]
      exact ⟨log, q.rxMsg, _, rfl⟩

theorem Pass.accounted {psn : Nat} {passage : Passage} (passes : Pass env apart q psn passage next)
    (accounts : q.Accounted) : next.Accounted := by
  obtain ⟨log, rxMsg, ackHistory, rfl⟩ := passes.same
  exact accounts

theorem Act.accounted {owed : Option Nat} {out : Option Passed}
    (act : Act env apart owed q out next) (accounts : q.Accounted) : next.Accounted := by
  cases act with
  | aside | note | reack | notReady | refuse | fail | setRnr | assemble | activate | endWrite
  | read => exact accounts
  | prune => exact accounted_prune _ accounts.distinct (fun _ among => among) accounts
  | unlink among => exact accounted_reorderUnlink accounts among
  | flush => exact ⟨rfl, rfl, Nat.zero_le _, List.nodup_nil, fun _ among => by cases among⟩
  | add new blank => exact Accounts.add accounts (away_of_reorderFind new) blank
  | @store m stored offset held payload idx among fits =>
      obtain ⟨rfl, capped, psn, buffered, frags⟩ := storeFragment_eq fits
      refine Accounts.replace accounts among psn buffered frags ?_
      by_cases empty : payload = []
      · simpa [empty] using accounts.capped
      · exact capped empty
  | pass passes => exact passes.accounted accounts
  | expire found => exact accounted_reorderUnlink accounts (reorderFind_mem found)

theorem psnNext_lt (psn : Nat) : psnNext psn < psnMod := mod_psnMod_lt _

theorem Pass.bounded {psn : Nat} {passage : Passage} (passes : Pass env apart q psn passage next) :
    next.Bounded := by
  obtain ⟨log, rxMsg, ackHistory, rfl⟩ := passes.same
  exact psnNext_lt _

theorem Act.bounded {owed : Option Nat} {out : Option Passed} (act : Act env apart owed q out next)
    (bounded : q.Bounded) : next.Bounded := by
  cases act with
  | aside | note | reack | notReady | refuse | fail | setRnr | assemble | activate | endWrite
  | unlink | flush | add | store => exact bounded
  | prune =>
      obtain ⟨reorder, reorderCount, reorderBytes, log, pruned⟩ := @pruneStaleReorder_same q
      rw [pruned]
      exact bounded
  | pass passes => exact passes.bounded
  | read | expire => exact psnNext_lt _

/-- What is kept of the list from step to step. -/
def Rx.Sound (q : Rx) : Prop := q.Bounded ∧ q.Accounted

theorem Does.sound (does : Does env apart none q next) : q.Sound → next.Sound :=
  does.keeps (R := fun q next => q.Sound → next.Sound) (fun _ => id) (fun one two => two ∘ one)
    (fun act sound => ⟨act.bounded sound.1, act.accounted sound.2⟩)
    (fun passes sound => ⟨passes.bounded, passes.accounted sound.2⟩) (fun _ _ _ => id)

theorem sound_step (input : Input) (sound : q.Sound) : (q.step env input).Sound := by
  cases input with
  | frame hdr payload =>
      exact (@does_rxFrame env False q hdr payload sound.1 (fun is => is.elim)
        fun is => is.elim).sound sound
  | post wqe => exact (@does_postOne env False q wqe).sound sound
  | advertise => exact (@does_advertiseRecvCredits env False q).sound sound
  | drain => exact (@does_drainReorder env False q).sound sound

theorem sound_setAttrs (attrs : Attrs) (sound : q.Sound) : (q.setAttrs attrs).Sound := by
  refine ⟨?_, sound.2⟩
  unfold Rx.setAttrs Rx.Bounded
  cases attrs.rqPsn with
  | none => exact sound.1
  | some psn => exact mod_psnMod_lt psn

theorem sound_modify {attrs : Attrs} (modified : q.modify env attrs = some next)
    (sound : q.Sound) : next.Sound := by
  have stored := sound_setAttrs attrs sound
  unfold Rx.modify at modified
  split at modified
  · cases modified
  dsimp only at modified
  generalize result : (if q.state ≠ .err ∧ attrs.state = some .err then
    (q.setAttrs attrs).flushError env else q.setAttrs attrs) = flushed at modified
  have flushedSound : flushed.Sound := by
    subst result
    split
    · exact (@does_flushError env False _).sound stored
    · exact stored
  cases modified
  split
  · exact (@does_advertiseRecvCredits env False _).sound flushedSound
  · exact flushedSound

theorem sound_happen (happening : Happening) (sound : q.Sound) : (q.happen env happening).Sound := by
  cases happening with
  | input input => exact sound_step input sound
  | reap expiry => exact (@does_timeoutReap env False q expiry fun is => is.elim).sound sound
  | markError => exact (@does_markError env False q).sound sound
  | modify attrs =>
      unfold Rx.happen
      dsimp only
      cases modified : q.modify env attrs with
      | none => exact sound
      | some next => exact sound_modify modified sound

end Acts

theorem sound_created (cfg : RxConfig) : (Rx.created cfg).Sound :=
  ⟨Nat.two_pow_pos 24, rfl, rfl, Nat.zero_le _, List.nodup_nil, fun _ among => by cases among⟩

theorem Rx.sound {cfg : RxConfig} {q : Rx}
    (reached : Reaches rxStep (fun _ _ => True) (Rx.created cfg) q) : q.Sound := by
  refine reached.invariant (sound_created cfg) fun {state next label} sound _ stepped => ?_
  cases Option.some.inj stepped
  exact sound_happen label.2 sound

end Tbv.RecvQueue
