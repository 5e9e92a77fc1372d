import ThunderboltIbverbs.Tx.Books

/-! # Kinds of packets

Which packets are on which queue, and with which kind of descriptor they are submitted. -/
set_option autoImplicit false
namespace Tbv.Tx

open Threads Trans

def descOf : Frame → Option Desc
  | .attach hand | .ringTx hand | .detach hand _ | .takeBack hand _ => some ⟨hand.frame, hand.pkt⟩
  | .callback desc _ => some desc
  | _ => none

/-- A packet that is owed, with a staging frame unless it is zero-copy. -/
def Known (p : Path) (desc : Desc) : Prop :=
  (desc.frame = none ↔ desc.pkt.zcopy = true) ∧ desc.pkt.core ∈ p.owed

structure KindsOf (p : Path) : Prop where
  owed : ∀ pkt ∈ p.owed, pkt.core = pkt ∧ (pkt.control = true → pkt.zcopy = false)
  control : ∀ pkt ∈ p.txControlQueue, pkt.control = true ∧ pkt.core ∈ p.owed
  data : ∀ pkt ∈ p.txDataQueue, pkt.control = false ∧ pkt.core ∈ p.owed
  ring : ∀ desc ∈ p.ring, Known p desc
  zcopy : ∀ pkt ∈ p.txZcopyInflight, pkt.core ∈ p.owed

structure Kinds (st : St) : Prop where
  path : KindsOf st.shared
  frames : ∀ frame desc, st.Has frame → descOf frame = some desc → Known st.shared desc

section Exec
variable {p p' : Path} {frame : Frame} {choice : Choice} {pushed : List Frame}

theorem descOf_releases {pkts : List TxPacket} {status : Int} :
    ∀ other ∈ releases pkts status, descOf other = none := by
  intro other among
  obtain ⟨pkt, -, rfl⟩ := List.mem_map.mp among
  rfl

theorem KindsOf.dequeue (kinds : KindsOf p) {fromControlQueue : Bool} {pkt : TxPacket}
    (chosen : p.choose = some (fromControlQueue, pkt)) (passes : p.gate fromControlQueue pkt = none) :
    KindsOf (p.dequeue fromControlQueue pkt).1 ∧
      Known p ⟨(p.dequeue fromControlQueue pkt).2.frame, (p.dequeue fromControlQueue pkt).2.pkt⟩ := by
  obtain ⟨counted, is⟩ := dequeue_packet p fromControlQueue pkt
  have frame : (p.dequeue fromControlQueue pkt).2.frame = none ↔
      Path.needsStaging fromControlQueue pkt = false := by
    simp only [Path.dequeue]
    cases staging : Path.needsStaging fromControlQueue pkt with
    | false => simp
    | true =>
        obtain ⟨i, rest, free⟩ := free_of_gate passes staging
        simp [free]
  unfold Known
  rw [is]
  rcases choose_cases chosen with ⟨rfl, -, rest, queue⟩ | ⟨rfl, rest, queue⟩
  · have here := kinds.control pkt (queue ▸ List.mem_cons_self ..)
    refine ⟨⟨kinds.owed, fun other among => kinds.control other ?_, kinds.data, kinds.ring,
      kinds.zcopy⟩, ?_, here.2⟩
    · simp only [Path.dequeue, queue, if_true, List.tail_cons] at among
      rw [queue]
      exact List.mem_cons_of_mem _ among
    · have copied : pkt.zcopy = false := (kinds.owed _ here.2).2 here.1
      rw [frame]
      simp [Path.needsStaging, copied]
  · have here := kinds.data pkt (queue ▸ List.mem_cons_self ..)
    refine ⟨⟨kinds.owed, kinds.control, fun other among => kinds.data other ?_, kinds.ring,
      kinds.zcopy⟩, ?_, here.2⟩
    · simp only [Path.dequeue, queue, Bool.false_eq_true, if_false, List.tail_cons] at among
      rw [queue]
      exact List.mem_cons_of_mem _ among
    · rw [frame]
      simp [Path.needsStaging]

theorem exec_kinds (kinds : KindsOf p) (known : ∀ desc, descOf frame = some desc → Known p desc)
    (ran : exec p frame choice = some (p', pushed)) :
    KindsOf p' ∧ ∀ other ∈ pushed, ∀ desc, descOf other = some desc → Known p' desc := by
  cases frame with
  | iterate =>
      rcases execIterate_cases ran with ⟨rfl, rfl⟩ | ⟨_, _, -, chosen, passes, rfl, rfl⟩
      · exact ⟨⟨kinds.owed, kinds.control, kinds.data, kinds.ring, kinds.zcopy⟩, by simp⟩
      · obtain ⟨after, known⟩ := kinds.dequeue chosen passes
        refine ⟨after, fun other among desc is => ?_⟩
        cases List.mem_singleton.mp among
        cases is
        exact known
  | takeBack hand ret =>
      have here := (known _ rfl).2
      have zcopy : ∀ pkt ∈ (p.undo hand).txZcopyInflight, pkt.core ∈ p.owed := by
        simp only [Path.undo]
        split
        · exact kinds.zcopy
        · exact fun pkt among => kinds.zcopy pkt (List.mem_of_mem_filter among)
      rcases execTakeBack_cases ran with ⟨control, rfl, -, rfl⟩ | ⟨data, rfl, -, rfl⟩ | ⟨rfl, rfl⟩
      · refine ⟨⟨kinds.owed, fun pkt among => ?_, kinds.data, kinds.ring, zcopy⟩, by simp [descOf]⟩
        rcases List.mem_cons.mp among with rfl | old
        · exact ⟨control, here⟩
        · exact kinds.control pkt old
      · refine ⟨⟨kinds.owed, kinds.control, fun pkt among => ?_, kinds.ring, zcopy⟩, by simp [descOf]⟩
        rcases List.mem_cons.mp among with rfl | old
        · exact ⟨data, here⟩
        · exact kinds.data pkt old
      · refine ⟨⟨kinds.owed, kinds.control, kinds.data, kinds.ring, zcopy⟩, ?_⟩
        split <;> simp [descOf]
  | ringTx hand =>
      simp only [exec, execRingTx] at ran
      repeat' split at ran
      all_goals cases ran
      · refine ⟨⟨kinds.owed, kinds.control, kinds.data, fun desc among => ?_, kinds.zcopy⟩,
          by simp [descOf]⟩
        rcases List.mem_append.mp among with old | new
        · exact kinds.ring desc old
        · cases List.mem_singleton.mp new
          exact known _ rfl
      all_goals
        refine ⟨kinds, fun other among desc is => ?_⟩
        cases List.mem_singleton.mp among
        exact known desc is
  | attach hand =>
      simp only [exec, execAttach] at ran
      split at ran <;> cases ran
      · refine ⟨⟨kinds.owed, kinds.control, kinds.data, kinds.ring, kinds.zcopy⟩,
          fun other among desc is => ?_⟩
        cases List.mem_singleton.mp among
        exact known desc is
      · refine ⟨⟨kinds.owed, kinds.control, kinds.data, kinds.ring, fun pkt among => ?_⟩,
          fun other among desc is => ?_⟩
        · rcases List.mem_append.mp among with old | new
          · exact kinds.zcopy pkt old
          · cases List.mem_singleton.mp new
            exact (known _ rfl).2
        · cases List.mem_singleton.mp among
          exact known desc is
  | detach hand ret =>
      simp only [exec] at ran
      split at ran <;> cases ran
      refine ⟨⟨kinds.owed, kinds.control, kinds.data, kinds.ring, kinds.zcopy⟩, fun other among desc is => ?_⟩
      cases List.mem_singleton.mp among
      exact known desc is
  | callback desc canceled =>
      have freed : KindsOf (p.freeDesc desc) := by
        unfold Path.freeDesc
        split
        · exact ⟨kinds.owed, kinds.control, kinds.data, kinds.ring, kinds.zcopy⟩
        · exact ⟨kinds.owed, kinds.control, kinds.data, kinds.ring,
            fun pkt among => kinds.zcopy pkt (List.mem_of_mem_filter among)⟩
      rcases execCallback_cases ran with ⟨-, rfl, rfl⟩ | ⟨pkt, -, rfl, rfl⟩
      · exact ⟨freed, by simp [descOf]⟩
      · exact ⟨⟨freed.owed, freed.control, freed.data, freed.ring, freed.zcopy⟩, by simp [descOf]⟩
  | cancel m =>
      cases ran
      refine ⟨⟨kinds.owed, kinds.control, fun pkt among =>
        kinds.data pkt (List.mem_of_mem_filter among), kinds.ring, kinds.zcopy⟩, fun other among desc is => ?_⟩
      rcases List.mem_append.mp among with released | again
      · rw [descOf_releases other released] at is
        cases is
      · split at again
        · cases List.mem_singleton.mp again
          cases is
        · cases again
  | cancelQueued status =>
      cases ran
      refine ⟨⟨kinds.owed, by simp [Path.emptyQueues], by simp [Path.emptyQueues], kinds.ring, kinds.zcopy⟩,
        fun other among desc is => ?_⟩
      rw [descOf_releases other among] at is
      cases is
  | flush =>
      cases ran
      refine ⟨⟨kinds.owed, by simp [Path.emptyQueues], by simp [Path.emptyQueues], kinds.ring, kinds.zcopy⟩,
        fun other among desc is => ?_⟩
      rcases List.mem_append.mp among with released | last
      · rw [descOf_releases other released] at is
        cases is
      · cases List.mem_singleton.mp last
        cases is
  | schedule | finishRawStream pkt | release pkt status | stopScheduling | completed pkt canceled
  | disableTunnel | ringStop | ringStopped | inflightDec =>
      simp only [exec] at ran
      repeat' split at ran
      all_goals cases ran
      all_goals exact ⟨⟨kinds.owed, kinds.control, kinds.data, kinds.ring, kinds.zcopy⟩, by simp [descOf]⟩

end Exec

theorem Known.mono {p q : Path} {desc : Desc} (known : Known p desc)
    (more : ∀ pkt ∈ p.owed, pkt ∈ q.owed) : Known q desc :=
  ⟨known.1, more _ known.2⟩

theorem reacts_owed {p p' : Path} {code : List Frame} (reacts : Reacts p p' code) :
    ∀ pkt ∈ p.owed, pkt ∈ p'.owed := by
  intro pkt among
  cases reacts <;> first | exact among | exact List.mem_append_left _ among

theorem reacts_kinds {p p' : Path} {code : List Frame} (kinds : KindsOf p)
    (reacts : Reacts p p' code) :
    KindsOf p' ∧ ∀ other ∈ code, ∀ desc, descOf other = some desc → Known p desc := by
  have more := reacts_owed reacts
  have ring : ∀ desc ∈ p.ring, Known p' desc := fun desc among => (kinds.ring desc among).mono more
  have control : ∀ pkt ∈ p.txControlQueue, pkt.control = true ∧ pkt.core ∈ p'.owed :=
    fun pkt among => ⟨(kinds.control pkt among).1, more _ (kinds.control pkt among).2⟩
  have data : ∀ pkt ∈ p.txDataQueue, pkt.control = false ∧ pkt.core ∈ p'.owed :=
    fun pkt among => ⟨(kinds.data pkt among).1, more _ (kinds.data pkt among).2⟩
  have zcopy : ∀ pkt ∈ p.txZcopyInflight, pkt.core ∈ p'.owed :=
    fun pkt among => more _ (kinds.zcopy pkt among)
  cases reacts with
  | @sendControl pkt ids fresh copied plain admits =>
      have owes : ∀ other ∈ p.owed ++ [pkt],
          other.core = other ∧ (other.control = true → other.zcopy = false) := by
        intro other among
        rcases List.mem_append.mp among with old | new
        · exact kinds.owed other old
        · cases List.mem_singleton.mp new
          exact ⟨(fresh pkt (List.mem_singleton_self _)).2, fun _ => copied⟩
      refine ⟨⟨owes, fun other among => ?_, data, ring, zcopy⟩, by simp [descOf]⟩
      rcases List.mem_append.mp among with old | new
      · exact control other old
      · cases List.mem_singleton.mp new
        have is := fresh pkt (List.mem_singleton_self _)
        exact ⟨is.1, by rw [is.2]; exact List.mem_append_right _ (List.mem_singleton_self _)⟩
  | @sendData pkts queued reserved ids fresh group same uncounted admits room =>
      have owes : ∀ other ∈ p.owed ++ pkts,
          other.core = other ∧ (other.control = true → other.zcopy = false) := by
        intro other among
        rcases List.mem_append.mp among with old | new
        · exact kinds.owed other old
        · have is := fresh other new
          exact ⟨is.2, fun control => by rw [is.1] at control; cases control⟩
      refine ⟨⟨owes, control, fun other among => ?_, ring, zcopy⟩, by simp [descOf]⟩
      rcases List.mem_append.mp among with old | new
      · exact data other old
      · have sent : other.core ∈ pkts := same ▸ List.mem_map_of_mem new
        exact ⟨(fresh _ sent).1, List.mem_append_right _ sent⟩
  | fail ids fresh each error =>
      refine ⟨⟨kinds.owed, control, data, ring, zcopy⟩, fun other among desc is => ?_⟩
      obtain ⟨call, -, rfl⟩ := List.mem_map.mp among
      cases is
  | retire canceled found =>
      refine ⟨⟨kinds.owed, control, data, fun desc among =>
        ring desc (List.mem_of_mem_eraseIdx among), zcopy⟩, fun other among desc is => ?_⟩
      cases List.mem_singleton.mp among
      cases is
      exact kinds.ring _ (List.mem_of_getElem? found)
  | _ => exact ⟨⟨kinds.owed, control, data, ring, zcopy⟩, by simp [descOf]⟩

theorem kinds_start (cfg : Config) : Kinds (start cfg) where
  path := ⟨by simp [start, Path.fresh], by simp [start, Path.fresh], by simp [start, Path.fresh],
    by simp [start, Path.fresh], by simp [start, Path.fresh]⟩
  frames := fun frame desc has => by
    obtain ⟨stack, among, -⟩ := has
    cases among

theorem Kinds.step {st st' : St} {label : Lbl} (kinds : Kinds st)
    (stepped : step st label = some st') : Kinds st' := by
  cases label with
  | event event =>
      obtain ⟨p, code, reacted, rfl⟩ := step_event stepped
      have reacts := react_cases reacted
      obtain ⟨path, started⟩ := reacts_kinds kinds.path reacts
      refine ⟨path, fun frame desc has is => ?_⟩
      rcases State.has_of_event has with new | old
      · exact (started frame new desc is).mono (reacts_owed reacts)
      · exact (kinds.frames frame desc old is).mono (reacts_owed reacts)
  | run thread choice =>
      obtain ⟨frame, rest, p, pushed, found, executed, rfl⟩ := step_run stepped
      obtain ⟨path, news⟩ := exec_kinds kinds.path
        (fun desc is => kinds.frames frame desc (State.has_of_top found) is) executed
      refine ⟨path, fun other desc has is => ?_⟩
      rcases State.has_of_run found has with new | old
      · exact news other new desc is
      · refine (kinds.frames other desc old is).mono fun pkt among => ?_
        rw [(exec_keeps executed).owed]
        exact among

theorem kinds_reached {ok : St → Lbl → Prop} {cfg : Config} {st : St}
    (reached : Reaches step ok (start cfg) st) : Kinds st :=
  reached.invariant (kinds_start cfg) fun kinds _ stepped => kinds.step stepped

end Tbv.Tx
