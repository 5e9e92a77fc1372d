import ThunderboltIbverbs.Tx.Model

/-! # What a section of the TX side does -/
set_option autoImplicit false
namespace Tbv.Tx

variable {p p' : Path} {pushed : List Frame}

theorem count_packet (raw : RawStream) (pkt : TxPacket) :
    ∃ counted, (raw.count pkt).2 = { pkt with rawStreamCounted := counted } := by
  simp only [RawStream.count]
  split
  · split
    · exact ⟨true, rfl⟩
    · exact ⟨pkt.rawStreamCounted, rfl⟩
  · split
    · exact ⟨true, rfl⟩
    · exact ⟨pkt.rawStreamCounted, rfl⟩

/-- A dequeued packet is the queued one but for its bookkeeping. -/
theorem dequeue_packet (p : Path) (fromControlQueue : Bool) (pkt : TxPacket) :
    ∃ counted, (p.dequeue fromControlQueue pkt).2.pkt =
      { pkt with startCreditGroupFrames := 0, rawStreamCounted := counted } :=
  count_packet p.rawStream { pkt with startCreditGroupFrames := 0 }

theorem choose_cases {fromControlQueue : Bool} {pkt : TxPacket}
    (chosen : p.choose = some (fromControlQueue, pkt)) :
    (fromControlQueue = true ∧ p.rawStream.active = false ∧
      ∃ rest, p.txControlQueue = pkt :: rest) ∨
    (fromControlQueue = false ∧ ∃ rest, p.txDataQueue = pkt :: rest) := by
  unfold Path.choose at chosen
  split at chosen
  · split at chosen
    · cases chosen
    · rename_i queue
      split at chosen <;> cases chosen
      exact .inr ⟨rfl, _, queue⟩
  · rename_i inactive
    split at chosen <;> cases chosen
    · rename_i queue
      exact .inl ⟨rfl, by simpa using inactive, _, queue⟩
    · rename_i queue
      exact .inr ⟨rfl, _, queue⟩

theorem execIterate_cases (ran : execIterate p = some (p', pushed)) :
    (p' = p.stop ∧ pushed = []) ∨
    ∃ fromControlQueue pkt, p.txAdmits = true ∧ p.choose = some (fromControlQueue, pkt) ∧
      p.gate fromControlQueue pkt = none ∧ p' = (p.dequeue fromControlQueue pkt).1 ∧
      pushed = [.attach (p.dequeue fromControlQueue pkt).2] := by
  unfold execIterate at ran
  split at ran
  · cases ran
    exact .inl ⟨rfl, rfl⟩
  · rename_i going
    split at ran
    · cases ran
      exact .inl ⟨rfl, rfl⟩
    · rename_i fromControlQueue pkt chosen
      split at ran <;> cases ran
      · exact .inl ⟨rfl, rfl⟩
      · rename_i open_
        refine .inr ⟨fromControlQueue, pkt, ?_, chosen, open_, rfl, rfl⟩
        by_contra closed
        exact going (by simp [closed])

theorem free_of_gate {fromControlQueue : Bool} {pkt : TxPacket}
    (passes : p.gate fromControlQueue pkt = none)
    (staging : Path.needsStaging fromControlQueue pkt = true) :
    ∃ i rest, p.txFree = i :: rest := by
  cases found : p.txFree with
  | cons i rest => exact ⟨i, rest, rfl⟩
  | nil =>
      simp only [Path.gate, staging, found, List.isEmpty_nil, Bool.and_self, if_true] at passes
      split at passes <;> cases passes

theorem execTakeBack_cases {hand : Hand} {ret : Int}
    (ran : execTakeBack p hand ret = some (p', pushed)) :
    (hand.pkt.control = true ∧ pushed = [.inflightDec] ∧
      p.requeues { hand.pkt with rawStreamCounted := false } ret = true ∧
      p' = (p.undo hand).putBackControl { hand.pkt with rawStreamCounted := false }) ∨
    (hand.pkt.control = false ∧ pushed = [.inflightDec] ∧
      p.requeues { hand.pkt with rawStreamCounted := false } ret = true ∧
      p' = (p.undo hand).putBackData { hand.pkt with
        rawStreamCounted := false
        startCreditGroupFrames := hand.oldStartCreditGroupFrames }) ∨
    (p' = p.undo hand ∧ pushed =
      if hand.pkt.zcopy then
        [.inflightDec, .finishRawStream { hand.pkt with rawStreamCounted := false },
          .release { hand.pkt with rawStreamCounted := false } ret, .stopScheduling]
      else
        [.inflightDec, .release { hand.pkt with rawStreamCounted := false } ret,
          .stopScheduling]) := by
  simp only [execTakeBack] at ran
  split at ran
  · rename_i again
    split at ran <;> cases ran
    · rename_i control
      exact .inl ⟨control, rfl, again, rfl⟩
    · rename_i data
      exact .inr (.inl ⟨by simpa using data, rfl, again, rfl⟩)
  · cases ran
    exact .inr (.inr ⟨rfl, rfl⟩)

theorem execCallback_cases {desc : Desc} {canceled : Bool}
    (ran : execCallback p desc canceled = some (p', pushed)) :
    (p.descPacket desc = none ∧ p' = p.freeDesc desc ∧ pushed = [.inflightDec, .schedule]) ∨
    ∃ pkt, p.descPacket desc = some pkt ∧ p' = (p.freeDesc desc).noteRetired pkt.id canceled ∧
      pushed = [.finishRawStream pkt, .completed pkt canceled, .inflightDec, .schedule] := by
  unfold execCallback at ran
  split at ran <;> cases ran
  · rename_i found
    exact .inr ⟨_, found, rfl, rfl⟩
  · rename_i missing
    exact .inl ⟨missing, rfl, rfl⟩

/-! ## What an event does -/

def TxPacket.core (pkt : TxPacket) : TxPacket :=
  { pkt with startCreditGroupFrames := 0, rawStreamCounted := false }

@[simp] theorem core_id (pkt : TxPacket) : pkt.core.id = pkt.id := rfl

/-- The packets have the next identities, in order. -/
def Numbered (first : Nat) (pkts : List TxPacket) : Prop :=
  pkts.map TxPacket.id = List.range' first pkts.length

def Pages (owner : Nat) : List TxPacket → Prop
  | [] => False
  | [page] => page.zcopy = true ∧ page.rawStreamStart = false ∧ page.ownerCtx = some owner ∧
      page.rawStreamEnd = true
  | page :: next :: rest => (page.zcopy = true ∧ page.rawStreamStart = false ∧
      page.ownerCtx = some owner ∧ page.rawStreamEnd = false) ∧ Pages owner (next :: rest)

/-- What a send of data hands over: packets that are copied, or a page stream. -/
inductive Group : List TxPacket → Prop
  | copied {pkts : List TxPacket}
      (plain : ∀ pkt ∈ pkts, pkt.zcopy = false ∧ pkt.rawStreamStart = false ∧
        pkt.rawStreamEnd = false) : Group pkts
  | stream {first : TxPacket} {pages : List TxPacket} {owner : Nat}
      (copied : first.zcopy = false) (starts : first.rawStreamStart = true)
      (inner : first.rawStreamEnd = false)
      (owned : first.ownerCtx = some owner) (rest : Pages owner pages) : Group (first :: pages)

def Fresh (control : Bool) (pkts : List TxPacket) : Prop :=
  ∀ pkt ∈ pkts, pkt.control = control ∧ pkt.core = pkt

/-- One event: the path after it and the thread it starts. -/
inductive Reacts (p : Path) : Path → List Frame → Prop
  | sendControl {pkt : TxPacket} (ids : Numbered p.nextId [pkt]) (fresh : Fresh true [pkt])
      (copied : pkt.zcopy = false) (plain : pkt.rawStreamStart = false) (admits : p.txAdmits = true) :
      Reacts p ({ p with
        txControlQueue := p.txControlQueue ++ [pkt]
        txControlQueued := p.txControlQueued + 1 }.take [pkt]) [.schedule]
  | sendData {pkts queued : List TxPacket} {reserved : Nat} (ids : Numbered p.nextId pkts)
      (fresh : Fresh false pkts) (group : Group pkts)
      (same : queued.map TxPacket.core = pkts)
      (uncounted : ∀ pkt ∈ queued, pkt.rawStreamCounted = false) (admits : p.txAdmits = true)
      (room : p.txDataQueued + p.txDataReserved ≤ p.txDataQueueLimit →
        p.txDataQueued + queued.length + reserved ≤ p.txDataQueueLimit) :
      Reacts p ({ p with
        txDataReserved := reserved
        txDataQueue := p.txDataQueue ++ queued
        txDataQueued := p.txDataQueued + queued.length }.take pkts) [.schedule]
  | refuse (count : Nat) : Reacts p (p.refuse count) []
  | fail {pkts : List TxPacket} {gone : List (TxPacket × Int)} (ids : Numbered p.nextId pkts)
      (fresh : Fresh false pkts) (each : (gone.map Prod.fst).Perm pkts)
      (error : ∀ call ∈ gone, call.2 ≠ 0) :
      Reacts p (p.fail pkts) (gone.map fun call => .release call.1 call.2)
  | reserve {reserved : Nat}
      (room : p.txDataQueued + p.txDataReserved ≤ p.txDataQueueLimit →
        p.txDataQueued + reserved ≤ p.txDataQueueLimit) :
      Reacts p { p with txDataReserved := reserved } []
  | kick : Reacts p p [.schedule]
  | retire {place : Nat} {desc : Desc} (canceled : Bool) (found : p.ring[place]? = some desc) :
      Reacts p { p with ring := p.ring.eraseIdx place } [.callback desc canceled]
  | credits (credits creditMax : Nat) :
      Reacts p { p with txRemoteDataCredits := credits, txRemoteDataCreditMax := creditMax }
        [.schedule]
  | closeTx : Reacts p { p with txClosed := true } []
  | openTx : Reacts p { p with txClosed := false } [.schedule]
  | cancel (m : Match) : Reacts p p [.cancel m]
  | cancelQueued : Reacts p p [.cancelQueued NativePath.ecanceled]
  | ringRuns (runs : Bool) : Reacts p { p with ringRunning := runs } []
  | destroy : Reacts p p [.disableTunnel, .ringStop, .ringStopped]

theorem core_markGroup {count : Nat} {pkts : List TxPacket} (fresh : Fresh false pkts) :
    (markGroup count pkts).map TxPacket.core = pkts := by
  have each : ∀ pkt ∈ pkts, pkt.core = pkt := fun pkt among => (fresh pkt among).2
  cases pkts with
  | nil => rfl
  | cons first rest =>
      simp only [markGroup, List.map_cons, List.map_map]
      congr 1
      · exact each first (List.mem_cons_self ..)
      · conv_rhs => rw [← List.map_id rest]
        refine List.map_congr_left fun pkt among => ?_
        exact each pkt (List.mem_cons_of_mem _ among)

theorem markGroup_uncounted {count : Nat} {pkts : List TxPacket} (fresh : Fresh false pkts) :
    ∀ pkt ∈ markGroup count pkts, pkt.rawStreamCounted = false := by
  have each : ∀ pkt ∈ pkts, pkt.rawStreamCounted = false :=
    fun pkt among => (congrArg TxPacket.rawStreamCounted (fresh pkt among).2).symm
  cases pkts with
  | nil => exact fun pkt among => absurd among List.not_mem_nil
  | cons first rest =>
      intro pkt among
      rcases List.mem_cons.mp among with rfl | later
      · exact each first (List.mem_cons_self ..)
      · obtain ⟨old, inRest, rfl⟩ := List.mem_map.mp later
        exact each old (List.mem_cons_of_mem _ inRest)

@[simp] theorem markGroup_length (count : Nat) (pkts : List TxPacket) :
    (markGroup count pkts).length = pkts.length := by
  cases pkts <;> simp [markGroup]

theorem reacts_idle : Reacts p p [] := Reacts.reserve fun within => within

/-! ### Page streams -/

theorem fresh_nil {control : Bool} : Fresh control [] := by
  rintro _ ⟨⟩

theorem preparePages_packets {s : PageStream} {id prepared : Nat} {pages : List NextPage}
    {out : PreparedPages} (ran : s.preparePages id prepared pages = some out) :
    Numbered id (out.packets ++ (out.faulted.map Prod.fst).toList) ∧
    Fresh false (out.packets ++ (out.faulted.map Prod.fst).toList) ∧
    (∀ call ∈ out.faulted, call.2 ≠ 0) ∧
    (out.ret = 0 → out.faulted = none ∧ (prepared ≠ s.totalLength → Pages s.metaCtx out.packets)) := by
  induction pages generalizing id prepared out with
  | nil =>
      simp only [PageStream.preparePages] at ran
      split at ran <;> cases ran
      rename_i whole
      exact ⟨rfl, fresh_nil, by simp, fun _ => ⟨rfl, fun part => absurd whole part⟩⟩
  | cons next rest ih =>
      simp only [PageStream.preparePages] at ran
      split at ran
      · rename_i whole
        cases ran
        exact ⟨rfl, fresh_nil, by simp, fun _ => ⟨rfl, fun part => absurd whole part⟩⟩
      · split at ran
        · split at ran <;> cases ran
          rename_i error
          exact ⟨rfl, fresh_nil, by simp, fun none => absurd none error⟩
        · rename_i len done doneCtx fault
          generalize found : (if len = 0 ∨ s.maxRawPayload < len ∨ s.totalLength - prepared < len
            then some einval else fault) = refused at ran
          cases refused with
          | some ret =>
              simp only at ran
              split at ran <;> cases ran
              rename_i error
              refine ⟨rfl, ?_, ?_, fun none => absurd none error⟩
              · rintro pkt among
                simp only [Option.map_some, Option.toList_some, List.nil_append,
                  List.mem_singleton] at among
                subst among
                exact ⟨rfl, rfl⟩
              · rintro call (rfl | _)
                exact error
          | none =>
              simp only [Option.map_eq_some_iff] at ran
              obtain ⟨later, ranLater, rfl⟩ := ran
              obtain ⟨ids, fresh, error, good⟩ := ih ranLater
              have fits : prepared + len ≤ s.totalLength := by
                by_contra beyond
                rw [if_pos (by omega)] at found
                cases found
              refine ⟨?_, ?_, error, fun ok => ⟨(good ok).1, fun _ => ?_⟩⟩
              · simp only [Numbered, List.cons_append, List.map_cons, List.length_cons,
                  List.range'_succ] at ids ⊢
                rw [ids]
              · intro pkt among
                rcases List.mem_cons.mp among with rfl | among
                · exact ⟨rfl, rfl⟩
                · exact fresh pkt among
              · by_cases last : prepared + len = s.totalLength
                · have none : later.packets = [] := by
                    cases rest with
                    | nil =>
                        simp only [PageStream.preparePages, last, if_true] at ranLater
                        cases ranLater
                        rfl
                    | cons _ _ =>
                        simp only [PageStream.preparePages, last, if_true] at ranLater
                        cases ranLater
                        rfl
                  simp [none, Pages, last]
                · have pages := (good ok).2 last
                  cases packets : later.packets with
                  | nil =>
                      rw [packets] at pages
                      exact pages.elim
                  | cons page more =>
                      rw [packets] at pages
                      exact ⟨⟨rfl, rfl, rfl, by simp [last]⟩, pages⟩

theorem numbered_cons {first : Nat} {pkt : TxPacket} {pkts : List TxPacket} (is : pkt.id = first)
    (rest : Numbered (first + 1) pkts) : Numbered first (pkt :: pkts) := by
  simp only [Numbered, List.map_cons, List.length_cons, List.range'_succ] at rest ⊢
  rw [is, rest]

theorem reacts_releases {pkts : List TxPacket} {ret : Int} (ids : Numbered p.nextId pkts)
    (fresh : Fresh false pkts) (error : ret ≠ 0) : Reacts p (p.fail pkts) (releases pkts ret) := by
  have same : releases pkts ret =
      (pkts.map fun pkt => (pkt, ret)).map fun call => .release call.1 call.2 := by
    simp [releases]
  rw [same]
  refine .fail ids fresh (by simp [Function.comp_def]) ?_
  rintro call among
  obtain ⟨pkt, -, rfl⟩ := List.mem_map.mp among
  exact error

theorem enqueueDataList_error {pkts : List TxPacket} {ret : Int}
    (refused : p.enqueueDataList pkts = .error ret) : ret ≠ 0 := by
  unfold Path.enqueueDataList at refused
  split at refused
  · cases refused
    decide
  · split at refused <;> cases refused
    decide

theorem reactPageStream_cases {s : PageStream}
    (reacted : reactPageStream p s = some (p', pushed)) : Reacts p p' pushed := by
  simp only [reactPageStream] at reacted
  generalize found : (if s.totalLength = 0 then some einval else s.early) = early at reacted
  have first : Numbered p.nextId [s.metaPacket p.nextId] := rfl
  have freshFirst : Fresh false [s.metaPacket p.nextId] := by
    rintro pkt (_ | _)
    · exact ⟨rfl, rfl⟩
    · contradiction
  cases early with
  | some ret =>
      simp only at reacted
      split at reacted <;> cases reacted
      rename_i error
      exact reacts_releases first freshFirst error
  | none =>
      simp only [Option.map_eq_some_iff] at reacted
      obtain ⟨out, ran, made⟩ := reacted
      obtain ⟨ids, fresh, error, good⟩ := preparePages_packets ran
      cases faulted : out.faulted with
      | some call =>
          obtain ⟨page, ret⟩ := call
          simp only [faulted, Option.map_some, Option.toList_some] at made ids fresh
          have nonzero : ret ≠ 0 := error (page, ret) faulted
          cases made
          have calls : Frame.release page ret :: releases (s.metaPacket p.nextId :: out.packets) ret =
              ((page :: s.metaPacket p.nextId :: out.packets).map fun pkt => (pkt, ret)).map
                fun call => .release call.1 call.2 := by
            simp [releases]
          rw [calls]
          refine .fail ?_ ?_ ?_ ?_
          · exact numbered_cons rfl ids
          · intro pkt among
            rcases List.mem_cons.mp among with rfl | among
            · exact ⟨rfl, rfl⟩
            · exact fresh pkt among
          · simp only [List.map_map, Function.comp_def, List.map_id']
            exact (List.perm_append_singleton page (s.metaPacket p.nextId :: out.packets)).symm
          · rintro call among
            obtain ⟨pkt, -, rfl⟩ := List.mem_map.mp among
            exact nonzero
      | none =>
          simp only [faulted, Option.map_none, Option.toList_none, List.append_nil] at made ids fresh
          have idsAll : Numbered p.nextId (s.metaPacket p.nextId :: out.packets) :=
            numbered_cons rfl ids
          have freshAll : Fresh false (s.metaPacket p.nextId :: out.packets) := by
            intro pkt among
            rcases List.mem_cons.mp among with rfl | among
            · exact ⟨rfl, rfl⟩
            · exact fresh pkt among
          split at made
          · rename_i failed
            cases made
            exact reacts_releases idsAll freshAll failed
          · rename_i whole
            have ok : out.ret = 0 := by
              by_contra failed
              exact whole failed
            split at made
            · rename_i q enqueued
              cases made
              unfold Path.enqueueDataList at enqueued
              split at enqueued
              · cases enqueued
              · rename_i admits
                split at enqueued <;> cases enqueued
                rename_i room
                have nonzero : 0 ≠ s.totalLength := by
                  intro zero
                  rw [if_pos zero.symm] at found
                  cases found
                have group : Group (s.metaPacket p.nextId :: out.packets) :=
                  .stream rfl rfl rfl rfl ((good ok).2 nonzero)
                have sent := @Reacts.sendData p _ (markGroup (out.packets.length + 1)
                  (s.metaPacket p.nextId :: out.packets)) p.txDataReserved idsAll freshAll group
                  (core_markGroup freshAll) (markGroup_uncounted freshAll)
                  (by simpa using admits) (by
                    intro within
                    rw [markGroup_length]
                    omega)
                rw [markGroup_length] at sent
                exact sent
            · rename_i ret refused
              cases made
              exact reacts_releases idsAll freshAll (enqueueDataList_error refused)

theorem send_cases {pkts : List TxPacket} {queued : Option Path}
    (reacted : p.send pkts queued = some (p', pushed))
    (sends : ∀ q, queued = some q → Reacts p (q.take pkts) [.schedule]) : Reacts p p' pushed := by
  unfold Path.send at reacted
  split at reacted <;> cases reacted
  · exact sends _ rfl
  · exact .refuse _

theorem react_cases {event : Event} (reacted : react p event = some (p', pushed)) :
    Reacts p p' pushed := by
  cases event with
  | sendControl done doneCtx fault =>
      refine send_cases reacted fun q is => ?_
      split at is
      · cases is
      · unfold Path.enqueueControl at is
        split at is <;> cases is
        rename_i admits
        refine .sendControl rfl ?_ rfl rfl (by simpa using admits)
        rintro pkt among
        cases List.mem_singleton.mp among
        exact ⟨rfl, rfl⟩
  | sendData done doneCtx fault =>
      refine send_cases reacted fun q is => ?_
      have fresh : Fresh false [({ id := p.nextId, done, doneCtx, ownerCtx := doneCtx } : TxPacket)] := by
        rintro pkt among
        cases List.mem_singleton.mp among
        exact ⟨rfl, rfl⟩
      have group : Group [({ id := p.nextId, done, doneCtx, ownerCtx := doneCtx } : TxPacket)] := by
        refine .copied fun pkt among => ?_
        cases List.mem_singleton.mp among
        exact ⟨rfl, rfl, rfl⟩
      split at is
      · cases is
      · simp only [Path.enqueueData] at is
        split at is
        · cases is
        · rename_i admits
          split at is
          · cases is
            rename_i reserved
            refine @Reacts.sendData p _ [_] (p.txDataReserved - 1) rfl fresh group rfl
              (by simp) (by simpa using admits) ?_
            simp only [List.length_singleton]
            omega
          · split at is <;> cases is
            rename_i none room
            refine @Reacts.sendData p _ [_] p.txDataReserved rfl fresh group rfl
              (by simp) (by simpa using admits) ?_
            simp only [List.length_singleton]
            omega
  | sendReservedList count done doneCtx fault =>
      simp only [react] at reacted
      split at reacted
      · cases reacted
        exact reacts_idle
      · refine send_cases reacted fun q is => ?_
        split at is
        · cases is
        · have fresh : Fresh false (ownedList p.nextId count done doneCtx) := by
            intro pkt among
            obtain ⟨id, -, rfl⟩ := List.mem_map.mp among
            exact ⟨rfl, rfl⟩
          unfold Path.enqueueReservedDataList at is
          split at is <;> cases is
          rename_i can
          simp only [Bool.or_eq_true, Bool.not_eq_true', decide_eq_true_eq, not_or,
            Bool.not_eq_false, not_lt] at can
          have sent := @Reacts.sendData p _ (markGroup (ownedList p.nextId count done doneCtx).length
            (ownedList p.nextId count done doneCtx))
            (p.txDataReserved - (ownedList p.nextId count done doneCtx).length) (by
              simp [Numbered, ownedList, Function.comp_def]) fresh (.copied (by
              intro pkt among
              obtain ⟨id, -, rfl⟩ := List.mem_map.mp among
              exact ⟨rfl, rfl, rfl⟩)) (core_markGroup fresh) (markGroup_uncounted fresh) can.1 (by
                rw [markGroup_length]
                omega)
          rw [markGroup_length] at sent
          exact sent
  | sendPageStream s => exact reactPageStream_cases reacted
  | reserveData frames =>
      simp only [react] at reacted
      split at reacted <;> cases reacted
      · exact reacts_idle
      · rename_i room
        simp only [Bool.or_eq_true, Bool.not_eq_true', decide_eq_true_eq, not_or, not_lt] at room
        exact .reserve fun _ => by omega
  | releaseDataReservation frames =>
      cases reacted
      exact .reserve fun _ => by omega
  | kick =>
      cases reacted
      exact .kick
  | retire place canceled =>
      simp only [react] at reacted
      split at reacted <;> cases reacted
      rename_i found
      exact .retire canceled found
  | addRemoteRxCredits credits =>
      simp only [react] at reacted
      split at reacted
      · cases reacted
        exact reacts_idle
      · split at reacted <;> cases reacted
        · exact reacts_idle
        · exact .credits _ p.txRemoteDataCreditMax
  | setRemoteRxCapacity rxRingSize =>
      cases reacted
      exact .credits ..
  | closeTx =>
      cases reacted
      exact .closeTx
  | openTx =>
      cases reacted
      exact .openTx
  | cancel m =>
      simp only [react] at reacted
      split at reacted <;> cases reacted
      · exact reacts_idle
      · exact .cancel m
  | cancelQueued =>
      cases reacted
      exact .cancelQueued
  | ringStop =>
      cases reacted
      exact .ringRuns false
  | ringStart =>
      cases reacted
      exact .ringRuns true
  | destroy =>
      cases reacted
      exact .destroy

end Tbv.Tx
