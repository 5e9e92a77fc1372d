import ThunderboltIbverbs.Recv.Reap

/-! # Connected QPs that cannot be told apart

Two connected QPs that differ only in what no frame of their peer can show: entries of
the acknowledgement history that say what a missing entry says, an RNR mark of another
peer, and the source of early credits. -/
set_option autoImplicit false
namespace Tbv.RecvQueue

open Tbv.NativeData

def Rx.duplicateStatus (q : Rx) (psn : Nat) : SendAckStatus := (q.ackHistoryLookup psn).getD .ok

def Rx.markOf (q : Rx) (peer : Nat) : Option RnrMark := q.rnr.filter fun mark => mark.srcQp == peer

structure Alike (peer : Nat) (q q' : Rx) : Prop where
  connected : q.destQp = some peer
  rest : q' = { q with
    ackHistory := q'.ackHistory, rnr := q'.rnr, earlyCreditSrc := q'.earlyCreditSrc }
  history : ∀ psn, q.duplicateStatus psn = q'.duplicateStatus psn
  mark : q.markOf peer = q'.markOf peer

section Rules
variable {peer : Nat} {q q' : Rx}

/-- A change that does not concern what may differ. -/
theorem Alike.update (alike : Alike peer q q') (f : Rx → Rx)
    (blind : ∀ history rnr early,
      f { q with ackHistory := history, rnr := rnr, earlyCreditSrc := early } =
        { f q with ackHistory := history, rnr := rnr, earlyCreditSrc := early })
    (keeps : (f q).ackHistory = q.ackHistory ∧ (f q).rnr = q.rnr ∧ (f q).destQp = q.destQp) :
    Alike peer (f q) (f q') := by
  have same : f q' = { f q with
      ackHistory := q'.ackHistory, rnr := q'.rnr, earlyCreditSrc := q'.earlyCreditSrc } := by
    conv_lhs => rw [alike.rest]
    exact blind ..
  obtain ⟨history, rnr, dest⟩ := keeps
  refine ⟨dest.trans alike.connected, ?_, ?_, ?_⟩
  · rw [same]
  · intro psn
    have := alike.history psn
    simpa only [Rx.duplicateStatus, Rx.ackHistoryLookup, same, history] using this
  · have := alike.mark
    simpa only [Rx.markOf, same, rnr] using this

theorem Alike.ite {c : Prop} [Decidable c] {a a' b b' : Rx} (yes : c → Alike peer a a')
    (no : ¬ c → Alike peer b b') : Alike peer (if c then a else b) (if c then a' else b') := by
  split
  · exact yes ‹_›
  · exact no ‹_›

theorem Alike.ite' {c c' : Prop} [Decidable c] [Decidable c'] {a a' b b' : Rx} (same : c' ↔ c)
    (yes : c → Alike peer a a') (no : ¬ c → Alike peer b b') :
    Alike peer (if c then a else b) (if c' then a' else b') := by
  by_cases holds : c
  · rw [if_pos holds, if_pos (same.mpr holds)]
    exact yes holds
  · rw [if_neg holds, if_neg fun other => holds (same.mp other)]
    exact no holds

theorem Alike.note (alike : Alike peer q q') (entry : Entry) :
    Alike peer (q.note entry) (q'.note entry) :=
  alike.update (·.note entry) (fun _ _ _ => rfl) ⟨rfl, rfl, rfl⟩

theorem Alike.consumed (alike : Alike peer q q') : q'.consumed = q.consumed := by
  rw [alike.rest]

theorem Alike.sendAck (alike : Alike peer q q') (psn : Nat) (status : SendAckStatus) :
    Alike peer (q.sendAck psn status) (q'.sendAck psn status) := by
  unfold Rx.sendAck
  rw [alike.consumed]
  exact alike.note _

theorem Alike.reack (alike : Alike peer q q') (psn : Nat) :
    Alike peer (q.reack psn) (q'.reack psn) := by
  have same := alike.history psn
  unfold Rx.duplicateStatus at same
  unfold Rx.reack
  rw [same]
  exact alike.sendAck ..

/-- What may differ does not show in any other field. -/
theorem Alike.same {Value : Type} (alike : Alike peer q q') (field : Rx → Value)
    (blind : ∀ q history rnr early,
      field { q with ackHistory := history, rnr := rnr, earlyCreditSrc := early } = field q) :
    field q' = field q := by
  rw [alike.rest]
  exact blind ..

theorem Alike.expectedPsn (alike : Alike peer q q') : q'.expectedPsn = q.expectedPsn :=
  alike.same Rx.expectedPsn fun _ _ _ _ => rfl

theorem Alike.rxMsg (alike : Alike peer q q') : q'.rxMsg = q.rxMsg :=
  alike.same Rx.rxMsg fun _ _ _ _ => rfl

theorem Alike.rxWrite (alike : Alike peer q q') : q'.rxWrite = q.rxWrite :=
  alike.same Rx.rxWrite fun _ _ _ _ => rfl

theorem Alike.reorder (alike : Alike peer q q') : q'.reorder = q.reorder :=
  alike.same Rx.reorder fun _ _ _ _ => rfl

theorem Alike.reorderFind (alike : Alike peer q q') (psn : Nat) :
    q'.reorderFind psn = q.reorderFind psn :=
  alike.same (·.reorderFind psn) fun _ _ _ _ => rfl

/-- The stored status is the same for both, and hides the same entry. -/
theorem Alike.ackHistoryStore (alike : Alike peer q q') (psn : Nat) (status : SendAckStatus) :
    Alike peer (q.ackHistoryStore psn status) (q'.ackHistoryStore psn status) := by
  refine ⟨alike.connected, ?_, fun other => ?_, alike.mark⟩
  · unfold Rx.ackHistoryStore
    conv_lhs => rw [alike.rest]
  · have before := alike.history other
    simp only [Rx.duplicateStatus, Rx.ackHistoryLookup, Rx.ackHistoryStore] at before ⊢
    by_cases slot : other % ackHistorySize = psn % ackHistorySize
    · rw [slot, Function.update_self, Function.update_self]
    · rw [Function.update_of_ne slot, Function.update_of_ne slot]
      exact before

theorem Alike.consume (alike : Alike peer q q') (psn : Nat) (status : SendAckStatus) :
    Alike peer (q.consume psn status) (q'.consume psn status) := by
  have advanced := alike.update
    (fun q => { q with expectedPsn := psnNext psn, consumed := q.consumed + 1 })
    (fun _ _ _ => rfl) ⟨rfl, rfl, rfl⟩
  exact advanced.ackHistoryStore psn status

theorem Alike.cqPush (alike : Alike peer q q') (env : Env) (entry : Entry) :
    Alike peer (q.cqPush env entry) (q'.cqPush env entry) :=
  Alike.ite (fun _ => alike) fun _ => alike.note entry

theorem Alike.popRecv (alike : Alike peer q q') :
    (q.popRecv = none ∧ q'.popRecv = none) ∨ ∃ wqe next next', q.popRecv = some (wqe, next) ∧
      q'.popRecv = some (wqe, next') ∧ Alike peer next next' := by
  have recvq := alike.same Rx.recvq fun _ _ _ _ => rfl
  have closing := alike.same Rx.closing fun _ _ _ _ => rfl
  unfold Rx.popRecv
  rw [recvq, closing]
  cases waits : q.recvq with
  | nil => exact .inl ⟨rfl, rfl⟩
  | cons wqe rest =>
      by_cases closed : q.closing = true
      · exact .inl ⟨by simp [closed], by simp [closed]⟩
      · refine .inr ⟨wqe, { q with recvq := rest, advertised := q.advertised - 1 },
          { q' with recvq := rest, advertised := q'.advertised - 1 }, by simp [closed],
          by simp [closing, closed], ?_⟩
        exact alike.update (fun q => { q with recvq := rest, advertised := q.advertised - 1 })
          (fun _ _ _ => rfl) ⟨rfl, rfl, rfl⟩

end Rules

/-! ## Delivery -/

section Delivery
variable {peer : Nat} {q q' : Rx} {env : Env}

theorem Alike.reorderUnlink (alike : Alike peer q q') (m : ReorderMsg) :
    Alike peer (q.reorderUnlink m) (q'.reorderUnlink m) :=
  alike.update (·.reorderUnlink m) (fun _ _ _ => rfl) ⟨rfl, rfl, rfl⟩

theorem Alike.completeSend (alike : Alike peer q q') (psn : Nat) (wqe : RecvWqe)
    (status : WcStatus) (imm : Option Nat) (writes : List Write) :
    Alike peer (q.completeSend env psn wqe status imm writes)
      (q'.completeSend env psn wqe status imm writes) :=
  ((alike.cqPush env _).consume psn _).sendAck psn _

theorem Alike.clearMsg (alike : Alike peer q q') :
    Alike peer { q with rxMsg := none } { q' with rxMsg := none } :=
  alike.update (fun q => { q with rxMsg := none }) (fun _ _ _ => rfl) ⟨rfl, rfl, rfl⟩

theorem Alike.setMsg (alike : Alike peer q q') (m : RxMessage) :
    Alike peer { q with rxMsg := some m } { q' with rxMsg := some m } :=
  alike.update (fun q => { q with rxMsg := some m }) (fun _ _ _ => rfl) ⟨rfl, rfl, rfl⟩

theorem Alike.setWrite (alike : Alike peer q q') (w : Option RxWrite) :
    Alike peer { q with rxWrite := w } { q' with rxWrite := w } :=
  alike.update (fun q => { q with rxWrite := w }) (fun _ _ _ => rfl) ⟨rfl, rfl, rfl⟩

theorem Alike.finishSend (alike : Alike peer q q') (m : RxMessage) :
    Alike peer (q.finishSend env m) (q'.finishSend env m) :=
  alike.clearMsg.completeSend ..

theorem Alike.deliverReorderMsg (alike : Alike peer q q') (m : ReorderMsg) :
    Alike peer (q.deliverReorderMsg env m).1 (q'.deliverReorderMsg env m).1 ∧
      (q'.deliverReorderMsg env m).2 = (q.deliverReorderMsg env m).2 := by
  unfold Rx.deliverReorderMsg
  rcases alike.popRecv with ⟨none, none'⟩ | ⟨wqe, next, next', popped, popped', later⟩
  · rw [none, none']
    exact ⟨alike.sendAck .., rfl⟩
  · rw [popped, popped']
    exact ⟨(later.reorderUnlink m).completeSend .., rfl⟩

theorem Alike.writeFrags (alike : Alike peer q q') (rkey remoteAddr : Nat)
    (frags : List ReorderFrag) :
    Alike peer (q.writeFrags env rkey remoteAddr frags).1
        (q'.writeFrags env rkey remoteAddr frags).1 ∧
      (q'.writeFrags env rkey remoteAddr frags).2 = (q.writeFrags env rkey remoteAddr frags).2 := by
  induction frags generalizing q q' with
  | nil => exact ⟨alike, rfl⟩
  | cons frag rest ih =>
      unfold Rx.writeFrags
      split
      · exact ⟨alike, rfl⟩
      · split
        · exact ih (alike.note _)
        · exact ⟨alike, rfl⟩

theorem Alike.writeReorder (alike : Alike peer q q') (m : ReorderMsg) :
    Alike peer (q.writeReorder env m).1 (q'.writeReorder env m).1 ∧
      (q'.writeReorder env m).2 = (q.writeReorder env m).2 := by
  unfold Rx.writeReorder
  split
  · exact alike.writeFrags ..
  · exact ⟨alike, rfl⟩

theorem Alike.pushImm (alike : Alike peer q q') (wqe : RecvWqe) (status : WcStatus)
    (immData : Nat) : Alike peer (q.pushImm env wqe status immData)
      (q'.pushImm env wqe status immData) :=
  alike.cqPush env _

theorem Alike.passWrite (alike : Alike peer q q') (psn : Nat) (status : SendAckStatus) :
    Alike peer (q.passWrite psn status) (q'.passWrite psn status) :=
  (alike.consume psn status).sendAck psn status

theorem Alike.deliverReorderWrite (alike : Alike peer q q') (m : ReorderMsg) :
    Alike peer (q.deliverReorderWrite env m).1 (q'.deliverReorderWrite env m).1 ∧
      (q'.deliverReorderWrite env m).2 = (q.deliverReorderWrite env m).2 := by
  unfold Rx.deliverReorderWrite
  split
  · rcases alike.popRecv with ⟨none, none'⟩ | ⟨wqe, next, next', popped, popped', later⟩
    · rw [none, none']
      exact ⟨alike.sendAck .., rfl⟩
    · rw [popped, popped']
      obtain ⟨written, status⟩ := @Alike.writeReorder _ _ _ env (later.reorderUnlink m) m
      refine ⟨?_, rfl⟩
      simp only [status]
      exact (written.pushImm ..).passWrite ..
  · obtain ⟨written, status⟩ := @Alike.writeReorder _ _ _ env (alike.reorderUnlink m) m
    refine ⟨?_, rfl⟩
    simp only [status]
    exact written.passWrite ..

theorem Alike.passReadReq (alike : Alike peer q q') (psn : Nat) :
    Alike peer { q with expectedPsn := psnNext psn, consumed := q.consumed + 1 }
      { q' with expectedPsn := psnNext psn, consumed := q'.consumed + 1 } :=
  alike.update (fun q => { q with expectedPsn := psnNext psn, consumed := q.consumed + 1 })
    (fun _ _ _ => rfl) ⟨rfl, rfl, rfl⟩

theorem Alike.deliverReorder (alike : Alike peer q q') (m : ReorderMsg) :
    Alike peer (q.deliverReorder env m).1 (q'.deliverReorder env m).1 ∧
      (q'.deliverReorder env m).2 = (q.deliverReorder env m).2 := by
  unfold Rx.deliverReorder
  split
  · exact alike.deliverReorderWrite m
  · exact ⟨((alike.reorderUnlink m).passReadReq m.psn).note _, rfl⟩
  · exact alike.deliverReorderMsg m

theorem Alike.pruneOne (alike : Alike peer q q') (m : ReorderMsg) :
    Alike peer (q.pruneOne m) (q'.pruneOne m) := by
  unfold Rx.pruneOne
  rw [alike.expectedPsn]
  exact Alike.ite (fun _ => alike) fun _ => Alike.ite
    (fun _ => (alike.note _).reorderUnlink m) fun _ => (alike.reack _).reorderUnlink m

theorem Alike.pruneStaleReorder (alike : Alike peer q q') :
    Alike peer q.pruneStaleReorder q'.pruneStaleReorder := by
  unfold Rx.pruneStaleReorder
  rw [alike.reorder]
  generalize q.reorder = messages
  induction messages generalizing q q' with
  | nil => exact alike
  | cons m rest ih => exact ih (alike.pruneOne m)

theorem Alike.drainLoop (fuel : Nat) (alike : Alike peer q q') :
    Alike peer (Rx.drainLoop env fuel q) (Rx.drainLoop env fuel q') := by
  induction fuel generalizing q q' with
  | zero => exact alike
  | succ fuel ih =>
      unfold Rx.drainLoop
      rw [alike.rxMsg, alike.rxWrite, alike.expectedPsn, alike.pruneStaleReorder.reorderFind]
      refine Alike.ite (fun _ => alike) fun _ => ?_
      cases q.pruneStaleReorder.reorderFind q.expectedPsn with
      | none => exact alike.pruneStaleReorder
      | some m =>
          obtain ⟨delivered, more⟩ := @Alike.deliverReorder _ _ _ env alike.pruneStaleReorder m
          refine Alike.ite (fun _ => alike.pruneStaleReorder) fun _ => ?_
          simp only [more]
          exact Alike.ite (fun _ => ih delivered) fun _ => delivered

theorem Alike.drainReorder (alike : Alike peer q q') :
    Alike peer (q.drainReorder env) (q'.drainReorder env) := by
  unfold Rx.drainReorder
  rw [alike.reorder]
  exact alike.drainLoop _

end Delivery

/-! ## Buffering -/

section Buffering
variable {peer : Nat} {q q' : Rx} {env : Env}

theorem Alike.reorderSet (alike : Alike peer q q') (m : ReorderMsg) :
    Alike peer (q.reorderSet m) (q'.reorderSet m) :=
  alike.update (·.reorderSet m) (fun _ _ _ => rfl) ⟨rfl, rfl, rfl⟩

theorem Alike.reorderAdd (alike : Alike peer q q') (m : ReorderMsg) :
    Alike peer (q.reorderAdd m) (q'.reorderAdd m) :=
  alike.update (·.reorderAdd m) (fun _ _ _ => rfl) ⟨rfl, rfl, rfl⟩

theorem Alike.setReorderBytes (alike : Alike peer q q') (held : Nat) :
    Alike peer { q with reorderBytes := held } { q' with reorderBytes := held } :=
  alike.update (fun q => { q with reorderBytes := held }) (fun _ _ _ => rfl) ⟨rfl, rfl, rfl⟩

variable {onError : Rx → StoreError → Rx}

theorem Alike.storeInto (alike : Alike peer q q') (m : ReorderMsg) (idx offset : Nat)
    (payload : List UInt8)
    (fails : ∀ {q q' : Rx} (err : StoreError), Alike peer q q' →
      Alike peer (onError q err) (onError q' err)) :
    Alike peer (q.storeInto env m idx offset payload onError)
      (q'.storeInto env m idx offset payload onError) := by
  unfold Rx.storeInto
  rw [alike.same Rx.reorderBytes fun _ _ _ _ => rfl]
  cases storeFragment env q.reorderBytes m offset payload with
  | error err => exact fails err alike
  | ok stored =>
      have set := (alike.setReorderBytes stored.2).reorderSet (stored.1.mark idx)
      exact Alike.ite (fun _ => set.drainReorder) fun _ => set

theorem Alike.bufferInto (alike : Alike peer q q') (fresh : ReorderMsg) (idx offset : Nat)
    (payload : List UInt8)
    (fails : ∀ {q q' : Rx} (err : StoreError), Alike peer q q' →
      Alike peer (onError q err) (onError q' err)) :
    Alike peer (q.bufferInto env fresh idx offset payload onError)
      (q'.bufferInto env fresh idx offset payload onError) := by
  unfold Rx.bufferInto
  rw [alike.reorderFind, alike.same Rx.reorderCount fun _ _ _ _ => rfl]
  cases q.reorderFind fresh.psn with
  | none =>
      exact Alike.ite (fun _ => alike.sendAck ..) fun _ => Alike.ite (fun _ => alike.sendAck ..)
        fun _ => (alike.reorderAdd fresh).storeInto _ _ _ _ fails
  | some m =>
      have dropped := (alike.reorderUnlink m).sendAck fresh.psn .error
      exact Alike.ite (fun _ => dropped) fun _ => Alike.ite
        (fun _ => Alike.ite (fun _ => dropped) fun _ =>
          Alike.ite (fun _ => alike.drainReorder) fun _ => alike)
        fun _ => alike.storeInto _ _ _ _ fails

theorem Alike.bufferFragment (alike : Alike peer q q') (hdr : Header)
    (psn totalLen offset : Nat) (last : Bool) (payload : List UInt8) :
    Alike peer (q.bufferFragment env hdr psn totalLen offset last payload)
      (q'.bufferFragment env hdr psn totalLen offset last payload) := by
  unfold Rx.bufferFragment
  rw [alike.expectedPsn]
  refine Alike.ite (fun _ => alike.reack psn) fun _ => Alike.ite (fun _ => alike.sendAck ..)
    fun _ => ?_
  cases rxFragmentShape totalLen offset hdr.length last with
  | none => exact alike.sendAck ..
  | some shape =>
      refine alike.bufferInto _ _ _ _ fun {q q'} err alike => ?_
      rw [alike.reorderFind]
      cases q.reorderFind psn with
      | none => exact alike
      | some m =>
          exact Alike.ite (fun _ => alike.reorderUnlink m)
            fun _ => (alike.sendAck psn .error).reorderUnlink m

theorem Alike.bufferWriteFragment (alike : Alike peer q q') (hdr : Header)
    (psn totalLen offset : Nat) (last withImm : Bool) (payload : List UInt8) :
    Alike peer (q.bufferWriteFragment env hdr psn totalLen offset last withImm payload)
      (q'.bufferWriteFragment env hdr psn totalLen offset last withImm payload) := by
  unfold Rx.bufferWriteFragment
  rw [alike.expectedPsn]
  refine Alike.ite (fun _ => alike.reack psn) fun _ => Alike.ite (fun _ => alike.sendAck ..)
    fun _ => ?_
  cases rxWriteFragmentShape totalLen offset hdr.length last with
  | none => exact alike.sendAck ..
  | some shape =>
      refine alike.bufferInto _ _ _ _ fun {q q'} err alike => ?_
      rw [alike.reorderFind]
      cases q.reorderFind psn with
      | none => exact alike
      | some m => exact (alike.reorderUnlink m).sendAck psn .error

end Buffering

/-! ## RNR marks -/

section Marks
variable {peer : Nat} {q q' : Rx}

theorem rnrMatches_eq_markOf (q : Rx) (psn : Nat) : q.rnrMatches peer psn =
    (q.markOf peer).any fun mark => mark.psn == psn % psnMod := by
  unfold Rx.rnrMatches Rx.markOf
  cases q.rnr with
  | none => rfl
  | some mark => cases known : mark.srcQp == peer <;> simp [Option.filter, known]

theorem rnrIsFirstRetry_eq_markOf (q : Rx) (psn remoteAddr fragOffset : Nat) :
    q.rnrIsFirstRetry peer psn remoteAddr fragOffset = (q.markOf peer).any fun mark =>
      mark.psn == psn % psnMod && mark.remoteAddr == remoteAddr &&
        mark.fragOffset == fragOffset := by
  unfold Rx.rnrIsFirstRetry Rx.markOf
  cases q.rnr with
  | none => rfl
  | some mark => cases known : mark.srcQp == peer <;> simp [Option.filter, known]

theorem Alike.rnrSuppresses (alike : Alike peer q q') (hdr : Header) (psn : Nat)
    (fromPeer : hdr.srcQp = peer) : q'.rnrSuppresses hdr psn = q.rnrSuppresses hdr psn := by
  subst fromPeer
  simp only [Rx.rnrSuppresses, rnrMatches_eq_markOf, rnrIsFirstRetry_eq_markOf, alike.mark]

theorem Alike.setRnr (alike : Alike peer q q') {rnr rnr' : Option RnrMark}
    (same : rnr.filter (fun mark => mark.srcQp == peer) =
      rnr'.filter fun mark => mark.srcQp == peer) :
    Alike peer { q with rnr := rnr } { q' with rnr := rnr' } := by
  refine ⟨alike.connected, ?_, alike.history, same⟩
  conv_lhs => rw [alike.rest]

theorem Alike.clearRnr (alike : Alike peer q q') (psn : Nat) :
    Alike peer (q.clearRnr peer psn) (q'.clearRnr peer psn) := by
  unfold Rx.clearRnr
  rw [rnrMatches_eq_markOf, rnrMatches_eq_markOf, ← alike.mark]
  exact Alike.ite (fun _ => alike.setRnr rfl) fun _ => alike

theorem Alike.markRnr (alike : Alike peer q q') (hdr : Header) (psn : Nat) :
    Alike peer (q.markRnr hdr psn) (q'.markRnr hdr psn) :=
  (alike.setRnr rfl).sendAck psn .rnr

end Marks

/-! ## The handlers -/

section Handlers
variable {peer : Nat} {q q' : Rx} {env : Env}

theorem Alike.failActiveSend (alike : Alike peer q q') (m : RxMessage) (psn : Nat) :
    Alike peer (q.failActiveSend env m psn) (q'.failActiveSend env m psn) :=
  (alike.finishSend _).sendAck psn .error

theorem Alike.stripedFragment (alike : Alike peer q q') (m : RxMessage) (idx : Nat)
    (hdr : Header) (payload : List UInt8) :
    Alike peer (q.stripedFragment env m idx hdr payload)
      (q'.stripedFragment env m idx hdr payload) :=
  Alike.ite (fun _ => (alike.finishSend _).drainReorder) fun _ => alike.setMsg _

theorem Alike.orderedFragment (alike : Alike peer q q') (m : RxMessage) (copyOffset : Nat)
    (copyPayload : List UInt8) (last : Bool) :
    Alike peer (q.orderedFragment env m copyOffset copyPayload last)
      (q'.orderedFragment env m copyOffset copyPayload last) :=
  Alike.ite (fun _ => (alike.finishSend _).drainReorder) fun _ => alike.setMsg _

theorem Alike.handleStriped (alike : Alike peer q q') (hdr : Header) (psn : Nat)
    (payload : List UInt8) :
    Alike peer (q.handleStriped env hdr psn payload) (q'.handleStriped env hdr psn payload) := by
  unfold Rx.handleStriped
  dsimp only
  rw [alike.expectedPsn, alike.rxMsg, alike.reorderFind]
  cases rxFragmentShape hdr.immData hdr.fragOffset hdr.length (hasFlag hdr.flags fLast) with
  | none => exact alike.sendAck ..
  | some shape =>
      refine Alike.ite (fun _ => alike.reack psn) fun _ =>
        Alike.ite (fun _ => alike.bufferFragment ..) fun _ => ?_
      cases q.rxMsg with
      | some m =>
          exact Alike.ite (fun _ => alike.stripedFragment ..) fun _ => alike.failActiveSend ..
      | none =>
          rcases alike.popRecv with ⟨none, none'⟩ | ⟨wqe, next, next', popped, popped', later⟩
          · simp only [none, none']
            exact alike.markRnr hdr psn
          · simp only [popped, popped']
            exact later.stripedFragment ..

theorem Alike.handleOrdered (alike : Alike peer q q') (hdr : Header) (psn : Nat)
    (payload : List UInt8) :
    Alike peer (q.handleOrdered env hdr psn payload) (q'.handleOrdered env hdr psn payload) := by
  unfold Rx.handleOrdered
  rw [alike.expectedPsn, alike.rxMsg, alike.reorderFind]
  cases q.rxMsg with
  | some m =>
      exact Alike.ite (fun _ => alike.orderedFragment ..) fun _ =>
        Alike.ite (fun _ => alike.reack psn) fun _ =>
        Alike.ite (fun _ => alike.bufferFragment ..) fun _ =>
        Alike.ite (fun _ => Alike.ite (fun _ => alike) fun _ => alike.orderedFragment ..) fun _ =>
        Alike.ite (fun _ => alike) fun _ => alike.failActiveSend ..
  | none =>
      refine Alike.ite (fun _ => alike.bufferFragment ..) fun _ => ?_
      rcases alike.popRecv with ⟨none, none'⟩ | ⟨wqe, next, next', popped, popped', later⟩
      · simp only [none, none']
        exact alike.markRnr hdr psn
      · simp only [popped, popped']
        exact later.orderedFragment ..

theorem Alike.handleSendFragment (alike : Alike peer q q') (hdr : Header)
    (payload : List UInt8) (fromPeer : hdr.srcQp = peer) :
    Alike peer (q.handleSendFragment env hdr payload) (q'.handleSendFragment env hdr payload) := by
  unfold Rx.handleSendFragment
  dsimp only
  rw [alike.rnrSuppresses _ _ fromPeer]
  refine Alike.ite (fun _ => alike.sendAck ..) fun _ => Alike.ite (fun _ => alike) fun _ => ?_
  have cleared := alike.clearRnr (hdr.psn % psnMod)
  rw [fromPeer, cleared.same Rx.cfg fun _ _ _ _ => rfl]
  exact Alike.ite (fun _ => cleared.handleStriped ..) fun _ => cleared.handleOrdered ..

theorem Alike.finishWrite (alike : Alike peer q q') (w : RxWrite) (status : WcStatus) :
    Alike peer (q.finishWrite env w status) (q'.finishWrite env w status) := by
  unfold Rx.finishWrite
  cases w.immWqe with
  | none =>
      have cleared := alike.setWrite none
      exact Alike.ite' (by rw [cleared.expectedPsn]) (fun _ => cleared.sendAck ..)
        fun _ => ((cleared.consume ..).drainReorder).sendAck ..
  | some wqe =>
      have pushed := @Alike.pushImm _ _ _ env alike wqe status w.immData
      have cleared := pushed.setWrite none
      exact Alike.ite' (by rw [cleared.expectedPsn]) (fun _ => cleared.sendAck ..)
        fun _ => ((cleared.consume ..).drainReorder).sendAck ..

theorem Alike.writeFragment (alike : Alike peer q q') (w : RxWrite) (copyOffset : Nat)
    (copyPayload : List UInt8) (last : Bool) :
    Alike peer (q.writeFragment env w copyOffset copyPayload last)
      (q'.writeFragment env w copyOffset copyPayload last) :=
  Alike.ite (fun _ => Alike.ite (fun _ => alike.finishWrite ..) fun _ => alike.setWrite _) fun _ =>
    Alike.ite (fun _ => alike.finishWrite ..) fun _ =>
      Alike.ite (fun _ => (alike.note _).finishWrite ..) fun _ => (alike.note _).setWrite _

theorem Alike.bufferOrDrop (alike : Alike peer q q') (hdr : Header) (psn : Nat)
    (payload : List UInt8) :
    Alike peer (q.bufferOrDrop env hdr psn payload) (q'.bufferOrDrop env hdr psn payload) :=
  Alike.ite (fun _ => alike) fun _ => alike.bufferWriteFragment ..

theorem Alike.handleWrite (alike : Alike peer q q') (hdr : Header) (psn : Nat)
    (payload : List UInt8) :
    Alike peer (q.handleWrite env hdr psn payload) (q'.handleWrite env hdr psn payload) := by
  unfold Rx.handleWrite
  rw [alike.expectedPsn, alike.rxWrite, alike.reorderFind]
  refine Alike.ite (fun _ => alike.reack psn) fun _ => ?_
  cases q.rxWrite with
  | some w =>
      exact Alike.ite
        (fun _ => Alike.ite (fun _ => alike.bufferOrDrop ..) fun _ => alike.finishWrite ..)
        fun _ => Alike.ite (fun _ => Alike.ite (fun _ => alike) fun _ => alike.writeFragment ..)
        fun _ => Alike.ite (fun _ => alike.bufferOrDrop ..) fun _ => alike.writeFragment ..
  | none =>
      refine Alike.ite (fun _ => alike.bufferOrDrop ..) fun _ =>
        Alike.ite (fun _ => alike.bufferOrDrop ..) fun _ => Alike.ite
          (fun _ => Alike.ite (fun _ => alike.sendAck ..) fun _ => alike.bufferOrDrop ..)
          fun _ => Alike.ite (fun _ => ?_) fun _ => alike.writeFragment ..
      rcases alike.popRecv with ⟨none, none'⟩ | ⟨wqe, next, next', popped, popped', later⟩
      · simp only [none, none']
        exact alike.markRnr hdr psn
      · simp only [popped, popped']
        exact later.writeFragment ..

theorem Alike.handleRdmaWriteFragment (alike : Alike peer q q') (hdr : Header)
    (payload : List UInt8) (fromPeer : hdr.srcQp = peer) :
    Alike peer (q.handleRdmaWriteFragment env hdr payload)
      (q'.handleRdmaWriteFragment env hdr payload) := by
  unfold Rx.handleRdmaWriteFragment
  dsimp only
  rw [alike.rnrSuppresses _ _ fromPeer, alike.same Rx.remoteWrite fun _ _ _ _ => rfl]
  refine Alike.ite (fun _ => alike.sendAck ..) fun _ => Alike.ite (fun _ => alike) fun _ => ?_
  rw [fromPeer]
  exact (alike.clearRnr _).handleWrite ..

theorem Alike.bufferReadReq (alike : Alike peer q q') (hdr : Header) (psn : Nat) :
    Alike peer (q.bufferReadReq env hdr psn) (q'.bufferReadReq env hdr psn) := by
  unfold Rx.bufferReadReq
  rw [alike.expectedPsn, alike.reorderFind, alike.same Rx.reorderCount fun _ _ _ _ => rfl]
  refine Alike.ite (fun _ => alike.note _) fun _ => Alike.ite (fun _ => alike.note _) fun _ => ?_
  cases q.reorderFind psn with
  | none => exact Alike.ite (fun _ => alike.note _) fun _ => alike.reorderAdd _
  | some m =>
      exact Alike.ite (fun _ => (alike.reorderUnlink m).note _) fun _ => alike.drainReorder

theorem Alike.handleRdmaReadReq (alike : Alike peer q q') (hdr : Header) :
    Alike peer (q.handleRdmaReadReq env hdr) (q'.handleRdmaReadReq env hdr) := by
  have later : (hdr.psn % psnMod ≠ q'.expectedPsn ∨ q'.rxMsg.isSome ∨ q'.rxWrite.isSome ∨
      (q'.reorderFind (hdr.psn % psnMod)).isSome) ↔ (hdr.psn % psnMod ≠ q.expectedPsn ∨
      q.rxMsg.isSome ∨ q.rxWrite.isSome ∨ (q.reorderFind (hdr.psn % psnMod)).isSome) := by
    rw [alike.expectedPsn, alike.rxMsg, alike.rxWrite, alike.reorderFind]
  exact Alike.ite (fun _ => alike.note _) fun _ => Alike.ite' later
    (fun _ => alike.bufferReadReq ..) fun _ => ((alike.passReadReq _).drainReorder).note _

theorem Alike.advertiseRecvCredits (alike : Alike peer q q') :
    Alike peer (q.advertiseRecvCredits env) (q'.advertiseRecvCredits env) := by
  have connected := alike.connected
  refine alike.update (·.advertiseRecvCredits env) (fun _ _ _ => ?_) ?_
  · clear alike
    cases q
    subst connected
    simp only [Rx.advertiseRecvCredits, Rx.note]
    split_ifs <;> rfl
  · simp only [Rx.advertiseRecvCredits, connected, Rx.note]
    split_ifs <;> simp [connected]

/-- Credits of the peer; another source is refused by both. -/
theorem Alike.acceptRecvCredit (alike : Alike peer q q') (hdr : Header) :
    Alike peer (q.acceptRecvCredit hdr) (q'.acceptRecvCredit hdr) := by
  have connected := alike.connected
  refine alike.update (·.acceptRecvCredit hdr) (fun _ _ _ => ?_) ?_
  · clear alike
    cases q
    subst connected
    simp only [Rx.acceptRecvCredit, Rx.note]
    split_ifs <;> rfl
  · simp only [Rx.acceptRecvCredit, connected, Rx.note]
    split_ifs <;> simp [connected]

theorem Alike.validEndpoint (alike : Alike peer q q') (hdr : Header) :
    q'.validEndpoint hdr = q.validEndpoint hdr :=
  alike.same (·.validEndpoint hdr) fun _ _ _ _ => rfl

/-- A frame that passes the endpoint check comes from the peer. -/
theorem Alike.fromPeer (alike : Alike peer q q') {hdr : Header}
    (valid : q.validEndpoint hdr = true) : hdr.srcQp = peer := by
  simp only [Rx.validEndpoint, alike.connected, Bool.and_eq_true, beq_iff_eq,
    Option.some.injEq] at valid
  exact valid.2.symm

theorem Alike.rxFrame (alike : Alike peer q q') (hdr : Header) (payload : List UInt8) :
    Alike peer (q.rxFrame env hdr payload) (q'.rxFrame env hdr payload) := by
  unfold Rx.rxFrame
  simp only [alike.validEndpoint]
  split
  · exact Alike.ite (fun _ => alike) fun _ => alike.acceptRecvCredit hdr
  · exact Alike.ite (fun valid => alike.handleSendFragment _ _ (alike.fromPeer valid))
      fun _ => alike
  · exact Alike.ite (fun valid => alike.handleSendFragment _ _ (alike.fromPeer valid))
      fun _ => alike
  · exact Alike.ite (fun valid => alike.handleRdmaWriteFragment _ _ (alike.fromPeer valid))
      fun _ => alike
  · exact Alike.ite (fun valid => alike.handleRdmaWriteFragment _ _ (alike.fromPeer valid))
      fun _ => alike
  · exact Alike.ite (fun _ => alike.handleRdmaReadReq hdr) fun _ => alike
  · exact alike

theorem Alike.postOne (alike : Alike peer q q') (wqe : RecvWqe) :
    Alike peer (q.postOne wqe).1 (q'.postOne wqe).1 := by
  refine alike.update (fun q => (q.postOne wqe).1) (fun _ _ _ => ?_) ?_
  · simp only [Rx.postOne]
    split_ifs <;> rfl
  · simp only [Rx.postOne]
    split_ifs <;> simp

theorem Alike.flushRecvWqes (alike : Alike peer q q') :
    Alike peer (q.flushRecvWqes env) (q'.flushRecvWqes env) := by
  have emptied := alike.update
    (fun q => { q with recvq := [], advertised := q.advertised - q.recvq.length })
    (fun _ _ _ => rfl) ⟨rfl, rfl, rfl⟩
  unfold Rx.flushRecvWqes
  rw [alike.same Rx.recvq fun _ _ _ _ => rfl, alike.same Rx.advertised fun _ _ _ _ => rfl]
  suffices each : ∀ (wqes : List RecvWqe) {a a' : Rx}, Alike peer a a' →
      Alike peer (wqes.foldl (fun q wqe => q.cqPush env (.recv wqe .wrFlushErr none [])) a)
        (wqes.foldl (fun q wqe => q.cqPush env (.recv wqe .wrFlushErr none [])) a') by
    refine each _ ?_
    simpa only [alike.same Rx.recvq fun _ _ _ _ => rfl,
      alike.same Rx.advertised fun _ _ _ _ => rfl] using emptied
  intro wqes
  induction wqes with
  | nil => exact id
  | cons wqe rest ih => exact fun one => ih (one.cqPush env _)

theorem Alike.failMessage (alike : Alike peer q q') (status : WcStatus) :
    Alike peer (q.failMessage env status) (q'.failMessage env status) := by
  unfold Rx.failMessage
  rw [alike.rxMsg]
  cases q.rxMsg with
  | none => exact alike
  | some m => exact alike.finishSend _

theorem Alike.failWrite (alike : Alike peer q q') (status : WcStatus) :
    Alike peer (q.failWrite env status) (q'.failWrite env status) := by
  unfold Rx.failWrite
  rw [alike.rxWrite]
  cases q.rxWrite with
  | none => exact alike
  | some w => exact alike.finishWrite w _

theorem Alike.flushError (alike : Alike peer q q') :
    Alike peer (q.flushError env) (q'.flushError env) := by
  have ended := @Alike.failWrite _ _ _ env (@Alike.failMessage _ _ _ env alike .wrFlushErr) .wrFlushErr
  have emptied := ended.update
    (fun q => { q with reorder := [], reorderCount := 0, reorderBytes := 0 })
    (fun _ _ _ => rfl) ⟨rfl, rfl, rfl⟩
  exact emptied.flushRecvWqes

theorem Alike.markError (alike : Alike peer q q') :
    Alike peer (q.markError env) (q'.markError env) := by
  have failed := alike.update (fun q => { q with state := .err }) (fun _ _ _ => rfl)
    ⟨rfl, rfl, rfl⟩
  unfold Rx.markError
  refine Alike.ite' ?_ (fun _ => alike) fun _ => failed.flushError
  rw [alike.same Rx.closing fun _ _ _ _ => rfl, alike.same Rx.state fun _ _ _ _ => rfl]

end Handlers

end Tbv.RecvQueue
