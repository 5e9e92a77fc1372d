import ThunderboltIbverbs.Path.Link

/-! # What one operation of a path can do

One inversion lemma for the scheduler, the fields a taken packet changes, and
the two halves of the RX callback: what it does to the receive state and what it
leaves alone.  The invariants of the following modules use these and never
unfold the operations again. -/
set_option autoImplicit false
namespace Tbv.NativePath

open Tbv.NativeData

theorem releasePacketList_eq (p : Path) (pkts : List TxPacket) (status : Int) :
    releasePacketList p pkts status =
      { p with released := p.released ++ pkts.map fun pkt => (pkt, status) } := by
  unfold releasePacketList
  induction pkts generalizing p with
  | nil => simp
  | cons pkt rest ih =>
      rw [List.foldl_cons, ih]
      simp [txPacketRelease]

/-! ## The scheduler -/

/-- Inside a raw stream only a page of its owner is chosen; outside, the control
queue goes first. -/
theorem scheduleChoice_cases {p : Path} {fromControlQueue : Bool} {pkt : TxPacket}
    (chosen : scheduleChoice p = some (fromControlQueue, pkt)) :
    txAdmits p = true ∧
    ((p.txRawStreamActive = true ∧ fromControlQueue = false ∧
        (∃ rest, p.txDataQueue = pkt :: rest) ∧ pkt.zcopy = true ∧
        pkt.rawStreamStart = false ∧ pkt.ownerCtx = p.txRawStreamOwner) ∨
      (p.txRawStreamActive = false ∧ fromControlQueue = true ∧
        ∃ rest, p.txControlQueue = pkt :: rest) ∨
      (p.txRawStreamActive = false ∧ fromControlQueue = false ∧ p.txControlQueue = [] ∧
        ∃ rest, p.txDataQueue = pkt :: rest)) := by
  unfold scheduleChoice at chosen
  split at chosen
  · cases chosen
  · rename_i admitted
    refine ⟨by simpa using admitted, ?_⟩
    split at chosen
    · rename_i active
      left
      split at chosen
      · cases chosen
      · rename_i head rest queue
        split at chosen
        · cases chosen
        · rename_i gate
          cases chosen
          simp only [Bool.or_eq_true, Bool.not_eq_true', bne_iff_ne, ne_eq, not_or,
            Bool.not_eq_false, Bool.not_eq_true, not_not] at gate
          exact ⟨active, rfl, ⟨rest, queue⟩, gate.1.1, gate.1.2, gate.2⟩
    · rename_i inactive
      right
      have inactive : p.txRawStreamActive = false := by simpa using inactive
      split at chosen
      · rename_i head rest queue
        cases chosen
        exact .inl ⟨inactive, rfl, rest, queue⟩
      · rename_i queue
        split at chosen
        · cases chosen
        · rename_i head rest data
          cases chosen
          exact .inr ⟨inactive, rfl, queue, rest, data⟩

theorem scheduleTx_ok_cases (p : Path) :
    scheduleTx p .ok = (p, none) ∨
    ∃ fromControlQueue pkt, scheduleChoice p = some (fromControlQueue, pkt) ∧
      scheduleBlocked p fromControlQueue pkt = false ∧
      scheduleTx p .ok =
        ({ (scheduleTake p fromControlQueue pkt).1 with
            ring := (scheduleTake p fromControlQueue pkt).1.ring ++
              [(scheduleTake p fromControlQueue pkt).2] },
          some (scheduleTake p fromControlQueue pkt).2) := by
  unfold scheduleTx
  cases choice : scheduleChoice p with
  | none => exact .inl rfl
  | some pair =>
      obtain ⟨fromControlQueue, pkt⟩ := pair
      cases blocked : scheduleBlocked p fromControlQueue pkt with
      | true =>
          left
          simp [blocked]
      | false =>
          right
          refine ⟨fromControlQueue, pkt, rfl, blocked, ?_⟩
          simp [blocked]

section Take
variable (p : Path) (fromControlQueue : Bool) (pkt : TxPacket)

def takesCount (p : Path) (pkt : TxPacket) : Bool :=
  pkt.rawStreamStart || (p.txRawStreamActive && pkt.ownerCtx == p.txRawStreamOwner)

theorem countRawStream_eq :
    countRawStream p pkt =
      ({ p with
          txRawStreamActive := pkt.rawStreamStart || p.txRawStreamActive
          txRawStreamOwner := if pkt.rawStreamStart then pkt.ownerCtx else p.txRawStreamOwner
          txRawStreamEndSeen := !pkt.rawStreamStart && p.txRawStreamEndSeen
          txRawStreamInflight :=
            (if pkt.rawStreamStart then 0 else p.txRawStreamInflight) +
              (if takesCount p pkt then 1 else 0) },
        { pkt with rawStreamCounted := takesCount p pkt || pkt.rawStreamCounted }) := by
  unfold countRawStream takesCount
  cases p with
  | _ =>
    cases pkt with
    | _ frame origin done doneCtx ownerCtx group control zcopy start =>
      rename_i active owner _ _ _ _ _ _ _ _ _ _ _ _
      cases start with
      | true => simp
      | false =>
          cases active with
          | false => simp
          | true =>
              by_cases same : ownerCtx = owner
              · simp [same]
              · simp [same]

theorem scheduleTake_eq :
    scheduleTake p fromControlQueue pkt =
      ({ p with
          txRemoteDataCredits :=
            if chargesCredit p pkt then p.txRemoteDataCredits - 1 else p.txRemoteDataCredits
          txControlQueue := if fromControlQueue then p.txControlQueue.tail else p.txControlQueue
          txControlQueued :=
            if fromControlQueue then p.txControlQueued - 1 else p.txControlQueued
          txDataQueue := if fromControlQueue then p.txDataQueue else p.txDataQueue.tail
          txDataQueued := if fromControlQueue then p.txDataQueued else p.txDataQueued - 1
          txRawStreamActive := pkt.rawStreamStart || p.txRawStreamActive
          txRawStreamOwner := if pkt.rawStreamStart then pkt.ownerCtx else p.txRawStreamOwner
          txRawStreamEndSeen := !pkt.rawStreamStart && p.txRawStreamEndSeen
          txRawStreamInflight :=
            (if pkt.rawStreamStart then 0 else p.txRawStreamInflight) +
              (if takesCount p pkt then 1 else 0)
          txFree := if fromControlQueue || !pkt.zcopy then p.txFree - 1 else p.txFree
          txInflight := p.txInflight + 1 },
        { pkt with
          startCreditGroupFrames := 0
          rawStreamCounted := takesCount p pkt || pkt.rawStreamCounted }) := by
  unfold scheduleTake
  cases charged : chargesCredit p pkt <;> cases fromControlQueue <;>
    simp only [countRawStream_eq, takesCount, Bool.false_eq_true, if_false, if_true] <;> rfl

end Take

/-! ## Completions -/

theorem finishRawStreamIfNeeded_uncounted {p : Path} {pkt : TxPacket}
    (uncounted : pkt.rawStreamCounted = false) : finishRawStreamIfNeeded p pkt = p := by
  simp [finishRawStreamIfNeeded, uncounted]

theorem finishRawStreamIfNeeded_open {p : Path} {pkt : TxPacket}
    (counted : pkt.rawStreamCounted = true) (active : p.txRawStreamActive = true)
    (owner : p.txRawStreamOwner = pkt.ownerCtx) (notEnd : pkt.rawStreamEnd = false)
    (notSeen : p.txRawStreamEndSeen = false) :
    finishRawStreamIfNeeded p pkt =
      { p with
        txRawStreamInflight := p.txRawStreamInflight - 1
        txRawStreamEndSeen := false } := by
  simp [finishRawStreamIfNeeded, counted, owner, notEnd, notSeen, active]

theorem finishRawStreamIfNeeded_foreign {p : Path} {pkt : TxPacket}
    (active : p.txRawStreamActive = true) (owner : p.txRawStreamOwner ≠ pkt.ownerCtx) :
    finishRawStreamIfNeeded p pkt = p := by
  unfold finishRawStreamIfNeeded
  split
  · rfl
  · simp [owner, active]

/-- A completion changes nothing but the raw stream fields. -/
theorem finishRawStreamIfNeeded_frame (p : Path) (pkt : TxPacket) :
    finishRawStreamIfNeeded p pkt =
      { p with
        txRawStreamActive := (finishRawStreamIfNeeded p pkt).txRawStreamActive
        txRawStreamOwner := (finishRawStreamIfNeeded p pkt).txRawStreamOwner
        txRawStreamEndSeen := (finishRawStreamIfNeeded p pkt).txRawStreamEndSeen
        txRawStreamInflight := (finishRawStreamIfNeeded p pkt).txRawStreamInflight } := by
  unfold finishRawStreamIfNeeded
  dsimp only
  repeat' split
  all_goals rfl

def retireDescriptor (p : Path) (pkt : TxPacket) (rest : List TxPacket) : Path :=
  { p with
    ring := rest
    txFree := if pkt.zcopy then p.txFree else p.txFree + 1 }

theorem txComplete_nil {p : Path} (empty : p.ring = []) (canceled : Bool) :
    txComplete p canceled = p := by
  unfold txComplete
  rw [empty]

theorem txComplete_cons {p : Path} {pkt : TxPacket} {rest : List TxPacket}
    (queue : p.ring = pkt :: rest) (canceled : Bool) :
    txComplete p canceled =
      { finishRawStreamIfNeeded (retireDescriptor p pkt rest) pkt with
        released := p.released ++ [(pkt, if canceled || pkt.canceled then ecanceled else 0)]
        txInflight := p.txInflight - 1 } := by
  unfold txComplete
  rw [queue]
  dsimp only [txPacketRelease]
  rw [← retireDescriptor, finishRawStreamIfNeeded_frame]
  rfl

/-! ## Reception -/

/-- `q` is `p` but for the receive state of a raw stream. -/
def RawRxFrame (p q : Path) : Prop :=
  q = { p with
    rxRawPending := q.rxRawPending
    rxRawHdr := q.rxRawHdr
    rxRawDone := q.rxRawDone
    rxRawRemaining := q.rxRawRemaining }

/-- `q` is `p` but for what the RX callback may write: the receive state of a
raw stream, the credits in both directions and the control queue. -/
def RxFrame (p q : Path) : Prop :=
  q = { p with
    rxRawPending := q.rxRawPending
    rxRawHdr := q.rxRawHdr
    rxRawDone := q.rxRawDone
    rxRawRemaining := q.rxRawRemaining
    rxDataCreditPending := q.rxDataCreditPending
    txControlQueue := q.txControlQueue
    txControlQueued := q.txControlQueued
    txRemoteDataCredits := q.txRemoteDataCredits }

theorem RxFrame.trans {p q r : Path} (first : RxFrame p q) (second : RxFrame q r) :
    RxFrame p r := by
  unfold RxFrame at *
  rw [second, first]

theorem RawRxFrame.rxFrame {p q : Path} (raw : RawRxFrame p q) : RxFrame p q := by
  unfold RawRxFrame RxFrame at *
  rw [raw]

theorem rxRawPayload_frame (p : Path) (len : Nat) : RawRxFrame p (rxRawPayload p len).1 := by
  unfold rxRawPayload RawRxFrame
  dsimp only
  repeat' split
  all_goals rfl

theorem rxClassify_raw {p : Path} {frame : WireFrame} (fits : frame.len ≤ frameSize)
    (pending : p.rxRawPending = true) :
    rxClassify p frame =
      ((rxRawPayload p frame.len).1, 1, 0, (rxRawPayload p frame.len).2) := by
  unfold rxClassify
  rw [if_neg (by omega), if_pos pending]

theorem rxClassify_frame (p : Path) (frame : WireFrame) :
    RawRxFrame p (rxClassify p frame).1 := by
  by_cases fits : frame.len ≤ frameSize
  · by_cases pending : p.rxRawPending = true
    · rw [rxClassify_raw fits pending]
      exact rxRawPayload_frame p frame.len
    · unfold rxClassify
      rw [if_neg (by omega), if_neg pending]
      repeat' split
      all_goals rfl
  · unfold rxClassify
    rw [if_pos (by omega)]
    rfl

/-- Credits to return stay pending below the threshold and leave as one
`PATH_CREDIT` frame at it. -/
theorem returnRxDataCredit_of_admits {p : Path} {credits : Nat} (admits : txAdmits p = true)
    (some : credits ≠ 0) :
    returnRxDataCredit p credits =
      if creditReturnThreshold (dataCreditWindow p.cfg.rxRingSize) ≤
          min u32Max (p.rxDataCreditPending + credits) then
        { p with
          rxDataCreditPending := 0
          txControlQueue := p.txControlQueue ++
            [pathCreditPacket (min u32Max (p.rxDataCreditPending + credits))]
          txControlQueued := p.txControlQueued + 1 }
      else { p with rxDataCreditPending := min u32Max (p.rxDataCreditPending + credits) } := by
  have open_ : txAdmits { p with rxDataCreditPending := 0 } = true := admits
  simp [returnRxDataCredit, enqueueControl, some, open_]

theorem returnRxDataCredit_of_closed {p : Path} {credits : Nat} (closed : txAdmits p = false) :
    returnRxDataCredit p credits =
      { p with rxDataCreditPending := (returnRxDataCredit p credits).rxDataCreditPending } := by
  have shut : txAdmits { p with rxDataCreditPending := 0 } = false := closed
  simp only [returnRxDataCredit, enqueueControl, shut]
  repeat' split
  all_goals first | rfl | simp_all

theorem returnRxDataCredit_zero (p : Path) : returnRxDataCredit p 0 = p := rfl

theorem returnRxDataCredit_frame (p : Path) (credits : Nat) :
    RxFrame p (returnRxDataCredit p credits) := by
  by_cases none : credits = 0
  · rw [none, returnRxDataCredit_zero]
    rfl
  · cases admits : txAdmits p with
    | true =>
        rw [returnRxDataCredit_of_admits admits none]
        split <;> rfl
    | false =>
        rw [RxFrame, returnRxDataCredit_of_closed admits]

theorem addRemoteRxCredits_frame (p : Path) (credits : Nat) :
    RxFrame p (addRemoteRxCredits p credits) := by
  unfold addRemoteRxCredits RxFrame
  split <;> rfl

theorem rxComplete_eq (p : Path) (frame : WireFrame) :
    rxComplete p frame =
      addRemoteRxCredits
        (returnRxDataCredit (rxClassify p frame).1 (rxClassify p frame).2.1)
        (rxClassify p frame).2.2.1 := rfl

theorem rxComplete_frame (p : Path) (frame : WireFrame) : RxFrame p (rxComplete p frame) := by
  rw [rxComplete_eq]
  exact ((rxClassify_frame p frame).rxFrame.trans (returnRxDataCredit_frame _ _)).trans
    (addRemoteRxCredits_frame _ _)

end Tbv.NativePath
