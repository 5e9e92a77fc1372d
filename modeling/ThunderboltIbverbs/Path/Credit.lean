import ThunderboltIbverbs.Path.InStep

/-! # The credit balance of a direction

The sender charges a credit by queue, the receiver refunds one by opcode, and
refunds travel back in batches as `PATH_CREDIT` frames.  The balance of a
direction adds up the four places a credit can be.  Every step keeps it, but for
two: a READ status frame is sent uncharged and refunded, and a refund past the
window is clamped. -/
set_option autoImplicit false
namespace Tbv.NativePath

open Tbv.NativeData Trans

def charged (pkts : List TxPacket) : Nat := pkts.countP fun pkt => !pkt.control

def creditsIn (pkt : TxPacket) : Nat :=
  match pkt.origin, pkt.frame.parsed with
  | .control, some hdr => if hdr.opcode = .pathCredit then hdr.immData else 0
  | _, _ => 0

def carried (pkts : List TxPacket) : Nat := (pkts.map creditsIn).sum

/-- A READ status frame: an `RDMA_READ_RESP` on the control queue. -/
def readStatus (pkt : TxPacket) : Bool :=
  pkt.control && pkt.frame.parsed.any fun hdr => hdr.opcode == .rdmaReadResp

def Link.balance (l : Link) (side : Bool) : Nat :=
  (l.path side).txRemoteDataCredits + charged (l.wire side) +
    (l.path !side).rxDataCreditPending + carried (l.wire !side) +
    carried (l.path !side).txControlQueue

def window (cfg : Bool → PathConfig) (side : Bool) : Nat :=
  dataCreditWindow (cfg !side).rxRingSize

@[simp] theorem charged_nil : charged [] = 0 := rfl

@[simp] theorem charged_cons (pkt : TxPacket) (rest : List TxPacket) :
    charged (pkt :: rest) = (if pkt.control then 0 else 1) + charged rest := by
  unfold charged
  rw [List.countP_cons]
  cases pkt.control <;> simp [Nat.add_comm]

@[simp] theorem charged_append (one two : List TxPacket) :
    charged (one ++ two) = charged one + charged two :=
  List.countP_append

@[simp] theorem carried_nil : carried [] = 0 := rfl

@[simp] theorem carried_cons (pkt : TxPacket) (rest : List TxPacket) :
    carried (pkt :: rest) = creditsIn pkt + carried rest := by
  simp [carried]

@[simp] theorem carried_append (one two : List TxPacket) :
    carried (one ++ two) = carried one + carried two := by
  simp [carried]

theorem creditsIn_same {pkt other : TxPacket} (same : SamePacket pkt other) :
    creditsIn other = creditsIn pkt := by
  unfold creditsIn
  rw [same.origin, same.frame]

theorem readStatus_same {pkt other : TxPacket} (same : SamePacket pkt other) :
    readStatus other = readStatus pkt := by
  unfold readStatus
  rw [same.control, same.frame]

/-! ## What a delivered frame refunds and carries -/

theorem Emitted.creditsIn_data {pkt : TxPacket} (emitted : Emitted pkt)
    (data : pkt.control = false) : creditsIn pkt = 0 := by
  unfold creditsIn
  cases origin : pkt.origin with
  | control =>
      simp only [Emitted, origin] at emitted
      rw [emitted.1] at data
      cases data
  | _ => rfl

theorem controlEmission_opcode {hdr : Header} (emission : controlEmission hdr = true) :
    hasFlag hdr.flags fRawStream = false ∧
      (hdr.opcode = .sendAck ∨ hdr.opcode = .rdmaReadAck ∨ hdr.opcode = .recvCredit ∨
        hdr.opcode = .rdmaReadResp) := by
  simp only [controlEmission, Bool.and_eq_true, Bool.not_eq_true', Bool.or_eq_true,
    beq_iff_eq] at emission
  tauto

theorem validPathCredit_emitted {credits : Nat} (positive : 0 < credits) :
    validPathCredit { opcode := .pathCredit, immData := credits } = true := by
  have nonzero : (credits != 0) = true := by simpa using Nat.pos_iff_ne_zero.mp positive
  simp [validPathCredit, nonzero]

section Delivery
variable {rx sent : Option OpenStream} {p q : Path} {wire received : List TxPacket}

/-- The frame next to be received returns one credit when it was charged or is a
READ status, and hands over the credits it carries. -/
theorem InStepAt.refund {pkt : TxPacket} (inStep : InStepAt rx sent p (pkt :: wire) received q) :
    (rxClassify q pkt.frame).2.1 = (if !pkt.control || readStatus pkt then 1 else 0) ∧
    (rxClassify q pkt.frame).2.2.1 = creditsIn pkt := by
  have emitted := inStep.wireEmitted pkt List.mem_cons_self
  have receiver := inStep.receiver
  obtain ⟨rx', carries, _⟩ := trace_cons_iff.mp inStep.wireTrace
  have small := hdrSize_le_frameSize
  have page {o : OpenStream} (opened : rx = some o)
      (origin : pkt.origin = .streamPayload o.sid o.offset) :
      (rxClassify q pkt.frame).2.1 = (if !pkt.control || readStatus pkt then 1 else 0) ∧
      (rxClassify q pkt.frame).2.2.1 = creditsIn pkt := by
    subst opened
    have facts := emitted
    simp only [Emitted, origin] at facts
    rw [rxClassify_raw facts.2.2.2.2 receiver.1, emitted.creditsIn_data facts.1]
    simp [facts.1]
  cases carries with
  | plain plain =>
      have idle : q.rxRawPending = false := receiver
      cases origin : pkt.origin with
      | control =>
          simp only [Emitted, origin] at emitted
          obtain ⟨control, _, _, hdr, frame, sort⟩ := emitted
          rcases sort with emission | ⟨credits, positive, rfl⟩
          · obtain ⟨notRaw, opcode⟩ := controlEmission_opcode emission
            rcases opcode with opcode | opcode | opcode | opcode <;>
              simp [rxClassify, creditsIn, readStatus, frame, origin, opcode, notRaw, idle,
                control, consumesRxCredit, Nat.not_lt.mpr small]
          · simp [rxClassify, creditsIn, readStatus, frame, origin, idle, control,
              validPathCredit_emitted positive, Nat.not_lt.mpr small]
      | framed =>
          have data := emitted
          simp only [Emitted, origin] at data
          obtain ⟨control, _, _, hdr, frame, emission⟩ := data
          simp only [dataEmission, Bool.and_eq_true, Bool.not_eq_true',
            decide_eq_true_eq] at emission
          obtain ⟨⟨notRaw, consumes⟩, short⟩ := emission
          have fits : ¬ frameSize < hdrSize + hdr.length := by
            have : maxPayload = frameSize - hdrSize := rfl
            omega
          have notCredit : hdr.opcode ≠ .pathCredit := by
            intro credit
            simp [credit, consumesRxCredit] at consumes
          rw [emitted.creditsIn_data control]
          simp [rxClassify, frame, notRaw, idle, control, consumes, notCredit, fits]
      | streamHeader sid => simp [origin, Origin.sid?] at plain
      | streamPayload sid offset => simp [origin, Origin.sid?] at plain
  | header origin _ _ =>
      obtain ⟨hdr, _, _, classified⟩ := rxClassify_header emitted origin receiver
      have facts := emitted
      simp only [Emitted, origin] at facts
      rw [classified, emitted.creditsIn_data facts.1]
      simp [facts.1]
  | page origin _ _ _ => exact page rfl origin
  | lastPage origin _ _ _ => exact page rfl origin

end Delivery

/-! ## What an operation does to the credits of its path -/

/-- The fields of a path that the balance and its bounds depend on. -/
structure SameLedger (p p' : Path) : Prop where
  cfg : p'.cfg = p.cfg
  admits : txAdmits p' = txAdmits p
  creditMax : p'.txRemoteDataCreditMax = p.txRemoteDataCreditMax
  credits : p'.txRemoteDataCredits = p.txRemoteDataCredits
  pending : p'.rxDataCreditPending = p.rxDataCreditPending
  control : p'.txControlQueue = p.txControlQueue

section Local
variable (p : Path)

theorem enqueueData_sameLedger (pkt : TxPacket) :
    SameLedger p (orKeep p (enqueueData p pkt)) := by
  unfold enqueueData
  dsimp only
  repeat' split
  all_goals exact ⟨rfl, rfl, rfl, rfl, rfl, rfl⟩

theorem enqueueReservedDataList_sameLedger (pkts : List TxPacket) :
    SameLedger p (orKeep p (enqueueReservedDataList p pkts)) := by
  unfold enqueueReservedDataList
  dsimp only
  repeat' split
  all_goals exact ⟨rfl, rfl, rfl, rfl, rfl, rfl⟩

theorem reserveData_sameLedger (frames : Nat) :
    SameLedger p (orKeep p (reserveData p frames)) := by
  unfold reserveData
  repeat' split
  all_goals exact ⟨rfl, rfl, rfl, rfl, rfl, rfl⟩

theorem sendPageStream_sameLedger (s : PageStream) : SameLedger p (sendPageStream p s) := by
  rcases sendPageStream_cases p s with ⟨status, refused⟩ | queued
  · rw [refused, releasePacketList_eq]
    exact ⟨rfl, rfl, rfl, rfl, rfl, rfl⟩
  · rw [queued]
    exact ⟨rfl, rfl, rfl, rfl, rfl, rfl⟩

theorem txComplete_sameLedger (canceled : Bool) : SameLedger p (txComplete p canceled) := by
  cases queue : p.ring with
  | nil =>
      rw [txComplete_nil queue]
      exact ⟨rfl, rfl, rfl, rfl, rfl, rfl⟩
  | cons pkt rest =>
      rw [txComplete_cons queue, finishRawStreamIfNeeded_frame]
      exact ⟨rfl, rfl, rfl, rfl, rfl, rfl⟩

theorem cancelDataMatch_sameLedger (done doneCtx ownerCtx : Option Nat) :
    SameLedger p (cancelDataMatch p done doneCtx ownerCtx) := by
  unfold cancelDataMatch
  split
  · exact ⟨rfl, rfl, rfl, rfl, rfl, rfl⟩
  · simp only [releasePacketList_eq]
    split <;> exact ⟨rfl, rfl, rfl, rfl, rfl, rfl⟩

end Local

theorem dataCreditWindow_pos {rxRingSize : Nat} (positive : 0 < rxRingSize) :
    0 < dataCreditWindow rxRingSize := by
  unfold dataCreditWindow
  rw [if_neg (by omega)]
  dsimp only
  generalize (if creditBatch < _ then _ else _) = batched
  split <;> omega

theorem creditReturnThreshold_le (creditWindow : Nat) :
    creditReturnThreshold creditWindow ≤ creditBatch := by
  unfold creditReturnThreshold
  split <;> omega

section Ledger
variable {p p' q : Path}

/-- A posted packet takes the credit it is charged, and moves the credits it
carries from the control queue to the wire. -/
theorem scheduleTx_credits {posted : TxPacket} (ran : scheduleTx p .ok = (p', some posted))
    (windowed : p.txRemoteDataCreditMax ≠ 0)
    (data : ∀ pkt ∈ p.txDataQueue, Emitted pkt ∧ pkt.control = false)
    (control : ∀ pkt ∈ p.txControlQueue, Emitted pkt ∧ pkt.origin = .control) :
    p'.txRemoteDataCredits + (if posted.control then 0 else 1) = p.txRemoteDataCredits ∧
    creditsIn posted + carried p'.txControlQueue = carried p.txControlQueue ∧
    p'.rxDataCreditPending = p.rxDataCreditPending ∧ p'.cfg = p.cfg ∧
    txAdmits p' = txAdmits p ∧ p'.txRemoteDataCreditMax = p.txRemoteDataCreditMax := by
  rcases scheduleTx_ok_cases p with idle | ⟨fromControlQueue, pkt, chosen, free, took⟩
  · rw [idle] at ran
    cases ran
  · rw [took] at ran
    have same := scheduleTake_samePacket p fromControlQueue pkt
    have posts := creditsIn_same same
    obtain ⟨rfl, rfl⟩ : _ = p' ∧ _ = posted := by simpa using ran
    rw [posts, same.control]
    simp only [scheduleBlocked, Bool.or_eq_false_iff, Bool.and_eq_false_iff] at free
    obtain ⟨_, gate⟩ := free
    have enough (ofData : pkt.control = false) : 0 < p.txRemoteDataCredits := by
      simp only [ofData, Bool.not_false, Bool.true_eq_false, bne_eq_false_iff_eq, windowed,
        or_false, false_or, decide_eq_false_iff_not] at gate
      omega
    have charges (ofData : pkt.control = false) : chargesCredit p pkt = true := by
      simp [chargesCredit, ofData, windowed]
    have fromData {rest : List TxPacket} (queue : p.txDataQueue = pkt :: rest) :
        pkt.control = false ∧ creditsIn pkt = 0 := by
      obtain ⟨emitted, ofData⟩ := data pkt (by rw [queue]; exact List.mem_cons_self)
      exact ⟨ofData, emitted.creditsIn_data ofData⟩
    rw [scheduleTake_eq]
    obtain ⟨_, ⟨_, rfl, ⟨rest, queue⟩, _⟩ | ⟨_, rfl, rest, queue⟩ | ⟨_, rfl, _, rest, queue⟩⟩ :=
        scheduleChoice_cases chosen
    · obtain ⟨ofData, empty⟩ := fromData queue
      have := enough ofData
      refine ⟨?_, by simp [empty], rfl, rfl, rfl, rfl⟩
      simp only [ofData, charges ofData, if_true, Bool.false_eq_true, if_false]
      omega
    · obtain ⟨emitted, origin⟩ := control pkt (by rw [queue]; exact List.mem_cons_self)
      have ofControl : pkt.control = true := by
        simp only [Emitted, origin] at emitted
        exact emitted.1
      refine ⟨?_, ?_, rfl, rfl, rfl, rfl⟩
      · simp [ofControl, chargesCredit]
      · simp [queue]
    · obtain ⟨ofData, empty⟩ := fromData queue
      have := enough ofData
      refine ⟨?_, by simp [empty], rfl, rfl, rfl, rfl⟩
      simp only [ofData, charges ofData, if_true, Bool.false_eq_true, if_false]
      omega

/-- A returned credit is pending or on its way, and what is pending stays below
the threshold. -/
theorem returnRxDataCredit_credits {credits : Nat} (admits : txAdmits q = true)
    (below : q.rxDataCreditPending <
      creditReturnThreshold (dataCreditWindow q.cfg.rxRingSize)) (one : credits ≤ 1) :
    (returnRxDataCredit q credits).rxDataCreditPending +
        carried (returnRxDataCredit q credits).txControlQueue =
      q.rxDataCreditPending + carried q.txControlQueue + credits ∧
    (returnRxDataCredit q credits).rxDataCreditPending <
      creditReturnThreshold (dataCreditWindow q.cfg.rxRingSize) ∧
    (returnRxDataCredit q credits).txRemoteDataCredits = q.txRemoteDataCredits := by
  by_cases none : credits = 0
  · rw [none, returnRxDataCredit_zero]
    exact ⟨rfl, below, rfl⟩
  · have small := creditReturnThreshold_le (dataCreditWindow q.cfg.rxRingSize)
    have positive := creditReturnThreshold_pos (dataCreditWindow q.cfg.rxRingSize)
    have noClamp : min u32Max (q.rxDataCreditPending + credits) =
        q.rxDataCreditPending + credits := by
      have : creditBatch < u32Max := by decide
      omega
    rw [returnRxDataCredit_of_admits admits none, noClamp]
    split
    · refine ⟨?_, positive, rfl⟩
      simp only [carried_append, carried_cons, carried_nil, creditsIn, pathCreditPacket, if_true]
      omega
    · refine ⟨?_, Nat.lt_of_not_le (by assumption), rfl⟩
      dsimp only
      omega

theorem addRemoteRxCredits_credits {credits : Nat} (windowed : q.txRemoteDataCreditMax ≠ 0)
    (bounded : q.txRemoteDataCredits ≤ q.txRemoteDataCreditMax) :
    (addRemoteRxCredits q credits).txRemoteDataCredits =
      min q.txRemoteDataCreditMax (q.txRemoteDataCredits + credits) := by
  unfold addRemoteRxCredits
  split
  · rename_i nothing
    have : credits = 0 := nothing.resolve_right windowed
    omega
  · dsimp only
    repeat' split
    all_goals omega

/-- The RX callback on the credits of its path: `returned` towards the peer,
`added` from it. -/
theorem rxComplete_credits (frame : WireFrame) (admits : txAdmits q = true)
    (windowed : q.txRemoteDataCreditMax ≠ 0)
    (bounded : q.txRemoteDataCredits ≤ q.txRemoteDataCreditMax)
    (below : q.rxDataCreditPending <
      creditReturnThreshold (dataCreditWindow q.cfg.rxRingSize))
    (one : (rxClassify q frame).2.1 ≤ 1) :
    (rxComplete q frame).rxDataCreditPending + carried (rxComplete q frame).txControlQueue =
      q.rxDataCreditPending + carried q.txControlQueue + (rxClassify q frame).2.1 ∧
    (rxComplete q frame).rxDataCreditPending <
      creditReturnThreshold (dataCreditWindow q.cfg.rxRingSize) ∧
    (rxComplete q frame).txRemoteDataCredits =
      min q.txRemoteDataCreditMax (q.txRemoteDataCredits + (rxClassify q frame).2.2.1) := by
  have raw := rxClassify_frame q frame
  rw [rxComplete_eq]
  generalize (rxClassify q frame).1 = r at raw
  generalize (rxClassify q frame).2.1 = returned at one ⊢
  generalize (rxClassify q frame).2.2.1 = added
  have cfg : r.cfg = q.cfg := by rw [raw]
  have sameMax : r.txRemoteDataCreditMax = q.txRemoteDataCreditMax := by rw [raw]
  have sameCredits : r.txRemoteDataCredits = q.txRemoteDataCredits := by rw [raw]
  have samePending : r.rxDataCreditPending = q.rxDataCreditPending := by rw [raw]
  have sameControl : r.txControlQueue = q.txControlQueue := by rw [raw]
  have sameAdmits : txAdmits r = true := by
    rw [raw]
    exact admits
  obtain ⟨moved, stays, kept⟩ := returnRxDataCredit_credits (q := r) sameAdmits
    (by rw [cfg, samePending]; exact below) one
  have frame' := returnRxDataCredit_frame r returned
  have maxKept : (returnRxDataCredit r returned).txRemoteDataCreditMax =
      q.txRemoteDataCreditMax := by rw [frame', sameMax]
  have addedFrame (t : Path) : (addRemoteRxCredits t added).rxDataCreditPending =
      t.rxDataCreditPending ∧ (addRemoteRxCredits t added).txControlQueue =
      t.txControlQueue := by
    unfold addRemoteRxCredits
    split <;> exact ⟨rfl, rfl⟩
  rw [(addedFrame _).1, (addedFrame _).2]
  refine ⟨?_, ?_, ?_⟩
  · rw [moved, samePending, sameControl]
  · rw [← cfg]
    exact stays
  · rw [addRemoteRxCredits_credits (by rw [maxKept]; exact windowed)
      (by rw [maxKept, kept, sameCredits]; exact bounded), maxKept, kept, sameCredits]

end Ledger

/-! ## The balance over a step -/

/-- What one path knows of its window and the bounds it keeps. -/
structure PathLedger (cfg : Bool → PathConfig) (side : Bool) (p : Path) : Prop where
  cfg_eq : p.cfg = cfg side
  admits : txAdmits p = true
  creditMax : p.txRemoteDataCreditMax = window cfg side
  credits_le : p.txRemoteDataCredits ≤ window cfg side
  pending_lt : p.rxDataCreditPending < creditReturnThreshold (window cfg !side)

def Link.Ledger (cfg : Bool → PathConfig) (l : Link) : Prop :=
  ∀ side, PathLedger cfg side (l.path side)

section Step
variable {cfg : Bool → PathConfig} {l : Link}

theorem window_pos (cfg : Bool → PathConfig) (side : Bool) : 0 < window cfg side :=
  dataCreditWindow_pos (cfg !side).rxRingSize_pos

theorem PathLedger.same {side : Bool} {p p' : Path} (ledger : PathLedger cfg side p)
    (same : SameLedger p p') : PathLedger cfg side p' where
  cfg_eq := by rw [same.cfg, ledger.cfg_eq]
  admits := by rw [same.admits, ledger.admits]
  creditMax := by rw [same.creditMax, ledger.creditMax]
  credits_le := by
    rw [same.credits]
    exact ledger.credits_le
  pending_lt := by
    rw [same.pending]
    exact ledger.pending_lt

theorem PathLedger.threshold {side : Bool} {p : Path} (ledger : PathLedger cfg side p) :
    p.rxDataCreditPending < creditReturnThreshold (dataCreditWindow p.cfg.rxRingSize) := by
  have below := ledger.pending_lt
  rwa [window, Bool.not_not, ← ledger.cfg_eq] at below

theorem PathLedger.windowed {side : Bool} {p : Path} (ledger : PathLedger cfg side p) :
    p.txRemoteDataCreditMax ≠ 0 := by
  have positive := window_pos cfg side
  rw [ledger.creditMax]
  omega

theorem Link.Ledger.setPath (ledger : l.Ledger cfg) (side : Bool) {p' : Path}
    (kept : PathLedger cfg side p') : (l.setPath side p').Ledger cfg := by
  intro dir
  by_cases same : dir = side
  · subst same
    simpa [Link.setPath] using kept
  · simpa [Link.setPath, Function.update_of_ne same] using ledger dir

/-- The balance of a link in which one path changed the three things it adds up. -/
theorem Link.balance_setPath (side dir : Bool) {p' : Path}
    (credits : p'.txRemoteDataCredits = (l.path side).txRemoteDataCredits)
    (pending : p'.rxDataCreditPending = (l.path side).rxDataCreditPending)
    (control : carried p'.txControlQueue = carried (l.path side).txControlQueue) :
    (l.setPath side p').balance dir = l.balance dir := by
  unfold Link.balance Link.setPath
  cases dir <;> cases side <;> simp_all [Function.update]

theorem Link.balance_sameLedger (side dir : Bool) {p' : Path}
    (same : SameLedger (l.path side) p') :
    (l.setPath side p').balance dir = l.balance dir :=
  Link.balance_setPath side dir same.credits same.pending (by rw [same.control])

theorem ControlFrame.creditsIn_packet (frame : ControlFrame) : creditsIn frame.packet = 0 := by
  obtain ⟨_, opcode⟩ := controlEmission_opcode frame.emitted
  unfold creditsIn ControlFrame.packet
  rcases opcode with opcode | opcode | opcode | opcode <;> simp [opcode]

/-- The one credit a delivered READ status frame returns without a charge. -/
def Link.uncharged (l : Link) (dir : Bool) : Event → Nat
  | .deliver side =>
      if side = dir then
        match l.wire side with
        | [] => 0
        | pkt :: _ => if readStatus pkt then 1 else 0
      else 0
  | _ => 0

theorem Link.Ledger.schedule (ledger : l.Ledger cfg) (inStep : l.InStep) (side : Bool) :
    (l.schedule side).Ledger cfg ∧ ∀ dir, (l.schedule side).balance dir = l.balance dir := by
  unfold Link.schedule
  rcases ran : scheduleTx (l.path side) .ok with ⟨p', posted⟩
  cases posted with
  | none =>
      rcases scheduleTx_ok_cases (l.path side) with idle | ⟨_, _, _, _, took⟩
      · rw [idle] at ran
        cases ran
        exact ⟨ledger.setPath side (ledger side),
          fun dir => Link.balance_setPath side dir rfl rfl rfl⟩
      · rw [took] at ran
        cases ran
  | some pkt =>
      obtain ⟨rx, sent, here⟩ := inStep side
      have own := ledger side
      obtain ⟨credits, moved, pending, cfgKept, admits, maxKept⟩ :=
        scheduleTx_credits ran own.windowed here.dataEmitted here.controlEmitted
      refine ⟨ledger.setPath side ?_, ?_⟩
      · exact
          { cfg_eq := by rw [cfgKept, own.cfg_eq]
            admits := by rw [admits, own.admits]
            creditMax := by rw [maxKept, own.creditMax]
            credits_le := by
              have := own.credits_le
              omega
            pending_lt := by
              rw [pending]
              exact own.pending_lt }
      · intro dir
        unfold Link.balance Link.setPath
        cases dir <;> cases side <;>
          simp_all [Function.update] <;> omega

theorem Link.Ledger.deliver (ledger : l.Ledger cfg) (inStep : l.InStep) (side : Bool) :
    (l.deliver side).Ledger cfg ∧
    ∀ dir, (l.deliver side).balance dir = l.balance dir + l.uncharged dir (.deliver side) ∨
      (window cfg dir ≤ (l.deliver side).balance dir ∧ window cfg dir < l.balance dir) := by
  unfold Link.deliver
  cases wire : l.wire side with
  | nil =>
      refine ⟨ledger, fun dir => .inl ?_⟩
      unfold Link.uncharged
      simp [wire]
  | cons pkt rest =>
      obtain ⟨rx, sent, here⟩ := inStep side
      rw [wire] at here
      obtain ⟨returned, added⟩ := here.refund
      have peer := ledger !side
      obtain ⟨moved, below, credits⟩ := rxComplete_credits pkt.frame peer.admits
        peer.windowed (by rw [peer.creditMax]; exact peer.credits_le) peer.threshold
        (by rw [returned]; split <;> omega)
      have frame := rxComplete_frame (l.path !side) pkt.frame
      have kept : PathLedger cfg (!side) (rxComplete (l.path !side) pkt.frame) :=
        { cfg_eq := by rw [frame, peer.cfg_eq]
          admits := by
            rw [frame]
            exact peer.admits
          creditMax := by rw [frame, peer.creditMax]
          credits_le := by
            rw [credits, peer.creditMax]
            exact Nat.min_le_left _ _
          pending_lt := by
            rwa [window, Bool.not_not, ← peer.cfg_eq] }
      rw [returned] at moved
      rw [added, peer.creditMax] at credits
      refine ⟨?_, ?_⟩
      · intro dir
        by_cases same : dir = !side
        · subst same
          simpa using kept
        · simpa [Function.update_of_ne same] using ledger dir
      · intro dir
        by_cases same : dir = side
        · subst same
          left
          have apart : dir ≠ !dir := by simp
          unfold Link.balance Link.uncharged
          simp only [wire, if_true, Function.update_self, Function.update_of_ne apart,
            Function.update_of_ne apart.symm, charged_cons]
          cases control : pkt.control with
          | false =>
              have quiet : readStatus pkt = false := by simp [readStatus, control]
              simp only [control, quiet, Bool.not_false, Bool.true_or, if_true,
                Bool.false_eq_true, if_false] at moved ⊢
              omega
          | true =>
              simp only [control, Bool.not_true, Bool.false_or, if_true] at moved ⊢
              omega
        · have other : dir = !side := by
            cases dir <;> cases side <;> simp_all
          subst other
          have apart : side ≠ !side := by simp
          unfold Link.balance Link.uncharged
          simp only [if_neg apart, Bool.not_not, Function.update_self,
            Function.update_of_ne apart, Function.update_of_ne apart.symm, wire, carried_cons]
          rw [credits]
          omega

theorem Link.Ledger.apply (ledger : l.Ledger cfg) (inStep : l.InStep) (e : Event) :
    (l.apply e).Ledger cfg ∧
    ∀ dir, (l.apply e).balance dir = l.balance dir + l.uncharged dir e ∨
      (window cfg dir ≤ (l.apply e).balance dir ∧ window cfg dir < l.balance dir) := by
  have ofLocal {side : Bool} {p' : Path} (same : SameLedger (l.path side) p') :
      (l.setPath side p').Ledger cfg ∧
        ∀ dir, (l.setPath side p').balance dir = l.balance dir + 0 ∨
          (window cfg dir ≤ (l.setPath side p').balance dir ∧
            window cfg dir < l.balance dir) :=
    ⟨ledger.setPath side ((ledger side).same same),
      fun dir => .inl (Link.balance_sameLedger side dir same)⟩
  cases e with
  | control side frame =>
      simp only [Link.apply]
      unfold enqueueControl
      rw [(ledger side).admits]
      refine ⟨ledger.setPath side ?_, fun dir => .inl ?_⟩
      · exact { ledger side with }
      · exact Link.balance_setPath side dir rfl rfl (by simp [frame.creditsIn_packet, orKeep])
  | framed side frame => exact ofLocal (enqueueData_sameLedger _ _)
  | reserve side frames => exact ofLocal (reserveData_sameLedger _ _)
  | release side frames => exact ofLocal ⟨rfl, rfl, rfl, rfl, rfl, rfl⟩
  | framedList side frames => exact ofLocal (enqueueReservedDataList_sameLedger _ _)
  | stream side pages => exact ofLocal (sendPageStream_sameLedger _ _)
  | schedule side =>
      obtain ⟨kept, same⟩ := ledger.schedule inStep side
      exact ⟨kept, fun dir => .inl (same dir)⟩
  | complete side canceled => exact ofLocal (txComplete_sameLedger _ _)
  | deliver side => exact ledger.deliver inStep side
  | cancelDone side done doneCtx => exact ofLocal (cancelDataMatch_sameLedger _ _ _ _)
  | cancelOwner side ownerCtx => exact ofLocal (cancelDataMatch_sameLedger _ _ _ _)

theorem Link.init_ledger (cfg : Bool → PathConfig) :
    (Link.init cfg).Ledger cfg ∧ ∀ dir, (Link.init cfg).balance dir = window cfg dir := by
  refine ⟨fun side => ⟨rfl, rfl, rfl, Nat.le_refl _, creditReturnThreshold_pos _⟩, fun dir => ?_⟩
  simp [Link.balance, Link.init, window, setRemoteRxCapacity, Path.fresh]

/-! ## Runs -/

def Link.NoReadStatus (l : Link) : Prop :=
  ∀ side, (∀ pkt ∈ l.wire side, readStatus pkt = false) ∧
    ∀ pkt ∈ (l.path side).txControlQueue, readStatus pkt = false

theorem Link.NoReadStatus.setPath (none : l.NoReadStatus) (side : Bool) {p' : Path}
    (queue : ∀ pkt ∈ p'.txControlQueue, readStatus pkt = false) :
    (l.setPath side p').NoReadStatus := by
  intro dir
  by_cases same : dir = side
  · subst same
    exact ⟨(none dir).1, by simpa [Link.setPath] using queue⟩
  · simpa [Link.setPath, Function.update_of_ne same] using none dir

theorem Link.NoReadStatus.sameLedger (none : l.NoReadStatus) (side : Bool) {p' : Path}
    (same : SameLedger (l.path side) p') : (l.setPath side p').NoReadStatus := by
  refine none.setPath side ?_
  rw [same.control]
  exact (none side).2

theorem Link.NoReadStatus.schedule (none : l.NoReadStatus) (inStep : l.InStep) (side : Bool) :
    (l.schedule side).NoReadStatus := by
  unfold Link.schedule
  rcases scheduleTx_ok_cases (l.path side) with idle | ⟨fromControlQueue, pkt, chosen, _, took⟩
  · rw [idle]
    exact none.setPath side (none side).2
  · obtain ⟨rx, sent, here⟩ := inStep side
    have same := scheduleTake_samePacket (l.path side) fromControlQueue pkt
    have ofData {rest : List TxPacket} (queue : (l.path side).txDataQueue = pkt :: rest) :
        readStatus pkt = false := by
      obtain ⟨_, data⟩ := here.dataEmitted pkt (by rw [queue]; exact List.mem_cons_self)
      simp [readStatus, data]
    have quiet : readStatus pkt = false := by
      obtain ⟨_, ⟨_, _, ⟨rest, queue⟩, _⟩ | ⟨_, _, rest, queue⟩ | ⟨_, _, _, rest, queue⟩⟩ :=
        scheduleChoice_cases chosen
      · exact ofData queue
      · exact (none side).2 pkt (by rw [queue]; exact List.mem_cons_self)
      · exact ofData queue
    rw [took]
    dsimp only
    intro dir
    obtain ⟨wires, queues⟩ := none dir
    refine ⟨?_, ?_⟩
    · intro other member
      by_cases sameSide : dir = side
      · subst sameSide
        dsimp only at member
        rw [Function.update_self, List.mem_append, List.mem_singleton] at member
        rcases member with old | rfl
        · exact wires other old
        · rw [readStatus_same same, quiet]
      · dsimp only at member
        rw [Function.update_of_ne sameSide] at member
        exact wires other member
    · intro other member
      by_cases sameSide : dir = side
      · subst sameSide
        simp only [Link.setPath, Function.update_self, scheduleTake_eq] at member
        refine queues other ?_
        split at member
        · exact List.mem_of_mem_tail member
        · exact member
      · simp only [Link.setPath, Function.update_of_ne sameSide] at member
        exact queues other member

theorem Link.NoReadStatus.deliver (none : l.NoReadStatus) (side : Bool) :
    (l.deliver side).NoReadStatus := by
  unfold Link.deliver
  cases wire : l.wire side with
  | nil => exact none
  | cons pkt rest =>
      intro dir
      obtain ⟨wires, queues⟩ := none dir
      refine ⟨?_, ?_⟩
      · intro other member
        by_cases same : dir = side
        · subst same
          dsimp only at member
          rw [Function.update_self] at member
          exact wires other (by rw [wire]; exact List.mem_cons_of_mem _ member)
        · dsimp only at member
          rw [Function.update_of_ne same] at member
          exact wires other member
      · intro other member
        by_cases same : dir = !side
        · subst same
          dsimp only at member
          rw [Function.update_self] at member
          rcases rxComplete_control (l.path !side) pkt.frame with kept | ⟨credits, _, queue⟩
          · rw [kept] at member
            exact queues other member
          · rw [queue, List.mem_append, List.mem_singleton] at member
            rcases member with old | rfl
            · exact queues other old
            · rfl
        · dsimp only at member
          rw [Function.update_of_ne same] at member
          exact queues other member

/-- The steps that conserve credits: framing stays in step, and no READ status
frame is put on the control queue. -/
def CreditOk (l : Link) (e : Event) : Prop :=
  FramingOk l e ∧
    match e with
    | .control _ frame => frame.hdr.opcode ≠ .rdmaReadResp
    | _ => True

theorem Link.NoReadStatus.apply (none : l.NoReadStatus) (inStep : l.InStep) {e : Event}
    (ok : CreditOk l e) : (l.apply e).NoReadStatus := by
  cases e with
  | control side frame =>
      refine none.setPath side ?_
      unfold enqueueControl
      split
      · exact (none side).2
      · intro pkt member
        rcases List.mem_append.mp member with old | new
        · exact (none side).2 pkt old
        · rw [List.mem_singleton] at new
          subst new
          have notStatus : frame.hdr.opcode ≠ .rdmaReadResp := ok.2
          simp [readStatus, ControlFrame.packet, notStatus]
  | framed side frame => exact none.sameLedger side (enqueueData_sameLedger _ _)
  | reserve side frames => exact none.sameLedger side (reserveData_sameLedger _ _)
  | release side frames => exact none.sameLedger side ⟨rfl, rfl, rfl, rfl, rfl, rfl⟩
  | framedList side frames => exact none.sameLedger side (enqueueReservedDataList_sameLedger _ _)
  | stream side pages => exact none.sameLedger side (sendPageStream_sameLedger _ _)
  | schedule side => exact none.schedule inStep side
  | complete side canceled => exact none.sameLedger side (txComplete_sameLedger _ _)
  | deliver side => exact none.deliver side
  | cancelDone side done doneCtx => exact none.sameLedger side (cancelDataMatch_sameLedger _ _ _ _)
  | cancelOwner side ownerCtx => exact none.sameLedger side (cancelDataMatch_sameLedger _ _ _ _)

theorem Link.uncharged_eq_zero (none : l.NoReadStatus) (dir : Bool) (e : Event) :
    l.uncharged dir e = 0 := by
  cases e with
  | deliver side =>
      simp only [Link.uncharged]
      cases wire : l.wire side with
      | nil => simp
      | cons pkt rest =>
          have quiet := (none side).1 pkt (by rw [wire]; exact List.mem_cons_self)
          simp [quiet]
  | _ => rfl

/-- No credit is lost: the places of a credit add up to the window at least. -/
structure Link.Covered (cfg : Bool → PathConfig) (l : Link) : Prop where
  inStep : l.InStep
  ledger : l.Ledger cfg
  covers : ∀ dir, window cfg dir ≤ l.balance dir

theorem Link.init_covered (cfg : Bool → PathConfig) : (Link.init cfg).Covered cfg := by
  obtain ⟨ledger, balanced⟩ := Link.init_ledger cfg
  exact ⟨Link.init_inStep cfg, ledger, fun dir => Nat.le_of_eq (balanced dir).symm⟩

theorem Link.Covered.apply (covered : l.Covered cfg) {e : Event} (ok : FramingOk l e) :
    (l.apply e).Covered cfg := by
  obtain ⟨kept, step⟩ := covered.ledger.apply covered.inStep e
  refine ⟨covered.inStep.apply e ok, kept, fun dir => ?_⟩
  have before := covered.covers dir
  rcases step dir with moved | clamped
  · omega
  · exact clamped.1

/-- Credits are conserved while no READ status frame is about. -/
structure Link.Conserved (cfg : Bool → PathConfig) (l : Link) : Prop extends l.Covered cfg where
  noStatus : l.NoReadStatus
  balanced : ∀ dir, l.balance dir = window cfg dir

theorem Link.init_conserved (cfg : Bool → PathConfig) : (Link.init cfg).Conserved cfg :=
  { Link.init_covered cfg with
    noStatus := by simp [Link.NoReadStatus, Link.init, setRemoteRxCapacity, Path.fresh]
    balanced := (Link.init_ledger cfg).2 }

theorem Link.Conserved.apply (conserved : l.Conserved cfg) {e : Event} (ok : CreditOk l e) :
    (l.apply e).Conserved cfg := by
  refine
    { conserved.toCovered.apply ok.1 with
      noStatus := conserved.noStatus.apply conserved.inStep ok
      balanced := fun dir => ?_ }
  have before := conserved.balanced dir
  rcases (conserved.ledger.apply conserved.inStep e).2 dir with moved | clamped
  · rw [moved, before, Link.uncharged_eq_zero conserved.noStatus, Nat.add_zero]
  · omega

/-- The data frames of a direction whose credit has not come back. -/
def Link.outstanding (l : Link) (side : Bool) : Nat :=
  charged (l.wire side) + (l.path !side).rxDataCreditPending + carried (l.wire !side) +
    carried (l.path !side).txControlQueue

theorem Link.conserved_of_reached (reached : Link.Reached CreditOk cfg l) : l.Conserved cfg := by
  refine reached.invariant (Link.init_conserved cfg) ?_
  intro l next e before meets taken
  cases Option.some.inj taken
  exact before.apply meets

/-- In every run that keeps framing in step and sends no READ status, the four
places of a credit add up to the window in every state reached, and the sender
has at most a window of uncredited frames outstanding. -/
theorem path_credits_conserved (reached : Link.Reached CreditOk cfg l) (side : Bool) :
    l.balance side = window cfg side ∧ l.outstanding side ≤ window cfg side := by
  have balanced := (Link.conserved_of_reached reached).balanced side
  refine ⟨balanced, ?_⟩
  unfold Link.balance at balanced
  unfold Link.outstanding
  omega

end Step

def readStatusFrame : ControlFrame where
  hdr := { opcode := .rdmaReadResp, flags := fLast }
  emitted := by decide

/-- A stream of two pages is posted and received: three credits are pending. -/
theorem path_credits_conserved_two_pages :
    let l := [Event.stream true twoPageWrite, .control true ackFrame, .schedule true,
      .schedule true, .deliver true].foldl Link.apply (Link.init fun _ => nativeConfig)
    l.balance true = 3840 ∧ l.outstanding true ≤ 3840 := by
  intro l
  have meets : Trans.Meets Link.step CreditOk
      [.stream true twoPageWrite, .control true ackFrame, .schedule true, .schedule true,
        .deliver true] (Link.init fun _ => nativeConfig) := by
    refine ⟨⟨trivial, trivial⟩, ?_⟩
    rintro _ ⟨⟩
    refine ⟨⟨trivial, by decide⟩, ?_⟩
    rintro _ ⟨⟩
    refine ⟨⟨noStaleEnd_of_ring (by decide +kernel), trivial⟩, ?_⟩
    rintro _ ⟨⟩
    refine ⟨⟨noStaleEnd_of_ring (by decide +kernel), trivial⟩, ?_⟩
    rintro _ ⟨⟩
    exact ⟨⟨trivial, trivial⟩, fun _ _ => trivial⟩
  have reached : Link.Reached CreditOk (fun _ => nativeConfig) l :=
    Trans.reaches_of_run meets (Link.run_step _ _)
  exact path_credits_conserved reached true

/-- One READ status frame is posted and received: it took no credit and returns
one. -/
theorem path_credits_minted :
    ¬ ∀ (cfg : Bool → PathConfig) (l : Link), Link.Reached (fun _ _ => True) cfg l →
      ∀ side, l.balance side = window cfg side := by
  intro always
  have balanced := always (fun _ => nativeConfig) _
    (Link.reached_foldl (fun _ => nativeConfig)
      [.control true readStatusFrame, .schedule true, .deliver true]) true
  exact absurd balanced (by decide +kernel)

end Tbv.NativePath
