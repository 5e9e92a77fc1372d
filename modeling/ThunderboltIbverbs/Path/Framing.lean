import ThunderboltIbverbs.Path.Spec
import Mathlib.Data.List.Nodup

/-! # Header and raw-payload framing

A receiver only counts the bytes a raw-stream header announced.  The packets of
one direction are read here by an automaton whose state is the stream that is
open; sender and receiver are in step when the frames in flight lead from the
receiver's state to the sender's, and the packets still queued lead on to the
end of their streams. -/
set_option autoImplicit false
namespace Tbv.NativePath

open Tbv.NativeData Trans

/-! ## The packets the driver builds -/

def Origin.sid? : Origin → Option Nat
  | .control | .framed => none
  | .streamHeader sid => some sid
  | .streamPayload sid _ => some sid

def Origin.headerSid? : Origin → Option Nat
  | .streamHeader sid => some sid
  | _ => none

/-- The header of a raw stream as `tbv_path_rx_complete` accepts it. -/
structure RawHeader (hdr : Header) : Prop where
  isWrite : hdr.opcode = .rdmaWrite ∨ hdr.opcode = .rdmaWriteImm
  raw : hasFlag hdr.flags fRawStream = true
  known : hdr.flags &&& ~~~(fLast ||| fSolicited ||| fRawStream) = 0
  length_pos : 0 < hdr.length

/-- What every packet of an emitter satisfies, on a queue or on the wire. -/
def Emitted (pkt : TxPacket) : Prop :=
  match pkt.origin with
  | .control =>
      pkt.control = true ∧ pkt.zcopy = false ∧ pkt.rawStreamStart = false ∧
      ∃ hdr, pkt.frame = { len := hdrSize, parsed := some hdr } ∧
        (controlEmission hdr = true ∨
          ∃ credits, 0 < credits ∧ hdr = { opcode := .pathCredit, immData := credits })
  | .framed =>
      pkt.control = false ∧ pkt.zcopy = false ∧ pkt.rawStreamStart = false ∧
      ∃ hdr, pkt.frame = { len := hdrSize + hdr.length, parsed := some hdr } ∧
        dataEmission hdr = true
  | .streamHeader _ =>
      pkt.control = false ∧ pkt.zcopy = false ∧ pkt.rawStreamStart = true ∧
      ∃ hdr, pkt.frame = { len := hdrSize, parsed := some hdr } ∧ RawHeader hdr
  | .streamPayload _ _ =>
      pkt.control = false ∧ pkt.zcopy = true ∧ pkt.rawStreamStart = false ∧
      0 < pkt.frame.len ∧ pkt.frame.len ≤ frameSize

/-- The parts of a packet that the scheduler and a cancel leave alone. -/
structure SamePacket (pkt other : TxPacket) : Prop where
  frame : other.frame = pkt.frame
  origin : other.origin = pkt.origin
  ownerCtx : other.ownerCtx = pkt.ownerCtx
  control : other.control = pkt.control
  zcopy : other.zcopy = pkt.zcopy
  rawStreamStart : other.rawStreamStart = pkt.rawStreamStart
  rawStreamEnd : other.rawStreamEnd = pkt.rawStreamEnd

theorem Emitted.same {pkt other : TxPacket} (same : SamePacket pkt other)
    (emitted : Emitted pkt) : Emitted other := by
  unfold Emitted at *
  rw [same.origin, same.frame, same.control, same.zcopy, same.rawStreamStart]
  exact emitted

/-! ## The automaton of a direction -/

/-- A raw stream whose header was read: the bytes read and the bytes to come. -/
structure OpenStream where
  sid : Nat
  owner : Option Nat
  offset : Nat
  remaining : Nat

inductive Carries : Option OpenStream → TxPacket → Option OpenStream → Prop
  | plain {pkt : TxPacket} (origin : pkt.origin.sid? = none) : Carries none pkt none
  | header {pkt : TxPacket} {sid : Nat} {hdr : Header} (origin : pkt.origin = .streamHeader sid)
      (notEnd : pkt.rawStreamEnd = false) (parsed : pkt.frame.parsed = some hdr) :
      Carries none pkt (some ⟨sid, pkt.ownerCtx, 0, hdr.length⟩)
  | page {pkt : TxPacket} {o : OpenStream} (origin : pkt.origin = .streamPayload o.sid o.offset)
      (owner : pkt.ownerCtx = o.owner) (notEnd : pkt.rawStreamEnd = false)
      (inside : pkt.frame.len < o.remaining) :
      Carries (some o) pkt
        (some { o with
          offset := o.offset + pkt.frame.len, remaining := o.remaining - pkt.frame.len })
  | lastPage {pkt : TxPacket} {o : OpenStream}
      (origin : pkt.origin = .streamPayload o.sid o.offset) (owner : pkt.ownerCtx = o.owner)
      (isEnd : pkt.rawStreamEnd = true) (rest : pkt.frame.len = o.remaining) :
      Carries (some o) pkt none

theorem Carries.same {pkt other : TxPacket} (same : SamePacket pkt other)
    {first last : Option OpenStream} (carries : Carries first pkt last) :
    Carries first other last := by
  cases carries with
  | plain origin => exact .plain (by rw [same.origin, origin])
  | header origin notEnd parsed =>
      rw [← same.ownerCtx]
      exact .header (by rw [same.origin, origin]) (by rw [same.rawStreamEnd, notEnd])
        (by rw [same.frame, parsed])
  | page origin owner notEnd inside =>
      rw [← same.frame] at inside ⊢
      exact .page (by rw [same.origin, origin]) (by rw [same.ownerCtx, owner])
        (by rw [same.rawStreamEnd, notEnd]) inside
  | lastPage origin owner isEnd rest =>
      exact .lastPage (by rw [same.origin, origin]) (by rw [same.ownerCtx, owner])
        (by rw [same.rawStreamEnd, isEnd]) (by rw [same.frame, rest])

/-- A cancel that treats the packets of each stream alike leaves complete
streams: `cut` says which streams it takes. -/
theorem Carries.trace_filter {hit : TxPacket → Bool} {cut : Nat → Bool}
    {first : Option OpenStream} {queue : List TxPacket}
    (uniform : ∀ pkt ∈ queue, ∀ sid, pkt.origin.sid? = some sid → hit pkt = cut sid)
    (trace : Trace Carries first queue none) :
    Trace Carries (first.filter fun o => !cut o.sid) (queue.filter fun pkt => !hit pkt) none := by
  generalize ended : (none : Option OpenStream) = last at trace
  induction trace with
  | nil state =>
      subst ended
      exact .nil none
  | @cons first middle last pkt word carries _ ih =>
      subst ended
      have tail := ih (fun pkt member => uniform pkt (List.mem_cons_of_mem _ member)) rfl
      have here := uniform pkt List.mem_cons_self
      cases carries with
      | plain origin =>
          cases taken : hit pkt with
          | true => simpa [List.filter_cons, taken] using tail
          | false => simpa [List.filter_cons, taken] using Trace.cons (.plain origin) tail
      | @header _ sid hdr origin notEnd parsed =>
          have decided : hit pkt = cut sid := here sid (by rw [origin]; rfl)
          cases taken : cut sid with
          | true => simpa [List.filter_cons, decided, taken, Option.filter] using tail
          | false =>
              simp only [Option.filter, taken, Bool.not_false, if_true] at tail
              simpa [List.filter_cons, decided, taken] using
                Trace.cons (.header origin notEnd parsed) tail
      | @page _ o origin owner notEnd inside =>
          have decided : hit pkt = cut o.sid := here o.sid (by rw [origin]; rfl)
          cases taken : cut o.sid with
          | true => simpa [List.filter_cons, decided, taken, Option.filter] using tail
          | false =>
              simp only [Option.filter, taken, Bool.not_false, if_true] at tail
              simpa [List.filter_cons, decided, taken, Option.filter] using
                Trace.cons (.page origin owner notEnd inside) tail
      | @lastPage _ o origin owner isEnd rest =>
          have decided : hit pkt = cut o.sid := here o.sid (by rw [origin]; rfl)
          cases taken : cut o.sid with
          | true => simpa [List.filter_cons, decided, taken, Option.filter] using tail
          | false =>
              simpa [List.filter_cons, decided, taken, Option.filter] using
                Trace.cons (.lastPage origin owner isEnd rest) tail

/-! ## Sender and receiver in step -/

def headerSids (queue : List TxPacket) : List Nat :=
  queue.filterMap fun pkt => pkt.origin.headerSid?

def lastRawHeader (posted : List TxPacket) : Option Nat :=
  (headerSids posted).getLast?

def RxMatches (q : Path) : Option OpenStream → Prop
  | none => q.rxRawPending = false
  | some o =>
      q.rxRawPending = true ∧ q.rxRawDone = o.offset ∧ q.rxRawRemaining = o.remaining ∧
        hasFlag q.rxRawHdr.flags fRawStream = true

/-- While a stream is open at the sender the scheduler is bound to it, and no
completion still to come can end it. -/
def Gate (p : Path) : Option OpenStream → Prop
  | none => True
  | some o =>
      p.txRawStreamActive = true ∧ p.txRawStreamOwner = o.owner ∧
      p.txRawStreamEndSeen = false ∧
      ∀ pkt ∈ p.ring, pkt.rawStreamCounted = true → pkt.ownerCtx = o.owner →
        pkt.rawStreamEnd = false

/-- The invariant of one direction: `rx` is open at the receiver `q`, `sent` at
the sender `p`. -/
structure InStepAt (rx sent : Option OpenStream) (p : Path) (wire received : List TxPacket)
    (q : Path) : Prop where
  wireEmitted : ∀ pkt ∈ wire, Emitted pkt
  dataEmitted : ∀ pkt ∈ p.txDataQueue, Emitted pkt ∧ pkt.control = false
  controlEmitted : ∀ pkt ∈ p.txControlQueue, Emitted pkt ∧ pkt.origin = .control
  receiver : RxMatches q rx
  wireTrace : Trace Carries rx wire sent
  queueTrace : Trace Carries sent p.txDataQueue none
  gate : Gate p sent
  lastHeader : ∀ o, rx = some o → lastRawHeader received = some o.sid
  sids : (headerSids p.txDataQueue).Nodup
  sids_lt : ∀ sid ∈ headerSids p.txDataQueue, sid < p.nextStream
  fresh : ∀ o, sent = some o → o.sid < p.nextStream ∧ o.sid ∉ headerSids p.txDataQueue

def InStep (p : Path) (wire received : List TxPacket) (q : Path) : Prop :=
  ∃ rx sent, InStepAt rx sent p wire received q

/-- The fields of a sender that framing depends on, the control queue apart. -/
structure SameTx (p p' : Path) : Prop where
  data : p'.txDataQueue = p.txDataQueue
  active : p'.txRawStreamActive = p.txRawStreamActive
  owner : p'.txRawStreamOwner = p.txRawStreamOwner
  endSeen : p'.txRawStreamEndSeen = p.txRawStreamEndSeen
  ring : p'.ring = p.ring
  nextStream : p'.nextStream = p.nextStream

/-- The fields of a receiver that framing depends on. -/
structure SameRx (q q' : Path) : Prop where
  pending : q'.rxRawPending = q.rxRawPending
  done : q'.rxRawDone = q.rxRawDone
  remaining : q'.rxRawRemaining = q.rxRawRemaining
  hdr : q'.rxRawHdr = q.rxRawHdr

theorem SameRx.refl (q : Path) : SameRx q q := ⟨rfl, rfl, rfl, rfl⟩

section Sender
variable {rx sent : Option OpenStream} {p p' q q' : Path} {wire received : List TxPacket}

theorem RxMatches.same (same : SameRx q q') (matched : RxMatches q rx) : RxMatches q' rx := by
  cases rx with
  | none =>
      unfold RxMatches at *
      rw [same.pending, matched]
  | some o =>
      unfold RxMatches at *
      rw [same.pending, same.done, same.remaining, same.hdr]
      exact matched

theorem InStepAt.of_rx (inStep : InStepAt rx sent p wire received q) (same : SameRx q q') :
    InStepAt rx sent p wire received q' :=
  { inStep with receiver := inStep.receiver.same same }

theorem InStepAt.of_tx (inStep : InStepAt rx sent p wire received q) (same : SameTx p p')
    (control : ∀ pkt ∈ p'.txControlQueue, Emitted pkt ∧ pkt.origin = .control) :
    InStepAt rx sent p' wire received q where
  wireEmitted := inStep.wireEmitted
  dataEmitted := by
    rw [same.data]
    exact inStep.dataEmitted
  controlEmitted := control
  receiver := inStep.receiver
  wireTrace := inStep.wireTrace
  queueTrace := by
    rw [same.data]
    exact inStep.queueTrace
  gate := by
    have gate := inStep.gate
    cases sent with
    | none => trivial
    | some o =>
        unfold Gate at *
        rw [same.active, same.owner, same.endSeen, same.ring]
        exact gate
  lastHeader := inStep.lastHeader
  sids := by
    rw [same.data]
    exact inStep.sids
  sids_lt := by
    rw [same.data, same.nextStream]
    exact inStep.sids_lt
  fresh := by
    rw [same.data, same.nextStream]
    exact inStep.fresh

theorem InStepAt.append_control (inStep : InStepAt rx sent p wire received q) {pkt : TxPacket}
    (same : SameTx p p') (queue : p'.txControlQueue = p.txControlQueue ++ [pkt])
    (emitted : Emitted pkt) (origin : pkt.origin = .control) :
    InStepAt rx sent p' wire received q := by
  refine inStep.of_tx same ?_
  intro other member
  rw [queue, List.mem_append, List.mem_singleton] at member
  rcases member with old | rfl
  · exact inStep.controlEmitted other old
  · exact ⟨emitted, origin⟩

theorem headerSids_append (one two : List TxPacket) :
    headerSids (one ++ two) = headerSids one ++ headerSids two :=
  List.filterMap_append

theorem InStepAt.append_data (inStep : InStepAt rx sent p wire received q)
    {pkts : List TxPacket} (data : p'.txDataQueue = p.txDataQueue ++ pkts)
    (control : p'.txControlQueue = p.txControlQueue)
    (active : p'.txRawStreamActive = p.txRawStreamActive)
    (owner : p'.txRawStreamOwner = p.txRawStreamOwner)
    (endSeen : p'.txRawStreamEndSeen = p.txRawStreamEndSeen) (ring : p'.ring = p.ring)
    (grows : p.nextStream ≤ p'.nextStream)
    (emitted : ∀ pkt ∈ pkts, Emitted pkt ∧ pkt.control = false)
    (trace : Trace Carries none pkts none) (nodup : (headerSids pkts).Nodup)
    (new : ∀ sid ∈ headerSids pkts, p.nextStream ≤ sid ∧ sid < p'.nextStream) :
    InStepAt rx sent p' wire received q where
  wireEmitted := inStep.wireEmitted
  dataEmitted := by
    intro pkt member
    rw [data, List.mem_append] at member
    exact member.elim (inStep.dataEmitted pkt) (emitted pkt)
  controlEmitted := by
    rw [control]
    exact inStep.controlEmitted
  receiver := inStep.receiver
  wireTrace := inStep.wireTrace
  queueTrace := by
    rw [data]
    exact inStep.queueTrace.append trace
  gate := by
    have gate := inStep.gate
    cases sent with
    | none => trivial
    | some o =>
        unfold Gate at *
        rw [active, owner, endSeen, ring]
        exact gate
  lastHeader := inStep.lastHeader
  sids := by
    rw [data, headerSids_append, List.nodup_append]
    refine ⟨inStep.sids, nodup, ?_⟩
    intro one old two added same
    have below := inStep.sids_lt one old
    have above := (new two added).1
    omega
  sids_lt := by
    intro sid member
    rw [data, headerSids_append, List.mem_append] at member
    rcases member with old | added
    · have := inStep.sids_lt sid old
      omega
    · exact (new sid added).2
  fresh := by
    intro o opened
    obtain ⟨below, absent⟩ := inStep.fresh o opened
    refine ⟨by omega, ?_⟩
    rw [data, headerSids_append, List.mem_append]
    rintro (old | added)
    · exact absent old
    · have := (new o.sid added).1
      omega

theorem headerSids_cons (pkt : TxPacket) (rest : List TxPacket) :
    headerSids (pkt :: rest) =
      (pkt.origin.headerSid?.map fun sid => sid :: headerSids rest).getD (headerSids rest) := by
  unfold headerSids
  rw [List.filterMap_cons]
  cases pkt.origin.headerSid? <;> rfl

theorem InStepAt.post_data (inStep : InStepAt rx sent p wire received q)
    {sent' : Option OpenStream} {pkt posted : TxPacket} {rest : List TxPacket}
    (queue : p.txDataQueue = pkt :: rest) (carries : Carries sent pkt sent')
    (tail : Trace Carries sent' rest none) (same : SamePacket pkt posted)
    (data : p'.txDataQueue = rest) (control : p'.txControlQueue = p.txControlQueue)
    (next : p'.nextStream = p.nextStream) (gate : Gate p' sent') :
    InStepAt rx sent' p' (wire ++ [posted]) received q := by
  have sids := inStep.sids
  have sids_lt := inStep.sids_lt
  have fresh := inStep.fresh
  rw [queue, headerSids_cons] at sids sids_lt fresh
  have emitted := inStep.dataEmitted
  rw [queue] at emitted
  refine
    { wireEmitted := ?_
      dataEmitted := ?_
      controlEmitted := by
        rw [control]
        exact inStep.controlEmitted
      receiver := inStep.receiver
      wireTrace := inStep.wireTrace.snoc (carries.same same)
      queueTrace := by
        rw [data]
        exact tail
      gate := gate
      lastHeader := inStep.lastHeader
      sids := ?_
      sids_lt := ?_
      fresh := ?_ }
  · intro other member
    rw [List.mem_append, List.mem_singleton] at member
    rcases member with old | rfl
    · exact inStep.wireEmitted other old
    · exact (emitted pkt List.mem_cons_self).1.same same
  · rw [data]
    exact fun other member => emitted other (List.mem_cons_of_mem _ member)
  · rw [data]
    cases head : pkt.origin.headerSid? with
    | none => simpa [head] using sids
    | some sid =>
        simp only [head, Option.map_some, Option.getD_some] at sids
        exact sids.of_cons
  · rw [data, next]
    intro sid member
    refine sids_lt sid ?_
    cases pkt.origin.headerSid? with
    | none => exact member
    | some first => exact List.mem_cons_of_mem _ member
  · rw [data, next]
    intro o opened
    cases carries with
    | plain origin => cases opened
    | header origin notEnd parsed =>
        cases opened
        simp only [origin, Origin.headerSid?, Option.map_some, Option.getD_some] at sids sids_lt
        exact ⟨sids_lt _ List.mem_cons_self, (List.nodup_cons.mp sids).1⟩
    | page origin owner notEnd inside =>
        cases opened
        simpa [origin, Origin.headerSid?] using fresh _ rfl
    | lastPage origin owner isEnd rest => cases opened

theorem InStepAt.post_control (inStep : InStepAt rx none p wire received q)
    {pkt posted : TxPacket} {rest : List TxPacket} (queue : p.txControlQueue = pkt :: rest)
    (same : SamePacket pkt posted) (data : p'.txDataQueue = p.txDataQueue)
    (control : p'.txControlQueue = rest) (next : p'.nextStream = p.nextStream) :
    InStepAt rx none p' (wire ++ [posted]) received q := by
  have emitted := inStep.controlEmitted
  rw [queue] at emitted
  obtain ⟨headEmitted, origin⟩ := emitted pkt List.mem_cons_self
  have carries : Carries none posted none := .plain (by rw [same.origin, origin]; rfl)
  exact
    { wireEmitted := by
        intro other member
        rw [List.mem_append, List.mem_singleton] at member
        rcases member with old | rfl
        · exact inStep.wireEmitted other old
        · exact headEmitted.same same
      dataEmitted := by
        rw [data]
        exact inStep.dataEmitted
      controlEmitted := by
        rw [control]
        exact fun other member => emitted other (List.mem_cons_of_mem _ member)
      receiver := inStep.receiver
      wireTrace := inStep.wireTrace.snoc carries
      queueTrace := by
        rw [data]
        exact inStep.queueTrace
      gate := trivial
      lastHeader := inStep.lastHeader
      sids := by
        rw [data]
        exact inStep.sids
      sids_lt := by
        rw [data, next]
        exact inStep.sids_lt
      fresh := nofun }

theorem scheduleTake_samePacket (p : Path) (fromControlQueue : Bool) (pkt : TxPacket) :
    SamePacket pkt (scheduleTake p fromControlQueue pkt).2 := by
  rw [scheduleTake_eq]
  exact ⟨rfl, rfl, rfl, rfl, rfl, rfl, rfl⟩

theorem Emitted.page_of_zcopy {pkt : TxPacket} (emitted : Emitted pkt)
    (zcopy : pkt.zcopy = true) : ∃ sid offset, pkt.origin = .streamPayload sid offset := by
  unfold Emitted at emitted
  cases origin : pkt.origin with
  | streamPayload sid offset => exact ⟨sid, offset, rfl⟩
  | _ =>
      rw [origin] at emitted
      simp [emitted.2.1] at zcopy

/-- A raw-stream header is posted only when no counted end packet of the same
owner is still with the ring. -/
def NoStaleEnd (p : Path) : Prop :=
  ∀ pkt, scheduleChoice p = some (false, pkt) → pkt.rawStreamStart = true →
    ∀ old ∈ p.ring, old.rawStreamCounted = true → old.ownerCtx = pkt.ownerCtx →
      old.rawStreamEnd = false

theorem InStepAt.schedule (inStep : InStepAt rx sent p wire received q)
    (noStale : NoStaleEnd p) {posted : TxPacket}
    (ran : scheduleTx p .ok = (p', some posted)) :
    InStep p' (wire ++ [posted]) received q := by
  rcases scheduleTx_ok_cases p with idle | ⟨fromControlQueue, pkt, chosen, _, took⟩
  · rw [idle] at ran
    cases ran
  · rw [took] at ran
    have same := scheduleTake_samePacket p fromControlQueue pkt
    obtain ⟨rfl, rfl⟩ : _ = p' ∧ _ = posted := by simpa using ran
    have gate := inStep.gate
    obtain ⟨_, ⟨active, rfl, ⟨rest, queue⟩, zcopy, notStart, owner⟩ |
      ⟨inactive, rfl, rest, queue⟩ | ⟨inactive, rfl, _, rest, queue⟩⟩ :=
        scheduleChoice_cases chosen
    · -- inside a stream: the head of the data queue is its next page
      have trace := inStep.queueTrace
      rw [queue] at trace
      obtain ⟨sent', carries, tail⟩ := trace_cons_iff.mp trace
      obtain ⟨emitted, _⟩ := inStep.dataEmitted pkt (by rw [queue]; exact List.mem_cons_self)
      obtain ⟨sid, offset, origin⟩ := emitted.page_of_zcopy zcopy
      refine ⟨rx, sent', inStep.post_data queue carries tail same ?_ ?_ ?_ ?_⟩
      · rw [scheduleTake_eq]
        simp [queue]
      · rw [scheduleTake_eq]
        simp
      · rw [scheduleTake_eq]
      · cases carries with
        | plain none => simp [origin, Origin.sid?] at none
        | header headerOrigin _ _ => simp [origin] at headerOrigin
        | lastPage _ _ _ _ => trivial
        | page _ _ notEnd _ =>
            obtain ⟨_, ownerOpen, endSeen, ring⟩ := gate
            rw [scheduleTake_eq]
            refine ⟨by simp [active], by simp [notStart, ownerOpen], by simp [endSeen], ?_⟩
            intro other member counted sameOwner
            simp only [List.mem_append, List.mem_singleton] at member
            rcases member with old | rfl
            · exact ring other old counted sameOwner
            · exact notEnd
    · -- the gate excludes an open stream
      cases sent with
      | some o =>
          rw [gate.1] at inactive
          cases inactive
      | none =>
          refine ⟨rx, none, inStep.post_control queue same ?_ ?_ ?_⟩
          · rw [scheduleTake_eq]
            simp
          · rw [scheduleTake_eq]
            simp [queue]
          · rw [scheduleTake_eq]
    · cases sent with
      | some o =>
          rw [gate.1] at inactive
          cases inactive
      | none =>
          have trace := inStep.queueTrace
          rw [queue] at trace
          obtain ⟨sent', carries, tail⟩ := trace_cons_iff.mp trace
          refine ⟨rx, sent', inStep.post_data queue carries tail same ?_ ?_ ?_ ?_⟩
          · rw [scheduleTake_eq]
            simp [queue]
          · rw [scheduleTake_eq]
            simp
          · rw [scheduleTake_eq]
          · cases carries with
            | plain _ => trivial
            | header origin notEnd parsed =>
                obtain ⟨emitted, _⟩ := inStep.dataEmitted pkt (by rw [queue]; exact List.mem_cons_self)
                have start : pkt.rawStreamStart = true := by
                  simp only [Emitted, origin] at emitted
                  exact emitted.2.2.1
                rw [scheduleTake_eq]
                refine ⟨by simp [start], by simp [start], by simp [start], ?_⟩
                intro other member counted sameOwner
                simp only [List.mem_append, List.mem_singleton] at member
                rcases member with old | rfl
                · exact noStale pkt chosen start other old counted sameOwner
                · exact notEnd

/-! ## Completions -/

theorem txComplete_sameData (p : Path) (canceled : Bool) :
    (txComplete p canceled).txDataQueue = p.txDataQueue ∧
    (txComplete p canceled).txControlQueue = p.txControlQueue ∧
    (txComplete p canceled).nextStream = p.nextStream ∧
    SameRx p (txComplete p canceled) := by
  cases queue : p.ring with
  | nil =>
      rw [txComplete_nil queue]
      exact ⟨rfl, rfl, rfl, .refl p⟩
  | cons pkt rest =>
      rw [txComplete_cons queue, finishRawStreamIfNeeded_frame]
      exact ⟨rfl, rfl, rfl, rfl, rfl, rfl, rfl⟩

theorem Gate.complete {o : OpenStream} (gate : Gate p (some o)) (canceled : Bool) :
    Gate (txComplete p canceled) (some o) := by
  cases queue : p.ring with
  | nil =>
      rw [txComplete_nil queue]
      exact gate
  | cons pkt rest =>
      obtain ⟨active, owner, endSeen, ring⟩ := gate
      rw [queue] at ring
      have later : ∀ other ∈ rest, other.rawStreamCounted = true → other.ownerCtx = o.owner →
          other.rawStreamEnd = false :=
        fun other member => ring other (List.mem_cons_of_mem _ member)
      rw [txComplete_cons queue]
      by_cases counted : pkt.rawStreamCounted = true
      · by_cases same : p.txRawStreamOwner = pkt.ownerCtx
        · have notEnd := ring pkt List.mem_cons_self counted (by rw [← same, owner])
          rw [finishRawStreamIfNeeded_open counted (p := retireDescriptor p pkt rest) active same
            notEnd endSeen]
          exact ⟨active, owner, rfl, later⟩
        · rw [finishRawStreamIfNeeded_foreign (p := retireDescriptor p pkt rest) active same]
          exact ⟨active, owner, endSeen, later⟩
      · rw [finishRawStreamIfNeeded_uncounted (by simpa using counted)]
        exact ⟨active, owner, endSeen, later⟩

theorem InStepAt.complete (inStep : InStepAt rx sent p wire received q) (canceled : Bool) :
    InStepAt rx sent (txComplete p canceled) wire received q := by
  obtain ⟨data, control, next, _⟩ := txComplete_sameData p canceled
  exact
    { wireEmitted := inStep.wireEmitted
      dataEmitted := by
        rw [data]
        exact inStep.dataEmitted
      controlEmitted := by
        rw [control]
        exact inStep.controlEmitted
      receiver := inStep.receiver
      wireTrace := inStep.wireTrace
      queueTrace := by
        rw [data]
        exact inStep.queueTrace
      gate := by
        cases sent with
        | none => trivial
        | some o => exact inStep.gate.complete canceled
      lastHeader := inStep.lastHeader
      sids := by
        rw [data]
        exact inStep.sids
      sids_lt := by
        rw [data, next]
        exact inStep.sids_lt
      fresh := by
        rw [data, next]
        exact inStep.fresh }

end Sender

end Tbv.NativePath
