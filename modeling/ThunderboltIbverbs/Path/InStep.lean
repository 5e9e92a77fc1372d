import ThunderboltIbverbs.Path.Framing

/-! # Framing through enqueues, cancels and deliveries

The steps that add packets, take packets away or hand one to the receiver keep
the two ends in step; for a cancel under the condition that it takes streams
whole.  The last section puts the steps together over whole runs of a link. -/
set_option autoImplicit false
namespace Tbv.NativePath

open Tbv.NativeData Trans

section Steps
variable {rx sent : Option OpenStream} {p p' q q' : Path} {wire received : List TxPacket}

/-! ## Enqueues -/

theorem ControlFrame.packet_emitted (frame : ControlFrame) : Emitted frame.packet :=
  ⟨rfl, rfl, rfl, frame.hdr, rfl, .inl frame.emitted⟩

theorem FramedFrame.packet_emitted (frame : FramedFrame) : Emitted frame.packet :=
  ⟨rfl, rfl, rfl, frame.hdr, rfl, frame.emitted⟩

theorem pathCreditPacket_emitted {credits : Nat} (positive : 0 < credits) :
    Emitted (pathCreditPacket credits) :=
  ⟨rfl, rfl, rfl, _, rfl, .inr ⟨credits, positive, rfl⟩⟩

theorem samePacket_group (pkt : TxPacket) (count : Nat) :
    SamePacket pkt { pkt with startCreditGroupFrames := count } :=
  ⟨rfl, rfl, rfl, rfl, rfl, rfl, rfl⟩

theorem markGroup_trace {count : Nat} {pkts : List TxPacket} {first last : Option OpenStream}
    (trace : Trace Carries first pkts last) : Trace Carries first (markGroup count pkts) last := by
  cases trace with
  | nil state => exact .nil first
  | cons carries tail =>
      exact .cons (carries.same (samePacket_group _ count))
        (tail.map fun read => read.same (samePacket_group _ 0))

theorem markGroup_emitted {count : Nat} {pkts : List TxPacket}
    (emitted : ∀ pkt ∈ pkts, Emitted pkt ∧ pkt.control = false) :
    ∀ pkt ∈ markGroup count pkts, Emitted pkt ∧ pkt.control = false := by
  cases pkts with
  | nil => exact emitted
  | cons head rest =>
      intro pkt member
      rcases List.mem_cons.mp member with rfl | later
      · obtain ⟨ofHead, data⟩ := emitted head List.mem_cons_self
        exact ⟨ofHead.same (samePacket_group _ _), data⟩
      · obtain ⟨other, otherMember, rfl⟩ := List.mem_map.mp later
        obtain ⟨ofOther, data⟩ := emitted other (List.mem_cons_of_mem _ otherMember)
        exact ⟨ofOther.same (samePacket_group _ _), data⟩

theorem markGroup_headerSids (count : Nat) (pkts : List TxPacket) :
    headerSids (markGroup count pkts) = headerSids pkts := by
  cases pkts with
  | nil => rfl
  | cons head rest =>
      have tail : headerSids (rest.map fun q => { q with startCreditGroupFrames := 0 }) =
          headerSids rest := by
        unfold headerSids
        rw [List.filterMap_map]
        rfl
      rw [markGroup, headerSids_cons, headerSids_cons, tail]

theorem plain_trace {pkts : List TxPacket} (plain : ∀ pkt ∈ pkts, pkt.origin.sid? = none) :
    Trace Carries none pkts none := by
  induction pkts with
  | nil => exact .nil none
  | cons pkt rest ih =>
      exact .cons (.plain (plain pkt List.mem_cons_self))
        (ih fun other member => plain other (List.mem_cons_of_mem _ member))

theorem plain_headerSids {pkts : List TxPacket} (plain : ∀ pkt ∈ pkts, pkt.origin.sid? = none) :
    headerSids pkts = [] := by
  unfold headerSids
  rw [List.filterMap_eq_nil_iff]
  intro pkt member
  have := plain pkt member
  cases origin : pkt.origin <;> simp_all [Origin.sid?, Origin.headerSid?]

theorem InStepAt.append_plain (inStep : InStepAt rx sent p wire received q)
    {pkts : List TxPacket} (plain : ∀ pkt ∈ pkts, pkt.origin.sid? = none)
    (emitted : ∀ pkt ∈ pkts, Emitted pkt ∧ pkt.control = false)
    (data : p'.txDataQueue = p.txDataQueue ++ pkts)
    (control : p'.txControlQueue = p.txControlQueue)
    (active : p'.txRawStreamActive = p.txRawStreamActive)
    (owner : p'.txRawStreamOwner = p.txRawStreamOwner)
    (endSeen : p'.txRawStreamEndSeen = p.txRawStreamEndSeen) (ring : p'.ring = p.ring)
    (next : p'.nextStream = p.nextStream) : InStepAt rx sent p' wire received q :=
  inStep.append_data data control active owner endSeen ring (Nat.le_of_eq next.symm) emitted
    (plain_trace plain) (by simp [plain_headerSids plain]) (by simp [plain_headerSids plain])

theorem InStepAt.enqueueControl (inStep : InStepAt rx sent p wire received q)
    (frame : ControlFrame) :
    InStepAt rx sent (orKeep p (enqueueControl p frame.packet)) wire received q := by
  unfold NativePath.enqueueControl
  split
  · exact inStep
  · exact inStep.append_control ⟨rfl, rfl, rfl, rfl, rfl, rfl⟩ rfl frame.packet_emitted rfl

theorem InStepAt.enqueueData (inStep : InStepAt rx sent p wire received q) (frame : FramedFrame) :
    InStepAt rx sent (orKeep p (enqueueData p frame.packet)) wire received q := by
  have plain : ∀ pkt ∈ [{ frame.packet with startCreditGroupFrames := 1 }],
      pkt.origin.sid? = none := by
    intro pkt member
    rw [List.mem_singleton] at member
    subst member
    rfl
  have emitted : ∀ pkt ∈ [{ frame.packet with startCreditGroupFrames := 1 }],
      Emitted pkt ∧ pkt.control = false := by
    intro pkt member
    rw [List.mem_singleton] at member
    subst member
    exact ⟨frame.packet_emitted.same (samePacket_group _ 1), rfl⟩
  unfold NativePath.enqueueData
  dsimp only
  repeat' split
  · exact inStep
  · exact inStep.append_plain plain emitted rfl rfl rfl rfl rfl rfl rfl
  · exact inStep
  · exact inStep.append_plain plain emitted rfl rfl rfl rfl rfl rfl rfl

theorem InStepAt.enqueueReservedDataList (inStep : InStepAt rx sent p wire received q)
    (frames : List FramedFrame) :
    InStepAt rx sent
      (orKeep p (enqueueReservedDataList p (frames.map FramedFrame.packet))) wire received q := by
  have plainFrames : ∀ pkt ∈ frames.map FramedFrame.packet, pkt.origin.sid? = none := by
    intro pkt member
    obtain ⟨frame, _, rfl⟩ := List.mem_map.mp member
    rfl
  have emitted : ∀ pkt ∈ frames.map FramedFrame.packet, Emitted pkt ∧ pkt.control = false := by
    intro pkt member
    obtain ⟨frame, _, rfl⟩ := List.mem_map.mp member
    exact ⟨frame.packet_emitted, rfl⟩
  unfold NativePath.enqueueReservedDataList
  dsimp only
  repeat' split
  · exact inStep
  · exact inStep
  · exact inStep
  · refine inStep.append_data rfl rfl rfl rfl rfl rfl (Nat.le_refl _)
      (markGroup_emitted emitted) (markGroup_trace (plain_trace plainFrames)) ?_ ?_
    · simp [markGroup_headerSids, plain_headerSids plainFrames]
    · simp [markGroup_headerSids, plain_headerSids plainFrames]

/-- The pages of a stream lead from the byte they start at to its end. -/
theorem payloadPackets_trace (owner pageDone pageCtx sid : Nat) (pages : List WireFrame)
    (nonempty : pages ≠ []) (positive : ∀ page ∈ pages, 0 < page.len) (prepared : Nat) :
    Trace Carries (some ⟨sid, some owner, prepared, (pages.map WireFrame.len).sum⟩)
      (payloadPackets owner pageDone pageCtx sid prepared pages) none := by
  induction pages generalizing prepared with
  | nil => exact absurd rfl nonempty
  | cons page rest ih =>
      cases rest with
      | nil => exact .cons (.lastPage rfl rfl rfl (by simp)) (.nil none)
      | cons next more =>
          have later := ih (List.cons_ne_nil _ _)
            (fun other member => positive other (List.mem_cons_of_mem _ member))
            (prepared + page.len)
          have nextPositive := positive next (List.mem_cons_of_mem _ List.mem_cons_self)
          refine .cons (.page rfl rfl rfl ?_) ?_
          · simp only [List.map_cons, List.sum_cons]
            omega
          · simpa using later

theorem payloadPackets_mem {owner pageDone pageCtx sid : Nat} {pages : List WireFrame}
    {prepared : Nat} {pkt : TxPacket}
    (member : pkt ∈ payloadPackets owner pageDone pageCtx sid prepared pages) :
    ∃ page ∈ pages, ∃ offset, pkt.frame = page ∧ pkt.origin = .streamPayload sid offset ∧
      pkt.control = false ∧ pkt.zcopy = true ∧ pkt.rawStreamStart = false ∧
      pkt.rawStreamCounted = false := by
  induction pages generalizing prepared with
  | nil => cases member
  | cons page rest ih =>
      rcases List.mem_cons.mp member with rfl | later
      · exact ⟨page, List.mem_cons_self, prepared, rfl, rfl, rfl, rfl, rfl, rfl⟩
      · obtain ⟨other, otherMember, facts⟩ := ih later
        exact ⟨other, List.mem_cons_of_mem _ otherMember, facts⟩

theorem PageStream.totalLength_pos (s : PageStream) : 0 < s.totalLength := by
  unfold PageStream.totalLength
  cases pages : s.pages with
  | nil => exact absurd pages s.nonempty
  | cons page rest =>
      have := (s.pageLen page (by rw [pages]; exact List.mem_cons_self)).1
      simp only [List.map_cons, List.sum_cons]
      omega

theorem flags_stream (flags : UInt8) (known : flags &&& ~~~(fLast ||| fSolicited) = 0) :
    hasFlag (flags ||| fLast ||| fRawStream) fRawStream = true ∧
      (flags ||| fLast ||| fRawStream) &&& ~~~(fLast ||| fSolicited ||| fRawStream) = 0 := by
  have all : ∀ n : Fin 256,
      (⟨⟨n⟩⟩ : UInt8) &&& ~~~(fLast ||| fSolicited) = 0 →
        hasFlag (⟨⟨n⟩⟩ ||| fLast ||| fRawStream) fRawStream = true ∧
          (⟨⟨n⟩⟩ ||| fLast ||| fRawStream) &&& ~~~(fLast ||| fSolicited ||| fRawStream) = 0 := by
    decide +kernel
  exact all flags.toBitVec.toFin known

theorem PageStream.headerPacket_emitted (s : PageStream) (sid : Nat) :
    Emitted (s.headerPacket sid) := by
  obtain ⟨raw, known⟩ := flags_stream s.hdr.flags s.knownFlags
  exact ⟨rfl, rfl, rfl, _, rfl, s.isWrite, raw, known, s.totalLength_pos⟩

theorem PageStream.packets_emitted (s : PageStream) (sid : Nat) :
    ∀ pkt ∈ s.packets sid, Emitted pkt ∧ pkt.control = false := by
  intro pkt member
  rcases List.mem_cons.mp member with rfl | later
  · exact ⟨s.headerPacket_emitted sid, rfl⟩
  · obtain ⟨page, pageMember, offset, frame, origin, control, zcopy, start, _⟩ :=
      payloadPackets_mem later
    have len := s.pageLen page pageMember
    refine ⟨?_, control⟩
    unfold Emitted
    rw [origin, frame]
    exact ⟨control, zcopy, start, len.1, len.2⟩

theorem PageStream.packets_trace (s : PageStream) (sid : Nat) :
    Trace Carries none (s.packets sid) none :=
  .cons (.header rfl rfl rfl)
    (payloadPackets_trace s.owner s.pageDone s.pageCtx sid s.pages s.nonempty
      (fun page member => (s.pageLen page member).1) 0)

theorem PageStream.packets_headerSids (s : PageStream) (sid : Nat) :
    headerSids (s.packets sid) = [sid] := by
  have pages : headerSids (payloadPackets s.owner s.pageDone s.pageCtx sid 0 s.pages) = [] := by
    unfold headerSids
    rw [List.filterMap_eq_nil_iff]
    intro pkt member
    obtain ⟨_, _, offset, _, origin, _⟩ := payloadPackets_mem member
    rw [origin]
    rfl
  rw [PageStream.packets, headerSids_cons, pages]
  rfl

theorem sendPageStream_cases (p : Path) (s : PageStream) :
    (∃ status, sendPageStream p s = releasePacketList p (s.packets p.nextStream) status) ∨
    sendPageStream p s =
      { p with
        txDataQueue := p.txDataQueue ++
          markGroup (s.packets p.nextStream).length (s.packets p.nextStream)
        txDataQueued := p.txDataQueued + (s.packets p.nextStream).length
        nextStream := p.nextStream + 1 } := by
  unfold sendPageStream enqueueDataList
  have nonzero : (s.packets p.nextStream).length ≠ 0 := by simp [PageStream.packets]
  simp only [nonzero, if_false]
  split <;> rename_i outcome
  · right
    split at outcome
    · cases outcome
    · split at outcome
      · cases outcome
      · cases outcome
        rfl
  · exact .inl ⟨_, rfl⟩

theorem InStepAt.sendPageStream (inStep : InStepAt rx sent p wire received q) (s : PageStream) :
    InStepAt rx sent (sendPageStream p s) wire received q := by
  rcases sendPageStream_cases p s with ⟨status, refused⟩ | queued
  · rw [refused, releasePacketList_eq]
    exact inStep.of_tx ⟨rfl, rfl, rfl, rfl, rfl, rfl⟩ inStep.controlEmitted
  · rw [queued]
    refine inStep.append_data rfl rfl rfl rfl rfl rfl (Nat.le_succ _)
      (markGroup_emitted (s.packets_emitted _)) (markGroup_trace (s.packets_trace _)) ?_ ?_
    · simp [markGroup_headerSids, s.packets_headerSids]
    · simp [markGroup_headerSids, s.packets_headerSids]

/-! ## Cancels -/

/-- The cancel takes a queued stream whole or not at all: it hits a packet of a
stream only while the stream's header is still queued, and then every packet of
it. -/
def CancelsWhole (p : Path) (hit : TxPacket → Bool) : Prop :=
  ∀ pkt ∈ p.txDataQueue, hit pkt = true → ∀ sid, pkt.origin.sid? = some sid →
    (∃ header ∈ p.txDataQueue, header.origin = .streamHeader sid) ∧
    ∀ other ∈ p.txDataQueue, other.origin.sid? = some sid → hit other = true

theorem mem_headerSids {queue : List TxPacket} {sid : Nat} :
    sid ∈ headerSids queue ↔ ∃ pkt ∈ queue, pkt.origin = .streamHeader sid := by
  unfold headerSids
  rw [List.mem_filterMap]
  refine exists_congr fun pkt => and_congr_right fun _ => ?_
  cases pkt.origin <;> simp [Origin.headerSid?]

def cutStreams (hit : TxPacket → Bool) (queue : List TxPacket) (sid : Nat) : Bool :=
  queue.any fun pkt => pkt.origin.sid? == some sid && hit pkt

theorem CancelsWhole.uniform {hit : TxPacket → Bool} (whole : CancelsWhole p hit) :
    ∀ pkt ∈ p.txDataQueue, ∀ sid, pkt.origin.sid? = some sid →
      hit pkt = cutStreams hit p.txDataQueue sid := by
  intro pkt member sid ofStream
  cases cut : cutStreams hit p.txDataQueue sid with
  | true =>
      obtain ⟨other, otherMember, cutHere⟩ := List.any_eq_true.mp cut
      simp only [Bool.and_eq_true, beq_iff_eq] at cutHere
      exact (whole other otherMember cutHere.2 sid cutHere.1).2 pkt member ofStream
  | false =>
      have kept := List.any_eq_false.mp cut pkt member
      simpa [ofStream] using kept

theorem CancelsWhole.keeps_open {hit : TxPacket → Bool} (whole : CancelsWhole p hit) {sid : Nat}
    (absent : sid ∉ headerSids p.txDataQueue) : cutStreams hit p.txDataQueue sid = false := by
  cases cut : cutStreams hit p.txDataQueue sid with
  | false => rfl
  | true =>
      obtain ⟨pkt, member, cutHere⟩ := List.any_eq_true.mp cut
      simp only [Bool.and_eq_true, beq_iff_eq] at cutHere
      obtain ⟨queued, _⟩ := whole pkt member cutHere.2 sid cutHere.1
      exact absurd (mem_headerSids.mpr queued) absent

/-- An open stream still has a packet on the queue, so a cancel of its owner
would cut it. -/
theorem InStepAt.open_queued {o : OpenStream} (inStep : InStepAt rx (some o) p wire received q) :
    ∃ pkt ∈ p.txDataQueue, pkt.origin.sid? = some o.sid ∧ pkt.ownerCtx = o.owner := by
  have trace := inStep.queueTrace
  cases queue : p.txDataQueue with
  | nil =>
      rw [queue] at trace
      cases trace_nil_iff.mp trace
  | cons pkt rest =>
      rw [queue] at trace
      obtain ⟨_, carries, _⟩ := trace_cons_iff.mp trace
      refine ⟨pkt, List.mem_cons_self, ?_⟩
      cases carries with
      | page origin owner _ _ => exact ⟨by rw [origin]; rfl, owner⟩
      | lastPage origin owner _ _ => exact ⟨by rw [origin]; rfl, owner⟩

theorem cancelDataMatch_null (p : Path) {done doneCtx ownerCtx : Option Nat}
    (null : ((done.isNone || doneCtx.isNone) && ownerCtx.isNone) = true) :
    cancelDataMatch p done doneCtx ownerCtx = p := by
  unfold cancelDataMatch
  rw [if_pos null]

/-- What a cancel leaves of the fields framing depends on. -/
theorem cancelDataMatch_fields (p : Path) {done doneCtx ownerCtx : Option Nat}
    (keyed : ((done.isNone || doneCtx.isNone) && ownerCtx.isNone) = false) :
    let p' := cancelDataMatch p done doneCtx ownerCtx
    let hit := fun pkt => packetMatches pkt done doneCtx ownerCtx
    p'.txDataQueue = p.txDataQueue.filter (fun pkt => !hit pkt) ∧
    p'.txControlQueue = p.txControlQueue ∧ p'.nextStream = p.nextStream ∧ SameRx p p' ∧
    p'.ring = p.ring.map (fun pkt =>
      if !pkt.control && hit pkt then { pkt with canceled := true } else pkt) ∧
    ((p'.txRawStreamActive = p.txRawStreamActive ∧ p'.txRawStreamOwner = p.txRawStreamOwner ∧
        p'.txRawStreamEndSeen = p.txRawStreamEndSeen) ∨
      (ownerCtx.isSome = true ∧ p.txRawStreamOwner = ownerCtx)) := by
  unfold cancelDataMatch
  rw [if_neg (by simp [keyed])]
  simp only [releasePacketList_eq]
  split
  · rename_i canceled
    simp only [Bool.and_eq_true, beq_iff_eq] at canceled
    exact ⟨rfl, rfl, rfl, ⟨rfl, rfl, rfl, rfl⟩, rfl, .inr ⟨canceled.1.1, canceled.2⟩⟩
  · exact ⟨rfl, rfl, rfl, ⟨rfl, rfl, rfl, rfl⟩, rfl, .inl ⟨rfl, rfl, rfl⟩⟩

theorem InStepAt.cancel (inStep : InStepAt rx sent p wire received q)
    {done doneCtx ownerCtx : Option Nat}
    (whole : CancelsWhole p fun pkt => packetMatches pkt done doneCtx ownerCtx) :
    InStepAt rx sent (cancelDataMatch p done doneCtx ownerCtx) wire received q := by
  cases keyed : (done.isNone || doneCtx.isNone) && ownerCtx.isNone with
  | true =>
      rw [cancelDataMatch_null p keyed]
      exact inStep
  | false =>
      obtain ⟨data, control, next, _, ring, raw⟩ := cancelDataMatch_fields p keyed
      have kept : ∀ o, sent = some o →
          cutStreams (fun pkt => packetMatches pkt done doneCtx ownerCtx) p.txDataQueue o.sid =
            false :=
        fun o opened => whole.keeps_open (inStep.fresh o opened).2
      have sublist : (headerSids (cancelDataMatch p done doneCtx ownerCtx).txDataQueue).Sublist
          (headerSids p.txDataQueue) := by
        rw [data]
        exact List.filter_sublist.filterMap _
      refine
        { wireEmitted := inStep.wireEmitted
          dataEmitted := ?_
          controlEmitted := by
            rw [control]
            exact inStep.controlEmitted
          receiver := inStep.receiver
          wireTrace := inStep.wireTrace
          queueTrace := ?_
          gate := ?_
          lastHeader := inStep.lastHeader
          sids := inStep.sids.sublist sublist
          sids_lt := by
            rw [next]
            exact fun sid member => inStep.sids_lt sid (sublist.subset member)
          fresh := by
            rw [next]
            exact fun o opened => ⟨(inStep.fresh o opened).1,
              fun member => (inStep.fresh o opened).2 (sublist.subset member)⟩ }
      · rw [data]
        exact fun pkt member => inStep.dataEmitted pkt (List.mem_of_mem_filter member)
      · have trace := Carries.trace_filter whole.uniform inStep.queueTrace
        rw [data]
        cases sent with
        | none => exact trace
        | some o => simpa [Option.filter, kept o rfl] using trace
      · cases sent with
        | none => trivial
        | some o =>
            obtain ⟨active, owner, endSeen, ringOk⟩ := inStep.gate
            have ringOk' : ∀ pkt ∈ (cancelDataMatch p done doneCtx ownerCtx).ring,
                pkt.rawStreamCounted = true → pkt.ownerCtx = o.owner →
                  pkt.rawStreamEnd = false := by
              rw [ring]
              intro pkt member
              obtain ⟨old, oldMember, rfl⟩ := List.mem_map.mp member
              split
              · exact ringOk old oldMember
              · exact ringOk old oldMember
            rcases raw with ⟨sameActive, sameOwner, sameEnd⟩ | ⟨keyedOwner, streamOwner⟩
            · exact ⟨by rw [sameActive, active], by rw [sameOwner, owner],
                by rw [sameEnd, endSeen], ringOk'⟩
            · -- the cancelled owner is the open stream's: its queued page is hit
              obtain ⟨pkt, member, ofStream, pktOwner⟩ := inStep.open_queued
              have hitHere : packetMatches pkt done doneCtx ownerCtx = true := by
                simp [packetMatches, keyedOwner, pktOwner, ← owner, streamOwner]
              obtain ⟨queued, _⟩ := whole pkt member hitHere o.sid ofStream
              exact absurd (mem_headerSids.mpr queued) (inStep.fresh o rfl).2

/-! ## Deliveries -/

theorem lastRawHeader_snoc (posted : List TxPacket) (pkt : TxPacket) :
    lastRawHeader (posted ++ [pkt]) =
      (pkt.origin.headerSid?.map some).getD (lastRawHeader posted) := by
  unfold lastRawHeader
  rw [headerSids_append, headerSids_cons]
  cases pkt.origin.headerSid? with
  | none => simp [headerSids]
  | some sid => simp [headerSids]

/-- The credit halves of the RX callback leave the raw stream state alone. -/
theorem rxComplete_sameRx (q : Path) (frame : WireFrame) :
    SameRx (rxClassify q frame).1 (rxComplete q frame) := by
  rw [rxComplete_eq]
  generalize (rxClassify q frame).1 = r
  generalize (rxClassify q frame).2.1 = returned
  have returns : SameRx r (returnRxDataCredit r returned) := by
    by_cases none : returned = 0
    · rw [none, returnRxDataCredit_zero]
      exact .refl r
    · cases admits : txAdmits r with
      | true =>
          rw [returnRxDataCredit_of_admits admits none]
          split <;> exact ⟨rfl, rfl, rfl, rfl⟩
      | false =>
          rw [returnRxDataCredit_of_closed admits]
          exact ⟨rfl, rfl, rfl, rfl⟩
  unfold addRemoteRxCredits
  split
  · exact returns
  · exact ⟨returns.pending, returns.done, returns.remaining, returns.hdr⟩

theorem hdrSize_le_frameSize : hdrSize ≤ frameSize := by decide

/-- A frame that is neither a raw-stream header nor inside a stream leaves the
receive state alone. -/
theorem rxClassify_plain {pkt : TxPacket} (emitted : Emitted pkt)
    (plain : pkt.origin.sid? = none) (idle : q.rxRawPending = false) :
    (rxClassify q pkt.frame).1 = q := by
  have notRaw : ∃ hdr, pkt.frame.parsed = some hdr ∧ hasFlag hdr.flags fRawStream = false := by
    unfold Emitted at emitted
    cases origin : pkt.origin with
    | control =>
        rw [origin] at emitted
        obtain ⟨_, _, _, hdr, frame, sort⟩ := emitted
        refine ⟨hdr, by rw [frame], ?_⟩
        rcases sort with emission | ⟨credits, _, rfl⟩
        · simp only [controlEmission, Bool.and_eq_true, Bool.not_eq_true'] at emission
          exact emission.1
        · show hasFlag 0 fRawStream = false
          decide
    | framed =>
        rw [origin] at emitted
        obtain ⟨_, _, _, hdr, frame, emission⟩ := emitted
        simp only [dataEmission, Bool.and_eq_true, Bool.not_eq_true'] at emission
        exact ⟨hdr, by rw [frame], emission.1.1⟩
    | streamHeader sid => simp [origin, Origin.sid?] at plain
    | streamPayload sid offset => simp [origin, Origin.sid?] at plain
  obtain ⟨hdr, parsed, flag⟩ := notRaw
  unfold rxClassify
  rw [parsed]
  simp only [idle, flag, Bool.false_eq_true, if_false]
  repeat' split
  all_goals rfl

theorem rxClassify_header {pkt : TxPacket} {sid : Nat} (emitted : Emitted pkt)
    (origin : pkt.origin = .streamHeader sid) (idle : q.rxRawPending = false) :
    ∃ hdr, pkt.frame.parsed = some hdr ∧ RawHeader hdr ∧
      rxClassify q pkt.frame = (rxStartRaw q hdr, 1, 0, .nothing) := by
  simp only [Emitted, origin] at emitted
  obtain ⟨_, _, _, hdr, frame, raw⟩ := emitted
  refine ⟨hdr, by rw [frame], raw, ?_⟩
  have notCredit : hdr.opcode ≠ .pathCredit := by
    rcases raw.isWrite with write | write <;> simp [write]
  have positive : hdr.length ≠ 0 := by
    have := raw.length_pos
    omega
  have small := hdrSize_le_frameSize
  rw [frame]
  unfold rxClassify
  simp [idle, notCredit, raw.raw, raw.known, positive, Nat.not_lt.mpr small]

/-- A page inside the stream the receiver has open advances it by its length. -/
theorem rxRawPayload_inside {len remaining : Nat} (pending : q.rxRawPending = true)
    (left : q.rxRawRemaining = remaining) (raw : hasFlag q.rxRawHdr.flags fRawStream = true)
    (positive : 0 < len) (inside : len ≤ remaining) :
    ∃ hdr, hdr.fragOffset = q.rxRawDone ∧ hdr.length = len ∧
      rxRawPayload q len =
        ({ q with
            rxRawPending := if len = remaining then false else q.rxRawPending
            rxRawDone := q.rxRawDone + len
            rxRawRemaining := remaining - len }, .rawPayload hdr) := by
  have bound : ¬ remaining < len := by omega
  have nonzero : len ≠ 0 := by omega
  subst left
  simp [rxRawPayload, rawPayloadHeader, pending, raw, bound, nonzero]

theorem InStepAt.deliver {pkt : TxPacket} (inStep : InStepAt rx sent p (pkt :: wire) received q) :
    InStep p wire (received ++ [pkt]) (rxComplete q pkt.frame) := by
  have emitted := inStep.wireEmitted pkt List.mem_cons_self
  obtain ⟨rx', carries, tail⟩ := trace_cons_iff.mp inStep.wireTrace
  have receiver := inStep.receiver
  have sameRx := rxComplete_sameRx q pkt.frame
  have done (matched : RxMatches (rxClassify q pkt.frame).1 rx')
      (lastHeader : ∀ o, rx' = some o → lastRawHeader (received ++ [pkt]) = some o.sid) :
      InStep p wire (received ++ [pkt]) (rxComplete q pkt.frame) :=
    ⟨rx', sent,
      { inStep with
        wireEmitted := fun other member => inStep.wireEmitted other (List.mem_cons_of_mem _ member)
        receiver := matched.same sameRx
        wireTrace := tail
        lastHeader := lastHeader }⟩
  cases carries with
  | plain origin =>
      refine done ?_ nofun
      rw [rxClassify_plain emitted origin receiver]
      exact receiver
  | @header _ sid hdr origin notEnd parsed =>
      obtain ⟨hdr', parsed', raw, classified⟩ := rxClassify_header emitted origin receiver
      have same : hdr' = hdr := by
        rw [parsed] at parsed'
        exact (Option.some.inj parsed').symm
      subst same
      refine done ?_ ?_
      · rw [classified]
        have positive := raw.length_pos
        exact ⟨by simpa [rxStartRaw] using Nat.pos_iff_ne_zero.mp positive, rfl, rfl, raw.raw⟩
      · intro o opened
        cases opened
        rw [lastRawHeader_snoc, origin]
        rfl
  | @page _ o origin owner notEnd inside =>
      obtain ⟨pending, atOffset, left, raw⟩ := receiver
      simp only [Emitted, origin] at emitted
      obtain ⟨_, _, _, positive, fits⟩ := emitted
      obtain ⟨hdr, _, _, payload⟩ :=
        rxRawPayload_inside pending left raw positive (Nat.le_of_lt inside)
      refine done ?_ ?_
      · rw [rxClassify_raw fits pending, payload]
        exact ⟨by simp [Nat.ne_of_lt inside, pending], by simp [atOffset], rfl, raw⟩
      · intro o' opened
        cases opened
        rw [lastRawHeader_snoc, origin]
        exact inStep.lastHeader o rfl
  | @lastPage _ o origin owner isEnd rest =>
      obtain ⟨pending, atOffset, left, raw⟩ := receiver
      simp only [Emitted, origin] at emitted
      obtain ⟨_, _, _, positive, fits⟩ := emitted
      obtain ⟨hdr, _, _, payload⟩ :=
        rxRawPayload_inside pending left raw positive (Nat.le_of_eq rest)
      refine done ?_ nofun
      rw [rxClassify_raw fits pending, payload]
      simp [RxMatches, rest]

end Steps

/-! ## Runs of a link -/

section Local
variable (p : Path)

theorem enqueueControl_sameRx (pkt : TxPacket) :
    SameRx p (orKeep p (enqueueControl p pkt)) := by
  unfold enqueueControl
  split <;> exact ⟨rfl, rfl, rfl, rfl⟩

theorem enqueueData_sameRx (pkt : TxPacket) : SameRx p (orKeep p (enqueueData p pkt)) := by
  unfold enqueueData
  dsimp only
  repeat' split
  all_goals exact ⟨rfl, rfl, rfl, rfl⟩

theorem enqueueReservedDataList_sameRx (pkts : List TxPacket) :
    SameRx p (orKeep p (enqueueReservedDataList p pkts)) := by
  unfold enqueueReservedDataList
  dsimp only
  repeat' split
  all_goals exact ⟨rfl, rfl, rfl, rfl⟩

theorem reserveData_sameTx (frames : Nat) :
    SameTx p (orKeep p (reserveData p frames)) ∧ SameRx p (orKeep p (reserveData p frames)) ∧
      (orKeep p (reserveData p frames)).txControlQueue = p.txControlQueue := by
  unfold reserveData
  repeat' split
  all_goals exact ⟨⟨rfl, rfl, rfl, rfl, rfl, rfl⟩, ⟨rfl, rfl, rfl, rfl⟩, rfl⟩

theorem sendPageStream_sameRx (s : PageStream) : SameRx p (sendPageStream p s) := by
  rcases sendPageStream_cases p s with ⟨status, refused⟩ | queued
  · rw [refused, releasePacketList_eq]
    exact ⟨rfl, rfl, rfl, rfl⟩
  · rw [queued]
    exact ⟨rfl, rfl, rfl, rfl⟩

theorem cancelDataMatch_sameRx (done doneCtx ownerCtx : Option Nat) :
    SameRx p (cancelDataMatch p done doneCtx ownerCtx) := by
  cases keyed : (done.isNone || doneCtx.isNone) && ownerCtx.isNone with
  | true =>
      rw [cancelDataMatch_null p keyed]
      exact .refl p
  | false => exact (cancelDataMatch_fields p keyed).2.2.2.1

theorem scheduleTx_sameRx : SameRx p (scheduleTx p .ok).1 := by
  rcases scheduleTx_ok_cases p with idle | ⟨fromControlQueue, pkt, _, _, took⟩
  · rw [idle]
    exact .refl p
  · rw [took, scheduleTake_eq]
    exact ⟨rfl, rfl, rfl, rfl⟩

/-- Reception at the sender's own end only adds path credits to its control
queue. -/
theorem rxComplete_control (frame : WireFrame) :
    (rxComplete p frame).txControlQueue = p.txControlQueue ∨
    ∃ credits, 0 < credits ∧
      (rxComplete p frame).txControlQueue = p.txControlQueue ++ [pathCreditPacket credits] := by
  have classified : (rxClassify p frame).1.txControlQueue = p.txControlQueue := by
    rw [rxClassify_frame p frame]
  rw [rxComplete_eq]
  have added (r : Path) (credits : Nat) :
      (addRemoteRxCredits r credits).txControlQueue = r.txControlQueue := by
    unfold addRemoteRxCredits
    split <;> rfl
  rw [added, ← classified]
  generalize (rxClassify p frame).1 = r
  generalize (rxClassify p frame).2.1 = returned
  by_cases none : returned = 0
  · rw [none, returnRxDataCredit_zero]
    exact .inl rfl
  · cases admits : txAdmits r with
    | false =>
        rw [returnRxDataCredit_of_closed admits]
        exact .inl rfl
    | true =>
        rw [returnRxDataCredit_of_admits admits none]
        split
        · refine .inr ⟨_, ?_, rfl⟩
          have : 0 < u32Max := by decide
          omega
        · exact .inl rfl

theorem rxComplete_sameTx (frame : WireFrame) : SameTx p (rxComplete p frame) := by
  rw [rxComplete_frame p frame]
  exact ⟨rfl, rfl, rfl, rfl, rfl, rfl⟩

end Local

def Link.InStep (l : Link) : Prop :=
  ∀ side, NativePath.InStep (l.path side) (l.wire side) (l.received side) (l.path !side)

theorem Link.InStep.setPath {l : Link} (inStep : l.InStep) (side : Bool) {p' : Path}
    (sender : ∀ {rx sent : Option OpenStream} {wire received : List TxPacket} {q : Path},
      InStepAt rx sent (l.path side) wire received q →
        InStepAt rx sent p' wire received q)
    (receiver : SameRx (l.path side) p') : (l.setPath side p').InStep := by
  intro dir
  obtain ⟨rx, sent, here⟩ := inStep dir
  by_cases same : dir = side
  · subst same
    have other : (!dir) ≠ dir := by simp
    refine ⟨rx, sent, ?_⟩
    simpa [Link.setPath, Function.update_of_ne other] using sender here
  · have other : (!dir) = side := by
      cases dir <;> cases side <;> simp_all
    refine ⟨rx, sent, ?_⟩
    simp only [Link.setPath, Function.update_of_ne same, other, Function.update_self]
    rw [other] at here
    exact here.of_rx receiver

/-- The steps that keep the two ends in step: a cancel takes a queued stream
whole, and a raw-stream header is not posted while a counted end packet of its
owner is still with the ring. -/
def FramingOk (l : Link) : Event → Prop
  | .schedule side => NoStaleEnd (l.path side)
  | .cancelDone side done doneCtx =>
      CancelsWhole (l.path side) fun pkt => packetMatches pkt done doneCtx none
  | .cancelOwner side ownerCtx =>
      CancelsWhole (l.path side) fun pkt => packetMatches pkt none none ownerCtx
  | _ => True

theorem Link.InStep.schedule {l : Link} (inStep : l.InStep) (side : Bool)
    (noStale : NoStaleEnd (l.path side)) : (l.schedule side).InStep := by
  have sameRx := scheduleTx_sameRx (l.path side)
  unfold Link.schedule
  rcases ran : scheduleTx (l.path side) .ok with ⟨p', posted⟩
  rw [ran] at sameRx
  cases posted with
  | none =>
      rcases scheduleTx_ok_cases (l.path side) with idle | ⟨_, _, _, _, took⟩
      · rw [idle] at ran
        cases ran
        exact inStep.setPath side id (.refl _)
      · rw [took] at ran
        cases ran
  | some pkt =>
      intro dir
      by_cases same : dir = side
      · subst same
        obtain ⟨rx, sent, here⟩ := inStep dir
        have other : (!dir) ≠ dir := by simp
        simpa [Link.setPath, Function.update_of_ne other] using here.schedule noStale ran
      · have other : (!dir) = side := by
          cases dir <;> cases side <;> simp_all
        obtain ⟨rx, sent, here⟩ := inStep dir
        refine ⟨rx, sent, ?_⟩
        simp only [Link.setPath, Function.update_of_ne same, other, Function.update_self]
        rw [other] at here
        exact here.of_rx sameRx

theorem Link.InStep.deliver {l : Link} (inStep : l.InStep) (side : Bool) :
    (l.deliver side).InStep := by
  unfold Link.deliver
  cases wire : l.wire side with
  | nil => exact inStep
  | cons pkt rest =>
      intro dir
      by_cases same : dir = side
      · subst same
        obtain ⟨rx, sent, here⟩ := inStep dir
        have other : dir ≠ !dir := by simp
        rw [wire] at here
        simpa [Function.update_of_ne other] using here.deliver
      · have other : dir = !side := by
          cases dir <;> cases side <;> simp_all
        subst other
        obtain ⟨rx, sent, here⟩ := inStep (!side)
        have apart : side ≠ !side := by simp
        rw [Bool.not_not] at here
        refine ⟨rx, sent, ?_⟩
        simp only [Function.update_of_ne same, Function.update_self, Bool.not_not,
          Function.update_of_ne apart]
        have sameTx := rxComplete_sameTx (l.path !side) pkt.frame
        rcases rxComplete_control (l.path !side) pkt.frame with kept | ⟨credits, positive, queue⟩
        · refine here.of_tx sameTx ?_
          rw [kept]
          exact here.controlEmitted
        · exact here.append_control sameTx queue (pathCreditPacket_emitted positive) rfl

theorem Link.InStep.apply {l : Link} (inStep : l.InStep) (e : Event) (ok : FramingOk l e) :
    (l.apply e).InStep := by
  cases e with
  | control side frame =>
      exact inStep.setPath side (fun here => here.enqueueControl frame)
        (enqueueControl_sameRx _ _)
  | framed side frame =>
      exact inStep.setPath side (fun here => here.enqueueData frame) (enqueueData_sameRx _ _)
  | reserve side frames =>
      obtain ⟨sameTx, sameRx, control⟩ := reserveData_sameTx (l.path side) frames
      refine inStep.setPath side (fun here => here.of_tx sameTx ?_) sameRx
      rw [control]
      exact here.controlEmitted
  | release side frames =>
      exact inStep.setPath side
        (fun here => here.of_tx ⟨rfl, rfl, rfl, rfl, rfl, rfl⟩ here.controlEmitted)
        ⟨rfl, rfl, rfl, rfl⟩
  | framedList side frames =>
      exact inStep.setPath side (fun here => here.enqueueReservedDataList frames)
        (enqueueReservedDataList_sameRx _ _)
  | stream side pages =>
      exact inStep.setPath side (fun here => here.sendPageStream pages)
        (sendPageStream_sameRx _ _)
  | schedule side => exact inStep.schedule side ok
  | complete side canceled =>
      exact inStep.setPath side (fun here => here.complete canceled)
        (txComplete_sameData _ _).2.2.2
  | deliver side => exact inStep.deliver side
  | cancelDone side done doneCtx =>
      exact inStep.setPath side (fun here => here.cancel ok) (cancelDataMatch_sameRx _ _ _ _)
  | cancelOwner side ownerCtx =>
      exact inStep.setPath side (fun here => here.cancel ok) (cancelDataMatch_sameRx _ _ _ _)

theorem Link.init_inStep (cfg : Bool → PathConfig) : (Link.init cfg).InStep := by
  intro side
  have data : ((Link.init cfg).path side).txDataQueue = [] := rfl
  have control : ((Link.init cfg).path side).txControlQueue = [] := rfl
  exact ⟨none, none,
    { wireEmitted := fun _ member => absurd member List.not_mem_nil
      dataEmitted := by simp [data]
      controlEmitted := by simp [control]
      receiver := rfl
      wireTrace := .nil none
      queueTrace := .nil none
      gate := trivial
      lastHeader := nofun
      sids := by simp [data, headerSids]
      sids_lt := by simp [data, headerSids]
      fresh := nofun }⟩

theorem Link.inStep_of_reached {ok : Link → Event → Prop} {cfg : Bool → PathConfig} {l : Link}
    (framing : ∀ l e, ok l e → FramingOk l e) (reached : Link.Reached ok cfg l) : l.InStep := by
  refine reached.invariant (Link.init_inStep cfg) ?_
  intro l next e inStep meets taken
  cases Option.some.inj taken
  exact inStep.apply e (framing l e meets)

/-- The RX callback of the peer and the frame it sees next agree: it counts the
frame as raw payload exactly when it was posted as a zero-copy page, and then of
the stream whose header was the last one posted, at the page's own offset. -/
structure HeadInStep (l : Link) (side : Bool) (pkt : TxPacket) : Prop where
  raw_iff : (l.path !side).rxRawPending = true ↔ pkt.zcopy = true
  place : pkt.zcopy = true → ∃ sid offset hdr,
    pkt.origin = .streamPayload sid offset ∧ lastRawHeader (l.received side) = some sid ∧
    (rxClassify (l.path !side) pkt.frame).2.2.2 = .rawPayload hdr ∧
    hdr.fragOffset = offset ∧ hdr.length = pkt.frame.len

def Link.FramingAgrees (l : Link) : Prop :=
  ∀ side pkt rest, l.wire side = pkt :: rest → HeadInStep l side pkt

theorem Link.InStep.agrees {l : Link} (inStep : l.InStep) : l.FramingAgrees := by
  intro side pkt rest wire
  obtain ⟨rx, sent, here⟩ := inStep side
  have emitted := here.wireEmitted pkt (by rw [wire]; exact List.mem_cons_self)
  have trace := here.wireTrace
  rw [wire] at trace
  obtain ⟨rx', carries, _⟩ := trace_cons_iff.mp trace
  have receiver := here.receiver
  have inside {o : OpenStream} (opened : rx = some o)
      (origin : pkt.origin = .streamPayload o.sid o.offset)
      (fitsIn : pkt.frame.len ≤ o.remaining) : HeadInStep l side pkt := by
    subst opened
    obtain ⟨pending, atOffset, left, raw⟩ := receiver
    simp only [Emitted, origin] at emitted
    obtain ⟨_, zcopy, _, positive, fits⟩ := emitted
    obtain ⟨hdr, hdrOffset, hdrLen, payload⟩ :=
      rxRawPayload_inside pending left raw positive fitsIn
    refine ⟨by simp [pending, zcopy], fun _ => ⟨o.sid, o.offset, hdr, origin, ?_, ?_, ?_, hdrLen⟩⟩
    · exact here.lastHeader o rfl
    · rw [rxClassify_raw fits pending, payload]
    · rw [hdrOffset, atOffset]
  cases carries with
  | plain origin =>
      have copied : pkt.zcopy = false := by
        cases kind : pkt.origin <;> simp_all [Emitted, Origin.sid?]
      exact ⟨by simp [show (l.path !side).rxRawPending = false from receiver, copied],
        fun zcopy => by simp [copied] at zcopy⟩
  | header origin notEnd parsed =>
      simp only [Emitted, origin] at emitted
      exact ⟨by simp [show (l.path !side).rxRawPending = false from receiver, emitted.2.1],
        fun zcopy => by simp [emitted.2.1] at zcopy⟩
  | page origin owner notEnd fitsIn => exact inside rfl origin (Nat.le_of_lt fitsIn)
  | lastPage origin owner isEnd fitsIn => exact inside rfl origin (Nat.le_of_eq fitsIn)

/-- In every run whose cancels take streams whole and whose headers follow no
stale end, header and payload framing stays in step in every state reached. -/
theorem framing_stays_in_step {cfg : Bool → PathConfig} {l : Link}
    (reached : Link.Reached FramingOk cfg l) : l.FramingAgrees :=
  (Link.inStep_of_reached (fun _ _ ok => ok) reached).agrees

def twoPageWrite : PageStream where
  hdr := { opcode := .rdmaWrite }
  owner := 1
  pageCtx := 2
  metaDone := 3
  pageDone := 4
  pages := [⟨4096, none⟩, ⟨4096, none⟩]
  isWrite := .inl rfl
  knownFlags := by decide
  nonempty := by simp
  pageLen := by decide
  fits := by decide

def ackFrame : ControlFrame where
  hdr := { opcode := .sendAck }
  emitted := by decide

theorem noStaleEnd_of_ring {p : Path} (ring : ∀ old ∈ p.ring, old.rawStreamEnd = false) :
    NoStaleEnd p :=
  fun _ _ _ old member _ _ => ring old member

/-- The header and the first page of a stream are posted and the header is
received: the page is next, and the peer expects it. -/
theorem framing_stays_in_step_two_pages :
    let l := [Event.stream true twoPageWrite, .schedule true, .schedule true,
      .deliver true].foldl Link.apply (Link.init fun _ => nativeConfig)
    l.FramingAgrees ∧ ∃ pkt, l.wire true = [pkt] ∧ pkt.zcopy = true := by
  intro l
  have meets : Trans.Meets Link.step FramingOk
      [.stream true twoPageWrite, .schedule true, .schedule true, .deliver true]
      (Link.init fun _ => nativeConfig) := by
    refine ⟨trivial, ?_⟩
    rintro _ ⟨⟩
    refine ⟨noStaleEnd_of_ring (by decide +kernel), ?_⟩
    rintro _ ⟨⟩
    refine ⟨noStaleEnd_of_ring (by decide +kernel), ?_⟩
    rintro _ ⟨⟩
    exact ⟨trivial, fun _ _ => trivial⟩
  have reached : Link.Reached FramingOk (fun _ => nativeConfig) l :=
    Trans.reaches_of_run meets (Link.run_step _ _)
  exact ⟨framing_stays_in_step reached, _, rfl, rfl⟩

/-- A stream is cancelled by its owner after its header and first page were
posted; the acknowledgement posted next reaches a peer that still waits for
payload. -/
theorem framing_broken_by_cancel :
    ¬ ∀ (cfg : Bool → PathConfig) (l : Link),
      Link.Reached (fun _ _ => True) cfg l → l.FramingAgrees := by
  intro always
  have agrees := always (fun _ => nativeConfig) _
    (Link.reached_foldl (fun _ => nativeConfig)
      [.stream true twoPageWrite, .schedule true, .schedule true, .cancelOwner true (some 1),
        .control true ackFrame, .schedule true, .deliver true, .deliver true])
  have head := agrees true _ [] rfl
  have copied := head.raw_iff.mp rfl
  cases copied

end Tbv.NativePath
