import ThunderboltIbverbs.Path.Credit

/-! # Exact raw stream accounting without cancels

While nothing is cancelled the raw stream fields of a path are exact: the
counted packets with the ring are those of the active stream, oldest first, and
the end packet is the last of them.  So a stream ends by its own end packet, and
an active stream with an empty ring still has a page on the queue. -/
set_option autoImplicit false
namespace Tbv.NativePath

open Tbv.NativeData Trans

def counted (p : Path) : List TxPacket := p.ring.filter fun pkt => pkt.rawStreamCounted

/-- The next data packet is a page. -/
def midStream (p : Path) : Bool := p.txDataQueue.head?.any fun pkt => pkt.zcopy

structure RawExact (p : Path) : Prop where
  uncounted : ∀ pkt, pkt ∈ p.txDataQueue ∨ pkt ∈ p.txControlQueue → pkt.rawStreamCounted = false
  idle : p.txRawStreamActive = false → counted p = []
  notSeen : p.txRawStreamActive = true → p.txRawStreamEndSeen = false
  inflight : p.txRawStreamActive = true → p.txRawStreamInflight = (counted p).length
  owned : p.txRawStreamActive = true →
    ∀ pkt ∈ counted p, p.txRawStreamOwner = pkt.ownerCtx
  inside : p.txRawStreamActive = true → midStream p = true →
    ∀ pkt ∈ counted p, pkt.rawStreamEnd = false
  ending : p.txRawStreamActive = true → midStream p = false →
    ∃ before last, counted p = before ++ [last] ∧ last.rawStreamEnd = true ∧
      ∀ pkt ∈ before, pkt.rawStreamEnd = false

section Exact
variable {rx sent : Option OpenStream} {p p' q : Path} {wire received : List TxPacket}

/-- The head of a queue is a page exactly when its stream is already open. -/
theorem head_zcopy_of_trace {queue : List TxPacket} (trace : Trace Carries sent queue none)
    (emitted : ∀ pkt ∈ queue, Emitted pkt) :
    queue.head?.any (fun pkt => pkt.zcopy) = sent.isSome := by
  cases queue with
  | nil =>
      rw [trace_nil_iff.mp trace]
      rfl
  | cons pkt rest =>
      have emitted := emitted pkt List.mem_cons_self
      obtain ⟨_, carries, _⟩ := trace_cons_iff.mp trace
      cases carries with
      | plain origin => cases kind : pkt.origin <;> simp_all [Emitted, Origin.sid?]
      | header origin _ _ =>
          simp only [Emitted, origin] at emitted
          simp [emitted.2.1]
      | page origin _ _ _ =>
          simp only [Emitted, origin] at emitted
          simp [emitted.2.1]
      | lastPage origin _ _ _ =>
          simp only [Emitted, origin] at emitted
          simp [emitted.2.1]

/-- Without a counted packet of another stream in the ring, a header may be
posted at any time. -/
theorem RawExact.noStaleEnd (exact_ : RawExact p) : NoStaleEnd p := by
  intro pkt chosen start old member oldCounted _
  obtain ⟨_, ⟨_, _, _, _, notStart, _⟩ | ⟨_, absurd_, _⟩ | ⟨inactive, _, _, _⟩⟩ :=
    scheduleChoice_cases chosen
  · rw [start] at notStart
    cases notStart
  · cases absurd_
  · have empty := exact_.idle inactive
    have : old ∈ counted p := List.mem_filter.mpr ⟨member, oldCounted⟩
    rw [empty] at this
    cases this

theorem RawExact.same (exact_ : RawExact p) (ring : p'.ring = p.ring)
    (active : p'.txRawStreamActive = p.txRawStreamActive)
    (owner : p'.txRawStreamOwner = p.txRawStreamOwner)
    (endSeen : p'.txRawStreamEndSeen = p.txRawStreamEndSeen)
    (inflight : p'.txRawStreamInflight = p.txRawStreamInflight)
    (mid : midStream p' = midStream p)
    (uncounted : ∀ pkt, pkt ∈ p'.txDataQueue ∨ pkt ∈ p'.txControlQueue →
      pkt.rawStreamCounted = false) : RawExact p' := by
  have same : counted p' = counted p := by rw [counted, ring, counted]
  exact
    { uncounted := uncounted
      idle := by
        rw [active, same]
        exact exact_.idle
      notSeen := by
        rw [active, endSeen]
        exact exact_.notSeen
      inflight := by
        rw [active, inflight, same]
        exact exact_.inflight
      owned := by
        rw [active, same, owner]
        exact exact_.owned
      inside := by
        rw [active, mid, same]
        exact exact_.inside
      ending := by
        rw [active, mid, same]
        exact exact_.ending }

/-- Packets that start with no page join the end of the data queue. -/
theorem RawExact.append_data (exact_ : RawExact p) {pkts : List TxPacket}
    (data : p'.txDataQueue = p.txDataQueue ++ pkts)
    (control : p'.txControlQueue = p.txControlQueue) (ring : p'.ring = p.ring)
    (active : p'.txRawStreamActive = p.txRawStreamActive)
    (owner : p'.txRawStreamOwner = p.txRawStreamOwner)
    (endSeen : p'.txRawStreamEndSeen = p.txRawStreamEndSeen)
    (inflight : p'.txRawStreamInflight = p.txRawStreamInflight)
    (whole : pkts.head?.any (fun pkt => pkt.zcopy) = false)
    (uncounted : ∀ pkt ∈ pkts, pkt.rawStreamCounted = false) : RawExact p' := by
  refine exact_.same ring active owner endSeen inflight ?_ ?_
  · unfold midStream
    rw [data]
    cases p.txDataQueue with
    | nil => simpa using whole
    | cons pkt rest => rfl
  · rw [data, control]
    intro pkt member
    rw [List.mem_append] at member
    rcases member with (old | new) | control
    · exact exact_.uncounted pkt (.inl old)
    · exact uncounted pkt new
    · exact exact_.uncounted pkt (.inr control)

theorem finishRawStreamIfNeeded_end {pkt : TxPacket} (isCounted : pkt.rawStreamCounted = true)
    (owner : p.txRawStreamOwner = pkt.ownerCtx) (isEnd : pkt.rawStreamEnd = true)
    (last : p.txRawStreamInflight = 1) :
    (finishRawStreamIfNeeded p pkt).txRawStreamActive = false := by
  simp [finishRawStreamIfNeeded, isCounted, owner, isEnd, last]

theorem RawExact.complete (exact_ : RawExact p) (canceled : Bool) :
    RawExact (txComplete p canceled) := by
  cases queue : p.ring with
  | nil =>
      rw [txComplete_nil queue]
      exact exact_
  | cons pkt rest =>
      obtain ⟨data, control, _⟩ := txComplete_sameData p canceled
      have mid : midStream (txComplete p canceled) = midStream p := by
        rw [midStream, data, midStream]
      have uncounted : ∀ other, other ∈ (txComplete p canceled).txDataQueue ∨
          other ∈ (txComplete p canceled).txControlQueue → other.rawStreamCounted = false := by
        rw [data, control]
        exact exact_.uncounted
      have ring : (txComplete p canceled).ring = rest := by
        rw [txComplete_cons queue, finishRawStreamIfNeeded_frame]
        rfl
      cases isCounted : pkt.rawStreamCounted with
      | false =>
          have same : counted (txComplete p canceled) = counted p := by
            simp [counted, ring, queue, isCounted]
          rw [txComplete_cons queue, finishRawStreamIfNeeded_uncounted isCounted] at *
          exact
            { uncounted := uncounted
              idle := by
                rw [same]
                exact exact_.idle
              notSeen := exact_.notSeen
              inflight := by
                rw [same]
                exact exact_.inflight
              owned := by
                rw [same]
                exact exact_.owned
              inside := by
                rw [mid, same]
                exact exact_.inside
              ending := by
                rw [mid, same]
                exact exact_.ending }
      | true =>
          have split_ : counted p = pkt :: counted (txComplete p canceled) := by
            simp [counted, ring, queue, isCounted]
          have active : p.txRawStreamActive = true := by
            by_contra inactive
            have empty := exact_.idle (by simpa using inactive)
            rw [split_] at empty
            cases empty
          have owner := exact_.owned active pkt (by rw [split_]; exact List.mem_cons_self)
          have inflight := exact_.inflight active
          rw [split_, List.length_cons] at inflight
          cases isEnd : pkt.rawStreamEnd with
          | true =>
              -- the end packet is the last counted one
              have notMid : midStream p = false := by
                by_contra inStream
                have := exact_.inside active (by simpa using inStream) pkt
                  (by rw [split_]; exact List.mem_cons_self)
                rw [isEnd] at this
                cases this
              obtain ⟨before, last, shape, _, notEnd⟩ := exact_.ending active notMid
              have alone : counted (txComplete p canceled) = [] := by
                rw [split_] at shape
                cases before with
                | nil =>
                    simp only [List.nil_append, List.cons.injEq] at shape
                    exact shape.2
                | cons first more =>
                    simp only [List.cons_append, List.cons.injEq] at shape
                    have := notEnd first List.mem_cons_self
                    rw [← shape.1, isEnd] at this
                    cases this
              have stopped : (txComplete p canceled).txRawStreamActive = false := by
                rw [txComplete_cons queue]
                refine finishRawStreamIfNeeded_end (p := retireDescriptor p pkt rest) isCounted
                  owner isEnd ?_
                rw [alone] at inflight
                exact inflight
              have ended {P : Prop} (running : (txComplete p canceled).txRawStreamActive = true) :
                  P := by
                rw [stopped] at running
                cases running
              exact ⟨uncounted, fun _ => alone, ended, ended, ended, ended, ended⟩
          | false =>
              have fields : (txComplete p canceled).txRawStreamActive = true ∧
                  (txComplete p canceled).txRawStreamOwner = p.txRawStreamOwner ∧
                  (txComplete p canceled).txRawStreamEndSeen = false ∧
                  (txComplete p canceled).txRawStreamInflight = p.txRawStreamInflight - 1 := by
                rw [txComplete_cons queue, finishRawStreamIfNeeded_open
                  (p := retireDescriptor p pkt rest) isCounted active owner isEnd
                  (exact_.notSeen active)]
                exact ⟨active, rfl, rfl, rfl⟩
              obtain ⟨stillActive, sameOwner, notSeen, fewer⟩ := fields
              exact
                { uncounted := uncounted
                  idle := by
                    intro inactive
                    rw [stillActive] at inactive
                    cases inactive
                  notSeen := fun _ => notSeen
                  inflight := by
                    intro _
                    omega
                  owned := by
                    intro _ other member
                    rw [sameOwner]
                    exact exact_.owned active other
                      (by rw [split_]; exact List.mem_cons_of_mem _ member)
                  inside := by
                    intro _ inStream other member
                    rw [mid] at inStream
                    exact exact_.inside active inStream other
                      (by rw [split_]; exact List.mem_cons_of_mem _ member)
                  ending := by
                    intro _ notMid
                    rw [mid] at notMid
                    obtain ⟨before, last, shape, lastEnd, notEnd⟩ := exact_.ending active notMid
                    rw [split_] at shape
                    cases before with
                    | nil =>
                        simp only [List.nil_append, List.cons.injEq] at shape
                        rw [shape.1, lastEnd] at isEnd
                        cases isEnd
                    | cons first more =>
                        simp only [List.cons_append, List.cons.injEq] at shape
                        exact ⟨more, last, shape.2, lastEnd,
                          fun other member => notEnd other (List.mem_cons_of_mem _ member)⟩ }

theorem RawExact.post_uncounted (exact_ : RawExact p) {fromControlQueue : Bool} {pkt : TxPacket}
    (inactive : p.txRawStreamActive = false) (notStart : pkt.rawStreamStart = false)
    (notCounted : pkt.rawStreamCounted = false) :
    RawExact { (scheduleTake p fromControlQueue pkt).1 with
      ring := (scheduleTake p fromControlQueue pkt).1.ring ++
        [(scheduleTake p fromControlQueue pkt).2] } := by
  rw [scheduleTake_eq]
  have ended {P : Prop} (running : (pkt.rawStreamStart || p.txRawStreamActive) = true) : P := by
    rw [notStart, inactive] at running
    cases running
  refine ⟨?_, ?_, ended, ended, ended, ended, ended⟩
  · intro other member
    refine exact_.uncounted other ?_
    cases fromControlQueue with
    | true => exact member.imp_right List.mem_of_mem_tail
    | false => exact member.imp_left List.mem_of_mem_tail
  · intro _
    have empty := exact_.idle inactive
    have skipped : takesCount p pkt = false := by simp [takesCount, notStart, inactive]
    simpa [counted, skipped, notCounted] using empty

theorem Emitted.not_start_of_plain {pkt : TxPacket} (emitted : Emitted pkt)
    (plain : pkt.origin.sid? = none) : pkt.rawStreamStart = false := by
  cases kind : pkt.origin <;> simp_all [Emitted, Origin.sid?]

theorem RawExact.schedule (exact_ : RawExact p) (inStep : InStepAt rx sent p wire received q)
    {posted : TxPacket} (ran : scheduleTx p .ok = (p', some posted)) : RawExact p' := by
  rcases scheduleTx_ok_cases p with idle | ⟨fromControlQueue, pkt, chosen, _, took⟩
  · rw [idle] at ran
    cases ran
  · rw [took] at ran
    obtain ⟨rfl, rfl⟩ : _ = p' ∧ _ = posted := by simpa using ran
    obtain ⟨_, ⟨active, rfl, ⟨rest, queue⟩, zcopy, notStart, owner⟩ |
      ⟨inactive, rfl, rest, queue⟩ | ⟨inactive, rfl, _, rest, queue⟩⟩ :=
        scheduleChoice_cases chosen
    · -- the page joins the counted packets; the last one is the end
      have trace := inStep.queueTrace
      rw [queue] at trace
      obtain ⟨sent', carries, tail⟩ := trace_cons_iff.mp trace
      have inside := head_zcopy_of_trace tail fun other member =>
        (inStep.dataEmitted other (by rw [queue]; exact List.mem_cons_of_mem _ member)).1
      have was : midStream p = true := by simp [midStream, queue, zcopy]
      obtain ⟨emitted, _⟩ := inStep.dataEmitted pkt (by rw [queue]; exact List.mem_cons_self)
      obtain ⟨sid, offset, origin⟩ := emitted.page_of_zcopy zcopy
      have counts : takesCount p pkt = true := by simp [takesCount, active, owner]
      rw [scheduleTake_eq]
      refine
        { uncounted := ?_
          idle := by simp [active]
          notSeen := fun _ => by simp [exact_.notSeen active]
          inflight := fun _ => by
            simp [counted, notStart, counts, exact_.inflight active]
          owned := ?_
          inside := ?_
          ending := ?_ }
      · intro other member
        refine exact_.uncounted other (member.imp_left ?_)
        simp only [queue]
        exact List.mem_cons_of_mem _
      · intro _ other member
        simp only [notStart, Bool.false_eq_true, if_false]
        simp only [counted, List.filter_append, List.mem_append] at member
        rcases member with old | new
        · exact exact_.owned active other old
        · simp only [counts, Bool.true_or, List.filter_cons_of_pos, List.filter_nil,
            List.mem_singleton] at new
          rw [new, owner]
      · intro _ midAfter other member
        simp only [counted, List.filter_append, List.mem_append] at member
        rcases member with old | new
        · exact exact_.inside active was other old
        · simp only [counts, Bool.true_or, List.filter_cons_of_pos, List.filter_nil,
            List.mem_singleton] at new
          rw [new]
          cases carries with
          | plain plain => simp [origin, Origin.sid?] at plain
          | header headerOrigin _ _ => simp [origin] at headerOrigin
          | page _ _ notEnd _ => exact notEnd
          | lastPage _ _ _ _ =>
              simp [midStream, queue, inside] at midAfter
      · intro _ notMid
        refine ⟨counted p, (scheduleTake p false pkt).2, ?_, ?_, exact_.inside active was⟩
        · simp [counted, counts, scheduleTake_eq]
        · rw [(scheduleTake_samePacket p false pkt).rawStreamEnd]
          cases carries with
          | plain plain => simp [origin, Origin.sid?] at plain
          | header headerOrigin _ _ => simp [origin] at headerOrigin
          | page _ _ _ _ =>
              simp [midStream, queue, inside] at notMid
          | lastPage _ _ isEnd _ => exact isEnd
    · obtain ⟨emitted, origin⟩ := inStep.controlEmitted pkt
        (by rw [queue]; exact List.mem_cons_self)
      exact exact_.post_uncounted inactive (emitted.not_start_of_plain (by rw [origin]; rfl))
        (exact_.uncounted pkt (.inr (by rw [queue]; exact List.mem_cons_self)))
    · have trace := inStep.queueTrace
      rw [queue] at trace
      obtain ⟨sent', carries, tail⟩ := trace_cons_iff.mp trace
      obtain ⟨emitted, _⟩ := inStep.dataEmitted pkt (by rw [queue]; exact List.mem_cons_self)
      have fresh := exact_.uncounted pkt (.inl (by rw [queue]; exact List.mem_cons_self))
      cases carries with
      | plain plain =>
          exact exact_.post_uncounted inactive (emitted.not_start_of_plain plain) fresh
      | page _ _ _ _ =>
          have gate := inStep.gate
          rw [gate.1] at inactive
          cases inactive
      | lastPage _ _ _ _ =>
          have gate := inStep.gate
          rw [gate.1] at inactive
          cases inactive
      | header origin notEnd parsed =>
          -- the first counted packet of a new stream
          have inside := head_zcopy_of_trace tail fun other member =>
            (inStep.dataEmitted other (by rw [queue]; exact List.mem_cons_of_mem _ member)).1
          have start : pkt.rawStreamStart = true := by
            simp only [Emitted, origin] at emitted
            exact emitted.2.2.1
          have counts : takesCount p pkt = true := by simp [takesCount, start]
          have empty := exact_.idle inactive
          have single : (p.ring ++ [(scheduleTake p false pkt).2]).filter
              (fun other => other.rawStreamCounted) = [(scheduleTake p false pkt).2] := by
            rw [List.filter_append]
            unfold counted at empty
            rw [empty]
            simp [scheduleTake_eq, counts]
          rw [scheduleTake_eq] at single ⊢
          refine
            { uncounted := ?_
              idle := by simp [start]
              notSeen := fun _ => by simp [start]
              inflight := fun _ => by
                simp only [counted, single]
                simp [start, counts]
              owned := ?_
              inside := ?_
              ending := ?_ }
          · intro other member
            refine exact_.uncounted other (member.imp_left ?_)
            simp only [queue]
            exact List.mem_cons_of_mem _
          · intro _ other member
            simp only [counted, single, List.mem_singleton] at member
            simp [member, start]
          · intro _ _ other member
            simp only [counted, single, List.mem_singleton] at member
            rw [member]
            exact notEnd
          · intro _ notMid
            simp [midStream, queue, inside] at notMid

end Exact

end Tbv.NativePath
