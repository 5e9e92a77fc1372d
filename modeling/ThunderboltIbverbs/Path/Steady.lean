import ThunderboltIbverbs.Path.RawStream

/-! # A path in steady use

While nothing is cancelled, every operation keeps the raw stream accounting, the
staging pool and the credit groups of its path exact.  `Keeps` collects this per
operation, together with the one thing the progress argument watches: whether
the open stream has the credits to be finished. -/
set_option autoImplicit false
namespace Tbv.NativePath

open Tbv.NativeData Trans

/-! ## The staging pool and the credit groups -/

structure Staging (p : Path) : Prop where
  inflight : p.txInflight = p.ring.length
  free : p.txFree + p.ring.countP (fun pkt => !pkt.zcopy) = p.txFrameCount
  frames : p.txFrameCount = p.cfg.txRingSize

/-- A group may start while the peer still holds back less than a batch. -/
def groupFits (creditWindow frames : Nat) : Prop :=
  startCreditRequired frames creditWindow + creditReturnThreshold creditWindow ≤ creditWindow + 1

structure Groups (creditWindow : Nat) (p : Path) : Prop where
  fits : ∀ pkt ∈ p.txDataQueue, groupFits creditWindow pkt.startCreditGroupFrames
  pages : ∀ pkt ∈ p.txDataQueue, pkt.zcopy = true → pkt.startCreditGroupFrames = 0

/-- The pages of the open stream that are still on the data queue. -/
def pagesLeft (p : Path) : Nat := (p.txDataQueue.takeWhile fun pkt => pkt.zcopy).length

/-- The path is inside a stream it has not the credits to finish. -/
def Uncovered (p : Path) : Prop :=
  p.txRawStreamActive = true ∧ p.txRemoteDataCredits < pagesLeft p

instance (p : Path) : Decidable (Uncovered p) :=
  inferInstanceAs (Decidable (_ ∧ _))

structure PathSound (creditWindow : Nat) (p : Path) : Prop where
  raw : RawExact p
  staging : Staging p
  groups : Groups creditWindow p

/-- What an enqueue leaves alone. -/
structure SameRing (p p' : Path) : Prop where
  ring : p'.ring = p.ring
  active : p'.txRawStreamActive = p.txRawStreamActive
  owner : p'.txRawStreamOwner = p.txRawStreamOwner
  endSeen : p'.txRawStreamEndSeen = p.txRawStreamEndSeen
  counted : p'.txRawStreamInflight = p.txRawStreamInflight
  inflight : p'.txInflight = p.txInflight
  free : p'.txFree = p.txFree
  frames : p'.txFrameCount = p.txFrameCount
  cfg : p'.cfg = p.cfg

section Enqueue
variable {creditWindow : Nat} {p p' : Path}

theorem creditReturnThreshold_le_window (positive : 0 < creditWindow) :
    creditReturnThreshold creditWindow ≤ creditWindow := by
  unfold creditReturnThreshold
  split <;> omega

theorem groupFits_zero (positive : 0 < creditWindow) : groupFits creditWindow 0 := by
  have := creditReturnThreshold_le_window positive
  unfold groupFits startCreditRequired
  rw [if_pos rfl]
  omega

theorem groupFits_one (positive : 0 < creditWindow) : groupFits creditWindow 1 := by
  have := creditReturnThreshold_le_window positive
  unfold groupFits
  rw [startCreditRequired_eq_min]
  omega

theorem Staging.same (staging : Staging p) (same : SameRing p p') : Staging p' where
  inflight := by rw [same.inflight, same.ring, staging.inflight]
  free := by rw [same.free, same.ring, same.frames, staging.free]
  frames := by rw [same.frames, same.cfg, staging.frames]

/-- Enqueueing complete packets leaves the pages of the open stream as they are. -/
theorem pagesLeft_append {queue pkts : List TxPacket}
    (whole : pkts.head?.any (fun pkt => pkt.zcopy) = false) :
    ((queue ++ pkts).takeWhile fun pkt => pkt.zcopy).length =
      (queue.takeWhile fun pkt => pkt.zcopy).length := by
  induction queue with
  | nil =>
      cases pkts with
      | nil => rfl
      | cons pkt rest =>
          have copied : pkt.zcopy = false := by simpa using whole
          simp [copied]
  | cons pkt rest ih =>
      rw [List.cons_append, List.takeWhile_cons, List.takeWhile_cons]
      split
      · rw [List.length_cons, List.length_cons, ih]
      · rfl

theorem PathSound.append_data (sound : PathSound creditWindow p) (same : SameRing p p')
    {pkts : List TxPacket} (data : p'.txDataQueue = p.txDataQueue ++ pkts)
    (control : p'.txControlQueue = p.txControlQueue)
    (whole : pkts.head?.any (fun pkt => pkt.zcopy) = false)
    (uncounted : ∀ pkt ∈ pkts, pkt.rawStreamCounted = false)
    (fits : ∀ pkt ∈ pkts, groupFits creditWindow pkt.startCreditGroupFrames)
    (pages : ∀ pkt ∈ pkts, pkt.zcopy = true → pkt.startCreditGroupFrames = 0) :
    PathSound creditWindow p' where
  raw := sound.raw.append_data data control same.ring same.active same.owner same.endSeen
    same.counted whole uncounted
  staging := sound.staging.same same
  groups :=
    { fits := by
        rw [data]
        intro pkt member
        exact (List.mem_append.mp member).elim (sound.groups.fits pkt) (fits pkt)
      pages := by
        rw [data]
        intro pkt member
        exact (List.mem_append.mp member).elim (sound.groups.pages pkt) (pages pkt) }

theorem PathSound.append_control (sound : PathSound creditWindow p) (same : SameRing p p')
    {pkts : List TxPacket} (data : p'.txDataQueue = p.txDataQueue)
    (control : p'.txControlQueue = p.txControlQueue ++ pkts)
    (uncounted : ∀ pkt ∈ pkts, pkt.rawStreamCounted = false) : PathSound creditWindow p' where
  raw := by
    refine sound.raw.same same.ring same.active same.owner same.endSeen same.counted ?_ ?_
    · rw [midStream, data, midStream]
    · rw [data, control]
      intro pkt member
      rw [List.mem_append] at member
      rcases member with queued | old | new
      · exact sound.raw.uncounted pkt (.inl queued)
      · exact sound.raw.uncounted pkt (.inr old)
      · exact uncounted pkt new
  staging := sound.staging.same same
  groups :=
    { fits := by
        rw [data]
        exact sound.groups.fits
      pages := by
        rw [data]
        exact sound.groups.pages }

/-- With the same stream state and no fewer credits, an end is uncovered only if
it was before. -/
theorem Uncovered.of_append {pkts : List TxPacket} (active : p'.txRawStreamActive =
      p.txRawStreamActive) (credits : p.txRemoteDataCredits ≤ p'.txRemoteDataCredits)
    (data : p'.txDataQueue = p.txDataQueue ++ pkts)
    (whole : pkts.head?.any (fun pkt => pkt.zcopy) = false) (uncovered : Uncovered p') :
    Uncovered p := by
  obtain ⟨running, short⟩ := uncovered
  refine ⟨by rw [← active, running], ?_⟩
  unfold pagesLeft at *
  rw [data, pagesLeft_append whole] at short
  omega

/-- The step keeps the path sound and uncovers no stream. -/
structure Keeps (creditWindow : Nat) (p p' : Path) : Prop where
  sound : PathSound creditWindow p → PathSound creditWindow p'
  covers : Uncovered p' → Uncovered p

theorem Keeps.refl (creditWindow : Nat) (p : Path) : Keeps creditWindow p p := ⟨id, id⟩

theorem Keeps.of_data (same : SameRing p p') {pkts : List TxPacket}
    (data : p'.txDataQueue = p.txDataQueue ++ pkts)
    (control : p'.txControlQueue = p.txControlQueue)
    (credits : p.txRemoteDataCredits ≤ p'.txRemoteDataCredits)
    (whole : pkts.head?.any (fun pkt => pkt.zcopy) = false)
    (uncounted : ∀ pkt ∈ pkts, pkt.rawStreamCounted = false)
    (fits : ∀ pkt ∈ pkts, groupFits creditWindow pkt.startCreditGroupFrames)
    (pages : ∀ pkt ∈ pkts, pkt.zcopy = true → pkt.startCreditGroupFrames = 0) :
    Keeps creditWindow p p' :=
  ⟨fun sound => sound.append_data same data control whole uncounted fits pages,
    Uncovered.of_append same.active credits data whole⟩

theorem Keeps.of_same (same : SameRing p p') (data : p'.txDataQueue = p.txDataQueue)
    (control : p'.txControlQueue = p.txControlQueue)
    (credits : p.txRemoteDataCredits ≤ p'.txRemoteDataCredits) : Keeps creditWindow p p' := by
  have unchanged : p'.txDataQueue = p.txDataQueue ++ [] := by rw [data, List.append_nil]
  exact .of_data same unchanged control credits rfl (by simp) (by simp) (by simp)

theorem Keeps.of_control (same : SameRing p p') {pkts : List TxPacket}
    (data : p'.txDataQueue = p.txDataQueue)
    (control : p'.txControlQueue = p.txControlQueue ++ pkts)
    (credits : p.txRemoteDataCredits ≤ p'.txRemoteDataCredits)
    (uncounted : ∀ pkt ∈ pkts, pkt.rawStreamCounted = false) : Keeps creditWindow p p' :=
  ⟨fun sound => sound.append_control same data control uncounted, by
    have unchanged : p'.txDataQueue = p.txDataQueue ++ [] := by rw [data, List.append_nil]
    exact Uncovered.of_append same.active credits unchanged rfl⟩

theorem enqueueControl_keeps (frame : ControlFrame) :
    Keeps creditWindow p (orKeep p (enqueueControl p frame.packet)) := by
  unfold enqueueControl
  split
  · exact .refl creditWindow p
  · refine .of_control ⟨rfl, rfl, rfl, rfl, rfl, rfl, rfl, rfl, rfl⟩ rfl rfl (Nat.le_refl _) ?_
    intro pkt member
    rw [List.mem_singleton.mp member]
    rfl

theorem enqueueData_keeps (positive : 0 < creditWindow) (frame : FramedFrame) :
    Keeps creditWindow p (orKeep p (enqueueData p frame.packet)) := by
  have single (p' : Path) (same : SameRing p p') (data : p'.txDataQueue = p.txDataQueue ++
        [{ frame.packet with startCreditGroupFrames := 1 }])
      (control : p'.txControlQueue = p.txControlQueue)
      (credits : p.txRemoteDataCredits ≤ p'.txRemoteDataCredits) : Keeps creditWindow p p' := by
    refine .of_data same data control credits rfl ?_ ?_ ?_
    all_goals
      intro pkt member
      rw [List.mem_singleton.mp member]
    · rfl
    · exact groupFits_one positive
    · intro page
      cases page
  unfold enqueueData
  dsimp only
  repeat' split
  · exact .refl creditWindow p
  · exact single _ ⟨rfl, rfl, rfl, rfl, rfl, rfl, rfl, rfl, rfl⟩ rfl rfl (Nat.le_refl _)
  · exact .refl creditWindow p
  · exact single _ ⟨rfl, rfl, rfl, rfl, rfl, rfl, rfl, rfl, rfl⟩ rfl rfl (Nat.le_refl _)

theorem reserveData_keeps (frames : Nat) :
    Keeps creditWindow p (orKeep p (reserveData p frames)) := by
  unfold reserveData
  repeat' split
  all_goals
    exact .of_same ⟨rfl, rfl, rfl, rfl, rfl, rfl, rfl, rfl, rfl⟩ rfl rfl (Nat.le_refl _)

theorem markGroup_mem {count : Nat} {pkts : List TxPacket} {pkt : TxPacket}
    (member : pkt ∈ markGroup count pkts) :
    ∃ old ∈ pkts, SamePacket old pkt ∧ pkt.rawStreamCounted = old.rawStreamCounted ∧
      (pkt.startCreditGroupFrames = 0 ∨
        (pkt.startCreditGroupFrames = count ∧ pkts.head? = some old)) := by
  cases pkts with
  | nil => cases member
  | cons head rest =>
      rcases List.mem_cons.mp member with rfl | later
      · exact ⟨head, List.mem_cons_self, samePacket_group _ _, rfl, .inr ⟨rfl, rfl⟩⟩
      · obtain ⟨old, oldMember, rfl⟩ := List.mem_map.mp later
        exact ⟨old, List.mem_cons_of_mem _ oldMember, samePacket_group _ _, rfl, .inl rfl⟩

/-- A group whose first packet is no page joins the data queue. -/
theorem Keeps.of_group (positive : 0 < creditWindow) (same : SameRing p p') {count : Nat}
    {pkts : List TxPacket} (data : p'.txDataQueue = p.txDataQueue ++ markGroup count pkts)
    (control : p'.txControlQueue = p.txControlQueue)
    (credits : p.txRemoteDataCredits ≤ p'.txRemoteDataCredits)
    (whole : pkts.head?.any (fun pkt => pkt.zcopy) = false)
    (uncounted : ∀ pkt ∈ pkts, pkt.rawStreamCounted = false)
    (fits : groupFits creditWindow count) : Keeps creditWindow p p' := by
  refine .of_data same data control credits ?_ ?_ ?_ ?_
  · cases pkts with
    | nil => rfl
    | cons head rest => exact whole
  · intro pkt member
    obtain ⟨old, oldMember, _, kept, _⟩ := markGroup_mem member
    rw [kept, uncounted old oldMember]
  · intro pkt member
    obtain ⟨_, _, _, _, zero | ⟨first, _⟩⟩ := markGroup_mem member
    · rw [zero]
      exact groupFits_zero positive
    · rw [first]
      exact fits
  · intro pkt member page
    obtain ⟨old, _, samePkt, _, zero | ⟨_, head⟩⟩ := markGroup_mem member
    · exact zero
    · rw [head] at whole
      rw [samePkt.zcopy] at page
      simp [page] at whole

theorem enqueueReservedDataList_keeps (positive : 0 < creditWindow) (frames : List FramedFrame)
    (fits : groupFits creditWindow frames.length) :
    Keeps creditWindow p
      (orKeep p (enqueueReservedDataList p (frames.map FramedFrame.packet))) := by
  unfold enqueueReservedDataList
  dsimp only
  repeat' split
  · exact .refl creditWindow p
  · exact .refl creditWindow p
  · exact .refl creditWindow p
  · refine .of_group positive ⟨rfl, rfl, rfl, rfl, rfl, rfl, rfl, rfl, rfl⟩ rfl rfl
      (Nat.le_refl _) ?_ ?_ (by rw [List.length_map]; exact fits)
    · cases frames <;> rfl
    · intro pkt member
      obtain ⟨frame, _, rfl⟩ := List.mem_map.mp member
      rfl

theorem payloadPackets_length (owner pageDone pageCtx sid : Nat) (pages : List WireFrame)
    (prepared : Nat) :
    (payloadPackets owner pageDone pageCtx sid prepared pages).length = pages.length := by
  induction pages generalizing prepared with
  | nil => rfl
  | cons page rest ih => simp [payloadPackets, ih]

theorem PageStream.packets_length (s : PageStream) (sid : Nat) :
    (s.packets sid).length = s.pages.length + 1 := by
  simp [PageStream.packets, payloadPackets_length]

theorem sendPageStream_keeps (positive : 0 < creditWindow) (s : PageStream)
    (fits : groupFits creditWindow (s.pages.length + 1)) :
    Keeps creditWindow p (sendPageStream p s) := by
  rcases sendPageStream_cases p s with ⟨status, refused⟩ | queued
  · rw [refused, releasePacketList_eq]
    exact .of_same ⟨rfl, rfl, rfl, rfl, rfl, rfl, rfl, rfl, rfl⟩ rfl rfl (Nat.le_refl _)
  · rw [queued]
    refine .of_group positive ⟨rfl, rfl, rfl, rfl, rfl, rfl, rfl, rfl, rfl⟩ rfl rfl
      (Nat.le_refl _) ?_ ?_ (by rw [s.packets_length]; exact fits)
    · simp [PageStream.packets, PageStream.headerPacket]
    intro pkt member
    rcases List.mem_cons.mp member with rfl | later
    · rfl
    · obtain ⟨_, _, _, _, _, _, _, _, fresh⟩ := payloadPackets_mem later
      exact fresh

theorem finishRawStreamIfNeeded_active (p : Path) (pkt : TxPacket)
    (running : (finishRawStreamIfNeeded p pkt).txRawStreamActive = true) :
    p.txRawStreamActive = true := by
  unfold finishRawStreamIfNeeded at running
  dsimp only at running
  repeat' split at running
  all_goals simp_all

theorem txComplete_keeps (canceled : Bool) : Keeps creditWindow p (txComplete p canceled) := by
  obtain ⟨data, _, _⟩ := txComplete_sameData p canceled
  have credits := (txComplete_sameLedger p canceled).credits
  have cfg := (txComplete_sameLedger p canceled).cfg
  refine ⟨fun sound => ⟨sound.raw.complete canceled, ?_, ?_⟩, ?_⟩
  · cases queue : p.ring with
    | nil =>
        rw [txComplete_nil queue]
        exact sound.staging
    | cons pkt rest =>
        obtain ⟨inflight, free, frames⟩ := sound.staging
        rw [queue] at inflight free
        rw [List.length_cons] at inflight
        rw [List.countP_cons] at free
        rw [txComplete_cons queue, finishRawStreamIfNeeded_frame]
        refine ⟨?_, ?_, frames⟩
        · simp [retireDescriptor, inflight]
        · cases zcopy : pkt.zcopy with
          | true => simp_all [retireDescriptor]
          | false =>
              simp only [zcopy, Bool.not_false, if_true] at free
              simp only [retireDescriptor, zcopy, Bool.false_eq_true, if_false]
              omega
  · exact ⟨by rw [data]; exact sound.groups.fits, by rw [data]; exact sound.groups.pages⟩
  · rintro ⟨running, short⟩
    refine ⟨?_, ?_⟩
    · cases queue : p.ring with
      | nil =>
          rw [txComplete_nil queue] at running
          exact running
      | cons pkt rest =>
          rw [txComplete_cons queue] at running
          exact finishRawStreamIfNeeded_active (retireDescriptor p pkt rest) pkt running
    · rw [pagesLeft, data, credits] at short
      exact short

end Enqueue

/-! ## The scheduler and the RX callback -/

/-- The scheduler would post the header of a stream with more packets than the
path has credits. -/
def StartsUncovered (p : Path) : Prop :=
  ∃ pkt, scheduleChoice p = some (false, pkt) ∧ pkt.rawStreamStart = true ∧
    p.txRemoteDataCredits ≤ (p.txDataQueue.tail.takeWhile fun next => next.zcopy).length

section Post
variable {creditWindow : Nat} {rx sent : Option OpenStream} {p p' q : Path}
  {wire received : List TxPacket}

theorem Staging.post (staging : Staging p) {fromControlQueue : Bool} {pkt : TxPacket}
    (free : scheduleBlocked p fromControlQueue pkt = false)
    (copied : fromControlQueue = true → pkt.zcopy = false) :
    Staging { (scheduleTake p fromControlQueue pkt).1 with
      ring := (scheduleTake p fromControlQueue pkt).1.ring ++
        [(scheduleTake p fromControlQueue pkt).2] } := by
  have needs : (fromControlQueue || !pkt.zcopy) = !pkt.zcopy := by
    cases fromControlQueue with
    | true => simp [copied rfl]
    | false => rfl
  have pool : pkt.zcopy = false → p.txFree ≠ 0 := by
    intro staged
    simp only [scheduleBlocked, staged, Bool.not_false, Bool.or_true, Bool.true_and,
      Bool.or_eq_false_iff, beq_eq_false_iff_ne] at free
    exact free.1.1.2
  obtain ⟨inflight, frees, frames⟩ := staging
  rw [scheduleTake_eq]
  refine ⟨?_, ?_, frames⟩
  · simp [inflight]
  · simp only [needs, List.countP_append, List.countP_cons, List.countP_nil]
    cases zcopy : pkt.zcopy with
    | true => simpa using frees
    | false =>
        have := pool zcopy
        simp only [Bool.not_false, if_true]
        omega

theorem Groups.post (groups : Groups creditWindow p) {fromControlQueue : Bool} {pkt : TxPacket} :
    Groups creditWindow { (scheduleTake p fromControlQueue pkt).1 with
      ring := (scheduleTake p fromControlQueue pkt).1.ring ++
        [(scheduleTake p fromControlQueue pkt).2] } := by
  have subset : ∀ other ∈ (scheduleTake p fromControlQueue pkt).1.txDataQueue,
      other ∈ p.txDataQueue := by
    rw [scheduleTake_eq]
    cases fromControlQueue with
    | true => exact fun other member => member
    | false => exact fun other member => List.mem_of_mem_tail member
  exact ⟨fun other member => groups.fits other (subset other member),
    fun other member => groups.pages other (subset other member)⟩

theorem PathSound.schedule (sound : PathSound creditWindow p)
    (inStep : InStepAt rx sent p wire received q) {posted : TxPacket}
    (ran : scheduleTx p .ok = (p', some posted)) : PathSound creditWindow p' := by
  have raw := sound.raw.schedule inStep ran
  rcases scheduleTx_ok_cases p with idle | ⟨fromControlQueue, pkt, chosen, free, took⟩
  · rw [idle] at ran
    cases ran
  · rw [took] at ran
    obtain ⟨rfl, rfl⟩ : _ = p' ∧ _ = posted := by simpa using ran
    refine ⟨raw, sound.staging.post free ?_, sound.groups.post⟩
    intro fromControl
    obtain ⟨_, ⟨_, rfl, _⟩ | ⟨_, _, rest, queue⟩ | ⟨_, rfl, _⟩⟩ := scheduleChoice_cases chosen
    · cases fromControl
    · obtain ⟨emitted, origin⟩ := inStep.controlEmitted pkt
        (by rw [queue]; exact List.mem_cons_self)
      simp only [Emitted, origin] at emitted
      exact emitted.2.1
    · cases fromControl

/-- Posting a page uses one credit for one page; only a header can uncover. -/
theorem Uncovered.schedule (windowed : p.txRemoteDataCreditMax ≠ 0)
    (inStep : InStepAt rx sent p wire received q) {posted : TxPacket}
    (ran : scheduleTx p .ok = (p', some posted)) (uncovered : Uncovered p') :
    Uncovered p ∨ StartsUncovered p := by
  obtain ⟨credits, _⟩ :=
    scheduleTx_credits ran windowed inStep.dataEmitted inStep.controlEmitted
  rcases scheduleTx_ok_cases p with idle | ⟨fromControlQueue, pkt, chosen, _, took⟩
  · rw [idle] at ran
    cases ran
  · rw [took] at ran
    have same := scheduleTake_samePacket p fromControlQueue pkt
    obtain ⟨rfl, rfl⟩ : _ = p' ∧ _ = posted := by simpa using ran
    rw [same.control] at credits
    obtain ⟨running, short⟩ := uncovered
    obtain ⟨_, ⟨active, rfl, ⟨rest, queue⟩, zcopy, _, _⟩ |
      ⟨inactive, rfl, rest, queue⟩ | ⟨inactive, rfl, _, rest, queue⟩⟩ :=
        scheduleChoice_cases chosen
    · obtain ⟨_, data⟩ := inStep.dataEmitted pkt (by rw [queue]; exact List.mem_cons_self)
      refine .inl ⟨active, ?_⟩
      have after : (scheduleTake p false pkt).1.txDataQueue = rest := by
        simp [scheduleTake_eq, queue]
      simp only [pagesLeft, after] at short
      simp only [data, Bool.false_eq_true, if_false] at credits
      simp only [pagesLeft, queue, List.takeWhile_cons, zcopy, if_true, List.length_cons]
      omega
    · obtain ⟨emitted, origin⟩ := inStep.controlEmitted pkt
        (by rw [queue]; exact List.mem_cons_self)
      have notStart := emitted.not_start_of_plain (by rw [origin]; rfl)
      simp [scheduleTake_eq, notStart, inactive] at running
    · have start : pkt.rawStreamStart = true := by
        by_contra notStart
        simp [scheduleTake_eq, notStart, inactive] at running
      obtain ⟨_, data⟩ := inStep.dataEmitted pkt (by rw [queue]; exact List.mem_cons_self)
      refine .inr ⟨pkt, chosen, start, ?_⟩
      have after : (scheduleTake p false pkt).1.txDataQueue = p.txDataQueue.tail := by
        simp [scheduleTake_eq]
      simp only [pagesLeft, after] at short
      simp only [data, Bool.false_eq_true, if_false] at credits
      omega

theorem rxComplete_keeps {frame : WireFrame} (credits : p.txRemoteDataCredits ≤
      (rxComplete p frame).txRemoteDataCredits) :
    Keeps creditWindow p (rxComplete p frame) := by
  have untouched := rxComplete_frame p frame
  have same : SameRing p (rxComplete p frame) := by
    rw [untouched]
    exact ⟨rfl, rfl, rfl, rfl, rfl, rfl, rfl, rfl, rfl⟩
  have data := (rxComplete_sameTx p frame).data
  rcases rxComplete_control p frame with kept | ⟨returned, _, queue⟩
  · exact .of_same same data kept credits
  · refine .of_control same data queue credits ?_
    intro pkt member
    rw [List.mem_singleton.mp member]
    rfl

end Post

/-! ## Runs -/

def Uncancelled (l : Link) : Event → Prop
  | .framedList side frames =>
      groupFits (l.path side).txRemoteDataCreditMax frames.length
  | .stream side pages =>
      groupFits (l.path side).txRemoteDataCreditMax (pages.pages.length + 1)
  | .cancelDone .. => False
  | .cancelOwner .. => False
  | _ => True

structure Link.Steady (cfg : Bool → PathConfig) (l : Link) : Prop where
  credits : l.Covered cfg
  path : ∀ side, PathSound (window cfg side) (l.path side)

section Runs
variable {cfg : Bool → PathConfig} {l : Link}

theorem Link.Steady.framing (steady : l.Steady cfg) {e : Event} (ok : Uncancelled l e) :
    FramingOk l e := by
  cases e with
  | schedule side => exact (steady.path side).raw.noStaleEnd
  | cancelDone side done doneCtx => exact ok.elim
  | cancelOwner side ownerCtx => exact ok.elim
  | _ => trivial

theorem Link.setPath_keeps (side : Bool) {p' : Path}
    (keeps : Keeps (window cfg side) (l.path side) p') (dir : Bool) :
    Keeps (window cfg dir) (l.path dir) ((l.setPath side p').path dir) := by
  by_cases same : dir = side
  · subst same
    simpa [Link.setPath] using keeps
  · simpa [Link.setPath, Function.update_of_ne same] using Keeps.refl _ (l.path dir)

theorem Link.Steady.deliver_keeps (steady : l.Steady cfg) (side dir : Bool) :
    Keeps (window cfg dir) (l.path dir) ((l.deliver side).path dir) := by
  unfold Link.deliver
  cases wire : l.wire side with
  | nil => exact .refl _ _
  | cons pkt rest =>
      by_cases same : dir = !side
      · subst same
        dsimp only
        rw [Function.update_self]
        refine rxComplete_keeps ?_
        obtain ⟨rx, sent, inStep⟩ := steady.credits.inStep side
        rw [wire] at inStep
        have peer := steady.credits.ledger !side
        obtain ⟨_, _, grown⟩ := rxComplete_credits pkt.frame peer.admits peer.windowed
          (by rw [peer.creditMax]; exact peer.credits_le) peer.threshold
          (by rw [inStep.refund.1]; split <;> omega)
        have := peer.credits_le
        rw [grown, peer.creditMax]
        omega
      · dsimp only
        rw [Function.update_of_ne same]
        exact .refl _ _

theorem Link.Steady.keeps (steady : l.Steady cfg) {e : Event} (ok : Uncancelled l e)
    (notSchedule : ∀ side, e ≠ .schedule side) (dir : Bool) :
    Keeps (window cfg dir) (l.path dir) ((l.apply e).path dir) := by
  have positive := window_pos cfg
  have windows := fun side => (steady.credits.ledger side).creditMax
  cases e with
  | control side frame => exact Link.setPath_keeps side (enqueueControl_keeps frame) dir
  | framed side frame => exact Link.setPath_keeps side (enqueueData_keeps (positive side) frame) dir
  | reserve side frames => exact Link.setPath_keeps side (reserveData_keeps frames) dir
  | release side frames =>
      have kept : Keeps (window cfg side) (l.path side)
          (releaseDataReservation (l.path side) frames) :=
        .of_same ⟨rfl, rfl, rfl, rfl, rfl, rfl, rfl, rfl, rfl⟩ rfl rfl (Nat.le_refl _)
      exact Link.setPath_keeps side kept dir
  | framedList side frames =>
      refine Link.setPath_keeps side
        (enqueueReservedDataList_keeps (positive side) frames ?_) dir
      rw [← windows side]
      exact ok
  | stream side pages =>
      refine Link.setPath_keeps side (sendPageStream_keeps (positive side) pages ?_) dir
      rw [← windows side]
      exact ok
  | schedule side => exact absurd rfl (notSchedule side)
  | complete side canceled => exact Link.setPath_keeps side (txComplete_keeps canceled) dir
  | deliver side => exact steady.deliver_keeps side dir
  | cancelDone side done doneCtx => exact ok.elim
  | cancelOwner side ownerCtx => exact ok.elim

theorem Link.schedule_idle {side : Bool} (idle : scheduleTx (l.path side) .ok =
      (l.path side, none)) : l.schedule side = l := by
  unfold Link.schedule
  rw [idle]
  simp [Link.setPath]

theorem Link.schedule_posted {side : Bool} {p' : Path} {pkt : TxPacket}
    (ran : scheduleTx (l.path side) .ok = (p', some pkt)) :
    l.schedule side =
      { l with
        path := Function.update l.path side p'
        wire := Function.update l.wire side (l.wire side ++ [pkt]) } := by
  unfold Link.schedule
  rw [ran]
  rfl

/-- A scheduler iteration posts nothing and changes nothing, or posts a packet. -/
theorem scheduleTx_idle_or_posts (p : Path) :
    scheduleTx p .ok = (p, none) ∨ ∃ p' pkt, scheduleTx p .ok = (p', some pkt) := by
  rcases scheduleTx_ok_cases p with idle | ⟨_, _, _, _, took⟩
  · exact .inl idle
  · exact .inr ⟨_, _, took⟩

theorem Link.Steady.apply (steady : l.Steady cfg) {e : Event} (ok : Uncancelled l e) :
    (l.apply e).Steady cfg := by
  refine ⟨steady.credits.apply (steady.framing ok), fun dir => ?_⟩
  by_cases scheduled : ∃ side, e = .schedule side
  · obtain ⟨side, rfl⟩ := scheduled
    simp only [Link.apply]
    obtain ⟨rx, sent, inStep⟩ := steady.credits.inStep side
    rcases scheduleTx_idle_or_posts (l.path side) with idle | ⟨p', pkt, ran⟩
    · rw [Link.schedule_idle idle]
      exact steady.path dir
    · rw [Link.schedule_posted ran]
      by_cases same : dir = side
      · subst same
        simpa using (steady.path dir).schedule inStep ran
      · simpa [Function.update_of_ne same] using steady.path dir
  · have notSchedule : ∀ side, e ≠ .schedule side := fun side same => scheduled ⟨side, same⟩
    exact (steady.keeps ok notSchedule dir).sound (steady.path dir)

theorem Link.init_steady (cfg : Bool → PathConfig) : (Link.init cfg).Steady cfg := by
  have data (side : Bool) : ((Link.init cfg).path side).txDataQueue = [] := rfl
  have control (side : Bool) : ((Link.init cfg).path side).txControlQueue = [] := rfl
  have ring (side : Bool) : ((Link.init cfg).path side).ring = [] := rfl
  have idle (side : Bool) : ((Link.init cfg).path side).txRawStreamActive = false := rfl
  refine ⟨Link.init_covered cfg, fun side => ⟨?_, ?_, ?_⟩⟩
  · have ended {P : Prop} (running : ((Link.init cfg).path side).txRawStreamActive = true) : P := by
      rw [idle] at running
      cases running
    refine ⟨?_, ?_, ended, ended, ended, ended, ended⟩
    · simp [data, control]
    · simp [counted, ring]
  · exact ⟨by rw [ring]; rfl, by rw [ring]; rfl, rfl⟩
  · exact ⟨by simp [data], by simp [data]⟩

end Runs

end Tbv.NativePath
