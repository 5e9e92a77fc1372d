import Mathlib.Data.List.Forall2
import Mathlib.Data.List.Nodup
import ThunderboltIbverbs.Lib.Run
import ThunderboltIbverbs.Read.Spec

/-! # Reassembly of read responses

Every read of a QP has one snapshot at the responder.  Whatever of its fragments
arrive, in which order and how often, `received` is the length of a prefix of the
snapshot that is in the destination, the fragments kept lie above it, and the read
completes when the prefix is the whole. -/
set_option autoImplicit false
namespace Tbv.ReadQueue

open Tbv.NativeData
open Tbv.SendQueue (Segment totalLen gather readRange)
open Trans

/-- A read as posted, and the snapshot the responder took for it. -/
structure PostedRead where
  wrId : Nat := 0
  psn : Nat
  segs : List Segment
  signaled : Bool := true
  destQp : Nat := 0
  srcQp : Nat := 0
  remoteAddr : Nat := 0
  rkey : Nat := 0
  data : List UInt8
  positive : 0 < totalLen segs
  bounded : totalLen segs ≤ maxMsgSize
  snapshot : data.length = totalLen segs

def PostedRead.total (read : PostedRead) : Nat := totalLen read.segs

/-- The context `tbv_post_rdma_read` queues. -/
def PostedRead.ctx (read : PostedRead) : ReadCtx :=
  { wrId := read.wrId, psn := read.psn, totalLen := read.total, segs := read.segs
    signaled := read.signaled }

def PostedRead.request (read : PostedRead) : Header :=
  readReqHeader read.destQp read.srcQp read.psn read.total read.remoteAddr read.rkey

def PostedRead.response (read : PostedRead) : List RespFrame :=
  sendReadResponse read.request read.data

/-- Every byte of the snapshot at its address in the destination. -/
def PostedRead.stores (read : PostedRead) : List Write :=
  ReadQueue.stores read.psn (locations read.segs) read.data

/-- The reads pending on one QP; their PSNs differ. -/
structure PostedReads where
  list : List PostedRead
  distinct : (list.map PostedRead.psn).Nodup

def PostedReads.start (reads : PostedReads) : Requester :=
  { pendingReads := reads.list.map PostedRead.ctx }

/-- One response fragment reaching the requester; `alloc` is whether the memory for
a fragment that comes early can be had. -/
structure Arrival where
  read : Nat
  frag : Nat
  alloc : Bool := true

def PostedReads.frame (reads : PostedReads) (arrival : Arrival) : Option RespFrame :=
  reads.list[arrival.read]?.bind fun read => read.response[arrival.frag]?

def PostedReads.step (reads : PostedReads) (q : Requester) (arrival : Arrival) :
    Option Requester :=
  (reads.frame arrival).bind fun frame => q.handleRdmaReadResp frame arrival.alloc

def Requester.writesFor (q : Requester) (psn : Nat) : List Write :=
  q.writes.filter fun write => write.psn = psn

/-! ## The fragments kept -/

def cut (data : List UInt8) (offset : Nat) : List UInt8 := (data.drop offset).take maxPayload

/-- The fragments are cuts of the snapshot in increasing order from `low` on. -/
def Tiled (data : List UInt8) : Nat → List RespFrag → Prop
  | _, [] => True
  | low, frag :: rest =>
      low ≤ frag.offset ∧ frag.offset % maxPayload = 0 ∧ frag.offset < data.length ∧
        frag.data = cut data frag.offset ∧ Tiled data (frag.offset + frag.len) rest

theorem length_cut (data : List UInt8) (offset : Nat) :
    (cut data offset).length = min (data.length - offset) maxPayload := by
  rw [cut, List.length_take, List.length_drop, Nat.min_comm]

theorem Tiled.above {data : List UInt8} {low : Nat} {frags : List RespFrag}
    (tiled : Tiled data low frags) {frag : RespFrag} (among : frag ∈ frags) :
    low ≤ frag.offset := by
  induction frags generalizing low with
  | nil => cases among
  | cons head rest ih =>
      obtain ⟨above, _, _, _, later⟩ := tiled
      rcases List.mem_cons.mp among with rfl | among
      · exact above
      · have := ih later among
        omega

theorem Tiled.is_cut {data : List UInt8} {low : Nat} {frags : List RespFrag}
    (tiled : Tiled data low frags) {frag : RespFrag} (among : frag ∈ frags) :
    frag.data = cut data frag.offset := by
  induction frags generalizing low with
  | nil => cases among
  | cons head rest ih =>
      obtain ⟨_, _, _, here, later⟩ := tiled
      rcases List.mem_cons.mp among with rfl | among
      · exact here
      · exact ih later among

/-- What is kept fits between `low` and the end of the snapshot. -/
theorem Tiled.sum_le {data : List UInt8} {low : Nat} {frags : List RespFrag}
    (tiled : Tiled data low frags) (inside : low ≤ data.length) :
    low + (frags.map RespFrag.len).sum ≤ data.length := by
  induction frags generalizing low with
  | nil => simpa using inside
  | cons frag rest ih =>
      obtain ⟨above, _, within, here, later⟩ := tiled
      have length : frag.len = min (data.length - frag.offset) maxPayload := by
        rw [RespFrag.len, here, length_cut]
      have := ih later (by omega)
      simp only [List.map_cons, List.sum_cons]
      omega

theorem aligned_lt {one two : Nat} (oneAligned : one % maxPayload = 0)
    (twoAligned : two % maxPayload = 0) (less : one < two) : one + maxPayload ≤ two := by
  have payload : maxPayload = 4048 := rfl
  simp only [payload] at oneAligned twoAligned ⊢
  omega

theorem aligned_next {offset total : Nat} (aligned : offset % maxPayload = 0) :
    offset + min (total - offset) maxPayload = max offset total ∨
      (offset + min (total - offset) maxPayload) % maxPayload = 0 := by
  have payload : maxPayload = 4048 := rfl
  simp only [payload] at aligned ⊢
  omega

theorem Tiled.insert {data : List UInt8} {low : Nat} {frags : List RespFrag}
    (tiled : Tiled data low frags) {frag : RespFrag} (above : low ≤ frag.offset)
    (aligned : frag.offset % maxPayload = 0) (within : frag.offset < data.length)
    (isCut : frag.data = cut data frag.offset)
    (fresh : ∀ other ∈ frags, other.offset ≠ frag.offset) :
    Tiled data low (insertFrag frag frags) := by
  have length : frag.len ≤ maxPayload := by
    rw [RespFrag.len, isCut, length_cut]
    omega
  induction frags generalizing low with
  | nil => exact ⟨above, aligned, within, isCut, trivial⟩
  | cons head rest ih =>
      obtain ⟨headAbove, headAligned, headWithin, headCut, later⟩ := tiled
      have headLength : head.len ≤ maxPayload := by
        rw [RespFrag.len, headCut, length_cut]
        omega
      have apart := fresh head (List.mem_cons_self ..)
      unfold insertFrag
      split
      · rename_i before
        have gap := aligned_lt aligned headAligned before
        exact ⟨above, aligned, within, isCut, by omega, headAligned, headWithin, headCut, later⟩
      · have gap := aligned_lt headAligned aligned (by omega)
        refine ⟨headAbove, headAligned, headWithin, headCut, ih later (by omega) ?_⟩
        intro other among
        exact fresh other (List.mem_cons_of_mem _ among)

theorem sum_insertFrag (frag : RespFrag) (frags : List RespFrag) :
    ((insertFrag frag frags).map RespFrag.len).sum =
      frag.len + (frags.map RespFrag.len).sum := by
  induction frags with
  | nil => rfl
  | cons head rest ih =>
      unfold insertFrag
      split
      · rfl
      · simp only [List.map_cons, List.sum_cons, ih]
        omega

theorem mem_insertFrag_iff {frag other : RespFrag} {frags : List RespFrag} :
    other ∈ insertFrag frag frags ↔ other = frag ∨ other ∈ frags := by
  induction frags with
  | nil => simp [insertFrag]
  | cons head rest ih =>
      unfold insertFrag
      split
      · rw [List.mem_cons]
      · rw [List.mem_cons, List.mem_cons, ih]
        exact or_left_comm

theorem findFrag_none {read : ReadCtx} {offset : Nat} (none : read.findFrag offset = none) :
    ∀ frag ∈ read.respFrags, frag.offset ≠ offset := by
  intro frag among
  have := List.find?_eq_none.mp none frag among
  simpa using this

/-- The fragment the drain loop finds is the first one kept. -/
theorem findFrag_head {data : List UInt8} {read : ReadCtx} {frag : RespFrag}
    (tiled : Tiled data read.received read.respFrags)
    (found : read.findFrag read.received = some frag) :
    frag.offset = read.received ∧
      read.respFrags = frag :: read.respFrags.eraseP fun f => f.offset = read.received := by
  unfold ReadCtx.findFrag at found
  have here : frag.offset = read.received := by simpa using List.find?_some found
  refine ⟨here, ?_⟩
  cases frags : read.respFrags with
  | nil => simp [frags] at found
  | cons head rest =>
      rw [frags] at tiled found
      by_cases first : head.offset = read.received
      · rw [List.find?_cons_of_pos (by simpa using first)] at found
        cases found
        rw [List.eraseP_cons_of_pos (by simpa using first)]
      · -- a later fragment would lie above the first, which lies above `received`
        rw [List.find?_cons_of_neg (by simpa using first)] at found
        have above := tiled.1
        have later := tiled.2.2.2.2.above (List.mem_of_find?_eq_some found)
        omega

/-! ## One read -/

/-- The state of a pending read whose prefix is in the destination. -/
structure Assembling (writes : List Write) (acks : List (Nat × ReadAckStatus))
    (read : PostedRead) (ctx : ReadCtx) : Prop where
  same : ctx.wrId = read.wrId ∧ ctx.psn = read.psn ∧ ctx.totalLen = read.total ∧
    ctx.segs = read.segs ∧ ctx.signaled = read.signaled ∧ ctx.completed = false
  aligned : ctx.received = read.total ∨ ctx.received % maxPayload = 0
  within : ctx.received ≤ read.total
  tiled : Tiled read.data ctx.received ctx.respFrags
  clear : ctx.findFrag ctx.received = none
  bytes : ctx.respBufferedBytes = (ctx.respFrags.map RespFrag.len).sum
  written : (writes.filter fun write => write.psn = read.psn) = read.stores.take ctx.received
  acked : acks.count (read.psn, .ok) = if ctx.received = read.total then 1 else 0
  ready : ctx.ready = true ↔ ctx.received = read.total
  status : ctx.completionStatus = none

theorem PostedRead.length_stores (read : PostedRead) : read.stores.length = read.total := by
  have size : read.data.length = read.total := read.snapshot
  have places : (locations read.segs).length = read.total := length_locations read.segs
  rw [PostedRead.stores, ReadQueue.stores, List.length_zipWith, size, places, Nat.min_self]

/-- The prefix grows by what is stored of the snapshot right after it. -/
theorem stores_grow (read : PostedRead) (offset : Nat) {bytes : List UInt8}
    (isCut : bytes = cut read.data offset) :
    read.stores.take offset ++
      stores read.psn (((locations read.segs).drop offset).take bytes.length) bytes =
      read.stores.take (offset + bytes.length) := by
  have part : bytes = (read.data.drop offset).take bytes.length := by
    subst isCut
    rw [cut, List.length_take, List.take_eq_take_min]
  unfold PostedRead.stores stores
  rw [List.take_add, List.drop_zipWith]
  simp only [List.take_zipWith]
  rw [← part]

/-- The drain loop stores the fragments that follow the prefix and ends with none
of them left. -/
theorem drainFrags_eq (read : PostedRead) (fuel : Nat) (ctx : ReadCtx)
    (same : ctx.psn = read.psn ∧ ctx.segs = read.segs) (enough : ctx.respFrags.length < fuel)
    (within : ctx.received ≤ read.total)
    (aligned : ctx.received = read.total ∨ ctx.received % maxPayload = 0)
    (tiled : Tiled read.data ctx.received ctx.respFrags)
    (bytes : ctx.respBufferedBytes = (ctx.respFrags.map RespFrag.len).sum) :
    ∃ received frags stored, ctx.drainFrags fuel =
        some ({ ctx with received := received, respFrags := frags
                         respBufferedBytes := (frags.map RespFrag.len).sum }, stored, none) ∧
      ctx.received ≤ received ∧ received ≤ read.total ∧
      (received = read.total ∨ received % maxPayload = 0) ∧
      Tiled read.data received frags ∧
      (frags.find? fun frag => frag.offset = received) = none ∧
      read.stores.take ctx.received ++ stored = read.stores.take received ∧
      ∀ frag ∈ ctx.respFrags, frag.offset < received ∨ frag ∈ frags := by
  induction fuel generalizing ctx with
  | zero => omega
  | succ fuel ih =>
      unfold ReadCtx.drainFrags
      cases found : ctx.findFrag ctx.received with
      | none =>
          refine ⟨ctx.received, ctx.respFrags, [], ?_, le_refl _, within, aligned, tiled, found,
            List.append_nil _, fun _ => .inr⟩
          rw [← bytes]
      | some frag =>
          obtain ⟨here, first⟩ := findFrag_head tiled found
          obtain ⟨rest, restEq⟩ :
              ∃ rest, rest = ctx.respFrags.eraseP fun f => f.offset = ctx.received := ⟨_, rfl⟩
          rw [← restEq] at first
          have kept := tiled
          rw [first] at kept
          obtain ⟨_, offsetAligned, inside, isCut, later⟩ := kept
          have size : read.data.length = read.total := read.snapshot
          have length : frag.len = min (read.total - frag.offset) maxPayload := by
            rw [RespFrag.len, isCut, length_cut, size]
          have copied := copyToReadSegments_eq ctx frag.offset frag.data (by
            rw [same.2]
            change frag.offset + frag.len ≤ read.total
            omega)
          change copyToReadSegments ctx frag.offset frag.data frag.len = _ at copied
          obtain ⟨received, frags, stored, drained, grown, bounded, aligned', tiled', clear,
              written, kept⟩ := ih
            { ctx with
              received := frag.offset + frag.len
              respBufferedBytes := ctx.respBufferedBytes - frag.len
              respFrags := rest } same
            (by rw [first, List.length_cons] at enough; simpa using by omega)
            (by simp only; omega)
            (by
              have next := @aligned_next _ read.total offsetAligned
              rw [← length, show max frag.offset read.total = read.total by omega] at next
              exact next) later
            (by simp only; rw [bytes, first, List.map_cons, List.sum_cons]; omega)
          simp only at grown written kept
          simp only [copied, ← restEq, Bool.not_true, Bool.false_eq_true, if_false, drained,
            Option.map_some]
          refine ⟨received, frags, _, rfl, by omega, bounded, aligned', tiled', clear, ?_, ?_⟩
          · rw [← List.append_assoc, ← written, same.1, same.2, ← here,
              stores_grow read frag.offset isCut]
            rfl
          · intro other among
            rw [first] at among
            rcases List.mem_cons.mp among with rfl | among
            · have some_ : 0 < maxPayload := by decide
              exact .inl (by omega)
            · exact kept other among

/-! ## The list of pending reads -/

theorem setRead_split {psn : Nat} {before after : List ReadCtx} {ctx next : ReadCtx}
    (others : ∀ other ∈ before, other.psn ≠ psn) (here : ctx.psn = psn) :
    setRead psn next (before ++ ctx :: after) = before ++ next :: after := by
  induction before with
  | nil => simp [setRead, here]
  | cons head rest ih =>
      rw [List.cons_append, setRead, if_neg (others head (List.mem_cons_self ..)),
        ih fun other among => others other (List.mem_cons_of_mem _ among), List.cons_append]

theorem find?_split {psn : Nat} {before after : List ReadCtx} {ctx : ReadCtx}
    (others : ∀ other ∈ before, other.psn ≠ psn) (here : ctx.psn = psn) :
    ((before ++ ctx :: after).find? fun read => read.psn = psn) = some ctx := by
  rw [List.find?_append, List.find?_eq_none.mpr (by simpa using others), Option.none_or,
    List.find?_cons_of_pos (by simpa using here)]

/-- The read found stands at its place in the list of those posted. -/
theorem find_posted {related : PostedRead → ReadCtx → Prop} {reads : List PostedRead}
    {pending : List ReadCtx} (all : List.Forall₂ related reads pending) {psn : Nat}
    {ctx : ReadCtx} (found : (pending.find? fun read => read.psn = psn) = some ctx) :
    ∃ readsBefore read readsAfter before after,
      reads = readsBefore ++ read :: readsAfter ∧ pending = before ++ ctx :: after ∧
      List.Forall₂ related readsBefore before ∧ related read ctx ∧
      List.Forall₂ related readsAfter after ∧ (∀ other ∈ before, other.psn ≠ psn) ∧
      ctx.psn = psn := by
  induction all with
  | nil => simp at found
  | @cons read head reads pending holds rest ih =>
      by_cases first : head.psn = psn
      · rw [List.find?_cons_of_pos (by simpa using first)] at found
        cases found
        exact ⟨[], read, reads, [], pending, rfl, rfl, .nil, holds, rest, by simp, first⟩
      · rw [List.find?_cons_of_neg (by simpa using first)] at found
        obtain ⟨readsBefore, one, readsAfter, before, after, readsEq, pendingEq, left, here,
          right, others, same⟩ := ih found
        refine ⟨read :: readsBefore, one, readsAfter, head :: before, after, by rw [readsEq]; rfl,
          by rw [pendingEq]; rfl, .cons holds left, here, right, ?_, same⟩
        intro other among
        rcases List.mem_cons.mp among with rfl | among
        · exact first
        · exact others other among

/-- The completion of a read that has come whole. -/
def PostedRead.wc (read : PostedRead) : Option ReadWc :=
  if read.signaled then some ⟨read.psn, read.wrId, none, read.total⟩ else none

theorem Assembling.wc_eq {writes : List Write} {acks : List (Nat × ReadAckStatus)}
    {read : PostedRead} {ctx : ReadCtx} (state : Assembling writes acks read ctx) :
    ctx.wc = read.wc := by
  obtain ⟨wrId, psn, total, _, signaled, completed⟩ := state.same
  unfold ReadCtx.wc PostedRead.wc
  rw [wrId, psn, total, signaled, completed, state.status]
  cases read.signaled <;> rfl

/-- The ready reads at the head of the list are those that have come whole. -/
theorem ready_split {writes : List Write} {acks : List (Nat × ReadAckStatus)}
    {reads : List PostedRead} {pending : List ReadCtx}
    (all : List.Forall₂ (Assembling writes acks) reads pending) :
    ∃ done left, reads = done ++ left ∧
      List.Forall₂ (Assembling writes acks) left (pending.dropWhile ReadCtx.ready) ∧
      (pending.takeWhile ReadCtx.ready).filterMap ReadCtx.wc = done.filterMap PostedRead.wc ∧
      (∀ read ∈ done, (writes.filter fun write => write.psn = read.psn) = read.stores) ∧
      ∀ ctx ∈ (pending.dropWhile ReadCtx.ready).head?, ctx.ready = false := by
  induction all with
  | nil => exact ⟨[], [], rfl, .nil, rfl, by simp, by simp⟩
  | @cons read ctx reads pending state rest ih =>
      cases isReady : ctx.ready with
      | false =>
          refine ⟨[], read :: reads, rfl, ?_, ?_, by simp, ?_⟩
          · rw [List.dropWhile_cons_of_neg (by simp [isReady])]
            exact .cons state rest
          · rw [List.takeWhile_cons_of_neg (by simp [isReady])]
            rfl
          · rw [List.dropWhile_cons_of_neg (by simp [isReady])]
            simpa using isReady
      | true =>
          obtain ⟨done, left, readsEq, stays, wcs, written, head⟩ := ih
          rw [List.dropWhile_cons_of_pos isReady, List.takeWhile_cons_of_pos isReady]
          refine ⟨read :: done, left, by rw [readsEq]; rfl, stays, ?_, ?_, head⟩
          · simp only [List.filterMap_cons, state.wc_eq, wcs]
          · intro other among
            rcases List.mem_cons.mp among with rfl | among
            · rw [state.written, state.ready.mp isReady, ← other.length_stores,
                List.take_length]
            · exact written other among

/-- Bytes stored and acknowledgements sent for another read change nothing. -/
theorem Assembling.frame {writes stored : List Write}
    {acks sent : List (Nat × ReadAckStatus)} {read : PostedRead} {ctx : ReadCtx}
    (state : Assembling writes acks read ctx)
    (elsewhere : ∀ write ∈ stored, write.psn ≠ read.psn)
    (others : ∀ ack ∈ sent, ack.1 = read.psn → ack.2 ≠ .ok) :
    Assembling (writes ++ stored) (acks ++ sent) read ctx := by
  have none : sent.count (read.psn, .ok) = 0 :=
    List.count_eq_zero.mpr fun among => others _ among rfl rfl
  refine { state with written := ?_, acked := ?_ }
  · rw [List.filter_append, state.written, List.filter_eq_nil_iff.mpr (by simpa using elsewhere),
      List.append_nil]
  · rw [List.count_append, none, state.acked, Nat.add_zero]

theorem Forall₂_frame {writes stored : List Write} {acks sent : List (Nat × ReadAckStatus)}
    {reads : List PostedRead} {pending : List ReadCtx}
    (all : List.Forall₂ (Assembling writes acks) reads pending)
    (elsewhere : ∀ read ∈ reads, ∀ write ∈ stored, write.psn ≠ read.psn)
    (others : ∀ read ∈ reads, ∀ ack ∈ sent, ack.1 = read.psn → ack.2 ≠ .ok) :
    List.Forall₂ (Assembling (writes ++ stored) (acks ++ sent)) reads pending := by
  induction all with
  | nil => exact .nil
  | cons state _ ih =>
      refine .cons (state.frame (elsewhere _ (List.mem_cons_self ..))
        (others _ (List.mem_cons_self ..))) (ih ?_ ?_)
      · exact fun read among => elsewhere read (List.mem_cons_of_mem _ among)
      · exact fun read among => others read (List.mem_cons_of_mem _ among)

/-! ## The invariant -/

/-- What holds of the requester however the fragments of its reads have arrived. -/
structure Assembled (reads : PostedReads) (q : Requester) : Prop where
  clean : q.badHeader = 0 ∧ q.remoteError = 0 ∧ q.copyError = 0
  parts : ∃ done left, reads.list = done ++ left ∧
    List.Forall₂ (Assembling q.writes q.acks) left q.pendingReads ∧
    (∀ read ∈ done, q.writesFor read.psn = read.stores) ∧
    q.cq = done.filterMap PostedRead.wc
  head : ∀ ctx ∈ q.pendingReads.head?, ctx.ready = false
  acks : ∀ ack ∈ q.acks, ack.2 ≠ .error
  owned : ∀ write ∈ q.writes, ∃ read ∈ reads.list, write.psn = read.psn

theorem assembled_start (reads : PostedReads) : Assembled reads reads.start := by
  refine ⟨⟨rfl, rfl, rfl⟩, ⟨[], reads.list, rfl, ?_, by simp, rfl⟩, ?_, by simp [PostedReads.start],
    by simp [PostedReads.start]⟩
  · change List.Forall₂ _ reads.list (reads.list.map PostedRead.ctx)
    rw [List.forall₂_map_right_iff]
    refine List.forall₂_same.mpr fun read _ => ?_
    have positive : 0 < read.total := read.positive
    exact {
      same := ⟨rfl, rfl, rfl, rfl, rfl, rfl⟩
      aligned := .inr rfl
      within := Nat.zero_le _
      tiled := trivial
      clear := rfl
      bytes := rfl
      written := rfl
      acked := by
        rw [if_neg (by simp [PostedRead.ctx]; omega)]
        rfl
      ready := by simp [PostedRead.ctx]; omega
      status := rfl }
  · intro ctx first
    obtain ⟨read, _, rfl⟩ : ∃ read ∈ reads.list, read.ctx = ctx := by
      have among := List.mem_of_mem_head? first
      simpa [PostedReads.start] using among
    rfl

theorem response_frame (read : PostedRead) {frag : Nat} {frame : RespFrame}
    (taken : read.response[frag]? = some frame) :
    frag * maxPayload < read.total ∧
      frame = responseFrame read.request read.data (frag * maxPayload) := by
  have positive : 0 < read.total := read.positive
  have payload : maxPayload = 4048 := rfl
  rw [PostedRead.response, sendReadResponse_eq read.request read.data positive] at taken
  obtain ⟨inside, rfl⟩ := List.getElem?_eq_some_iff.mp taken
  have count : frag < (read.total + maxPayload - 1) / maxPayload := by
    have := inside
    rw [List.length_map, List.length_range] at this
    exact this
  refine ⟨by simp only [payload] at count ⊢; omega, by simp⟩

theorem responseFrame_payload (read : PostedRead) (offset : Nat) :
    (responseFrame read.request read.data offset).2 = cut read.data offset := by
  have size : read.data.length = read.total := read.snapshot
  change (read.data.drop offset).take (min (read.total - offset) maxPayload) = _
  rw [cut, ← size, ← List.length_drop, Nat.min_comm, ← List.take_eq_take_min]

theorem response_header_good (read : PostedRead) {ctx : ReadCtx} {frag : Nat}
    (total : ctx.totalLen = read.total) (inside : frag * maxPayload < read.total) :
    readRespBadHeader ctx (responseFrame read.request read.data (frag * maxPayload)).1 =
      false := by
  have positive : 0 < read.total := read.positive
  have bounded : read.total ≤ maxMsgSize := read.bounded
  have payload : maxPayload = 4048 := rfl
  have size : maxMsgSize = 16777216 := rfl
  have shape := rxFragmentShape_tile positive bounded inside
  rw [chunkLen, chunkLast] at shape
  obtain ⟨offset, offsetEq⟩ : ∃ offset, offset = frag * maxPayload := ⟨_, rfl⟩
  rw [← offsetEq] at shape inside ⊢
  have last : offset + min (read.total - offset) maxPayload = read.total ↔
      read.total ≤ offset + maxPayload := by
    omega
  have flags : (responseFrame read.request read.data offset).1.flags =
      if read.total ≤ offset + maxPayload then fLast else 0 := by
    change (if offset + min (read.total - offset) maxPayload = read.total then fLast else 0) = _
    simp only [last]
  have lastFlag : hasFlag (responseFrame read.request read.data offset).1.flags fLast =
      decide (read.total ≤ offset + maxPayload) := by
    rw [flags]
    split
    · rename_i isLast
      simp only [isLast, decide_true]
      rfl
    · rename_i notLast
      simp only [notLast, decide_false]
      rfl
  have known : (responseFrame read.request read.data offset).1.flags &&&
      ~~~(fLast ||| fSolicited) = 0 := by
    rw [flags]
    split <;> rfl
  have length : (responseFrame read.request read.data offset).1.length =
      min (read.total - offset) maxPayload := rfl
  have start : (responseFrame read.request read.data offset).1.fragOffset = offset := rfl
  have imm : (responseFrame read.request read.data offset).1.immData = read.total := rfl
  have addr : (responseFrame read.request read.data offset).1.remoteAddr = 0 := rfl
  simp only [readRespBadHeader, addr, imm, total, start, length, known, lastFlag, shape,
    bne_self_eq_false, Bool.false_or, Option.isNone_some, Bool.or_false, Bool.or_eq_false_iff,
    decide_eq_false_iff_not]
  omega

/-! ## One fragment -/

theorem PostedRead.psn_of_mem_stores {read : PostedRead} {write : Write}
    (among : write ∈ read.stores) : write.psn = read.psn := by
  obtain ⟨i, inside, rfl⟩ := List.getElem_of_mem among
  simp [PostedRead.stores, ReadQueue.stores]

/-- What is stored between two prefixes was stored for this read. -/
theorem psn_of_grown {read : PostedRead} {low high : Nat} {stored : List Write}
    (grown : read.stores.take low ++ stored = read.stores.take high) :
    ∀ write ∈ stored, write.psn = read.psn := by
  intro write among
  have inside : write ∈ read.stores.take high := by
    rw [← grown]
    exact List.mem_append_right _ among
  exact read.psn_of_mem_stores (List.mem_of_mem_take inside)

/-- Once the prefix ends behind `low`, nothing is kept before the next cut. -/
theorem Tiled.skip {data : List UInt8} {low len : Nat} {frags : List RespFrag}
    (tiled : Tiled data low frags) (aligned : low % maxPayload = 0) (short : len ≤ maxPayload)
    (clear : ∀ frag ∈ frags, frag.offset ≠ low) : Tiled data (low + len) frags := by
  cases frags with
  | nil => trivial
  | cons head rest =>
      obtain ⟨above, headAligned, others⟩ := tiled
      have apart := clear head (List.mem_cons_self ..)
      have gap := aligned_lt aligned headAligned (by omega)
      exact ⟨by omega, headAligned, others⟩

theorem Assembling.store {writes : List Write} {acks : List (Nat × ReadAckStatus)}
    {read : PostedRead} {ctx : ReadCtx} (state : Assembling writes acks read ctx)
    {offset : Nat} (above : ctx.received < offset) (aligned : offset % maxPayload = 0)
    (inside : offset < read.total) (alloc : Bool) :
    ∃ next err, ctx.storeFrag offset (cut read.data offset) (cut read.data offset).length alloc =
        (next, err) ∧ err ≠ some .eio ∧ Assembling writes acks read next ∧
      next.ready = ctx.ready ∧ next.received = ctx.received ∧
      (∀ frag ∈ ctx.respFrags, frag ∈ next.respFrags) ∧
      (alloc = true → ∃ frag ∈ next.respFrags, frag.offset = offset) := by
  have size : read.data.length = read.total := read.snapshot
  have room := state.tiled.sum_le (by rw [size]; exact state.within)
  unfold ReadCtx.storeFrag
  rw [List.take_length]
  cases found : ctx.findFrag offset with
  | some frag =>
      -- a fragment that is kept already is the same cut again
      have here : frag.offset = offset := by simpa using List.find?_some found
      have same := state.tiled.is_cut (List.mem_of_find?_eq_some found)
      rw [here] at same
      refine ⟨ctx, none, ?_, by simp, state, rfl, rfl, fun _ => id, fun _ => ?_⟩
      · simp [RespFrag.len, same]
      · exact ⟨frag, List.mem_of_find?_eq_some found, here⟩
  | none =>
      have fresh := findFrag_none found
      have tiled := @Tiled.insert _ _ _ state.tiled ⟨offset, cut read.data offset⟩
        (Nat.le_of_lt above) aligned (by rw [size]; exact inside) rfl fresh
      have bounded : read.total ≤ maxMsgSize := read.bounded
      have most : maxMsgSize = 16777216 := rfl
      have sum := sum_insertFrag ⟨offset, cut read.data offset⟩ ctx.respFrags
      have fits := tiled.sum_le (by rw [size]; exact state.within)
      have length : RespFrag.len ⟨offset, cut read.data offset⟩ = (cut read.data offset).length :=
        rfl
      have total := state.same.2.2.1
      have bytes := state.bytes
      simp only
      rw [if_neg (by omega)]
      cases alloc with
      | false => exact ⟨ctx, some .enomem, rfl, by simp, state, rfl, rfl, fun _ => id, by simp⟩
      | true =>
          refine ⟨_, none, rfl, by simp, ?_, rfl, rfl, fun frag among => ?_, fun _ => ?_⟩
          rotate_left
          · exact mem_insertFrag_iff.mpr (.inr among)
          · exact ⟨_, mem_insertFrag_iff.mpr (.inl rfl), rfl⟩
          refine { state with tiled := tiled, clear := ?_, bytes := ?_ }
          · refine List.find?_eq_none.mpr fun frag among => ?_
            rcases mem_insertFrag_iff.mp among with rfl | among
            · simp
              omega
            · simpa using findFrag_none state.clear frag among
          · simp only
            omega

/-- The fragment that follows the prefix, and those kept that follow it. -/
theorem Assembling.grow {writes : List Write} {acks : List (Nat × ReadAckStatus)}
    {read : PostedRead} {ctx : ReadCtx} (state : Assembling writes acks read ctx)
    (inside : ctx.received < read.total) :
    ∃ received frags one two,
      copyToReadSegments ctx ctx.received (cut read.data ctx.received)
        (cut read.data ctx.received).length = (one, true) ∧
      ReadCtx.drainFrags (ctx.respFrags.length + 1)
        { ctx with received := ctx.received + (cut read.data ctx.received).length } =
        some ({ ctx with received := received, respFrags := frags
                         respBufferedBytes := (frags.map RespFrag.len).sum }, two, none) ∧
      read.stores.take ctx.received ++ (one ++ two) = read.stores.take received ∧
      ctx.received < received ∧
      (∀ frag ∈ ctx.respFrags, frag.offset < received ∨ frag ∈ frags) ∧
      ∀ sent (next : ReadCtx), next = { ctx with
            received := received, respFrags := frags
            respBufferedBytes := (frags.map RespFrag.len).sum, ready := next.ready } →
          (next.ready = true ↔ received = read.total) →
          sent.count (read.psn, .ok) = (if received = read.total then 1 else 0) →
        Assembling (writes ++ (one ++ two)) (acks ++ sent) read next := by
  have size : read.data.length = read.total := read.snapshot
  have aligned : ctx.received % maxPayload = 0 := by
    rcases state.aligned with whole | aligned
    · omega
    · exact aligned
  have length : (cut read.data ctx.received).length =
      min (read.total - ctx.received) maxPayload := by
    rw [length_cut, size]
  have copied := copyToReadSegments_eq ctx ctx.received (cut read.data ctx.received) (by
    rw [state.same.2.2.2.1, length]
    change _ ≤ read.total
    omega)
  have fresh := findFrag_none state.clear
  obtain ⟨received, frags, two, drained, more, bounded, aligned', tiled, clear, written, kept⟩ :=
    drainFrags_eq read (ctx.respFrags.length + 1)
      { ctx with received := ctx.received + (cut read.data ctx.received).length }
      ⟨state.same.2.1, state.same.2.2.2.1⟩ (by simp) (by simp only; omega)
      (by
        have next := @aligned_next _ read.total aligned
        rw [← length, show max ctx.received read.total = read.total by omega] at next
        exact next)
      (state.tiled.skip aligned (by omega) fresh) state.bytes
  have first := @stores_grow read ctx.received (cut read.data ctx.received) rfl
  have grown : read.stores.take ctx.received ++
      (stores ctx.psn (((locations ctx.segs).drop ctx.received).take
        (cut read.data ctx.received).length) (cut read.data ctx.received) ++ two) =
      read.stores.take received := by
    rw [← List.append_assoc, state.same.2.1, state.same.2.2.2.1, first]
    exact written
  have some_ : 0 < maxPayload := by decide
  simp only at more kept
  refine ⟨received, frags, _, two, copied, drained, grown, by omega, kept, ?_⟩
  intro sent next nextEq ready others
  have own := psn_of_grown grown
  rw [nextEq]
  exact {
    same := state.same
    aligned := aligned'
    within := bounded
    tiled := tiled
    clear := clear
    bytes := rfl
    written := by
      rw [List.filter_append, state.written, List.filter_eq_self.mpr (by simpa using own)]
      exact grown
    acked := by rw [List.count_append, state.acked, if_neg (by omega), others, Nat.zero_add]
    ready := ready
    status := state.status }

theorem head_of_split {before after : List ReadCtx} {ctx next : ReadCtx}
    (head : ∀ first ∈ (before ++ ctx :: after).head?, first.ready = false)
    (same : next.ready = ctx.ready) :
    ∀ first ∈ (before ++ next :: after).head?, first.ready = false := by
  cases before with
  | nil =>
      have := head ctx (by simp)
      simpa [same] using this
  | cons first rest => simpa using head

theorem done_of_not_found {related : PostedRead → ReadCtx → Prop}
    (same : ∀ {read ctx}, related read ctx → ctx.psn = read.psn)
    {reads : List PostedRead} {pending : List ReadCtx}
    (all : List.Forall₂ related reads pending) {psn : Nat}
    (gone : (pending.find? fun read => read.psn = psn) = none) :
    ∀ read ∈ reads, read.psn ≠ psn := by
  induction all with
  | nil => simp
  | cons holds _ ih =>
      rw [List.find?_cons] at gone
      split at gone
      · cases gone
      · rename_i apart
        intro read among
        rcases List.mem_cons.mp among with rfl | among
        · rw [← same holds]
          simpa using apart
        · exact ih gone read among

theorem psn_apart {before after : List PostedRead} {read : PostedRead}
    (distinct : ((before ++ read :: after).map PostedRead.psn).Nodup) :
    (∀ other ∈ before, other.psn ≠ read.psn) ∧ ∀ other ∈ after, other.psn ≠ read.psn := by
  rw [List.map_append, List.map_cons, List.nodup_append] at distinct
  obtain ⟨_, right, apart⟩ := distinct
  rw [List.nodup_cons] at right
  refine ⟨fun other among same => ?_, fun other among same => ?_⟩
  · exact apart _ (List.mem_map_of_mem among) _ (List.mem_cons_self ..) same
  · exact right.1 (by rw [← same]; exact List.mem_map_of_mem among)

/-- The list after the state of one read, its bytes and its acknowledgements have
changed. -/
theorem forall₂_update {writes stored : List Write} {acks sent : List (Nat × ReadAckStatus)}
    {readsBefore readsAfter : List PostedRead} {before after : List ReadCtx}
    {read : PostedRead} {next : ReadCtx}
    (allBefore : List.Forall₂ (Assembling writes acks) readsBefore before)
    (allAfter : List.Forall₂ (Assembling writes acks) readsAfter after)
    (apart : (∀ other ∈ readsBefore, other.psn ≠ read.psn) ∧
      ∀ other ∈ readsAfter, other.psn ≠ read.psn)
    (own : ∀ write ∈ stored, write.psn = read.psn) (ownAcks : ∀ ack ∈ sent, ack.1 = read.psn)
    (state : Assembling (writes ++ stored) (acks ++ sent) read next) :
    List.Forall₂ (Assembling (writes ++ stored) (acks ++ sent))
      (readsBefore ++ read :: readsAfter) (before ++ next :: after) := by
  refine List.rel_append (Forall₂_frame allBefore ?_ ?_) (.cons state (Forall₂_frame allAfter ?_ ?_))
  · exact fun other among write stored same => apart.1 other among (same ▸ own write stored)
  · exact fun other among ack sent same => absurd (same ▸ ownAcks ack sent) (apart.1 other among)
  · exact fun other among write stored same => apart.2 other among (same ▸ own write stored)
  · exact fun other among ack sent same => absurd (same ▸ ownAcks ack sent) (apart.2 other among)

/-- Where the context of a pending read stands. -/
structure Placed (reads : PostedReads) (q : Requester) (read : PostedRead) (ctx : ReadCtx)
    (done readsBefore readsAfter : List PostedRead) (before after : List ReadCtx) : Prop where
  list : reads.list = done ++ (readsBefore ++ read :: readsAfter)
  pending : q.pendingReads = before ++ ctx :: after
  others : ∀ other ∈ before, other.psn ≠ read.psn
  here : ctx.psn = read.psn
  allBefore : List.Forall₂ (Assembling q.writes q.acks) readsBefore before
  state : Assembling q.writes q.acks read ctx
  allAfter : List.Forall₂ (Assembling q.writes q.acks) readsAfter after
  written : ∀ other ∈ done, q.writesFor other.psn = other.stores
  cq : q.cq = done.filterMap PostedRead.wc
  apart : (∀ other ∈ readsBefore, other.psn ≠ read.psn) ∧
    ∀ other ∈ readsAfter, other.psn ≠ read.psn
  apartDone : ∀ other ∈ done, other.psn ≠ read.psn

theorem Assembled.placed {reads : PostedReads} {q : Requester} (inv : Assembled reads q)
    {read : PostedRead} (posted : read ∈ reads.list) {ctx : ReadCtx}
    (found : q.findRead read.psn = some ctx) :
    ∃ done readsBefore readsAfter before after,
      Placed reads q read ctx done readsBefore readsAfter before after := by
  obtain ⟨done, left, listEq, all, written, cq⟩ := inv.parts
  obtain ⟨readsBefore, one, readsAfter, before, after, leftEq, pendingEq, allBefore, state,
    allAfter, others, here⟩ := find_posted all found
  have isRead : one = read := by
    have among : one ∈ reads.list := by
      rw [listEq, leftEq]
      simp
    exact List.inj_on_of_nodup_map reads.distinct among posted (state.same.2.1.symm.trans here)
  subst isRead
  have distinct := reads.distinct
  rw [listEq, leftEq, ← List.append_assoc] at distinct
  have apart := psn_apart distinct
  exact ⟨done, readsBefore, readsAfter, before, after, {
    list := by rw [listEq, leftEq]
    pending := pendingEq
    others, here, allBefore, state, allAfter, written, cq
    apart := ⟨fun other among => apart.1 other (List.mem_append_right _ among), apart.2⟩
    apartDone := fun other among => apart.1 other (List.mem_append_left _ among) }⟩

section Update
variable {reads : PostedReads} {q : Requester} {read : PostedRead} {ctx next : ReadCtx}
    {done readsBefore readsAfter : List PostedRead} {before after : List ReadCtx}
    {stored : List Write} {sent : List (Nat × ReadAckStatus)}

theorem Placed.written_done
    (place : Placed reads q read ctx done readsBefore readsAfter before after)
    (own : ∀ write ∈ stored, write.psn = read.psn) :
    ∀ other ∈ done, ((q.writes ++ stored).filter fun write => write.psn = other.psn) =
      other.stores := by
  intro other among
  have none : (stored.filter fun write => write.psn = other.psn) = [] := by
    refine List.filter_eq_nil_iff.mpr fun write isStored => ?_
    rw [own write isStored]
    simpa using (place.apartDone other among).symm
  rw [List.filter_append, none, List.append_nil]
  exact place.written other among

theorem Assembled.acks_append (inv : Assembled reads q)
    (fine : ∀ ack ∈ sent, ack.2 ≠ .error) : ∀ ack ∈ q.acks ++ sent, ack.2 ≠ .error := by
  intro ack among
  rcases List.mem_append.mp among with among | among
  · exact inv.acks ack among
  · exact fine ack among

theorem Placed.owned (inv : Assembled reads q)
    (place : Placed reads q read ctx done readsBefore readsAfter before after)
    (own : ∀ write ∈ stored, write.psn = read.psn) :
    ∀ write ∈ q.writes ++ stored, ∃ read ∈ reads.list, write.psn = read.psn := by
  intro write among
  rcases List.mem_append.mp among with among | among
  · exact inv.owned write among
  · exact ⟨read, by rw [place.list]; simp, own write among⟩

/-- The state of one read has changed and it stays on the list. -/
theorem Placed.changed (inv : Assembled reads q)
    (place : Placed reads q read ctx done readsBefore readsAfter before after)
    (own : ∀ write ∈ stored, write.psn = read.psn)
    (ownAcks : ∀ ack ∈ sent, ack.1 = read.psn ∧ ack.2 ≠ .error)
    (state : Assembling (q.writes ++ stored) (q.acks ++ sent) read next)
    (sameReady : next.ready = ctx.ready) :
    Assembled reads { q with
      pendingReads := before ++ next :: after
      writes := q.writes ++ stored
      acks := q.acks ++ sent } := by
  refine ⟨inv.clean, ⟨done, _, place.list, ?_, place.written_done own, place.cq⟩, ?_,
    inv.acks_append fun ack among => (ownAcks ack among).2, place.owned inv own⟩
  · exact forall₂_update place.allBefore place.allAfter place.apart own
      (fun ack among => (ownAcks ack among).1) state
  · exact head_of_split (by rw [← place.pending]; exact inv.head) sameReady

/-- The state of one read has changed, and the ready reads have left the list. -/
theorem Placed.completed (inv : Assembled reads q)
    (place : Placed reads q read ctx done readsBefore readsAfter before after)
    (own : ∀ write ∈ stored, write.psn = read.psn)
    (ownAcks : ∀ ack ∈ sent, ack.1 = read.psn ∧ ack.2 ≠ .error)
    (state : Assembling (q.writes ++ stored) (q.acks ++ sent) read next) :
    Assembled reads { q with
      pendingReads := (before ++ next :: after).dropWhile ReadCtx.ready
      cq := q.cq ++ ((before ++ next :: after).takeWhile ReadCtx.ready).filterMap ReadCtx.wc
      writes := q.writes ++ stored
      acks := q.acks ++ sent } := by
  obtain ⟨more, left, leftEq, stays, wcs, written, head⟩ :=
    ready_split (forall₂_update place.allBefore place.allAfter place.apart own
      (fun ack among => (ownAcks ack among).1) state)
  refine ⟨inv.clean, ⟨done ++ more, left, ?_, stays, ?_, ?_⟩, head,
    inv.acks_append fun ack among => (ownAcks ack among).2, place.owned inv own⟩
  · rw [place.list, leftEq, List.append_assoc]
  · intro other among
    rcases List.mem_append.mp among with among | among
    · exact place.written_done own other among
    · exact written other among
  · simp only
    rw [place.cq, wcs, List.filterMap_append]

end Update

theorem completeAck_split {q : Requester} {before after : List ReadCtx} {ctx : ReadCtx}
    {psn : Nat} (pending : q.pendingReads = before ++ ctx :: after)
    (others : ∀ other ∈ before, other.psn ≠ psn) (here : ctx.psn = psn)
    (notReady : ctx.ready = false) :
    q.completeAck psn none = { q with
      pendingReads := (before ++ { ctx with ready := true, completionStatus := none } ::
        after).dropWhile ReadCtx.ready
      cq := q.cq ++ ((before ++ { ctx with ready := true, completionStatus := none } ::
        after).takeWhile ReadCtx.ready).filterMap ReadCtx.wc
      acks := q.acks ++ [(psn, .ok)] } := by
  unfold Requester.completeAck Requester.completeReadOrdered Requester.findRead
    Requester.sendReadAck
  simp only [pending, find?_split others here, setRead_split others here, notReady,
    Bool.false_eq_true, if_false, if_true]

/-- What the handler does with the fragment of a read at `offset`. -/
inductive Taken (reads : PostedReads) (q : Requester) (read : PostedRead) (offset : Nat)
    (alloc : Bool) : Requester → Prop
  | absent (gone : q.findRead read.psn = none) :
      Taken reads q read offset alloc (q.sendReadAck read.psn .ok)
  | behind {ctx : ReadCtx} (found : q.findRead read.psn = some ctx)
      (below : offset < ctx.received) : Taken reads q read offset alloc q
  | kept {ctx next : ReadCtx} {done readsBefore readsAfter : List PostedRead}
      {before after : List ReadCtx}
      (place : Placed reads q read ctx done readsBefore readsAfter before after)
      (state : Assembling q.writes (q.acks ++ [(read.psn, .retry)]) read next)
      (sameReady : next.ready = ctx.ready) (same : next.received = ctx.received)
      (keeps : ∀ frag ∈ ctx.respFrags, frag ∈ next.respFrags)
      (stored : alloc = true → ∃ frag ∈ next.respFrags, frag.offset = offset) :
      Taken reads q read offset alloc { q with
        pendingReads := before ++ next :: after
        acks := q.acks ++ [(read.psn, .retry)] }
  | grown {ctx next : ReadCtx} {done readsBefore readsAfter : List PostedRead}
      {before after : List ReadCtx} {stored : List Write}
      (place : Placed reads q read ctx done readsBefore readsAfter before after)
      (own : ∀ write ∈ stored, write.psn = read.psn)
      (state : Assembling (q.writes ++ stored) q.acks read next)
      (sameReady : next.ready = ctx.ready) (here : offset = ctx.received)
      (more : ctx.received < next.received)
      (keeps : ∀ frag ∈ ctx.respFrags, frag.offset < next.received ∨ frag ∈ next.respFrags) :
      Taken reads q read offset alloc { q with
        pendingReads := before ++ next :: after
        writes := q.writes ++ stored }
  | whole {ctx next : ReadCtx} {done readsBefore readsAfter : List PostedRead}
      {before after : List ReadCtx} {stored : List Write}
      (place : Placed reads q read ctx done readsBefore readsAfter before after)
      (own : ∀ write ∈ stored, write.psn = read.psn)
      (state : Assembling (q.writes ++ stored) (q.acks ++ [(read.psn, .ok)]) read next)
      (all : next.received = read.total) :
      Taken reads q read offset alloc { q with
        pendingReads := (before ++ next :: after).dropWhile ReadCtx.ready
        cq := q.cq ++ ((before ++ next :: after).takeWhile ReadCtx.ready).filterMap ReadCtx.wc
        writes := q.writes ++ stored
        acks := q.acks ++ [(read.psn, .ok)] }

theorem Assembled.taken {reads : PostedReads} {q : Requester} (inv : Assembled reads q)
    {read : PostedRead} (posted : read ∈ reads.list) {frag : Nat} {frame : RespFrame}
    (framed : read.response[frag]? = some frame) (alloc : Bool) :
    ∃ next, q.handleRdmaReadResp frame alloc = some next ∧
      Taken reads q read (frag * maxPayload) alloc next := by
  obtain ⟨inside, rfl⟩ := response_frame read framed
  have size : read.data.length = read.total := read.snapshot
  have psn : (responseFrame read.request read.data (frag * maxPayload)).1.psn = read.psn := rfl
  have offset : (responseFrame read.request read.data (frag * maxPayload)).1.fragOffset =
      frag * maxPayload := rfl
  have rkey : (responseFrame read.request read.data (frag * maxPayload)).1.rkey = 0 := rfl
  have payload := responseFrame_payload read (frag * maxPayload)
  have length : (responseFrame read.request read.data (frag * maxPayload)).1.length =
      (cut read.data (frag * maxPayload)).length := by
    rw [length_cut, size]
    rfl
  unfold Requester.handleRdmaReadResp
  simp only [psn, rkey, offset, length, payload, ne_eq, not_true_eq_false, if_false]
  cases found : q.findRead read.psn with
  | none => exact ⟨_, rfl, .absent found⟩
  | some ctx =>
      obtain ⟨done, readsBefore, readsAfter, before, after, place⟩ := inv.placed posted found
      have state := place.state
      have good := response_header_good read state.same.2.2.1 inside
      simp only [good, Bool.false_eq_true, if_false]
      by_cases behind : frag * maxPayload < ctx.received
      · rw [if_pos behind]
        exact ⟨q, rfl, .behind found behind⟩
      rw [if_neg behind]
      by_cases early : frag * maxPayload = ctx.received
      · -- the fragment follows the prefix
        rw [if_neg (by simpa using early)]
        rw [early] at inside ⊢
        obtain ⟨received, frags, stored, more, copied, drained, grown, further, keeps, grows⟩ :=
          state.grow inside
        have own := psn_of_grown grown
        have notReady : ctx.ready = false := by
          rw [Bool.eq_false_iff]
          exact fun isReady => absurd (state.ready.mp isReady) (by omega)
        have total := state.same.2.2.1
        simp only [copied, drained, Bool.not_true, Bool.false_eq_true, if_false,
          Requester.setRead, place.pending, setRead_split place.others place.here,
          List.append_assoc]
        by_cases whole : received = ctx.totalLen
        · rw [if_neg (by simpa using whole), @completeAck_split _ before after { ctx with
              received := received, respFrags := frags
              respBufferedBytes := (frags.map RespFrag.len).sum } read.psn rfl place.others
            place.here notReady]
          have next := grows [(read.psn, .ok)] { ctx with
              received := received, respFrags := frags
              respBufferedBytes := (frags.map RespFrag.len).sum, ready := true }
            rfl (by simp [whole, total]) (by simp [whole, total])
          have done := @Taken.whole reads q read ctx.received alloc _ _ _ _ _ _ _ _ place own next
            (whole.trans total)
          rw [state.status] at done
          exact ⟨_, rfl, done⟩
        · rw [if_pos (by simpa using whole)]
          have next := grows [] { ctx with
              received := received, respFrags := frags
              respBufferedBytes := (frags.map RespFrag.len).sum }
            rfl (by simp [notReady, ← total, whole]) (by simp [← total, whole])
          rw [List.append_nil] at next
          exact ⟨_, rfl, .grown place own next rfl rfl further keeps⟩
      · -- the fragment comes early
        rw [if_pos (by simpa using early)]
        obtain ⟨next, err, stored, notIo, state', sameReady, same, keeps, has⟩ :=
          @Assembling.store _ _ _ _ state (frag * maxPayload) (by omega) (Nat.mul_mod_left _ _)
            inside alloc
        have framed := @Assembling.frame _ [] _ [(read.psn, .retry)] _ _ state' (by simp) (by simp)
        rw [List.append_nil] at framed
        refine ⟨_, ?_, .kept place framed sameReady same keeps has⟩
        rw [stored]
        simp only [Requester.setRead, Requester.sendReadAck, place.pending,
          setRead_split place.others place.here]

theorem Taken.assembled {reads : PostedReads} {q next : Requester} {read : PostedRead}
    {offset : Nat} {alloc : Bool} (taken : Taken reads q read offset alloc next)
    (inv : Assembled reads q) : Assembled reads next := by
  cases taken with
  | absent gone =>
      obtain ⟨done, left, listEq, all, written, cq⟩ := inv.parts
      have apart := done_of_not_found (fun state => state.same.2.1) all gone
      refine ⟨inv.clean, ⟨done, left, listEq, ?_, written, cq⟩, inv.head,
        inv.acks_append (by simp), inv.owned⟩
      have := @Forall₂_frame q.writes [] q.acks [(read.psn, .ok)] left q.pendingReads all
        (by simp) (by
          intro other among ack isAck same
          rw [List.mem_singleton.mp isAck] at same
          exact absurd same.symm (apart other among))
      rwa [List.append_nil] at this
  | behind => exact inv
  | kept place state sameReady =>
      have := @Placed.changed _ _ _ _ _ _ _ _ _ _ [] [(read.psn, .retry)] inv place
        (by simp) (by simp) (by rwa [List.append_nil]) sameReady
      rwa [List.append_nil] at this
  | grown place own state sameReady =>
      have := @Placed.changed _ _ _ _ _ _ _ _ _ _ _ [] inv place own (by simp)
        (by rwa [List.append_nil]) sameReady
      rwa [List.append_nil] at this
  | whole place own state => exact place.completed inv own (by simp) state

theorem Assembled.arrival {reads : PostedReads} {q : Requester} (inv : Assembled reads q)
    {read : PostedRead} (posted : read ∈ reads.list) {frag : Nat} {frame : RespFrame}
    (framed : read.response[frag]? = some frame) (alloc : Bool) :
    ∃ next, q.handleRdmaReadResp frame alloc = some next ∧ Assembled reads next := by
  obtain ⟨next, handled, taken⟩ := inv.taken posted framed alloc
  exact ⟨next, handled, taken.assembled inv⟩

/-! ## Every run -/

theorem assembled_of_reaches {reads : PostedReads} {q : Requester}
    (reached : Reaches reads.step (fun _ _ => True) reads.start q) : Assembled reads q := by
  refine reached.invariant (assembled_start reads) fun inv _ taken => ?_
  obtain ⟨frame, framed, handled⟩ := Option.bind_eq_some_iff.mp taken
  obtain ⟨read, posted, among⟩ := Option.bind_eq_some_iff.mp framed
  obtain ⟨next, stepped, keeps⟩ := inv.arrival (List.mem_of_getElem? posted) among _
  rw [stepped] at handled
  cases handled
  exact keeps

/-- The drain loop ends after at most one turn for each fragment kept and one more. -/
theorem drainFrags_terminates (ctx : ReadCtx) (fuel : Nat) (enough : ctx.respFrags.length < fuel) :
    ∃ result, ∀ more, ctx.drainFrags (fuel + more) = some result := by
  induction fuel generalizing ctx with
  | zero => omega
  | succ fuel ih =>
      cases found : ctx.findFrag ctx.received with
      | none => exact ⟨(ctx, [], none), fun more => by
          rw [Nat.succ_add, ReadCtx.drainFrags, found]⟩
      | some frag =>
          cases whole : (copyToReadSegments ctx frag.offset frag.data frag.len).2 with
          | false => exact ⟨(ctx, (copyToReadSegments ctx frag.offset frag.data frag.len).1,
              some .efault), fun more => by
                rw [Nat.succ_add, ReadCtx.drainFrags, found]
                simp [whole]⟩
          | true =>
              have among := List.mem_of_find?_eq_some found
              have here : frag.offset = ctx.received := by simpa using List.find?_some found
              have shorter : (ctx.respFrags.eraseP fun f => f.offset = ctx.received).length =
                  ctx.respFrags.length - 1 :=
                List.length_eraseP_of_mem among (by simpa using here)
              have positive := List.length_pos_of_mem among
              obtain ⟨result, ends⟩ := ih { ctx with
                  received := frag.offset + frag.len
                  respBufferedBytes := ctx.respBufferedBytes - frag.len
                  respFrags := ctx.respFrags.eraseP fun f => f.offset = ctx.received }
                (by simp only; omega)
              refine ⟨(result.1, (copyToReadSegments ctx frag.offset frag.data frag.len).1 ++
                result.2.1, result.2.2), fun more => ?_⟩
              rw [Nat.succ_add, ReadCtx.drainFrags, found]
              simp only [whole, Bool.not_true, Bool.false_eq_true, if_false, ends, Option.map_some]

def Requester.memory (q : Requester) (initial : Nat → UInt8) : Nat → UInt8 :=
  q.writes.foldl (fun memory write => Function.update memory write.addr write.byte) initial

theorem replay_at {writes : List Write} {addr : Nat} {byte : UInt8}
    (agree : ∀ write ∈ writes, write.addr = addr → write.byte = byte)
    {initial : Nat → UInt8} (some_ : initial addr = byte ∨ ∃ write ∈ writes, write.addr = addr) :
    writes.foldl (fun memory write => Function.update memory write.addr write.byte) initial addr =
      byte := by
  induction writes generalizing initial with
  | nil => simpa using some_
  | cons write rest ih =>
      refine ih (fun other among => agree other (List.mem_cons_of_mem _ among)) ?_
      by_cases here : write.addr = addr
      · left
        change Function.update initial write.addr write.byte addr = byte
        rw [here, Function.update_self]
        exact agree write (List.mem_cons_self ..) here
      · change Function.update initial write.addr write.byte addr = byte ∨ _
        rw [Function.update_of_ne (Ne.symm here)]
        rcases some_ with before | ⟨other, among, same⟩
        · exact .inl before
        · rcases List.mem_cons.mp among with rfl | among
          · exact absurd same here
          · exact .inr ⟨other, among, same⟩

theorem gather_eq_map (memory : Nat → UInt8) (segs : List Segment) :
    gather memory segs = (locations segs).map memory := by
  induction segs with
  | nil => rfl
  | cons seg rest ih =>
      change readRange memory seg.addr seg.length ++ gather memory rest =
        (List.range' seg.addr seg.length ++ locations rest).map memory
      rw [ih, List.map_append, readRange, List.range'_eq_map_range, List.map_map]
      rfl

/-- How much of a posted read has come: all of it once it is off the list. -/
def Requester.received (q : Requester) (read : PostedRead) : Nat :=
  (q.findRead read.psn).elim read.total ReadCtx.received

theorem Assembled.writes_eq {reads : PostedReads} {q : Requester} (inv : Assembled reads q)
    {read : PostedRead} (posted : read ∈ reads.list) :
    q.writesFor read.psn = read.stores.take (q.received read) := by
  cases found : q.findRead read.psn with
  | none =>
      obtain ⟨done, left, listEq, all, written, _⟩ := inv.parts
      have apart := done_of_not_found (fun state => state.same.2.1) all found
      rw [listEq] at posted
      have isDone : read ∈ done := by
        rcases List.mem_append.mp posted with isDone | isLeft
        · exact isDone
        · exact absurd rfl (apart read isLeft)
      rw [written read isDone, Requester.received, found, Option.elim_none, ← read.length_stores,
        List.take_length]
  | some ctx =>
      obtain ⟨_, _, _, _, _, place⟩ := inv.placed posted found
      rw [Requester.received, found]
      exact place.state.written

/-- Where no two bytes of the destination share an address, the prefix can be read
back from it. -/
theorem Assembled.read_back {reads : PostedReads} {q : Requester} (inv : Assembled reads q)
    {read : PostedRead} (posted : read ∈ reads.list) (once : (locations read.segs).Nodup)
    (apart : ∀ other ∈ reads.list, other.psn ≠ read.psn →
      List.Disjoint (locations other.segs) (locations read.segs)) (initial : Nat → UInt8) :
    (gather (q.memory initial) read.segs).take (q.received read) =
      read.data.take (q.received read) := by
  have size : read.data.length = read.total := read.snapshot
  have places : (locations read.segs).length = read.total := length_locations read.segs
  rw [gather_eq_map]
  apply List.ext_getElem
  · rw [List.length_take, List.length_take, List.length_map, places, size]
  intro i _ bound
  have inside : i < q.received read ∧ i < read.total := by
    rw [List.length_take, size] at bound
    omega
  rw [List.getElem_take, List.getElem_take, List.getElem_map]
  refine replay_at ?_ (.inr ?_)
  · intro write among same
    obtain ⟨owner, isPosted, ownerPsn⟩ := inv.owned write among
    have stored : write ∈ owner.stores := by
      have : write ∈ q.writesFor owner.psn := by
        simpa [Requester.writesFor, among] using ownerPsn
      rw [inv.writes_eq isPosted] at this
      exact List.mem_of_mem_take this
    obtain ⟨j, _, rfl⟩ := List.getElem_of_mem stored
    simp only [PostedRead.stores, ReadQueue.stores, List.getElem_zipWith] at same ownerPsn ⊢
    by_cases mine : owner.psn = read.psn
    · have isRead := List.inj_on_of_nodup_map reads.distinct isPosted posted mine
      subst isRead
      have index := (List.Nodup.getElem_inj_iff once).mp same
      subst index
      rfl
    · exact absurd (List.getElem_mem _) (same ▸ apart owner isPosted mine (List.getElem_mem _))
  · have short : i < (q.writesFor read.psn).length := by
      rw [inv.writes_eq posted, List.length_take, read.length_stores]
      omega
    refine ⟨(q.writesFor read.psn)[i], List.mem_of_mem_filter (List.getElem_mem short), ?_⟩
    simp only [inv.writes_eq posted, List.getElem_take]
    simp [PostedRead.stores, ReadQueue.stores]

theorem psn_filterMap_wc (reads : List PostedRead) :
    (reads.filterMap PostedRead.wc).map ReadWc.psn =
      (reads.filter PostedRead.signaled).map PostedRead.psn := by
  induction reads with
  | nil => rfl
  | cons read rest ih =>
      cases isSignaled : read.signaled with
      | false => simp [PostedRead.wc, isSignaled, ih]
      | true => simp [PostedRead.wc, isSignaled, ih]

/-- The reassembly of one read, as far as its fragments have come. -/
structure Reassembled (q : Requester) (read : PostedRead) : Prop where
  /-- The bytes stored are the prefix of the snapshot, each once and at its address. -/
  stored : q.writesFor read.psn = read.stores.take (q.received read)
  /-- The fragments kept lie above the prefix and are counted. -/
  kept : ∀ ctx, q.findRead read.psn = some ctx → ctx.received ≤ read.total ∧
    ctx.respBufferedBytes = (ctx.respFrags.map RespFrag.len).sum ∧
    ctx.respBufferedBytes ≤ read.total ∧ ∀ frag ∈ ctx.respFrags, ctx.received < frag.offset
  ready : ∀ ctx, q.findRead read.psn = some ctx →
    (ctx.ready = true ∧ ctx.completionStatus = none ↔ ctx.received = read.total) ∧
    (ctx.ready = true → ctx.completionStatus = none)
  /-- While the read is pending, `READ_ACK` OK is sent once, when it has come whole. -/
  acked : ∀ ctx, q.findRead read.psn = some ctx →
    q.acks.count (read.psn, .ok) = if ctx.received = read.total then 1 else 0
  /-- Pushed only for a read that has come whole, with status 0 and its length. -/
  completion : ∀ wc ∈ q.cq, wc.psn = read.psn →
    wc.status = none ∧ wc.byteLen = read.total ∧ q.received read = read.total

theorem Assembled.reassembled {reads : PostedReads} {q : Requester} (inv : Assembled reads q)
    {read : PostedRead} (posted : read ∈ reads.list) : Reassembled q read := by
  have size : read.data.length = read.total := read.snapshot
  refine ⟨inv.writes_eq posted, ?_, ?_, ?_, ?_⟩
  · intro ctx found
    obtain ⟨_, _, _, _, _, place⟩ := inv.placed posted found
    have state := place.state
    have room := state.tiled.sum_le (by rw [size]; exact state.within)
    refine ⟨state.within, state.bytes, by rw [state.bytes]; omega, fun frag among => ?_⟩
    have above := state.tiled.above among
    have apart := findFrag_none state.clear frag among
    omega
  · intro ctx found
    obtain ⟨_, _, _, _, _, place⟩ := inv.placed posted found
    have state := place.state
    refine ⟨⟨fun both => state.ready.mp both.1, fun whole => ?_⟩, fun _ => state.status⟩
    exact ⟨state.ready.mpr whole, state.status⟩
  · intro ctx found
    obtain ⟨_, _, _, _, _, place⟩ := inv.placed posted found
    exact place.state.acked
  · intro wc among same
    obtain ⟨done, left, listEq, all, _, cq⟩ := inv.parts
    rw [cq] at among
    obtain ⟨other, isDone, isWc⟩ := List.mem_filterMap.mp among
    unfold PostedRead.wc at isWc
    split at isWc
    · cases isWc
      have otherPosted : other ∈ reads.list := by
        rw [listEq]
        exact List.mem_append_left _ isDone
      have isRead := List.inj_on_of_nodup_map reads.distinct otherPosted posted same
      subst isRead
      refine ⟨rfl, rfl, ?_⟩
      cases found : q.findRead other.psn with
      | none => rw [Requester.received, found, Option.elim_none]
      | some ctx =>
          -- a completed read is not on the list: its PSN is not among those left
          obtain ⟨_, one, _, _, _, leftEq, _, _, state, _, _, here⟩ := find_posted all found
          have distinct := reads.distinct
          rw [listEq, List.map_append, List.nodup_append] at distinct
          refine absurd (state.same.2.1.symm.trans here).symm
            (distinct.2.2 _ (List.mem_map_of_mem isDone) _ (List.mem_map_of_mem ?_))
          rw [leftEq]
          simp
    · cases isWc

/-- Whatever response fragments arrive, in any order and any number of times, and
whatever allocations fail: none is rejected, every read is reassembled exactly, none
completes twice, the prefix is what its destination holds, and both the drain loop
and the handler always return. -/
theorem reads_reassembled (reads : PostedReads) {q : Requester}
    (reached : Reaches reads.step (fun _ _ => True) reads.start q) :
    (q.badHeader = 0 ∧ q.remoteError = 0 ∧ q.copyError = 0 ∧ ∀ ack ∈ q.acks, ack.2 ≠ .error) ∧
    (∀ read ∈ reads.list, Reassembled q read) ∧
    (q.cq.map ReadWc.psn).Nodup ∧
    (∀ read ∈ reads.list, (locations read.segs).Nodup →
      (∀ other ∈ reads.list, other.psn ≠ read.psn →
        List.Disjoint (locations other.segs) (locations read.segs)) →
      ∀ initial, (gather (q.memory initial) read.segs).take (q.received read) =
        read.data.take (q.received read)) ∧
    (∀ ctx : ReadCtx, ∃ result, ∀ more,
      ctx.drainFrags (ctx.respFrags.length + 1 + more) = some result) ∧
    ∀ arrival, (reads.frame arrival).isSome → (reads.step q arrival).isSome := by
  have inv := assembled_of_reaches reached
  obtain ⟨bad, remote, copy⟩ := inv.clean
  refine ⟨⟨bad, remote, copy, inv.acks⟩, fun read posted => inv.reassembled posted, ?_,
    fun read posted once apart initial => inv.read_back posted once apart initial,
    fun ctx => drainFrags_terminates ctx _ (Nat.lt_succ_self _), ?_⟩
  · obtain ⟨done, left, listEq, _, _, cq⟩ := inv.parts
    have distinct := reads.distinct
    rw [listEq, List.map_append, List.nodup_append] at distinct
    rw [cq, psn_filterMap_wc]
    exact distinct.1.sublist (List.filter_sublist.map _)
  · intro arrival isFrame
    obtain ⟨frame, framed⟩ := Option.isSome_iff_exists.mp isFrame
    obtain ⟨read, posted, among⟩ := Option.bind_eq_some_iff.mp framed
    obtain ⟨next, stepped, _⟩ := inv.arrival (List.mem_of_getElem? posted) among arrival.alloc
    rw [PostedReads.step, framed, Option.bind_some, stepped]
    rfl

/-- Two reads, the first of three fragments into two segments. -/
def twoReads : PostedReads where
  list :=
    [{ psn := 0, segs := [⟨100, 5000, Nat.succ_pos _⟩, ⟨20000, 3097, Nat.succ_pos _⟩]
       data := (List.range 8097).map .ofNat
       positive := by decide, bounded := by decide
       snapshot := by rw [List.length_map, List.length_range]; rfl },
     { psn := 1, segs := [⟨40000, 1, Nat.zero_lt_one⟩], data := [9]
       positive := by decide, bounded := by decide, snapshot := rfl }]
  distinct := by decide

/-- The second read comes whole first.  Of the first one the last fragment comes twice, and the
middle one finds no memory until it comes again. -/
def scattered : List Arrival :=
  [⟨1, 0, true⟩, ⟨0, 2, true⟩, ⟨0, 2, true⟩, ⟨0, 1, false⟩, ⟨0, 0, true⟩, ⟨0, 1, true⟩,
    ⟨0, 0, true⟩]

/-- The reads complete in their order. -/
theorem reads_reassembled_two :
    ∃ q, Reaches twoReads.step (fun _ _ => True) twoReads.start q ∧
      q.cq = [⟨0, 0, none, 8097⟩, ⟨1, 0, none, 1⟩] ∧ (q.cq.map ReadWc.psn).Nodup ∧
      ∀ read ∈ twoReads.list, Reassembled q read := by
  obtain ⟨q, reached, completed⟩ := @exists_reaches_of_guarded _ _ twoReads.step
    (fun _ _ => True) _ scattered twoReads.start
    (fun q => decide (q.cq = [⟨0, 0, none, 8097⟩, ⟨1, 0, none, 1⟩])) (by decide +kernel)
  have all := reads_reassembled twoReads reached
  exact ⟨q, reached, of_decide_eq_true completed, all.2.2.1, all.2.1⟩

end Tbv.ReadQueue
