import ThunderboltIbverbs.Send.Wire

/-! # The receiver sees the work request that was posted

The frames of an accepted request in closed form, what is parsed from them, and the one
field that does not say what was posted: every last fragment is solicited. -/
set_option autoImplicit false
namespace Tbv.SendQueue

open Tbv.NativeData

/-! ## The segments of an accepted request -/

theorem prepareSendSegmentsLoop_ok (mrs : UInt32 → Option Mr) (memory : Nat → UInt8)
    {sges : List Sge} {total : Nat} {segs : List Segment} (small : total ≤ maxMsgSize)
    (prepared : prepareSendSegmentsLoop mrs sges total = .ok segs) :
    gather memory segs = gatherSges memory sges ∧ total + totalLen segs ≤ maxMsgSize := by
  induction sges generalizing total segs with
  | nil =>
      cases prepared
      exact ⟨rfl, by simpa [totalLen] using small⟩
  | cons sge rest ih =>
      unfold prepareSendSegmentsLoop at prepared
      split at prepared
      · split at prepared
        · cases prepared
        rename_i fits
        split at prepared
        · cases prepared
        split at prepared
        · cases prepared
        split at prepared
        · cases prepared
        split at prepared
        · cases prepared
        cases later : prepareSendSegmentsLoop mrs rest (total + sge.length.toNat) with
        | error err =>
            rw [later] at prepared
            cases prepared
        | ok tail =>
            rw [later] at prepared
            cases prepared
            obtain ⟨same, bounded⟩ := ih (by omega) later
            refine ⟨?_, ?_⟩
            · change readRange memory _ _ ++ gather memory tail =
                readRange memory _ _ ++ gatherSges memory rest
              rw [same]
            · change total + (sge.length.toNat + totalLen tail) ≤ maxMsgSize
              omega
      · rename_i empty
        have zero : sge.length.toNat = 0 := by omega
        obtain ⟨same, bounded⟩ := ih small prepared
        refine ⟨?_, bounded⟩
        change gather memory segs = readRange memory _ sge.length.toNat ++ gatherSges memory rest
        rw [zero, same]
        rfl

theorem prepareSendSegments_ok {mrs : UInt32 → Option Mr} {wr : IbSendWr} {segs : List Segment}
    (prepared : prepareSendSegments mrs wr = .ok segs) (memory : Nat → UInt8) :
    gather memory segs = gatherSges memory wr.sgList ∧ totalLen segs ≤ maxMsgSize := by
  unfold prepareSendSegments at prepared
  split at prepared
  · cases prepared
  split at prepared
  · cases prepared
  obtain ⟨same, bounded⟩ := prepareSendSegmentsLoop_ok mrs memory (Nat.zero_le _) prepared
  exact ⟨same, by omega⟩

/-- What is known of the context of an accepted request. -/
structure Accepted (qp : PostQp) (wr : IbSendWr) (memory : Nat → UInt8) (ctx : WireCtx) :
    Prop where
  bytes : gather memory ctx.segs = gatherSges memory wr.sgList
  total : ctx.totalLen = totalLen ctx.segs
  bounded : ctx.totalLen ≤ maxMsgSize
  opcode : ctx.opcode = wr.opcode
  imm : wr.opcode.hasImm = true → ctx.immData = wr.immData.toNat
  write : wr.opcode.isWrite = true →
    ctx.remoteAddr = wr.remoteAddr.toNat ∧ ctx.rkey = wr.rkey.toNat
  psn : ctx.psn = qp.sendPsn.toNat % psnMod
  solicited : ctx.solicited = true
  fits : ctx.immData < 2 ^ 32 ∧ ctx.remoteAddr < 2 ^ 64 ∧ ctx.rkey < 2 ^ 32

theorem postSendOne_accepted {qp : PostQp} {mrs : UInt32 → Option Mr} {wr : IbSendWr}
    {ctx : WireCtx} (accepted : postSendOne qp mrs wr = .ok ctx) (memory : Nat → UInt8) :
    Accepted qp wr memory ctx := by
  unfold postSendOne at accepted
  split at accepted
  · cases accepted
  split at accepted
  · cases accepted
  rename_i segs prepared
  split at accepted
  · cases accepted
  cases accepted
  obtain ⟨same, bounded⟩ := prepareSendSegments_ok prepared memory
  have imm := wr.immData.toNat_lt
  have addr := wr.remoteAddr.toNat_lt
  have rkey := wr.rkey.toNat_lt
  have immFits : (if wr.opcode.hasImm then wr.immData.toNat else 0) < 2 ^ 32 := by
    split <;> omega
  unfold fillCtx
  by_cases isWrite : wr.opcode.isWrite = true
  · simp only [if_pos isWrite]
    exact ⟨same, rfl, bounded, rfl, fun has => if_pos has, fun _ => ⟨rfl, rfl⟩, rfl, rfl,
      immFits, addr, rkey⟩
  · rename' isWrite => notWrite
    simp only [if_neg notWrite]
    exact ⟨same, rfl, bounded, rfl, fun has => if_pos has, fun isWrite => absurd isWrite notWrite,
      rfl, rfl, immFits, Nat.two_pow_pos 64, Nat.two_pow_pos 32⟩

/-! ## The frames -/

section Fragments
variable (ctx : WireCtx) (qp : PostQp) (memory : Nat → UInt8)

def WireCtx.pieceLen (offset : Nat) : Nat := min (ctx.totalLen - offset) maxPayload

def WireCtx.header (offset : Nat) : Header :=
  ctx.buildNativeHeader qp offset (ctx.pieceLen offset)
    (offset + ctx.pieceLen offset = ctx.totalLen)

def WireCtx.piece (offset : Nat) : List UInt8 :=
  ((gather memory ctx.segs).drop offset).take (ctx.pieceLen offset)

def WireCtx.fragments : List (Header × List UInt8) :=
  (List.range (fragCount ctx.totalLen)).map fun i =>
    (ctx.header qp (i * maxPayload), ctx.piece memory (i * maxPayload))

end Fragments

section Framed
variable {ctx : WireCtx} {qp : PostQp} {memory : Nat → UInt8}

theorem frame_eq (total : ctx.totalLen = totalLen ctx.segs) {offset : Nat}
    (inside : offset ≤ ctx.totalLen) :
    ctx.frame qp memory offset =
      .ok (headerBytes (ctx.header qp offset) ++ ctx.piece memory offset) := by
  have short : ¬ lengthLimit (ctx.header qp offset).flags < (ctx.header qp offset).length := by
    have most : maxPayload ≤ lengthLimit (ctx.header qp offset).flags := by
      unfold lengthLimit
      split <;> decide
    have : (ctx.header qp offset).length ≤ maxPayload := Nat.min_le_right _ _
    omega
  have built : buildHeader (hdrSize + ctx.pieceLen offset) (ctx.header qp offset) =
      .ok (headerBytes (ctx.header qp offset)) := by
    rw [buildHeader, if_neg (by omega), if_neg short]
  have copied := copySendRange_eq memory ctx.segs offset (ctx.pieceLen offset) (by
    unfold WireCtx.pieceLen
    omega)
  unfold WireCtx.pieceLen at copied
  unfold WireCtx.header WireCtx.pieceLen at built
  unfold WireCtx.frame
  simp only [copied, built]
  rfl

theorem framesLoop_eq (total : ctx.totalLen = totalLen ctx.segs) (fuel start : Nat)
    (inside : start * maxPayload ≤ ctx.totalLen)
    (enough : fragCount ctx.totalLen = start + fuel) (more : 0 < fuel) :
    ctx.framesLoop qp memory fuel (start * maxPayload) =
      .ok ((List.range' start fuel).map fun i =>
        headerBytes (ctx.header qp (i * maxPayload)) ++ ctx.piece memory (i * maxPayload)) := by
  have payload : maxPayload = 4048 := rfl
  induction fuel generalizing start with
  | zero => omega
  | succ fuel ih =>
      rw [WireCtx.framesLoop, frame_eq total inside]
      simp only [List.range'_succ, List.map_cons]
      unfold fragCount at enough
      by_cases next : start * maxPayload + min (ctx.totalLen - start * maxPayload) maxPayload <
          ctx.totalLen
      · have full : min (ctx.totalLen - start * maxPayload) maxPayload = maxPayload := by omega
        have positive : 0 < fuel := by
          rw [full] at next
          simp only [payload] at next enough
          split at enough <;> omega
        rw [if_pos next, full, ← Nat.succ_mul]
        rw [full, ← Nat.succ_mul] at next
        rw [ih (start + 1) (Nat.le_of_lt next) (by unfold fragCount; omega) positive]
        rfl
      · have none : fuel = 0 := by
          simp only [payload] at next enough inside
          split at enough <;> omega
        subst none
        rw [if_neg next]
        rfl

theorem frames_eq (total : ctx.totalLen = totalLen ctx.segs) :
    ctx.frames qp memory =
      .ok ((ctx.fragments qp memory).map fun frag => headerBytes frag.1 ++ frag.2) := by
  have some_ : 0 < fragCount ctx.totalLen := by
    have payload : maxPayload = 4048 := rfl
    unfold fragCount
    simp only [payload]
    split <;> omega
  have loop := @framesLoop_eq ctx qp memory total (fragCount ctx.totalLen) 0 (by omega) (by omega)
    some_
  rw [Nat.zero_mul] at loop
  rw [WireCtx.frames, loop, WireCtx.fragments, List.map_map, List.range_eq_range']
  rfl

/-! ## What is parsed from them -/

variable {wr : IbSendWr}

theorem fragCount_le (bounded : ctx.totalLen ≤ maxMsgSize) {i : Nat}
    (inside : i < fragCount ctx.totalLen) : i * maxPayload ≤ ctx.totalLen ∧
      i * maxPayload < 2 ^ 32 := by
  have payload : maxPayload = 4048 := rfl
  have size : maxMsgSize = 16777216 := rfl
  unfold fragCount at inside
  simp only [payload] at inside ⊢
  split at inside <;> omega

theorem header_fits (accepted : Accepted qp wr memory ctx) {offset : Nat}
    (inside : offset < 2 ^ 32) : (ctx.header qp offset).Fits := by
  have size : maxMsgSize = 16777216 := rfl
  have payload : maxPayload = 4048 := rfl
  have bounded := accepted.bounded
  have psnFits : ctx.psn < 2 ^ 24 := by
    rw [accepted.psn]
    exact Nat.mod_lt _ (Nat.two_pow_pos 24)
  obtain ⟨imm, addr, rkey⟩ := accepted.fits
  have piece : ctx.pieceLen offset ≤ maxPayload := Nat.min_le_right _ _
  constructor
  · exact qp.destQpNum.toNat_lt
  · exact qp.qpNum.toNat_lt
  · exact Nat.lt_trans psnFits (by decide)
  · change ctx.pieceLen offset < 2 ^ 32
    omega
  · simp only [WireCtx.header, WireCtx.buildNativeHeader]
    split
    · omega
    · split <;> omega
  · simp only [WireCtx.header, WireCtx.buildNativeHeader]
    split <;> omega
  · simp only [WireCtx.header, WireCtx.buildNativeHeader]
    split
    · split <;> omega
    · exact rkey
  · exact inside

theorem rxFrame_eq (accepted : Accepted qp wr memory ctx) {offset : Nat}
    (inside : offset < 2 ^ 32) :
    rxFrame (headerBytes (ctx.header qp offset) ++ ctx.piece memory offset) =
      some (ctx.header qp offset, ctx.piece memory offset) := by
  have short : (ctx.header qp offset).length ≤ lengthLimit (ctx.header qp offset).flags := by
    have most : maxPayload ≤ lengthLimit (ctx.header qp offset).flags := by
      unfold lengthLimit
      split <;> decide
    exact Nat.le_trans (Nat.min_le_right _ _) most
  simp only [rxFrame, parseHeader_build (header_fits accepted inside) short, drop_headerBytes]

theorem rxFrames_eq (accepted : Accepted qp wr memory ctx) :
    ((ctx.fragments qp memory).map fun frag => headerBytes frag.1 ++ frag.2).map rxFrame =
      (ctx.fragments qp memory).map some := by
  rw [List.map_map]
  refine List.map_congr_left fun frag among => ?_
  obtain ⟨i, isIndex, rfl⟩ := List.mem_map.mp among
  have inside := (fragCount_le accepted.bounded (List.mem_range.mp isIndex)).2
  simp only [Function.comp_apply, rxFrame_eq accepted inside]

/-- The lengths of the first fragments. -/
theorem sum_pieceLen (ctx : WireCtx) (count : Nat) :
    ((List.range count).map fun i => ctx.pieceLen (i * maxPayload)).sum =
      min ctx.totalLen (count * maxPayload) := by
  induction count with
  | zero => simp
  | succ count ih =>
      rw [List.range_succ, List.map_append, List.sum_append, ih]
      simp only [List.map_cons, List.map_nil, List.sum_cons, List.sum_nil, WireCtx.pieceLen,
        Nat.succ_mul]
      omega

/-- The payloads of the first fragments. -/
theorem flatten_piece (total : ctx.totalLen = totalLen ctx.segs) (count : Nat) :
    ((List.range count).map fun i => ctx.piece memory (i * maxPayload)).flatten =
      (gather memory ctx.segs).take (count * maxPayload) := by
  induction count with
  | zero => simp
  | succ count ih =>
      have size : (gather memory ctx.segs).length = ctx.totalLen := by
        rw [length_gather, total]
      rw [List.range_succ, List.map_append, List.flatten_append, ih, Nat.succ_mul, List.take_add]
      congr 1
      simp only [List.map_cons, List.map_nil, List.flatten_cons, List.flatten_nil, List.append_nil,
        WireCtx.piece, WireCtx.pieceLen]
      rw [Nat.min_comm, ← size, ← List.length_drop, ← List.take_eq_take_min]

theorem fragments_getElem? {i : Nat} {hdr : Header} {payload : List UInt8}
    (at_ : (ctx.fragments qp memory)[i]? = some (hdr, payload)) :
    i < fragCount ctx.totalLen ∧ hdr = ctx.header qp (i * maxPayload) ∧
      payload = ctx.piece memory (i * maxPayload) := by
  obtain ⟨inside, same⟩ := List.getElem?_eq_some_iff.mp at_
  unfold WireCtx.fragments at inside same
  rw [List.getElem_map, List.getElem_range] at same
  rw [List.length_map, List.length_range] at inside
  cases same
  exact ⟨inside, rfl, rfl⟩

theorem length_fragments (ctx : WireCtx) (qp : PostQp) (memory : Nat → UInt8) :
    (ctx.fragments qp memory).length = fragCount ctx.totalLen := by
  rw [WireCtx.fragments, List.length_map, List.length_range]

theorem ends_iff_last {i : Nat} (inside : i < fragCount ctx.totalLen) :
    i * maxPayload + ctx.pieceLen (i * maxPayload) = ctx.totalLen ↔
      i + 1 = fragCount ctx.totalLen := by
  have payload : maxPayload = 4048 := rfl
  unfold fragCount WireCtx.pieceLen at *
  simp only [payload] at *
  split at inside <;> rename_i zero
  · rw [if_pos zero]
    omega
  · rw [if_neg zero]
    omega

/-! ## The request the receiver sees -/

theorem header_last (ctx : WireCtx) (qp : PostQp) {offset : Nat} :
    hasFlag (ctx.header qp offset).flags fLast = true ↔
      offset + ctx.pieceLen offset = ctx.totalLen := by
  simp only [WireCtx.header, WireCtx.buildNativeHeader]
  by_cases ends : offset + ctx.pieceLen offset = ctx.totalLen
  · cases ctx.solicited <;> simp [ends] <;> decide
  · cases ctx.solicited <;> simp [ends] <;> decide

/-- On the last fragment the flag says what `solicited` of the context does. -/
theorem header_solicited (ctx : WireCtx) (qp : PostQp) {offset : Nat}
    (ends : offset + ctx.pieceLen offset = ctx.totalLen) :
    hasFlag (ctx.header qp offset).flags fSolicited = ctx.solicited := by
  simp only [WireCtx.header, WireCtx.buildNativeHeader, ends]
  cases ctx.solicited <;> decide

theorem header_fields (accepted : Accepted qp wr memory ctx) (offset : Nat) :
    (wr.opcode ≠ .rdmaWriteImm →
      rxTotalLen (ctx.header qp offset) = some ctx.totalLen) ∧
    rxImmData (ctx.header qp offset) =
      (if wr.opcode.hasImm then some wr.immData.toNat else none) ∧
    (wr.opcode.isWrite = true → (ctx.header qp offset).remoteAddr = wr.remoteAddr.toNat ∧
      (ctx.header qp offset).rkey = wr.rkey.toNat) := by
  have opcode := accepted.opcode
  have imm := accepted.imm
  have write := accepted.write
  simp only [WireCtx.header, WireCtx.buildNativeHeader, opcode]
  cases isOp : wr.opcode with
  | send => exact ⟨fun _ => rfl, rfl, by simp [SendOp.isWrite]⟩
  | sendImm =>
      rw [isOp] at imm
      exact ⟨fun _ => rfl, congrArg some (imm rfl), by simp [SendOp.isWrite]⟩
  | rdmaWrite =>
      rw [isOp] at write
      exact ⟨fun _ => rfl, rfl, fun _ => write rfl⟩
  | rdmaWriteImm =>
      rw [isOp] at imm write
      exact ⟨fun not => absurd rfl not, congrArg some (imm rfl), fun _ => write rfl⟩

/-- The header is the one the send queue's fragments carry. -/
theorem header_eq_buildNativeHeader (accepted : Accepted qp wr memory ctx) (offset : Nat) :
    ctx.header qp offset =
      buildNativeHeader
        { opcode := ctx.opcode, segs := ctx.segs, immData := ctx.immData
          remoteAddr := ctx.remoteAddr, rkey := ctx.rkey }
        qp.destQpNum.toNat qp.qpNum.toNat ctx.psn offset (ctx.pieceLen offset)
        (offset + ctx.pieceLen offset = ctx.totalLen) := by
  simp only [WireCtx.header, WireCtx.buildNativeHeader, SendQueue.buildNativeHeader,
    accepted.solicited, ← accepted.total, Bool.and_true]
  by_cases ends : offset + ctx.pieceLen offset = ctx.totalLen <;> simp [ends]

/-- Everything the fragments say of the request, and `SOLICITED` as the context has it. -/
theorem delivers_iff (accepted : Accepted qp wr memory ctx) :
    Delivers qp wr memory (ctx.fragments qp memory) ↔
      (qp.type = .rc → (ctx.solicited = true ↔ wr.solicited = true)) := by
  have count := length_fragments ctx qp memory
  have positive : 0 < fragCount ctx.totalLen := by
    have payload : maxPayload = 4048 := rfl
    unfold fragCount
    simp only [payload]
    split <;> omega
  have size : (gatherSges memory wr.sgList).length = ctx.totalLen := by
    rw [← accepted.bytes, length_gather, accepted.total]
  have covers : ctx.totalLen ≤ fragCount ctx.totalLen * maxPayload := by
    have payload : maxPayload = 4048 := rfl
    unfold fragCount
    simp only [payload]
    split <;> omega
  constructor
  · intro delivers isRc
    obtain ⟨last, isLast⟩ : ∃ last, last + 1 = fragCount ctx.totalLen :=
      ⟨fragCount ctx.totalLen - 1, by omega⟩
    have at_ : (ctx.fragments qp memory)[last]? =
        some (ctx.header qp (last * maxPayload), ctx.piece memory (last * maxPayload)) := by
      have inside : last < fragCount ctx.totalLen := by omega
      simp [WireCtx.fragments, List.getElem?_range inside]
    have flag := delivers.solicited isRc last _ _ at_ (by omega)
    rwa [header_solicited ctx qp ((ends_iff_last (by omega)).mpr isLast)] at flag
  · intro flag
    refine ⟨?_, ?_, ?_, ?_, ?_, ?_, ?_⟩
    · rw [← List.length_pos_iff]
      omega
    · intro i hdr payload at_
      obtain ⟨inside, rfl, rfl⟩ := fragments_getElem? at_
      refine ⟨?_, ?_⟩
      · have before : ((ctx.fragments qp memory).take i).map (fun frag => frag.1.length) =
            (List.range i).map fun j => ctx.pieceLen (j * maxPayload) := by
          rw [WireCtx.fragments, ← List.map_take, List.take_range, List.map_map,
            Nat.min_eq_left (Nat.le_of_lt inside)]
          rfl
        rw [before, sum_pieceLen]
        have := (fragCount_le accepted.bounded inside).1
        exact (Nat.min_eq_right this).symm
      · rw [WireCtx.piece, List.length_take, List.length_drop, length_gather, ← accepted.total]
        change ctx.pieceLen (i * maxPayload) = _
        unfold WireCtx.pieceLen
        omega
    · rw [size, WireCtx.fragments, List.map_map]
      have sum := sum_pieceLen ctx (fragCount ctx.totalLen)
      rw [Nat.min_eq_left covers] at sum
      exact sum
    · rw [WireCtx.fragments, List.map_map, ← accepted.bytes]
      have whole := @flatten_piece ctx memory accepted.total (fragCount ctx.totalLen)
      rw [List.take_of_length_le (by rw [length_gather, ← accepted.total]; exact covers)] at whole
      exact whole
    · intro i hdr payload at_
      obtain ⟨inside, rfl, rfl⟩ := fragments_getElem? at_
      rw [header_last, ends_iff_last inside, count]
    · intro hdr payload among
      obtain ⟨i, _, same⟩ := List.mem_map.mp among
      cases same
      rw [size]
      exact ⟨congrArg SendOp.opcode accepted.opcode, rfl, rfl, accepted.psn,
        header_fields accepted _⟩
    · intro isRc i hdr payload at_ isLast
      obtain ⟨inside, rfl, rfl⟩ := fragments_getElem? at_
      rw [count] at isLast
      rw [header_solicited ctx qp ((ends_iff_last inside).mpr isLast)]
      exact flag isRc

end Framed

/-- The framed fragments of an accepted request parse, tile it, carry its bytes and say
what was posted; of the flags, `SOLICITED` does so on an RC QP exactly where the request
was solicited. -/
theorem posted_request_delivered (qp : PostQp) (mrs : UInt32 → Option Mr) (wr : IbSendWr)
    (memory : Nat → UInt8) {ctx : WireCtx} (accepted : postSendOne qp mrs wr = .ok ctx) :
    ∃ frames fragments, ctx.frames qp memory = .ok frames ∧
      frames.map rxFrame = fragments.map some ∧
      (Delivers qp wr memory fragments ↔ (qp.type = .rc → wr.solicited = true)) := by
  have facts := postSendOne_accepted accepted memory
  refine ⟨_, ctx.fragments qp memory, frames_eq facts.total, rxFrames_eq facts, ?_⟩
  rw [delivers_iff facts, facts.solicited]
  simp

def rcQp : PostQp := { type := .rc, qpNum := 0x900, destQpNum := 0x901, sendPsn := 0 }

def emptySend : IbSendWr := { opcode := .send, sgList := [] }

/-- The request is accepted, and its one fragment is solicited although it was not. -/
theorem unsolicited_send_solicited :
    ¬ ∀ (qp : PostQp) (mrs : UInt32 → Option Mr) (wr : IbSendWr) (memory : Nat → UInt8)
      (ctx : WireCtx), postSendOne qp mrs wr = .ok ctx →
        ∃ frames fragments, ctx.frames qp memory = .ok frames ∧
          frames.map rxFrame = fragments.map some ∧ Delivers qp wr memory fragments := by
  intro always
  obtain ⟨frames, fragments, framed, parsed, delivers⟩ :=
    always rcQp (fun _ => none) emptySend (fun _ => 0) _ rfl
  have facts := @postSendOne_accepted rcQp (fun _ => none) emptySend _ rfl fun _ => 0
  have same : fragments = (fillCtx rcQp emptySend []).fragments rcQp fun _ => 0 := by
    rw [frames_eq facts.total] at framed
    cases framed
    rw [rxFrames_eq facts] at parsed
    exact (List.map_injective_iff.mpr (fun _ _ => Option.some.inj) parsed).symm
  rw [same, delivers_iff facts] at delivers
  exact absurd ((delivers rfl).mp rfl) (by decide)

/-- 4049 bytes from two places, written with an immediate. -/
def solicitedWrite : IbSendWr :=
  { opcode := .rdmaWriteImm, sgList := [⟨64, 4000, 1⟩, ⟨8192, 49, 2⟩], immData := 5,
    remoteAddr := 0x10000, rkey := 7, solicited := true }

def solicitedCtx : WireCtx :=
  fillCtx rcQp solicitedWrite [⟨64, 4000, by decide⟩, ⟨8192, 49, by decide⟩]

/-- A solicited write of two fragments is delivered as posted. -/
theorem posted_request_delivered_solicited :
    ∃ frames fragments,
      solicitedCtx.frames rcQp (fun addr => .ofNat addr) = .ok frames ∧ fragments.length = 2 ∧
      frames.map rxFrame = fragments.map some ∧
      Delivers rcQp solicitedWrite (fun addr => .ofNat addr) fragments := by
  have accepted : postSendOne rcQp (fun _ => some ⟨0, 16384, false⟩) solicitedWrite =
      .ok solicitedCtx := rfl
  obtain ⟨frames, fragments, framed, parsed, delivers⟩ := posted_request_delivered rcQp
    (fun _ => some ⟨0, 16384, false⟩) solicitedWrite (fun addr => .ofNat addr) accepted
  have two : fragments.length = 2 := by
    have sizes := congrArg List.length parsed
    rw [frames_eq (postSendOne_accepted accepted fun addr => .ofNat addr).total] at framed
    cases framed
    rw [List.length_map, List.length_map, List.length_map, WireCtx.fragments, List.length_map,
      List.length_range] at sizes
    exact sizes.symm
  exact ⟨frames, fragments, framed, two, parsed, delivers.mpr fun _ => rfl⟩

end Tbv.SendQueue
