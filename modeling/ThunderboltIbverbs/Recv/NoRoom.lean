import ThunderboltIbverbs.Recv.Accounts

/-! # A reorder list without room

What becomes of an operation when `tbv_rx_reorder_store_fragment_locked` finds no room for its
fragment.  The handlers hand a fragment to one of two buffer functions, and these to the store;
`storing` says when, and for which operation. -/
set_option autoImplicit false
namespace Tbv.RecvQueue

open Trans
open Tbv.NativeData

/-- The SEND handler hands the fragment to `tbv_rx_buffer_fragment_locked`. -/
def Rx.buffersSend (q : Rx) (hdr : Header) (psn : Nat) : Bool :=
  if q.cfg.striping then
    (rxFragmentShape hdr.immData hdr.fragOffset hdr.length (hasFlag hdr.flags fLast)).isSome &&
      (decide (0 < psnDelta psn q.expectedPsn) ||
        psnDelta psn q.expectedPsn == 0 && q.rxMsg.isNone && (q.reorderFind psn).isSome)
  else
    match q.rxMsg with
    | some m => !(m.sameMessage hdr psn && m.received == hdr.fragOffset) &&
        decide (0 < psnDelta psn q.expectedPsn)
    | none => (q.reorderFind psn).isSome || psn != q.expectedPsn || hdr.fragOffset != 0

/-- The WRITE handler hands the fragment to `tbv_rx_buffer_write_fragment_locked`. -/
def Rx.buffersWrite (q : Rx) (hdr : Header) (psn : Nat) : Bool :=
  hdr.opcode != .rdmaWriteImm && decide (0 ≤ psnDelta psn q.expectedPsn) &&
    match q.rxWrite with
    | some w =>
        if w.sameWrite hdr psn then decide (w.received < hdr.fragOffset)
        else decide (0 < psnDelta psn q.expectedPsn)
    | none => psn != q.expectedPsn || (q.reorderFind psn).isSome || hdr.fragOffset != 0

/-- The operation a buffer function stores the fragment in, if it comes to that. -/
def Rx.storesInto (q : Rx) (env : Env) (fresh : ReorderMsg) (idx : Nat) : Option ReorderMsg :=
  match q.reorderFind fresh.psn with
  | none => if reorderMaxMessages ≤ q.reorderCount ∨ env.allocMsg = false then none else some fresh
  | some m => if m.sameMessage fresh && decide (idx ∉ m.fragSeen) then some m else none

def freshSend (hdr : Header) (psn count : Nat) : ReorderMsg where
  kind := .send
  srcQp := hdr.srcQp
  psn := psn
  totalLen := hdr.immData
  withImm := hdr.opcode == .sendImm
  immData := if hdr.opcode == .sendImm then hdr.rkey else 0
  fragCount := count

def freshWrite (hdr : Header) (psn count : Nat) : ReorderMsg where
  kind := .write
  srcQp := hdr.srcQp
  psn := psn
  totalLen := hdr.immData
  withImm := false
  immData := 0
  remoteAddr := hdr.remoteAddr
  rkey := hdr.rkey
  fragCount := count

def Rx.storingSend (q : Rx) (env : Env) (hdr : Header) (psn : Nat) : Option ReorderMsg :=
  if sendBadHeader hdr || !q.buffersSend hdr psn then none
  else
    match rxFragmentShape hdr.immData hdr.fragOffset hdr.length (hasFlag hdr.flags fLast) with
    | none => none
    | some (idx, count) => q.storesInto env (freshSend hdr psn count) idx

def Rx.storingWrite (q : Rx) (env : Env) (hdr : Header) (psn : Nat) : Option ReorderMsg :=
  if writeBadHeader q.remoteWrite hdr || !q.buffersWrite hdr psn then none
  else
    match rxWriteFragmentShape hdr.immData hdr.fragOffset hdr.length (hasFlag hdr.flags fLast) with
    | none => none
    | some (idx, count) => q.storesInto env (freshWrite hdr psn count) idx

/-- The operation whose fragment a frame has stored in the reorder list. -/
def Rx.storing (q : Rx) (env : Env) (hdr : Header) : Option ReorderMsg :=
  let psn := hdr.psn % psnMod
  let ahead := psnDelta psn q.expectedPsn
  if !q.validEndpoint hdr || q.rnrSuppresses hdr psn || decide (ahead < 0) ||
      decide ((reorderMaxMessages : Int) ≤ ahead) then none
  else
    match hdr.opcode with
    | .send | .sendImm => q.storingSend env hdr psn
    | .rdmaWrite | .rdmaWriteImm => q.storingWrite env hdr psn
    | _ => none

/-- The operation for which `tbv_rx_reorder_store_fragment_locked` returns `-ENOSPC`. -/
def Rx.noSpaceFor (q : Rx) (env : Env) (hdr : Header) (payload : List UInt8) : Option ReorderMsg :=
  (q.storing env hdr).filter fun m =>
    storeFragment env q.reorderBytes m hdr.fragOffset payload matches .error .noSpace

/-- The operation is off the list, its PSN is not passed, and no error was sent for it. -/
def DropsSilently (q out : Rx) (psn : Nat) : Prop :=
  out.reorderFind psn = none ∧ out.expectedPsn = q.expectedPsn ∧
    ∀ consumed, Entry.ack psn .error consumed ∉ out.log.drop q.log.length

section Full
variable {env : Env} {q : Rx} {hdr : Header} {psn : Nat} {payload : List UInt8}

theorem handleStriped_buffers (striping : q.cfg.striping = true)
    (buffers : q.buffersSend hdr psn = true) : q.handleStriped env hdr psn payload =
      q.bufferFragment env hdr psn hdr.immData hdr.fragOffset (hasFlag hdr.flags fLast) payload := by
  unfold Rx.buffersSend at buffers
  rw [if_pos striping] at buffers
  simp only [Bool.and_eq_true, Bool.or_eq_true, decide_eq_true_eq, beq_iff_eq,
    Option.isNone_iff_eq_none] at buffers
  obtain ⟨shaped, place⟩ := buffers
  obtain ⟨⟨idx, count⟩, shape⟩ := Option.isSome_iff_exists.mp shaped
  unfold Rx.handleStriped
  dsimp only
  rw [shape]
  dsimp only
  have notPast : ¬ psnDelta psn q.expectedPsn < 0 := by omega
  have goes : 0 < psnDelta psn q.expectedPsn ∨ (q.rxMsg = none ∧ (q.reorderFind psn).isSome) := by
    rcases place with later | ⟨⟨-, idle⟩, found⟩
    · exact .inl later
    · exact .inr ⟨idle, found⟩
  rw [if_neg notPast, if_pos goes]

theorem handleOrdered_buffers (ordered : q.cfg.striping = false)
    (buffers : q.buffersSend hdr psn = true) : q.handleOrdered env hdr psn payload =
      q.bufferFragment env hdr psn hdr.immData hdr.fragOffset (hasFlag hdr.flags fLast) payload := by
  unfold Rx.buffersSend at buffers
  rw [if_neg (by simp [ordered])] at buffers
  unfold Rx.handleOrdered
  dsimp only
  cases active : q.rxMsg with
  | some m =>
    rw [active] at buffers
    dsimp only at buffers ⊢
    rw [Bool.and_eq_true, Bool.not_eq_true', decide_eq_true_eq] at buffers
    obtain ⟨other, later⟩ := buffers
    rw [if_neg (by simp [other]), if_neg (by omega), if_pos later]
  | none =>
    rw [active] at buffers
    dsimp only at buffers ⊢
    rw [if_pos buffers]

theorem handleWrite_buffers (buffers : q.buffersWrite hdr psn = true) :
    q.handleWrite env hdr psn payload = q.bufferWriteFragment env hdr psn hdr.immData
      hdr.fragOffset (hasFlag hdr.flags fLast) false payload := by
  unfold Rx.buffersWrite at buffers
  rw [Bool.and_eq_true, Bool.and_eq_true, bne_iff_ne, decide_eq_true_eq] at buffers
  obtain ⟨⟨plain, notPast⟩, place⟩ := buffers
  have goes : q.bufferOrDrop env hdr psn payload = q.bufferWriteFragment env hdr psn hdr.immData
      hdr.fragOffset (hasFlag hdr.flags fLast) false payload := by
    unfold Rx.bufferOrDrop
    rw [if_neg plain]
  rw [← goes]
  unfold Rx.handleWrite
  dsimp only
  rw [if_neg (by omega)]
  cases active : q.rxWrite with
  | some w =>
    rw [active] at place
    dsimp only at place ⊢
    split at place
    · rename_i same
      rw [decide_eq_true_eq] at place
      rw [if_neg (by simp [same]), if_neg (by omega), if_pos place]
    · rename_i other
      rw [decide_eq_true_eq] at place
      rw [if_pos (by simpa using other), if_pos place]
  | none =>
    rw [active] at place
    simp only [Bool.or_eq_true, bne_iff_ne] at place
    dsimp only
    by_cases here : psn = q.expectedPsn
    · rw [if_neg (not_not.mpr here)]
      by_cases found : (q.reorderFind psn).isSome
      · rw [if_pos ⟨plain, found⟩]
      · have offset : hdr.fragOffset ≠ 0 :=
          (place.resolve_left fun first => first.elim (fun differs => differs here) found)
        rw [if_neg fun both => found both.2, if_pos offset, if_neg plain]
    · rw [if_pos here]

theorem bufferInto_full {fresh m : ReorderMsg} {idx offset : Nat}
    (stores : q.storesInto env fresh idx = some m)
    (full : storeFragment env q.reorderBytes m offset payload = .error .noSpace) :
    ∃ reorder reorderCount, ∃ found : ReorderMsg,
      (∀ onError, q.bufferInto env fresh idx offset payload onError =
        onError { q with reorder, reorderCount } .noSpace) ∧
      { q with reorder, reorderCount }.reorderFind fresh.psn = some found := by
  unfold Rx.storesInto at stores
  unfold Rx.bufferInto
  cases found : q.reorderFind fresh.psn with
  | none =>
    rw [found] at stores
    dsimp only at stores
    split at stores
    · cases stores
    rename_i room
    rw [not_or] at room
    cases stores
    refine ⟨q.reorder ++ [fresh], q.reorderCount + 1, fresh, fun onError => ?_, ?_⟩
    · dsimp only
      rw [if_neg room.1, if_neg room.2]
      unfold Rx.storeInto Rx.reorderAdd
      dsimp only
      rw [full]
    · unfold Rx.reorderFind at found ⊢
      rw [List.find?_append, found]
      simp
  | some old =>
    rw [found] at stores
    dsimp only at stores
    split at stores
    · rename_i fits
      rw [Bool.and_eq_true, decide_eq_true_eq] at fits
      cases stores
      refine ⟨q.reorder, q.reorderCount, m, fun onError => ?_, found⟩
      dsimp only
      rw [if_neg (by simp [fits.1]), if_neg fits.2]
      unfold Rx.storeInto
      rw [full]
    · cases stores

theorem psn_of_storesInto {fresh m : ReorderMsg} {idx : Nat}
    (stores : q.storesInto env fresh idx = some m) :
    m.psn = fresh.psn ∧ (m.sameMessage fresh = true ∨ m = fresh) := by
  unfold Rx.storesInto at stores
  split at stores
  · split at stores
    · cases stores
    · cases stores
      exact ⟨rfl, .inr rfl⟩
  · rename_i found
    split at stores
    · rename_i fits
      rw [Bool.and_eq_true] at fits
      cases stores
      exact ⟨reorderFind_psn found, .inl fits.1⟩
    · cases stores

/-- A full list drops a SEND and says nothing. -/
theorem bufferFragment_full {offset : Nat} {last : Bool} {idx count : Nat} {m : ReorderMsg}
    (within : ¬ psnDelta psn q.expectedPsn < 0 ∧
      ¬ (reorderMaxMessages : Int) ≤ psnDelta psn q.expectedPsn)
    (shape : rxFragmentShape hdr.immData offset hdr.length last = some (idx, count))
    (stores : q.storesInto env (freshSend hdr psn count) idx = some m)
    (full : storeFragment env q.reorderBytes m offset payload = .error .noSpace) :
    DropsSilently q (q.bufferFragment env hdr psn hdr.immData offset last payload) psn := by
  obtain ⟨reorder, reorderCount, found, into, finds⟩ := bufferInto_full stores full
  have result : q.bufferFragment env hdr psn hdr.immData offset last payload =
      { q with reorder, reorderCount }.dropReorderMsg found := by
    unfold Rx.bufferFragment
    dsimp only
    rw [if_neg within.1, if_neg within.2, shape]
    refine (into _).trans ?_
    dsimp only [freshSend] at finds
    rw [finds]
    rfl
  rw [result]
  refine ⟨reorderFind_unlink (reorderFind_psn finds), rfl, fun consumed => ?_⟩
  simp [Rx.dropReorderMsg, Rx.reorderUnlink]

theorem bufferWriteFragment_full {offset : Nat} {last : Bool} {idx count : Nat} {m : ReorderMsg}
    (within : ¬ psnDelta psn q.expectedPsn < 0 ∧
      ¬ (reorderMaxMessages : Int) ≤ psnDelta psn q.expectedPsn)
    (shape : rxWriteFragmentShape hdr.immData offset hdr.length last = some (idx, count))
    (stores : q.storesInto env (freshWrite hdr psn count) idx = some m)
    (full : storeFragment env q.reorderBytes m offset payload = .error .noSpace) :
    ¬ DropsSilently q (q.bufferWriteFragment env hdr psn hdr.immData offset last false payload)
      psn := by
  obtain ⟨reorder, reorderCount, found, into, finds⟩ := bufferInto_full stores full
  have result : q.bufferWriteFragment env hdr psn hdr.immData offset last false payload =
      ({ q with reorder, reorderCount }.dropReorderMsg found).sendAck psn .error := by
    unfold Rx.bufferWriteFragment
    dsimp only
    rw [if_neg within.1, if_neg within.2, shape]
    refine (into _).trans ?_
    dsimp only [freshWrite] at finds
    rw [finds]
  rw [result]
  rintro ⟨-, -, silent⟩
  refine silent q.consumed ?_
  simp [Rx.dropReorderMsg, Rx.reorderUnlink, Rx.sendAck, Rx.note]

theorem noSpaceFor_eq_some {m : ReorderMsg} (full : q.noSpaceFor env hdr payload = some m) :
    q.storing env hdr = some m ∧
      storeFragment env q.reorderBytes m hdr.fragOffset payload = .error .noSpace := by
  unfold Rx.noSpaceFor at full
  rw [Option.filter_eq_some_iff] at full
  obtain ⟨stores, fails⟩ := full
  refine ⟨stores, ?_⟩
  split at fails
  · assumption
  · cases fails

theorem kind_of_storesInto {fresh m : ReorderMsg} {idx : Nat}
    (stores : q.storesInto env fresh idx = some m) : m.kind = fresh.kind := by
  rcases (psn_of_storesInto stores).2 with same | rfl
  · have alike : m.empty = fresh.empty := by simpa [ReorderMsg.sameMessage] using same
    have kinds := congrArg ReorderMsg.kind alike
    exact kinds
  · rfl

theorem handleSendFragment_buffers (accepted : sendBadHeader hdr = false)
    (heard : q.rnrSuppresses hdr (hdr.psn % psnMod) = false)
    (buffers : q.buffersSend hdr (hdr.psn % psnMod) = true) :
    ∃ rnr, q.handleSendFragment env hdr payload = { q with rnr }.bufferFragment env hdr
      (hdr.psn % psnMod) hdr.immData hdr.fragOffset (hasFlag hdr.flags fLast) payload := by
  obtain ⟨rnr, cleared⟩ := @clearRnr_same q hdr.srcQp (hdr.psn % psnMod)
  refine ⟨rnr, ?_⟩
  unfold Rx.handleSendFragment
  dsimp only
  rw [if_neg (by simp [accepted]), if_neg (by simp [heard]), cleared]
  split
  · rename_i striping
    exact handleStriped_buffers striping buffers
  · rename_i ordered
    exact handleOrdered_buffers (Bool.not_eq_true _ ▸ ordered) buffers

theorem handleRdmaWriteFragment_buffers (accepted : writeBadHeader q.remoteWrite hdr = false)
    (heard : q.rnrSuppresses hdr (hdr.psn % psnMod) = false)
    (buffers : q.buffersWrite hdr (hdr.psn % psnMod) = true) :
    ∃ rnr, q.handleRdmaWriteFragment env hdr payload = { q with rnr }.bufferWriteFragment env hdr
      (hdr.psn % psnMod) hdr.immData hdr.fragOffset (hasFlag hdr.flags fLast) false payload := by
  obtain ⟨rnr, cleared⟩ := @clearRnr_same q hdr.srcQp (hdr.psn % psnMod)
  refine ⟨rnr, ?_⟩
  unfold Rx.handleRdmaWriteFragment
  dsimp only
  rw [if_neg (by simp [accepted]), if_neg (by simp [heard]), cleared]
  exact handleWrite_buffers buffers

theorem storingSend_full {m : ReorderMsg}
    (within : ¬ psnDelta (hdr.psn % psnMod) q.expectedPsn < 0 ∧
      ¬ (reorderMaxMessages : Int) ≤ psnDelta (hdr.psn % psnMod) q.expectedPsn)
    (heard : q.rnrSuppresses hdr (hdr.psn % psnMod) = false)
    (stores : q.storingSend env hdr (hdr.psn % psnMod) = some m)
    (full : storeFragment env q.reorderBytes m hdr.fragOffset payload = .error .noSpace) :
    m.kind = .send ∧ DropsSilently q (q.handleSendFragment env hdr payload) m.psn := by
  unfold Rx.storingSend at stores
  split at stores
  · cases stores
  rename_i accepted
  simp only [Bool.or_eq_true, Bool.not_eq_true', not_or, Bool.not_eq_false,
    Bool.not_eq_true] at accepted
  split at stores
  · cases stores
  rename_i idx count shape
  obtain ⟨rnr, goes⟩ := @handleSendFragment_buffers env q hdr payload accepted.1 heard accepted.2
  refine ⟨kind_of_storesInto stores, ?_⟩
  rw [goes, (psn_of_storesInto stores).1]
  exact @bufferFragment_full env { q with rnr } hdr _ payload _ _ idx count m within shape stores full

theorem storingWrite_full {m : ReorderMsg}
    (within : ¬ psnDelta (hdr.psn % psnMod) q.expectedPsn < 0 ∧
      ¬ (reorderMaxMessages : Int) ≤ psnDelta (hdr.psn % psnMod) q.expectedPsn)
    (heard : q.rnrSuppresses hdr (hdr.psn % psnMod) = false)
    (stores : q.storingWrite env hdr (hdr.psn % psnMod) = some m)
    (full : storeFragment env q.reorderBytes m hdr.fragOffset payload = .error .noSpace) :
    m.kind = .write ∧ ¬ DropsSilently q (q.handleRdmaWriteFragment env hdr payload) m.psn := by
  unfold Rx.storingWrite at stores
  split at stores
  · cases stores
  rename_i accepted
  simp only [Bool.or_eq_true, Bool.not_eq_true', not_or, Bool.not_eq_false,
    Bool.not_eq_true] at accepted
  split at stores
  · cases stores
  rename_i idx count shape
  obtain ⟨rnr, goes⟩ :=
    @handleRdmaWriteFragment_buffers env q hdr payload accepted.1 heard accepted.2
  refine ⟨kind_of_storesInto stores, ?_⟩
  rw [goes, (psn_of_storesInto stores).1]
  exact @bufferWriteFragment_full env { q with rnr } hdr _ payload _ _ idx count m within shape
    stores full

/-- What a frame does whose fragment finds no room. -/
theorem rxFrame_full {m : ReorderMsg} (full : q.noSpaceFor env hdr payload = some m) :
    DropsSilently q (q.rxFrame env hdr payload) m.psn ↔ m.kind = .send := by
  obtain ⟨stores, full⟩ := noSpaceFor_eq_some full
  unfold Rx.storing at stores
  dsimp only at stores
  split at stores
  · cases stores
  rename_i passes
  simp only [Bool.or_eq_true, Bool.not_eq_true', decide_eq_true_eq, not_or, Bool.not_eq_false,
    Bool.not_eq_true] at passes
  obtain ⟨⟨⟨valid, heard⟩, notPast⟩, within⟩ := passes
  have send (handled : q.rxFrame env hdr payload = q.handleSendFragment env hdr payload)
      (stores : q.storingSend env hdr (hdr.psn % psnMod) = some m) :
      DropsSilently q (q.rxFrame env hdr payload) m.psn ↔ m.kind = .send := by
    obtain ⟨kind, silent⟩ := storingSend_full ⟨notPast, within⟩ heard stores full
    rw [handled]
    exact iff_of_true silent kind
  have write (handled : q.rxFrame env hdr payload = q.handleRdmaWriteFragment env hdr payload)
      (stores : q.storingWrite env hdr (hdr.psn % psnMod) = some m) :
      DropsSilently q (q.rxFrame env hdr payload) m.psn ↔ m.kind = .send := by
    obtain ⟨kind, loud⟩ := storingWrite_full ⟨notPast, within⟩ heard stores full
    rw [handled, kind]
    exact iff_of_false loud (by decide)
  split at stores
  all_goals rename_i opcode
  · exact send (by simp [Rx.rxFrame, opcode, valid]) stores
  · exact send (by simp [Rx.rxFrame, opcode, valid]) stores
  · exact write (by simp [Rx.rxFrame, opcode, valid]) stores
  · exact write (by simp [Rx.rxFrame, opcode, valid]) stores
  · cases stores

end Full

/-- An operation whose fragment finds no room is dropped silently. -/
def DropsFull (q : Rx) (label : Env × Happening) : Prop :=
  match label.2 with
  | .input (.frame hdr payload) => ∀ m, q.noSpaceFor label.1 hdr payload = some m →
      DropsSilently q (q.happen label.1 label.2) m.psn
  | _ => True

/-- An operation whose fragment finds no room is a SEND. -/
def FullOfSend (q : Rx) (label : Env × Happening) : Prop :=
  match label.2 with
  | .input (.frame hdr payload) => ∀ m, q.noSpaceFor label.1 hdr payload = some m → m.kind = .send
  | _ => True

theorem dropsFull_iff (q : Rx) (label : Env × Happening) : DropsFull q label ↔ FullOfSend q label := by
  unfold DropsFull FullOfSend
  split
  · rename_i hdr payload input
    rw [input]
    exact forall₂_congr fun m full => rxFrame_full full
  · exact Iff.rfl

/-- The accounts of the reorder list are exact in every run, and an operation that finds no
room in it is dropped silently just if it is a SEND. -/
theorem reorder_exact_and_drops_iff (cfg : RxConfig) (labels : List (Env × Happening)) :
    (∀ q, Reaches rxStep (fun _ _ => True) (Rx.created cfg) q →
      q.reorderCount = q.reorder.length ∧
      q.reorderBytes = (q.reorder.map ReorderMsg.fragBytes).sum ∧
      q.reorderBytes ≤ reorderMaxBytes) ∧
    (Meets rxStep DropsFull labels (Rx.created cfg) ↔
      Meets rxStep FullOfSend labels (Rx.created cfg)) := by
  constructor
  · intro q reached
    have accounts := (Rx.sound reached).2
    refine ⟨accounts.count, ?_, accounts.capped⟩
    rw [accounts.bytes, List.map_congr_left accounts.held]
  · exact @meets_iff_meets _ _ rxStep DropsFull (fun _ => True) FullOfSend
      (fun {q label} _ => dropsFull_iff q label) (fun _ _ _ => trivial) labels _ trivial

/-! ## Five writes of 16 MiB that arrive without their last fragments -/

namespace Fill

def env : Env where
  allocMsg := true
  allocFrag := true
  cqFull := false
  recvMr := fun _ _ => true
  mr := fun _ => some true
  iova := fun _ _ _ => true
  creditSent := true

def connect : Env × Happening :=
  (env, .modify { state := some .rtr, remoteWrite := some true, destQp := some 2, rqPsn := some 0 })

def payload : List UInt8 := List.replicate 4048 0

def hdr (k j : Nat) : Header where
  opcode := .rdmaWrite
  destQp := 1
  srcQp := 2
  psn := k + 1
  length := 4048
  immData := 16777216
  rkey := 7
  fragOffset := 4048 * j

def frame (k j : Nat) : Env × Happening := (env, .input (.frame (hdr k j) payload))

def ready : Rx := (Rx.created ⟨1, 4, false⟩).happen env connect.2

def held (k n : Nat) : ReorderMsg :=
  { freshWrite (hdr k 0) (k + 1) 4145 with
    fragSeen := List.range n
    fragsReceived := n
    frags := (List.range n).map fun j => ⟨4048 * j, payload⟩
    bufferedBytes := 4048 * n }

/-- The first `k` writes are there without their last fragments, and `n` fragments of the next. -/
def state (k n : Nat) : Rx :=
  { ready with
    reorder := (List.range k).map (held · 4144) ++ if n = 0 then [] else [held k n]
    reorderCount := k + if n = 0 then 0 else 1
    reorderBytes := 4048 * (4144 * k + n) }

theorem not_last : hasFlag 0 fLast = false := by decide

theorem shape {k n : Nat} (inside : n < 4144) :
    rxWriteFragmentShape (hdr k n).immData (hdr k n).fragOffset (hdr k n).length
      (hasFlag (hdr k n).flags fLast) = some (n, 4145) := by
  have last : hasFlag (hdr k n).flags fLast = false := not_last
  have divides : 4048 * n / 4048 = n := by omega
  have front : rxFragmentShape 16777216 (4048 * n) 4048 false = some (n, 4145) := by
    unfold rxFragmentShape fragmentShape maxFrags maxPayload frameSize hdrSize maxMsgSize
    dsimp only
    rw [divides]
    simp
    omega
  rw [last]
  unfold rxWriteFragmentShape
  dsimp only [hdr]
  rw [front]
  rfl

theorem accepted {k n : Nat} (inside : n < 4144) : writeBadHeader true (hdr k n) = false := by
  have last : hasFlag (hdr k n).flags fLast = false := not_last
  have flags : (hdr k n).flags &&& ~~~(fLast ||| fSolicited) = 0 := (by decide :
    (0 : UInt8) &&& ~~~(fLast ||| fSolicited) = 0)
  unfold writeBadHeader
  dsimp only
  rw [last, flags]
  dsimp only [hdr, maxMsgSize]
  simp
  have fits : ¬ 16777216 < 4048 * n + 4048 := by omega
  exact ⟨⟨by omega, decide_eq_false fits⟩, decide_eq_false fits, by omega⟩

theorem ahead {k : Nat} (few : k < 5) : psnDelta (k + 1) 0 = k + 1 := by
  unfold psnDelta psnMod
  dsimp only
  split <;> omega

theorem away {k : Nat} : ∀ m ∈ (List.range k).map (held · 4144), m.psn ≠ k + 1 := by
  rintro m among
  obtain ⟨j, inside, rfl⟩ := List.mem_map.mp among
  have before := List.mem_range.mp inside
  change j + 1 ≠ k + 1
  omega

theorem find_first (k : Nat) : (state k 0).reorderFind (k + 1) = none :=
  List.find?_eq_none.mpr fun m among => by
    simpa using away m (by simpa [state] using among)

theorem find_next (k n : Nat) : (state k (n + 1)).reorderFind (k + 1) = some (held k (n + 1)) := by
  have before : ((List.range k).map (held · 4144)).find? (·.psn == k + 1) = none :=
    List.find?_eq_none.mpr fun m among => by simpa using away m among
  unfold Rx.reorderFind state
  rw [List.find?_append, before]
  simp [held, freshWrite]

theorem stores {k n total : Nat} (room : total + 4048 ≤ reorderMaxBytes) :
    storeFragment env total (held k n) (4048 * n) payload =
      .ok ({ held k n with
        frags := (held k n).frags ++ [⟨4048 * n, payload⟩]
        bufferedBytes := 4048 * n + 4048 }, total + 4048) := by
  have length : payload.length = 4048 := List.length_replicate
  have some : payload ≠ [] := fun empty => by
    rw [empty] at length
    cases length
  have small : reorderMaxBytes < 2 ^ 32 := by decide
  unfold storeFragment
  rw [if_neg some, length, if_neg (by omega), if_neg (by simp [env])]
  rfl

theorem marked (k n : Nat) (inside : n < 4144) :
    ({ held k n with
        frags := (held k n).frags ++ [⟨4048 * n, payload⟩]
        bufferedBytes := 4048 * n + 4048 } : ReorderMsg).mark n = held k (n + 1) := by
  have count : (n + 1 == 4145) = false := by simpa using by omega
  unfold ReorderMsg.mark held
  simp [List.range_succ, freshWrite, count]
  omega

/-- A fragment is stored behind those before it. -/
theorem storeInto_next {k n : Nat} {q : Rx} (inside : n < 4144)
    (room : 4048 * (4144 * k + n + 1) ≤ reorderMaxBytes)
    (onError : Rx → StoreError → Rx)
    (before : q = { ready with
      reorder := (List.range k).map (held · 4144) ++ [held k n]
      reorderCount := k + 1
      reorderBytes := 4048 * (4144 * k + n) }) :
    q.storeInto env (held k n) n (4048 * n) payload onError = state k (n + 1) := by
  subst before
  unfold Rx.storeInto
  dsimp only
  rw [stores (by omega)]
  dsimp only
  rw [marked k n inside]
  have incomplete : (held k (n + 1)).complete = false := rfl
  rw [if_neg (by simp [incomplete])]
  unfold Rx.reorderSet state
  dsimp only
  have kept : ((List.range k).map (held · 4144)).map
      (fun other => if other.psn = (held k (n + 1)).psn then held k (n + 1) else other) =
        (List.range k).map (held · 4144) := by
    refine (List.map_congr_left fun other inside => ?_).trans (List.map_id _)
    exact if_neg (away other inside)
  have bytes : 4048 * (4144 * k + n) + 4048 = 4048 * (4144 * k + (n + 1)) := by omega
  have same : (held k n).psn = (held k (n + 1)).psn := rfl
  rw [List.map_append, kept, bytes, List.map_singleton, if_pos same, if_neg n.succ_ne_zero,
    if_neg n.succ_ne_zero]

theorem buffers {k n : Nat} (few : k < 5) : (state k n).buffersWrite (hdr k n) (k + 1) = true := by
  have distance : psnDelta (k + 1) (state k n).expectedPsn = k + 1 := ahead few
  have idle : (state k n).rxWrite = none := rfl
  have expected : (state k n).expectedPsn = 0 := rfl
  have forward : (0 : Int) ≤ (k : Int) + 1 := by omega
  unfold Rx.buffersWrite
  rw [distance, idle, expected]
  simp [hdr, forward]

theorem handles {k n : Nat} (few : k < 5) (inside : n < 4144) :
    (state k n).happen env (frame k n).2 = (state k n).bufferWriteFragment env (hdr k n) (k + 1)
      (hdr k n).immData (hdr k n).fragOffset (hasFlag (hdr k n).flags fLast) false payload := by
  have psn : (hdr k n).psn % psnMod = k + 1 := Nat.mod_eq_of_lt (by
    change k + 1 < psnMod
    unfold psnMod
    omega)
  have heard : (state k n).rnrSuppresses (hdr k n) (k + 1) = false := rfl
  have unmarked : (state k n).clearRnr (hdr k n).srcQp (k + 1) = state k n := rfl
  have handled : (state k n).happen env (frame k n).2 =
      (state k n).handleRdmaWriteFragment env (hdr k n) payload := by
    have valid : (state k n).validEndpoint (hdr k n) = true := rfl
    have opcode : (hdr k n).opcode = .rdmaWrite := rfl
    change (state k n).rxFrame env (hdr k n) payload = _
    unfold Rx.rxFrame
    rw [opcode]
    dsimp only
    rw [if_pos valid]
  rw [handled]
  unfold Rx.handleRdmaWriteFragment
  dsimp only
  have allowed : (state k n).remoteWrite = true := rfl
  rw [psn, allowed, if_neg (by simp [accepted inside]), if_neg (by simp [heard]), unmarked]
  exact handleWrite_buffers (buffers few)

/-- The operation a fragment is stored in. -/
theorem storesInto_next {k n : Nat} (few : k < 5) :
    (state k n).storesInto env (freshWrite (hdr k n) (k + 1) 4145) n = some (held k n) := by
  have psn : (freshWrite (hdr k n) (k + 1) 4145).psn = k + 1 := rfl
  unfold Rx.storesInto
  rw [psn]
  cases n with
  | zero =>
      have number : (state k 0).reorderCount = k := rfl
      have allocated : env.allocMsg = true := rfl
      rw [find_first, number, allocated]
      dsimp only
      rw [if_neg (by unfold reorderMaxMessages; simp; omega)]
      rfl
  | succ n =>
      have same : (held k (n + 1)).sameMessage (freshWrite (hdr k (n + 1)) (k + 1) 4145) = true :=
        beq_iff_eq.mpr rfl
      have unseen : n + 1 ∉ (held k (n + 1)).fragSeen := by simp [held]
      rw [find_next]
      dsimp only
      rw [if_pos (by simp [same, unseen])]

theorem bufferInto_next {k n : Nat} (few : k < 5) (inside : n < 4144)
    (room : 4048 * (4144 * k + n + 1) ≤ reorderMaxBytes) (onError : Rx → StoreError → Rx) :
    (state k n).bufferInto env (freshWrite (hdr k n) (k + 1) 4145) n (4048 * n) payload onError =
      state k (n + 1) := by
  have psn : (freshWrite (hdr k n) (k + 1) 4145).psn = k + 1 := rfl
  unfold Rx.bufferInto
  rw [psn]
  cases n with
  | zero =>
      have number : (state k 0).reorderCount = k := rfl
      have allocated : env.allocMsg = true := rfl
      have empty : freshWrite (hdr k 0) (k + 1) 4145 = held k 0 := rfl
      rw [find_first, number, allocated, empty]
      dsimp only
      rw [if_neg (by unfold reorderMaxMessages; omega), if_neg (by simp)]
      refine storeInto_next inside room onError ?_
      unfold Rx.reorderAdd state
      simp
  | succ n =>
      have same : (held k (n + 1)).sameMessage (freshWrite (hdr k (n + 1)) (k + 1) 4145) = true :=
        beq_iff_eq.mpr rfl
      have unseen : n + 1 ∉ (held k (n + 1)).fragSeen := by simp [held]
      rw [find_next]
      dsimp only
      rw [if_neg (by simp [same]), if_neg unseen]
      exact storeInto_next inside room onError rfl

theorem step_next {k n : Nat} (few : k < 5) (inside : n < 4144)
    (room : 4048 * (4144 * k + n + 1) ≤ reorderMaxBytes) :
    (state k n).happen env (frame k n).2 = state k (n + 1) := by
  have distance : psnDelta (k + 1) (state k n).expectedPsn = k + 1 := ahead few
  have near : ¬ (reorderMaxMessages : Int) ≤ (k : Int) + 1 := by
    unfold reorderMaxMessages
    omega
  rw [handles few inside]
  unfold Rx.bufferWriteFragment
  dsimp only
  rw [distance, if_neg (by omega), if_neg near, shape inside]
  exact bufferInto_next few inside room _

theorem run_fill {k : Nat} (few : k < 5) (count start : Nat) (inside : start + count ≤ 4144)
    (room : 4048 * (4144 * k + start + count) ≤ reorderMaxBytes) :
    run rxStep ((List.range' start count).map (frame k)) (state k start) =
      some (state k (start + count)) := by
  induction count generalizing start with
  | zero => rfl
  | succ count ih =>
      rw [List.range'_succ, List.map_cons, run]
      have taken : rxStep (state k start) (frame k start) = some (state k (start + 1)) :=
        congrArg some (step_next few (by omega) (by omega))
      rw [taken, Option.bind_some, ih (start + 1) (by omega) (by omega)]
      congr 2
      omega

theorem state_full (k : Nat) : state k 4144 = state (k + 1) 0 := by
  unfold state
  simp [List.range_succ]
  omega

def frames : List (Env × Happening) :=
  connect :: ((List.range' 0 4144).map (frame 0) ++ (List.range' 0 4144).map (frame 1) ++
    (List.range' 0 4144).map (frame 2) ++ (List.range' 0 4144).map (frame 3) ++
    (List.range' 0 2).map (frame 4))

theorem fits {k n : Nat} (within : 4144 * k + n ≤ 16578) : 4048 * (4144 * k + n) ≤ reorderMaxBytes := by
  have cap : reorderMaxBytes = 67108864 := rfl
  omega

theorem run_frames : run rxStep frames (Rx.created ⟨1, 4, false⟩) = some (state 4 2) := by
  have connected : rxStep (Rx.created ⟨1, 4, false⟩) connect = some (state 0 0) := rfl
  have fill : ∀ k, k < 4 → run rxStep ((List.range' 0 4144).map (frame k)) (state k 0) =
      some (state (k + 1) 0) := fun k few => by
    rw [run_fill (by omega) 4144 0 (by omega) (fits (by omega)), ← state_full]
  have last := run_fill (k := 4) (by omega) 2 0 (by omega) (fits (by omega))
  unfold frames
  rw [run, connected, Option.bind_some, run_append, run_append, run_append, run_append,
    fill 0 (by omega), Option.bind_some, fill 1 (by omega), Option.bind_some, fill 2 (by omega),
    Option.bind_some, fill 3 (by omega), Option.bind_some, last]

theorem full : (state 4 2).noSpaceFor env (hdr 4 2) payload = some (held 4 2) := by
  have stored : (state 4 2).storing env (hdr 4 2) = some (held 4 2) := by
    have psn : (hdr 4 2).psn % psnMod = 4 + 1 := rfl
    have distance : psnDelta (4 + 1) (state 4 2).expectedPsn = 4 + 1 := ahead (by omega)
    have valid : (state 4 2).validEndpoint (hdr 4 2) = true := rfl
    have heard : (state 4 2).rnrSuppresses (hdr 4 2) (4 + 1) = false := rfl
    have allowed : (state 4 2).remoteWrite = true := rfl
    have opcode : (hdr 4 2).opcode = .rdmaWrite := rfl
    unfold Rx.storing
    dsimp only
    rw [psn, distance, valid, heard, opcode, if_neg (by decide)]
    dsimp only
    unfold Rx.storingWrite
    rw [allowed, accepted (by omega), buffers (by omega), if_neg (by simp), shape (by omega)]
    exact storesInto_next (by omega)
  have length : payload.length = 4048 := List.length_replicate
  have bytes : (state 4 2).reorderBytes = 67107744 := rfl
  have cap : reorderMaxBytes = 67108864 := rfl
  have fails : storeFragment env (state 4 2).reorderBytes (held 4 2) (hdr 4 2).fragOffset payload =
      .error .noSpace := by
    have some : payload ≠ [] := fun empty => by
      rw [empty] at length
      cases length
    unfold storeFragment
    rw [if_neg some, length, bytes, cap, if_pos (by omega)]
  unfold Rx.noSpaceFor
  rw [stored, Option.filter_some, fails]
  rfl

end Fill

/-- The third fragment of the fifth write finds no room, and the write is answered with an error. -/
theorem write_overflow_is_an_error :
    ¬ Meets rxStep DropsFull (Fill.frames ++ [Fill.frame 4 2]) (Rx.created ⟨1, 4, false⟩) := by
  intro meets
  have drops := (dropsFull_iff _ _).mp (meets.last Fill.run_frames)
  have sent : (Fill.held 4 2).kind = .send := drops (Fill.held 4 2) Fill.full
  cases sent

end Tbv.RecvQueue
