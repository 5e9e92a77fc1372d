import ThunderboltIbverbs.Memory.Umem

/-! # The segments of a work request

A post looks up the region of every SGE and keeps it for the frames of the request:
`tbv_copy_send_range` gathers their bytes, `tbv_copy_to_read_segments` scatters the bytes of a
READ response.  Both copy through the scatterlist, or byte by byte through the page tables. -/
set_option autoImplicit false
namespace Tbv.Umem

/-- `struct ib_sge`. -/
structure Sge where
  addr : Nat
  length : Nat
  lkey : Nat
  deriving DecidableEq, Repr

/-- `struct tbv_send_segment`, as `tbv_prepare_send_segments` lets it pass, with the key. -/
structure Segment (spaces : Spaces) where
  lkey : Nat
  region : Region spaces
  addr : Nat
  length : Nat
  user : region.mr.dmaMr = false
  above : region.mr.start ≤ addr
  below : addr + length ≤ region.mr.start + region.mr.length

structure ReadSegment (spaces : Spaces) extends Segment spaces where
  writable : region.mr.localWrite = true

/-- What a piece of code has stored, and what it answers. -/
abbrev Outcome := List Store × Except Errno (List UInt8)

def Outcome.of : Except Errno (List Store) → Outcome
  | .ok stores => (stores, .ok [])
  | .error err => ([], .error err)

/-- The two ways to copy: the driver's, and byte by byte through the page tables. -/
structure Copies (spaces : Spaces) where
  copyTo : Region spaces → Nat → List UInt8 → Except Errno (List Store)
  copyToIova : Region spaces → Nat → List UInt8 → Except Errno (List Store)
  copyFrom : (Nat → UInt8) → Segment spaces → Nat → Nat → Except Errno (List UInt8)
  copyFromIova : (Nat → UInt8) → Region spaces → Nat → Nat → Except Errno (List UInt8)

section
variable {spaces : Spaces}

def driver : Copies spaces where
  copyTo region := umemCopyTo region.mr
  copyToIova region := umemCopyToIova region.mr
  copyFrom memory seg segOff :=
    ibUmemCopyFrom memory seg.region.mr.umem (seg.addr + segOff - seg.region.mr.start)
  copyFromIova memory region := umemCopyFromIova memory region.mr

def paged : Copies spaces where
  copyTo region addr bytes :=
    if bytes.length = 0 then .ok []
    else (region.mr.bounds addr bytes.length).map fun _ =>
      (region.places addr bytes.length).zip bytes
  copyToIova region iova bytes :=
    if bytes.length = 0 then .ok []
    else (umemIovaToAddr region.mr iova bytes.length).map fun addr =>
      (region.places addr bytes.length).zip bytes
  copyFrom memory seg segOff len :=
    if seg.region.mr.start + seg.region.mr.length < seg.addr + segOff + len then .error .einval
    else .ok ((seg.region.places (seg.addr + segOff) len).map memory)
  copyFromIova memory region iova len :=
    if len = 0 then .ok []
    else (umemIovaToAddr region.mr iova len).map fun addr => (region.places addr len).map memory

theorem Segment.copyFrom_eq (memory : Nat → UInt8) (seg : Segment spaces) (segOff len : Nat) :
    driver.copyFrom memory seg segOff len = paged.copyFrom memory seg segOff len := by
  have above := seg.above
  have size := seg.region.mr.length_eq seg.user
  simp only [driver, paged]
  by_cases outside :
      seg.region.mr.start + seg.region.mr.length < seg.addr + segOff + len
  · rw [if_pos outside, ibUmemCopyFrom, if_pos (by omega)]
  · rw [if_neg outside, Region.copyFrom_eq memory seg.user (by omega)]
    congr 3
    omega

theorem driver_eq_paged : (driver : Copies spaces) = paged := by
  have copyTo : (driver : Copies spaces).copyTo = paged.copyTo := by
    funext region addr bytes
    by_cases empty : bytes.length = 0
    · simp only [driver, paged, umemCopyTo, if_pos empty]
    · simp only [driver, paged, if_neg empty, Region.copyTo_eq empty]
  have copyToIova : (driver : Copies spaces).copyToIova = paged.copyToIova := by
    funext region iova bytes
    by_cases empty : bytes.length = 0
    · simp only [driver, paged, umemCopyToIova, if_pos empty]
    · simp only [driver, paged, if_neg empty, Region.copyToIova_eq empty]
  have copyFrom : (driver : Copies spaces).copyFrom = paged.copyFrom := by
    funext memory seg segOff len
    exact seg.copyFrom_eq memory segOff len
  have copyFromIova : (driver : Copies spaces).copyFromIova = paged.copyFromIova := by
    funext memory region iova len
    by_cases empty : len = 0
    · simp only [driver, paged, umemCopyFromIova, if_pos empty]
    · simp only [driver, paged, if_neg empty, Region.copyFromIova_eq memory empty]
  calc (driver : Copies spaces)
      = ⟨driver.copyTo, driver.copyToIova, driver.copyFrom, driver.copyFromIova⟩ := rfl
    _ = paged := by rw [copyTo, copyToIova, copyFrom, copyFromIova]

/-! ## The post -/

/-- `total` of the loop. -/
def segmentsLength (segs : List (Segment spaces)) : Nat := (segs.map Segment.length).sum

/-- One turn of the loop of `tbv_prepare_send_segments`; `mr` is what `tbv_mr_get` has found. -/
def prepareSendSegment (maxMsgSize : Nat) (segs : List (Segment spaces)) (sge : Sge)
    (mr : Option (Region spaces)) : Except Errno (List (Segment spaces)) :=
  let total := segmentsLength segs + sge.length
  if sge.length = 0 then .ok segs
  else if 2 ^ 32 ≤ total ∨ maxMsgSize < total then .error .emsgsize
  else if 2 ^ 64 ≤ sge.addr + sge.length then .error .einval
  else
    match mr with
    | none => .error .einval
    | some region =>
        if user : region.mr.dmaMr = true then .error .eopnotsupp
        else if wraps : 2 ^ 64 ≤ region.mr.start + region.mr.length then .error .efault
        else if outside : sge.addr < region.mr.start ∨
            region.mr.start + region.mr.length < sge.addr + sge.length then .error .efault
        else
          .ok (segs ++ [{
            lkey := sge.lkey, region, addr := sge.addr, length := sge.length
            user := by simpa using user
            above := by omega
            below := by omega }])

/-- The end of `tbv_prepare_read_segments`. -/
def readSegments : List (Segment spaces) → Except Errno (List (ReadSegment spaces))
  | [] => .ok []
  | seg :: rest =>
      if writable : seg.region.mr.localWrite = true then
        (readSegments rest).map ({ seg with writable } :: ·)
      else .error .eacces

theorem mem_prepareSendSegment {maxMsgSize : Nat} {segs segs' : List (Segment spaces)} {sge : Sge}
    {mr : Option (Region spaces)} (prepared : prepareSendSegment maxMsgSize segs sge mr = .ok segs')
    {seg : Segment spaces} (among : seg ∈ segs') :
    seg ∈ segs ∨ seg.lkey = sge.lkey ∧ mr = some seg.region := by
  unfold prepareSendSegment at prepared
  dsimp only at prepared
  split at prepared
  · cases prepared
    exact .inl among
  split at prepared
  · cases prepared
  split at prepared
  · cases prepared
  cases mr with
  | none => cases prepared
  | some region =>
      dsimp only at prepared
      split at prepared
      · cases prepared
      split at prepared
      · cases prepared
      split at prepared
      · cases prepared
      cases prepared
      rcases List.mem_append.mp among with old | new
      · exact .inl old
      · rw [List.mem_singleton.mp new]
        exact .inr ⟨rfl, rfl⟩

theorem mem_readSegments {segs : List (Segment spaces)} {reads : List (ReadSegment spaces)}
    (prepared : readSegments segs = .ok reads) {seg : ReadSegment spaces} (among : seg ∈ reads) :
    seg.toSegment ∈ segs := by
  induction segs generalizing reads with
  | nil =>
      cases prepared
      cases among
  | cons first rest ih =>
      unfold readSegments at prepared
      split at prepared
      · cases later : readSegments rest with
        | error err =>
            rw [later] at prepared
            cases prepared
        | ok others =>
            rw [later] at prepared
            cases prepared
            rcases List.mem_cons.mp among with rfl | behind
            · exact List.mem_cons_self ..
            · exact List.mem_cons_of_mem _ (ih later behind)
      · cases prepared

/-! ## The copies -/

/-- The loop of `tbv_copy_send_range`. -/
def copySendRangeLoop (copies : Copies spaces) (memory : Nat → UInt8) (offset : Nat) :
    List (Segment spaces) → Nat → Nat → Except Errno (List UInt8)
  | [], _, _ => .error .efault
  | seg :: rest, skipped, left =>
      if skipped + seg.length ≤ offset then
        copySendRangeLoop copies memory offset rest (skipped + seg.length) left
      else
        let segOff := offset - skipped
        let chunk := min (seg.length - segOff) left
        (copies.copyFrom memory seg segOff chunk).bind fun bytes =>
          if chunk = left then .ok bytes
          else
            (copySendRangeLoop copies memory offset rest (skipped + seg.length) (left - chunk)).map
              (bytes ++ ·)

def copySendRange (copies : Copies spaces) (memory : Nat → UInt8) (segs : List (Segment spaces))
    (offset length : Nat) : Except Errno (List UInt8) :=
  if length = 0 then .ok [] else copySendRangeLoop copies memory offset segs 0 length

/-- The loop of `tbv_copy_to_read_segments`. -/
def copyToReadSegmentsLoop (copies : Copies spaces) (offset : Nat) :
    List (ReadSegment spaces) → Nat → List UInt8 → Outcome
  | [], _, _ => ([], .error .efault)
  | seg :: rest, skipped, payload =>
      if skipped + seg.length ≤ offset then
        copyToReadSegmentsLoop copies offset rest (skipped + seg.length) payload
      else
        let segOff := offset - skipped
        let chunk := min (seg.length - segOff) payload.length
        match copies.copyTo seg.region (seg.addr + segOff) (payload.take chunk) with
        | .error err => ([], .error err)
        | .ok stores =>
            if chunk = payload.length then (stores, .ok [])
            else
              let later :=
                copyToReadSegmentsLoop copies offset rest (skipped + seg.length) (payload.drop chunk)
              (stores ++ later.1, later.2)

def copyToReadSegments (copies : Copies spaces) (segs : List (ReadSegment spaces)) (offset : Nat)
    (payload : List UInt8) : Outcome :=
  if payload.length = 0 then ([], .ok [])
  else copyToReadSegmentsLoop copies offset segs 0 payload

def Segment.Covers (seg : Segment spaces) (place : Nat) : Prop :=
  ∃ addr, seg.addr ≤ addr ∧ addr < seg.addr + seg.length ∧
    place = spaces.place seg.region.process addr

/-- A store through the page tables is at one of its places. -/
theorem mem_zip_places {region : Region spaces} {addr : Nat} {bytes : List UInt8} {store : Store}
    (among : store ∈ (region.places addr bytes.length).zip bytes) :
    ∃ at', addr ≤ at' ∧ at' < addr + bytes.length ∧
      spaces.place region.process at' = store.1 :=
  mem_places.mp (List.of_mem_zip among).1

theorem copyTo_inside {region : Region spaces} {addr : Nat} {bytes : List UInt8}
    {stores : List Store} {store : Store} (done : paged.copyTo region addr bytes = .ok stores)
    (among : store ∈ stores) :
    ∃ at', addr ≤ at' ∧ at' < addr + bytes.length ∧ region.mr.start ≤ at' ∧
      at' < region.mr.start + region.mr.length ∧ spaces.place region.process at' = store.1 := by
  simp only [paged] at done
  split at done
  · cases done
    cases among
  · cases checked : region.mr.bounds addr bytes.length with
    | error err =>
        rw [checked] at done
        cases done
    | ok _ =>
        rw [checked] at done
        cases done
        obtain ⟨byte, low, high, place⟩ := mem_zip_places among
        obtain ⟨above, below⟩ := Region.of_bounds checked
        exact ⟨byte, low, high, by omega, by omega, place⟩

theorem copyToReadSegmentsLoop_inside {offset skipped : Nat} {segs : List (ReadSegment spaces)}
    {payload : List UInt8} {store : Store}
    (among : store ∈ (copyToReadSegmentsLoop paged offset segs skipped payload).1) :
    ∃ seg ∈ segs, seg.Covers store.1 := by
  induction segs generalizing skipped payload with
  | nil => cases among
  | cons seg rest ih =>
      unfold copyToReadSegmentsLoop at among
      split at among
      · obtain ⟨later, inside, covers⟩ := ih among
        exact ⟨later, List.mem_cons_of_mem _ inside, covers⟩
      · dsimp only at among
        cases done : paged.copyTo seg.region (seg.addr + (offset - skipped))
            (payload.take (min (seg.length - (offset - skipped)) payload.length)) with
        | error err =>
            rw [done] at among
            cases among
        | ok stores =>
            have here : store ∈ stores → ∃ seg' ∈ seg :: rest, seg'.Covers store.1 := fun mine => by
              obtain ⟨addr, low, high, -, -, place⟩ := copyTo_inside done mine
              rw [List.length_take] at high
              exact ⟨seg, List.mem_cons_self .., addr, by omega, by omega, place.symm⟩
            rw [done] at among
            dsimp only at among
            split at among
            · exact here among
            · rcases List.mem_append.mp among with mine | theirs
              · exact here mine
              · obtain ⟨later, inside, covers⟩ := ih theirs
                exact ⟨later, List.mem_cons_of_mem _ inside, covers⟩

theorem copyToReadSegments_inside {offset : Nat} {segs : List (ReadSegment spaces)}
    {payload : List UInt8} {store : Store}
    (among : store ∈ (copyToReadSegments paged segs offset payload).1) :
    ∃ seg ∈ segs, seg.Covers store.1 := by
  unfold copyToReadSegments at among
  split at among
  · cases among
  · exact copyToReadSegmentsLoop_inside among

end

end Tbv.Umem
