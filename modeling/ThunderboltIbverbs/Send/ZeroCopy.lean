import ThunderboltIbverbs.Send.PageStream

/-! # Zero copy sends the bytes the copy would

Three cuts meet in every chunk: the segment, the entry of the scatterlist, the page.  Each of
them is dropped from the front of one list of bytes. -/
set_option autoImplicit false
namespace Tbv.PageStream

open Tbv.NativeData
open Tbv.SendQueue (readRange readRange_drop readRange_take length_readRange)

/-! ## The bytes behind the data structures -/

def SgEntry.bytes (memory : Nat → UInt8) (sg : SgEntry) : List UInt8 :=
  readRange memory (sg.page * pageSize + sg.offset) sg.length

def Umem.bytes (memory : Nat → UInt8) (umem : Umem) : List UInt8 :=
  umem.sgl.flatMap (SgEntry.bytes memory)

def Segment.bytes (memory : Nat → UInt8) (seg : Segment) : List UInt8 :=
  ((seg.mr.umem.bytes memory).drop (seg.mr.umem.offset + (seg.addr - seg.mr.start))).take seg.length

def gather (memory : Nat → UInt8) (segs : List Segment) : List UInt8 :=
  segs.flatMap (Segment.bytes memory)

def Chunk.bytes (memory : Nat → UInt8) (chunk : Chunk) : List UInt8 :=
  readRange memory (chunk.page * pageSize + chunk.pageOff) chunk.length

/-- A chunk the path can map as one page. -/
structure Chunk.InPage (chunk : Chunk) : Prop where
  nonempty : 0 < chunk.length
  frame : chunk.length ≤ frameSize
  page : chunk.pageOff + chunk.length ≤ pageSize

/-- `ib_umem_copy_from` copies what the scatterlist of the umem holds, counted from the start
of the umem. -/
def CopiesUmem (memory : Nat → UInt8) (copyFrom : Umem → Nat → Nat → Option (List UInt8)) : Prop :=
  ∀ umem offset len, offset + len ≤ umem.length →
    copyFrom umem offset len = some (((umem.bytes memory).drop (umem.offset + offset)).take len)

section
variable {memory : Nat → UInt8}

@[simp] theorem length_sgBytes (sg : SgEntry) : (sg.bytes memory).length = sg.length := by
  simp [SgEntry.bytes]

theorem length_umemBytes (umem : Umem) :
    (umem.bytes memory).length = (umem.sgl.map SgEntry.length).sum := by
  simp [Umem.bytes, List.length_flatMap]

theorem Segment.inside (seg : Segment) : seg.addr - seg.mr.start + seg.length ≤ seg.mr.umem.length := by
  have := seg.start_le
  have := seg.end_le
  have := seg.mr.length_le
  omega

@[simp] theorem length_segmentBytes (seg : Segment) : (seg.bytes memory).length = seg.length := by
  have inside := seg.inside
  have covered := seg.mr.umem.covered
  rw [Segment.bytes, List.length_take, List.length_drop, length_umemBytes]
  unfold Umem.offset
  omega

theorem gather_cons (seg : Segment) (segs : List Segment) :
    gather memory (seg :: segs) = seg.bytes memory ++ gather memory segs := rfl

theorem totalLen_cons (seg : Segment) (segs : List Segment) :
    totalLen (seg :: segs) = seg.length + totalLen segs := rfl

theorem Segment.bytes_slice (seg : Segment) {off len : Nat} (within : off + len ≤ seg.length) :
    ((seg.bytes memory).drop off).take len =
      ((seg.mr.umem.bytes memory).drop
        (seg.mr.umem.offset + (seg.addr + off - seg.mr.start))).take len := by
  have start := seg.start_le
  rw [Segment.bytes, List.drop_take, List.take_take, List.drop_drop,
    Nat.min_eq_left (by omega)]
  congr 2
  omega

/-! ## One page -/

/-- Within one entry of the scatterlist the chunk is cut at the end of the page, of the entry
and of what is asked for. -/
theorem pageLoop_spec (sgl : List SgEntry) {offset maxLen : Nat} (asked : 0 < maxLen)
    (inside : offset < (sgl.map SgEntry.length).sum) :
    ∃ chunk, pageLoop maxLen sgl offset = .ok chunk ∧ chunk.InPage ∧ chunk.length ≤ maxLen ∧
      chunk.bytes memory =
        ((sgl.flatMap (SgEntry.bytes memory)).drop offset).take chunk.length := by
  induction sgl generalizing offset with
  | nil => cases inside
  | cons sg rest ih =>
      rw [List.map_cons, List.sum_cons] at inside
      unfold pageLoop
      split
      · rename_i passed
        obtain ⟨chunk, found, inPage, short, bytes⟩ := @ih (offset - sg.length) (by omega)
        refine ⟨chunk, found, inPage, short, ?_⟩
        have gone : (sg.bytes memory).drop offset = [] := by
          rw [List.drop_eq_nil_iff, length_sgBytes]
          exact passed
        rw [bytes, List.flatMap_cons, List.drop_append, gone, length_sgBytes, List.nil_append]
      · rename_i here
        have pageOff : (sg.offset + offset) % pageSize < pageSize := Nat.mod_lt _ (by decide)
        have whole := Nat.div_add_mod (sg.offset + offset) pageSize
        have size : frameSize = pageSize := rfl
        dsimp only
        obtain ⟨len, lenEq⟩ : ∃ len, len = min (min (min (pageSize - (sg.offset + offset) % pageSize)
            (sg.length - offset)) maxLen) frameSize := ⟨_, rfl⟩
        rw [← lenEq, if_neg (by omega)]
        have entry : len ≤ ((sg.bytes memory).drop offset).length := by
          rw [List.length_drop, length_sgBytes]
          omega
        have some : 0 < len := by omega
        have frame : len ≤ frameSize := by omega
        have page : (sg.offset + offset) % pageSize + len ≤ pageSize := by omega
        have short : len ≤ maxLen := by omega
        refine ⟨_, rfl, ⟨some, frame, page⟩, short, ?_⟩
        -- the address in the page is the address in the entry
        have address : (sg.page + (sg.offset + offset) / pageSize) * pageSize +
            (sg.offset + offset) % pageSize = sg.page * pageSize + sg.offset + offset := by
          rw [Nat.add_mul, Nat.mul_comm ((sg.offset + offset) / pageSize)]
          omega
        rw [List.flatMap_cons, List.drop_append_of_le_length (by rw [length_sgBytes]; omega)]
        show readRange memory _ len = List.take len _
        rw [List.take_append_of_le_length entry, SgEntry.bytes, readRange_drop, readRange_take,
          address]
        congr 1
        omega

theorem umemPageFromAddr_spec (seg : Segment) {off maxLen : Nat} (asked : 0 < maxLen)
    (within : off + maxLen ≤ seg.length) :
    ∃ chunk, umemPageFromAddr seg.mr (seg.addr + off) maxLen = .ok chunk ∧ chunk.InPage ∧
      chunk.length ≤ maxLen ∧
      chunk.bytes memory = ((seg.bytes memory).drop off).take chunk.length := by
  have start := seg.start_le
  have end_ := seg.end_le
  have high := seg.mr_end
  have inside := seg.inside
  have covered := seg.mr.umem.covered
  have position : seg.mr.umem.offset + (seg.addr + off) - seg.mr.start =
      seg.mr.umem.offset + (seg.addr + off - seg.mr.start) := by omega
  unfold umemPageFromAddr
  rw [if_neg (by omega), seg.userMr, if_neg (by decide), if_neg (by omega), if_neg (by omega),
    if_neg (by omega), position]
  obtain ⟨chunk, found, inPage, short, bytes⟩ := @pageLoop_spec memory seg.mr.umem.sgl
    (seg.mr.umem.offset + (seg.addr + off - seg.mr.start)) maxLen asked
    (by unfold Umem.offset; omega)
  refine ⟨chunk, found, inPage, short, ?_⟩
  rw [seg.bytes_slice (by omega)]
  exact bytes

/-! ## The stream -/

theorem nextLoop_spec {stream : Stream} (whole : stream.maxChunk = frameSize) (segs : List Segment)
    {skipped : Nat} (reached : skipped ≤ stream.offset)
    (inside : stream.offset < skipped + totalLen segs) (more : stream.offset < stream.totalLen) :
    ∃ chunk, stream.nextLoop segs skipped = .ok (stream.hand chunk, chunk) ∧ chunk.InPage ∧
      stream.offset + chunk.length ≤ stream.totalLen ∧
      chunk.bytes memory =
        ((gather memory segs).drop (stream.offset - skipped)).take chunk.length := by
  induction segs generalizing skipped with
  | nil =>
      have none : totalLen [] = 0 := rfl
      omega
  | cons seg rest ih =>
      rw [totalLen_cons] at inside
      unfold Stream.nextLoop
      split
      · rename_i passed
        obtain ⟨chunk, found, inPage, short, bytes⟩ := ih passed (by omega)
        refine ⟨chunk, found, inPage, short, ?_⟩
        have gone : (seg.bytes memory).drop (stream.offset - skipped) = [] := by
          rw [List.drop_eq_nil_iff, length_segmentBytes]
          omega
        rw [bytes, gather_cons, List.drop_append, gone, List.nil_append, length_segmentBytes]
        congr 2
        omega
      · rename_i here
        have segOff : (if skipped < stream.offset then stream.offset - skipped else 0) =
            stream.offset - skipped := by
          split <;> omega
        have frame : 0 < frameSize := by decide
        dsimp only
        rw [segOff, whole]
        obtain ⟨len, lenEq⟩ : ∃ len, len = min (min (seg.length - (stream.offset - skipped))
            (stream.totalLen - stream.offset)) frameSize := ⟨_, rfl⟩
        rw [← lenEq]
        obtain ⟨chunk, found, inPage, short, bytes⟩ :=
          @umemPageFromAddr_spec memory seg (stream.offset - skipped) len (by omega) (by omega)
        rw [found]
        refine ⟨chunk, rfl, inPage, by omega, ?_⟩
        have entry : chunk.length ≤ ((seg.bytes memory).drop (stream.offset - skipped)).length := by
          rw [List.length_drop, length_segmentBytes]
          omega
        rw [bytes, gather_cons, List.drop_append_of_le_length (by rw [length_segmentBytes]; omega),
          List.take_append_of_le_length entry]

theorem next_spec {stream : Stream} (whole : stream.maxChunk = frameSize)
    (covers : stream.totalLen ≤ totalLen stream.segs) (more : stream.offset < stream.totalLen) :
    ∃ chunk, stream.next = .ok (stream.hand chunk, chunk) ∧ chunk.InPage ∧
      stream.offset + chunk.length ≤ stream.totalLen ∧
      chunk.bytes memory =
        ((gather memory stream.segs).drop stream.offset).take chunk.length :=
  nextLoop_spec whole stream.segs (Nat.zero_le _) (by omega) more

/-- Every call moves on, so the loop ends with the offset at the total. -/
theorem drain_spec (fuel : Nat) {stream : Stream} (whole : stream.maxChunk = frameSize)
    (covers : stream.totalLen ≤ totalLen stream.segs) (begun : stream.offset ≤ stream.totalLen)
    (enough : stream.totalLen - stream.offset ≤ fuel) :
    ∃ last chunks, stream.drain fuel = some (last, chunks) ∧ last.offset = stream.totalLen ∧
      (∀ chunk ∈ chunks, chunk.InPage) ∧ chunks.length ≤ stream.totalLen - stream.offset ∧
      chunks.flatMap (Chunk.bytes memory) = ((gather memory stream.segs).drop stream.offset).take
        (stream.totalLen - stream.offset) := by
  induction fuel generalizing stream with
  | zero =>
      have ended : stream.totalLen ≤ stream.offset := by omega
      refine ⟨stream, [], by rw [Stream.drain, if_pos ended], by omega, nofun, Nat.zero_le _, ?_⟩
      rw [Nat.sub_eq_zero_of_le ended, List.take_zero]
      rfl
  | succ fuel ih =>
      unfold Stream.drain
      split
      · rename_i ended
        refine ⟨stream, [], rfl, by omega, nofun, Nat.zero_le _, ?_⟩
        rw [Nat.sub_eq_zero_of_le ended, List.take_zero]
        rfl
      · rename_i more
        obtain ⟨chunk, taken, inPage, short, bytes⟩ :=
          @next_spec memory stream whole covers (by omega)
        have nonempty := inPage.nonempty
        have offset : (stream.hand chunk).offset = stream.offset + chunk.length := rfl
        have total : (stream.hand chunk).totalLen = stream.totalLen := rfl
        obtain ⟨last, chunks, drained, ended, all, few, rest⟩ :=
          @ih (stream.hand chunk) whole covers (by omega) (by omega)
        refine ⟨last, chunk :: chunks, by simp only [taken, drained, Option.map_some], ended,
          List.forall_mem_cons.mpr ⟨inPage, all⟩, by rw [List.length_cons]; omega, ?_⟩
        have segs : (stream.hand chunk).segs = stream.segs := rfl
        have left : stream.totalLen - stream.offset =
            chunk.length + (stream.totalLen - (stream.offset + chunk.length)) := by omega
        rw [List.flatMap_cons, bytes, rest, segs, offset, total, left, List.take_add,
          List.drop_drop]

/-! ## The copy -/

theorem copySendRangeLoop_spec {copyFrom : Umem → Nat → Nat → Option (List UInt8)}
    (copies : CopiesUmem memory copyFrom) {length : Nat} (segs : List Segment) {copied : Nat}
    (more : copied < length) (inside : length ≤ copied + totalLen segs) :
    copySendRangeLoop copyFrom 0 length segs copied copied =
      some ((gather memory segs).take (length - copied)) := by
  induction segs generalizing copied with
  | nil =>
      have none : totalLen [] = 0 := rfl
      omega
  | cons seg rest ih =>
      have positive := seg.length_pos
      have reach := seg.inside
      have start := seg.start_le
      rw [totalLen_cons] at inside
      unfold copySendRangeLoop
      rw [if_neg (by omega), if_neg (by omega)]
      dsimp only
      rw [Nat.sub_zero, Nat.add_zero, copies _ _ _ (by omega), Option.bind_some]
      have slice := @Segment.bytes_slice memory seg 0 (min seg.length (length - copied)) (by omega)
      rw [Nat.add_zero, List.drop_zero] at slice
      rw [← slice, gather_cons, List.take_append, length_segmentBytes]
      split
      · have last : length - copied - seg.length = 0 := by omega
        rw [Nat.min_eq_right (by omega), last, List.take_zero, List.append_nil]
      · have all : min seg.length (length - copied) = seg.length := by omega
        have rest_ : length - (copied + seg.length) = length - copied - seg.length := by omega
        have entry : (seg.bytes memory).length ≤ length - copied := by
          rw [length_segmentBytes]
          omega
        rw [all, ih (by omega) (by omega), Option.map_some, rest_, List.take_of_length_le entry,
          List.take_of_length_le (Nat.le_of_eq (length_segmentBytes seg))]

theorem copySendRange_spec {copyFrom : Umem → Nat → Nat → Option (List UInt8)}
    (copies : CopiesUmem memory copyFrom) (segs : List Segment) {length : Nat}
    (covers : length ≤ totalLen segs) :
    copySendRange copyFrom segs 0 length = some ((gather memory segs).take length) := by
  unfold copySendRange
  split
  · rename_i empty
    rw [empty, List.take_zero]
  · have copied := @copySendRangeLoop_spec memory copyFrom copies length segs 0 (by omega) (by omega)
    rwa [Nat.sub_zero] at copied

end

/-! ## Both ways -/

def pageStream (segs : List Segment) (total sendTxPending sendRefs : Nat) : Stream :=
  { segs, totalLen := total, sendTxPending, sendRefs }

/-- Until the offset reaches the total every call of `tbv_send_page_stream_next` succeeds, at
most `total` of them are needed, every chunk is a piece of one page, and together they are what
`tbv_copy_send_range` puts into its buffer. -/
theorem zero_copy_sends_copied_bytes (memory : Nat → UInt8)
    (copyFrom : Umem → Nat → Nat → Option (List UInt8)) (copies : CopiesUmem memory copyFrom)
    (segs : List Segment) (total sendTxPending sendRefs : Nat) (covers : total ≤ totalLen segs) :
    ∃ last chunks, (pageStream segs total sendTxPending sendRefs).drain total =
        some (last, chunks) ∧
      last.offset = total ∧ (∀ chunk ∈ chunks, chunk.InPage) ∧ chunks.length ≤ total ∧
      copySendRange copyFrom segs 0 total = some (chunks.flatMap (Chunk.bytes memory)) := by
  obtain ⟨last, chunks, drained, ended, inPage, few, bytes⟩ :=
    @drain_spec memory total (pageStream segs total sendTxPending sendRefs) rfl covers
      (Nat.zero_le _) (Nat.le_refl _)
  refine ⟨last, chunks, drained, ended, inPage, few, ?_⟩
  rw [copySendRange_spec copies segs covers, bytes]
  rfl

/-- A umem that starts 100 bytes before the end of a page, in two entries: the end of page 5 with
page 6, and page 9. -/
def twoEntries : Umem where
  address := 4096 + 3996
  length := 4500
  sgl := [⟨5, 0, 8192⟩, ⟨9, 0, 4096⟩]
  covered := by decide

def acrossEntries : Segment where
  mr := { start := 4096 + 3996, length := 4500, umem := twoEntries, length_le := by decide }
  addr := 4096 + 3996 + 50
  length := 4400
  length_pos := by decide
  userMr := rfl
  start_le := by decide
  end_le := by decide
  mr_end := by decide

/-- The function that copies what the scatterlist holds. -/
def copyUmem (memory : Nat → UInt8) (umem : Umem) (offset len : Nat) : Option (List UInt8) :=
  if offset + len ≤ umem.length then
    some (((umem.bytes memory).drop (umem.offset + offset)).take len)
  else none

theorem zero_copy_sends_copied_bytes_entries :
    ∃ last chunks, (pageStream [acrossEntries] 4400 0 1).drain 4400 = some (last, chunks) ∧
      last.offset = 4400 ∧ (∀ chunk ∈ chunks, chunk.InPage) ∧ chunks.length ≤ 4400 ∧
      copySendRange (copyUmem fun _ => 7) [acrossEntries] 0 4400 =
        some (chunks.flatMap (Chunk.bytes fun _ => 7)) :=
  zero_copy_sends_copied_bytes (fun _ => 7) (copyUmem fun _ => 7)
    (fun _ _ _ inside => if_pos inside) [acrossEntries] 4400 0 1 (by decide)

end Tbv.PageStream
