import ThunderboltIbverbs.Send.Frames

/-! # The pages of a zero-copy send

A WRITE that is sent without a copy hands the path one page fragment after another
(`tbv_send_page_stream_next`); a framed one copies its segments (`tbv_copy_send_range`).  Both
read the scatterlist of the umem behind each MR.  Memory is physical here: byte `i` of the page
with frame number `n` has the address `n * 4096 + i`. -/
set_option autoImplicit false
namespace Tbv.PageStream

open Tbv.NativeData
open Tbv.SendQueue (readRange readRange_drop readRange_take length_readRange)

def einval : Int := -22
def efault : Int := -14
def eopnotsupp : Int := -95

def pageSize : Nat := 4096

/-- `struct scatterlist`; `page` is the frame number of `sg_page`. -/
structure SgEntry where
  page : Nat
  offset : Nat
  length : Nat
  deriving DecidableEq, Repr

/-- `struct ib_umem`.  Its scatterlist covers it, from `ib_umem_offset` on. -/
structure Umem where
  address : Nat
  length : Nat
  sgl : List SgEntry
  covered : address % pageSize + length ≤ (sgl.map SgEntry.length).sum
  deriving DecidableEq, Repr

def Umem.offset (umem : Umem) : Nat := umem.address % pageSize

/-- `struct tbv_mr`. -/
structure Mr where
  start : Nat
  length : Nat
  umem : Umem
  dmaMr : Bool := false
  length_le : length ≤ umem.length
  deriving DecidableEq, Repr

/-- `struct tbv_send_segment`, as `tbv_prepare_send_segments` lets it pass. -/
structure Segment where
  mr : Mr
  addr : Nat
  length : Nat
  length_pos : 0 < length
  userMr : mr.dmaMr = false
  start_le : mr.start ≤ addr
  end_le : addr + length ≤ mr.start + mr.length
  mr_end : mr.start + mr.length < 2 ^ 64
  deriving Repr

def totalLen (segs : List Segment) : Nat := (segs.map Segment.length).sum

/-! ## The copy -/

/-- The loop of `tbv_copy_send_range`; `copyFrom` is `ib_umem_copy_from`, `none` an error. -/
def copySendRangeLoop (copyFrom : Umem → Nat → Nat → Option (List UInt8)) (offset length : Nat) :
    List Segment → Nat → Nat → Option (List UInt8)
  | [], _, _ => none
  | seg :: rest, skipped, copied =>
      if skipped + seg.length ≤ offset then
        copySendRangeLoop copyFrom offset length rest (skipped + seg.length) copied
      else
        let segOff := if skipped < offset then offset - skipped else 0
        let chunk := min (seg.length - segOff) (length - copied)
        (copyFrom seg.mr.umem (seg.addr + segOff - seg.mr.start) chunk).bind fun bytes =>
          if copied + chunk = length then some bytes
          else
            (copySendRangeLoop copyFrom offset length rest (skipped + seg.length)
              (copied + chunk)).map (bytes ++ ·)

def copySendRange (copyFrom : Umem → Nat → Nat → Option (List UInt8)) (segs : List Segment)
    (offset length : Nat) : Option (List UInt8) :=
  if length = 0 then some [] else copySendRangeLoop copyFrom offset length segs 0 0

/-! ## The pages -/

/-- A piece of a page: what `tbv_umem_page_from_addr` stores through its three pointers. -/
structure Chunk where
  page : Nat
  pageOff : Nat
  length : Nat
  deriving DecidableEq, Repr

/-- The loop over the scatterlist of `tbv_umem_page_from_addr`. -/
def pageLoop (maxLen : Nat) : List SgEntry → Nat → Except Int Chunk
  | [], _ => .error efault
  | sg :: rest, offset =>
      if sg.length ≤ offset then pageLoop maxLen rest (offset - sg.length)
      else
        let segOff := sg.offset + offset
        let pageOff := segOff % pageSize
        let chunk := min (min (min (pageSize - pageOff) (sg.length - offset)) maxLen) frameSize
        if chunk = 0 then .error efault
        else .ok { page := sg.page + segOff / pageSize, pageOff, length := chunk }

def umemPageFromAddr (mr : Mr) (addr maxLen : Nat) : Except Int Chunk :=
  if maxLen = 0 then .error einval
  else if mr.dmaMr then .error eopnotsupp
  else if 2 ^ 64 ≤ addr + maxLen then .error einval
  else if 2 ^ 64 ≤ mr.start + mr.length then .error einval
  else if addr < mr.start ∨ mr.start + mr.length < addr + maxLen then .error efault
  else pageLoop maxLen mr.umem.sgl (mr.umem.offset + addr - mr.start)

/-- `struct tbv_send_page_stream` with the counters of its send context. -/
structure Stream where
  segs : List Segment
  offset : Nat := 0
  totalLen : Nat
  maxChunk : Nat := frameSize
  refs : Nat := 1
  sendTxPending : Nat
  sendRefs : Nat
  deriving Repr

/-- The chunk is handed out: the offset moves on, the stream and the context are held. -/
def Stream.hand (stream : Stream) (chunk : Chunk) : Stream :=
  { stream with
    offset := stream.offset + chunk.length
    refs := stream.refs + 1
    sendTxPending := stream.sendTxPending + 1
    sendRefs := stream.sendRefs + 1 }

/-- The loop of `tbv_send_page_stream_next`. -/
def Stream.nextLoop (stream : Stream) : List Segment → Nat → Except Int (Stream × Chunk)
  | [], _ => .error efault
  | seg :: rest, skipped =>
      if skipped + seg.length ≤ stream.offset then stream.nextLoop rest (skipped + seg.length)
      else
        let segOff := if skipped < stream.offset then stream.offset - skipped else 0
        let remaining := min (min (seg.length - segOff) (stream.totalLen - stream.offset))
          stream.maxChunk
        match umemPageFromAddr seg.mr (seg.addr + segOff) remaining with
        | .error ret => .error ret
        | .ok chunk => .ok (stream.hand chunk, chunk)

def Stream.next (stream : Stream) : Except Int (Stream × Chunk) := stream.nextLoop stream.segs 0

/-- The caller's loop: `next` until the offset reaches the total, at most `fuel` times. -/
def Stream.drain : Nat → Stream → Option (Stream × List Chunk)
  | fuel, stream =>
      if stream.totalLen ≤ stream.offset then some (stream, [])
      else
        match fuel with
        | 0 => none
        | fuel + 1 =>
            match stream.next with
            | .error _ => none
            | .ok (stream, chunk) =>
                (drain fuel stream).map fun rest => (rest.1, chunk :: rest.2)

end Tbv.PageStream
