import ThunderboltIbverbs.Lib.Scatter
import ThunderboltIbverbs.Send.PageStream

/-! # Copies to and from a memory region

`tbv_umem_copy_to` and `tbv_umem_copy_to_iova` store bytes through the scatterlist of a region,
`tbv_umem_copy_from_iova` loads them.  The pages are physical memory, as in the page stream. -/
set_option autoImplicit false
namespace Tbv.Umem

open Tbv.PageStream (SgEntry pageSize)
open Scatter

/-- The errors of the copies and of their callers. -/
inductive Errno where
  | eopnotsupp | einval | efault | eacces | emsgsize | enomem | ebusy
  deriving DecidableEq, Repr

/-- `struct tbv_mr`, as `tbv_reg_user_mr` and `tbv_get_dma_mr` leave it; a DMA region has no pages
of its own.  `ib_umem_get` refuses a range that wraps. -/
structure Mr where
  start : Nat
  length : Nat
  virtAddr : Nat
  umem : PageStream.Umem
  dmaMr : Bool := false
  localWrite : Bool := false
  remoteWrite : Bool := false
  remoteRead : Bool := false
  address_eq : dmaMr = false → umem.address = start
  length_eq : dmaMr = false → umem.length = length
  end_lt : dmaMr = false → start + length < 2 ^ 64
  deriving DecidableEq, Repr

/-- One byte stored at a physical address. -/
abbrev Store := Nat × UInt8

/-- The physical address of the first byte of an entry. -/
def sgAddr (sg : SgEntry) : Nat := sg.page * pageSize + sg.offset

/-- The bytes of a scatterlist, in its order. -/
def sgLocations (sgl : List SgEntry) : List Nat :=
  sgl.flatMap fun sg => List.range' (sgAddr sg) sg.length

/-- `sg_pcopy_from_buffer`: the bytes go behind the first `skip` ones of the list. -/
def sgPcopyFromBuffer : List SgEntry → List UInt8 → Nat → List Store
  | [], _, _ => []
  | sg :: rest, bytes, skip =>
      if sg.length ≤ skip then sgPcopyFromBuffer rest bytes (skip - sg.length)
      else
        let count := min (sg.length - skip) bytes.length
        (List.range' (sgAddr sg + skip) count).zip (bytes.take count) ++
          sgPcopyFromBuffer rest (bytes.drop count) 0

/-- `sg_pcopy_to_buffer`, the other way. -/
def sgPcopyToBuffer (memory : Nat → UInt8) : List SgEntry → Nat → Nat → List UInt8
  | [], _, _ => []
  | sg :: rest, len, skip =>
      if sg.length ≤ skip then sgPcopyToBuffer memory rest len (skip - sg.length)
      else
        let count := min (sg.length - skip) len
        (List.range' (sgAddr sg + skip) count).map memory ++
          sgPcopyToBuffer memory rest (len - count) 0

def umemCopyTo (mr : Mr) (addr : Nat) (bytes : List UInt8) : Except Errno (List Store) :=
  if bytes.length = 0 then .ok []
  else if mr.dmaMr then .error .eopnotsupp
  else if 2 ^ 64 ≤ addr + bytes.length then .error .einval
  else if 2 ^ 64 ≤ mr.start + mr.length then .error .einval
  else if addr < mr.start ∨ mr.start + mr.length < addr + bytes.length then .error .efault
  else
    let stores := sgPcopyFromBuffer mr.umem.sgl bytes (mr.umem.offset + addr - mr.start)
    if stores.length = bytes.length then .ok stores else .error .efault

def umemIovaToAddr (mr : Mr) (iova len : Nat) : Except Errno Nat :=
  if mr.dmaMr then .error .eopnotsupp
  else if 2 ^ 64 ≤ iova + len then .error .einval
  else if 2 ^ 64 ≤ mr.virtAddr + mr.length then .error .einval
  else if iova < mr.virtAddr ∨ mr.virtAddr + mr.length < iova + len then .error .efault
  else if 2 ^ 64 ≤ mr.start + (iova - mr.virtAddr) then .error .einval
  else .ok (mr.start + (iova - mr.virtAddr))

/-- `tbv_umem_copy_to_iova`: its checks are those of `tbv_umem_iova_to_addr`. -/
def umemCopyToIova (mr : Mr) (iova : Nat) (bytes : List UInt8) : Except Errno (List Store) :=
  if bytes.length = 0 then .ok []
  else (umemIovaToAddr mr iova bytes.length).bind fun addr => umemCopyTo mr addr bytes

def ibUmemCopyFrom (memory : Nat → UInt8) (umem : PageStream.Umem) (offset len : Nat) :
    Except Errno (List UInt8) :=
  if umem.length < offset ∨ umem.length - offset < len then .error .einval
  else
    let bytes := sgPcopyToBuffer memory umem.sgl len (umem.offset + offset)
    if bytes.length = len then .ok bytes else .error .einval

def umemCopyFromIova (memory : Nat → UInt8) (mr : Mr) (iova len : Nat) :
    Except Errno (List UInt8) :=
  if len = 0 then .ok []
  else (umemIovaToAddr mr iova len).bind fun addr =>
    ibUmemCopyFrom memory mr.umem (addr - mr.start) len

/-! ## The scatterlist as a sequence of places -/

section Sgl
variable {sgl : List SgEntry} {bytes : List UInt8} {skip len : Nat}

@[simp] theorem sgLocations_cons (sg : SgEntry) (rest : List SgEntry) :
    sgLocations (sg :: rest) = List.range' (sgAddr sg) sg.length ++ sgLocations rest := rfl

@[simp] theorem length_sgLocations :
    (sgLocations sgl).length = (sgl.map SgEntry.length).sum := by
  induction sgl with
  | nil => rfl
  | cons sg rest ih => rw [sgLocations_cons, List.length_append, List.length_range', ih]; rfl

theorem drop_sgLocations_past {sg : SgEntry} {rest : List SgEntry} (past : sg.length ≤ skip) :
    (sgLocations (sg :: rest)).drop skip = (sgLocations rest).drop (skip - sg.length) := by
  have none : (List.range' (sgAddr sg) sg.length).drop skip = [] := by
    rw [List.drop_range', Nat.sub_eq_zero_of_le past, List.range'_zero]
  rw [sgLocations_cons, List.drop_append, none, List.nil_append, List.length_range']

/-- The entry that the copy starts in. -/
theorem drop_sgLocations_here {sg : SgEntry} {rest : List SgEntry} (here : ¬ sg.length ≤ skip) :
    (sgLocations (sg :: rest)).drop skip =
      List.range' (sgAddr sg + skip) (sg.length - skip) ++ sgLocations rest := by
  have whole : skip - (List.range' (sgAddr sg) sg.length).length = 0 := by
    rw [List.length_range']
    omega
  rw [sgLocations_cons, List.drop_append, List.drop_range', Nat.mul_one, whole, List.drop_zero]

theorem sgPcopyFromBuffer_eq :
    sgPcopyFromBuffer sgl bytes skip = ((sgLocations sgl).drop skip).zip bytes := by
  induction sgl generalizing bytes skip with
  | nil => simp [sgPcopyFromBuffer, sgLocations]
  | cons sg rest ih =>
      unfold sgPcopyFromBuffer
      split
      · rename_i past
        rw [ih, drop_sgLocations_past past]
      · rename_i here
        dsimp only
        rw [ih, drop_sgLocations_here here, List.drop_zero, append_zip, List.length_range',
          @List.zip_eq_zip_take_min _ _ (List.range' _ (sg.length - skip)), List.length_range']
        by_cases short : sg.length - skip ≤ bytes.length
        · rw [Nat.min_eq_left short, List.take_range'_of_length_le (Nat.le_refl _)]
        · have few : bytes.length ≤ sg.length - skip := by omega
          rw [Nat.min_eq_right few, List.take_range'_of_length_ge few, List.drop_length,
            List.drop_of_length_le few]

theorem sgPcopyToBuffer_eq (memory : Nat → UInt8) :
    sgPcopyToBuffer memory sgl len skip = (((sgLocations sgl).drop skip).take len).map memory := by
  induction sgl generalizing len skip with
  | nil => simp [sgPcopyToBuffer, sgLocations]
  | cons sg rest ih =>
      unfold sgPcopyToBuffer
      split
      · rename_i past
        rw [ih, drop_sgLocations_past past]
      · rename_i here
        dsimp only
        rw [ih, drop_sgLocations_here here, List.drop_zero, List.take_append, List.map_append,
          List.length_range']
        by_cases short : sg.length - skip ≤ len
        · rw [Nat.min_eq_left short, List.take_range'_of_length_le short]
        · have few : len ≤ sg.length - skip := by omega
          rw [Nat.min_eq_right few, List.take_range'_of_length_ge few, Nat.sub_self,
            Nat.sub_eq_zero_of_le few]

end Sgl

/-! ## Page tables -/

/-- The page tables: the frame behind each page of each process. -/
structure Spaces where
  frame : Nat → Nat → Nat

/-- Where a byte of a process is in memory. -/
def Spaces.place (spaces : Spaces) (process addr : Nat) : Nat :=
  spaces.frame process (addr / pageSize) * pageSize + addr % pageSize

def Spaces.places (spaces : Spaces) (process addr len : Nat) : List Nat :=
  (List.range' addr len).map (spaces.place process)

/-- What `ib_umem_get` leaves: the scatterlist is that of the pages of the range. -/
def Spaces.Pins (spaces : Spaces) (process : Nat) (umem : PageStream.Umem) : Prop :=
  ((sgLocations umem.sgl).drop umem.offset).take umem.length =
    spaces.places process umem.address umem.length

instance (spaces : Spaces) (process : Nat) (umem : PageStream.Umem) :
    Decidable (spaces.Pins process umem) :=
  inferInstanceAs (Decidable (_ = _))

/-- A region with the process whose pages it has pinned. -/
structure Region (spaces : Spaces) where
  mr : Mr
  process : Nat
  pinned : mr.dmaMr = false → spaces.Pins process mr.umem

section Pages
variable {spaces : Spaces} {process : Nat}

@[simp] theorem length_places (addr len : Nat) : (spaces.places process addr len).length = len := by
  rw [Spaces.places, List.length_map, List.length_range']

theorem mem_places {addr len place : Nat} :
    place ∈ spaces.places process addr len ↔
      ∃ at', addr ≤ at' ∧ at' < addr + len ∧ spaces.place process at' = place := by
  simp only [Spaces.places, List.mem_map, List.mem_range'_1]
  tauto

/-- A part of a pinned range. -/
theorem Spaces.Pins.part {umem : PageStream.Umem} (pins : spaces.Pins process umem)
    {skip len : Nat} (inside : skip + len ≤ umem.length) :
    ((sgLocations umem.sgl).drop (umem.offset + skip)).take len =
      spaces.places process (umem.address + skip) len := by
  have cut : ((((sgLocations umem.sgl).drop umem.offset).take umem.length).drop skip).take len =
      ((sgLocations umem.sgl).drop (umem.offset + skip)).take len := by
    rw [List.drop_take, List.drop_drop, List.take_take, Nat.min_eq_left (by omega)]
  rw [← cut, pins, Spaces.places, ← List.map_drop, ← List.map_take, List.drop_range', Nat.mul_one,
    List.take_range'_of_length_ge (by omega)]
  rfl

def Spaces.pages (spaces : Spaces) (process first count : Nat) : List SgEntry :=
  (List.range' first count).map fun page => ⟨spaces.frame process page, 0, pageSize⟩

theorem range'_page (first : Nat) :
    List.range' (spaces.frame process first * pageSize) pageSize =
      spaces.places process (first * pageSize) pageSize := by
  rw [Spaces.places, List.range'_eq_map_range, List.range'_eq_map_range, List.map_map]
  apply List.map_congr_left
  intro byte among
  have small : byte < pageSize := List.mem_range.mp among
  have page : (first * pageSize + byte) / pageSize = first := by
    rw [Nat.add_comm, Nat.add_mul_div_right _ _ (by decide), Nat.div_eq_of_lt small, Nat.zero_add]
  have rest : (first * pageSize + byte) % pageSize = byte := by
    rw [Nat.add_comm, Nat.add_mul_mod_self_right, Nat.mod_eq_of_lt small]
  simp only [Function.comp_apply, Spaces.place, page, rest]

theorem sgLocations_pages (first count : Nat) :
    sgLocations (spaces.pages process first count) =
      spaces.places process (first * pageSize) (count * pageSize) := by
  induction count generalizing first with
  | zero => simp [Spaces.pages, Spaces.places, sgLocations]
  | succ count ih =>
      have split : List.range' (first * pageSize) ((count + 1) * pageSize) =
          List.range' (first * pageSize) pageSize ++
            List.range' ((first + 1) * pageSize) (count * pageSize) := by
        rw [Nat.add_mul first, Nat.add_mul count, Nat.one_mul, Nat.add_comm (count * pageSize),
          List.range'_append_1]
      show List.range' (sgAddr ⟨spaces.frame process first, 0, pageSize⟩) pageSize ++
        sgLocations (spaces.pages process (first + 1) count) = _
      rw [ih, sgAddr, Nat.add_zero, range'_page]
      simp only [Spaces.places, ← List.map_append, ← split]

/-- The pages of a range, one by one: what `ib_umem_get` leaves when no frames follow one
another. -/
def Spaces.pin (spaces : Spaces) (process address length : Nat) : PageStream.Umem where
  address := address
  length := length
  sgl := spaces.pages process (address / pageSize)
    ((address % pageSize + length + (pageSize - 1)) / pageSize)
  covered := by
    have total : ∀ first count,
        ((spaces.pages process first count).map SgEntry.length).sum = count * pageSize := by
      intro first count
      rw [← length_sgLocations, sgLocations_pages, length_places]
    rw [total]
    simp only [pageSize]
    omega

theorem pins_pin (address length : Nat) :
    spaces.Pins process (spaces.pin process address length) := by
  have whole : address / pageSize * pageSize + address % pageSize = address := Nat.div_add_mod' ..
  have room : length ≤
      (address % pageSize + length + (pageSize - 1)) / pageSize * pageSize -
        address % pageSize := by
    simp only [pageSize]
    omega
  unfold Spaces.Pins Spaces.pin PageStream.Umem.offset
  dsimp only
  rw [sgLocations_pages, Spaces.places, ← List.map_drop, ← List.map_take, List.drop_range',
    Nat.mul_one, List.take_range'_of_length_ge room, whole]
  rfl

/-- `tbv_reg_user_mr`, of a range that `ib_umem_get` takes. -/
def Region.regUserMr (spaces : Spaces) (process start length virtAddr : Nat)
    (localWrite remoteWrite remoteRead : Bool) (ends : start + length < 2 ^ 64) :
    Region spaces where
  mr :=
    { start, length, virtAddr, umem := spaces.pin process start length
      localWrite, remoteWrite, remoteRead
      address_eq := fun _ => rfl
      length_eq := fun _ => rfl
      end_lt := fun _ => ends }
  process := process
  pinned := fun _ => pins_pin start length

end Pages

/-! ## The copies, through the page tables -/

/-- The checks of `tbv_umem_copy_to`. -/
def Mr.bounds (mr : Mr) (addr len : Nat) : Except Errno Unit :=
  if mr.dmaMr then .error .eopnotsupp
  else if 2 ^ 64 ≤ addr + len then .error .einval
  else if addr < mr.start ∨ mr.start + mr.length < addr + len then .error .efault
  else .ok ()

namespace Region
variable {spaces : Spaces} (region : Region spaces)

def places (addr len : Nat) : List Nat := spaces.places region.process addr len

variable {region}

theorem part (user : region.mr.dmaMr = false) {addr len : Nat} (above : region.mr.start ≤ addr)
    (below : addr + len ≤ region.mr.start + region.mr.length) :
    ((sgLocations region.mr.umem.sgl).drop (region.mr.umem.offset + (addr - region.mr.start))).take
      len = region.places addr len := by
  have size := region.mr.length_eq user
  rw [(region.pinned user).part (by omega), region.mr.address_eq user]
  congr 1
  omega

theorem copyTo_eq {addr : Nat} {bytes : List UInt8} (some : bytes.length ≠ 0) :
    umemCopyTo region.mr addr bytes =
      (region.mr.bounds addr bytes.length).map fun _ =>
        (region.places addr bytes.length).zip bytes := by
  unfold umemCopyTo Mr.bounds
  rw [if_neg some]
  cases user : region.mr.dmaMr
  swap
  · rfl
  rw [if_neg Bool.false_ne_true, if_neg Bool.false_ne_true]
  by_cases wraps : 2 ^ 64 ≤ addr + bytes.length
  · rw [if_pos wraps, if_pos wraps]
    rfl
  rw [if_neg wraps, if_neg wraps, if_neg (Nat.not_le.mpr (region.mr.end_lt user))]
  by_cases outside : addr < region.mr.start ∨
      region.mr.start + region.mr.length < addr + bytes.length
  · rw [if_pos outside, if_pos outside]
    rfl
  · rw [if_neg outside, if_neg outside]
    have above : region.mr.start ≤ addr := by omega
    have part := @part _ region user addr bytes.length above (by omega)
    have stores : sgPcopyFromBuffer region.mr.umem.sgl bytes
        (region.mr.umem.offset + addr - region.mr.start) =
          (region.places addr bytes.length).zip bytes := by
      rw [sgPcopyFromBuffer_eq, Nat.add_sub_assoc above, ← part, zip_take]
    have whole : ((region.places addr bytes.length).zip bytes).length = bytes.length := by
      rw [List.length_zip, places, length_places, Nat.min_self]
    dsimp only
    rw [stores, if_pos whole]
    rfl

theorem of_bounds {mr : Mr} {addr len : Nat} (passed : mr.bounds addr len = .ok ()) :
    mr.start ≤ addr ∧ addr + len ≤ mr.start + mr.length := by
  unfold Mr.bounds at passed
  split at passed
  · cases passed
  split at passed
  · cases passed
  split at passed
  · cases passed
  · omega

/-- What it means that `tbv_umem_iova_to_addr` succeeds. -/
theorem iovaToAddr {mr : Mr} {iova len addr : Nat} (found : umemIovaToAddr mr iova len = .ok addr) :
    mr.dmaMr = false ∧ mr.virtAddr ≤ iova ∧ iova + len ≤ mr.virtAddr + mr.length ∧
      addr = mr.start + (iova - mr.virtAddr) := by
  unfold umemIovaToAddr at found
  cases user : mr.dmaMr
  swap
  · rw [user, if_pos rfl] at found
    cases found
  rw [user, if_neg Bool.false_ne_true] at found
  split at found
  · cases found
  split at found
  · cases found
  split at found
  · cases found
  split at found
  · cases found
  · injection found with here
    exact ⟨rfl, by omega, by omega, here.symm⟩

/-- The address that `tbv_umem_iova_to_addr` finds passes the checks of the copy. -/
theorem bounds_of_iova {mr : Mr} {iova len addr : Nat}
    (found : umemIovaToAddr mr iova len = .ok addr) : mr.bounds addr len = .ok () := by
  obtain ⟨user, above, below, rfl⟩ := iovaToAddr found
  have ends := mr.end_lt user
  unfold Mr.bounds
  rw [user, if_neg Bool.false_ne_true, if_neg (by omega), if_neg (by omega)]

theorem copyToIova_eq {iova : Nat} {bytes : List UInt8} (some : bytes.length ≠ 0) :
    umemCopyToIova region.mr iova bytes =
      (umemIovaToAddr region.mr iova bytes.length).map fun addr =>
        (region.places addr bytes.length).zip bytes := by
  unfold umemCopyToIova
  rw [if_neg some]
  cases found : umemIovaToAddr region.mr iova bytes.length with
  | error err => rfl
  | ok addr =>
      show umemCopyTo region.mr addr bytes = _
      rw [copyTo_eq some, bounds_of_iova found]
      rfl

/-- A part of the region is read through the page tables. -/
theorem copyFrom_eq (memory : Nat → UInt8) (user : region.mr.dmaMr = false) {offset len : Nat}
    (inside : offset + len ≤ region.mr.length) :
    ibUmemCopyFrom memory region.mr.umem offset len =
      .ok ((region.places (region.mr.start + offset) len).map memory) := by
  have size := region.mr.length_eq user
  have part := @part _ region user (region.mr.start + offset) len (by omega) (by omega)
  rw [Nat.add_sub_cancel_left] at part
  unfold ibUmemCopyFrom
  rw [if_neg (by omega)]
  dsimp only
  rw [sgPcopyToBuffer_eq, part, List.length_map, places, length_places, if_pos rfl]

theorem copyFromIova_eq (memory : Nat → UInt8) {iova len : Nat} (some : len ≠ 0) :
    umemCopyFromIova memory region.mr iova len =
      (umemIovaToAddr region.mr iova len).map fun addr =>
        (region.places addr len).map memory := by
  unfold umemCopyFromIova
  rw [if_neg some]
  cases found : umemIovaToAddr region.mr iova len with
  | error err => rfl
  | ok addr =>
      obtain ⟨user, above, below, rfl⟩ := iovaToAddr found
      show ibUmemCopyFrom memory region.mr.umem _ len = _
      rw [Nat.add_sub_cancel_left, copyFrom_eq memory user (by omega)]
      rfl

end Region

end Tbv.Umem
