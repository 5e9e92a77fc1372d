import ThunderboltIbverbs.Lib.Layout
import ThunderboltIbverbs.Proto.NativeWire

/-! # The native data header, byte for byte

`tbv_native_data_build_header` and `tbv_native_data_parse_header` over the C
structure as the compiler sees it: the opcode is any byte, the buffer keeps what
stands behind the header. -/
set_option autoImplicit false
namespace Tbv.DataCodec

open NativeData Layout

/-- `struct tbv_native_data_header` in the widths of the source. -/
structure DataHeader where
  opcode : UInt8
  flags : UInt8
  destQp : UInt32
  srcQp : UInt32
  psn : UInt32
  length : UInt32
  immData : UInt32
  remoteAddr : UInt64
  rkey : UInt32
  fragOffset : UInt32
  deriving DecidableEq, Repr

def opMax : UInt8 := 11

def putLe16 (value : UInt16) : List UInt8 := wirePutLe 2 value.toNat
def putLe32 (value : UInt32) : List UInt8 := wirePutLe 4 value.toNat
def putLe64 (value : UInt64) : List UInt8 := wirePutLe 8 value.toNat

def getLe16 (buf : List UInt8) (offset : Nat) : UInt16 := UInt16.ofNat (wireField buf offset 2)
def getLe32 (buf : List UInt8) (offset : Nat) : UInt32 := UInt32.ofNat (wireField buf offset 4)
def getLe64 (buf : List UInt8) (offset : Nat) : UInt64 := UInt64.ofNat (wireField buf offset 8)

/-- The stores of `tbv_native_data_build_header` after its `memset`. -/
def headerFields (hdr : DataHeader) : List (Nat × List UInt8) :=
  [(0, wirePutLe 4 magic), (4, wirePutLe 2 version), (6, wirePutLe 2 hdrSize),
    (8, [hdr.opcode]), (9, [hdr.flags]),
    (12, putLe32 hdr.destQp), (16, putLe32 hdr.srcQp), (20, putLe32 hdr.psn),
    (24, putLe32 hdr.length), (28, putLe32 hdr.immData), (32, putLe64 hdr.remoteAddr),
    (40, putLe32 hdr.rkey), (44, putLe32 hdr.fragOffset)]

/-- `tbv_native_data_build_header`: the buffer after the call. -/
def buildHeader (buf : List UInt8) (hdr : DataHeader) : Except WireError (List UInt8) :=
  if buf.length < hdrSize then .error .enospc
  else if hdr.opcode = 0 ∨ opMax < hdr.opcode then .error .einval
  else if lengthLimit hdr.flags < hdr.length.toNat then .error .emsgsize
  else .ok (storeAll (store buf 0 (List.replicate hdrSize 0)) (headerFields hdr))

/-- What `tbv_native_data_parse_header` fills in. -/
def readHeader (buf : List UInt8) : DataHeader :=
  { opcode := buf.getD 8 0
    flags := buf.getD 9 0
    destQp := getLe32 buf 12
    srcQp := getLe32 buf 16
    psn := getLe32 buf 20
    length := getLe32 buf 24
    immData := getLe32 buf 28
    remoteAddr := getLe64 buf 32
    rkey := getLe32 buf 40
    fragOffset := getLe32 buf 44 }

def parseHeader (buf : List UInt8) : Except WireError DataHeader :=
  if buf.length < hdrSize then .error .einval
  else if wireField buf 0 4 ≠ magic then .error .einval
  else if wireField buf 4 2 ≠ version ∨ wireField buf 6 2 ≠ hdrSize then .error .einval
  else
    let hdr := readHeader buf
    if hdr.opcode = 0 ∨ opMax < hdr.opcode then .error .einval
    else if lengthLimit hdr.flags < hdr.length.toNat then .error .emsgsize
    else .ok hdr

/-! ## What the codec is made of -/

@[simp] theorem putLe16_length (value : UInt16) : (putLe16 value).length = 2 :=
  wirePutLe_length 2 _

@[simp] theorem putLe32_length (value : UInt32) : (putLe32 value).length = 4 :=
  wirePutLe_length 4 _

@[simp] theorem putLe64_length (value : UInt64) : (putLe64 value).length = 8 :=
  wirePutLe_length 8 _

theorem getLe16_of_slice {buf : List UInt8} {offset : Nat} {value : UInt16}
    (here : slice buf offset 2 = putLe16 value) : getLe16 buf offset = value := by
  have read : wireField buf offset 2 = value.toNat :=
    wireField_put here value.toNat_lt
  rw [getLe16, read, UInt16.ofNat_toNat]

theorem getLe32_of_slice {buf : List UInt8} {offset : Nat} {value : UInt32}
    (here : slice buf offset 4 = putLe32 value) : getLe32 buf offset = value := by
  have read : wireField buf offset 4 = value.toNat :=
    wireField_put here value.toNat_lt
  rw [getLe32, read, UInt32.ofNat_toNat]

theorem getLe64_of_slice {buf : List UInt8} {offset : Nat} {value : UInt64}
    (here : slice buf offset 8 = putLe64 value) : getLe64 buf offset = value := by
  have read : wireField buf offset 8 = value.toNat :=
    wireField_put here value.toNat_lt
  rw [getLe64, read, UInt64.ofNat_toNat]

theorem wireField_lt {buf : List UInt8} {offset bytes : Nat} (room : offset + bytes ≤ buf.length) :
    wireField buf offset bytes < 256 ^ bytes := by
  have bound := wireGetLe_lt (slice buf offset bytes)
  rwa [length_slice_of_le room] at bound

theorem wirePutLe_field {buf : List UInt8} {offset bytes : Nat}
    (room : offset + bytes ≤ buf.length) :
    wirePutLe bytes (wireField buf offset bytes) = slice buf offset bytes :=
  wirePutLe_get (length_slice_of_le room)

theorem putLe16_getLe16 {buf : List UInt8} {offset : Nat} (room : offset + 2 ≤ buf.length) :
    putLe16 (getLe16 buf offset) = slice buf offset 2 := by
  rw [putLe16, getLe16, UInt16.toNat_ofNat_of_lt' (wireField_lt room), wirePutLe_field room]

theorem putLe32_getLe32 {buf : List UInt8} {offset : Nat} (room : offset + 4 ≤ buf.length) :
    putLe32 (getLe32 buf offset) = slice buf offset 4 := by
  rw [putLe32, getLe32, UInt32.toNat_ofNat_of_lt' (wireField_lt room), wirePutLe_field room]

theorem putLe64_getLe64 {buf : List UInt8} {offset : Nat} (room : offset + 8 ≤ buf.length) :
    putLe64 (getLe64 buf offset) = slice buf offset 8 := by
  rw [putLe64, getLe64, UInt64.toNat_ofNat_of_lt' (wireField_lt room), wirePutLe_field room]

theorem byte_slice {buf : List UInt8} {offset : Nat} (room : offset < buf.length) :
    slice buf offset 1 = [buf.getD offset 0] := by
  rw [slice, List.drop_eq_getElem_cons room, List.getD_eq_getElem?_getD,
    List.getElem?_eq_getElem room]
  rfl

/-- The header as its consecutive pieces; the two bytes behind the flags are never stored. -/
def headerPieces (hdr : DataHeader) : List (List UInt8) :=
  [wirePutLe 4 magic, wirePutLe 2 version, wirePutLe 2 hdrSize, [hdr.opcode], [hdr.flags], [0, 0],
    putLe32 hdr.destQp, putLe32 hdr.srcQp, putLe32 hdr.psn, putLe32 hdr.length,
    putLe32 hdr.immData, putLe64 hdr.remoteAddr, putLe32 hdr.rkey, putLe32 hdr.fragOffset]

def headerWidths : List Nat := [4, 2, 2, 1, 1, 2, 4, 4, 4, 4, 4, 8, 4, 4]

theorem headerPieces_length (hdr : DataHeader) : (headerPieces hdr).flatten.length = hdrSize := rfl

/-- The stores fill the first 48 bytes and touch nothing behind them. -/
theorem storeAll_header (buf : List UInt8) (hdr : DataHeader) :
    storeAll (store buf 0 (List.replicate hdrSize 0)) (headerFields hdr) =
      (headerPieces hdr).flatten ++ buf.drop hdrSize := by
  have cleared : store buf 0 (List.replicate hdrSize 0) =
      [] ++ List.replicate 10 0 ++ ([0, 0] ++ List.replicate 36 0 ++ buf.drop hdrSize) :=
    store_start buf _
  have front := storeAll_consecutive ((headerFields hdr).take 5) 0 [] (List.replicate 10 0)
    ([0, 0] ++ List.replicate 36 0 ++ buf.drop hdrSize)
    (by exact ⟨rfl, rfl, rfl, rfl, rfl, trivial⟩) rfl rfl
  have back := storeAll_consecutive ((headerFields hdr).drop 5) 12
    (contents ((headerFields hdr).take 5) ++ [0, 0]) (List.replicate 36 0) (buf.drop hdrSize)
    (by exact ⟨rfl, rfl, rfl, rfl, rfl, rfl, rfl, rfl, trivial⟩) rfl rfl
  have halves : headerFields hdr = (headerFields hdr).take 5 ++ (headerFields hdr).drop 5 := rfl
  rw [cleared, halves, storeAll_append, front, List.nil_append, ← List.append_assoc,
    ← List.append_assoc, back]
  rfl

/-- The pieces of a built header stand at the offsets `tbv_native_data_parse_header` reads. -/
theorem readHeader_pieces (hdr : DataHeader) (trailing : List UInt8) :
    readHeader ((headerPieces hdr).flatten ++ trailing) = hdr := by
  obtain ⟨frame, frameEq⟩ :
      ∃ frame, frame = (headerPieces hdr).flatten ++ trailing := ⟨_, rfl⟩
  have opRead : frame.getD 8 0 = hdr.opcode := by rw [frameEq]; rfl
  have flagsRead : frame.getD 9 0 = hdr.flags := by rw [frameEq]; rfl
  have destRead : getLe32 frame 12 = hdr.destQp := getLe32_of_slice (by rw [frameEq]; rfl)
  have srcRead : getLe32 frame 16 = hdr.srcQp := getLe32_of_slice (by rw [frameEq]; rfl)
  have psnRead : getLe32 frame 20 = hdr.psn := getLe32_of_slice (by rw [frameEq]; rfl)
  have lengthRead : getLe32 frame 24 = hdr.length := getLe32_of_slice (by rw [frameEq]; rfl)
  have immRead : getLe32 frame 28 = hdr.immData := getLe32_of_slice (by rw [frameEq]; rfl)
  have addrRead : getLe64 frame 32 = hdr.remoteAddr := getLe64_of_slice (by rw [frameEq]; rfl)
  have rkeyRead : getLe32 frame 40 = hdr.rkey := getLe32_of_slice (by rw [frameEq]; rfl)
  have offsetRead : getLe32 frame 44 = hdr.fragOffset := getLe32_of_slice (by rw [frameEq]; rfl)
  rw [← frameEq, readHeader, opRead, flagsRead, destRead, srcRead, psnRead, lengthRead, immRead,
    addrRead, rkeyRead, offsetRead]

/-- The opcodes and lengths both functions let through. -/
def DataHeader.Acceptable (hdr : DataHeader) : Prop :=
  (hdr.opcode ≠ 0 ∧ hdr.opcode ≤ opMax) ∧ hdr.length.toNat ≤ lengthLimit hdr.flags

instance (hdr : DataHeader) : Decidable hdr.Acceptable :=
  inferInstanceAs (Decidable (_ ∧ _))

theorem DataHeader.acceptable_iff (hdr : DataHeader) :
    hdr.Acceptable ↔ ¬ (hdr.opcode = 0 ∨ opMax < hdr.opcode) ∧
      ¬ lengthLimit hdr.flags < hdr.length.toNat := by
  simp only [DataHeader.Acceptable, not_or, UInt8.not_lt, Nat.not_lt, ne_eq]

theorem buildHeader_eq_ok {buf image : List UInt8} {hdr : DataHeader} :
    buildHeader buf hdr = .ok image ↔
      hdrSize ≤ buf.length ∧ hdr.Acceptable ∧
        image = (headerPieces hdr).flatten ++ buf.drop hdrSize := by
  rw [DataHeader.acceptable_iff, buildHeader, ← storeAll_header]
  constructor
  · intro built
    split at built
    · cases built
    · split at built
      · cases built
      · split at built
        · cases built
        · rename_i size op length
          exact ⟨by omega, ⟨op, length⟩, (Except.ok.inj built).symm⟩
  · rintro ⟨size, ⟨op, length⟩, stored⟩
    rw [if_neg (by omega), if_neg op, if_neg length, stored]

theorem parseHeader_eq_ok {buf : List UInt8} {hdr : DataHeader} :
    parseHeader buf = .ok hdr ↔
      hdrSize ≤ buf.length ∧ wireField buf 0 4 = magic ∧ wireField buf 4 2 = version ∧
        wireField buf 6 2 = hdrSize ∧ hdr = readHeader buf ∧ hdr.Acceptable := by
  unfold parseHeader
  constructor
  · intro parsed
    split at parsed
    · cases parsed
    · split at parsed
      · cases parsed
      · split at parsed
        · cases parsed
        · dsimp only at parsed
          split at parsed
          · cases parsed
          · split at parsed
            · cases parsed
            · rename_i size magicRead versions op length
              obtain rfl := Except.ok.inj parsed
              simp only [not_or, ne_eq, not_not] at magicRead versions
              exact ⟨by omega, magicRead, versions.1, versions.2, rfl,
                (DataHeader.acceptable_iff _).mpr ⟨op, length⟩⟩
  · rintro ⟨size, magicRead, versionRead, sizeRead, rfl, acceptable⟩
    obtain ⟨op, length⟩ := (DataHeader.acceptable_iff _).mp acceptable
    rw [if_neg (by omega), if_neg (by simp [magicRead]), if_neg (by simp [versionRead, sizeRead])]
    dsimp only
    rw [if_neg op, if_neg length]

theorem parseHeader_pieces {hdr : DataHeader} (acceptable : hdr.Acceptable)
    (trailing : List UInt8) :
    parseHeader ((headerPieces hdr).flatten ++ trailing) = .ok hdr := by
  refine parseHeader_eq_ok.mpr ⟨?_, ?_, ?_, ?_, (readHeader_pieces hdr trailing).symm, acceptable⟩
  · rw [List.length_append, headerPieces_length]
    omega
  all_goals exact wireField_put rfl (by decide)

/-- A buffer that carries the fixed fields is cut into the pieces of the header read from it. -/
theorem headerPieces_read {buf : List UInt8} (size : hdrSize ≤ buf.length)
    (magicRead : wireField buf 0 4 = magic) (versionRead : wireField buf 4 2 = version)
    (sizeRead : wireField buf 6 2 = hdrSize) (reserved : slice buf 10 2 = [0, 0]) :
    (headerPieces (readHeader buf)).flatten = buf.take hdrSize := by
  have room : 48 ≤ buf.length := size
  have cut : (slices headerWidths buf).flatten = buf.take hdrSize := slices_flatten headerWidths buf
  rw [← cut]
  simp only [headerPieces, headerWidths, slices, readHeader, List.drop_drop, Nat.reduceAdd]
  rw [← magicRead, ← versionRead, ← sizeRead, ← reserved, wirePutLe_field (by omega),
    wirePutLe_field (by omega), wirePutLe_field (by omega), putLe32_getLe32 (by omega),
    putLe32_getLe32 (by omega), putLe32_getLe32 (by omega), putLe32_getLe32 (by omega),
    putLe32_getLe32 (by omega), putLe64_getLe64 (by omega), putLe32_getLe32 (by omega),
    putLe32_getLe32 (by omega), ← byte_slice (by omega), ← byte_slice (by omega)]
  rfl

/-- Building and parsing the header are inverse to each other: what was built is parsed back
with anything behind it, a buffer with room for it takes exactly the headers whose opcode and
length parsing lets through, and an accepted buffer with clear reserved bytes is rebuilt. -/
theorem header_bijection :
    (∀ (buf image : List UInt8) (hdr : DataHeader), buildHeader buf hdr = .ok image →
      parseHeader image = .ok hdr ∧
        ∀ trailing, parseHeader (image.take hdrSize ++ trailing) = .ok hdr) ∧
    (∀ (buf : List UInt8) (hdr : DataHeader), hdrSize ≤ buf.length →
      ((∃ image, buildHeader buf hdr = .ok image) ↔
        ∃ other accepted, parseHeader other = .ok accepted ∧ accepted.opcode = hdr.opcode ∧
          accepted.flags = hdr.flags ∧ accepted.length = hdr.length)) ∧
    ∀ (buf bytes : List UInt8) (hdr : DataHeader), hdrSize ≤ buf.length →
      parseHeader bytes = .ok hdr → bytes.getD 10 0 = 0 → bytes.getD 11 0 = 0 →
      ∃ image, buildHeader buf hdr = .ok image ∧ image.take hdrSize = bytes.take hdrSize := by
  refine ⟨?_, ?_, ?_⟩
  · intro buf image hdr built
    obtain ⟨_, acceptable, stored⟩ := buildHeader_eq_ok.mp built
    have front : image.take hdrSize = (headerPieces hdr).flatten := by
      rw [stored]
      exact List.take_left' (headerPieces_length hdr)
    refine ⟨?_, fun trailing => ?_⟩
    · rw [stored]
      exact parseHeader_pieces acceptable _
    · rw [front]
      exact parseHeader_pieces acceptable trailing
  · intro buf hdr size
    constructor
    · rintro ⟨image, built⟩
      obtain ⟨_, acceptable, _⟩ := buildHeader_eq_ok.mp built
      exact ⟨_, hdr, parseHeader_pieces acceptable [], rfl, rfl, rfl⟩
    · rintro ⟨other, accepted, parsed, opEq, flagsEq, lengthEq⟩
      obtain ⟨_, _, _, _, _, acceptable⟩ := parseHeader_eq_ok.mp parsed
      rw [DataHeader.Acceptable, opEq, flagsEq, lengthEq] at acceptable
      exact ⟨_, buildHeader_eq_ok.mpr ⟨size, acceptable, rfl⟩⟩
  · intro buf bytes hdr size parsed tenth eleventh
    obtain ⟨length, magicRead, versionRead, sizeRead, hdrEq, acceptable⟩ :=
      parseHeader_eq_ok.mp parsed
    have room : 48 ≤ bytes.length := length
    have reserved : slice bytes 10 2 = [0, 0] := by
      have pair : slice bytes 10 2 = slice bytes 10 1 ++ slice bytes 11 1 := by
        rw [slice, slice, slice, show (2 : Nat) = 1 + 1 from rfl, List.take_add, List.drop_drop]
      rw [pair, byte_slice (by omega), byte_slice (by omega), tenth, eleventh]
      rfl
    refine ⟨_, buildHeader_eq_ok.mpr ⟨size, acceptable, rfl⟩, ?_⟩
    rw [List.take_left' (headerPieces_length hdr), hdrEq,
      headerPieces_read length magicRead versionRead sizeRead reserved]

/-- A last fragment of a SEND through a 64-byte buffer and back. -/
def lastSend : DataHeader :=
  { opcode := 1, flags := 1, destQp := 7, srcQp := 9, psn := 0xffffff, length := 100
    immData := 100, remoteAddr := 0, rkey := 0, fragOffset := 0 }

theorem lastSend_built :
    ∃ image, buildHeader (List.replicate 64 0xaa) lastSend = .ok image ∧
      parseHeader image = .ok lastSend ∧
      ∃ again, buildHeader (List.replicate 48 0) lastSend = .ok again ∧
        again.take hdrSize = image.take hdrSize := by
  have acceptable : lastSend.Acceptable := by decide
  have built := buildHeader_eq_ok.mpr
    ⟨show hdrSize ≤ (List.replicate 64 (0xaa : UInt8)).length by decide, acceptable, rfl⟩
  have parsed := (header_bijection.1 _ _ _ built).1
  exact ⟨_, built, parsed, header_bijection.2.2 (List.replicate 48 0) _ _ (by decide) parsed rfl rfl⟩

end Tbv.DataCodec
