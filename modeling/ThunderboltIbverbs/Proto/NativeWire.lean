import ThunderboltIbverbs.Proto.NativeData

/-! # The native data header on the wire

The 48 bytes of `tbv_native_data_build_header` and what `tbv_native_data_parse_header`
reads from them; the little-endian accessors are those of `proto/native_wire.h`. -/
set_option autoImplicit false
namespace Tbv.NativeData

/-- `tbv_wire_put_le16`, `_le32` and `_le64`, by the number of bytes. -/
def wirePutLe : Nat → Nat → List UInt8
  | 0, _ => []
  | bytes + 1, value => UInt8.ofNat (value % 256) :: wirePutLe bytes (value / 256)

/-- `tbv_wire_get_le16`, `_le32` and `_le64`, of all the bytes given. -/
def wireGetLe : List UInt8 → Nat
  | [] => 0
  | byte :: rest => byte.toNat + 256 * wireGetLe rest

theorem wireGetLe_put (bytes value : Nat) (fits : value < 256 ^ bytes) :
    wireGetLe (wirePutLe bytes value) = value := by
  induction bytes generalizing value with
  | zero =>
      simp only [Nat.pow_zero, Nat.lt_one_iff] at fits
      rw [fits]
      rfl
  | succ bytes ih =>
      have quotient : value / 256 < 256 ^ bytes := by
        rw [Nat.pow_succ] at fits
        exact Nat.div_lt_of_lt_mul (by rwa [Nat.mul_comm])
      have low : (UInt8.ofNat (value % 256)).toNat = value % 256 := by
        rw [UInt8.toNat_ofNat']
        omega
      rw [wirePutLe, wireGetLe, low, ih _ quotient]
      omega

@[simp] theorem wirePutLe_length (bytes value : Nat) :
    (wirePutLe bytes value).length = bytes := by
  induction bytes generalizing value with
  | zero => rfl
  | succ bytes ih => rw [wirePutLe, List.length_cons, ih]

theorem wireGetLe_lt (buf : List UInt8) : wireGetLe buf < 256 ^ buf.length := by
  induction buf with
  | nil => decide
  | cons byte rest ih =>
      have low := byte.toNat_lt
      rw [wireGetLe, List.length_cons, Nat.pow_succ]
      omega

theorem wirePutLe_get {buf : List UInt8} {bytes : Nat} (size : buf.length = bytes) :
    wirePutLe bytes (wireGetLe buf) = buf := by
  induction buf generalizing bytes with
  | nil =>
      rw [← size]
      rfl
  | cons byte rest ih =>
      have low := byte.toNat_lt
      have digit : (byte.toNat + 256 * wireGetLe rest) % 256 = byte.toNat := by omega
      have higher : (byte.toNat + 256 * wireGetLe rest) / 256 = wireGetLe rest := by omega
      rw [← size, List.length_cons, wirePutLe, wireGetLe, digit, higher, ih rfl,
        UInt8.ofNat_toNat]

def magic : Nat := 0x31445654
def version : Nat := 1

def Op.code : Op → UInt8
  | .send => 1
  | .sendAck => 2
  | .rdmaWrite => 3
  | .rdmaWriteImm => 4
  | .recvCredit => 5
  | .sendImm => 6
  | .rdmaReadReq => 7
  | .rdmaReadResp => 8
  | .pathCredit => 9
  | .rdmaReadAck => 10
  | .mad => 11

/-- The opcodes between 1 and `TBV_NATIVE_DATA_OP_MAX`. -/
def Op.ofCode (code : UInt8) : Option Op :=
  [Op.send, .sendAck, .rdmaWrite, .rdmaWriteImm, .recvCredit, .sendImm, .rdmaReadReq,
    .rdmaReadResp, .pathCredit, .rdmaReadAck, .mad].find? fun op => op.code = code

theorem Op.ofCode_code (op : Op) : Op.ofCode op.code = some op := by
  cases op <;> rfl

inductive WireError where
  | einval | enospc | emsgsize
  deriving DecidableEq, Repr

/-- The longest `length` a header with these flags may carry. -/
def lengthLimit (flags : UInt8) : Nat :=
  if hasFlag flags fRawStream then maxMsgSize else maxPayload

/-- The bytes `tbv_native_data_build_header` writes. -/
def headerBytes (hdr : Header) : List UInt8 :=
  wirePutLe 4 magic ++ wirePutLe 2 version ++ wirePutLe 2 hdrSize ++
    [hdr.opcode.code, hdr.flags, 0, 0] ++ wirePutLe 4 hdr.destQp ++ wirePutLe 4 hdr.srcQp ++
    wirePutLe 4 hdr.psn ++ wirePutLe 4 hdr.length ++ wirePutLe 4 hdr.immData ++
    wirePutLe 8 hdr.remoteAddr ++ wirePutLe 4 hdr.rkey ++ wirePutLe 4 hdr.fragOffset

/-- `tbv_native_data_build_header` into a buffer of `size` bytes. -/
def buildHeader (size : Nat) (hdr : Header) : Except WireError (List UInt8) :=
  if size < hdrSize then .error .enospc
  else if lengthLimit hdr.flags < hdr.length then .error .emsgsize
  else .ok (headerBytes hdr)

def wireField (buf : List UInt8) (offset bytes : Nat) : Nat :=
  wireGetLe ((buf.drop offset).take bytes)

def parseHeader (buf : List UInt8) : Except WireError Header :=
  if buf.length < hdrSize then .error .einval
  else if wireField buf 0 4 ≠ magic then .error .einval
  else if wireField buf 4 2 ≠ version ∨ wireField buf 6 2 ≠ hdrSize then .error .einval
  else
    match Op.ofCode (buf.getD 8 0) with
    | none => .error .einval
    | some opcode =>
        let hdr : Header :=
          { opcode
            flags := buf.getD 9 0
            destQp := wireField buf 12 4
            srcQp := wireField buf 16 4
            psn := wireField buf 20 4
            length := wireField buf 24 4
            immData := wireField buf 28 4
            remoteAddr := wireField buf 32 8
            rkey := wireField buf 40 4
            fragOffset := wireField buf 44 4 }
        if lengthLimit hdr.flags < hdr.length then .error .emsgsize else .ok hdr

/-- The fields fit the widths they have on the wire. -/
structure Header.Fits (hdr : Header) : Prop where
  destQp : hdr.destQp < 2 ^ 32
  srcQp : hdr.srcQp < 2 ^ 32
  psn : hdr.psn < 2 ^ 32
  length : hdr.length < 2 ^ 32
  immData : hdr.immData < 2 ^ 32
  remoteAddr : hdr.remoteAddr < 2 ^ 64
  rkey : hdr.rkey < 2 ^ 32
  fragOffset : hdr.fragOffset < 2 ^ 32

theorem length_headerBytes (hdr : Header) : (headerBytes hdr).length = hdrSize := rfl

theorem drop_headerBytes (hdr : Header) (payload : List UInt8) :
    (headerBytes hdr ++ payload).drop hdrSize = payload :=
  List.drop_left' (length_headerBytes hdr)

theorem wireField_put {frame : List UInt8} {offset bytes value : Nat}
    (here : (frame.drop offset).take bytes = wirePutLe bytes value) (fits : value < 256 ^ bytes) :
    wireField frame offset bytes = value := by
  rw [wireField, here, wireGetLe_put bytes value fits]

theorem parseHeader_build {hdr : Header} (fits : hdr.Fits)
    (short : hdr.length ≤ lengthLimit hdr.flags) (payload : List UInt8) :
    parseHeader (headerBytes hdr ++ payload) = .ok hdr := by
  have size : ¬ (headerBytes hdr ++ payload).length < hdrSize := by
    rw [List.length_append, length_headerBytes]
    omega
  obtain ⟨frame, frameEq⟩ : ∃ frame, frame = headerBytes hdr ++ payload := ⟨_, rfl⟩
  have magicRead : wireField frame 0 4 = magic :=
    wireField_put (by rw [frameEq]; rfl) (by decide)
  have versionRead : wireField frame 4 2 = version :=
    wireField_put (by rw [frameEq]; rfl) (by decide)
  have sizeRead : wireField frame 6 2 = hdrSize :=
    wireField_put (by rw [frameEq]; rfl) (by decide)
  have opRead : frame.getD 8 0 = hdr.opcode.code := by rw [frameEq]; rfl
  have flagsRead : frame.getD 9 0 = hdr.flags := by rw [frameEq]; rfl
  have destRead : wireField frame 12 4 = hdr.destQp :=
    wireField_put (by rw [frameEq]; rfl) fits.destQp
  have srcRead : wireField frame 16 4 = hdr.srcQp :=
    wireField_put (by rw [frameEq]; rfl) fits.srcQp
  have psnRead : wireField frame 20 4 = hdr.psn :=
    wireField_put (by rw [frameEq]; rfl) fits.psn
  have lengthRead : wireField frame 24 4 = hdr.length :=
    wireField_put (by rw [frameEq]; rfl) fits.length
  have immRead : wireField frame 28 4 = hdr.immData :=
    wireField_put (by rw [frameEq]; rfl) fits.immData
  have addrRead : wireField frame 32 8 = hdr.remoteAddr :=
    wireField_put (by rw [frameEq]; rfl) fits.remoteAddr
  have rkeyRead : wireField frame 40 4 = hdr.rkey :=
    wireField_put (by rw [frameEq]; rfl) fits.rkey
  have offsetRead : wireField frame 44 4 = hdr.fragOffset :=
    wireField_put (by rw [frameEq]; rfl) fits.fragOffset
  rw [← frameEq] at size ⊢
  unfold parseHeader
  rw [if_neg size, if_neg (by simp [magicRead]), if_neg (by simp [versionRead, sizeRead]), opRead,
    Op.ofCode_code]
  simp only [flagsRead, destRead, srcRead, psnRead, lengthRead, immRead, addrRead, rkeyRead,
    offsetRead]
  rw [if_neg (by omega)]

end Tbv.NativeData
