import ThunderboltIbverbs.Proto.HelloCodec

/-! # ThunderboltIP login, logout and status

The message codecs of `kernel/tbnet_identity.c`.  Messages are C structures
filled in place, so a 32-bit member stands in the byte order of the host; the
results hold for either order. -/
set_option autoImplicit false
namespace Tbv.Tbip

open NativeData Layout HelloCodec

/-- The order in which the host stores the bytes of a word. -/
inductive ByteOrder where
  | little | big
  deriving DecidableEq, Repr

def putU32 (order : ByteOrder) (value : UInt32) : List UInt8 :=
  match order with
  | .little => wirePutLe 4 value.toNat
  | .big => (wirePutLe 4 value.toNat).reverse

def getU32 (order : ByteOrder) (buf : List UInt8) (offset : Nat) : UInt32 :=
  match order with
  | .little => UInt32.ofNat (wireGetLe (slice buf offset 4))
  | .big => UInt32.ofNat (wireGetLe (slice buf offset 4).reverse)

abbrev Uuid := Vector UInt8 16

def ethAlen : Nat := 6

def getBytes (buf : List UInt8) (offset count : Nat) : Vector UInt8 count :=
  Vector.ofFn fun i => buf.getD (offset + i) 0

inductive TbipError where
  | einval | enospc | eproto | eprotonosupport
  deriving DecidableEq, Repr

inductive TbipType where
  | login | loginResponse | logout | status
  deriving DecidableEq, Repr

def TbipType.code : TbipType → UInt32
  | .login => 0
  | .loginResponse => 1
  | .logout => 2
  | .status => 3

def TbipType.ofCode (code : UInt32) : Option TbipType :=
  [TbipType.login, .loginResponse, .logout, .status].find? fun type => type.code = code

structure Control where
  route : UInt64
  sequence : UInt8
  initiatorUuid : Uuid
  targetUuid : Uuid
  commandId : UInt32
  deriving DecidableEq

structure LoginParams where
  ctrl : Control
  transmitPath : UInt32
  deriving DecidableEq

structure LoginResponseParams where
  ctrl : Control
  status : UInt32
  receiverMac : Vector UInt8 ethAlen
  deriving DecidableEq

structure LoginResponseResult where
  ctrl : Control
  status : UInt32
  receiverMac : Vector UInt8 ethAlen
  receiverMacLen : UInt32
  deriving DecidableEq

/-- `struct tbv_tbip_status_params` and `struct tbv_tbip_status_result`. -/
structure StatusParams where
  ctrl : Control
  status : UInt32
  deriving DecidableEq

def tbipUuid : Uuid :=
  #v[0x79, 0x8f, 0x58, 0x9e, 0x36, 0x16, 0x8a, 0x47, 0x97, 0xc6, 0x56, 0x64, 0xa9, 0x20, 0xc8, 0xdd]

def hdrSnMask : UInt32 := 0x18000000

def loginProtoVersion : UInt32 := 1

/-- `sizeof(struct tbv_tbip_header)`, which is all of a logout. -/
def headerSize : Nat := 68
def loginSize : Nat := 92
def loginResponseSize : Nat := 100
def logoutSize : Nat := headerSize
def statusSize : Nat := 72

section
variable (order : ByteOrder)

def fillHeader (ctrl : Control) (type : TbipType) (size : Nat) : List (Nat × List UInt8) :=
  let lengthSn := UInt32.ofNat ((size - 12) / 4) |||
    ((ctrl.sequence.toUInt32 <<< 27) &&& hdrSnMask)
  [(0, putU32 order (routeHigh ctrl.route)), (4, putU32 order (routeLow ctrl.route)),
    (8, putU32 order lengthSn), (12, tbipUuid.toList), (28, ctrl.initiatorUuid.toList),
    (44, ctrl.targetUuid.toList), (60, putU32 order type.code), (64, putU32 order ctrl.commandId)]

/-- The body the four builders share: clear the message, fill the header, then the members
of its own. -/
def buildMessage (buf : List UInt8) (ctrl : Control) (type : TbipType) (size : Nat)
    (body : List (Nat × List UInt8)) : Except TbipError (List UInt8) :=
  if buf.length < size then .error .enospc
  else .ok (storeAll (store buf 0 (List.replicate size 0)) (fillHeader order ctrl type size ++ body))

def buildLogin (buf : List UInt8) (params : LoginParams) : Except TbipError (List UInt8) :=
  buildMessage order buf params.ctrl .login loginSize
    [(68, putU32 order loginProtoVersion), (72, putU32 order params.transmitPath)]

def buildLoginResponse (buf : List UInt8) (params : LoginResponseParams) :
    Except TbipError (List UInt8) :=
  buildMessage order buf params.ctrl .loginResponse loginResponseSize
    [(68, putU32 order params.status), (72, params.receiverMac.toList),
      (80, putU32 order (UInt32.ofNat ethAlen))]

def buildLogout (buf : List UInt8) (ctrl : Control) : Except TbipError (List UInt8) :=
  buildMessage order buf ctrl .logout logoutSize []

def buildStatus (buf : List UInt8) (params : StatusParams) : Except TbipError (List UInt8) :=
  buildMessage order buf params.ctrl .status statusSize [(68, putU32 order params.status)]

/-- The control block `tbv_tbip_parse_header` fills in. -/
def readControl (buf : List UInt8) : Control :=
  { route := joinRoute (getU32 order buf 0) (getU32 order buf 4)
    sequence := ((getU32 order buf 8 &&& hdrSnMask) >>> 27).toUInt8
    initiatorUuid := getBytes buf 28 16
    targetUuid := getBytes buf 44 16
    commandId := getU32 order buf 64 }

def parseHeader (buf : List UInt8) : Except TbipError (TbipType × Control) :=
  if buf.length < headerSize then .error .einval
  else if getBytes buf 12 16 ≠ tbipUuid then .error .eproto
  else
    match TbipType.ofCode (getU32 order buf 60) with
    | none => .error .eproto
    | some type => .ok (type, readControl order buf)

def parseType (buf : List UInt8) : Except TbipError (TbipType × Control) := parseHeader order buf

def parseTyped (own : TbipType) (buf : List UInt8) : Except TbipError Control := do
  let (type, ctrl) ← parseHeader order buf
  if type ≠ own then .error .eproto else .ok ctrl

def parseLogin (buf : List UInt8) : Except TbipError LoginParams :=
  if buf.length < loginSize then .error .einval
  else do
    let ctrl ← parseTyped order .login buf
    if getU32 order buf 68 ≠ loginProtoVersion then .error .eprotonosupport
    else .ok { ctrl, transmitPath := getU32 order buf 72 }

def parseLoginResponse (buf : List UInt8) : Except TbipError LoginResponseResult :=
  if buf.length < loginResponseSize then .error .einval
  else do
    let ctrl ← parseTyped order .loginResponse buf
    let macLen := getU32 order buf 80
    if ethAlen < macLen.toNat then .error .eproto
    else
      .ok
        { ctrl
          status := getU32 order buf 68
          receiverMac := Vector.ofFn fun i =>
            if i.val < min macLen.toNat ethAlen then buf.getD (72 + i) 0 else 0
          receiverMacLen := macLen }

def parseStatus (buf : List UInt8) : Except TbipError StatusParams :=
  if buf.length < statusSize then .error .einval
  else do
    let ctrl ← parseTyped order .status buf
    .ok { ctrl, status := getU32 order buf 68 }

/-! ## Reading one member -/

@[simp] theorem putU32_length (value : UInt32) : (putU32 order value).length = 4 := by
  cases order
  · rfl
  · rfl

theorem TbipType.ofCode_code (type : TbipType) : TbipType.ofCode type.code = some type := by
  cases type <;> rfl

theorem TbipType.code_of_ofCode {code : UInt32} {type : TbipType}
    (found : TbipType.ofCode code = some type) : type.code = code := by
  rw [TbipType.ofCode] at found
  have checked := List.find?_some found
  exact of_decide_eq_true checked

variable {order}

theorem getU32_of_slice {buf : List UInt8} {offset : Nat} {value : UInt32}
    (here : slice buf offset 4 = putU32 order value) : getU32 order buf offset = value := by
  have value_lt : value.toNat < 256 ^ 4 := value.toNat_lt
  cases order with
  | little =>
      rw [getU32, here, putU32, wireGetLe_put 4 _ value_lt, UInt32.ofNat_toNat]
  | big =>
      rw [getU32, here, putU32, List.reverse_reverse, wireGetLe_put 4 _ value_lt,
        UInt32.ofNat_toNat]

theorem getD_of_slice {buf : List UInt8} {offset count : Nat} {bytes : Vector UInt8 count}
    (here : slice buf offset count = bytes.toList) (i : Nat) (inside : i < count) :
    buf.getD (offset + i) 0 = bytes[i] := by
  have read : (slice buf offset count)[i]? = some bytes[i] := by
    rw [here, Vector.getElem?_toList, Vector.getElem?_eq_getElem inside]
  rw [slice, List.getElem?_take_of_lt inside, List.getElem?_drop] at read
  rw [List.getD_eq_getElem?_getD, read, Option.getD_some]

theorem getBytes_of_slice {buf : List UInt8} {offset count : Nat} {bytes : Vector UInt8 count}
    (here : slice buf offset count = bytes.toList) : getBytes buf offset count = bytes := by
  apply Vector.ext
  intro i inside
  rw [getBytes, Vector.getElem_ofFn, getD_of_slice here i inside]

/-- Masking before the shift and after it keep the same two bits. -/
theorem and_hdrSnMask_shift (word : UInt32) :
    (word &&& hdrSnMask) >>> 27 = (word >>> 27) &&& 0x3 := by
  rw [hdrSnMask]
  apply UInt32.toBitVec_inj.mp
  apply BitVec.eq_of_getLsbD_eq
  intro bit inside
  interval_cases bit <;> simp

theorem shift_and_hdrSnMask (word : UInt32) :
    (word <<< 27) &&& hdrSnMask = (word &&& 0x3) <<< 27 := by
  rw [hdrSnMask]
  apply UInt32.toBitVec_inj.mp
  apply BitVec.eq_of_getLsbD_eq
  intro bit inside
  interval_cases bit <;> simp

/-- A length word as `tbv_tbip_fill_header` packs it and `tbv_tbip_parse_header` reads it. -/
theorem sequence_lengthSn {size : Nat} (short : (size - 12) / 4 < 64) (sequence : UInt8) :
    (((UInt32.ofNat ((size - 12) / 4) ||| ((sequence.toUInt32 <<< 27) &&& hdrSnMask)) &&&
      hdrSnMask) >>> 27).toUInt8 = sequence % 4 := by
  rw [shift_and_hdrSnMask, and_hdrSnMask_shift]
  exact sequenceOf_lengthSn short sequence

/-! ## A built message -/

/-- What a parser reads of a control block: the route without its top bit, the low two bits of
the sequence. -/
def Control.onWire (ctrl : Control) : Control :=
  { ctrl with
    route := ctrl.route % 0x8000000000000000
    sequence := ctrl.sequence % 4 }

theorem fillHeader_ascending (ctrl : Control) (type : TbipType) (size : Nat)
    {body : List (Nat × List UInt8)} (rising : Ascending headerSize body) :
    Ascending 0 (fillHeader order ctrl type size ++ body) := by
  have uuidSize (uuid : Uuid) : uuid.toList.length = 16 := Vector.length_toList
  simp only [fillHeader, List.cons_append, List.nil_append, Ascending, putU32_length, uuidSize,
    Nat.reduceAdd]
  exact ⟨by decide, by decide, by decide, by decide, by decide, by decide, by decide, by decide,
    rising⟩

theorem fillHeader_inside (ctrl : Control) (type : TbipType) (size : Nat)
    {field : Nat × List UInt8} (mem : field ∈ fillHeader order ctrl type size) :
    field.1 + field.2.length ≤ headerSize := by
  have uuidSize (uuid : Uuid) : uuid.toList.length = 16 := Vector.length_toList
  simp only [fillHeader, List.mem_cons, List.not_mem_nil, or_false] at mem
  rcases mem with rfl | rfl | rfl | rfl | rfl | rfl | rfl | rfl
  all_goals
    simp only [putU32_length, uuidSize, Nat.reduceAdd]
    decide

/-- A message taken from the front of the buffer it was built in, with anything behind it:
every field stored is read back. -/
structure Carries (frame : List UInt8) (fields : List (Nat × List UInt8)) (size : Nat) : Prop where
  room : size ≤ frame.length
  read : ∀ field ∈ fields, slice frame field.1 field.2.length = field.2

theorem buildMessage_carries {buf : List UInt8} (ctrl : Control) (type : TbipType) {size : Nat}
    (body : List (Nat × List UInt8)) (room : size ≤ buf.length) (header : headerSize ≤ size)
    (rising : Ascending headerSize body)
    (inside : ∀ field ∈ body, field.1 + field.2.length ≤ size) :
    ∃ image, buildMessage order buf ctrl type size body = .ok image ∧
      ∀ trailing, Carries (image.take size ++ trailing)
        (fillHeader order ctrl type size ++ body) size := by
  refine ⟨_, if_neg (Nat.not_lt.mpr room), fun trailing => ?_⟩
  have within : ∀ field ∈ fillHeader order ctrl type size ++ body,
      field.1 + field.2.length ≤ size := by
    intro field mem
    rcases List.mem_append.mp mem with own | own
    · exact Nat.le_trans (fillHeader_inside ctrl type size own) header
    · exact inside field own
  have cleared : (store buf 0 (List.replicate size 0)).length = buf.length := by
    apply store_length
    rw [List.length_replicate]
    omega
  have fits : ∀ field ∈ fillHeader order ctrl type size ++ body,
      field.1 + field.2.length ≤ (store buf 0 (List.replicate size 0)).length := by
    intro field mem
    rw [cleared]
    exact Nat.le_trans (within field mem) room
  have kept := storeAll_length fits
  constructor
  · rw [List.length_append, List.length_take, kept, cleared]
    omega
  · intro field mem
    rw [slice_take_append (by rw [kept, cleared]; exact room) (within field mem)]
    exact slice_storeAll (fillHeader_ascending ctrl type size rising) fits mem

theorem Carries.parseHeader {frame : List UInt8} {ctrl : Control} {type : TbipType} {size : Nat}
    {body : List (Nat × List UInt8)}
    (carries : Carries frame (fillHeader order ctrl type size ++ body) size)
    (header : headerSize ≤ size) (short : (size - 12) / 4 < 64) :
    parseHeader order frame = .ok (type, ctrl.onWire) := by
  have read := carries.read
  simp only [fillHeader, List.cons_append, List.nil_append, List.forall_mem_cons, putU32_length,
    Vector.length_toList] at read
  obtain ⟨high, low, words, uuid, initiator, target, typeRead, command, -⟩ := read
  have long : ¬ frame.length < headerSize := by
    have := carries.room
    omega
  rw [Tbip.parseHeader, if_neg long, if_neg (not_not.mpr (getBytes_of_slice uuid)),
    getU32_of_slice typeRead, TbipType.ofCode_code]
  simp only [readControl, getU32_of_slice high, getU32_of_slice low, getU32_of_slice words,
    getBytes_of_slice initiator, getBytes_of_slice target, getU32_of_slice command,
    joinRoute_split, sequence_lengthSn short, Control.onWire]

theorem parseHeader_type {buf : List UInt8} {type : TbipType} {ctrl : Control}
    (parsed : parseHeader order buf = .ok (type, ctrl)) : type.code = getU32 order buf 60 := by
  unfold parseHeader at parsed
  split at parsed
  · cases parsed
  · split at parsed
    · cases parsed
    · split at parsed
      · cases parsed
      · rename_i found
        obtain ⟨rfl, -⟩ := Prod.mk.inj (Except.ok.inj parsed)
        exact TbipType.code_of_ofCode found

theorem parseTyped_refuses {buf : List UInt8} {own : TbipType}
    (other : getU32 order buf 60 ≠ own.code) :
    ∃ error, parseTyped order own buf = .error error := by
  unfold parseTyped
  cases parsed : parseHeader order buf with
  | error error => exact ⟨error, rfl⟩
  | ok pair =>
      have wrong : pair.1 ≠ own := by
        rintro rfl
        exact other (parseHeader_type parsed).symm
      exact ⟨.eproto, if_pos wrong⟩

theorem parseLogin_refuses {buf : List UInt8} (other : getU32 order buf 60 ≠ TbipType.login.code) :
    ∃ error, parseLogin order buf = .error error := by
  obtain ⟨error, refused⟩ := parseTyped_refuses other
  unfold parseLogin
  split
  · exact ⟨.einval, rfl⟩
  · exact ⟨error, by rw [refused]; rfl⟩

theorem parseLoginResponse_refuses {buf : List UInt8}
    (other : getU32 order buf 60 ≠ TbipType.loginResponse.code) :
    ∃ error, parseLoginResponse order buf = .error error := by
  obtain ⟨error, refused⟩ := parseTyped_refuses other
  unfold parseLoginResponse
  split
  · exact ⟨.einval, rfl⟩
  · exact ⟨error, by rw [refused]; rfl⟩

theorem parseStatus_refuses {buf : List UInt8}
    (other : getU32 order buf 60 ≠ TbipType.status.code) :
    ∃ error, parseStatus order buf = .error error := by
  obtain ⟨error, refused⟩ := parseTyped_refuses other
  unfold parseStatus
  split
  · exact ⟨.einval, rfl⟩
  · exact ⟨error, by rw [refused]; rfl⟩

/-! ## The four messages -/

theorem Carries.parseTyped {frame : List UInt8} {ctrl : Control} {type : TbipType} {size : Nat}
    {body : List (Nat × List UInt8)}
    (carries : Carries frame (fillHeader order ctrl type size ++ body) size)
    (header : headerSize ≤ size) (short : (size - 12) / 4 < 64) :
    parseTyped order type frame = .ok ctrl.onWire := by
  rw [Tbip.parseTyped, carries.parseHeader header short]
  exact if_neg (not_not.mpr rfl)

theorem login_built (params : LoginParams) {buf : List UInt8} (room : loginSize ≤ buf.length) :
    ∃ image, buildLogin order buf params = .ok image ∧ ∀ trailing,
      parseType order (image.take loginSize ++ trailing) = .ok (.login, params.ctrl.onWire) ∧
      parseLogin order (image.take loginSize ++ trailing) =
        .ok { params with ctrl := params.ctrl.onWire } := by
  obtain ⟨image, built, carried⟩ := buildMessage_carries params.ctrl .login
    [(68, putU32 order loginProtoVersion), (72, putU32 order params.transmitPath)]
    room (by decide) (by simp [Ascending, headerSize]) (by simp [loginSize])
  refine ⟨image, built, fun trailing => ?_⟩
  have carries := carried trailing
  have read := carries.read
  simp only [List.forall_mem_append, List.forall_mem_cons, putU32_length] at read
  obtain ⟨-, version, path, -⟩ := read
  refine ⟨carries.parseHeader (by decide) (by decide), ?_⟩
  rw [parseLogin, if_neg (Nat.not_lt.mpr carries.room),
    carries.parseTyped (by decide) (by decide)]
  show ite _ _ _ = _
  rw [getU32_of_slice version, if_neg (not_not.mpr rfl), getU32_of_slice path]

theorem loginResponse_built (params : LoginResponseParams) {buf : List UInt8}
    (room : loginResponseSize ≤ buf.length) :
    ∃ image, buildLoginResponse order buf params = .ok image ∧ ∀ trailing,
      parseType order (image.take loginResponseSize ++ trailing) =
        .ok (.loginResponse, params.ctrl.onWire) ∧
      parseLoginResponse order (image.take loginResponseSize ++ trailing) =
        .ok { ctrl := params.ctrl.onWire, status := params.status
              receiverMac := params.receiverMac, receiverMacLen := UInt32.ofNat ethAlen } := by
  have macSize : params.receiverMac.toList.length = 6 := Vector.length_toList
  obtain ⟨image, built, carried⟩ := buildMessage_carries params.ctrl .loginResponse
    [(68, putU32 order params.status), (72, params.receiverMac.toList),
      (80, putU32 order (UInt32.ofNat ethAlen))]
    room (by decide) (by simp [Ascending, headerSize, macSize])
    (by simp [loginResponseSize, macSize])
  refine ⟨image, built, fun trailing => ?_⟩
  have carries := carried trailing
  obtain ⟨frame, frameEq⟩ : ∃ frame, frame = image.take loginResponseSize ++ trailing := ⟨_, rfl⟩
  rw [← frameEq] at carries ⊢
  have read := carries.read
  simp only [List.forall_mem_append, List.forall_mem_cons, putU32_length,
    Vector.length_toList] at read
  obtain ⟨-, status, mac, macLen, -⟩ := read
  have copied : (Vector.ofFn fun i : Fin ethAlen =>
      if i.val < min (UInt32.ofNat ethAlen).toNat ethAlen then frame.getD (72 + i) 0 else 0) =
        params.receiverMac := by
    apply Vector.ext
    intro i inside
    have wanted : i < min (UInt32.ofNat ethAlen).toNat ethAlen := inside
    rw [Vector.getElem_ofFn, if_pos wanted, getD_of_slice mac i inside]
  refine ⟨carries.parseHeader (by decide) (by decide), ?_⟩
  rw [parseLoginResponse, if_neg (Nat.not_lt.mpr carries.room),
    carries.parseTyped (by decide) (by decide)]
  show ite _ _ _ = _
  rw [getU32_of_slice macLen, if_neg (by decide), getU32_of_slice status, copied]

theorem logout_built (ctrl : Control) {buf : List UInt8} (room : logoutSize ≤ buf.length) :
    ∃ image, buildLogout order buf ctrl = .ok image ∧ ∀ trailing,
      parseType order (image.take logoutSize ++ trailing) = .ok (.logout, ctrl.onWire) := by
  obtain ⟨image, built, carried⟩ := @buildMessage_carries order buf ctrl .logout _ [] room
    (by decide) trivial (by simp)
  exact ⟨image, built, fun trailing => (carried trailing).parseHeader (by decide) (by decide)⟩

theorem status_built (params : StatusParams) {buf : List UInt8}
    (room : statusSize ≤ buf.length) :
    ∃ image, buildStatus order buf params = .ok image ∧ ∀ trailing,
      parseType order (image.take statusSize ++ trailing) = .ok (.status, params.ctrl.onWire) ∧
      parseStatus order (image.take statusSize ++ trailing) =
        .ok { params with ctrl := params.ctrl.onWire } := by
  obtain ⟨image, built, carried⟩ := buildMessage_carries params.ctrl .status
    [(68, putU32 order params.status)] room (by decide) (by simp [Ascending, headerSize])
    (by simp [statusSize])
  refine ⟨image, built, fun trailing => ?_⟩
  have carries := carried trailing
  have read := carries.read
  simp only [List.forall_mem_append, List.forall_mem_cons, putU32_length] at read
  obtain ⟨-, status, -⟩ := read
  refine ⟨carries.parseHeader (by decide) (by decide), ?_⟩
  rw [parseStatus, if_neg (Nat.not_lt.mpr carries.room),
    carries.parseTyped (by decide) (by decide)]
  show Except.ok _ = _
  rw [getU32_of_slice status]

end

/-- Every message survives the wire and is told from the others by its type field alone: in
buffers of any size, with anything behind the message. -/
theorem messages_told_apart (order : ByteOrder) :
    (∀ (buf : List UInt8) (params : LoginParams), loginSize ≤ buf.length →
      ∃ image, buildLogin order buf params = .ok image ∧ ∀ trailing,
        parseType order (image.take loginSize ++ trailing) = .ok (.login, params.ctrl.onWire) ∧
        parseLogin order (image.take loginSize ++ trailing) =
          .ok { params with ctrl := params.ctrl.onWire }) ∧
    (∀ (buf : List UInt8) (params : LoginResponseParams), loginResponseSize ≤ buf.length →
      ∃ image, buildLoginResponse order buf params = .ok image ∧ ∀ trailing,
        parseType order (image.take loginResponseSize ++ trailing) =
          .ok (.loginResponse, params.ctrl.onWire) ∧
        parseLoginResponse order (image.take loginResponseSize ++ trailing) =
          .ok { ctrl := params.ctrl.onWire, status := params.status
                receiverMac := params.receiverMac, receiverMacLen := UInt32.ofNat ethAlen }) ∧
    (∀ (buf : List UInt8) (ctrl : Control), logoutSize ≤ buf.length →
      ∃ image, buildLogout order buf ctrl = .ok image ∧ ∀ trailing,
        parseType order (image.take logoutSize ++ trailing) = .ok (.logout, ctrl.onWire)) ∧
    (∀ (buf : List UInt8) (params : StatusParams), statusSize ≤ buf.length →
      ∃ image, buildStatus order buf params = .ok image ∧ ∀ trailing,
        parseType order (image.take statusSize ++ trailing) = .ok (.status, params.ctrl.onWire) ∧
        parseStatus order (image.take statusSize ++ trailing) =
          .ok { params with ctrl := params.ctrl.onWire }) ∧
    ∀ bytes : List UInt8,
      (getU32 order bytes 60 ≠ TbipType.login.code →
        ∃ error, parseLogin order bytes = .error error) ∧
      (getU32 order bytes 60 ≠ TbipType.loginResponse.code →
        ∃ error, parseLoginResponse order bytes = .error error) ∧
      (getU32 order bytes 60 ≠ TbipType.status.code →
        ∃ error, parseStatus order bytes = .error error) :=
  ⟨fun _ params room => login_built params room,
    fun _ params room => loginResponse_built params room,
    fun _ ctrl room => logout_built ctrl room,
    fun _ params room => status_built params room,
    fun _ => ⟨parseLogin_refuses, parseLoginResponse_refuses, parseStatus_refuses⟩⟩

def someLogin : LoginParams :=
  { ctrl :=
      { route := 0x8000000100000002, sequence := 7, initiatorUuid := tbipUuid
        targetUuid := Vector.replicate 16 3, commandId := 11 }
    transmitPath := 8 }

/-- A login in a 128-byte reply buffer is parsed as a login and refused as a status. -/
theorem login_in_replyBuffer :
    ∃ image, buildLogin .little (List.replicate 128 0xee) someLogin = .ok image ∧
      parseLogin .little (image.take loginSize ++ List.replicate 36 0xee) =
        .ok { someLogin with ctrl := someLogin.ctrl.onWire } ∧
      ∃ error, parseStatus .little (List.replicate 128 0) = .error error := by
  obtain ⟨image, built, parsed⟩ :=
    (messages_told_apart .little).1 (List.replicate 128 0xee) someLogin (by decide +kernel)
  exact ⟨image, built, (parsed _).2,
    ((messages_told_apart .little).2.2.2.2 (List.replicate 128 0)).2.2 (by decide +kernel)⟩

end Tbv.Tbip
