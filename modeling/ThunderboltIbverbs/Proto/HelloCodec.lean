import Mathlib.Data.Nat.Bitwise
import Mathlib.Tactic.IntervalCases
import ThunderboltIbverbs.Proto.DataCodec

/-! # The native control message on the wire

`proto/native_wire.h`: the 88 bytes of a HELLO, HELLO_ACK, READY or READY_ACK,
an XDomain header of 32 bytes, the native header of 16 and the hello of 40.  The
XDomain header packs a length with a sequence and holds the route as two words,
the high one first. -/
set_option autoImplicit false
namespace Tbv.HelloCodec

open NativeData Layout DataCodec

/-! ## Packed words -/

/-- The length word of an XDomain header for a message of `size` bytes. -/
def lengthSn (size : Nat) (sequence : UInt8) : UInt32 :=
  UInt32.ofNat ((size - 12) / 4) ||| ((sequence.toUInt32 &&& 0x3) <<< 27)

/-- The sequence a parser takes out of the length word. -/
def sequenceOf (lengthSn : UInt32) : UInt8 := ((lengthSn >>> 27) &&& 0x3).toUInt8

def routeHigh (route : UInt64) : UInt32 := (route >>> 32).toUInt32
def routeLow (route : UInt64) : UInt32 := (route &&& 0xffffffff).toUInt32

/-- The route a parser puts together, without its top bit. -/
def joinRoute (high low : UInt32) : UInt64 :=
  ((high.toUInt64 <<< 32) ||| low.toUInt64) &&& ~~~((1 : UInt64) <<< 63)

/-- The bits of the length word that carry the length and the sequence. -/
def lengthMask : UInt32 := 0x1800003f

theorem joinRoute_toNat (high low : UInt32) :
    (joinRoute high low).toNat = (high.toNat * 2 ^ 32 + low.toNat) % 2 ^ 63 := by
  have highBound := high.toNat_lt
  have mask : (~~~((1 : UInt64) <<< 63)).toNat = 2 ^ 63 - 1 := by decide
  have shifted : (high.toUInt64 <<< 32).toNat = high.toNat <<< 32 := by
    rw [UInt64.toNat_shiftLeft, UInt32.toNat_toUInt64,
      show (32 : UInt64).toNat % 64 = 32 from rfl, Nat.shiftLeft_eq]
    exact Nat.mod_eq_of_lt (by omega)
  have word : ((high.toUInt64 <<< 32) ||| low.toUInt64).toNat =
      high.toNat * 2 ^ 32 + low.toNat := by
    rw [UInt64.toNat_or, shifted, UInt32.toNat_toUInt64,
      ← Nat.shiftLeft_add_eq_or_of_lt (show low.toNat < 2 ^ 32 from low.toNat_lt),
      Nat.shiftLeft_eq]
  rw [joinRoute, UInt64.toNat_and, mask, word, Nat.and_two_pow_sub_one_eq_mod]

theorem routeHigh_toNat (route : UInt64) : (routeHigh route).toNat = route.toNat / 2 ^ 32 := by
  have bound := route.toNat_lt
  rw [routeHigh, UInt64.toNat_toUInt32, UInt64.toNat_shiftRight,
    show (32 : UInt64).toNat % 64 = 32 from rfl, Nat.shiftRight_eq_div_pow]
  exact Nat.mod_eq_of_lt (by omega)

theorem routeLow_toNat (route : UInt64) : (routeLow route).toNat = route.toNat % 2 ^ 32 := by
  rw [routeLow, UInt64.toNat_toUInt32, UInt64.toNat_and,
    show (0xffffffff : UInt64).toNat = 2 ^ 32 - 1 from rfl, Nat.and_two_pow_sub_one_eq_mod,
    Nat.mod_mod]

theorem joinRoute_split (route : UInt64) :
    joinRoute (routeHigh route) (routeLow route) = route % 0x8000000000000000 := by
  apply UInt64.toNat_inj.mp
  rw [joinRoute_toNat, routeHigh_toNat, routeLow_toNat, UInt64.toNat_mod,
    show (0x8000000000000000 : UInt64).toNat = 2 ^ 63 from rfl]
  omega

theorem routeHigh_join (high low : UInt32) :
    routeHigh (joinRoute high low) = high &&& 0x7fffffff := by
  have lowBound := low.toNat_lt
  have highBound := high.toNat_lt
  apply UInt32.toNat_inj.mp
  rw [routeHigh_toNat, joinRoute_toNat, UInt32.toNat_and,
    show (0x7fffffff : UInt32).toNat = 2 ^ 31 - 1 from rfl, Nat.and_two_pow_sub_one_eq_mod]
  omega

theorem routeLow_join (high low : UInt32) : routeLow (joinRoute high low) = low := by
  have lowBound := low.toNat_lt
  apply UInt32.toNat_inj.mp
  rw [routeLow_toNat, joinRoute_toNat]
  omega

theorem and_three_narrow (word : UInt32) : (word &&& 3).toUInt8.toUInt32 &&& 3 = word &&& 3 := by
  have low (value : Nat) : value &&& 3 = value % 4 := Nat.and_two_pow_sub_one_eq_mod value 2
  apply UInt32.toNat_inj.mp
  simp only [UInt32.toNat_and, UInt8.toNat_toUInt32, UInt32.toNat_toUInt8, UInt32.reduceToNat, low]
  omega

theorem lengthSn_toNat {size : Nat} (short : (size - 12) / 4 < 64) (sequence : UInt8) :
    (lengthSn size sequence).toNat = sequence.toNat % 4 * 2 ^ 27 + (size - 12) / 4 := by
  have words : (UInt32.ofNat ((size - 12) / 4)).toNat = (size - 12) / 4 :=
    UInt32.toNat_ofNat_of_lt' (Nat.lt_trans short (by decide))
  have packed : ((sequence.toUInt32 &&& 0x3) <<< 27).toNat = (sequence.toNat % 4) <<< 27 := by
    rw [UInt32.toNat_shiftLeft, UInt32.toNat_and, UInt8.toNat_toUInt32,
      show (0x3 : UInt32).toNat = 2 ^ 2 - 1 from rfl, Nat.and_two_pow_sub_one_eq_mod,
      show (27 : UInt32).toNat % 32 = 27 from rfl, Nat.shiftLeft_eq]
    omega
  rw [lengthSn, UInt32.toNat_or, words, packed, Nat.or_comm,
    ← Nat.shiftLeft_add_eq_or_of_lt (show (size - 12) / 4 < 2 ^ 27 by omega), Nat.shiftLeft_eq]

theorem sequenceOf_lengthSn {size : Nat} (short : (size - 12) / 4 < 64) (sequence : UInt8) :
    sequenceOf (lengthSn size sequence) = sequence % 4 := by
  apply UInt8.toNat_inj.mp
  rw [sequenceOf, UInt32.toNat_toUInt8, UInt32.toNat_and, UInt32.toNat_shiftRight,
    lengthSn_toNat short, show (0x3 : UInt32).toNat = 2 ^ 2 - 1 from rfl,
    Nat.and_two_pow_sub_one_eq_mod, show (27 : UInt32).toNat % 32 = 27 from rfl,
    Nat.shiftRight_eq_div_pow, UInt8.toNat_mod, show (4 : UInt8).toNat = 4 from rfl]
  omega

theorem lengthSn_words {size : Nat} (short : (size - 12) / 4 < 64) (sequence : UInt8) :
    lengthSn size sequence &&& 0x3f = UInt32.ofNat ((size - 12) / 4) := by
  apply UInt32.toNat_inj.mp
  rw [UInt32.toNat_and, lengthSn_toNat short, show (0x3f : UInt32).toNat = 2 ^ 6 - 1 from rfl,
    Nat.and_two_pow_sub_one_eq_mod, UInt32.toNat_ofNat_of_lt' (Nat.lt_trans short (by decide))]
  omega

/-- A length word is rebuilt from what is read of it, up to the bits that carry nothing. -/
theorem lengthSn_rebuilt {word : UInt32} {size : Nat}
    (length : word &&& 0x3f = UInt32.ofNat ((size - 12) / 4)) :
    lengthSn size (sequenceOf word) = word &&& lengthMask := by
  rw [lengthSn, ← length, sequenceOf, and_three_narrow, lengthMask]
  apply UInt32.toBitVec_inj.mp
  apply BitVec.eq_of_getLsbD_eq
  intro bit inside
  interval_cases bit <;> simp

/-! ## The message -/

structure WireHello where
  capabilities : UInt32
  railId : UInt32
  route : UInt64
  txHop : UInt32
  rxHop : UInt32
  transmitPath : UInt32
  txRingSize : UInt32
  rxRingSize : UInt32
  pathFlags : UInt32
  deriving DecidableEq, Repr

structure WireInfo where
  op : UInt16
  flags : UInt16
  xdomainSequence : UInt8
  seq : UInt32
  route : UInt64
  deriving DecidableEq, Repr

def wireMagic : UInt32 := 0x31564254
def wireVersion : UInt16 := 1
def xdomainHdrSize : Nat := 32
def wireHdrSize : Nat := 16
def helloSize : Nat := 40
def helloMsgSize : Nat := xdomainHdrSize + wireHdrSize + helloSize

def wireUuid : List UInt8 :=
  [0x7c, 0x2c, 0x8f, 0x1e, 0x5b, 0x4d, 0x4a, 0x01, 0x9f, 0x3a, 0x2b, 0x8e, 0x6d, 0x4c, 0x1a, 0x07]

/-- HELLO, HELLO_ACK, READY and READY_ACK. -/
def wireOps : List UInt16 := [1, 2, 3, 4]

/-- `tbv_native_wire_put_xdomain_header`, at the start of the message. -/
def xdomainFields (route : UInt64) (sequence : UInt8) (type : UInt32) (size : Nat) :
    List (Nat × List UInt8) :=
  [(0, putLe32 (routeHigh route)), (4, putLe32 (routeLow route)),
    (8, putLe32 (lengthSn size sequence)), (12, wireUuid), (28, putLe32 type)]

/-- `tbv_native_wire_put_header`, behind the XDomain header. -/
def wireFields (op length flags : UInt16) (seq : UInt32) : List (Nat × List UInt8) :=
  [(32, putLe32 wireMagic), (36, putLe16 wireVersion), (38, putLe16 op), (40, putLe16 length),
    (42, putLe16 flags), (44, putLe32 seq)]

def helloFields (hello : WireHello) : List (Nat × List UInt8) :=
  [(48, putLe32 hello.capabilities), (52, putLe32 hello.railId), (56, putLe64 hello.route),
    (64, putLe32 hello.txHop), (68, putLe32 hello.rxHop), (72, putLe32 hello.transmitPath),
    (76, putLe32 hello.txRingSize), (80, putLe32 hello.rxRingSize), (84, putLe32 hello.pathFlags)]

def messageFields (hello : WireHello) (info : WireInfo) : List (Nat × List UInt8) :=
  xdomainFields info.route info.xdomainSequence info.op.toUInt32 helloMsgSize ++
    wireFields info.op (UInt16.ofNat helloMsgSize) info.flags info.seq ++ helloFields hello

/-- `tbv_native_wire_build_hello`, its last five arguments as one record. -/
def buildHello (buf : List UInt8) (hello : WireHello) (info : WireInfo) :
    Except WireError (List UInt8) :=
  if info.op ∉ wireOps then .error .einval
  else if buf.length < helloMsgSize then .error .enospc
  else .ok (storeAll (store buf 0 (List.replicate helloMsgSize 0)) (messageFields hello info))

def readHello (buf : List UInt8) : WireHello :=
  { capabilities := getLe32 buf 48
    railId := getLe32 buf 52
    route := getLe64 buf 56
    txHop := getLe32 buf 64
    rxHop := getLe32 buf 68
    transmitPath := getLe32 buf 72
    txRingSize := getLe32 buf 76
    rxRingSize := getLe32 buf 80
    pathFlags := getLe32 buf 84 }

def readInfo (buf : List UInt8) : WireInfo :=
  { op := getLe16 buf 38
    flags := getLe16 buf 42
    xdomainSequence := sequenceOf (getLe32 buf 8)
    seq := getLe32 buf 44
    route := joinRoute (getLe32 buf 0) (getLe32 buf 4) }

def parseHello (buf : List UInt8) : Except WireError (WireHello × WireInfo) :=
  if buf.length < helloMsgSize then .error .einval
  else if getLe32 buf 8 &&& 0x3f ≠ UInt32.ofNat ((helloMsgSize - 12) / 4) then .error .einval
  else if slice buf 12 16 ≠ wireUuid then .error .einval
  else if getLe32 buf 28 ∉ wireOps.map UInt16.toUInt32 then .error .einval
  else if getLe32 buf 32 ≠ wireMagic then .error .einval
  else if getLe16 buf 36 ≠ wireVersion then .error .einval
  else if getLe16 buf 38 ∉ wireOps then .error .einval
  else if (getLe16 buf 38).toUInt32 ≠ getLe32 buf 28 then .error .einval
  else if getLe16 buf 40 ≠ UInt16.ofNat helloMsgSize ∨ buf.length < (getLe16 buf 40).toNat then
    .error .einval
  else .ok (readHello buf, readInfo buf)

/-! ## The message cut into its fields -/

def messagePieces (hello : WireHello) (info : WireInfo) : List (List UInt8) :=
  (messageFields hello info).map Prod.snd

def messageWidths : List Nat :=
  [4, 4, 4, 16, 4, 4, 2, 2, 2, 2, 4, 4, 4, 8, 4, 4, 4, 4, 4, 4]

theorem messagePieces_eq (hello : WireHello) (info : WireInfo) :
    messagePieces hello info =
      [putLe32 (routeHigh info.route), putLe32 (routeLow info.route),
        putLe32 (lengthSn helloMsgSize info.xdomainSequence), wireUuid,
        putLe32 info.op.toUInt32, putLe32 wireMagic, putLe16 wireVersion, putLe16 info.op,
        putLe16 (UInt16.ofNat helloMsgSize), putLe16 info.flags, putLe32 info.seq,
        putLe32 hello.capabilities, putLe32 hello.railId, putLe64 hello.route,
        putLe32 hello.txHop, putLe32 hello.rxHop, putLe32 hello.transmitPath,
        putLe32 hello.txRingSize, putLe32 hello.rxRingSize, putLe32 hello.pathFlags] := rfl

theorem messagePieces_widths (hello : WireHello) (info : WireInfo) :
    (messagePieces hello info).map List.length = messageWidths := by
  have uuidSize : wireUuid.length = 16 := rfl
  simp only [messagePieces_eq, List.map_cons, List.map_nil, putLe16_length, putLe32_length,
    putLe64_length, uuidSize, messageWidths]

theorem messagePieces_length (hello : WireHello) (info : WireInfo) :
    (messagePieces hello info).flatten.length = helloMsgSize := by
  rw [List.length_flatten, messagePieces_widths]
  rfl

theorem messageFields_consecutive (hello : WireHello) (info : WireInfo) :
    Consecutive 0 (messageFields hello info) := by
  have uuidSize : wireUuid.length = 16 := rfl
  simp only [messageFields, xdomainFields, wireFields, helloFields, List.cons_append,
    List.nil_append, Consecutive, putLe16_length, putLe32_length, putLe64_length, uuidSize,
    Nat.reduceAdd, and_self]

theorem storeAll_message (buf : List UInt8) (hello : WireHello) (info : WireInfo) :
    storeAll (store buf 0 (List.replicate helloMsgSize 0)) (messageFields hello info) =
      (messagePieces hello info).flatten ++ buf.drop helloMsgSize := by
  have cleared : store buf 0 (List.replicate helloMsgSize 0) =
      [] ++ List.replicate helloMsgSize 0 ++ buf.drop helloMsgSize := by
    rw [store_start, List.length_replicate, List.nil_append]
  have whole : contents (messageFields hello info) = (messagePieces hello info).flatten := by
    rw [contents, messagePieces]
  have size : (List.replicate helloMsgSize (0 : UInt8)).length =
      (contents (messageFields hello info)).length := by
    rw [List.length_replicate, whole, messagePieces_length]
  rw [cleared, storeAll_consecutive _ 0 [] _ _ (messageFields_consecutive hello info) rfl size,
    whole, List.nil_append]

/-- Every field of a built message stands where it is read. -/
theorem messagePieces_slices (hello : WireHello) (info : WireInfo) (trailing : List UInt8) :
    slices messageWidths ((messagePieces hello info).flatten ++ trailing) =
      messagePieces hello info := by
  rw [← messagePieces_widths hello info, slices_concat]

theorem readHello_pieces (hello : WireHello) (info : WireInfo) (trailing : List UInt8) :
    readHello ((messagePieces hello info).flatten ++ trailing) = hello := by
  obtain ⟨frame, frameEq⟩ :
      ∃ frame, frame = (messagePieces hello info).flatten ++ trailing := ⟨_, rfl⟩
  have cut := messagePieces_slices hello info trailing
  rw [← frameEq] at cut ⊢
  simp only [messageWidths, slices, List.drop_drop, Nat.reduceAdd, messagePieces_eq,
    List.cons.injEq, and_true] at cut
  obtain ⟨-, -, -, -, -, -, -, -, -, -, -, caps, rail, route, txHop, rxHop, path, txSize, rxSize,
    pathFlags⟩ := cut
  rw [readHello, getLe32_of_slice caps, getLe32_of_slice rail, getLe64_of_slice route,
    getLe32_of_slice txHop, getLe32_of_slice rxHop, getLe32_of_slice path,
    getLe32_of_slice txSize, getLe32_of_slice rxSize, getLe32_of_slice pathFlags]

/-- What `tbv_native_wire_parse_hello` has checked when it accepts. -/
structure WellFormed (buf : List UInt8) : Prop where
  room : helloMsgSize ≤ buf.length
  words : getLe32 buf 8 &&& 0x3f = UInt32.ofNat ((helloMsgSize - 12) / 4)
  uuid : slice buf 12 16 = wireUuid
  type : (getLe16 buf 38).toUInt32 = getLe32 buf 28
  magic : getLe32 buf 32 = wireMagic
  version : getLe16 buf 36 = wireVersion
  op : getLe16 buf 38 ∈ wireOps
  length : getLe16 buf 40 = UInt16.ofNat helloMsgSize

/-- What a parser reads off a built message: the route loses its top bit, the sequence all but
its two low bits. -/
def WireInfo.onWire (info : WireInfo) : WireInfo :=
  { info with
    xdomainSequence := info.xdomainSequence % 4
    route := info.route % 0x8000000000000000 }

theorem wellFormed_pieces (hello : WireHello) {info : WireInfo} (known : info.op ∈ wireOps)
    (trailing : List UInt8) :
    WellFormed ((messagePieces hello info).flatten ++ trailing) ∧
      readInfo ((messagePieces hello info).flatten ++ trailing) = info.onWire := by
  obtain ⟨frame, frameEq⟩ :
      ∃ frame, frame = (messagePieces hello info).flatten ++ trailing := ⟨_, rfl⟩
  have cut := messagePieces_slices hello info trailing
  have size : helloMsgSize ≤ frame.length := by
    rw [frameEq, List.length_append, messagePieces_length]
    omega
  rw [← frameEq] at cut ⊢
  simp only [messageWidths, slices, List.drop_drop, Nat.reduceAdd, messagePieces_eq,
    List.cons.injEq, and_true] at cut
  obtain ⟨high, low, words, uuid, type, magic, version, op, length, flags, seq, -⟩ := cut
  have highRead : getLe32 frame 0 = routeHigh info.route := getLe32_of_slice high
  have lowRead : getLe32 frame 4 = routeLow info.route := getLe32_of_slice low
  have wordsRead : getLe32 frame 8 = lengthSn helloMsgSize info.xdomainSequence :=
    getLe32_of_slice words
  have opRead : getLe16 frame 38 = info.op := getLe16_of_slice op
  refine ⟨⟨size, ?_, uuid, ?_, getLe32_of_slice magic, getLe16_of_slice version, ?_,
    getLe16_of_slice length⟩, ?_⟩
  · rw [wordsRead, lengthSn_words (by decide)]
  · rw [opRead, getLe32_of_slice type]
  · rw [opRead]
    exact known
  · rw [readInfo, highRead, lowRead, wordsRead, opRead, joinRoute_split,
      sequenceOf_lengthSn (by decide), getLe16_of_slice flags, getLe32_of_slice seq]
    rfl

theorem buildHello_eq_ok {buf image : List UInt8} {hello : WireHello} {info : WireInfo} :
    buildHello buf hello info = .ok image ↔
      info.op ∈ wireOps ∧ helloMsgSize ≤ buf.length ∧
        image = (messagePieces hello info).flatten ++ buf.drop helloMsgSize := by
  rw [buildHello, ← storeAll_message]
  constructor
  · intro built
    split at built
    · cases built
    · split at built
      · cases built
      · rename_i op size
        exact ⟨not_not.mp op, by omega, (Except.ok.inj built).symm⟩
  · rintro ⟨op, size, stored⟩
    rw [if_neg (not_not.mpr op), if_neg (by omega), stored]

theorem parseHello_eq_ok {buf : List UInt8} {hello : WireHello} {info : WireInfo} :
    parseHello buf = .ok (hello, info) ↔
      WellFormed buf ∧ hello = readHello buf ∧ info = readInfo buf := by
  unfold parseHello
  constructor
  · intro parsed
    repeat
      split at parsed
      · cases parsed
    rename_i room words uuid type magic version op same length
    simp only [ne_eq, not_not, not_or] at words uuid magic version op same length
    obtain ⟨rfl, rfl⟩ := Prod.mk.inj (Except.ok.inj parsed)
    exact ⟨⟨by omega, words, uuid, same, magic, version, op, length.1⟩, rfl, rfl⟩
  · rintro ⟨formed, rfl, rfl⟩
    have typeKnown : getLe32 buf 28 ∈ wireOps.map UInt16.toUInt32 := by
      rw [← formed.type]
      exact List.mem_map_of_mem formed.op
    have size : ¬ buf.length < (getLe16 buf 40).toNat := by
      rw [formed.length]
      exact Nat.not_lt.mpr formed.room
    rw [if_neg (Nat.not_lt.mpr formed.room), if_neg (not_not.mpr formed.words),
      if_neg (not_not.mpr formed.uuid), if_neg (not_not.mpr typeKnown),
      if_neg (not_not.mpr formed.magic), if_neg (not_not.mpr formed.version),
      if_neg (not_not.mpr formed.op), if_neg (not_not.mpr formed.type),
      if_neg (not_or.mpr ⟨not_not.mpr formed.length, size⟩)]

/-- The message with the bits the format leaves unused cleared: bit 63 of the route and bits
6 to 26 and 29 to 31 of the length word. -/
def clearUnused (bytes : List UInt8) : List UInt8 :=
  storeAll bytes
    [(0, putLe32 (getLe32 bytes 0 &&& 0x7fffffff)), (8, putLe32 (getLe32 bytes 8 &&& lengthMask))]

theorem clearUnused_split {bytes : List UInt8} (room : 12 ≤ bytes.length) :
    clearUnused bytes = putLe32 (getLe32 bytes 0 &&& 0x7fffffff) ++ slice bytes 4 4 ++
      putLe32 (getLe32 bytes 8 &&& lengthMask) ++ bytes.drop 12 := by
  have split : bytes = [] ++ slice bytes 0 4 ++ (slice bytes 4 4 ++ slice bytes 8 4 ++
      bytes.drop 12) := by
    have cut := slices_flatten [4, 4, 4] bytes
    simp only [slices, List.drop_drop, List.flatten_cons, List.flatten_nil, List.append_nil] at cut
    calc bytes = bytes.take 12 ++ bytes.drop 12 := (List.take_append_drop 12 bytes).symm
      _ = _ := by
        rw [show bytes.take 12 = _ from cut.symm]
        simp only [slice, List.append_assoc, List.nil_append, List.drop_zero]
  obtain ⟨high, highEq⟩ : ∃ high, high = putLe32 (getLe32 bytes 0 &&& 0x7fffffff) := ⟨_, rfl⟩
  obtain ⟨words, wordsEq⟩ : ∃ words, words = putLe32 (getLe32 bytes 8 &&& lengthMask) := ⟨_, rfl⟩
  have highSize : high.length = 4 := by rw [highEq]; rfl
  have wordsSize : words.length = 4 := by rw [wordsEq]; rfl
  have firstSize := length_slice_of_le (show 0 + 4 ≤ bytes.length by omega)
  have lowSize := length_slice_of_le (show 4 + 4 ≤ bytes.length by omega)
  have oldSize := length_slice_of_le (show 8 + 4 ≤ bytes.length by omega)
  rw [clearUnused, ← highEq, ← wordsEq]
  show store (store bytes 0 high) 8 words = _
  have front : store bytes 0 high =
      high ++ slice bytes 4 4 ++ slice bytes 8 4 ++ bytes.drop 12 := by
    have stored := store_between [] (slice bytes 0 4) high
      (slice bytes 4 4 ++ slice bytes 8 4 ++ bytes.drop 12) (by rw [firstSize, highSize])
    rw [← split] at stored
    simpa only [List.nil_append, List.append_assoc, List.length_nil] using stored
  have back := store_between (high ++ slice bytes 4 4) (slice bytes 8 4) words (bytes.drop 12)
    (by rw [oldSize, wordsSize])
  rw [List.length_append, highSize, lowSize] at back
  rw [front, back]

/-- What the parser accepted is rebuilt from what it returned, up to the unused bits. -/
theorem messagePieces_read {buf : List UInt8} (formed : WellFormed buf) :
    (messagePieces (readHello buf) (readInfo buf)).flatten =
      (clearUnused buf).take helloMsgSize := by
  have room : 88 ≤ buf.length := formed.room
  have rest := slices_flatten (messageWidths.drop 3) (buf.drop 12)
  simp only [messageWidths, List.drop_succ_cons, List.drop_zero, slices, List.drop_drop,
    Nat.reduceAdd, List.sum_cons, List.sum_nil] at rest
  have front : (putLe32 (getLe32 buf 0 &&& 0x7fffffff) ++ slice buf 4 4 ++
      putLe32 (getLe32 buf 8 &&& lengthMask)).length = 12 := by
    rw [List.length_append, List.length_append, length_slice_of_le (by omega)]
    rfl
  have cleared : (clearUnused buf).take helloMsgSize =
      putLe32 (getLe32 buf 0 &&& 0x7fffffff) ++ slice buf 4 4 ++
        putLe32 (getLe32 buf 8 &&& lengthMask) ++ (buf.drop 12).take 76 := by
    rw [clearUnused_split (by omega), show helloMsgSize = 12 + 76 from rfl, ← front,
      List.take_length_add_append]
  rw [cleared, ← rest]
  rw [messagePieces_eq]
  have low : putLe32 (routeLow (readInfo buf).route) = slice buf 4 4 := by
    rw [readInfo, routeLow_join, putLe32_getLe32 (by omega)]
  have high : routeHigh (readInfo buf).route = getLe32 buf 0 &&& 0x7fffffff :=
    routeHigh_join _ _
  have words : lengthSn helloMsgSize (readInfo buf).xdomainSequence =
      getLe32 buf 8 &&& lengthMask := lengthSn_rebuilt formed.words
  have type : putLe32 (readInfo buf).op.toUInt32 = slice buf 28 4 := by
    rw [show (readInfo buf).op.toUInt32 = getLe32 buf 28 from formed.type,
      putLe32_getLe32 (by omega)]
  rw [high, low, words, type, ← formed.uuid, ← formed.magic, ← formed.version, ← formed.length]
  simp only [readHello, readInfo]
  rw [putLe32_getLe32 (by omega), putLe16_getLe16 (by omega), putLe16_getLe16 (by omega),
    putLe16_getLe16 (by omega), putLe16_getLe16 (by omega), putLe32_getLe32 (by omega),
    putLe32_getLe32 (by omega), putLe32_getLe32 (by omega), putLe64_getLe64 (by omega),
    putLe32_getLe32 (by omega), putLe32_getLe32 (by omega), putLe32_getLe32 (by omega),
    putLe32_getLe32 (by omega), putLe32_getLe32 (by omega), putLe32_getLe32 (by omega)]
  simp only [slice, List.flatten_cons, List.flatten_nil, List.append_assoc]

/-- Every control message survives the wire; every accepted message is one of the format and is
rebuilt from what was parsed, up to the bits that carry nothing. -/
theorem hello_roundTrip :
    (∀ (buf : List UInt8) (hello : WireHello) (info : WireInfo), info.op ∈ wireOps →
      helloMsgSize ≤ buf.length →
      ∃ image, buildHello buf hello info = .ok image ∧
        ∀ trailing, parseHello (image.take helloMsgSize ++ trailing) = .ok (hello,
          { info with
            xdomainSequence := info.xdomainSequence % 4
            route := info.route % 0x8000000000000000 })) ∧
    ∀ (bytes buf : List UInt8) (hello : WireHello) (info : WireInfo),
      parseHello bytes = .ok (hello, info) → helloMsgSize ≤ buf.length →
      (info.op ∈ wireOps ∧ getLe16 bytes 38 = info.op ∧ getLe32 bytes 28 = info.op.toUInt32 ∧
        (getLe32 bytes 8 &&& 0x3f).toNat * 4 + 12 = helloMsgSize ∧
        (getLe16 bytes 40).toNat = helloMsgSize ∧ slice bytes 12 16 = wireUuid ∧
        getLe32 bytes 32 = wireMagic ∧ getLe16 bytes 36 = wireVersion) ∧
      ∃ image, buildHello buf hello info = .ok image ∧
        image.take helloMsgSize = (clearUnused bytes).take helloMsgSize := by
  constructor
  · intro buf hello info known room
    refine ⟨_, buildHello_eq_ok.mpr ⟨known, room, rfl⟩, fun trailing => ?_⟩
    rw [List.take_left' (messagePieces_length hello info)]
    obtain ⟨formed, infoRead⟩ := wellFormed_pieces hello known trailing
    exact parseHello_eq_ok.mpr ⟨formed, (readHello_pieces hello info trailing).symm, infoRead.symm⟩
  · intro bytes buf hello info parsed room
    obtain ⟨formed, helloEq, infoEq⟩ := parseHello_eq_ok.mp parsed
    have opEq : info.op = getLe16 bytes 38 := congrArg WireInfo.op infoEq
    have known : info.op ∈ wireOps := by
      rw [opEq]
      exact formed.op
    have type : getLe32 bytes 28 = info.op.toUInt32 := by
      rw [opEq]
      exact formed.type.symm
    have words : (getLe32 bytes 8 &&& 0x3f).toNat * 4 + 12 = helloMsgSize := by
      rw [formed.words]
      rfl
    have length : (getLe16 bytes 40).toNat = helloMsgSize := by
      rw [formed.length]
      rfl
    refine ⟨⟨known, opEq.symm, type, words, length, formed.uuid, formed.magic,
      formed.version⟩, _, buildHello_eq_ok.mpr ⟨known, room, rfl⟩, ?_⟩
    rw [List.take_left' (messagePieces_length hello info), helloEq, infoEq,
      messagePieces_read formed]

def readyHello : WireHello :=
  { capabilities := 7, railId := 2, route := 0x8000000000000003, txHop := 8, rxHop := 9
    transmitPath := 8, txRingSize := 256, rxRingSize := 512, pathFlags := 1 }

def readyInfo : WireInfo :=
  { op := 3, flags := 5, xdomainSequence := 6, seq := 0xdeadbeef, route := 0x8000000000000003 }

/-- A READY whose route has its top bit set and whose sequence is 6. -/
theorem ready_roundTrip :
    ∃ image, buildHello (List.replicate 96 0x55) readyHello readyInfo = .ok image ∧
      parseHello (image.take helloMsgSize ++ [1, 2, 3]) =
        .ok (readyHello, { readyInfo with xdomainSequence := 2, route := 3 }) ∧
      ∃ again, buildHello (List.replicate 88 0) readyHello
          { readyInfo with xdomainSequence := 2, route := 3 } = .ok again ∧
        again.take helloMsgSize =
          (clearUnused (image.take helloMsgSize ++ [1, 2, 3])).take helloMsgSize := by
  obtain ⟨image, built, parsed⟩ :=
    hello_roundTrip.1 (List.replicate 96 0x55) readyHello readyInfo (by decide) (by decide)
  exact ⟨image, built, parsed [1, 2, 3],
    (hello_roundTrip.2 _ (List.replicate 88 0) _ _ (parsed [1, 2, 3]) (by decide)).2⟩

end Tbv.HelloCodec
