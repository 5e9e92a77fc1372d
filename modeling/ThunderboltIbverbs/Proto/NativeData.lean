import Mathlib.Tactic.Common
import Mathlib.Tactic.Ring
import Mathlib.Data.Nat.Basic

/-! # The native data frame: header, credit arithmetic and fragment shape

`proto/native_data.h`.  A header is modelled in its parsed form: the opcode is
one of the eleven `tbv_native_data_parse_header` accepts, the 32 and 64 bit
fields are natural numbers.  The arithmetic of the receive window is here too,
since both ends of a path compute it from the same inline functions. -/
set_option autoImplicit false
namespace Tbv.NativeData

def hdrSize : Nat := 48
def frameSize : Nat := 4096
def maxPayload : Nat := frameSize - hdrSize
def maxMsgSize : Nat := 16 * 1024 * 1024
def creditBatch : Nat := 256
def maxFrags : Nat := (maxMsgSize + maxPayload - 1) / maxPayload

/-- `enum tbv_native_data_op`. -/
inductive Op where
  | send | sendAck | rdmaWrite | rdmaWriteImm | recvCredit | sendImm
  | rdmaReadReq | rdmaReadResp | pathCredit | rdmaReadAck | mad
  deriving DecidableEq, Repr

/-- `enum tbv_native_data_flag`. -/
def fLast : UInt8 := 1
def fSolicited : UInt8 := 2
def fRawStream : UInt8 := 4

def hasFlag (flags bit : UInt8) : Bool := flags &&& bit != 0

inductive SendAckStatus where
  | ok | rnr | error
  deriving DecidableEq, Repr

structure Header where
  opcode : Op
  flags : UInt8 := 0
  destQp : Nat := 0
  srcQp : Nat := 0
  psn : Nat := 0
  length : Nat := 0
  immData : Nat := 0
  remoteAddr : Nat := 0
  rkey : Nat := 0
  fragOffset : Nat := 0
  deriving DecidableEq, Repr

/-! ## Credit arithmetic -/

def creditReturnThreshold (creditWindow : Nat) : Nat :=
  if creditWindow ≠ 0 ∧ creditWindow < creditBatch then creditWindow else creditBatch

def startCreditRequired (frames creditWindow : Nat) : Nat :=
  if frames = 0 then 0
  else if frames < creditReturnThreshold creditWindow then frames
  else creditReturnThreshold creditWindow

theorem creditReturnThreshold_pos (creditWindow : Nat) :
    0 < creditReturnThreshold creditWindow := by
  unfold creditReturnThreshold creditBatch
  split <;> omega

theorem startCreditRequired_eq_min (frames creditWindow : Nat) :
    startCreditRequired frames creditWindow =
      min frames (creditReturnThreshold creditWindow) := by
  have := creditReturnThreshold_pos creditWindow
  unfold startCreditRequired
  split
  · simp_all
  · split <;> omega

/-! ## Raw streams and fragments -/

def rawPayloadHeader (stream : Header) (done remaining payloadLen : Nat) : Option Header :=
  if !hasFlag stream.flags fRawStream then none
  else if payloadLen = 0 ∨ remaining < payloadLen then none
  else
    let cleared := stream.flags &&& ~~~(fRawStream ||| fLast ||| fSolicited)
    some { stream with
      flags := if payloadLen = remaining then
          cleared ||| (stream.flags &&& (fLast ||| fSolicited)) else cleared
      length := payloadLen
      fragOffset := done }

/-- `tbv_native_data_fragment_shape`: the index and the number of fragments of
the fragment at `offset`, when it is one of the tiling of `totalLen`. -/
def fragmentShape (totalLen maxPayload maxFrags offset len : Nat) (last : Bool) :
    Option (Nat × Nat) :=
  if maxPayload = 0 ∨ maxFrags = 0 then none
  else if totalLen = 0 then
    if offset ≠ 0 ∨ len ≠ 0 ∨ last = false then none else some (0, 1)
  else if offset % maxPayload ≠ 0 then none
  else
    let idx := offset / maxPayload
    let count := ((totalLen + maxPayload - 1) % 2 ^ 32) / maxPayload
    if count ≤ idx ∨ maxFrags < count then none
    else
      let expectedLen := if idx = count - 1 then totalLen - idx * maxPayload else maxPayload
      if len ≠ expectedLen then none
      else if last ≠ decide (idx = count - 1) then none
      else some (idx, count)

def rxFragmentShape (totalLen offset len : Nat) (last : Bool) : Option (Nat × Nat) :=
  fragmentShape totalLen maxPayload maxFrags offset len last

def rxWriteFragmentShape (totalLen offset len : Nat) (last : Bool) : Option (Nat × Nat) :=
  (rxFragmentShape totalLen offset len last).or
    (fragmentShape totalLen frameSize maxFrags offset len last)

end Tbv.NativeData
