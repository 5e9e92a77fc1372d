import ThunderboltIbverbs.Read.Model
import ThunderboltIbverbs.Recv.Alike
import ThunderboltIbverbs.Send.Exec

/-! # Both sides of a native QP

`struct tbv_qp` whole: its receive side, its send side with the lists of pending requests, and
every frame of its peer.  An acknowledgement that ends a send with an error takes the whole QP to
ERR, and its receives with it. -/
set_option autoImplicit false
namespace Tbv.RecvQueue

open Tbv.NativeData
open ReadQueue (ReadAckStatus)

/-- The state and the counters that both sides use are those of `rx`. -/
structure NativeQp where
  rx : Rx
  tx : SendQueue.St
  /-- The `READ_ACK` frames that were sent. -/
  readAcks : List (Nat × ReadAckStatus) := []

def QpState.forSend : QpState → SendQueue.QpState
  | .reset => .reset
  | .err => .err
  | .init | .rtr | .rts | .sqd | .sqe => .rts

/-- The send side with what it shares.  Its timer may run at any time; with nothing pending it
finds nothing to do. -/
def sendSide (rx : Rx) (tx : SendQueue.St) : SendQueue.St :=
  ⟨{ tx.shared with
      state := rx.state.forSend
      closing := rx.closing
      sendPsn := rx.sendPsn
      remoteRecvCredits := rx.remoteCredits
      timeoutArmed := true }, tx.threads⟩

def NativeQp.sender (q : NativeQp) : SendQueue.St := sendSide q.rx q.tx

/-- What a step of the send side leaves; `tbv_qp_mark_error` flushes the receive side too. -/
def NativeQp.sent (q : NativeQp) (env : Env) (st : SendQueue.St) : NativeQp :=
  let failed := q.rx.state.forSend ≠ .err ∧ st.shared.state = .err
  let rx := if failed then q.rx.markError env else q.rx
  { q with
    rx := { rx with
      closing := st.shared.closing
      sendPsn := st.shared.sendPsn
      remoteCredits := st.shared.remoteRecvCredits }
    tx := st }

def NativeQp.send (q : NativeQp) (env : Env) (label : SendQueue.Lbl) : NativeQp :=
  match SendQueue.step q.sender label with
  | some st => q.sent env st
  | none => q

def NativeQp.begin (q : NativeQp) (code : List SendQueue.Frame) : NativeQp :=
  { q with tx := ⟨q.tx.shared, q.tx.threads ++ [code]⟩ }

def NativeQp.sendReadAck (q : NativeQp) (psn : Nat) (status : ReadAckStatus) : NativeQp :=
  { q with readAcks := q.readAcks ++ [(psn, status)] }

/-! ## Frames of the peer -/

def sendAckStatus : Nat → Option SendAckStatus
  | 0 => some .ok
  | 1 => some .rnr
  | 2 => some .error
  | _ => none

/-- What becomes of a response to a READ that is pending: more fragments are to come, or the
READ ends with a status. -/
inductive ReadResult where
  | more (gap : Bool)
  | ends (status : Int)
  deriving DecidableEq, Repr

/-- `tbv_rx_handle_rdma_read_resp`; what it finds of a pending READ is given. -/
def NativeQp.handleRdmaReadResp (q : NativeQp) (psn : Nat) (found : ReadResult) : NativeQp :=
  match q.tx.shared.pendingReads.find? fun r => (q.tx.shared.read r).psn == psn with
  | none => q.sendReadAck psn .ok
  | some r =>
      match found with
      | .more gap => if gap then q.sendReadAck psn .retry else q
      | .ends status =>
          (q.sendReadAck psn (if status = 0 then .ok else .error)).begin [.completeRead r status]

/-- `tbv_ibdev_rx_native_frame`.  A `READ_ACK` concerns only the READ responses that this QP
sends. -/
def NativeQp.frame (q : NativeQp) (env : Env) (hdr : Header) (payload : List UInt8)
    (found : ReadResult) : NativeQp :=
  match hdr.opcode with
  | .sendAck =>
      if q.rx.validEndpoint hdr then
        match sendAckStatus hdr.immData with
        | some status => q.begin [.ackHandle hdr.psn status]
        | none => q
      else q
  | .rdmaReadResp => if q.rx.validEndpoint hdr then q.handleRdmaReadResp hdr.psn found else q
  | _ => { q with rx := q.rx.rxFrame env hdr payload }

/-! ## Steps -/

/-- What happens to a QP: a frame of the peer, a section of `tbv_post_recv`, or a step of the
send side. -/
inductive Doing where
  | frame (hdr : Header) (payload : List UInt8) (found : ReadResult)
  | post (wqe : RecvWqe)
  | advertise
  | drain
  | send (label : SendQueue.Lbl)

/-- The steps that stand for a frame of the peer are taken with that frame. -/
def ofPeer : SendQueue.Lbl → Bool
  | .event (.ack ..) | .event (.readResponse ..) | .event (.recvCredit ..) => true
  | _ => false

def NativeQp.step (q : NativeQp) (env : Env) : Doing → NativeQp
  | .frame hdr payload found => q.frame env hdr payload found
  | .post wqe => { q with rx := (q.rx.postOne wqe).1 }
  | .advertise => { q with rx := q.rx.advertiseRecvCredits env }
  | .drain => { q with rx := q.rx.drainReorder env }
  | .send label => if ofPeer label then q else q.send env label

def NativeQp.run (q : NativeQp) (doings : List (Env × Doing)) : NativeQp :=
  doings.foldl (fun q doing => q.step doing.1 doing.2) q

/-- `tbv_modify_qp`; a transition to ERR flushes the send side as well. -/
def NativeQp.modify (q : NativeQp) (env : Env) (attrs : Attrs) : Option NativeQp :=
  (q.rx.modify env attrs).map fun rx =>
    let next := { q with rx }
    if q.rx.state ≠ .err ∧ attrs.state = some .err then next.begin [.flushSends, .flushReads]
    else next

/-! ## QPs that cannot be told apart -/

/-- The receive sides cannot be told apart, and the send sides are the same. -/
structure AlikeQp (peer : Nat) (q q' : NativeQp) : Prop where
  rx : Alike peer q.rx q'.rx
  sender : q'.sender = q.sender
  readAcks : q'.readAcks = q.readAcks

section AlikeQp
variable {peer : Nat} {q q' : NativeQp} {env : Env}

theorem sendSide_alike {rx rx' : Rx} (alike : Alike peer rx rx') (tx : SendQueue.St) :
    sendSide rx' tx = sendSide rx tx :=
  alike.same (sendSide · tx) fun _ _ _ _ => rfl

/-- The send sides stay the same while only the receive sides change. -/
theorem AlikeQp.receive (alike : AlikeQp peer q q') {rx rx' : Rx} (same : Alike peer rx rx') :
    AlikeQp peer { q with rx } { q' with rx := rx' } where
  rx := same
  sender := by
    have kept := congrArg (sendSide rx) alike.sender
    exact (sendSide_alike same _).trans kept
  readAcks := alike.readAcks

theorem AlikeQp.begin (alike : AlikeQp peer q q') (code : List SendQueue.Frame) :
    AlikeQp peer (q.begin code) (q'.begin code) where
  rx := alike.rx
  sender := by
    have grown := congrArg
      (fun st : SendQueue.St => (⟨st.shared, st.threads ++ [code]⟩ : SendQueue.St)) alike.sender
    exact grown
  readAcks := alike.readAcks

theorem AlikeQp.sendReadAck (alike : AlikeQp peer q q') (psn : Nat) (status : ReadAckStatus) :
    AlikeQp peer (q.sendReadAck psn status) (q'.sendReadAck psn status) where
  rx := alike.rx
  sender := alike.sender
  readAcks := congrArg (· ++ [(psn, status)]) alike.readAcks

theorem AlikeQp.sent (alike : AlikeQp peer q q') (st : SendQueue.St) :
    AlikeQp peer (q.sent env st) (q'.sent env st) := by
  have state := alike.rx.same Rx.state fun _ _ _ _ => rfl
  have failed : Alike peer
      (if q.rx.state.forSend ≠ .err ∧ st.shared.state = .err then q.rx.markError env else q.rx)
      (if q'.rx.state.forSend ≠ .err ∧ st.shared.state = .err then q'.rx.markError env
        else q'.rx) :=
    Alike.ite' (by rw [state]) (fun _ => alike.rx.markError) fun _ => alike.rx
  have shared := failed.update
    (fun rx => { rx with
      closing := st.shared.closing
      sendPsn := st.shared.sendPsn
      remoteCredits := st.shared.remoteRecvCredits })
    (fun _ _ _ => rfl) ⟨rfl, rfl, rfl⟩
  exact ⟨shared, sendSide_alike shared st, alike.readAcks⟩

theorem AlikeQp.send (alike : AlikeQp peer q q') (label : SendQueue.Lbl) :
    AlikeQp peer (q.send env label) (q'.send env label) := by
  unfold NativeQp.send
  rw [alike.sender]
  cases SendQueue.step q.sender label with
  | none => exact alike
  | some st => exact alike.sent st

theorem AlikeQp.handleRdmaReadResp (alike : AlikeQp peer q q') (psn : Nat) (found : ReadResult) :
    AlikeQp peer (q.handleRdmaReadResp psn found) (q'.handleRdmaReadResp psn found) := by
  have reads : q'.tx.shared.pendingReads = q.tx.shared.pendingReads := by
    have same := congrArg (fun st : SendQueue.St => st.shared.pendingReads) alike.sender
    exact same
  have read : q'.tx.shared.read = q.tx.shared.read := by
    have same := congrArg (fun st : SendQueue.St => st.shared.read) alike.sender
    exact same
  unfold NativeQp.handleRdmaReadResp
  rw [reads, read]
  split
  · exact alike.sendReadAck ..
  · cases found with
    | more gap =>
        cases gap with
        | false => exact alike
        | true => exact alike.sendReadAck ..
    | ends status => exact (alike.sendReadAck ..).begin _

theorem AlikeQp.frame (alike : AlikeQp peer q q') (hdr : Header) (payload : List UInt8)
    (found : ReadResult) :
    AlikeQp peer (q.frame env hdr payload found) (q'.frame env hdr payload found) := by
  unfold NativeQp.frame
  rw [alike.rx.validEndpoint]
  split
  · split
    · cases sendAckStatus hdr.immData with
      | none => exact alike
      | some status => exact alike.begin _
    · exact alike
  · split
    · exact alike.handleRdmaReadResp ..
    · exact alike
  · exact alike.receive (alike.rx.rxFrame hdr payload)

theorem AlikeQp.step (alike : AlikeQp peer q q') (doing : Doing) :
    AlikeQp peer (q.step env doing) (q'.step env doing) := by
  cases doing with
  | frame hdr payload found => exact alike.frame hdr payload found
  | post wqe => exact alike.receive (alike.rx.postOne wqe)
  | advertise => exact alike.receive alike.rx.advertiseRecvCredits
  | drain => exact alike.receive alike.rx.drainReorder
  | send label =>
      unfold NativeQp.step
      dsimp only
      split
      · exact alike
      · exact alike.send label

/-- What may differ never shows, whatever the QPs receive and are given. -/
theorem AlikeQp.run (alike : AlikeQp peer q q') (doings : List (Env × Doing)) :
    AlikeQp peer (q.run doings) (q'.run doings) := by
  induction doings generalizing q q' with
  | nil => exact alike
  | cons doing rest ih => exact ih (alike.step doing.2)

end AlikeQp

end Tbv.RecvQueue
