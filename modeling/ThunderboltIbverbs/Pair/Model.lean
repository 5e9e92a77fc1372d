import ThunderboltIbverbs.Send.Armed
import ThunderboltIbverbs.Recv.Spec

/-! # A connected pair of native QPs

The send queue of one QP, the receive side of its peer, and the frames between them:
data frames one way, acknowledgements and receive credits the other.  Data frames may
be lost; control frames are not, but any of them may overtake any other. -/
set_option autoImplicit false
namespace Tbv.Pair

open Tbv.NativeData
open SendQueue (QpConfig Frame Choice Event buildNativeHeader fragCount fragLen totalLen)
open RecvQueue (Rx RxConfig RecvWqe Env Input)

/-- The two QP numbers. -/
structure Ends where
  senderQp : Nat
  receiverQp : Nat
  deriving DecidableEq, Repr

/-- `data` holds the headers of the data frames on their way; what a frame carries is
left to its arrival.  A call into the receiver is a thread of its inputs. -/
structure Net where
  sender : SendQueue.St
  receiver : Threads.State Rx Input
  data : List Header := []
  acks : List (Nat × SendAckStatus) := []
  credits : List Nat := []

/-! ## What is sent -/

def fragmentHeader (ends : Ends) (q : SendQueue.Qp) (c i : Nat) : Header :=
  let total := totalLen (q.ctx c).wr.segs
  buildNativeHeader (q.ctx c).wr ends.receiverQp ends.senderQp (q.ctx c).psn (i * maxPayload)
    (fragLen total (i * maxPayload)) (i + 1 = fragCount total)

/-- The request frame of a READ; its address and length play no part here. -/
def readReqHeader (ends : Ends) (q : SendQueue.Qp) (r : Nat) : Header :=
  { opcode := .rdmaReadReq, flags := fLast, destQp := ends.receiverQp, srcQp := ends.senderQp
    psn := (q.read r).psn }

def sentFrames (ends : Ends) (st : SendQueue.St) : SendQueue.Lbl → List Header
  | .run thread (.queued taken _) =>
      match st.top thread with
      | some (.postFrames c _ (.enqueue _) _) =>
          (List.range taken).map (fragmentHeader ends st.shared c)
      | _ => []
  | .run thread .ok =>
      match st.top thread with
      | some (.postRead r .send) => [readReqHeader ends st.shared r]
      | _ => []
  | _ => []

/-- The steps the sender takes by itself: no frame arrives and the QP is not destroyed. -/
def ownStep : SendQueue.Lbl → Bool
  | .event (.ack _ _) | .event (.recvCredit _) | .event .close | .event .stopProducers => false
  | _ => true

/-- `tbv_post_recv`: the WQEs one by one, then the advertisement and the drain. -/
def postRecv (wqes : List RecvWqe) : List Input := wqes.map .post ++ [.advertise, .drain]

/-- One section of the receiver; what it cannot know is in `env`. -/
def serve (q : Rx) (input : Input) (env : Env) : Option (Rx × List Input) :=
  some (q.step env input, [])

def ackOf : RecvQueue.Entry → Option (Nat × SendAckStatus)
  | .ack psn status _ => some (psn, status)
  | _ => none

def creditOf : RecvQueue.Entry → Option Nat
  | .credit _ credits => some credits
  | _ => none

/-- The receiver has taken a step; what it noted in it is on the way back. -/
def Net.answer (net : Net) (after : Threads.State Rx Input) : Net :=
  let new := after.shared.log.drop net.receiver.shared.log.length
  { net with
    receiver := after
    acks := net.acks ++ new.filterMap ackOf
    credits := net.credits ++ new.filterMap creditOf }

/-! ## Steps -/

inductive Label where
  | send (label : SendQueue.Lbl)
  | postRecv (wqes : List RecvWqe)
  | recv (thread : Nat) (env : Env)
  | data (i : Nat) (payload : List UInt8)
  | lose (i : Nat)
  | ack (i : Nat)
  | credit (i : Nat)

/-- No event of its own starts a thread of the receiver. -/
def noEvent (_ : Rx) (event : Empty) : Option (Rx × List Input) := nomatch event

def step (ends : Ends) (net : Net) : Label → Option Net
  | .send label =>
      if ownStep label then
        (SendQueue.step net.sender label).map fun st =>
          { net with sender := st, data := net.data ++ sentFrames ends net.sender label }
      else none
  | .postRecv wqes =>
      some { net with receiver :=
        ⟨net.receiver.shared, net.receiver.threads ++ [Pair.postRecv wqes]⟩ }
  | .recv thread env => (Threads.step noEvent serve net.receiver (.run thread env)).map net.answer
  | .data i payload =>
      match net.data[i]? with
      | some hdr =>
          if payload.length = hdr.length then
            some { net with
              data := net.data.eraseIdx i
              receiver :=
                ⟨net.receiver.shared, net.receiver.threads ++ [[.frame hdr payload]]⟩ }
          else none
      | none => none
  | .lose i => if i < net.data.length then some { net with data := net.data.eraseIdx i } else none
  | .ack i =>
      match net.acks[i]? with
      | some (psn, status) =>
          (SendQueue.step net.sender (.event (.ack psn status))).map fun st =>
            { net with sender := st, acks := net.acks.eraseIdx i }
      | none => none
  -- a QP in error ignores credits
  | .credit i =>
      match net.credits[i]? with
      | some credits =>
          if net.sender.shared.live then
            (SendQueue.step net.sender (.event (.recvCredit credits))).map fun st =>
              { net with sender := st, credits := net.credits.eraseIdx i }
          else some { net with credits := net.credits.eraseIdx i }
      | none => none

/-- The receiver as `tbv_modify_qp` to RTS leaves it, with nothing posted. -/
def connectedRx (ends : Ends) (cfg : QpConfig) (recvqSize : Nat) (striping remoteWrite : Bool) :
    Rx :=
  { Rx.created ⟨ends.receiverQp, recvqSize, striping⟩ with
    state := .rts
    destQp := some ends.senderQp
    remoteWrite := remoteWrite
    expectedPsn := cfg.initialPsn % RecvQueue.psnMod }

def start (cfg : QpConfig) (memory : Nat → UInt8) (rx : Rx) : Net where
  sender := SendQueue.start cfg memory
  receiver := ⟨rx, []⟩

/-- Nothing is on its way, nothing is being handled and no reaper will come; the peer has
a receive posted and the oldest pending send waits for its credit, which nobody holds. -/
structure Wedged (net : Net) : Prop where
  data : net.data = []
  acks : net.acks = []
  credits : net.credits = []
  retired : ∀ c, net.sender.shared.inFlight c = 0 ∧ net.sender.shared.rawInFlight c = 0
  senderIdle : ∀ f, ¬ net.sender.Has f
  receiverIdle : ∀ input, ¬ net.receiver.Has input
  unarmed : net.sender.shared.timeoutArmed = false
  posted : net.receiver.shared.recvq ≠ []
  waiting : ∃ c, net.sender.shared.pendingSends.head? = some c ∧
    (net.sender.shared.ctx c).rnrWaiting = true
  spent : net.sender.shared.remoteRecvCredits = 0

/-! ## Control frames -/

def answersRnr (psn : Nat) : Frame → Bool
  | .ack given .rnr | .ackHandle given .rnr => given % SendQueue.psnMod == psn
  | _ => false

/-- An RNR acknowledgement of the PSN is on its way or being handled. -/
def Net.RnrUnderWay (net : Net) (psn : Nat) : Prop :=
  (∃ ack ∈ net.acks, ack.2 = .rnr ∧ ack.1 % SendQueue.psnMod = psn) ∨
    ∃ f, net.sender.Has f ∧ answersRnr psn f = true

instance (net : Net) (psn : Nat) : Decidable (net.RnrUnderWay psn) :=
  inferInstanceAs (Decidable (_ ∨ _))

/-- The send that a step of the sender puts on its pending list. -/
def queuedNow (st : SendQueue.St) : SendQueue.Lbl → Option Nat
  | .run thread _ =>
      match st.top thread with
      | some (.post c (.queue _)) => some c
      | _ => none
  | _ => none

def Lossless : Label → Prop
  | .recv _ env => env.creditSent = true
  | _ => True

/-- No send is queued under a PSN that an RNR acknowledgement on its way still names. -/
def PsnsApart (net : Net) : Label → Prop
  | .send label => ∀ c, queuedNow net.sender label = some c →
      ¬ net.RnrUnderWay (net.sender.shared.ctx c).psn
  | _ => True

instance (label : Label) : Decidable (Lossless label) :=
  match label with
  | .recv _ env => inferInstanceAs (Decidable (env.creditSent = true))
  | .send _ | .postRecv _ | .data _ _ | .lose _ | .ack _ | .credit _ => isTrue trivial

instance (net : Net) (label : Label) : Decidable (PsnsApart net label) :=
  match label with
  | .send label => inferInstanceAs (Decidable (∀ c ∈ queuedNow net.sender label,
      ¬ net.RnrUnderWay (net.sender.shared.ctx c).psn))
  | .recv _ _ | .postRecv _ | .data _ _ | .lose _ | .ack _ | .credit _ => isTrue trivial

end Tbv.Pair
