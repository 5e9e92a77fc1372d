import ThunderboltIbverbs.Recv.NativeQp

/-! # A QP that is reset and connected again

`tbv_modify_qp` to RESET only stores the state.  What the QP held for its last
connection stays: it shows in the next one, unless there was nothing of it. -/
set_option autoImplicit false
namespace Tbv.RecvQueue

open Tbv.NativeData

structure Connection where
  remoteWrite : Bool
  destQp : Nat
  rqPsn : Nat
  sqPsn : Nat
  deriving DecidableEq, Repr

/-- INIT, RTR and RTS; the kernel may do for each call what it likes. -/
def Rx.connect (q : Rx) (envs : QpState → Env) (c : Connection) : Option Rx := do
  let q ← q.modify (envs .init) { state := some .init, remoteWrite := some c.remoteWrite }
  let q ← q.modify (envs .rtr)
    { state := some .rtr, destQp := some c.destQp, rqPsn := some c.rqPsn }
  q.modify (envs .rts) { state := some .rts, sqPsn := some c.sqPsn }

/-- The transitions to RTS leave the send side alone, but for its timeouts and retry counts. -/
def NativeQp.connect (q : NativeQp) (envs : QpState → Env) (c : Connection)
    (attrs : SendQueue.QpConfig) : Option NativeQp :=
  (q.rx.connect envs c).map fun rx =>
    { q with rx, tx := ⟨{ q.tx.shared with cfg := attrs }, q.tx.threads⟩ }

def NativeQp.reconnect (q : NativeQp) (envs : QpState → Env) (c : Connection)
    (attrs : SendQueue.QpConfig) : Option NativeQp := do
  let q ← q.modify (envs .reset) { state := some .reset }
  q.connect envs c attrs

inductive Call where
  | doing (env : Env) (doing : Doing)
  | modify (env : Env) (attrs : Attrs)

def NativeQp.call (q : NativeQp) : Call → NativeQp
  | .doing env doing => q.step env doing
  | .modify env attrs => (q.modify env attrs).getD q

/-- `tbv_create_qp`. -/
def NativeQp.created (cfg : RxConfig) (attrs : SendQueue.QpConfig) (memory : Nat → UInt8) :
    NativeQp where
  rx := Rx.created cfg
  tx := SendQueue.start attrs memory

def NativeQp.after (q : NativeQp) (calls : List Call) : NativeQp := calls.foldl NativeQp.call q

/-- A QP that is created beside this one: the clock, the user memory and the numbers of requests
and threads are not those of a QP. -/
def NativeQp.another (q : NativeQp) : NativeQp where
  rx := Rx.created q.rx.cfg
  tx :=
    ⟨{ SendQueue.Qp.fresh q.tx.shared.cfg q.tx.shared.memory with
        jiffies := q.tx.shared.jiffies
        nextOp := q.tx.shared.nextOp
        ctx := q.tx.shared.ctx
        read := q.tx.shared.read
        taken := q.tx.shared.taken
        ticket := q.tx.shared.ticket
        posted := q.tx.shared.posted
        log := q.tx.shared.log }, q.tx.threads.map fun _ => []⟩

/-- A QP with its history forgotten. -/
def Rx.unseen (q : Rx) : Rx := { q with posted := [], consumed := 0, log := [] }

def NativeQp.unseen (q : NativeQp) : NativeQp := { q with rx := q.rx.unseen, readAcks := [] }

/-- Completions, acknowledgements and credits of a connected QP from now on; `none` when
it could not be connected. -/
def behaviour (q : Option NativeQp) (doings : List (Env × Doing)) :
    Option (List Entry × List (Nat × ReadQueue.ReadAckStatus)) :=
  q.map fun q => ((q.unseen.run doings).rx.log, (q.unseen.run doings).readAcks)

/-- What the receive side holds shows nothing of its last connection to the peer `destQp`. -/
structure Rx.Forgotten (q : Rx) (destQp : Nat) : Prop where
  open_ : q.closing = false
  recvq : q.recvq = []
  advertised : q.advertised = 0
  remoteCredits : q.remoteCredits = 0
  earlyCredits : ∀ src, q.earlyCreditSrc = some src → src = destQp
  rxMsg : q.rxMsg = none
  rxWrite : q.rxWrite = none
  reorder : q.reorder = []
  reorderCount : q.reorderCount = 0
  reorderBytes : q.reorderBytes = 0
  accepted : ∀ slot psn status, q.ackHistory slot = some (psn, status) → status = .ok
  rnr : ∀ mark, q.rnr = some mark → mark.srcQp ≠ destQp

/-- Nothing of the send side is under way: no request is pending or holds a slot, no frame is
with the path, and no call is being run. -/
structure SendIdle (tx : SendQueue.St) : Prop where
  pendingSends : tx.shared.pendingSends = []
  pendingReads : tx.shared.pendingReads = []
  sendqCount : tx.shared.sendqCount = 0
  inFlight : ∀ c, tx.shared.inFlight c = 0
  rawInFlight : ∀ c, tx.shared.rawInFlight c = 0
  readInFlight : ∀ r, tx.shared.readInFlight r = 0
  worker : tx.shared.timeoutRunning = false
  threads : ∀ code ∈ tx.threads, code = []

/-- What the QP holds shows nothing of its last connection to the peer `destQp`. -/
structure NativeQp.Forgotten (q : NativeQp) (destQp : Nat) : Prop where
  rx : q.rx.Forgotten destQp
  tx : SendIdle q.tx

/-! ## Connecting -/

section Connecting
variable {q : Rx} {env : Env} {envs : QpState → Env} {c : Connection}

/-- The QP at the end of a connection without anything to advertise. -/
def Rx.connected (q : Rx) (c : Connection) : Rx :=
  { q with
    state := .rts
    remoteWrite := c.remoteWrite
    destQp := some c.destQp
    expectedPsn := c.rqPsn % psnMod
    sendPsn := c.sqPsn % psnMod }

theorem advertiseRecvCredits_of_nil (empty : q.recvq = []) : q.advertiseRecvCredits env = q := by
  unfold Rx.advertiseRecvCredits
  split
  · rfl
  · rw [if_pos (.inr (by simp [empty]))]

/-- A transition of a QP without posted receives stores the attributes. -/
theorem modify_of_nil {attrs : Attrs} (empty : q.recvq = []) (alive : attrs.state ≠ some .err)
    (known : ∀ src destQp, q.earlyCreditSrc = some src → attrs.destQp = some destQp →
      src = destQp) :
    q.modify env attrs = some (q.setAttrs attrs) := by
  have accepted : (attrs.destQp.any fun destQp => q.earlyCreditSrc.any (· != destQp)) = false := by
    cases dest : attrs.destQp with
    | none => rfl
    | some destQp =>
        cases early : q.earlyCreditSrc with
        | none => rfl
        | some src => simp [known src destQp early dest]
  have quiet : (q.setAttrs attrs).advertiseRecvCredits env = q.setAttrs attrs :=
    advertiseRecvCredits_of_nil empty
  unfold Rx.modify
  simp only [accepted, alive, and_false, if_false, quiet, ite_self]
  rfl

theorem connect_of_nil (empty : q.recvq = [])
    (known : ∀ src, q.earlyCreditSrc = some src → src = c.destQp) :
    q.connect envs c = some (q.connected c) := by
  unfold Rx.connect
  rw [modify_of_nil empty (by simp) (fun _ _ _ other => by simp at other)]
  simp only [Option.bind_eq_bind, Option.bind_some]
  rw [modify_of_nil (by exact empty) (by simp)
    (fun src destQp early dest => by cases dest; exact known src early)]
  simp only [Option.bind_some]
  rw [modify_of_nil (by exact empty) (by simp) (fun _ _ _ other => by simp at other)]
  rfl

/-- Both sides at the end of a connection without anything to advertise. -/
def NativeQp.connected (q : NativeQp) (c : Connection) (attrs : SendQueue.QpConfig) : NativeQp :=
  { q with
    rx := q.rx.connected c
    tx := ⟨{ q.tx.shared with cfg := attrs }, q.tx.threads⟩ }

theorem connectQp_of_nil {q : NativeQp} {attrs : SendQueue.QpConfig} (empty : q.rx.recvq = [])
    (known : ∀ src, q.rx.earlyCreditSrc = some src → src = c.destQp) :
    q.connect envs c attrs = some (q.connected c attrs) := by
  unfold NativeQp.connect
  rw [connect_of_nil empty known]
  rfl

theorem reconnect_of_nil {q : NativeQp} {attrs : SendQueue.QpConfig} (empty : q.rx.recvq = [])
    (known : ∀ src, q.rx.earlyCreditSrc = some src → src = c.destQp) :
    q.reconnect envs c attrs = some (q.connected c attrs) := by
  unfold NativeQp.reconnect NativeQp.modify
  rw [modify_of_nil empty (by simp) (fun _ _ _ other => by simp at other)]
  simp only [Option.map_some, Option.bind_eq_bind, Option.bind_some, Option.some.injEq,
    reduceCtorEq, and_false, if_false]
  exact connectQp_of_nil (q := { q with rx := q.rx.setAttrs _ }) empty known

end Connecting

/-! ## The new connection -/

section Forgotten
variable {q : Rx} {c : Connection}

/-- Every acknowledgement that is remembered says what a forgotten one says. -/
theorem Rx.Forgotten.duplicateStatus {destQp : Nat} (forgotten : q.Forgotten destQp) (psn : Nat) :
    q.duplicateStatus psn = .ok := by
  unfold Rx.duplicateStatus Rx.ackHistoryLookup
  split
  · rename_i stored status found
    split_ifs
    · exact forgotten.accepted _ _ _ found
    · rfl
  · rfl

theorem Rx.Forgotten.markOf {destQp : Nat} (forgotten : q.Forgotten destQp) :
    q.markOf destQp = none := by
  unfold Rx.markOf
  cases marked : q.rnr with
  | none => rfl
  | some mark => simp [Option.filter, forgotten.rnr mark marked]

/-- The reset QP and a new one cannot be told apart by the peer. -/
theorem Rx.Forgotten.alike (forgotten : q.Forgotten c.destQp) :
    Alike c.destQp ((Rx.created q.cfg).connected c).unseen (q.connected c).unseen where
  connected := rfl
  rest := by
    simp only [Rx.unseen, Rx.connected, Rx.created, forgotten.open_, forgotten.recvq,
      forgotten.advertised, forgotten.remoteCredits, forgotten.rxMsg, forgotten.rxWrite,
      forgotten.reorder, forgotten.reorderCount, forgotten.reorderBytes]
  history psn := (forgotten.duplicateStatus psn).symm
  mark := forgotten.markOf.symm

theorem SendIdle.same {q : NativeQp} (idle : SendIdle q.tx) (rx : Rx)
    (attrs : SendQueue.QpConfig) :
    sendSide rx ⟨{ q.tx.shared with cfg := attrs }, q.tx.threads⟩ =
      sendSide rx ⟨{ q.another.tx.shared with cfg := attrs }, q.another.tx.threads⟩ := by
  have threads : q.tx.threads.map (fun _ => []) = q.tx.threads :=
    (List.map_congr_left fun code among => (idle.threads code among).symm).trans (List.map_id _)
  have inFlight : q.tx.shared.inFlight = fun _ => 0 := funext idle.inFlight
  have rawInFlight : q.tx.shared.rawInFlight = fun _ => 0 := funext idle.rawInFlight
  have readInFlight : q.tx.shared.readInFlight = fun _ => 0 := funext idle.readInFlight
  unfold NativeQp.another sendSide SendQueue.Qp.fresh
  dsimp only
  rw [threads, idle.pendingSends, idle.pendingReads, idle.sendqCount, inFlight, rawInFlight,
    readInFlight, idle.worker]

end Forgotten

/-! ## Two histories -/

/-- A kernel in which nothing fails. -/
def willing : Env where
  allocMsg := true
  allocFrag := true
  cqFull := false
  recvMr _ _ := true
  mr _ := some true
  iova _ _ _ := true
  creditSent := true

def smallConfig : RxConfig := ⟨7, 16, false⟩

def fromZero (destQp : Nat) : Connection := ⟨false, destQp, 0, 0⟩

def connectCalls (c : Connection) : List Call :=
  [.modify willing { state := some .init, remoteWrite := some c.remoteWrite },
    .modify willing { state := some .rtr, destQp := some c.destQp, rqPsn := some c.rqPsn },
    .modify willing { state := some .rts, sqPsn := some c.sqPsn }]

/-- Retried without end. -/
def reliable : SendQueue.QpConfig where
  type := .rc
  maxSendWr := 16
  timeout := 2
  rnrTimeout := 1
  retryCnt := 7
  rnrRetry := 7
  zcopyMinBytes := 0
  initialPsn := 0

def oneByte (srcQp psn : Nat) : Doing :=
  .frame { opcode := .send, flags := fLast, destQp := 7, srcQp := srcQp, psn := psn, length := 1,
           immData := 1 } [0x41] (.more false)

/-- A `SEND_ACK` from the QP `srcQp`; 2 says that it could not be done. -/
def ackFrom (srcQp psn status : Nat) : Doing :=
  .frame { opcode := .sendAck, destQp := 7, srcQp := srcQp, psn := psn, immData := status } []
    (.more false)

def postedOne : Doing := .post ⟨1, 0, 64, 9⟩

def goesOn (thread : Nat) (choices : List SendQueue.Choice) : List Doing :=
  choices.map fun choice => .send (.run thread choice)

/-- One byte is posted and sent, and its frame comes back from the ring. -/
def sendsOne : List Doing :=
  [.send (.event (.postSend { opcode := .send, segs := [⟨0, 1, Nat.zero_lt_one⟩] }))] ++
    goesOn 0 [.ok, .ok, .ok, .ok, .ok, .ok, .ok, .ok, .queued 1 0, .ok] ++
    [.send (.event (.txRetired 0 false 0))] ++ goesOn 1 [.ok]

def acked (srcQp status : Nat) : List Doing :=
  ackFrom srcQp 0 status ::
    goesOn 2 [.ok, .ok, .ok, .ok, .ok, .cancelled 0 0, .ok, .ok, .ok, .ok, .ok, .ok]

def inCalls (doings : List Doing) : List Call := doings.map (.doing willing)

/-- A QP that received one SEND of its peer and sent one. -/
def servedOnce : NativeQp :=
  (NativeQp.created smallConfig reliable fun _ => 0).after (connectCalls (fromZero 3) ++
    inCalls ([postedOne, oneByte 3 0] ++ sendsOne ++ acked 3 0))

set_option maxRecDepth 8000 in
theorem servedOnce_receive : servedOnce.rx.Forgotten 5 where
  open_ := by decide +kernel
  recvq := by decide +kernel
  advertised := by decide +kernel
  remoteCredits := by decide +kernel
  earlyCredits src early := by
    have unknown : servedOnce.rx.earlyCreditSrc = none := by decide +kernel
    rw [unknown] at early
    cases early
  rxMsg := by decide +kernel
  rxWrite := by decide +kernel
  reorder := by decide +kernel
  reorderCount := by decide +kernel
  reorderBytes := by decide +kernel
  accepted slot psn status stored := by
    have history : servedOnce.rx.ackHistory = Function.update
        (fun _ : Nat => (none : Option (Nat × SendAckStatus))) 0 (some (0, SendAckStatus.ok)) := rfl
    rw [history, Function.update_apply] at stored
    split at stored
    · cases stored
      rfl
    · cases stored
  rnr mark marked := by
    have unmarked : servedOnce.rx.rnr = none := by decide +kernel
    rw [unmarked] at marked
    cases marked

set_option maxRecDepth 8000 in
theorem servedOnce_send : SendIdle servedOnce.tx where
  pendingSends := by decide +kernel
  pendingReads := by decide +kernel
  sendqCount := by decide +kernel
  inFlight c := by
    have history : servedOnce.tx.shared.inFlight =
        Function.update (Function.update (Function.update (fun _ => 0) 0 1) 0 0) 0 0 := rfl
    rw [history, Function.update_idem, Function.update_idem, Function.update_apply]
    split <;> rfl
  rawInFlight c := by
    have history : servedOnce.tx.shared.rawInFlight =
        Function.update (Function.update (fun _ => 0) 0 0) 0 0 := rfl
    rw [history, Function.update_idem, Function.update_apply]
    split <;> rfl
  readInFlight _ := rfl
  worker := by decide +kernel
  threads := by decide +kernel

theorem servedOnce_forgotten : servedOnce.Forgotten 5 := ⟨servedOnce_receive, servedOnce_send⟩

/-- The next peer has its SEND received, and a stray acknowledgement of it ends nothing. -/
def nextPeer : List (Env × Doing) :=
  [postedOne, .advertise, ackFrom 5 0 2, oneByte 5 0].map fun doing => (willing, doing)

/-- A send that is pending when the QP is reset is ended by the next peer, and the QP with it. -/
example : ((((NativeQp.created smallConfig reliable fun _ => 0).after
      (connectCalls (fromZero 3) ++ inCalls sendsOne)).reconnect (fun _ => willing) (fromZero 5)
        reliable).map fun q => (q.run ((acked 5 2).map fun doing => (willing, doing))).rx.state) =
    some .err := by decide +kernel

end Tbv.RecvQueue
