import ThunderboltIbverbs.Path.Credit

/-! # A HELLO between frames

`tbv_native_control_apply_remote` and `tbv_native_control_apply_ack` give the path the
peer's RX ring size each time a HELLO or HELLO_ACK is processed, which sets the send
credits to the whole window and drops the credits still owed to the peer.  Between two
paths that carry traffic this is harmless only when every credit is home and none is
owed. -/
set_option autoImplicit false
namespace Tbv.NativePath

open Tbv.NativeData Trans

inductive HelloEvent where
  | traffic (event : Event)
  -- a HELLO or HELLO_ACK of the other end is applied at `side`
  | hello (side : Bool)

/-- The part of `tbv_native_control_apply_remote` that touches the path. -/
def Link.applyRemote (cfg : Bool → PathConfig) (l : Link) (side : Bool) : Link :=
  l.setPath side (setRemoteRxCapacity (l.path side) (cfg !side).rxRingSize)

def Link.helloStep (cfg : Bool → PathConfig) (l : Link) : HelloEvent → Option Link
  | .traffic event => some (l.apply event)
  | .hello side => some (l.applyRemote cfg side)

/-- The sender's credits and the charged frames not yet counted into a credit return stay
inside the window, and no credit is forgotten: the places of a credit add up to it. -/
def Link.FlowControlled (cfg : Bool → PathConfig) (l : Link) : Prop :=
  ∀ side, (l.path side).txRemoteDataCredits + charged (l.wire side) +
      (l.path !side).rxDataCreditPending ≤ window cfg side ∧
    window cfg side ≤ l.balance side

/-- A HELLO is applied where the send credits are complete and no credit is owed; traffic
conserves credits. -/
def HelloOk (l : Link) : HelloEvent → Prop
  | .traffic event => CreditOk l event
  | .hello side =>
      (l.path side).txRemoteDataCredits = (l.path side).txRemoteDataCreditMax ∧
        (l.path side).rxDataCreditPending = 0

section Hello
variable {cfg : Bool → PathConfig} {l : Link}

theorem setRemoteRxCapacity_home {p : Path} {rxRingSize : Nat}
    (max : p.txRemoteDataCreditMax = dataCreditWindow rxRingSize)
    (home : p.txRemoteDataCredits = p.txRemoteDataCreditMax) (owed : p.rxDataCreditPending = 0) :
    setRemoteRxCapacity p rxRingSize = p := by
  cases p
  simp_all [setRemoteRxCapacity]

/-- A HELLO that finds everything at home changes nothing. -/
theorem Link.applyRemote_home {side : Bool} (ledger : l.Ledger cfg)
    (home : (l.path side).txRemoteDataCredits = (l.path side).txRemoteDataCreditMax)
    (owed : (l.path side).rxDataCreditPending = 0) : l.applyRemote cfg side = l := by
  unfold Link.applyRemote Link.setPath
  rw [setRemoteRxCapacity_home (ledger side).creditMax home owed, Function.update_eq_self]

theorem Link.Conserved.helloStep {next : Link} {event : HelloEvent}
    (conserved : l.Conserved cfg) (ok : HelloOk l event)
    (stepped : l.helloStep cfg event = some next) : next.Conserved cfg := by
  cases event with
  | traffic event =>
      cases Option.some.inj stepped
      exact conserved.apply ok
  | hello side =>
      cases Option.some.inj stepped
      rw [Link.applyRemote_home conserved.ledger ok.1 ok.2]
      exact conserved

theorem Link.Conserved.flowControlled (conserved : l.Conserved cfg) : l.FlowControlled cfg := by
  intro side
  have balanced := conserved.balanced side
  refine ⟨?_, Nat.le_of_eq balanced.symm⟩
  unfold Link.balance at balanced
  omega

/-- In every run of traffic and repeated HELLOs in which each HELLO finds the credits
complete and nothing owed, flow control holds in every state reached. -/
theorem hello_keeps_flow_control
    (reached : Reaches (Link.helloStep cfg) HelloOk (Link.init cfg) l) :
    l.FlowControlled cfg := by
  have conserved : l.Conserved cfg :=
    reached.invariant (Link.init_conserved cfg) fun before ok stepped => before.helloStep ok stepped
  exact conserved.flowControlled

end Hello

def pingFrame : FramedFrame where
  hdr := { opcode := .send, flags := fLast, length := 1 }
  done := none
  doneCtx := none
  emitted := by decide

/-- A HELLO before a frame is posted and received. -/
theorem hello_keeps_flow_control_ping : ∃ l : Link,
    Reaches (Link.helloStep fun _ => nativeConfig) HelloOk (Link.init fun _ => nativeConfig) l ∧
    (l.path false).rxDataCreditPending = 1 ∧ l.FlowControlled fun _ => nativeConfig := by
  have meets : Meets (Link.helloStep fun _ => nativeConfig) HelloOk
      [.hello true, .traffic (.framed true pingFrame), .traffic (.schedule true),
        .traffic (.deliver true)] (Link.init fun _ => nativeConfig) := by
    refine ⟨⟨by decide, by decide⟩, ?_⟩
    rintro _ ⟨⟩
    refine ⟨⟨trivial, trivial⟩, ?_⟩
    rintro _ ⟨⟩
    refine ⟨⟨noStaleEnd_of_ring (by decide +kernel), trivial⟩, ?_⟩
    rintro _ ⟨⟩
    exact ⟨⟨trivial, trivial⟩, fun _ _ => trivial⟩
  have reached := reaches_of_run meets rfl
  exact ⟨_, reached, by decide +kernel, hello_keeps_flow_control reached⟩

/-- A frame is posted, and a repeated HELLO gives its credit back while it is on the wire. -/
theorem repeated_hello_exceeds_window :
    ¬ ∀ (cfg : Bool → PathConfig) (l : Link),
      Reaches (Link.helloStep cfg) (fun _ _ => True) (Link.init cfg) l →
      l.FlowControlled cfg := by
  intro claim
  have ran : run (Link.helloStep fun _ => nativeConfig)
      [.traffic (.framed true pingFrame), .traffic (.schedule true), .hello true]
      (Link.init fun _ => nativeConfig) = some _ := rfl
  have bounded := (claim _ _ (reaches_of_run_free ran) true).1
  exact absurd bounded (by decide +kernel)

end Tbv.NativePath
