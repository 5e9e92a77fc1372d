import ThunderboltIbverbs.Apple.Model

/-! # The reference split

The frames a QP met, cut after each one whose EOF is 3, are its messages.  A message
whose first frame met a full ring is dropped whole; every other is due one completion. -/
set_option autoImplicit false
namespace Tbv.AppleRx

/-- One more frame: it ends the message it belongs to, or the message goes on. -/
def cut (split : List (List Arrival) × List Arrival) (arrival : Arrival) :
    List (List Arrival) × List Arrival :=
  if arrival.frame.eof = 3 then (split.1 ++ [split.2 ++ [arrival]], [])
  else (split.1, split.2 ++ [arrival])

/-- The messages of a sequence of frames, and the frames after the last of them. -/
def split (arrived : List Arrival) : List (List Arrival) × List Arrival :=
  arrived.foldl cut ([], [])

theorem split_snoc (arrived : List Arrival) (arrival : Arrival) :
    split (arrived ++ [arrival]) = cut (split arrived) arrival := by
  simp [split]

/-- The first frame of the message found a slot. -/
def kept (message : List Arrival) : Bool := message.head?.any fun arrival => !arrival.full

def payload (message : List Arrival) : List UInt8 :=
  message.flatMap fun arrival => arrival.frame.payload

/-- Every frame of the message was inside the limits. -/
def allFit (message : List Arrival) : Bool := message.all Arrival.fits

def Qp.due (q : Qp) : List (List Arrival) := (split q.arrived).1.filter kept

/-- The completion a message is due: its bytes when it was gathered whole and the WQE
holds it, an error otherwise. -/
def Produces (message : List Arrival) (completion : Completion) : Prop :=
  if allFit message ∧ (payload message).length ≤ completion.wqe.length then
    completion.status = .success ∧ completion.stored = payload message ∧
      completion.byteLen = (payload message).length
  else completion.status ≠ .success

instance (message : List Arrival) (completion : Completion) :
    Decidable (Produces message completion) :=
  inferInstanceAs (Decidable
    (if allFit message ∧ (payload message).length ≤ completion.wqe.length then
      completion.status = .success ∧ completion.stored = payload message ∧
        completion.byteLen = (payload message).length
    else completion.status ≠ .success))

def Slot.held (p : Slot) : Nat := if p.active || p.ready then p.delivered else 0

def Quiet (st : State) : Prop := ∀ code ∈ st.threads, code = []

instance (st : State) : Decidable (Quiet st) :=
  inferInstanceAs (Decidable (∀ code ∈ st.threads, code = []))

/-- The QP agrees with the reference split: completions are on the posted WQEs and for
the due messages, each in order, and as many as there are both of when no call is
in progress; what is ready is what is due and not completed; the byte counter is
what the slots hold. -/
structure Agrees (cfg : Config) (st : State) : Prop where
  onOldest : st.shared.completed.map Completion.wqe =
    st.shared.posted.take st.shared.completed.length
  inOrder : ∀ pair ∈ st.shared.due.zip st.shared.completed, Produces pair.1 pair.2
  noMore : st.shared.completed.length ≤ st.shared.due.length
  waiting : st.shared.readyCount = st.shared.due.length - st.shared.completed.length
  bytes : st.shared.bytes = Ring.total Slot.held cfg.slotCount st.shared.pending
  noFewer : Quiet st →
    st.shared.completed.length = min st.shared.due.length st.shared.posted.length

end Tbv.AppleRx
