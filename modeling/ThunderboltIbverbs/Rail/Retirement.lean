import ThunderboltIbverbs.Rail.Quiesce
import ThunderboltIbverbs.Rail.RefusedBind

/-! # What an Apple rail has left on its path

The rail gives a new epoch to a QP when it is unbound, so an unbound rail must have nothing of
an older epoch on its path, and nobody who may still put something there.  A quiesce that is
called for no QP does not stop the worker of one that is being destroyed; that QP then keeps the
Apple QPN, and the rail from a successor, until its own quiesce is over. -/
set_option autoImplicit false
namespace Tbv.AppleRail

open NativePath (enomem)

/-- The sections before the owner's worker has ended. -/
def Phase.producing : Phase → Bool
  | .closeTx | .markError | .stopProducers => true
  | _ => false

/-- The sections before the queues are emptied. -/
def Phase.uncancelled : Phase → Bool
  | .closeTx | .markError | .stopProducers | .cancelQueued => true
  | _ => false

def Qp.Lifts (tqp : Qp) (rail : Rail) (remoteKnown : Bool) : Prop :=
  tqp.ownsAppleRail = true ∧ tqp.hasRail = true ∧ tqp.railBound = false ∧
    rail.removing = false ∧ rail.bind.state = .quarantined ∧ rail.liftable = true ∧
    remoteKnown = true

instance (tqp : Qp) (rail : Rail) (remoteKnown : Bool) : Decidable (tqp.Lifts rail remoteKnown) :=
  inferInstanceAs (Decidable (_ ∧ _))

def Qp.Releases (tqp : Qp) (rail : Rail) : Prop :=
  tqp.hasRail = true ∧ tqp.railBound = true ∧ rail.bind.qp = some tqp.id ∧
    rail.bind.state = .bound

instance (tqp : Qp) (rail : Rail) : Decidable (tqp.Releases rail) :=
  inferInstanceAs (Decidable (_ ∧ _))

structure Rail.Keeps (rail rail' : Rail) : Prop where
  epoch : rail'.bind.epoch = rail.bind.epoch
  state : rail'.bind.state = rail.bind.state
  qp : rail'.bind.qp = rail.bind.qp
  path : rail'.path = rail.path

structure Rail.Gives (rail rail' : Rail) (id : Nat) : Prop where
  unbound : rail.bind.state = .unbound
  epoch : rail'.bind.epoch = rail.bind.epoch + 1
  state : rail'.bind.state = .bound
  qp : rail'.bind.qp = some id
  path : rail'.path = rail.path

theorem Rail.SameBinding.keeps {rail rail' : Rail} (same : rail.SameBinding rail') :
    rail.Keeps rail' := by
  obtain ⟨_, _, _, rfl⟩ := same
  exact ⟨rfl, rfl, rfl, rfl⟩

theorem Rail.admit_keeps (rail : Rail) (now : Nat) : rail.Keeps ( rail.admit now).1 := by
  unfold Rail.admit
  split
  · exact ⟨rfl, rfl, rfl, rfl⟩
  · rename_i free
    rcases rail.admitLocked_cases false now with ⟨same, -⟩ | ⟨-, -, -, session, -⟩
    · exact same.keeps
    · cases session

section
variable {rail : Rail} {tqp : Qp} {remoteKnown : Bool} {remoteQpn now : Nat}

theorem Qp.rebindRail_keeps : rail.Keeps (tqp.rebindRail rail remoteKnown remoteQpn).rail ∧
    (tqp.rebindRail rail remoteKnown remoteQpn).tqp = tqp := by
  unfold rebindRail
  split
  · exact ⟨(Rail.SameBinding.refuse rail).keeps, rfl⟩
  · split
    · exact ⟨(Rail.SameBinding.refuse rail).keeps, rfl⟩
    · split
      · dsimp only
        have checked := (rail.checkRemoteQpnLocked_same remoteQpn).keeps
        split
        · exact ⟨checked, rfl⟩
        · exact ⟨⟨checked.epoch, checked.state, checked.qp, checked.path⟩, rfl⟩
      · exact ⟨⟨rfl, rfl, rfl, rfl⟩, rfl⟩

/-- The bind gives the rail to the QP, or leaves both as they are. -/
def Qp.Settles (tqp : Qp) (rail : Rail) (out : Outcome) : Prop :=
  (rail.Keeps out.rail ∧ out.tqp = tqp) ∨
    (rail.Gives out.rail tqp.id ∧ out.tqp.id = tqp.id ∧ tqp.railBound = false ∧
      out.tqp.railBound = true)

/-- Behind an admission that returned 0, the rail is given to the QP or stays as it is. -/
theorem Qp.bindNewRail_admitted {admitted : Rail} (unbound : tqp.railBound = false)
    (admits : rail.admitLocked remoteKnown now = (admitted, 0))
    (free : admitted.bind.state = .unbound ∨ admitted.bind.state = .bound) :
    tqp.Settles admitted (tqp.bindNewRail rail remoteKnown remoteQpn now) := by
  have taken (checked : Rail) (same : admitted.Keeps checked)
      (notBound : ¬ admitted.bind.state = .bound) :
      tqp.Settles admitted (tqp.takeRail checked remoteKnown remoteQpn) :=
    .inr ⟨⟨free.resolve_right notBound, congrArg (· + 1) same.epoch, rfl, rfl, same.path⟩, rfl,
      unbound, rfl⟩
  unfold bindNewRail
  rw [admits]
  dsimp only
  rw [if_neg (by decide)]
  split
  · exact .inl ⟨(Rail.SameBinding.refuse admitted).keeps, rfl⟩
  · rename_i notBound
    cases remoteKnown with
    | false =>
        rw [if_neg Bool.false_ne_true, if_neg fun failed => failed rfl]
        exact taken admitted ⟨rfl, rfl, rfl, rfl⟩ notBound
    | true =>
        rw [if_pos rfl]
        have checked := (admitted.checkRemoteQpnLocked_same remoteQpn).keeps
        split
        · exact .inl ⟨checked, rfl⟩
        · exact taken _ checked notBound

/-- A bind lifts the quarantine or not, and then gives the rail to the QP or leaves it. -/
theorem Qp.appleBindRail_cases (tqp : Qp) (rail : Rail) (remoteKnown : Bool) (remoteQpn now : Nat) :
    ∃ admitted, (admitted = rail ∨ admitted = rail.lift ∧ tqp.Lifts rail remoteKnown) ∧
      tqp.Settles admitted (tqp.appleBindRail rail remoteKnown remoteQpn now) := by
  unfold appleBindRail
  split
  · exact ⟨rail, .inl rfl, .inl ⟨⟨rfl, rfl, rfl, rfl⟩, rfl⟩⟩
  · rename_i owns
    have owns : tqp.ownsAppleRail = true ∧ tqp.hasRail = true := by simpa using owns
    split
    · exact ⟨rail, .inl rfl, .inl rebindRail_keeps⟩
    · rename_i unbound
      have unbound : tqp.railBound = false := by simpa using unbound
      rcases rail.admitLocked_cases remoteKnown now with
        ⟨same, kept⟩ | ⟨lifted, staying, state, session, silent⟩
      · by_cases admits : (rail.admitLocked remoteKnown now).2 = 0
        · obtain ⟨unchanged, -, free⟩ := kept admits
          exact ⟨rail, .inl rfl, bindNewRail_admitted unbound (Prod.ext unchanged admits) free⟩
        · rw [bindNewRail, if_pos admits]
          exact ⟨rail, .inl rfl, .inl ⟨same.keeps, rfl⟩⟩
      · exact ⟨rail.lift, .inr ⟨rfl, owns.1, owns.2, unbound, staying, state, silent, session⟩,
          bindNewRail_admitted unbound lifted (.inl rfl)⟩

end

namespace World

def queued (w : World) : List Packet := w.txControlQueue ++ w.txDataQueue

/-- A quiesce runs that has not emptied the queues yet. -/
def uncancelled (w : World) : Bool := w.quiesce.any fun z => z.phase.uncancelled

/-- No quarantine is lifted under a quiesce; an unbind finds nothing of its epoch left; and no
packet returns to a queue that is closed and has been emptied. -/
def Retires (w : World) : Event → Prop
  | .bind q remoteKnown _ _ => (w.senders q).tqp.Lifts w.rail remoteKnown → w.quiesce = none
  | .unbind q => (w.senders q).tqp.Releases w.rail → w.packets = [] ∧ (w.senders q).path = false
  | .ringTx ret => ret = enomem → w.pathState = .tunnelEnabled →
      w.rail.path.txClosed = true → w.uncancelled = true
  | _ => True

instance (w : World) : (event : Event) → Decidable (w.Retires event)
  | .bind _ _ _ _ | .unbind _ | .ringTx _ => inferInstanceAs (Decidable (_ → _))
  | .createQp _ _ | .transition _ _ | .close _ | .freeQpn _ | .remove | .pathState _
  | .rxCompleted | .takePath _ | .enqueue _ _ | .putPath _ | .cancel _ | .dequeue | .retire
  | .quiesce _ | .next _ => instDecidableTrue

/-- What the running quiesce has reached. -/
structure During (w : World) (z : Quiesce) : Prop where
  owner : ∀ q, z.owner = some q → w.qpn = some q
  closed : z.phase ≠ .closeTx → w.rail.path.txClosed = true
  stopped : z.phase.producing = false → z.phase ≠ .reopen →
    ∀ q, z.owner = some q → (w.senders q).path = false
  emptied : z.phase.uncancelled = false → w.queued = []
  state : z.phase ≠ .reopen →
    w.rail.bind.state = if z.wasQuarantined then .quarantined else .quiescing
  retired : z.phase = .waitRefs ∨ z.phase = .settle → z.ret = 0 → w.hand = none ∧ w.ring = []
  released : z.phase = .reopen → w.rail.bind.state = .unbound ∨ w.rail.bind.state = .bound
  leaving : z.phase = .reopen → ∀ q, z.owner = some q → (w.senders q).destroy = .running →
    z.ownerRef = true ∨ w.rail.bind.qp ≠ some q ∧ (w.senders q).path = false

/-- The QP may still put packets on the path: it is bound, or it was and is being destroyed, or
the quiesce that ends its binding has not stopped it yet. -/
def Holds (w : World) (q : Nat) : Prop :=
  w.rail.bind.qp = some q ∧
      (w.rail.bind.state = .bound ∨ (w.senders q).destroy = .running) ∨
    ∃ z, w.quiesce = some z ∧ z.owner = some q ∧ z.phase.producing = true

/-- Nothing is left of what was sent, and nobody may send. -/
def Rid (w : World) : Prop := w.packets = [] ∧ ∀ q, (w.senders q).path = false

/-- The QP that was bound is being destroyed, and its own quiesce is still to come. -/
def Ending (w : World) : Prop :=
  ∃ q, w.rail.bind.qp = some q ∧ (w.senders q).destroy = .running

structure Life (w : World) : Prop where
  ids : ∀ q, (w.senders q).tqp.id = q
  owns : ∀ q, (w.senders q).tqp.railBound = true ↔ w.rail.bind.qp = some q
  holder : ∀ q, w.rail.bind.qp = some q → w.qpn = some q
  closing : ∀ q, (w.senders q).closing = true → (w.senders q).path = true →
    (w.senders q).destroy = .running
  retired : ∀ q, (w.senders q).destroy = .retired → w.rail.bind.qp ≠ some q ∧
    (w.senders q).path = false ∧ ∀ z, w.quiesce = some z → z.owner ≠ some q

structure Inv (w : World) : Prop where
  life : w.Life
  past : ∀ pkt ∈ w.packets, pkt.epoch ≤ w.rail.bind.epoch
  counted : w.rail.path.txInflight = w.hand.toList.length + w.ring.length
  held : ∀ q, (w.senders q).path = true → w.Holds q
  idle : w.rail.bind.state = .unbound → w.Rid ∨ w.Ending
  shut : w.rail.bind.state = .quarantined →
    w.rail.path.txClosed = true ∧ (w.queued = [] ∨ w.uncancelled = true)
  during : ∀ z, w.quiesce = some z → w.During z

/-- The step leaves the epoch, or gives the rail one above it and finds no packet of an epoch
before the new one. -/
def Succeeds (w w' : World) : Prop :=
  w'.rail.bind.epoch = w.rail.bind.epoch ∨
    w.rail.bind.epoch < w'.rail.bind.epoch ∧ ∀ pkt ∈ w'.packets, w'.rail.bind.epoch ≤ pkt.epoch

def Sealed (w : World) : Prop :=
  w.rail.bind.state = .quarantined → w.rail.path.txClosed = true

/-- The packets, the binding and the quiesce stay, and nobody gets the path. -/
structure Alike (w w' : World) : Prop where
  qpn : w'.qpn = w.qpn
  ids : ∀ q, (w'.senders q).tqp.id = (w.senders q).tqp.id
  railBound : ∀ q, (w'.senders q).tqp.railBound = (w.senders q).tqp.railBound
  path : ∀ q, (w'.senders q).path = true → (w.senders q).path = true
  closing : ∀ q, (w'.senders q).closing = (w.senders q).closing
  destroy : ∀ q, (w'.senders q).destroy = (w.senders q).destroy
  epoch : w'.rail.bind.epoch = w.rail.bind.epoch
  state : w'.rail.bind.state = w.rail.bind.state
  qp : w'.rail.bind.qp = w.rail.bind.qp
  closed : w'.rail.path.txClosed = w.rail.path.txClosed
  inflight : w'.rail.path.txInflight = w.rail.path.txInflight
  queued : w'.queued = w.queued
  hand : w'.hand = w.hand
  ring : w'.ring = w.ring
  quiesce : w'.quiesce = w.quiesce

structure Fresh (w : World) : Prop where
  qpn : w.qpn = none
  ids : ∀ q, (w.senders q).tqp.id = q
  railBound : ∀ q, (w.senders q).tqp.railBound = false
  held : ∀ q, (w.senders q).path = false
  destroy : ∀ q, (w.senders q).destroy = .idle
  state : w.rail.bind.state = .unbound
  qp : w.rail.bind.qp = none
  inflight : w.rail.path.txInflight = 0
  packets : w.packets = []
  quiesce : w.quiesce = none

end World

section
variable {w w' : World}

@[simp] theorem World.mem_packets {pkt : Packet} : pkt ∈ w.packets ↔
    pkt ∈ w.queued ∨ w.hand = some pkt ∨ pkt ∈ w.ring := by
  simp [World.packets, World.queued, or_assoc]

theorem World.packets_eq_nil : w.packets = [] ↔ w.queued = [] ∧ w.hand = none ∧ w.ring = [] := by
  simp [World.packets, World.queued, and_assoc]

theorem World.Fresh.inv (fresh : w.Fresh) : w.Inv where
  life := {
    ids := fresh.ids
    owns := fun q => by simp [fresh.railBound, fresh.qp]
    holder := fun q bound => by
      rw [fresh.qp] at bound
      cases bound
    closing := fun q _ path => by
      rw [fresh.held] at path
      cases path
    retired := fun q gone => by
      rw [fresh.destroy] at gone
      cases gone }
  past pkt among := by
    rw [fresh.packets] at among
    cases among
  counted := by
    obtain ⟨-, hand, ring⟩ := World.packets_eq_nil.mp fresh.packets
    rw [fresh.inflight, hand, ring]
    rfl
  held q path := by
    rw [fresh.held] at path
    cases path
  idle _ := .inl ⟨fresh.packets, fresh.held⟩
  shut quarantined := by
    rw [fresh.state] at quarantined
    cases quarantined
  during z running := by
    rw [fresh.quiesce] at running
    cases running

/-- What ending the binding of the owner leaves as it is. -/
structure World.SameButOwner (w w' : World) : Prop where
  qpn : w'.qpn = w.qpn
  ids : ∀ q, (w'.senders q).tqp.id = (w.senders q).tqp.id
  path : ∀ q, (w'.senders q).path = (w.senders q).path
  closing : ∀ q, (w'.senders q).closing = (w.senders q).closing
  destroy : ∀ q, (w'.senders q).destroy = (w.senders q).destroy
  rail : w'.rail.path = w.rail.path
  removing : w'.rail.removing = w.rail.removing
  epoch : w'.rail.bind.epoch = w.rail.bind.epoch
  state : w'.rail.bind.state = w.rail.bind.state
  queued : w'.queued = w.queued
  hand : w'.hand = w.hand
  ring : w'.ring = w.ring
  quiesce : w'.quiesce = w.quiesce

@[simp] theorem World.senders_setSender (w : World) (q : Nat) (sender : Sender) :
    (w.setSender q sender).senders q = sender := by
  simp [World.setSender]

theorem World.senders_setSender_of_ne {q r : Nat} (apart : r ≠ q) (w : World) (sender : Sender) :
    (w.setSender q sender).senders r = w.senders r := by
  simp [World.setSender, Function.update_of_ne apart]

/-- What is said of every QP holds when it holds of the one that is set and of the others. -/
theorem World.forall_setSender {q : Nat} {sender : Sender} {P : Nat → Sender → Prop}
    (this : P q sender) (others : ∀ r, r ≠ q → P r (w.senders r)) (r : Nat) :
    P r ((w.setSender q sender).senders r) := by
  by_cases same : r = q
  · subst same
    rwa [World.senders_setSender]
  · rw [World.senders_setSender_of_ne same]
    exact others r same

theorem World.releaseOwner_same (w : World) (z : Quiesce) : w.SameButOwner (w.releaseOwner z) := by
  unfold World.releaseOwner
  cases z.owner with
  | none => constructor <;> first | rfl | exact fun _ => rfl
  | some q =>
      have senders : ∀ r,
          ((w.setSender q { w.senders q with
            tqp := { (w.senders q).tqp with railBound := false } }).senders r) =
          { w.senders r with tqp := { (w.senders r).tqp with
            railBound := if r = q then false else (w.senders r).tqp.railBound } } :=
        World.forall_setSender
          (P := fun r sender => sender = { w.senders r with tqp := { (w.senders r).tqp with
            railBound := if r = q then false else (w.senders r).tqp.railBound } })
          (by simp) fun r apart => by simp [apart]
      dsimp only
      split
      all_goals
        constructor
        all_goals first
          | rfl
          | exact fun r => by rw [senders]

theorem World.releaseOwner_qp (w : World) (z : Quiesce) {q : Nat}
    (bound : w.rail.bind.qp = some q) (other : z.owner ≠ some q) :
    (w.releaseOwner z).rail.bind.qp = some q := by
  unfold World.releaseOwner
  cases owner : z.owner with
  | none => exact bound
  | some r =>
      dsimp only
      rw [if_neg]
      · exact bound
      · intro same
        have same : w.rail.bind.qp = some r := same
        rw [owner, ← same] at other
        exact other bound

theorem World.Life.releaseOwner (life : w.Life) (z : Quiesce) :
    (w.releaseOwner z).Life ∧
      ∀ q, z.owner = some q → (w.releaseOwner z).rail.bind.qp ≠ some q := by
  have same := w.releaseOwner_same z
  have bound : (∀ q, ((w.releaseOwner z).senders q).tqp.railBound = true ↔
        (w.releaseOwner z).rail.bind.qp = some q) ∧
      (∀ q, (w.releaseOwner z).rail.bind.qp = some q → w.rail.bind.qp = some q ∧
        z.owner ≠ some q) := by
    unfold World.releaseOwner
    cases z.owner with
    | none => exact ⟨life.owns, fun q bound => ⟨bound, nofun⟩⟩
    | some q =>
        dsimp only
        split
        · rename_i owner
          have owner : w.rail.bind.qp = some q := owner
          refine ⟨World.forall_setSender (P := fun r sender =>
            sender.tqp.railBound = true ↔ none = some r) (by simp) fun r apart => ?_, nofun⟩
          rw [life.owns r, owner]
          simp [Ne.symm apart]
        · rename_i other
          have other : w.rail.bind.qp ≠ some q := other
          refine ⟨World.forall_setSender (P := fun r sender =>
            sender.tqp.railBound = true ↔ w.rail.bind.qp = some r) (by simpa using other)
            fun r _ => life.owns r, fun r bound => ⟨bound, ?_⟩⟩
          rintro is
          cases is
          exact other bound
  exact ⟨{
    ids := fun q => (same.ids q).trans (life.ids q)
    owns := bound.1
    holder := fun q is => same.qpn.trans (life.holder q (bound.2 q is).1)
    closing := fun q => by
      rw [same.closing, same.path, same.destroy]
      exact life.closing q
    retired := fun q gone => by
      rw [same.destroy] at gone
      obtain ⟨free, path, running⟩ := life.retired q gone
      refine ⟨fun is => free (bound.2 q is).1, (same.path q).trans path, ?_⟩
      rw [same.quiesce]
      exact running }, fun q owner is => (bound.2 q is).2 owner⟩

def World.disown (w : World) (q : Nat) (tqp : Qp) (state : BindState) : World :=
  { w with rail := { w.rail with bind := { w.rail.bind with
    qp := none, state } } }.setSender q { w.senders q with tqp }

theorem World.Life.disown {q : Nat} {tqp : Qp} (life : w.Life) (state : BindState)
    (qp : w.rail.bind.qp = some q) (id : tqp.id = q) (unbound : tqp.railBound = false) :
    (w.disown q tqp state).Life ∧
      (∀ r, ((w.disown q tqp state).senders r).path = (w.senders r).path) ∧
      ∀ r, ((w.disown q tqp state).senders r).destroy = (w.senders r).destroy := by
  have path : ∀ r, ((w.disown q tqp state).senders r).path = (w.senders r).path :=
    World.forall_setSender (P := fun r sender => sender.path = (w.senders r).path) rfl
      fun _ _ => rfl
  have destroy : ∀ r, ((w.disown q tqp state).senders r).destroy = (w.senders r).destroy :=
    World.forall_setSender (P := fun r sender => sender.destroy = (w.senders r).destroy) rfl
      fun _ _ => rfl
  refine ⟨{ ids := ?_, owns := ?_, holder := nofun, closing := ?_, retired := ?_ }, path, destroy⟩
  · exact World.forall_setSender (P := fun r sender => sender.tqp.id = r) id
      fun r _ => life.ids r
  · refine World.forall_setSender (P := fun r sender =>
      sender.tqp.railBound = true ↔ none = some r) (by simp [unbound]) fun r apart => ?_
    have others := life.owns r
    rw [qp] at others
    exact others.trans (by simp [Ne.symm apart])
  · exact World.forall_setSender (P := fun _ sender => sender.closing = true →
      sender.path = true → sender.destroy = .running) (life.closing q) fun r _ => life.closing r
  · intro r gone
    rw [destroy] at gone
    obtain ⟨-, free, running⟩ := life.retired r gone
    exact ⟨nofun, (path r).trans free, running⟩

namespace World.Inv

theorem holder (inv : w.Inv) {q : Nat} (path : (w.senders q).path = true) : w.qpn = some q := by
  rcases inv.held q path with ⟨bound, -⟩ | ⟨z, running, owner, -⟩
  · exact inv.life.holder q bound
  · exact (inv.during z running).owner q owner

/-- Without a quiesce, a QP that is not bound holds nothing. -/
theorem nobody (inv : w.Inv) (none : w.quiesce = none) (qp : w.rail.bind.qp = .none) (q : Nat) :
    (w.senders q).path = false := by
  by_contra path
  rcases inv.held q (by simpa using path) with ⟨bound, -⟩ | ⟨z, running, -⟩
  · rw [qp] at bound
    cases bound
  · rw [none] at running
    cases running

theorem unowned (inv : w.Inv) {q : Nat} (here : w.qpn = some q)
    (unbound : (w.senders q).tqp.railBound = false) : w.rail.bind.qp = none := by
  by_contra owned
  obtain ⟨r, bound⟩ := Option.ne_none_iff_exists'.mp owned
  have same := here.symm.trans (inv.life.holder r bound)
  cases same
  rw [(inv.life.owns q).mpr bound] at unbound
  cases unbound

theorem rid (inv : w.Inv) (unbound : w.rail.bind.state = .unbound) (qp : w.rail.bind.qp = none) :
    w.Rid := by
  refine (inv.idle unbound).resolve_right ?_
  rintro ⟨r, bound, -⟩
  rw [qp] at bound
  cases bound

/-- A quiesce that has not settled keeps the rail from being bound. -/
theorem reopens (inv : w.Inv)
    (free : w.rail.bind.state = .unbound ∨ w.rail.bind.state = .bound) {z : Quiesce}
    (running : w.quiesce = some z) : z.phase = .reopen := by
  by_contra earlier
  have state := (inv.during z running).state earlier
  rcases free with free | free <;> rw [free] at state <;> split at state <;> cases state

theorem alike (inv : w.Inv) (same : w.Alike w') : w'.Inv where
  life := {
    ids := fun q => (same.ids q).trans (inv.life.ids q)
    owns := fun q => by
      rw [same.railBound, same.qp]
      exact inv.life.owns q
    holder := fun q bound => same.qpn.trans (inv.life.holder q (same.qp ▸ bound))
    closing := fun q closing path => (same.destroy q).trans
      (inv.life.closing q (same.closing q ▸ closing) (same.path q path))
    retired := fun q gone => by
      obtain ⟨free, path, running⟩ := inv.life.retired q (same.destroy q ▸ gone)
      rw [same.qp, same.quiesce]
      refine ⟨free, ?_, running⟩
      by_contra still
      rw [same.path q (by simpa using still)] at path
      cases path }
  past pkt among := by
    rw [mem_packets, same.queued, same.hand, same.ring, ← mem_packets] at among
    rw [same.epoch]
    exact inv.past pkt among
  counted := by
    rw [same.inflight, same.hand, same.ring]
    exact inv.counted
  held q path := by
    rw [Holds, same.qp, same.state, same.destroy, same.quiesce]
    exact inv.held q (same.path q path)
  idle unbound := by
    rcases inv.idle (same.state ▸ unbound) with ⟨nothing, path⟩ | ⟨q, bound, running⟩
    · refine .inl ⟨?_, fun q => ?_⟩
      · rw [packets_eq_nil, same.queued, same.hand, same.ring, ← packets_eq_nil]
        exact nothing
      · by_contra still
        have was := path q
        rw [same.path q (by simpa using still)] at was
        cases was
    · exact .inr ⟨q, same.qp.trans bound, (same.destroy q).trans running⟩
  shut quarantined := by
    rw [same.closed, same.queued, uncancelled, same.quiesce]
    exact inv.shut (same.state ▸ quarantined)
  during z running := by
    have here := inv.during z (same.quiesce ▸ running)
    have path : ∀ q, (w.senders q).path = false → (w'.senders q).path = false := fun q was => by
      by_contra still
      rw [same.path q (by simpa using still)] at was
      cases was
    exact {
      owner := fun q owner => same.qpn.trans (here.owner q owner)
      closed := same.closed ▸ here.closed
      stopped := fun late notLast q owner => path q (here.stopped late notLast q owner)
      emptied := same.queued ▸ here.emptied
      state := same.state ▸ here.state
      retired := by
        rw [same.hand, same.ring]
        exact here.retired
      released := same.state ▸ here.released
      leaving := fun last q owner running => by
        rw [same.qp]
        exact (here.leaving last q owner (same.destroy q ▸ running)).imp_right
          fun left => ⟨left.1, path q left.2⟩ }

/-! ### The QPs -/

/-- A QP changes in what nobody asks for here, or puts the path. -/
theorem setSender {q : Nat} {sender : Sender} (inv : w.Inv)
    (same : sender.tqp = (w.senders q).tqp ∧ sender.closing = (w.senders q).closing ∧
      sender.destroy = (w.senders q).destroy)
    (path : sender.path = true → (w.senders q).path = true) : (w.setSender q sender).Inv := by
  obtain ⟨tqp, closing, destroy⟩ := same
  refine inv.alike ⟨rfl, ?_, ?_, ?_, ?_, ?_, rfl, rfl, rfl, rfl, rfl, rfl, rfl, rfl, rfl⟩
  · exact forall_setSender (P := fun r sender => sender.tqp.id = (w.senders r).tqp.id)
      (by rw [tqp]) fun _ _ => rfl
  · exact forall_setSender (P := fun r sender => sender.tqp.railBound = (w.senders r).tqp.railBound)
      (by rw [tqp]) fun _ _ => rfl
  · exact forall_setSender (P := fun r sender => sender.path = true → (w.senders r).path = true)
      path fun _ _ => id
  · exact forall_setSender (P := fun r sender => sender.closing = (w.senders r).closing)
      closing fun _ _ => rfl
  · exact forall_setSender (P := fun r sender => sender.destroy = (w.senders r).destroy)
      destroy fun _ _ => rfl

/-- A QP that holds nothing is as far with its destroy as it may be. -/
theorem leaves {q : Nat} {destroy : Destroy} (inv : w.Inv) (none : w.quiesce = none)
    (free : w.rail.bind.qp ≠ some q) (path : (w.senders q).path = false) :
    (w.setSender q { w.senders q with destroy }).Inv := by
  have paths : ∀ r, ((w.setSender q { w.senders q with destroy }).senders r).path =
      (w.senders r).path :=
    forall_setSender (P := fun r sender => sender.path = (w.senders r).path) rfl fun _ _ => rfl
  have others : ∀ r, w.rail.bind.qp = some r →
      (w.setSender q { w.senders q with destroy }).senders r = w.senders r := fun r bound =>
    senders_setSender_of_ne (fun same => free (bound.trans (congrArg some same))) w _
  exact {
    life := {
      ids := forall_setSender (P := fun r sender => sender.tqp.id = r) (inv.life.ids q)
        fun r _ => inv.life.ids r
      owns := forall_setSender (P := fun r sender => sender.tqp.railBound = true ↔
        w.rail.bind.qp = some r) (inv.life.owns q) fun r _ => inv.life.owns r
      holder := inv.life.holder
      closing := forall_setSender (P := fun _ sender => sender.closing = true →
          sender.path = true → sender.destroy = .running)
        (fun _ still => by
          rw [path] at still
          cases still)
        fun r _ => inv.life.closing r
      retired := forall_setSender (P := fun r sender => sender.destroy = .retired →
          w.rail.bind.qp ≠ some r ∧ sender.path = false ∧
            ∀ z, w.quiesce = some z → z.owner ≠ some r)
        (fun _ => ⟨free, path, fun z running => by
          rw [none] at running
          cases running⟩)
        fun r _ => inv.life.retired r }
    past := inv.past
    counted := inv.counted
    held := fun r holding => by
      rw [paths] at holding
      rcases inv.held r holding with ⟨bound, may⟩ | ⟨z, running, -⟩
      · rw [Holds, others r bound]
        exact .inl ⟨bound, may⟩
      · rw [none] at running
        cases running
    idle := fun unbound => by
      rcases inv.idle unbound with ⟨nothing, nobody⟩ | ⟨r, bound, leaves⟩
      · exact .inl ⟨nothing, fun r => (paths r).trans (nobody r)⟩
      · refine .inr ⟨r, bound, ?_⟩
        rw [others r bound]
        exact leaves
    shut := inv.shut
    during := fun z running => by
      have running : w.quiesce = some z := running
      rw [none] at running
      cases running }

theorem creates {q created : Nat} {qpNum : Nat} (inv : w.Inv) (free : w.qpn = none) :
    World.Inv ({ w with qpn := some q, created }.setSender q { tqp := { id := q, qpNum } }) := by
  have nobody : ∀ r, (w.senders r).path = false := fun r => by
    by_contra still
    have here := inv.holder (by simpa using still)
    rw [free] at here
    cases here
  have unbound : w.rail.bind.qp = none := by
    by_contra owned
    obtain ⟨r, bound⟩ := Option.ne_none_iff_exists'.mp owned
    have here := inv.life.holder r bound
    rw [free] at here
    cases here
  generalize eq : ({ w with qpn := some q, created }.setSender q { tqp := { id := q, qpNum } } :
    World) = next
  have paths : ∀ r, (next.senders r).path = false := by
    rw [← eq]
    exact forall_setSender (P := fun _ sender => sender.path = false) rfl fun r _ => nobody r
  subst eq
  exact {
    life := {
      ids := forall_setSender (P := fun r sender => sender.tqp.id = r) rfl
        fun r _ => inv.life.ids r
      owns := forall_setSender (P := fun r sender => sender.tqp.railBound = true ↔
        w.rail.bind.qp = some r) (by simp [unbound]) fun r _ => inv.life.owns r
      holder := fun r bound => by
        have bound : w.rail.bind.qp = some r := bound
        rw [unbound] at bound
        cases bound
      closing := fun r _ still => by
        rw [paths] at still
        cases still
      retired := forall_setSender (P := fun r sender => sender.destroy = .retired →
          w.rail.bind.qp ≠ some r ∧ sender.path = false ∧
            ∀ z, w.quiesce = some z → z.owner ≠ some r)
        nofun fun r _ => inv.life.retired r }
    past := inv.past
    counted := inv.counted
    held := fun r still => by
      rw [paths] at still
      cases still
    idle := fun idle => .inl ⟨(inv.rid idle unbound).1, paths⟩
    shut := inv.shut
    during := fun z running => by
      have here := inv.during z running
      have anyone : ∀ r, z.owner ≠ some r := fun r owner => by
        have its := here.owner r owner
        rw [free] at its
        cases its
      exact {
        owner := fun r owner => absurd owner (anyone r)
        closed := here.closed
        stopped := fun _ _ r _ => paths r
        emptied := here.emptied
        state := here.state
        retired := here.retired
        released := here.released
        leaving := fun _ r owner => absurd owner (anyone r) } }

/-- Without a modify of the QP in its quiesce, its destroy begins. -/
theorem closes {q : Nat} (inv : w.Inv) (alone : w.modifying q = false) :
    (w.setSender q { w.senders q with closing := true, destroy := .running }).Inv := by
  generalize eq : w.setSender q { w.senders q with closing := true, destroy := .running } = next
  have paths : ∀ r, (next.senders r).path = (w.senders r).path := by
    rw [← eq]
    exact forall_setSender (P := fun r sender => sender.path = (w.senders r).path) rfl
      fun _ _ => rfl
  have destroy : ∀ r, (next.senders r).destroy = .running ∨
      r ≠ q ∧ (next.senders r).destroy = (w.senders r).destroy := by
    rw [← eq]
    exact forall_setSender (P := fun r sender => sender.destroy = .running ∨
      r ≠ q ∧ sender.destroy = (w.senders r).destroy) (.inl rfl) fun _ apart => .inr ⟨apart, rfl⟩
  have leaves : ∀ r, (w.senders r).destroy = .running → (next.senders r).destroy = .running :=
    fun r was => (destroy r).elim id fun same => same.2.trans was
  subst eq
  exact {
    life := {
      ids := forall_setSender (P := fun r sender => sender.tqp.id = r) (inv.life.ids q)
        fun r _ => inv.life.ids r
      owns := forall_setSender (P := fun r sender => sender.tqp.railBound = true ↔
        w.rail.bind.qp = some r) (inv.life.owns q) fun r _ => inv.life.owns r
      holder := inv.life.holder
      closing := forall_setSender (P := fun _ sender => sender.closing = true →
        sender.path = true → sender.destroy = .running) (fun _ _ => rfl)
        fun r _ => inv.life.closing r
      retired := forall_setSender (P := fun r sender => sender.destroy = .retired →
          w.rail.bind.qp ≠ some r ∧ sender.path = false ∧
            ∀ z, w.quiesce = some z → z.owner ≠ some r)
        nofun fun r _ => inv.life.retired r }
    past := inv.past
    counted := inv.counted
    held := fun r holding => by
      rw [paths] at holding
      exact (inv.held r holding).imp_left fun bound => ⟨bound.1, bound.2.imp_right (leaves r)⟩
    idle := fun unbound => by
      rcases inv.idle unbound with ⟨nothing, nobody⟩ | ⟨r, bound, was⟩
      · exact .inl ⟨nothing, fun r => (paths r).trans (nobody r)⟩
      · exact .inr ⟨r, bound, leaves r was⟩
    shut := inv.shut
    during := fun z running => by
      have here := inv.during z running
      exact {
        owner := here.owner
        closed := here.closed
        stopped := fun late notLast r owner => (paths r).trans (here.stopped late notLast r owner)
        emptied := here.emptied
        state := here.state
        retired := here.retired
        released := here.released
        leaving := fun last r owner now => by
          rw [paths]
          by_cases same : r = q
          · have running : w.quiesce = some z := running
            simp [modifying, running, owner, same] at alone
            exact .inl alone
          · rw [senders_setSender_of_ne same] at now
            exact here.leaving last r owner now } }

theorem gives {rail : Rail} {tqp : Qp} {q : Nat} (inv : w.Inv) (given : w.rail.Gives rail q)
    (here : w.qpn = some q) (idle : (w.senders q).destroy = .idle) (qp : w.rail.bind.qp = none)
    (id : tqp.id = q) (bound : tqp.railBound = true) :
    World.Inv ({ w with rail }.setSender q { w.senders q with tqp }) := by
  obtain ⟨empty, nobody⟩ := inv.rid given.unbound qp
  obtain ⟨queued, hand, ring⟩ := packets_eq_nil.mp empty
  have path : ∀ r, (({ w with rail }.setSender q { w.senders q with tqp }).senders r).path =
      false := forall_setSender (P := fun _ sender => sender.path = false) (nobody q)
        fun r _ => nobody r
  have destroy : ∀ r, (({ w with rail }.setSender q { w.senders q with tqp }).senders r).destroy =
      (w.senders r).destroy :=
    forall_setSender (P := fun r sender => sender.destroy = (w.senders r).destroy) rfl
      fun _ _ => rfl
  exact {
    life := {
      ids := forall_setSender (P := fun r sender => sender.tqp.id = r) id
        fun r _ => inv.life.ids r
      owns := forall_setSender (P := fun r sender => sender.tqp.railBound = true ↔
          rail.bind.qp = some r) (by simp [bound, given.qp]) fun r apart => by
        rw [inv.life.owns r, qp, given.qp]
        simp [Ne.symm apart]
      holder := fun r owner => by
        have owner : rail.bind.qp = some r := owner
        rw [given.qp] at owner
        cases owner
        exact here
      closing := fun r _ still => by
        rw [path] at still
        cases still
      retired := fun r gone => by
        rw [destroy] at gone
        obtain ⟨-, -, running⟩ := inv.life.retired r gone
        refine ⟨fun owner => ?_, path r, running⟩
        have owner : rail.bind.qp = some r := owner
        rw [given.qp] at owner
        cases owner
        rw [idle] at gone
        cases gone }
    past := fun pkt among => by
      change pkt ∈ w.packets at among
      rw [empty] at among
      cases among
    counted := by
      change rail.path.txInflight = _
      rw [given.path]
      exact inv.counted
    held := fun r still => by
      rw [path] at still
      cases still
    idle := fun unbound => by
      have unbound : rail.bind.state = .unbound := unbound
      rw [given.state] at unbound
      cases unbound
    shut := fun quarantined => by
      have quarantined : rail.bind.state = .quarantined := quarantined
      rw [given.state] at quarantined
      cases quarantined
    during := fun z running => by
      have here := inv.during z running
      have last := inv.reopens (.inl given.unbound) running
      exact {
        owner := here.owner
        closed := fun later => by
          change rail.path.txClosed = true
          rw [given.path]
          exact here.closed later
        stopped := fun _ notLast => absurd last notLast
        emptied := here.emptied
        state := fun earlier => absurd last earlier
        retired := here.retired
        released := fun _ => .inr given.state
        leaving := fun _ r owner leaves => by
          rw [destroy] at leaves
          refine (here.leaving last r owner leaves).imp_right fun _ => ⟨fun is => ?_, path r⟩
          have is : rail.bind.qp = some r := is
          rw [given.qp] at is
          cases is
          rw [idle] at leaves
          cases leaves } }

theorem nothing_inflight (inv : w.Inv) (inflight : w.rail.path.txInflight = 0) :
    w.hand = none ∧ w.ring = [] := by
  have counted := inv.counted
  rw [inflight] at counted
  refine ⟨?_, List.eq_nil_of_length_eq_zero (by omega)⟩
  cases hand : w.hand with
  | none => rfl
  | some pkt =>
      rw [hand] at counted
      simp at counted
      omega

/-- A quarantine that may be lifted, without a quiesce that runs, leaves nothing behind. -/
theorem lift (inv : w.Inv) (state : w.rail.bind.state = .quarantined)
    (silent : w.rail.liftable = true) (none : w.quiesce = none) (qp : w.rail.bind.qp = .none) :
    World.Inv { w with rail := w.rail.lift } := by
  have nothing : w.packets = [] := by
    have inflight : w.rail.path.txInflight = 0 := by
      simp only [Rail.liftable, Bool.and_eq_true, beq_iff_eq] at silent
      exact silent.1.1.2
    obtain ⟨hand, ring⟩ := inv.nothing_inflight inflight
    refine packets_eq_nil.mpr ⟨(inv.shut state).2.resolve_right ?_, hand, ring⟩
    simp [uncancelled, none]
  have nobody := inv.nobody none qp
  exact {
    life := ⟨inv.life.ids, inv.life.owns, inv.life.holder, inv.life.closing, inv.life.retired⟩
    past := inv.past
    counted := inv.counted
    held := fun q path => by
      have path : (w.senders q).path = true := path
      rw [nobody q] at path
      cases path
    idle := fun _ => .inl ⟨nothing, nobody⟩
    shut := nofun
    during := fun z running => by
      have running : w.quiesce = some z := running
      rw [none] at running
      cases running }

theorem keeps {rail : Rail} (inv : w.Inv) (same : w.rail.Keeps rail) :
    World.Inv { w with rail } :=
  inv.alike ⟨rfl, fun _ => rfl, fun _ => rfl, fun _ path => path, fun _ => rfl, fun _ => rfl,
    same.epoch, same.state, same.qp, congrArg Path.txClosed same.path,
    congrArg Path.txInflight same.path, rfl, rfl, rfl, rfl⟩

/-- What a bind finds, once it has lifted the quarantine or not. -/
theorem admitted {q : Nat} {remoteKnown : Bool} {remoteQpn now : Nat} {admitted : Rail}
    (inv : w.Inv) (here : w.qpn = some q)
    (ok : w.Retires (.bind q remoteKnown remoteQpn now))
    (which : admitted = w.rail ∨
      admitted = w.rail.lift ∧ (w.senders q).tqp.Lifts w.rail remoteKnown) :
    World.Inv { w with rail := admitted } := by
  rcases which with rfl | ⟨rfl, lifts⟩
  · exact inv
  · obtain ⟨-, -, unbound, -, state, silent, -⟩ := id lifts
    exact inv.lift state silent (ok lifts) (inv.unowned here unbound)

theorem appleBind {q : Nat} {remoteKnown : Bool} {remoteQpn now : Nat} (inv : w.Inv)
    (may : w.modifiable q = true) (ok : w.Retires (.bind q remoteKnown remoteQpn now)) :
    (w.appleBind q remoteKnown remoteQpn now).Inv := by
  simp only [modifiable, Bool.and_eq_true, beq_iff_eq] at may
  obtain ⟨here, idle⟩ := may
  obtain ⟨admitted, which, settles⟩ :=
    (w.senders q).tqp.appleBindRail_cases w.rail remoteKnown remoteQpn now
  have before := inv.admitted here ok which
  rcases settles with ⟨same, tqp⟩ | ⟨given, id, unbound, bound⟩
  · exact (before.keeps same).setSender ⟨tqp, rfl, rfl⟩ fun path => path
  · rw [inv.life.ids q] at given id
    exact before.gives given here idle (before.unowned here unbound) id bound

/-- The binding of a QP that has nothing left on the path may end without a quiesce. -/
theorem release {q : Nat} {tqp : Qp} (inv : w.Inv) (state : w.rail.bind.state = .bound)
    (qp : w.rail.bind.qp = some q) (retired : w.packets = []) (path : (w.senders q).path = false)
    (id : tqp.id = q) (unbound : tqp.railBound = false) :
    (w.disown q tqp .unbound).Inv := by
  have last : ∀ z, w.quiesce = some z → z.phase = .reopen := fun z => inv.reopens (.inr state)
  have nobody : ∀ r, (w.senders r).path = false := fun r => by
    by_contra still
    rcases inv.held r (by simpa using still) with ⟨owner, -⟩ | ⟨z, running, -, producing⟩
    · rw [qp] at owner
      cases owner
      exact still path
    · rw [last z running] at producing
      cases producing
  obtain ⟨life, paths, destroy⟩ := inv.life.disown .unbound qp id unbound
  exact {
    life := life
    past := inv.past
    counted := inv.counted
    held := fun r holding => by
      rw [paths, nobody] at holding
      cases holding
    idle := fun _ => .inl ⟨retired, fun r => (paths r).trans (nobody r)⟩
    shut := nofun
    during := fun z running => by
      have here := inv.during z running
      exact {
        owner := here.owner
        closed := here.closed
        stopped := fun _ notLast => absurd (last z running) notLast
        emptied := here.emptied
        state := fun earlier => absurd (last z running) earlier
        retired := here.retired
        released := fun _ => .inl rfl
        leaving := fun final r owner leaves => by
          rw [destroy] at leaves
          exact (here.leaving final r owner leaves).imp_right fun _ =>
            ⟨nofun, (paths r).trans (nobody r)⟩ } }

/-- A QP that is not being destroyed loses a rail that a quiesce has left in another state. -/
theorem lost {q : Nat} {tqp : Qp} (inv : w.Inv) (state : w.rail.bind.state ≠ .bound)
    (qp : w.rail.bind.qp = some q) (stays : (w.senders q).destroy ≠ .running)
    (id : tqp.id = q) (unbound : tqp.railBound = false) :
    (w.disown q tqp w.rail.bind.state).Inv := by
  obtain ⟨life, paths, destroy⟩ :=
    inv.life.disown w.rail.bind.state qp id unbound
  exact {
    life := life
    past := inv.past
    counted := inv.counted
    held := fun r holding => by
      rw [paths] at holding
      rcases inv.held r holding with ⟨owner, bound | leaves⟩ | quiesced
      · exact absurd bound state
      · rw [qp] at owner
        cases owner
        exact absurd leaves stays
      · exact .inr quiesced
    idle := fun free => by
      rcases inv.idle free with ⟨nothing, nobody⟩ | ⟨r, owner, leaves⟩
      · exact .inl ⟨nothing, fun r => (paths r).trans (nobody r)⟩
      · rw [qp] at owner
        cases owner
        exact absurd leaves stays
    shut := inv.shut
    during := fun z running => by
      have here := inv.during z running
      exact {
        owner := here.owner
        closed := here.closed
        stopped := fun late notLast r owner => (paths r).trans (here.stopped late notLast r owner)
        emptied := here.emptied
        state := here.state
        retired := here.retired
        released := here.released
        leaving := fun final r owner leaves => by
          rw [destroy] at leaves
          exact (here.leaving final r owner leaves).imp_right fun left =>
            ⟨nofun, (paths r).trans left.2⟩ } }

theorem appleUnbind {q : Nat} (inv : w.Inv) (stays : (w.senders q).destroy ≠ .running)
    (ok : w.Retires (.unbind q)) : (w.appleUnbind q).Inv := by
  unfold World.appleUnbind Qp.appleUnbindRail
  split
  · exact inv.setSender ⟨rfl, rfl, rfl⟩ fun path => path
  · rename_i mine
    have mine : (w.senders q).tqp.hasRail = true ∧ (w.senders q).tqp.railBound = true := by
      simpa using mine
    have qp := (inv.life.owns q).mp mine.2
    dsimp only
    rw [inv.life.ids q, if_pos qp]
    by_cases state : w.rail.bind.state = .bound
    · obtain ⟨retired, path⟩ := ok ⟨mine.1, mine.2, by rw [inv.life.ids q]; exact qp, state⟩
      rw [if_pos state]
      exact inv.release state qp retired path rfl rfl
    · rw [if_neg state]
      exact inv.lost state qp stays rfl rfl

/-- The bound QP gets the path, unless it is being destroyed. -/
theorem takes {q : Nat} (inv : w.Inv) (state : w.rail.bind.state = .bound)
    (qp : w.rail.bind.qp = some q) (admitted : (w.senders q).closing = false) :
    (w.setSender q { w.senders q with path := true }).Inv := by
  have others : ∀ r, r ≠ q → (w.setSender q { w.senders q with path := true }).senders r =
      w.senders r := fun r apart => senders_setSender_of_ne apart w _
  have destroy : ∀ r, ((w.setSender q { w.senders q with path := true }).senders r).destroy =
      (w.senders r).destroy :=
    forall_setSender (P := fun r sender => sender.destroy = (w.senders r).destroy) rfl
      fun _ _ => rfl
  have last : ∀ z, w.quiesce = some z → z.phase = .reopen := fun z => inv.reopens (.inr state)
  exact {
    life := {
      ids := forall_setSender (P := fun r sender => sender.tqp.id = r) (inv.life.ids q)
        fun r _ => inv.life.ids r
      owns := forall_setSender (P := fun r sender => sender.tqp.railBound = true ↔
        w.rail.bind.qp = some r) (inv.life.owns q) fun r _ => inv.life.owns r
      holder := inv.life.holder
      closing := forall_setSender (P := fun _ sender => sender.closing = true →
          sender.path = true → sender.destroy = .running)
        (fun closing => by
          rw [admitted] at closing
          cases closing)
        fun r _ => inv.life.closing r
      retired := fun r gone => by
        rw [destroy] at gone
        have left := inv.life.retired r gone
        have apart : r ≠ q := fun same => left.1 (same ▸ qp)
        rw [others r apart]
        exact left }
    past := inv.past
    counted := inv.counted
    held := fun r holding => by
      rw [Holds, destroy]
      by_cases same : r = q
      · exact .inl ⟨same ▸ qp, .inl state⟩
      · rw [others r same] at holding
        exact inv.held r holding
    idle := fun unbound => by
      have unbound : w.rail.bind.state = .unbound := unbound
      rw [state] at unbound
      cases unbound
    shut := fun quarantined => by
      have quarantined : w.rail.bind.state = .quarantined := quarantined
      rw [state] at quarantined
      cases quarantined
    during := fun z running => by
      have here := inv.during z running
      exact {
        owner := here.owner
        closed := here.closed
        stopped := fun _ notLast => absurd (last z running) notLast
        emptied := here.emptied
        state := here.state
        retired := here.retired
        released := here.released
        leaving := fun final r owner leaves => by
          rw [destroy] at leaves
          refine (here.leaving final r owner leaves).imp_right fun left => ?_
          have apart : r ≠ q := fun same => left.1 (same ▸ qp)
          rw [others r apart]
          exact left } }

theorem takePath {q : Nat} (inv : w.Inv) (taken : w.takePath q = some w') : w'.Inv := by
  unfold World.takePath at taken
  split at taken
  · cases taken
  · rename_i may
    simp only [Bool.or_eq_true, Bool.not_eq_true', not_or, boundTo, Bool.and_eq_true,
      beq_iff_eq, Bool.not_eq_true, Bool.not_eq_false] at may
    obtain ⟨⟨⟨admitted, -⟩, -⟩, ⟨state, qp⟩, -⟩ := may
    cases Option.some.inj taken
    exact inv.takes state qp admitted

/-! ### The packets -/

/-- Packets move, and nothing else. -/
structure Moves (w w' : World) : Prop where
  qpn : w'.qpn = w.qpn
  bind : w'.rail.bind = w.rail.bind
  closed : w'.rail.path.txClosed = w.rail.path.txClosed
  senders : w'.senders = w.senders
  quiesce : w'.quiesce = w.quiesce

theorem moves (inv : w.Inv) (same : Moves w w')
    (past : ∀ pkt ∈ w'.packets, pkt ∈ w.packets ∨ pkt.epoch = w.rail.bind.epoch)
    (counted : w'.rail.path.txInflight = w'.hand.toList.length + w'.ring.length)
    (idle : w.Rid → w'.packets = [])
    (queued : w.rail.path.txClosed = true → w.uncancelled = true ∨ (w.queued = [] → w'.queued = []))
    (retired : w.hand = none → w.ring = [] → w.rail.path.txClosed = true →
      w'.hand = none ∧ w'.ring = []) : w'.Inv where
  life := by
    obtain ⟨ids, owns, holder, closing, retired⟩ := inv.life
    constructor <;> simp only [same.senders, same.bind, same.qpn, same.quiesce] <;> assumption
  past pkt among := by
    rw [same.bind]
    rcases past pkt among with old | new
    · exact inv.past pkt old
    · exact Nat.le_of_eq new
  counted := counted
  held q path := by
    rw [same.senders] at path
    rw [Holds, same.bind, same.senders, same.quiesce]
    exact inv.held q path
  idle unbound := by
    rw [same.bind] at unbound
    rw [Rid, Ending, same.senders, same.bind]
    exact (inv.idle unbound).imp_left fun rid => ⟨idle rid, rid.2⟩
  shut quarantined := by
    rw [same.bind] at quarantined
    rw [same.closed, uncancelled, same.quiesce]
    obtain ⟨closed, empty⟩ := inv.shut quarantined
    refine ⟨closed, ?_⟩
    rcases queued closed with early | keeps
    · exact .inr early
    · exact empty.imp_left keeps
  during z running := by
    rw [same.quiesce] at running
    have here := inv.during z running
    exact {
      owner := fun q owner => same.qpn.trans (here.owner q owner)
      closed := fun later => same.closed.trans (here.closed later)
      stopped := fun late notLast => by
        rw [same.senders]
        exact here.stopped late notLast
      emptied := fun late => by
        have closed := here.closed fun first => by rw [first] at late; cases late
        refine (queued closed).resolve_left ?_ (here.emptied late)
        simp [uncancelled, running, late]
      state := fun earlier => by
        rw [same.bind]
        exact here.state earlier
      released := fun last => by
        rw [same.bind]
        exact here.released last
      leaving := fun last => by
        rw [same.senders, same.bind]
        exact here.leaving last
      retired := fun phase clean => by
        have closed := here.closed fun first => by rw [first] at phase; simp at phase
        obtain ⟨hand, ring⟩ := here.retired phase clean
        exact retired hand ring closed }

theorem enqueue {q : Nat} {control : Bool} (inv : w.Inv)
    (taken : w.enqueue q control = some w') : w'.Inv := by
  unfold World.enqueue at taken
  dsimp only at taken
  split at taken
  · cases taken
  · rename_i admits
    have admits : (w.senders q).path = true ∧ w.txAdmits = true := by simpa using admits
    have isOpen : ¬ w.rail.path.txClosed = true := fun closed => by
      simp [txAdmits, closed] at admits
    have busy : ¬ w.Rid := fun rid => by
      rw [rid.2 q] at admits
      cases admits.1
    cases control with
    | true =>
        cases Option.some.inj taken
        refine inv.moves ⟨rfl, rfl, rfl, rfl, rfl⟩ (fun pkt among => ?_) inv.counted
          (fun rid => absurd rid busy) (fun closed => absurd closed isOpen)
          (fun _ _ closed => absurd closed isOpen)
        simp only [mem_packets, World.queued, List.mem_append, List.mem_singleton] at among ⊢
        grind
    | false =>
        cases Option.some.inj taken
        refine inv.moves ⟨rfl, rfl, rfl, rfl, rfl⟩ (fun pkt among => ?_) inv.counted
          (fun rid => absurd rid busy) (fun closed => absurd closed isOpen)
          (fun _ _ closed => absurd closed isOpen)
        simp only [mem_packets, World.queued, List.mem_append, List.mem_singleton] at among ⊢
        grind

theorem dequeue (inv : w.Inv) (taken : w.dequeue = some w') : w'.Inv := by
  unfold World.dequeue at taken
  split at taken
  · cases taken
  · rename_i admits
    have admits : w.txAdmits = true ∧ w.hand = none := by simpa using admits
    have isOpen : ¬ w.rail.path.txClosed = true := fun closed => by
      simp [txAdmits, closed] at admits
    have counted := inv.counted
    rw [admits.2] at counted
    cases control : w.txControlQueue with
    | cons pkt rest =>
        rw [control] at taken
        cases Option.some.inj taken
        refine inv.moves ⟨rfl, rfl, rfl, rfl, rfl⟩ (fun other among => ?_) ?_
          (fun empty => ?_) (fun closed => absurd closed isOpen)
          (fun _ _ closed => absurd closed isOpen)
        · simp only [mem_packets, World.queued, control, List.mem_append, List.mem_cons] at among ⊢
          simp only [World.setInflight, World.setPath] at among
          grind
        · simp only [World.setInflight, World.setPath, Option.toList, List.length_cons,
            List.length_nil] at counted ⊢
          omega
        · have queued := (packets_eq_nil.mp empty.1).1
          rw [World.queued, control] at queued
          cases queued
    | nil =>
        cases data : w.txDataQueue with
        | nil =>
            rw [control, data] at taken
            cases taken
        | cons pkt rest =>
            rw [control, data] at taken
            cases Option.some.inj taken
            refine inv.moves ⟨rfl, rfl, rfl, rfl, rfl⟩ (fun other among => ?_) ?_
              (fun empty => ?_) (fun closed => absurd closed isOpen)
              (fun _ _ closed => absurd closed isOpen)
            · simp only [mem_packets, World.queued, control, data, List.mem_append,
                List.mem_cons] at among ⊢
              simp only [World.setInflight, World.setPath] at among
              grind
            · simp only [World.setInflight, World.setPath, Option.toList, List.length_cons,
                List.length_nil] at counted ⊢
              omega
            · have queued := (packets_eq_nil.mp empty.1).1
              rw [World.queued, data] at queued
              simp at queued

theorem cancel (inv : w.Inv) (i : Nat) :
    World.Inv { w with txDataQueue := w.txDataQueue.eraseIdx i } := by
  have fewer : ∀ pkt ∈ w.txDataQueue.eraseIdx i, pkt ∈ w.txDataQueue :=
    fun pkt among => List.mem_of_mem_eraseIdx among
  have empty : w.queued = [] →
      w.txControlQueue ++ w.txDataQueue.eraseIdx i = [] := fun nothing => by
    simp only [World.queued, List.append_eq_nil_iff] at nothing
    rw [nothing.1, nothing.2]
    rfl
  refine inv.moves ⟨rfl, rfl, rfl, rfl, rfl⟩ (fun pkt among => .inl ?_) inv.counted
    (fun nothing => ?_) (fun _ => .inr empty) (fun hand ring _ => ⟨hand, ring⟩)
  · simp only [mem_packets, World.queued, List.mem_append] at among ⊢
    grind
  · obtain ⟨queued, hand, ring⟩ := packets_eq_nil.mp nothing.1
    exact packets_eq_nil.mpr ⟨empty queued, hand, ring⟩

theorem retire (inv : w.Inv) (count : Nat) : (w.retire count).Inv := by
  have counted := inv.counted
  refine inv.moves ⟨rfl, rfl, rfl, rfl, rfl⟩ (fun pkt among => .inl ?_) ?_
    (fun nothing => ?_) (fun _ => .inr fun queued => queued) (fun hand ring _ => ⟨hand, ?_⟩)
  · have fewer : ∀ pkt ∈ w.ring.drop count, pkt ∈ w.ring := fun pkt => List.mem_of_mem_drop
    simp only [mem_packets] at among ⊢
    simp only [World.retire, World.setInflight, World.setPath, World.queued] at among
    simp only [World.queued]
    grind
  · simp only [World.retire, World.setInflight, World.setPath, List.length_drop,
      List.length_take] at counted ⊢
    omega
  · obtain ⟨queued, hand, ring⟩ := packets_eq_nil.mp nothing.1
    refine packets_eq_nil.mpr ⟨queued, hand, ?_⟩
    simp [World.retire, World.setInflight, World.setPath, ring]
  · simp [World.retire, World.setInflight, World.setPath, ring]

theorem ringTx {ret : Int} (inv : w.Inv) (ok : w.Retires (.ringTx ret))
    (taken : w.ringTx ret = some w') : w'.Inv := by
  unfold World.ringTx at taken
  have counted := inv.counted
  cases hand : w.hand with
  | none =>
      rw [hand] at taken
      cases taken
  | some pkt =>
      have busy : ¬ w.Rid := fun rid => by
        rw [(packets_eq_nil.mp rid.1).2.1] at hand
        cases hand
      rw [hand] at taken counted
      simp only [Option.toList, List.length_cons, List.length_nil] at counted
      dsimp only at taken
      split at taken
      · split at taken
        · cases taken
        · cases Option.some.inj taken
          refine inv.moves ⟨rfl, rfl, rfl, rfl, rfl⟩ (fun other among => .inl ?_) ?_
            (fun rid => absurd rid busy) (fun _ => .inr fun queued => queued)
            (fun none => by rw [hand] at none; cases none)
          · simp only [mem_packets, World.queued, hand] at among ⊢
            grind
          · simp
            omega
      · split at taken
        · rename_i requeued
          cases Option.some.inj taken
          refine inv.moves ?_ (fun other among => .inl ?_) ?_
            (fun rid => absurd rid busy) (fun closed => .inl (ok requeued.1 requeued.2 closed))
            (fun none => by rw [hand] at none; cases none)
          · unfold requeue
            split <;> exact ⟨rfl, rfl, rfl, rfl, rfl⟩
          · simp only [mem_packets, World.queued, hand] at among ⊢
            unfold requeue at among
            split at among <;> simp [World.setInflight, World.setPath] at among <;> grind
          · unfold requeue
            split <;> simp [World.setInflight, World.setPath] <;> omega
        · cases Option.some.inj taken
          refine inv.moves ⟨rfl, rfl, rfl, rfl, rfl⟩ (fun other among => .inl ?_) ?_
            (fun rid => absurd rid busy) (fun _ => .inr fun queued => queued)
            (fun none => by rw [hand] at none; cases none)
          · simp only [mem_packets, World.queued, World.setInflight, World.setPath] at among ⊢
            grind
          · simp [World.setInflight, World.setPath]
            omega

end World.Inv
end
end Tbv.AppleRail
