import ThunderboltIbverbs.Rail.Retirement

/-! # No successor before the DMA of its predecessor is retired

The sections of the quiesce, and runs. -/
set_option autoImplicit false
namespace Tbv.AppleRail

open Trans

section
variable {w w' : World}

namespace World.Inv

/-! ### Create and destroy -/

theorem createQp (inv : w.Inv) (elsewhere : Bool) (now : Nat) :
    (w.createQp elsewhere now).Inv := by
  have admitted := inv.keeps (w.rail.admit_keeps now)
  unfold World.createQp
  dsimp only
  split
  · exact admitted
  · rename_i taken
    have free : w.qpn = none := by
      cases qpn : w.qpn with
      | none => rfl
      | some q =>
          refine absurd (.inr ?_) taken
          simp only [allocQpn, qpn, Option.isSome_some, Bool.or_true, if_pos]
          decide
    exact admitted.creates free

theorem close {q : Nat} (inv : w.Inv) (taken : w.close q = some w') : w'.Inv := by
  unfold World.close at taken
  split at taken
  · rename_i may
    simp only [Bool.and_eq_true, Bool.not_eq_true'] at may
    cases Option.some.inj taken
    exact inv.closes may.2
  · cases taken

/-- The destroyed QP holds nothing any more, so that the QPN is free for another. -/
theorem freeQpn {q : Nat} (inv : w.Inv) (taken : w.freeQpn q = some w') : w'.Inv := by
  unfold World.freeQpn at taken
  split at taken
  · rename_i may
    obtain ⟨here, gone⟩ := may
    obtain ⟨free, -, ended⟩ := inv.life.retired q gone
    cases Option.some.inj taken
    exact {
      life := ⟨inv.life.ids, inv.life.owns, fun r owner => by
          have same := here.symm.trans (inv.life.holder r owner)
          cases same
          exact absurd owner free,
        inv.life.closing, inv.life.retired⟩
      past := inv.past
      counted := inv.counted
      held := inv.held
      idle := inv.idle
      shut := inv.shut
      during := fun z running => by
        have during := inv.during z running
        exact ⟨fun r owner => by
            have same := here.symm.trans (during.owner r owner)
            cases same
            exact absurd owner (ended z running),
          during.closed, during.stopped, during.emptied, during.state, during.retired,
          during.released, during.leaving⟩ }
  · cases taken

/-! ### The sections of the quiesce -/

theorem owner_cases {tqp : Option Nat} (inv : w.Inv) (callable : w.callable tqp = true) :
    ∀ q, w.owner tqp = some q → w.qpn = some q ∧ (w.senders q).destroy ≠ .retired := by
  intro q owner
  cases tqp with
  | some r =>
      cases Option.some.inj owner
      simpa [World.callable] using callable
  | none =>
      obtain ⟨bound, -⟩ := Option.filter_eq_some_iff.mp owner
      exact ⟨inv.life.holder q bound, fun gone => (inv.life.retired q gone).1 bound⟩

/-- The quiesce stops whoever holds the path, but for a QP that is being destroyed. -/
theorem holder_owner {tqp : Option Nat} {q : Nat} (inv : w.Inv) (none : w.quiesce = none)
    (callable : w.callable tqp = true) (path : (w.senders q).path = true) :
    w.owner tqp = some q ∨ w.rail.bind.qp = some q ∧ (w.senders q).destroy = .running := by
  cases tqp with
  | some r =>
      have here : w.qpn = some r := by
        simp only [World.callable, Bool.and_eq_true, beq_iff_eq] at callable
        exact callable.1
      exact .inl (here.symm.trans (inv.holder path))
  | none =>
      rcases inv.held q path with ⟨bound, -⟩ | ⟨z, running, -⟩
      · cases closing : (w.senders q).closing with
        | true => exact .inr ⟨bound, inv.life.closing q closing path⟩
        | false => exact .inl (Option.filter_eq_some_iff.mpr ⟨bound, by simp [closing]⟩)
      · rw [none] at running
        cases running

theorem beginQuiesce {tqp : Option Nat} (inv : w.Inv)
    (taken : w.beginQuiesce tqp = some w') : w'.Inv := by
  unfold World.beginQuiesce at taken
  split at taken
  · cases taken
  · rename_i may
    have may : w.quiesce = none ∧ w.callable tqp = true := by simpa using may
    have owner := inv.owner_cases may.2
    -- whichever state the rail is left in, it is not an unbound one
    have begins {state : BindState} {z : Quiesce} (first : z.phase = .closeTx)
        (its : z.owner = w.owner tqp) (notFree : state ≠ .unbound)
        (is : state = if z.wasQuarantined then .quarantined else .quiescing)
        (shut : state = .quarantined → w.rail.path.txClosed = true) :
        World.Inv { w.setState state with quiesce := some z } := {
      life := ⟨inv.life.ids, inv.life.owns, inv.life.holder, inv.life.closing, fun q gone => by
        obtain ⟨free, path, -⟩ := inv.life.retired q gone
        refine ⟨free, path, fun y running isOwner => ?_⟩
        cases Option.some.inj running
        exact (owner q (its.symm.trans isOwner)).2 gone⟩
      past := inv.past
      counted := inv.counted
      held := fun q path => by
        rcases inv.holder_owner may.1 may.2 path with isOwner | ⟨bound, leaves⟩
        · exact .inr ⟨z, rfl, its.trans isOwner, by rw [first]; rfl⟩
        · exact .inl ⟨bound, .inr leaves⟩
      idle := fun free => absurd free notFree
      shut := fun quarantined => ⟨shut quarantined, .inr (by
        simp [uncancelled, first, Phase.uncancelled])⟩
      during := fun y running => by
        cases Option.some.inj running
        exact {
          owner := fun q isOwner => (owner q (its.symm.trans isOwner)).1
          closed := fun later => absurd first later
          stopped := by
            rw [first]
            rintro ⟨⟩
          emptied := by
            rw [first]
            rintro ⟨⟩
          state := fun _ => is
          retired := by
            rw [first]
            rintro (later | later) <;> cases later
          released := by
            rw [first]
            rintro ⟨⟩
          leaving := by
            rw [first]
            rintro ⟨⟩ } }
    cases Option.some.inj taken
    by_cases quarantined : w.rail.bind.state = .quarantined
    · rw [if_pos (by simpa using quarantined)]
      exact begins rfl rfl (by rw [quarantined]; rintro ⟨⟩) (by simp [quarantined])
        fun _ => (inv.shut quarantined).1
    · rw [if_neg (by simpa using quarantined)]
      exact begins rfl rfl (by rintro ⟨⟩) (by simp [quarantined]) (by rintro ⟨⟩)

variable {z z' : Quiesce}

/-- The quiesce goes on to a section that finds what it needs. -/
theorem goes (inv : w.Inv) (running : w.quiesce = some z)
    (same : z'.owner = z.owner ∧ z'.wasQuarantined = z.wasQuarantined)
    (going : z.phase ≠ .reopen ∧ z'.phase ≠ .reopen) (closed : w.rail.path.txClosed = true)
    (stopped : z'.phase.producing = true ∨ ∀ q, z.owner = some q → (w.senders q).path = false)
    (emptied : z'.phase.uncancelled = true ∨ w.queued = [])
    (retired : z'.phase = .waitRefs ∨ z'.phase = .settle → z'.ret = 0 →
      w.hand = none ∧ w.ring = []) : World.Inv { w with quiesce := some z' } where
  life := ⟨inv.life.ids, inv.life.owns, inv.life.holder, inv.life.closing, fun q gone => by
    obtain ⟨free, path, ended⟩ := inv.life.retired q gone
    refine ⟨free, path, fun y isRunning isOwner => ?_⟩
    cases Option.some.inj isRunning
    exact ended z running (same.1.symm.trans isOwner)⟩
  past := inv.past
  counted := inv.counted
  held q path := by
    rcases inv.held q path with bound | ⟨y, isRunning, isOwner, -⟩
    · exact .inl bound
    · rw [running] at isRunning
      cases isRunning
      rcases stopped with still | free
      · exact .inr ⟨z', rfl, same.1.trans isOwner, still⟩
      · have path : (w.senders q).path = true := path
        rw [free q isOwner] at path
        cases path
  idle := inv.idle
  shut quarantined := ⟨closed, by
    rcases emptied with early | empty
    · exact .inr early
    · exact .inl empty⟩
  during y isRunning := by
    have here := inv.during z running
    cases Option.some.inj isRunning
    exact {
      owner := fun q isOwner => here.owner q (same.1.symm.trans isOwner)
      closed := fun _ => closed
      stopped := fun late _ q isOwner => by
        refine stopped.resolve_left ?_ q (same.1.symm.trans isOwner)
        rw [late]
        nofun
      emptied := fun late => emptied.resolve_left (by rw [late]; nofun)
      state := fun _ => by
        rw [same.2]
        exact here.state going.1
      retired := retired
      released := fun last => absurd last going.2
      leaving := fun last => absurd last going.2 }

theorem closeTx (inv : w.Inv) : (w.setPath w.rail.path.closeTx).Inv where
  life := ⟨inv.life.ids, inv.life.owns, inv.life.holder, inv.life.closing, inv.life.retired⟩
  past := inv.past
  counted := inv.counted
  held := inv.held
  idle := inv.idle
  shut quarantined := ⟨rfl, (inv.shut quarantined).2⟩
  during z running := by
    have here := inv.during z running
    exact ⟨here.owner, fun _ => rfl, here.stopped, here.emptied, here.state, here.retired,
      here.released, here.leaving⟩

theorem cancelQueued (inv : w.Inv) :
    World.Inv { w with txControlQueue := [], txDataQueue := [] } := by
  refine inv.moves ⟨rfl, rfl, rfl, rfl, rfl⟩ (fun pkt among => .inl ?_) inv.counted
    (fun rid => ?_) (fun _ => .inr fun _ => rfl) (fun hand ring _ => ⟨hand, ring⟩)
  · simp only [mem_packets, World.queued, List.append_nil, List.not_mem_nil, false_or] at among ⊢
    exact .inr among
  · obtain ⟨-, hand, ring⟩ := packets_eq_nil.mp rid.1
    exact packets_eq_nil.mpr ⟨rfl, hand, ring⟩

theorem ringsStopped (inv : w.Inv) (ringsStopped : Bool) :
    (w.setPath { w.rail.path with ringsStopped }).Inv :=
  inv.alike ⟨rfl, fun _ => rfl, fun _ => rfl, fun _ path => path, fun _ => rfl, fun _ => rfl, rfl,
    rfl, rfl, rfl, rfl, rfl, rfl, rfl, rfl⟩

/-- The barrier leaves the queues alone, and when it returns 0 nothing is in flight. -/
theorem ringBarrier (inv : w.Inv) (restart : Bool) (c : Choice) :
    (w.ringBarrier restart c).1.Inv ∧ Moves w (w.ringBarrier restart c).1 ∧
      (w.ringBarrier restart c).1.queued = w.queued ∧
      ((w.ringBarrier restart c).2 = 0 →
        (w.ringBarrier restart c).1.hand = none ∧ (w.ringBarrier restart c).1.ring = []) := by
  have failed : ∀ {p : Prop}, eio = 0 → p := fun no => by cases no
  unfold World.ringBarrier
  split
  · refine ⟨inv, ⟨rfl, rfl, rfl, rfl, rfl⟩, rfl, fun clean => ?_⟩
    dsimp only at clean
    split at clean
    · rename_i inflight
      exact inv.nothing_inflight inflight
    · exact failed clean
  · dsimp only
    obtain ⟨stopped, keeps⟩ : ∃ stopped : World, (if w.rail.path.ringsStopped then w
        else (w.retire c.retired).setPath
          { (w.retire c.retired).rail.path with ringsStopped := true }) = stopped := ⟨_, rfl⟩
    rw [keeps]
    have after : stopped.Inv ∧ Moves w stopped ∧ stopped.queued = w.queued := by
      rw [← keeps]
      split
      · exact ⟨inv, ⟨rfl, rfl, rfl, rfl, rfl⟩, rfl⟩
      · exact ⟨(inv.retire c.retired).ringsStopped true, ⟨rfl, rfl, rfl, rfl, rfl⟩, rfl⟩
    obtain ⟨stoppedInv, moves, queued⟩ := after
    split
    · exact ⟨stoppedInv, moves, queued, failed⟩
    · rename_i inflight
      have inflight : stopped.rail.path.txInflight = 0 := by simpa using inflight
      have empty := stoppedInv.nothing_inflight inflight
      split
      · exact ⟨stoppedInv, moves, queued, fun _ => empty⟩
      · exact ⟨stoppedInv.ringsStopped false,
          ⟨moves.qpn, moves.bind, moves.closed, moves.senders, moves.quiesce⟩, queued,
          fun _ => empty⟩

@[simp] theorem finish_rail (w : World) (z : Quiesce) : (w.finish z).rail = w.rail := by
  unfold World.finish
  cases z.owner with
  | none => rfl
  | some q =>
      dsimp only
      split <;> rfl

/-- The quiesce returns to a destroy that finds its QP unbound and its worker stopped. -/
theorem finish (inv : World.Inv { w with quiesce := none })
    (left : ∀ q, z.owner = some q → (w.senders q).destroy = .running → z.ownerRef = true ∨
      w.rail.bind.qp ≠ some q ∧ (w.senders q).path = false) : (w.finish z).Inv := by
  unfold World.finish
  cases owner : z.owner with
  | none => exact inv
  | some q =>
      dsimp only
      split
      · exact inv
      · rename_i leaves
        simp only [Bool.or_eq_true, not_or, Bool.not_eq_true, bne_eq_false_iff_eq] at leaves
        obtain ⟨free, path⟩ := (left q owner leaves.2).resolve_left (by rw [leaves.1]; nofun)
        exact inv.leaves rfl free path

/-- Once the quiesce has settled: a rail that is free has nothing left on its path, and a rail
that is quarantined stays closed. -/
theorem settled {bind : Bind} (inv : w.Inv) (running : w.quiesce = some z)
    (last : z.phase = .settle) (same : w.SameButOwner w') (life : w'.Life)
    (qp : ∀ q, w.rail.bind.qp = some q → z.owner ≠ some q → w'.rail.bind.qp = some q)
    (its : bind.qp = w'.rail.bind.qp ∧ bind.epoch = w'.rail.bind.epoch)
    (state : bind.state = .unbound ∧ z.ret = 0 ∨ bind.state = .quarantined) :
    World.Inv { w' with rail := { w'.rail with bind }, quiesce := none } := by
  have here := inv.during z running
  have closed := here.closed (by rw [last]; nofun)
  have queued := same.queued.trans (here.emptied (by rw [last]; rfl))
  have holder : ∀ q, (w'.senders q).path = true →
      bind.qp = some q ∧ (w'.senders q).destroy = .running := fun q path => by
    rw [same.path] at path
    rcases inv.held q path with ⟨owner, bound | leaves⟩ | ⟨y, isRunning, -, producing⟩
    · have ending := inv.reopens (.inr bound) running
      rw [last] at ending
      cases ending
    · refine ⟨its.1.trans (qp q owner fun isOwner => ?_), (same.destroy q).trans leaves⟩
      rw [here.stopped (by rw [last]; rfl) (by rw [last]; nofun) q isOwner] at path
      cases path
    · rw [running] at isRunning
      cases isRunning
      rw [last] at producing
      cases producing
  exact {
    life := ⟨life.ids, fun q => (life.owns q).trans (by rw [its.1]),
      fun q bound => life.holder q (its.1.symm.trans bound), life.closing, fun q gone => by
        obtain ⟨free, path, -⟩ := life.retired q gone
        exact ⟨fun bound => free (its.1.symm.trans bound), path, nofun⟩⟩
    past := fun pkt among => by
      have among : pkt ∈ w'.packets := among
      rw [mem_packets, same.queued, same.hand, same.ring, ← mem_packets] at among
      exact (inv.past pkt among).trans_eq (its.2.trans same.epoch).symm
    counted := by
      change w'.rail.path.txInflight = w'.hand.toList.length + w'.ring.length
      rw [same.rail, same.hand, same.ring]
      exact inv.counted
    held := fun q path => .inl ⟨(holder q path).1, .inr (holder q path).2⟩
    idle := fun unbound => by
      by_cases someone : ∃ q, (w'.senders q).path = true
      · obtain ⟨q, path⟩ := someone
        exact .inr ⟨q, holder q path⟩
      · refine .inl ⟨?_, fun q => by simpa using not_exists.mp someone q⟩
        rcases state with ⟨-, clean⟩ | quarantined
        · obtain ⟨hand, ring⟩ := here.retired (.inr last) clean
          exact packets_eq_nil.mpr ⟨queued, same.hand.trans hand, same.ring.trans ring⟩
        · have unbound : bind.state = .unbound := unbound
          rw [unbound] at quarantined
          cases quarantined
    shut := fun _ => ⟨(congrArg Path.txClosed same.rail).trans closed, .inl queued⟩
    during := nofun }

/-- A quiesce that has left the rail free and its path empty opens the path again. -/
theorem opens (inv : World.Inv { w with quiesce := none })
    (unbound : w.rail.bind.state = .unbound) (closed : w.rail.path.txClosed = true)
    (queued : w.queued = [])
    (owner : ∀ q, z.owner = some q → w.qpn = some q ∧ (w.senders q).destroy ≠ .retired ∧
      w.rail.bind.qp ≠ some q ∧ (w.senders q).path = false) : (w.go z .reopen).Inv where
  life := ⟨inv.life.ids, inv.life.owns, inv.life.holder, inv.life.closing, fun q gone => by
    obtain ⟨free, path, -⟩ := inv.life.retired q gone
    refine ⟨free, path, fun y running isOwner => ?_⟩
    cases Option.some.inj running
    exact (owner q isOwner).2.1 gone⟩
  past := inv.past
  counted := inv.counted
  held q path := (inv.held q path).imp_right (by
    rintro ⟨y, running, -⟩
    cases running)
  idle := inv.idle
  shut _ := ⟨closed, .inl queued⟩
  during y running := by
    cases Option.some.inj running
    exact {
      owner := fun q isOwner => (owner q isOwner).1
      closed := fun _ => closed
      stopped := fun _ notLast => absurd rfl notLast
      emptied := fun _ => queued
      state := fun earlier => absurd rfl earlier
      retired := by rintro (no | no) <;> cases no
      released := fun _ => .inl unbound
      leaving := fun _ q isOwner _ => .inr (owner q isOwner).2.2 }

theorem settle (inv : w.Inv) (running : w.quiesce = some z) (last : z.phase = .settle) (now : Nat) :
    (w.settle z now).Inv := by
  obtain ⟨noted, isNoted⟩ : ∃ noted : World, { w with rail := { w.rail with
      bind := { w.rail.bind with lastTeardownError := z.ret } } } = noted := ⟨_, rfl⟩
  have notedInv : noted.Inv := by
    rw [← isNoted]
    exact inv.keeps ⟨rfl, rfl, rfl, rfl⟩
  have notedRunning : noted.quiesce = some z := by
    rw [← isNoted]
    exact running
  obtain ⟨life, released⟩ := notedInv.life.releaseOwner z
  have same := noted.releaseOwner_same z
  have during := notedInv.during z notedRunning
  have stopped : ∀ q, z.owner = some q → ((noted.releaseOwner z).senders q).path = false :=
    fun q owner => (same.path q).trans
      (during.stopped (by rw [last]; rfl) (by rw [last]; nofun) q owner)
  have settled (bind : Bind)
      (its : bind.qp = (noted.releaseOwner z).rail.bind.qp ∧
        bind.epoch = (noted.releaseOwner z).rail.bind.epoch)
      (state : bind.state = .unbound ∧ z.ret = 0 ∨ bind.state = .quarantined) :=
    notedInv.settled notedRunning last same life (fun _ => noted.releaseOwner_qp z) its state
  have left : ∀ q, z.owner = some q → _ → z.ownerRef = true ∨
      (noted.releaseOwner z).rail.bind.qp ≠ some q ∧
        ((noted.releaseOwner z).senders q).path = false :=
    fun q owner (_ : ((noted.releaseOwner z).senders q).destroy = .running) =>
      .inr ⟨released q owner, stopped q owner⟩
  unfold World.settle
  rw [isNoted]
  dsimp only
  by_cases clean : z.ret = 0 ∧ ¬ (z.barrier = true ∧ z.restart = true)
  · rw [if_pos clean]
    cases quarantined : z.wasQuarantined with
    | true =>
        have state := same.state.trans (during.state (by rw [last]; nofun))
        rw [quarantined, if_pos rfl] at state
        rw [if_pos rfl, if_neg (by rw [state]; nofun)]
        exact finish (settled _ ⟨rfl, rfl⟩ (.inr state)) left
    | false =>
        rw [if_neg Bool.false_ne_true]
        have free := settled { (noted.releaseOwner z).rail.bind with state := .unbound }
          ⟨rfl, rfl⟩ (.inl ⟨rfl, clean.1⟩)
        split
        · refine opens free rfl ?_ (same.queued.trans (during.emptied (by rw [last]; rfl)))
            fun q owner => ⟨same.qpn.trans (during.owner q owner), fun gone => ?_,
              released q owner, stopped q owner⟩
          · exact (congrArg Path.txClosed same.rail).trans (during.closed (by rw [last]; nofun))
          · exact (notedInv.life.retired q ((same.destroy q).symm.trans gone)).2.2 z
              notedRunning owner
        · exact finish free left
  · rw [if_neg clean, if_neg (by simp)]
    exact finish (settled { (noted.releaseOwner z).rail.bind with
      state := .quarantined
      quarantineRxMark := (noted.releaseOwner z).rail.path.dataRxCompleted
      quarantineSince := now } ⟨rfl, rfl⟩ (.inr rfl)) left

theorem reopen (inv : w.Inv) (running : w.quiesce = some z) (last : z.phase = .reopen) :
    ((w.setPath w.rail.path.openTx).finish z).Inv := by
  have here := inv.during z running
  refine finish {
    life := ⟨inv.life.ids, inv.life.owns, inv.life.holder, inv.life.closing, fun q gone => by
      obtain ⟨free, path, -⟩ := inv.life.retired q gone
      exact ⟨free, path, nofun⟩⟩
    past := inv.past
    counted := inv.counted
    held := fun q path => by
      rcases inv.held q path with bound | ⟨y, isRunning, -, producing⟩
      · exact .inl bound
      · rw [running] at isRunning
        cases isRunning
        rw [last] at producing
        cases producing
    idle := inv.idle
    shut := fun quarantined => by
      have quarantined : w.rail.bind.state = .quarantined := quarantined
      rcases here.released last with no | no <;> rw [no] at quarantined <;> cases quarantined
    during := nofun } (here.leaving last)

theorem quiesceNext {c : Choice} (inv : w.Inv) (running : w.quiesce = some z)
    (taken : w.quiesceNext z c = some w') : w'.Inv := by
  have here := inv.during z running
  unfold World.quiesceNext at taken
  cases phase : z.phase with
  | closeTx =>
      rw [phase] at taken
      cases Option.some.inj taken
      exact inv.closeTx.goes running ⟨rfl, rfl⟩ ⟨by rw [phase]; nofun, nofun⟩ rfl (.inl rfl)
        (.inl rfl) (by rintro (no | no) <;> cases no)
  | markError =>
      rw [phase] at taken
      cases Option.some.inj taken
      have closed := here.closed (by rw [phase]; nofun)
      have marked : (w.markError z).Inv ∧ (w.markError z).quiesce = w.quiesce ∧
          (w.markError z).rail = w.rail := by
        unfold World.markError
        cases z.owner with
        | none => exact ⟨inv, rfl, rfl⟩
        | some q =>
            dsimp only
            split
            · exact ⟨inv.setSender ⟨rfl, rfl, rfl⟩ fun path => path, rfl, rfl⟩
            · exact ⟨inv, rfl, rfl⟩
      exact marked.1.goes (marked.2.1.trans running) ⟨rfl, rfl⟩ ⟨by rw [phase]; nofun, nofun⟩
        (by rw [marked.2.2]; exact closed) (.inl rfl) (.inl rfl)
        (by rintro (no | no) <;> cases no)
  | stopProducers =>
      rw [phase] at taken
      dsimp only at taken
      split at taken
      · rename_i stopped
        cases Option.some.inj taken
        refine inv.goes running ⟨rfl, rfl⟩ ⟨by rw [phase]; nofun, nofun⟩
          (here.closed (by rw [phase]; nofun)) (.inr fun q owner => ?_) (.inl rfl)
          (by rintro (no | no) <;> cases no)
        simpa [World.producersStopped, owner] using stopped
      · cases taken
  | cancelQueued =>
      rw [phase] at taken
      cases Option.some.inj taken
      exact inv.cancelQueued.goes running ⟨rfl, rfl⟩ ⟨by rw [phase]; nofun, nofun⟩
        (here.closed (by rw [phase]; nofun))
        (.inr (here.stopped (by rw [phase]; rfl) (by rw [phase]; nofun))) (.inr rfl)
        (by rintro (no | no) <;> cases no)
  | drain =>
      have closed := here.closed (by rw [phase]; nofun)
      have stopped := here.stopped (by rw [phase]; rfl) (by rw [phase]; nofun)
      have emptied := here.emptied (by rw [phase]; rfl)
      rw [phase] at taken
      dsimp only at taken
      split at taken
      · rename_i retired
        cases Option.some.inj taken
        have inflight : w.rail.path.txInflight = 0 := by
          simp only [World.txRetired, Bool.and_eq_true, beq_iff_eq] at retired
          exact retired.1.1
        exact inv.goes running ⟨rfl, rfl⟩ ⟨by rw [phase]; nofun, nofun⟩ closed (.inr stopped)
          (.inr emptied) fun _ _ => inv.nothing_inflight inflight
      · cases Option.some.inj taken
        exact inv.goes running ⟨rfl, rfl⟩ ⟨by rw [phase]; nofun, nofun⟩ closed (.inr stopped)
          (.inr emptied) (by rintro (no | no) <;> cases no)
  | barrier =>
      have closed := here.closed (by rw [phase]; nofun)
      have stopped := here.stopped (by rw [phase]; rfl) (by rw [phase]; nofun)
      have emptied := here.emptied (by rw [phase]; rfl)
      rw [phase] at taken
      cases Option.some.inj taken
      obtain ⟨after, moves, queued, retired⟩ := inv.ringBarrier z.restart c
      refine after.goes (moves.quiesce.trans running) ⟨rfl, rfl⟩ ⟨by rw [phase]; nofun, nofun⟩
        (moves.closed.trans closed) (.inr ?_) (.inr (queued.trans emptied)) fun _ => retired
      rw [moves.senders]
      exact stopped
  | waitRefs =>
      have closed := here.closed (by rw [phase]; nofun)
      have stopped := here.stopped (by rw [phase]; rfl) (by rw [phase]; nofun)
      have emptied := here.emptied (by rw [phase]; rfl)
      rw [phase] at taken
      dsimp only at taken
      split at taken
      · cases Option.some.inj taken
        exact inv.goes running ⟨rfl, rfl⟩ ⟨by rw [phase]; nofun, nofun⟩ closed (.inr stopped)
          (.inr emptied) fun _ clean => by cases clean
      · cases Option.some.inj taken
        exact inv.goes running ⟨rfl, rfl⟩ ⟨by rw [phase]; nofun, nofun⟩ closed (.inr stopped)
          (.inr emptied) fun _ => here.retired (.inl phase)
  | settle =>
      rw [phase] at taken
      cases Option.some.inj taken
      exact inv.settle running phase c.now
  | reopen =>
      rw [phase] at taken
      cases Option.some.inj taken
      exact inv.reopen running phase

/-- Every step that meets the condition keeps the invariant. -/
theorem step {event : Event} (inv : w.Inv) (ok : w.Retires event)
    (stepped : w.step event = some w') : w'.Inv := by
  cases event with
  | createQp elsewhere now =>
      cases Option.some.inj stepped
      exact inv.createQp elsewhere now
  | bind q remoteKnown remoteQpn now =>
      rw [World.step] at stepped
      split at stepped
      · rename_i may
        cases Option.some.inj stepped
        exact inv.appleBind may ok
      · cases stepped
  | unbind q =>
      rw [World.step] at stepped
      split at stepped
      · cases stepped
      · rename_i stays
        cases Option.some.inj stepped
        exact inv.appleUnbind stays ok
  | transition q transports =>
      cases Option.some.inj stepped
      exact inv.setSender ⟨rfl, rfl, rfl⟩ fun path => path
  | close q => exact inv.close stepped
  | freeQpn q => exact inv.freeQpn stepped
  | remove =>
      cases Option.some.inj stepped
      exact inv.keeps ⟨rfl, rfl, rfl, rfl⟩
  | pathState state =>
      cases Option.some.inj stepped
      exact inv.alike ⟨rfl, fun _ => rfl, fun _ => rfl, fun _ path => path, fun _ => rfl,
        fun _ => rfl, rfl, rfl, rfl, rfl, rfl, rfl, rfl, rfl, rfl⟩
  | rxCompleted =>
      cases Option.some.inj stepped
      exact inv.alike ⟨rfl, fun _ => rfl, fun _ => rfl, fun _ path => path, fun _ => rfl,
        fun _ => rfl, rfl, rfl, rfl, rfl, rfl, rfl, rfl, rfl, rfl⟩
  | takePath q => exact inv.takePath stepped
  | enqueue q control => exact inv.enqueue stepped
  | putPath q =>
      cases Option.some.inj stepped
      exact inv.setSender ⟨rfl, rfl, rfl⟩ nofun
  | cancel i =>
      cases Option.some.inj stepped
      exact inv.cancel i
  | dequeue => exact inv.dequeue stepped
  | ringTx ret => exact inv.ringTx ok stepped
  | retire =>
      rw [World.step] at stepped
      split at stepped
      · cases stepped
      · cases Option.some.inj stepped
        exact inv.retire 1
  | quiesce tqp => exact inv.beginQuiesce stepped
  | next c =>
      obtain ⟨z, running, taken⟩ := Option.bind_eq_some_iff.mp stepped
      exact inv.quiesceNext running taken

/-- A bind that gives the rail a new epoch finds nothing of an older one on the path. -/
theorem appleBind_succeeds {q : Nat} {remoteKnown : Bool} {remoteQpn now : Nat} (inv : w.Inv)
    (may : w.modifiable q = true) (ok : w.Retires (.bind q remoteKnown remoteQpn now)) :
    w.Succeeds (w.appleBind q remoteKnown remoteQpn now) := by
  simp only [modifiable, Bool.and_eq_true, beq_iff_eq] at may
  obtain ⟨admitted, which, settles⟩ :=
    (w.senders q).tqp.appleBindRail_cases w.rail remoteKnown remoteQpn now
  have before := inv.admitted may.1 ok which
  have epoch : admitted.bind.epoch = w.rail.bind.epoch := by
    rcases which with rfl | ⟨rfl, -⟩ <;> rfl
  rcases settles with ⟨same, -⟩ | ⟨given, -, unbound, -⟩
  · exact .inl (same.epoch.trans epoch)
  · refine .inr ⟨?_, fun pkt among => ?_⟩
    · have next : (w.appleBind q remoteKnown remoteQpn now).rail.bind.epoch =
          admitted.bind.epoch + 1 := given.epoch
      omega
    · change pkt ∈ w.packets at among
      have empty : w.packets = [] := (before.rid given.unbound (before.unowned may.1 unbound)).1
      rw [empty] at among
      cases among

theorem quiesceNext_epoch {c : Choice} (inv : w.Inv)
    (taken : w.quiesceNext z c = some w') : w'.rail.bind.epoch = w.rail.bind.epoch := by
  unfold World.quiesceNext at taken
  cases phase : z.phase with
  | markError =>
      rw [phase] at taken
      cases Option.some.inj taken
      unfold World.markError
      cases z.owner with
      | none => rfl
      | some q =>
          dsimp only
          split <;> rfl
  | barrier =>
      rw [phase] at taken
      cases Option.some.inj taken
      exact congrArg Bind.epoch (inv.ringBarrier z.restart c).2.1.bind
  | settle =>
      rw [phase] at taken
      cases Option.some.inj taken
      have same := (World.releaseOwner_same { w with rail := { w.rail with
        bind := { w.rail.bind with lastTeardownError := z.ret } } } z).epoch
      unfold World.settle
      dsimp only
      split <;> split <;> (try split) <;> first | exact same | (rw [finish_rail]; exact same)
  | reopen =>
      rw [phase] at taken
      cases Option.some.inj taken
      rw [finish_rail]
      rfl
  | closeTx | cancelQueued =>
      rw [phase] at taken
      cases Option.some.inj taken
      rfl
  | stopProducers | drain | waitRefs =>
      rw [phase] at taken
      dsimp only at taken
      split at taken <;> cases taken <;> rfl

theorem step_succeeds {event : Event} (inv : w.Inv) (ok : w.Retires event)
    (stepped : w.step event = some w') : w.Succeeds w' := by
  cases event with
  | bind q remoteKnown remoteQpn now =>
      rw [World.step] at stepped
      split at stepped
      · rename_i may
        cases Option.some.inj stepped
        exact inv.appleBind_succeeds may ok
      · cases stepped
  | createQp elsewhere now =>
      cases Option.some.inj stepped
      refine .inl ?_
      unfold World.createQp
      dsimp only
      split <;> exact (w.rail.admit_keeps now).epoch
  | unbind q =>
      rw [World.step] at stepped
      split at stepped
      · cases stepped
      · cases Option.some.inj stepped
        refine .inl ?_
        unfold World.appleUnbind Qp.appleUnbindRail
        dsimp only
        split
        · rfl
        · dsimp only [World.setSender]
          split <;> rfl
  | close q | freeQpn q =>
      unfold World.step World.close World.freeQpn at stepped
      dsimp only at stepped
      split at stepped <;> cases stepped
      exact .inl rfl
  | transition q transports | remove | pathState state | rxCompleted | putPath q | cancel i =>
      cases Option.some.inj stepped
      exact .inl rfl
  | takePath q =>
      unfold World.step World.takePath at stepped
      dsimp only at stepped
      split at stepped <;> cases stepped
      exact .inl rfl
  | enqueue q control =>
      unfold World.step World.enqueue at stepped
      dsimp only at stepped
      split at stepped
      · cases stepped
      · split at stepped <;> cases stepped <;> exact .inl rfl
  | dequeue =>
      unfold World.step World.dequeue at stepped
      dsimp only at stepped
      split at stepped
      · cases stepped
      · split at stepped <;> cases stepped <;> exact .inl rfl
  | ringTx ret =>
      unfold World.step World.ringTx at stepped
      dsimp only at stepped
      split at stepped
      · cases stepped
      · split at stepped
        · split at stepped <;> cases stepped
          exact .inl rfl
        · split at stepped <;> cases stepped
          · refine .inl ?_
            unfold requeue
            split <;> rfl
          · exact .inl rfl
  | retire =>
      unfold World.step at stepped
      dsimp only at stepped
      split at stepped <;> cases stepped
      exact .inl rfl
  | quiesce tqp =>
      unfold World.step World.beginQuiesce at stepped
      dsimp only at stepped
      split at stepped
      · cases stepped
      · cases Option.some.inj stepped
        refine .inl ?_
        dsimp only
        split <;> rfl
  | next c =>
      obtain ⟨z, running, taken⟩ := Option.bind_eq_some_iff.mp stepped
      exact .inl (inv.quiesceNext_epoch taken)

end World.Inv
end

/-- In every run in which no quarantine is lifted under a quiesce, no binding ends with something
left on the path and no packet returns to a queue that has been emptied: TX is closed while the
rail is quarantined, and a new epoch is above all before it and finds nothing of them queued or
in flight. -/
theorem successor_waits_for_dma {start w : World} (fresh : start.Fresh)
    (ran : Reaches World.step World.Retires start w) :
    w.Sealed ∧ ∀ event w', w.Retires event → w.step event = some w' → w.Succeeds w' := by
  have inv : w.Inv := ran.invariant fresh.inv fun inv ok stepped => inv.step ok stepped
  exact ⟨fun quarantined => (inv.shut quarantined).1,
    fun event w' ok stepped => inv.step_succeeds ok stepped⟩

/-- A rail as `tbv_rail_init` leaves it. -/
def freshRail : World where
  senders q := { tqp := { id := q, qpNum := q } }

theorem freshRail_fresh : freshRail.Fresh :=
  ⟨rfl, fun _ => rfl, fun _ => rfl, fun _ => rfl, fun _ => rfl, rfl, rfl, rfl, rfl, rfl⟩

/-- A QP is bound and sends a frame that the peer does not take: a stall stops the ring and leaves
the rail quarantined.  The QP is destroyed, and a second one is created. -/
def retiredRun : List Event :=
  [.createQp false 0, .bind 0 true 0 0, .transition 0 true, .takePath 0, .enqueue 0 false,
    .dequeue, .ringTx 0, .quiesce none, .next {}, .next {}, .putPath 0, .next {}, .next {},
    .next {}, .next { retired := 1 }, .next {}, .next {}, .close 0, .quiesce (some 0), .next {},
    .next {}, .next {}, .next {}, .next {}, .next {}, .next {}, .unbind 0, .freeQpn 0,
    .createQp false 0]

theorem successor_waits_for_dma_retired : ∃ w w', Reaches World.step World.Retires freshRail w ∧
    w.step (.bind 1 true 0 0) = some w' ∧ w'.rail.bind.epoch = 2 ∧ w.Sealed ∧ w.Succeeds w' := by
  have found : (guarded World.step World.Retires retiredRun freshRail).any (fun w =>
      decide (w.Retires (.bind 1 true 0 0)) &&
        (w.step (.bind 1 true 0 0)).any fun w' => w'.rail.bind.epoch == 2) = true := by decide
  obtain ⟨w, ran, holds⟩ := exists_reaches_of_guarded found
  simp only [Bool.and_eq_true, decide_eq_true_eq] at holds
  obtain ⟨w', stepped, epoch⟩ := (Option.any_eq_true _ _).mp holds.2
  have safe := successor_waits_for_dma freshRail_fresh ran
  exact ⟨w, w', ran, stepped, eq_of_beq epoch, safe.1, safe.2 _ _ holds.1 stepped⟩

/-- The quiesce of the stall waits behind the one of the QP's own modify, finds the rail
quarantined and has closed TX when the QP is bound again and sends its next frame. -/
def stallRun : List Event :=
  [.createQp false 0, .bind 0 true 0 0, .transition 0 true, .takePath 0, .enqueue 0 false,
    .dequeue, .ringTx 0, .putPath 0, .transition 0 false, .quiesce (some 0), .next {}, .next {},
    .next {}, .next {}, .next {}, .next { retired := 1 }, .next {}, .next {}, .quiesce none,
    .next {}, .bind 0 true 0 0, .transition 0 true, .takePath 0, .enqueue 0 false, .dequeue,
    .ringTx 0, .putPath 0, .next {}, .next {}, .next {}, .next {}, .next { retired := 1 }, .next {}]

/-- It quarantines the rail of the new epoch, whose TX is open. -/
theorem stall_quiesce_leaves_tx_open : ¬ ∀ (events : List Event) (w w' : World) (event : Event),
    run World.step events freshRail = some w → w.step event = some w' →
      w'.Sealed ∧ w.Succeeds w' := by
  intro always
  have found : (run World.step stallRun freshRail).any (fun w => (w.step (.next {})).any fun w' =>
      w'.rail.bind.state == .quarantined && !w'.rail.path.txClosed) = true := by decide
  obtain ⟨w, ran, holds⟩ := (Option.any_eq_true _ _).mp found
  obtain ⟨w', stepped, after⟩ := (Option.any_eq_true _ _).mp holds
  simp only [Bool.and_eq_true, beq_iff_eq, Bool.not_eq_true'] at after
  have closed := (always stallRun w w' _ ran stepped).1 after.1
  rw [after.2] at closed
  cases closed

end Tbv.AppleRail
