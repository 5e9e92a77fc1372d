import ThunderboltIbverbs.Rail.Model

/-! # What a refused bind leaves behind

`tbv_rail_apple_admit_locked` lifts a quarantine and opens the path before
`tbv_qp_apple_bind_rail` has asked for the owner of the rail and the hop of the remote QPN. -/
set_option autoImplicit false
namespace Tbv.AppleRail

/-- The rail differs at most in the count of refusals and in the re-arm mark of its
quarantine. -/
def Rail.SameBinding (rail rail' : Rail) : Prop :=
  ∃ refusals mark since, rail' = { rail with bind := { rail.bind with
    bindRefused := refusals, quarantineRxMark := mark, quarantineSince := since } }

/-- A call that does not return 0 changes neither the binding, nor the path, nor the QP. -/
def Qp.RefusalChangesNothing (tqp : Qp) (rail : Rail) (remoteKnown : Bool)
    (remoteQpn now : Nat) : Prop :=
  (tqp.appleBindRail rail remoteKnown remoteQpn now).ret ≠ 0 →
    rail.SameBinding (tqp.appleBindRail rail remoteKnown remoteQpn now).rail ∧
      (tqp.appleBindRail rail remoteKnown remoteQpn now).tqp = tqp

/-- A new session finds a quarantine it may lift, with a remote QPN this rail cannot reach. -/
def Qp.LiftsForNothing (tqp : Qp) (rail : Rail) (remoteKnown : Bool) (remoteQpn : Nat) : Prop :=
  tqp.ownsAppleRail = true ∧ tqp.hasRail = true ∧ tqp.railBound = false ∧
    rail.removing = false ∧ rail.bind.state = .quarantined ∧ rail.liftable = true ∧
    remoteKnown = true ∧ rail.path.reaches remoteQpn = false

instance (tqp : Qp) (rail : Rail) (remoteKnown : Bool) (remoteQpn : Nat) :
    Decidable (tqp.LiftsForNothing rail remoteKnown remoteQpn) :=
  inferInstanceAs (Decidable (_ ∧ _))

section
variable {rail : Rail} {tqp : Qp} {remoteKnown : Bool} {remoteQpn now : Nat}

theorem Rail.SameBinding.refl (rail : Rail) : rail.SameBinding rail := ⟨_, _, _, rfl⟩

theorem Rail.SameBinding.refuse (rail : Rail) : rail.SameBinding rail.refuse := ⟨_, _, _, rfl⟩

theorem Rail.SameBinding.rearm (rail : Rail) (now : Nat) :
    rail.SameBinding (rail.refuse.rearm now) := ⟨_, _, _, rfl⟩

theorem Rail.SameBinding.state {rail' : Rail} (same : rail.SameBinding rail') :
    rail'.bind.state = rail.bind.state := by
  obtain ⟨_, _, _, rfl⟩ := same
  rfl

theorem Rail.admitLocked_cases (rail : Rail) (newSession : Bool) (now : Nat) :
    rail.SameBinding (rail.admitLocked newSession now).1 ∧
        ((rail.admitLocked newSession now).2 = 0 →
          (rail.admitLocked newSession now).1 = rail ∧ rail.removing = false ∧
            (rail.bind.state = .unbound ∨ rail.bind.state = .bound)) ∨
      rail.admitLocked newSession now = (rail.lift, 0) ∧ rail.removing = false ∧
        rail.bind.state = .quarantined ∧ newSession = true ∧ rail.liftable = true := by
  unfold admitLocked
  split
  · exact .inl ⟨.refl rail, fun none => absurd none enodev_ne_zero⟩
  · rename_i staying
    have staying : rail.removing = false := by simpa using staying
    cases state : rail.bind.state with
    | unbound => exact .inl ⟨.refl rail, fun _ => ⟨rfl, staying, .inl rfl⟩⟩
    | bound => exact .inl ⟨.refl rail, fun _ => ⟨rfl, staying, .inr rfl⟩⟩
    | quiescing => exact .inl ⟨.refuse rail, fun none => absurd none ebusy_ne_zero⟩
    | quarantined =>
        dsimp only
        split
        · exact .inl ⟨.refuse rail, fun none => absurd none ebusy_ne_zero⟩
        · rename_i session
          split
          · rename_i silent
            exact .inr ⟨rfl, staying, rfl, by simpa using session, silent⟩
          · exact .inl ⟨.rearm rail now, fun none => absurd none ebusy_ne_zero⟩

theorem Rail.checkRemoteQpnLocked_same (rail : Rail) (remoteQpn : Nat) :
    rail.SameBinding (rail.checkRemoteQpnLocked remoteQpn).1 := by
  unfold checkRemoteQpnLocked
  split
  · exact .refl rail
  · exact .refuse rail

theorem Rail.checkRemoteQpnLocked_ret (rail : Rail) (remoteQpn : Nat) :
    (rail.checkRemoteQpnLocked remoteQpn).2 = 0 ↔ rail.path.reaches remoteQpn = true := by
  unfold checkRemoteQpnLocked
  split
  · rename_i reaches
    exact iff_of_true rfl reaches
  · rename_i misses
    exact iff_of_false einval_ne_zero misses

theorem Qp.rebindRail_refused (refused : (tqp.rebindRail rail remoteKnown remoteQpn).ret ≠ 0) :
    rail.SameBinding (tqp.rebindRail rail remoteKnown remoteQpn).rail ∧
      (tqp.rebindRail rail remoteKnown remoteQpn).tqp = tqp := by
  unfold rebindRail at refused ⊢
  split
  · exact ⟨.refuse rail, rfl⟩
  · rename_i owned
    rw [if_neg owned] at refused
    split
    · exact ⟨.refuse rail, rfl⟩
    · rename_i same
      rw [if_neg same] at refused
      split
      · rename_i first
        rw [if_pos first] at refused
        dsimp only at refused ⊢
        split
        · exact ⟨rail.checkRemoteQpnLocked_same remoteQpn, rfl⟩
        · rename_i reaches
          rw [if_neg reaches] at refused
          exact absurd rfl refused
      · rename_i known
        rw [if_neg known] at refused
        exact absurd rfl refused

/-- Behind an admission that has lifted nothing, a refusal leaves the binding alone. -/
theorem Qp.bindNewRail_refused (same : rail.SameBinding (rail.admitLocked remoteKnown now).1)
    (kept : (rail.admitLocked remoteKnown now).2 = 0 →
      (rail.admitLocked remoteKnown now).1 = rail)
    (refused : (tqp.bindNewRail rail remoteKnown remoteQpn now).ret ≠ 0) :
    rail.SameBinding (tqp.bindNewRail rail remoteKnown remoteQpn now).rail ∧
      (tqp.bindNewRail rail remoteKnown remoteQpn now).tqp = tqp := by
  unfold bindNewRail at refused ⊢
  dsimp only at refused ⊢
  by_cases admits : (rail.admitLocked remoteKnown now).2 = 0
  · rw [if_neg (by simpa using admits), kept admits] at refused ⊢
    split
    · exact ⟨.refuse rail, rfl⟩
    · rename_i free
      rw [if_neg free] at refused
      cases remoteKnown with
      | false => exact absurd rfl refused
      | true =>
          rw [if_pos rfl] at refused ⊢
          split
          · exact ⟨rail.checkRemoteQpnLocked_same remoteQpn, rfl⟩
          · rename_i reaches
            rw [if_neg reaches] at refused
            exact absurd rfl refused
  · rw [if_pos admits]
    exact ⟨same, rfl⟩

/-- Behind an admission that has lifted the quarantine, the remote hop decides alone. -/
theorem Qp.bindNewRail_lifted (lifted : rail.admitLocked true now = (rail.lift, 0)) :
    (tqp.bindNewRail rail true remoteQpn now).ret ≠ 0 ↔ rail.path.reaches remoteQpn = false := by
  have hop : rail.lift.path.reaches remoteQpn = rail.path.reaches remoteQpn := rfl
  have free : rail.lift.bind.state ≠ .bound := nofun
  have ret := rail.lift.checkRemoteQpnLocked_ret remoteQpn
  rw [hop] at ret
  unfold bindNewRail
  rw [lifted]
  dsimp only
  rw [if_neg (by decide), if_neg free, if_pos rfl]
  split
  · rename_i misses
    exact iff_of_true misses (by simpa using mt ret.mpr misses)
  · rename_i reaches
    refine iff_of_false (fun failed => failed rfl) fun misses => ?_
    rw [ret.mp (by simpa using reaches)] at misses
    cases misses

theorem Qp.bindNewRail_lifted_state (lifted : rail.admitLocked true now = (rail.lift, 0)) :
    (tqp.bindNewRail rail true remoteQpn now).rail.bind.state ≠ .quarantined := by
  have free : rail.lift.bind.state ≠ .bound := nofun
  unfold bindNewRail
  rw [lifted]
  dsimp only
  rw [if_neg (by decide), if_neg free, if_pos rfl]
  split
  · rw [(rail.lift.checkRemoteQpnLocked_same remoteQpn).state]
    nofun
  · nofun

/-- The one refusal that leaves more than statistics behind. -/
theorem Qp.refusalChangesNothing_iff (now : Nat) :
    tqp.RefusalChangesNothing rail remoteKnown remoteQpn now ↔
      ¬ tqp.LiftsForNothing rail remoteKnown remoteQpn := by
  unfold Qp.RefusalChangesNothing Qp.appleBindRail
  by_cases owns : tqp.ownsAppleRail = true ∧ tqp.hasRail = true
  · rw [if_neg (by simp [owns.1, owns.2])]
    cases bound : tqp.railBound with
    | true =>
        rw [if_pos rfl]
        exact iff_of_true Qp.rebindRail_refused fun lifts => by
          rw [lifts.2.2.1] at bound
          cases bound
    | false =>
        rw [if_neg (by decide)]
        rcases rail.admitLocked_cases remoteKnown now with
          ⟨same, kept⟩ | ⟨lifted, staying, state, session, silent⟩
        · refine iff_of_true (Qp.bindNewRail_refused same fun admits => (kept admits).1) ?_
          rintro ⟨_, _, _, staying, state, silent, session, _⟩
          have lifts : (rail.admitLocked remoteKnown now).2 = 0 := by
            rw [Rail.admitLocked, staying, state, session, silent]
            rfl
          rw [state] at kept
          rcases (kept lifts).2.2 with no | no <;> cases no
        · subst session
          have refusal := @Qp.bindNewRail_lifted rail tqp remoteQpn now lifted
          constructor
          · rintro unchanged ⟨_, _, _, _, _, _, _, misses⟩
            have after := (unchanged (refusal.mpr misses)).1.state
            rw [state] at after
            exact Qp.bindNewRail_lifted_state lifted after
          · intro reaches refused
            exact absurd ⟨owns.1, owns.2, bound, staying, state, silent, rfl,
              refusal.mp refused⟩ reaches
  · refine iff_of_true (fun refused => ?_) fun lifts => owns ⟨lifts.1, lifts.2.1⟩
    have leaves : (!tqp.ownsAppleRail || !tqp.hasRail) = true := by
      by_contra stays
      simp at stays
      exact owns stays
    rw [if_pos leaves] at refused
    exact absurd rfl refused

end

/-- A refused bind changes nothing, unless a new session with an unreachable remote QPN has
lifted a quarantine before the refusal. -/
theorem refused_bind_changes_nothing_iff (tqp : Qp) (rail : Rail) (remoteKnown : Bool)
    (remoteQpn now : Nat) :
    tqp.RefusalChangesNothing rail remoteKnown remoteQpn now ↔
      ¬ tqp.LiftsForNothing rail remoteKnown remoteQpn :=
  Qp.refusalChangesNothing_iff now

def silentQuarantine : Rail where
  bind := { state := .quarantined, epoch := 3 }
  path := { txClosed := true, localTransmitPath := 8 }

/-- The peer has re-enumerated its tunnel: its QPN names hop 9.  The bind is refused, and the
rail is open again. -/
theorem refused_bind_lifts_quarantine :
    ¬ (Qp.RefusalChangesNothing { id := 0, qpNum := 5 } silentQuarantine true (9 * 256) 0) ∧
      (Qp.appleBindRail { id := 0, qpNum := 5 } silentQuarantine true (9 * 256) 0).ret = einval ∧
      (Qp.appleBindRail { id := 0, qpNum := 5 } silentQuarantine true
        (9 * 256) 0).rail.path.txClosed = false := by
  refine ⟨fun unchanged => ?_, by decide, by decide⟩
  have state := (unchanged (by decide)).1.state
  revert state
  decide

end Tbv.AppleRail
