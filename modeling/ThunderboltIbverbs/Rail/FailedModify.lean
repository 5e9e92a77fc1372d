import ThunderboltIbverbs.Rail.Modify
import ThunderboltIbverbs.Rail.RefusedBind

/-! # What a failed modify leaves behind

The undo list of `tbv_modify_qp` has one entry, the tunnel.  A call that fails behind the bind
keeps what the bind has done, and a bind that is refused may have lifted a quarantine. -/
set_option autoImplicit false
namespace Tbv.AppleRail

/-! ## What a granted bind does -/

def Qp.Takes (tqp : Qp) (rail : Rail) (remoteKnown : Bool) (remoteQpn : Nat) : Prop :=
  tqp.railBound = false ∧ rail.removing = false ∧
    (rail.bind.state = .unbound ∨
      rail.bind.state = .quarantined ∧ remoteKnown = true ∧ rail.liftable = true) ∧
    (remoteKnown = true → rail.path.reaches remoteQpn = true)

def Qp.Records (tqp : Qp) (rail : Rail) (remoteKnown : Bool) (remoteQpn : Nat) : Prop :=
  tqp.railBound = true ∧ rail.bind.state = .bound ∧ rail.bind.qp = some tqp.id ∧
    rail.bind.epoch = tqp.bindEpoch ∧ remoteKnown = true ∧
    rail.bind.remoteQpnKnown = false ∧ rail.path.reaches remoteQpn = true

def Qp.BindsAnew (tqp : Qp) (rail : Rail) (remoteKnown : Bool) (remoteQpn : Nat) : Prop :=
  tqp.ownsAppleRail = true ∧ tqp.hasRail = true ∧
    (tqp.Takes rail remoteKnown remoteQpn ∨ tqp.Records rail remoteKnown remoteQpn)

def Outcome.Keeps (out : Outcome) (tqp : Qp) (rail : Rail) : Prop :=
  rail.SameBinding out.rail ∧ out.tqp = tqp

section
variable {tqp : Qp} {rail : Rail} {remoteKnown : Bool} {remoteQpn now : Nat}

theorem Rail.SameBinding.remoteQpnKnown {rail' : Rail} (same : rail.SameBinding rail') :
    rail'.bind.remoteQpnKnown = rail.bind.remoteQpnKnown := by
  obtain ⟨_, _, _, rfl⟩ := same
  rfl

theorem Qp.rebindRail_granted (bound : tqp.railBound = true) :
    (tqp.rebindRail rail remoteKnown remoteQpn).ret = 0 ∧
        ¬ (tqp.rebindRail rail remoteKnown remoteQpn).Keeps tqp rail ↔
      tqp.Records rail remoteKnown remoteQpn := by
  unfold rebindRail
  split
  · rename_i foreign
    refine iff_of_false (fun granted => ebusy_ne_zero granted.1) ?_
    rintro ⟨-, state, owner, epoch, -⟩
    exact foreign.elim (· state) (·.elim (· owner) (· epoch))
  · rename_i owned
    simp only [not_or, not_not] at owned
    obtain ⟨state, owner, epoch⟩ := owned
    split
    · rename_i retargeted
      refine iff_of_false (fun granted => einval_ne_zero granted.1) ?_
      rintro ⟨-, -, -, -, -, unknown, -⟩
      rw [retargeted.2.1] at unknown
      cases unknown
    · split
      · rename_i first
        obtain ⟨known, unknown⟩ := first
        have reaches := rail.checkRemoteQpnLocked_ret remoteQpn
        dsimp only
        split
        · rename_i misses
          exact iff_of_false (fun granted => misses granted.1)
            fun records => misses (reaches.mpr records.2.2.2.2.2.2)
        · rename_i hop
          refine iff_of_true ⟨rfl, fun keeps => unknown ?_⟩
            ⟨bound, state, owner, epoch, known, by simpa using unknown,
              reaches.mp (by simpa using hop)⟩
          exact keeps.1.remoteQpnKnown.symm
      · rename_i known
        refine iff_of_false (fun granted => granted.2 ⟨.refl rail, rfl⟩) ?_
        rintro ⟨-, -, -, -, remote, unknown, -⟩
        exact known ⟨remote, by simp [unknown]⟩

theorem Rail.admitLocked_granted (rail : Rail) (newSession : Bool) (now : Nat) :
    (rail.admitLocked newSession now).2 = 0 ∧
        (rail.admitLocked newSession now).1.bind.state ≠ .bound ↔
      rail.removing = false ∧ (rail.bind.state = .unbound ∨
        rail.bind.state = .quarantined ∧ newSession = true ∧ rail.liftable = true) := by
  unfold admitLocked
  split
  · rename_i leaving
    exact iff_of_false (fun granted => enodev_ne_zero granted.1)
      fun takes => Bool.false_ne_true (takes.1.symm.trans leaving)
  · rename_i staying
    have staying : rail.removing = false := by simpa using staying
    cases state : rail.bind.state with
    | unbound => exact iff_of_true ⟨rfl, by simp [state]⟩ ⟨staying, .inl rfl⟩
    | bound => exact iff_of_false (fun granted => granted.2 state) fun takes => by simp at takes
    | quiescing =>
        exact iff_of_false (fun granted => ebusy_ne_zero granted.1) fun takes => by simp at takes
    | quarantined =>
        dsimp only
        split
        · rename_i old
          refine iff_of_false (fun granted => ebusy_ne_zero granted.1) fun takes => ?_
          rcases takes.2 with unbound | ⟨-, session, -⟩
          · cases unbound
          · simp [session] at old
        · rename_i session
          split
          · rename_i silent
            exact iff_of_true ⟨rfl, nofun⟩ ⟨staying, .inr ⟨rfl, by simpa using session, silent⟩⟩
          · rename_i heard
            refine iff_of_false (fun granted => ebusy_ne_zero granted.1) fun takes => ?_
            rcases takes.2 with unbound | ⟨-, -, silent⟩
            · cases unbound
            · exact heard silent

theorem Rail.admitLocked_reaches (rail : Rail) (newSession : Bool) (now : Nat) :
    (rail.admitLocked newSession now).1.path.reaches remoteQpn = rail.path.reaches remoteQpn := by
  rcases rail.admitLocked_cases newSession now with ⟨⟨_, _, _, same⟩, -⟩ | ⟨lifted, -⟩
  · rw [same]
  · rw [lifted]
    rfl

/-- Behind the admission, the owner and the remote hop decide. -/
theorem Qp.bindNewRail_granted (unbound : tqp.railBound = false) :
    (tqp.bindNewRail rail remoteKnown remoteQpn now).ret = 0 ∧
        ¬ (tqp.bindNewRail rail remoteKnown remoteQpn now).Keeps tqp rail ↔
      tqp.Takes rail remoteKnown remoteQpn := by
  have admission := rail.admitLocked_granted remoteKnown now
  have hop := (rail.admitLocked remoteKnown now).1.checkRemoteQpnLocked_ret remoteQpn
  rw [rail.admitLocked_reaches] at hop
  have taken : ∀ rail' : Rail,
      (tqp.takeRail rail' remoteKnown remoteQpn).ret = 0 ∧
        ¬ (tqp.takeRail rail' remoteKnown remoteQpn).Keeps tqp rail := by
    refine fun rail' => ⟨rfl, fun keeps => ?_⟩
    have bound := congrArg Qp.railBound keeps.2
    rw [unbound] at bound
    cases bound
  unfold bindNewRail
  dsimp only
  split
  · rename_i refused
    refine iff_of_false (fun granted => refused granted.1) fun takes => refused ?_
    exact (admission.mpr ⟨takes.2.1, takes.2.2.1⟩).1
  · split
    · rename_i foreign
      refine iff_of_false (fun granted => ebusy_ne_zero granted.1) fun takes => ?_
      exact (admission.mpr ⟨takes.2.1, takes.2.2.1⟩).2 foreign
    · rename_i admits free
      obtain ⟨staying, session⟩ := admission.mp ⟨by simpa using admits, free⟩
      cases remoteKnown with
      | false => exact iff_of_true (taken _) ⟨unbound, staying, session, nofun⟩
      | true =>
          rw [if_pos rfl]
          split
          · rename_i misses
            exact iff_of_false (fun granted => misses granted.1)
              fun takes => misses (hop.mpr (takes.2.2.2 rfl))
          · rename_i reaches
            exact iff_of_true (taken _)
              ⟨unbound, staying, session, fun _ => hop.mp (by simpa using reaches)⟩

/-- A bind that succeeds and leaves something behind has taken the rail, or told it the remote
QPN. -/
theorem Qp.appleBindRail_granted (now : Nat) :
    (tqp.appleBindRail rail remoteKnown remoteQpn now).ret = 0 ∧
        ¬ (tqp.appleBindRail rail remoteKnown remoteQpn now).Keeps tqp rail ↔
      tqp.BindsAnew rail remoteKnown remoteQpn := by
  unfold appleBindRail
  by_cases owns : tqp.ownsAppleRail = true ∧ tqp.hasRail = true
  · rw [if_neg (by simp [owns.1, owns.2])]
    cases bound : tqp.railBound with
    | true =>
        rw [if_pos rfl, rebindRail_granted bound]
        refine ⟨fun records => ⟨owns.1, owns.2, .inr records⟩, ?_⟩
        rintro ⟨-, -, ⟨unbound, -⟩ | records⟩
        · rw [bound] at unbound
          cases unbound
        · exact records
    | false =>
        rw [if_neg (by decide), bindNewRail_granted bound]
        refine ⟨fun takes => ⟨owns.1, owns.2, .inl takes⟩, ?_⟩
        rintro ⟨-, -, takes | ⟨already, -⟩⟩
        · exact takes
        · rw [bound] at already
          cases already
  · rw [if_pos (by
      by_contra stays
      simp at stays
      exact owns stays)]
    exact iff_of_false (fun granted => granted.2 ⟨.refl rail, rfl⟩)
      fun anew => owns ⟨anew.1, anew.2.1⟩

end

end Tbv.AppleRail

namespace Tbv.ModifyQp

open AppleRail

/-! ## The other thread -/

theorem VerbsQp.markError_iterate (tqp : VerbsQp) (count : Nat) :
    VerbsQp.markError^[count] tqp = if count = 0 then tqp else tqp.markError := by
  have once : tqp.markError.markError = tqp.markError := by
    unfold VerbsQp.markError
    by_cases live : tqp.closing = false ∧ tqp.state ≠ .err
    · rw [if_pos live, if_neg (by simp)]
    · rw [if_neg live, if_neg live]
  cases count with
  | zero => rfl
  | succ count =>
      rw [if_neg (Nat.succ_ne_zero count), Function.iterate_succ_apply]
      exact Function.iterate_fixed once count

/-- What the call does to the QP before its second section. -/
def VerbsQp.setUse (tqp : VerbsQp) (qp : Qp) (active : Bool) : VerbsQp :=
  { tqp with toQp := qp, appleTunnelActive := active }

theorem VerbsQp.markError_setUse (qp : Qp) (active : Bool) :
    Function.Commute VerbsQp.markError (VerbsQp.setUse · qp active) := by
  intro tqp
  unfold VerbsQp.markError VerbsQp.setUse
  split <;> rfl

theorem VerbsQp.markError_toQp (tqp : VerbsQp) (count : Nat) :
    (VerbsQp.markError^[count] tqp).toQp = tqp.toQp ∧
      (VerbsQp.markError^[count] tqp).appleTunnelActive = tqp.appleTunnelActive := by
  rw [tqp.markError_iterate]
  unfold VerbsQp.markError
  split
  · exact ⟨rfl, rfl⟩
  · split <;> exact ⟨rfl, rfl⟩

section
variable {site : Site}

theorem Site.markErrors_add (site : Site) (first second : Nat) :
    (site.markErrors first).markErrors second = site.markErrors (first + second) := by
  unfold markErrors
  rw [← Function.iterate_add_apply, Nat.add_comm second]

theorem Site.markErrors_toQp (site : Site) (count : Nat) :
    (site.markErrors count).tqp.toQp = site.tqp.toQp :=
  (site.tqp.markError_toQp count).1

theorem Site.markErrors_takeTunnel (site : Site) (count : Nat) :
    site.takeTunnel.markErrors count = (site.markErrors count).takeTunnel := by
  have marked : VerbsQp.markError^[count] (site.tqp.setUse site.tqp.toQp true) =
      (VerbsQp.markError^[count] site.tqp).setUse (VerbsQp.markError^[count] site.tqp).toQp true := by
    rw [(site.tqp.markError_toQp count).1]
    exact (VerbsQp.markError_setUse site.tqp.toQp true).iterate_left count site.tqp
  exact congrArg (fun tqp => { site.takeTunnel with tqp }) marked

theorem Site.markErrors_setBinding (site : Site) (out : Outcome) (count : Nat) :
    (site.setBinding out).markErrors count = (site.markErrors count).setBinding out := by
  have marked : VerbsQp.markError^[count] (site.tqp.setUse out.tqp site.tqp.appleTunnelActive) =
      (VerbsQp.markError^[count] site.tqp).setUse out.tqp
        (VerbsQp.markError^[count] site.tqp).appleTunnelActive := by
    rw [(site.tqp.markError_toQp count).2]
    exact (VerbsQp.markError_setUse out.tqp site.tqp.appleTunnelActive).iterate_left count site.tqp
  exact congrArg (fun tqp => { site.setBinding out with tqp }) marked

/-! ## The tunnel -/

def Site.TunnelReady (site : Site) : Prop :=
  site.tqp.hasRail = true ∧ site.railLive = true ∧ site.peerPresent = true ∧
    (site.tqp.appleTunnelActive = true ∨ site.rail.removing = false ∧ site.tunnelEnabled = true)

/-- The site with what `tbv_qp_ensure_apple_tunnel` has taken. -/
def Site.tunnelled (site : Site) (acquired : Bool) : Site :=
  if acquired then site.takeTunnel else site

/-- What the call has taken of the tunnel can be given back. -/
def Site.CanRelease (site : Site) (acquired : Bool) : Prop :=
  site.tqp.usesAppleTransport = true ∧ site.tqp.hasRail = true ∧ site.railLive = true ∧
    site.peerPresent = true ∧ (acquired = true → site.tqp.appleTunnelActive = false)

theorem Site.ensureAppleTunnel_cases (uses : site.tqp.usesAppleTransport = true) :
    (∃ ret, site.ensureAppleTunnel = (site, false, ret) ∧ ret ≠ 0 ∧ ¬ site.TunnelReady) ∨
      ∃ acquired, site.ensureAppleTunnel = (site.tunnelled acquired, acquired, 0) ∧
        site.TunnelReady ∧ site.CanRelease acquired := by
  unfold ensureAppleTunnel
  rw [if_neg (by simp [uses])]
  split
  · rename_i gone
    refine .inl ⟨enodev, rfl, enodev_ne_zero, fun ready => ?_⟩
    simp [ready.1, ready.2.1] at gone
  · rename_i lives
    have lives : site.tqp.hasRail = true ∧ site.railLive = true := by simpa using lives
    split
    · rename_i alone
      refine .inl ⟨enodev, rfl, enodev_ne_zero, fun ready => ?_⟩
      simp [ready.2.2.1] at alone
    · rename_i paired
      have paired : site.peerPresent = true := by simpa using paired
      split
      · rename_i active
        exact .inr ⟨false, rfl, ⟨lives.1, lives.2, paired, .inl active⟩,
          uses, lives.1, lives.2, paired, nofun⟩
      · rename_i idle
        have free : site.tqp.appleTunnelActive = false := by simpa using idle
        split
        · rename_i leaving
          refine .inl ⟨enodev, rfl, enodev_ne_zero, fun ready => ?_⟩
          rcases ready.2.2.2 with active | ⟨staying, -⟩
          · exact idle active
          · exact Bool.false_ne_true (staying.symm.trans leaving)
        · rename_i staying
          split
          · rename_i enabled
            exact .inr ⟨true, rfl, ⟨lives.1, lives.2, paired, .inr ⟨by simpa using staying, enabled⟩⟩,
              uses, lives.1, lives.2, paired, fun _ => free⟩
          · rename_i disabled
            refine .inl ⟨enotconn, rfl, by decide, fun ready => ?_⟩
            rcases ready.2.2.2 with active | ⟨-, enabled⟩
            · exact idle active
            · exact disabled enabled

theorem Site.markErrors_tunnelled (site : Site) (acquired : Bool) (count : Nat) :
    (site.tunnelled acquired).markErrors count = (site.markErrors count).tunnelled acquired := by
  cases acquired with
  | false => rfl
  | true => exact site.markErrors_takeTunnel count

theorem Site.CanRelease.marked {acquired : Bool} (can : site.CanRelease acquired) (count : Nat) :
    (site.markErrors count).CanRelease acquired := by
  unfold CanRelease
  rw [site.markErrors_toQp]
  exact ⟨can.1, can.2.1, can.2.2.1, can.2.2.2.1,
    fun taken => (site.tqp.markError_toQp count).2.trans (can.2.2.2.2 taken)⟩

/-- The undo list. -/
theorem Site.CanRelease.released {acquired : Bool} (can : site.CanRelease acquired) (out : Outcome)
    (uses : out.tqp.usesAppleTransport = true) (hasRail : out.tqp.hasRail = true) :
    (if acquired then ((site.tunnelled acquired).setBinding out).releaseAppleTunnel
      else (site.tunnelled acquired).setBinding out) = site.setBinding out := by
  obtain ⟨-, -, live, paired, free⟩ := can
  cases acquired with
  | false => rfl
  | true =>
      rw [if_pos rfl]
      unfold releaseAppleTunnel tunnelled
      simp only [if_pos]
      rw [if_neg (by simp [setBinding, uses]), if_neg (by simp [setBinding, takeTunnel, hasRail, live]),
        if_neg (by simp [setBinding, takeTunnel, paired]), if_pos (by rfl)]
      have idle := free rfl
      obtain ⟨⟨qp, state, attr, closing, sendPsn, psn, known, ackSet, early, active⟩, _⟩ := site
      cases idle
      rfl

/-! ## The second validation -/

def Call.RefusedInError (call : Call) (attr : QpAttr) : Prop :=
  call.mask .curState = true ∧ attr.curQpState ≠ .err ∨
    call.isOk .err (call.nextState attr .err) call.mask = false

theorem Call.validate_eq_zero (call : Call) (attr : QpAttr) (tqp : VerbsQp) :
    call.validate attr tqp = 0 ↔
      ¬ (call.mask .curState = true ∧ attr.curQpState ≠ tqp.state) ∧
        call.isOk tqp.state (call.nextState attr tqp.state) call.mask ≠ false ∧
        ¬ (call.mask .destQpn = true ∧ tqp.earlyCreditSrc.any (· ≠ attr.destQpNum) = true) := by
  unfold validate
  split
  · rename_i moved
    exact iff_of_false einval_ne_zero fun passes => passes.1 moved
  · rename_i here
    split
    · rename_i invalid
      exact iff_of_false einval_ne_zero fun passes => passes.2.1 invalid
    · rename_i valid
      split
      · rename_i early
        exact iff_of_false einval_ne_zero fun passes => passes.2.2 early
      · rename_i late
        exact iff_of_true rfl ⟨here, valid, late⟩

/-- What has passed once fails again exactly where a mark has been made and the transition is
not valid from the error state. -/
theorem Call.validate_marked {call : Call} {attr : QpAttr} {tqp : VerbsQp}
    (passes : call.validate attr tqp = 0) (count : Nat) :
    call.validate attr (VerbsQp.markError^[count] tqp) ≠ 0 ↔
      0 < count ∧ tqp.closing = false ∧ tqp.state ≠ .err ∧ call.RefusedInError attr := by
  rw [tqp.markError_iterate]
  split
  · rename_i none
    exact iff_of_false (· passes) fun marked => by simp [none] at marked
  · rename_i some
    unfold VerbsQp.markError
    split
    · rename_i live
      rw [Ne, call.validate_eq_zero]
      have early := ((call.validate_eq_zero attr tqp).mp passes).2.2
      constructor
      · intro fails
        refine ⟨Nat.pos_of_ne_zero some, live.1, live.2, ?_⟩
        by_contra valid
        rw [RefusedInError, not_or] at valid
        exact fails ⟨valid.1, valid.2, early⟩
      · rintro ⟨-, -, -, moved | invalid⟩ valid
        · exact valid.1 moved
        · exact valid.2.1 invalid
    · rename_i dead
      exact iff_of_false (· passes) fun marked => dead ⟨marked.2.1, marked.2.2.1⟩

/-! ## The parts of the call -/

/-- The QP and its rail are the same, up to the refusals counted and the re-arm mark. -/
def Site.SameButStatistics (site site' : Site) : Prop :=
  ∃ rail, site.rail.SameBinding rail ∧ site' = { site with rail }

theorem Site.sameButStatistics_refl (site : Site) : site.SameButStatistics site :=
  ⟨site.rail, .refl _, rfl⟩

theorem Site.sameButStatistics_setBinding (site : Site) (out : Outcome) :
    site.SameButStatistics (site.setBinding out) ↔ out.Keeps site.tqp.toQp site.rail := by
  constructor
  · rintro ⟨rail, same, kept⟩
    refine ⟨?_, congrArg (·.tqp.toQp) kept⟩
    rw [show out.rail = rail from congrArg Site.rail kept]
    exact same
  · rintro ⟨same, kept⟩
    refine ⟨out.rail, same, ?_⟩
    unfold setBinding
    rw [kept]

theorem Call.bindRail_tunnelled (call : Call) (attr : QpAttr) (acquired : Bool) (count : Nat) :
    call.bindRail attr ((site.tunnelled acquired).markErrors count) = call.bindRail attr site := by
  unfold bindRail
  rw [Site.markErrors_toQp]
  cases acquired <;> rfl

theorem Call.bindRail_role (call : Call) (attr : QpAttr) (site : Site) :
    (call.bindRail attr site).tqp.usesAppleTransport = site.tqp.usesAppleTransport ∧
      (call.bindRail attr site).tqp.hasRail = site.tqp.hasRail := by
  unfold bindRail Qp.appleBindRail Qp.rebindRail Qp.bindNewRail Qp.takeRail
  dsimp only
  repeat' split
  all_goals exact ⟨rfl, rfl⟩

/-- Between the two sections the call fails at the tunnel, fails at the bind, or holds both. -/
theorem Call.activate_cases (call : Call) (attr : QpAttr) (gaps : Gaps)
    (uses : site.tqp.usesAppleTransport = true) :
    ¬ site.TunnelReady ∧ (call.activate attr gaps site).ret ≠ 0 ∧
        (call.activate attr gaps site).site = site ∧ (call.activate attr gaps site).marks = 0 ∨
      site.TunnelReady ∧ (call.bindRail attr site).ret ≠ 0 ∧
        (call.activate attr gaps site).ret ≠ 0 ∧
        (call.activate attr gaps site).site =
          (site.markErrors (call.activate attr gaps site).marks).setBinding
            (call.bindRail attr site) ∨
      site.TunnelReady ∧ (call.bindRail attr site).ret = 0 ∧ ∃ acquired,
        site.CanRelease acquired ∧ call.activate attr gaps site =
          { site := ((site.markErrors (gaps.tunnelled + gaps.bound)).tunnelled acquired).setBinding
              (call.bindRail attr site)
            acquired, ret := 0, marks := gaps.tunnelled + gaps.bound } := by
  obtain ⟨usesOut, railOut⟩ := call.bindRail_role attr site
  unfold activate
  rcases site.ensureAppleTunnel_cases uses with
    ⟨ret, ensured, failed, unready⟩ | ⟨acquired, ensured, ready, can⟩
  · rw [ensured]
    dsimp only
    rw [if_pos failed]
    exact .inl ⟨unready, failed, rfl, rfl⟩
  · rw [ensured]
    dsimp only
    rw [if_neg (by simp), call.bindRail_tunnelled, Site.markErrors_setBinding, Site.markErrors_add,
      Site.markErrors_tunnelled]
    have can' := can.marked (gaps.tunnelled + gaps.bound)
    split
    · rename_i refused
      refine .inr (.inl ⟨ready, refused, refused, ?_⟩)
      exact can'.released _ (usesOut.trans can.1) (railOut.trans can.2.1)
    · rename_i granted
      exact .inr (.inr ⟨ready, by simpa using granted, acquired, can, rfl⟩)

theorem Call.settle_passed (call : Call) (attr : QpAttr) (gaps : Gaps)
    (deactivates acquired : Bool) (out : Outcome)
    (passes : call.validate attr site.tqp = 0) :
    (call.settle attr gaps deactivates acquired ((site.tunnelled acquired).setBinding out)).ret =
      0 := by
  have same : call.validate attr ((site.tunnelled acquired).setBinding out).tqp =
      call.validate attr site.tqp := by
    cases acquired <;> rfl
  unfold settle
  dsimp only
  rw [same, if_neg (by simpa using passes)]

/-- A second section that fails gives the tunnel back, and nothing else. -/
theorem Call.settle_failed (call : Call) (attr : QpAttr) (gaps : Gaps) (deactivates : Bool)
    {acquired : Bool} (can : site.CanRelease acquired) (out : Outcome)
    (uses : out.tqp.usesAppleTransport = true) (hasRail : out.tqp.hasRail = true)
    (fails : call.validate attr site.tqp ≠ 0) :
    call.settle attr gaps deactivates acquired ((site.tunnelled acquired).setBinding out) =
      { site := (site.markErrors gaps.settled).setBinding out
        ret := call.validate attr site.tqp, marks := gaps.settled } := by
  have same : call.validate attr ((site.tunnelled acquired).setBinding out).tqp =
      call.validate attr site.tqp := by
    cases acquired <;> rfl
  unfold settle
  dsimp only
  rw [same, if_pos fails, Site.markErrors_setBinding, Site.markErrors_tunnelled,
    (can.marked gaps.settled).released out uses hasRail]

end

/-! ## The call -/

/-- A call that fails has changed nothing: the site is the one the marks alone would have
left. -/
def Call.FailureChangesNothing (call : Call) (gaps : Gaps) (site : Site) : Prop :=
  (call.modifyQp gaps site).ret ≠ 0 →
    (site.markErrors (call.modifyQp gaps site).marks).SameButStatistics
      (call.modifyQp gaps site).site

/-- The first section lets the call through, into a state that uses the transport. -/
def Call.Activates (call : Call) (attr : QpAttr) (gaps : Gaps) (site : Site) : Prop :=
  call.attr = some attr ∧ ¬ call.tooManyReads attr ∧
    call.validate attr (site.markErrors gaps.entered).tqp = 0 ∧
    call.activates attr (site.markErrors gaps.entered).tqp = true

/-- The QP fails between the sections, and the transition is not valid from the error state. -/
def Call.CutOff (call : Call) (attr : QpAttr) (gaps : Gaps) (site : Site) : Prop :=
  0 < gaps.validated + gaps.tunnelled + gaps.bound ∧
    (site.markErrors gaps.entered).tqp.closing = false ∧
    (site.markErrors gaps.entered).tqp.state ≠ .err ∧ call.RefusedInError attr

/-- The bind of the call lifts a quarantine, and is refused. -/
def Call.LiftsForNothing (call : Call) (gaps : Gaps) (site : Site) : Prop :=
  ∃ attr, call.Activates attr gaps site ∧ site.TunnelReady ∧
    site.tqp.toQp.LiftsForNothing site.rail (call.mask .destQpn) attr.destQpNum

/-- The bind of the call changes the rail, and the second section refuses the call. -/
def Call.BindsForNothing (call : Call) (gaps : Gaps) (site : Site) : Prop :=
  ∃ attr, call.Activates attr gaps site ∧ site.TunnelReady ∧
    site.tqp.toQp.BindsAnew site.rail (call.mask .destQpn) attr.destQpNum ∧
    call.CutOff attr gaps site

section
variable {call : Call} {attr : QpAttr} {gaps : Gaps} {site : Site}

/-- Away from the transport the site is not touched before the second section. -/
theorem Call.modifyQp_plain (plain : ∀ attr, ¬ call.Activates attr gaps site) :
    call.FailureChangesNothing gaps site := by
  unfold FailureChangesNothing modifyQp
  cases given : call.attr with
  | none => exact fun _ => site.sameButStatistics_refl
  | some attr =>
      dsimp only
      split
      · exact fun _ => site.sameButStatistics_refl
      · rename_i few
        split
        · exact fun _ => Site.sameButStatistics_refl _
        · rename_i passes
          have idle : ¬ call.activates attr (site.markErrors gaps.entered).tqp = true :=
            fun activates => plain attr ⟨given, few, by simpa using passes, activates⟩
          rw [if_neg idle, if_neg (by simp)]
          unfold settle
          dsimp only
          split
          · rw [if_neg (by decide), Site.markErrors_add, Site.markErrors_add]
            dsimp only
            rw [Nat.add_zero, Nat.add_assoc]
            exact fun _ => Site.sameButStatistics_refl _
          · exact fun failed => absurd rfl failed

theorem Call.Activates.modifyQp (activates : call.Activates attr gaps site) :
    call.modifyQp gaps site =
      let marks := gaps.entered + gaps.validated
      let activated := call.activate attr gaps (site.markErrors marks)
      if activated.ret ≠ 0 then { activated with marks := marks + activated.marks }
      else
        let settled := call.settle attr gaps
          (call.deactivates attr (site.markErrors gaps.entered).tqp) activated.acquired
          activated.site
        { settled with marks := marks + activated.marks + settled.marks } := by
  obtain ⟨given, few, passes, transports⟩ := activates
  unfold Call.modifyQp
  rw [given]
  dsimp only
  rw [if_neg few, if_neg (by simpa using passes), if_pos transports, Site.markErrors_add]

/-- The call holds the tunnel and the rail when the second section decides. -/
theorem Call.Activates.granted (activates : call.Activates attr gaps site)
    (granted : (call.bindRail attr site).ret = 0) {acquired : Bool}
    (can : (site.markErrors (gaps.entered + gaps.validated)).CanRelease acquired)
    (activated : call.activate attr gaps (site.markErrors (gaps.entered + gaps.validated)) =
      { site := (((site.markErrors (gaps.entered + gaps.validated)).markErrors
          (gaps.tunnelled + gaps.bound)).tunnelled acquired).setBinding (call.bindRail attr site)
        acquired, ret := 0, marks := gaps.tunnelled + gaps.bound }) :
    call.FailureChangesNothing gaps site ↔
      ¬ (site.tqp.toQp.BindsAnew site.rail (call.mask .destQpn) attr.destQpNum ∧
        call.CutOff attr gaps site) := by
  have second : ∀ n, ((site.markErrors (gaps.entered + gaps.validated)).markErrors n).tqp =
      VerbsQp.markError^[gaps.validated + n] (site.markErrors gaps.entered).tqp := by
    intro n
    rw [Site.markErrors_add, Nat.add_assoc, ← Site.markErrors_add]
    rfl
  have cut := Call.validate_marked activates.2.2.1 (gaps.validated + (gaps.tunnelled + gaps.bound))
  rw [← second, ← Nat.add_assoc] at cut
  obtain ⟨usesOut, railOut⟩ := call.bindRail_role attr site
  unfold FailureChangesNothing
  rw [activates.modifyQp]
  dsimp only
  rw [activated]
  dsimp only
  rw [if_neg (by decide)]
  by_cases passes : call.validate attr ((site.markErrors (gaps.entered + gaps.validated)).markErrors
      (gaps.tunnelled + gaps.bound)).tqp = 0
  · refine iff_of_true (fun failed => absurd ?_ failed) fun doomed => cut.mpr doomed.2 passes
    exact Call.settle_passed _ _ _ _ _ _ passes
  · have can' := can.marked (gaps.tunnelled + gaps.bound)
    have uses := can.1
    have hasRail := can.2.1
    rw [Site.markErrors_toQp] at uses hasRail
    rw [Call.settle_failed call attr gaps _ can' _ (usesOut.trans uses) (railOut.trans hasRail) passes]
    simp only [Site.markErrors_add]
    have base := Site.sameButStatistics_setBinding (site.markErrors (gaps.entered + gaps.validated +
      (gaps.tunnelled + gaps.bound) + gaps.settled)) (call.bindRail attr site)
    rw [Site.markErrors_toQp] at base
    rw [base]
    have anew : _ ↔ site.tqp.toQp.BindsAnew site.rail (call.mask .destQpn) attr.destQpNum :=
      Qp.appleBindRail_granted call.now
    rw [Site.markErrors_add] at passes
    constructor
    · rintro unchanged ⟨changes, -⟩
      exact (anew.mpr changes).2 (unchanged passes)
    · intro held _
      by_contra leaves
      rw [← Site.markErrors_add] at passes
      exact held ⟨anew.mp ⟨granted, leaves⟩, cut.mp passes⟩

theorem Call.Activates.refused (activates : call.Activates attr gaps site)
    (refused : (call.bindRail attr site).ret ≠ 0)
    (failed : (call.activate attr gaps (site.markErrors (gaps.entered + gaps.validated))).ret ≠ 0)
    (activated : (call.activate attr gaps (site.markErrors (gaps.entered + gaps.validated))).site =
      ((site.markErrors (gaps.entered + gaps.validated)).markErrors (call.activate attr gaps
        (site.markErrors (gaps.entered + gaps.validated))).marks).setBinding
          (call.bindRail attr site)) :
    call.FailureChangesNothing gaps site ↔
      ¬ site.tqp.toQp.LiftsForNothing site.rail (call.mask .destQpn) attr.destQpNum := by
  rw [← Qp.refusalChangesNothing_iff call.now]
  unfold FailureChangesNothing
  rw [activates.modifyQp]
  dsimp only
  rw [if_pos failed]
  dsimp only
  rw [activated, Site.markErrors_add, Site.sameButStatistics_setBinding, Site.markErrors_toQp]
  exact ⟨fun unchanged _ => unchanged failed, fun unchanged _ => unchanged refused⟩

theorem Call.Activates.unready (activates : call.Activates attr gaps site)
    (failed : (call.activate attr gaps (site.markErrors (gaps.entered + gaps.validated))).ret ≠ 0)
    (same : (call.activate attr gaps (site.markErrors (gaps.entered + gaps.validated))).site =
      site.markErrors (gaps.entered + gaps.validated))
    (none : (call.activate attr gaps (site.markErrors (gaps.entered + gaps.validated))).marks =
      0) :
    call.FailureChangesNothing gaps site := by
  unfold FailureChangesNothing
  rw [activates.modifyQp]
  dsimp only
  rw [if_pos failed]
  dsimp only
  rw [same, none]
  exact fun _ => Site.sameButStatistics_refl _

theorem Site.tunnelReady_marked (site : Site) (count : Nat) :
    (site.markErrors count).TunnelReady ↔ site.TunnelReady := by
  unfold TunnelReady
  rw [Site.markErrors_toQp]
  change _ ∧ _ ∧ _ ∧ ((VerbsQp.markError^[count] site.tqp).appleTunnelActive = true ∨ _) ↔ _
  rw [(site.tqp.markError_toQp count).2]
  exact Iff.rfl

end

/-- A modify that fails changes nothing, unless its bind has lifted a quarantine and was refused,
or has changed the rail before the QP failed under the call. -/
theorem failed_modify_changes_nothing_iff (call : Call) (gaps : Gaps) (site : Site) :
    call.FailureChangesNothing gaps site ↔
      ¬ call.LiftsForNothing gaps site ∧ ¬ call.BindsForNothing gaps site := by
  by_cases activation : ∃ attr, call.Activates attr gaps site
  · obtain ⟨attr, activates⟩ := activation
    have only : ∀ {attr' : QpAttr}, call.Activates attr' gaps site → attr' = attr := fun other =>
      Option.some.inj (other.1.symm.trans activates.1)
    have uses : site.tqp.usesAppleTransport = true := by
      have transports := (Bool.and_eq_true_iff.mp activates.2.2.2).1
      rwa [Site.markErrors_toQp] at transports
    have sameBind : call.bindRail attr (site.markErrors (gaps.entered + gaps.validated)) =
        call.bindRail attr site :=
      call.bindRail_tunnelled attr false _
    have cases := @Call.activate_cases (site.markErrors (gaps.entered + gaps.validated)) call attr
      gaps (by rwa [Site.markErrors_toQp])
    rw [sameBind, Site.tunnelReady_marked] at cases
    have refusal : _ ↔ ¬ site.tqp.toQp.LiftsForNothing site.rail (call.mask .destQpn)
        attr.destQpNum := Qp.refusalChangesNothing_iff call.now
    rcases cases with ⟨unready, failed, same, none⟩ | ⟨ready, refused, failed, activated⟩ |
      ⟨ready, granted, acquired, can, activated⟩
    · refine iff_of_true (activates.unready failed same none) ⟨?_, ?_⟩
      · rintro ⟨_, -, ready, -⟩
        exact unready ready
      · rintro ⟨_, -, ready, -⟩
        exact unready ready
    · rw [activates.refused refused failed activated]
      constructor
      · intro keeps
        refine ⟨?_, ?_⟩
        · rintro ⟨attr', other, -, lifts⟩
          exact keeps (only other ▸ lifts)
        · rintro ⟨attr', other, -, anew, -⟩
          exact refused ((Qp.appleBindRail_granted call.now).mpr (only other ▸ anew)).1
      · exact fun held lifts => held.1 ⟨attr, activates, ready, lifts⟩
    · rw [activates.granted granted can activated]
      constructor
      · intro keeps
        refine ⟨?_, ?_⟩
        · rintro ⟨attr', other, -, lifts⟩
          exact refusal.mp (fun refused => absurd granted refused) (only other ▸ lifts)
        · rintro ⟨attr', other, -, anew, cut⟩
          exact keeps (only other ▸ ⟨anew, cut⟩)
      · exact fun held doomed => held.2 ⟨attr, activates, ready, doomed⟩
  · refine iff_of_true (Call.modifyQp_plain (not_exists.mp activation)) ⟨?_, ?_⟩
    · rintro ⟨attr, activates, -⟩
      exact activation ⟨attr, activates⟩
    · rintro ⟨attr, activates, -⟩
      exact activation ⟨attr, activates⟩

/-- The transition of a UC QP from INIT to RTR, with the attributes it must name. -/
def initToRtr : Call where
  attr := some { qpState := .rtr, destQpNum := 0x901, pathMtu := 4096 }
  mask := fun flag => flag ∈ [.state, .av, .pathMtu, .destQpn, .rqPsn]
  isOk := fun cur next mask =>
    cur = .init && next = .rtr && [.av, .pathMtu, .destQpn, .rqPsn].all mask

/-- A QP in INIT on a rail that nobody has bound. -/
def freshSite : Site where
  tqp := { id := 0, qpNum := 0x900, state := .init }

/-- The QP fails between the bind and the second section.  The call is refused, the tunnel is
given back, and the rail stays bound to the failed QP. -/
theorem failed_modify_keeps_the_rail :
    ¬ initToRtr.FailureChangesNothing { bound := 1 } freshSite ∧
      (initToRtr.modifyQp { bound := 1 } freshSite).ret = einval ∧
      (initToRtr.modifyQp { bound := 1 } freshSite).site.appleTunnelQps = 0 ∧
      (initToRtr.modifyQp { bound := 1 } freshSite).site.rail.bind.qp = some 0 ∧
      (initToRtr.modifyQp { bound := 1 } freshSite).site.tqp.state = .err := by
  refine ⟨fun unchanged => ?_, by decide, by decide, by decide, by decide⟩
  obtain ⟨rail, same, kept⟩ := unchanged (by decide)
  have state := same.state
  rw [← show _ = rail from congrArg Site.rail kept] at state
  revert state
  decide

end Tbv.ModifyQp
