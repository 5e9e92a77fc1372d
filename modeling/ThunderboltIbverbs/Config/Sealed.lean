import ThunderboltIbverbs.Config.Model

/-! # What a store leaves of a link

A sealed link holds the selection both applications make on its settings, and the settings do
not change behind it: the stores refuse.  Only the staged route is written before the
refusal. -/
set_option autoImplicit false
namespace Tbv.Config

/-- Both applications pick the stored selection, on the stored settings. -/
def CfgLink.Agreed (cfg : CfgLink) : Prop :=
  cfg.appSelection.valid = true ∧ selectLlama cfg.appGids cfg.route = .ok cfg.appSelection ∧
    ∃ nccl, selectNccl cfg.appGids cfg.policy = .ok nccl ∧ cfg.appSelection.SameGid nccl

structure CfgLink.Sound (cfg : CfgLink) : Prop where
  version : cfg.ncclPolicy.roceVersion = 2
  cleared : cfg.isMutable = true → cfg.appSelection = {}
  backend : cfg.isMutable = false → cfg.backend ≠ .none
  routed : cfg.isMutable = false → cfg.routeSet = true
  validated : cfg.isMutable = false →
    validateAppCompat cfg.appGids cfg.route cfg.policy = .ok cfg.appSelection

structure CfgfsLink.Sound (link : CfgfsLink) : Prop where
  cfg : link.cfg.Sound
  staged : link.cfg.routeSet = true → link.localSrcSet = true ∧ link.peerSet = true

/-- What an operation of `proto/config.c` may do to a link. -/
structure CfgLink.Edited (cfg : CfgLink) (out : Int × CfgLink) : Prop where
  sound : out.2.Sound
  linkId : out.2.linkId = cfg.linkId
  refused : out.1 ≠ 0 → out.2 = cfg
  frozen : cfg.isMutable = false → out.2 = cfg
  idle : out.2.state = .active → cfg.state = .active

/-- The settings and everything the files show are the same. -/
def CfgfsLink.SameView (link link' : CfgfsLink) : Prop :=
  link'.cfg = link.cfg ∧ link'.shown = link.shown

/-- What a store other than `activate` may do to a link. -/
structure CfgfsLink.Kept (link link' : CfgfsLink) : Prop where
  sound : link'.Sound
  name : link'.name = link.name
  linkId : link'.cfg.linkId = link.cfg.linkId
  frozen : link.cfg.isMutable = false → link'.cfg = link.cfg
  idle : link'.cfg.state = .active → link.cfg.state = .active

section
variable {cfg : CfgLink} {link : CfgfsLink} {buf : Text}

theorem ebusy_ne_zero : ebusy ≠ 0 := by decide

theorem einval_ne_zero : einval ≠ 0 := by decide

theorem stored_ne {ret : Int} (refused : stored ret buf < 0) : ret ≠ 0 := by
  rintro rfl
  have taken : stored 0 buf = buf.length := rfl
  omega

theorem stored_ebusy : stored ebusy buf < 0 := by
  rw [stored, if_pos ebusy_ne_zero]
  decide

theorem CfgLink.isMutable_of_active (active : cfg.state = .active) : cfg.isMutable = false := by
  simp [isMutable, active]

theorem CfgLink.isMutable_of_sealed (is : cfg.state = .sealed) : cfg.isMutable = false := by
  simp [isMutable, is]

theorem CfgLink.Sound.agreed (sound : cfg.Sound) (settled : cfg.isMutable = false) :
    cfg.Agreed := by
  obtain ⟨llama, valid, nccl⟩ := validateAppCompat_ok (sound.validated settled)
  exact ⟨valid, llama, nccl⟩

theorem CfgLink.Sound.init (linkId : UInt32) : (CfgLink.init linkId).Sound where
  version := rfl
  cleared _ := rfl
  backend := nofun
  routed := nofun
  validated := nofun

theorem CfgLink.Sound.policy_version (sound : cfg.Sound) : cfg.policy.roceVersion = 2 := by
  unfold policy
  split
  · rfl
  · exact sound.version

/-- NCCL takes only RoCE v2 here, so the transports find nothing wrong with a sealed link. -/
theorem CfgLink.Sound.validateConfig (sound : cfg.Sound) (settled : cfg.isMutable = false) :
    (transportGet cfg.backendType).validateConfig cfg = 0 := by
  obtain ⟨valid, -, nccl, selected, same⟩ := sound.agreed settled
  obtain ⟨gid, rfl, version⟩ := selectNccl_version selected
  rw [sound.policy_version] at version
  have v2 : cfg.appSelection.gidType = gidRoceV2 := by
    rw [same.2.2.2]
    show gid.gidType = gidRoceV2
    unfold Gid.roceVersion at version
    split at version
    · cases version
    · split at version
      · assumption
      · cases version
  have backend := sound.backend settled
  unfold backendType
  split
  · rename_i native
    simp [transportGet, nativeValidateConfig, native, valid, v2]
  · rename_i other
    have apple : cfg.backend = .apple := by
      cases is : cfg.backend with
      | none => exact absurd is backend
      | native => exact absurd is other
      | apple => rfl
    simp [transportGet, appleValidateConfig, apple, valid]

/-! ## The operations of a configuration -/

theorem CfgLink.Edited.same (sound : cfg.Sound) (ret : Int) : cfg.Edited (ret, cfg) where
  sound := sound
  linkId := rfl
  refused _ := rfl
  frozen _ := rfl
  idle := id

theorem CfgLink.Edited.draft {next : CfgLink} (sound : cfg.Sound) (isOpen : cfg.isMutable = true)
    (state : next.state = .draft) (linkId : next.linkId = cfg.linkId)
    (version : next.ncclPolicy.roceVersion = 2)
    (selection : next.appSelection = cfg.appSelection) : cfg.Edited (0, next) where
  sound :=
    have still : next.isMutable = true := by simp [isMutable, state]
    { version
      cleared := fun _ => selection.trans (sound.cleared isOpen)
      backend := fun settled => by simp [still] at settled
      routed := fun settled => by simp [still] at settled
      validated := fun settled => by simp [still] at settled }
  linkId := linkId
  refused ok := absurd rfl ok
  frozen settled := by simp [isOpen] at settled
  idle active := by simp [state] at active

theorem CfgLink.setBackend_edited (sound : cfg.Sound) (backend : CfgBackend) :
    cfg.Edited (cfg.setBackend backend) := by
  unfold setBackend
  split
  · exact .same sound ebusy
  · rename_i isOpen
    split
    · exact .same sound einval
    · exact .draft sound (by simpa using isOpen) rfl rfl sound.version rfl

theorem CfgLink.setRoute_edited (sound : cfg.Sound) (route : Route) :
    cfg.Edited (cfg.setRoute route) := by
  unfold setRoute
  split
  · exact .same sound ebusy
  · rename_i isOpen
    exact .draft sound (by simpa using isOpen) rfl rfl sound.version rfl

theorem CfgLink.setNcclPolicy_edited (sound : cfg.Sound) {policy : NcclPolicy}
    (version : policy.roceVersion = 2) : cfg.Edited (cfg.setNcclPolicy policy) := by
  unfold setNcclPolicy
  split
  · exact .same sound ebusy
  · rename_i isOpen
    exact .draft sound (by simpa using isOpen) rfl rfl version rfl

theorem CfgLink.setAppGids_edited (sound : cfg.Sound) (gids : List Gid) :
    cfg.Edited (cfg.setAppGids gids) := by
  unfold setAppGids
  split
  · exact .same sound ebusy
  · rename_i isOpen
    split
    · exact .same sound einval
    · exact .draft sound (by simpa using isOpen) rfl rfl sound.version rfl

theorem CfgLink.seal_edited (sound : cfg.Sound) : cfg.Edited cfg.seal := by
  unfold CfgLink.seal
  split
  · exact .same sound ebusy
  · rename_i isOpen
    have isOpen : cfg.isMutable = true := by simpa using isOpen
    split
    · exact .same sound einval
    · rename_i backend
      split
      · exact .same sound einval
      · rename_i ready
        have routed : cfg.routeSet = true := by simp at ready; exact ready.1
        split
        · -- what a failed validation clears is clear
          rename_i ret _
          have clear : { cfg with appSelection := {} } = cfg := by
            rw [← sound.cleared isOpen]
          rw [clear]
          exact .same sound ret
        · rename_i selection validated
          refine ⟨⟨sound.version, nofun, fun _ => backend, fun _ => routed, fun _ => validated⟩,
            rfl, fun ok => absurd rfl ok, fun settled => ?_, nofun⟩
          simp [isOpen] at settled

theorem CfgLink.seal_settled (ok : cfg.seal.1 = 0) : cfg.seal.2.isMutable = false := by
  unfold CfgLink.seal at ok ⊢
  split
  · rename_i settled
    simpa using settled
  · rename_i isOpen
    rw [if_neg isOpen] at ok
    split
    · rename_i none
      rw [if_pos none] at ok
      exact absurd ok einval_ne_zero
    · rename_i backend
      rw [if_neg backend] at ok
      split
      · rename_i missing
        rw [if_pos missing] at ok
        exact absurd ok einval_ne_zero
      · rename_i ready
        rw [if_neg ready] at ok
        split
        · rename_i ret refused
          rw [refused] at ok
          exact absurd ok (validateAppCompat_error refused)
        · rfl

/-- Only `tbv_cfg_link_set_route` marks the route set. -/
theorem CfgLink.routeSet_kept (cfg : CfgLink) (backend : CfgBackend) (policy : NcclPolicy)
    (gids : List Gid) :
    (cfg.setBackend backend).2.routeSet = cfg.routeSet ∧
      (cfg.setNcclPolicy policy).2.routeSet = cfg.routeSet ∧
      (cfg.setAppGids gids).2.routeSet = cfg.routeSet ∧ cfg.seal.2.routeSet = cfg.routeSet := by
  unfold setBackend setNcclPolicy setAppGids CfgLink.seal
  refine ⟨?_, ?_, ?_, ?_⟩ <;> repeat' split
  all_goals rfl

/-! ## The stores -/

theorem CfgfsLink.SameView.refl (link : CfgfsLink) : link.SameView link := ⟨rfl, rfl⟩

theorem CfgfsLink.Kept.refl (sound : link.Sound) : link.Kept link :=
  ⟨sound, rfl, rfl, fun _ => rfl, id⟩

theorem CfgfsLink.withCfg_kept {out : Int × CfgLink} (sound : link.Sound)
    (edited : link.cfg.Edited out) (routed : out.2.routeSet = link.cfg.routeSet) :
    link.Kept (link.withCfg out).2 where
  sound := ⟨edited.sound, fun set => sound.staged (routed ▸ set)⟩
  name := rfl
  linkId := edited.linkId
  frozen := edited.frozen
  idle := edited.idle

theorem CfgfsLink.withCfg_refused {out : Int × CfgLink} (edited : link.cfg.Edited out)
    (refused : (link.withCfg out).1 ≠ 0) : (link.withCfg out).2 = link := by
  unfold withCfg at refused ⊢
  rw [edited.refused refused]

structure CfgfsLink.SetStore (link : CfgfsLink) (out : Int × CfgfsLink) : Prop where
  kept : link.Kept out.2
  refused : out.1 < 0 → out.2 = link

theorem CfgfsLink.SetStore.same (sound : link.Sound) (ret : Int) : link.SetStore (ret, link) :=
  ⟨.refl sound, fun _ => rfl⟩

theorem CfgfsLink.SetStore.set {out : Int × CfgLink} (sound : link.Sound)
    (edited : link.cfg.Edited out) (routed : out.2.routeSet = link.cfg.routeSet) :
    link.SetStore (stored (link.withCfg out).1 buf, (link.withCfg out).2) :=
  ⟨withCfg_kept sound edited routed, fun refused => withCfg_refused edited (stored_ne refused)⟩

theorem CfgfsLink.backendStore_sets (sound : link.Sound) (buf : Text) :
    link.SetStore (link.backendStore buf) := by
  have set : ∀ backend, link.SetStore (stored (link.withCfg (link.cfg.setBackend backend)).1 buf,
      (link.withCfg (link.cfg.setBackend backend)).2) := fun backend =>
    .set sound (link.cfg.setBackend_edited sound.cfg backend)
      (link.cfg.routeSet_kept backend ncclPolicyDefault []).1
  unfold backendStore
  split
  · exact set .native
  · split
    · exact set .apple
    · exact .same sound einval

theorem CfgfsLink.ncclAddrRangeStore_sets (sound : link.Sound) (buf : Text) :
    link.SetStore (link.ncclAddrRangeStore buf) := by
  unfold ncclAddrRangeStore
  split
  · split
    · exact .same sound einval
    · split
      · exact .same sound _
      · exact .set sound (link.cfg.setNcclPolicy_edited sound.cfg rfl)
          (link.cfg.routeSet_kept .none _ []).2.1
  · exact .same sound einval

theorem CfgfsLink.appGidsStore_sets (sound : link.Sound) (buf : Text) :
    link.SetStore (link.appGidsStore buf) := by
  unfold appGidsStore
  split
  · split
    · exact .same sound einval
    · split
      · exact .same sound _
      · split
        · exact .same sound _
        · split
          · exact .same sound enospc
          · exact .set sound (link.cfg.setAppGids_edited sound.cfg _)
              (link.cfg.routeSet_kept .none ncclPolicyDefault _).2.2.1
  · exact .same sound einval

theorem CfgfsLink.sealStore_sets (sound : link.Sound) (buf : Text) :
    link.SetStore (link.sealStore buf) := by
  have edited := link.cfg.seal_edited sound.cfg
  have kept := withCfg_kept sound edited (link.cfg.routeSet_kept .none ncclPolicyDefault []).2.2.2
  unfold sealStore
  split
  · exact .same sound einval
  · dsimp only
    split
    · rename_i failed
      exact ⟨kept, fun _ => withCfg_refused edited failed⟩
    · rename_i ok
      have settled := CfgLink.seal_settled (not_not.mp ok)
      refine ⟨kept, fun refused => ?_⟩
      have fine := edited.sound.validateConfig settled
      exact absurd fine (stored_ne refused)

/-! ## The staged route -/

/-- The flags of the staged route only go up, and the configuration is left alone. -/
structure CfgfsLink.Stages (link staged : CfgfsLink) : Prop where
  cfg : staged.cfg = link.cfg
  name : staged.name = link.name
  localSrc : link.localSrcSet = true → staged.localSrcSet = true
  peer : link.peerSet = true → staged.peerSet = true

theorem CfgfsLink.Stages.kept {staged : CfgfsLink} (stages : link.Stages staged)
    (sound : link.Sound) : link.Kept staged.applyRouteLocked.2 := by
  have cfgSound : staged.cfg.Sound := stages.cfg ▸ sound.cfg
  have flags : staged.cfg.routeSet = true → staged.localSrcSet = true ∧ staged.peerSet = true := by
    rw [stages.cfg]
    exact fun set => ⟨stages.localSrc (sound.staged set).1, stages.peer (sound.staged set).2⟩
  unfold applyRouteLocked
  split
  · exact ⟨⟨cfgSound, flags⟩, stages.name, by rw [stages.cfg], fun _ => stages.cfg,
      by rw [stages.cfg]; exact id⟩
  · rename_i both
    have both : staged.localSrcSet = true ∧ staged.peerSet = true := by simpa using both
    have edited : link.cfg.Edited (staged.cfg.setRoute staged.stagedRoute) := by
      rw [← stages.cfg]
      exact staged.cfg.setRoute_edited cfgSound staged.stagedRoute
    exact ⟨⟨edited.sound, fun _ => both⟩, stages.name, edited.linkId, edited.frozen,
      edited.idle⟩

theorem CfgfsLink.Stages.open_ok {staged : CfgfsLink} (stages : link.Stages staged)
    (isOpen : link.cfg.isMutable = true) : staged.applyRouteLocked.1 = 0 := by
  unfold applyRouteLocked
  split
  · rfl
  · unfold withCfg CfgLink.setRoute
    rw [stages.cfg, isOpen]
    rfl

theorem CfgfsLink.Stages.settled_fails {staged : CfgfsLink} (stages : link.Stages staged)
    (sound : link.Sound) (settled : link.cfg.isMutable = false) :
    staged.applyRouteLocked = (ebusy, staged) := by
  obtain ⟨localSrc, peer⟩ := sound.staged (sound.cfg.routed settled)
  unfold applyRouteLocked
  rw [stages.localSrc localSrc, stages.peer peer]
  unfold withCfg CfgLink.setRoute
  rw [stages.cfg, settled, ← stages.cfg]
  rfl

/-- A store of one address fails to leave the view exactly when the link is sealed and the
address shows differently. -/
structure CfgfsLink.AddressStore (link : CfgfsLink) (out : Int × CfgfsLink) (buf : Text)
    (shows : Text) : Prop where
  kept : link.Kept out.2
  refused : (out.1 < 0 → link.SameView out.2) ↔ ∀ addr, link.cfg.isMutable = false →
    parseIpv4 (cString buf) = .ok addr → formatIpv4 addr = shows

theorem CfgfsLink.addressStore (stage : Addr → CfgfsLink) {shows : Text} {out : Int × CfgfsLink}
    (sound : link.Sound) (stages : ∀ addr, link.Stages (stage addr))
    (view : ∀ addr, (stage addr).shown = link.shown ↔ formatIpv4 addr = shows)
    (store : out = match parseIpv4 (cString buf) with
      | .error ret => (ret, link)
      | .ok addr => (stored (stage addr).applyRouteLocked.1 buf,
          (stage addr).applyRouteLocked.2)) :
    link.AddressStore out buf shows := by
  cases parsed : parseIpv4 (cString buf) with
  | error ret =>
      rw [parsed] at store
      subst store
      refine ⟨.refl sound, iff_of_true (fun _ => .refl link) fun addr _ ok => ?_⟩
      rw [parsed] at ok
      cases ok
  | ok addr =>
      rw [parsed] at store
      subst store
      refine ⟨(stages addr).kept sound, ?_⟩
      rw [parsed]
      dsimp only
      cases settled : link.cfg.isMutable with
      | true =>
          have ok := (stages addr).open_ok settled
          exact iff_of_true (fun refused => absurd ok (stored_ne refused)) nofun
      | false =>
          rw [(stages addr).settled_fails sound settled]
          constructor
          · rintro same _ - ⟨⟩
            exact (view addr).mp (same stored_ebusy).2
          · intro shown _
            exact ⟨(stages addr).cfg, (view addr).mpr (shown addr rfl rfl)⟩

theorem CfgfsLink.localSrcIpv4Store_address (sound : link.Sound) (buf : Text) :
    link.AddressStore (link.localSrcIpv4Store buf) buf link.localSrcIpv4Show := by
  refine addressStore (fun addr => { link with
    stagedRoute := { link.stagedRoute with localSrcAddr := addr }, localSrcSet := true }) sound
    (fun addr => ⟨rfl, rfl, fun _ => rfl, id⟩) (fun addr => ⟨fun same => ?_, fun shows => ?_⟩) ?_
  · exact (List.cons.inj (List.cons.inj same).2).1
  · show [link.backendShow, formatIpv4 addr, link.peerIpv4Show, link.ncclAddrRangeShow,
      link.appGidsShow, link.stateShow, link.selectionShow] = link.shown
    rw [shows]
    rfl
  · rfl

theorem CfgfsLink.peerIpv4Store_address (sound : link.Sound) (buf : Text) :
    link.AddressStore (link.peerIpv4Store buf) buf link.peerIpv4Show := by
  refine addressStore (fun addr => { link with
    stagedRoute := { link.stagedRoute with peerAddr := addr }, peerSet := true }) sound
    (fun addr => ⟨rfl, rfl, id, fun _ => rfl⟩) (fun addr => ⟨fun same => ?_, fun shows => ?_⟩) ?_
  · exact (List.cons.inj (List.cons.inj (List.cons.inj same).2).2).1
  · show [link.backendShow, link.localSrcIpv4Show, formatIpv4 addr, link.ncclAddrRangeShow,
      link.appGidsShow, link.stateShow, link.selectionShow] = link.shown
    rw [shows]
    rfl
  · rfl

end

end Tbv.Config
