import ThunderboltIbverbs.Config.Sealed
import ThunderboltIbverbs.Lib.Run

/-! # The published links

`configured_links` holds one entry for each active link.  A link enters at its activation,
unless another one has its id, and leaves at its release. -/
set_option autoImplicit false
namespace Tbv.Config

/-- What a link publishes while it is active. -/
def CfgfsLink.entry (link : CfgfsLink) : ConfiguredLink where
  linkId := link.cfg.linkId
  backend := link.cfg.backendType
  appSelection := link.cfg.appSelection
  name := link.name.take cfgLinkNameMax

def CfgfsLink.published (link : CfgfsLink) : Option ConfiguredLink :=
  if link.cfg.state = .active then some link.entry else none

def System.active (system : System) (item : Nat) : Option ConfiguredLink :=
  (system.links item).bind CfgfsLink.published

/-- The list holds the entry of each active link once, and nothing else. -/
structure TbvState.Lists (state : TbvState) (active : Nat → Option ConfiguredLink) : Prop where
  mem : ∀ entry, entry ∈ state.configuredLinks ↔ ∃ item, active item = some entry
  distinct : state.configuredLinks.Pairwise fun a b => a.linkId ≠ b.linkId
  owner : ∀ i j a b, active i = some a → active j = some b → a.linkId = b.linkId → i = j
  count : state.configuredLinkCount.toNat = state.configuredLinks.length

/-! ## The list -/

section
variable {state : TbvState} {active : Nat → Option ConfiguredLink} {item : Nat}
  {entry : ConfiguredLink}

theorem TbvState.linkFindLocked_none {linkId : UInt32}
    (absent : state.linkFindLocked linkId = none) :
    ∀ entry ∈ state.configuredLinks, entry.linkId ≠ linkId := by
  intro entry listed
  simpa using List.find?_eq_none.mp absent entry listed

theorem TbvState.Lists.activate (lists : state.Lists active) (idle : active item = none)
    (absent : state.linkFindLocked entry.linkId = none)
    (room : state.configuredLinks.length + 1 < 2 ^ 32) :
    TbvState.Lists
      { configuredLinks := state.configuredLinks ++ [entry]
        configuredLinkCount := state.configuredLinkCount + 1 }
      (Function.update active item (some entry)) where
  mem other := by
    rw [List.mem_append, List.mem_singleton, lists.mem]
    constructor
    · rintro (⟨i, is⟩ | rfl)
      · refine ⟨i, ?_⟩
        rw [Function.update_of_ne (by rintro rfl; rw [idle] at is; cases is)]
        exact is
      · exact ⟨item, Function.update_self ..⟩
    · rintro ⟨i, is⟩
      by_cases same : i = item
      · subst same
        rw [Function.update_self] at is
        exact .inr (Option.some.inj is).symm
      · rw [Function.update_of_ne same] at is
        exact .inl ⟨i, is⟩
  distinct := by
    refine List.pairwise_append.mpr ⟨lists.distinct, List.pairwise_singleton _ _, ?_⟩
    intro a listed b is
    rw [List.mem_singleton.mp is]
    exact linkFindLocked_none absent a listed
  owner i j a b ofI ofJ same := by
    have other : ∀ k c, k ≠ item → Function.update active item (some entry) k = some c →
        active k = some c ∧ c.linkId ≠ entry.linkId := by
      intro k c ne is
      rw [Function.update_of_ne ne] at is
      exact ⟨is, linkFindLocked_none absent c ((lists.mem c).mpr ⟨k, is⟩)⟩
    by_cases atI : i = item <;> by_cases atJ : j = item
    · rw [atI, atJ]
    · rw [atI, Function.update_self] at ofI
      rw [← Option.some.inj ofI] at same
      exact absurd same.symm (other j b atJ ofJ).2
    · rw [atJ, Function.update_self] at ofJ
      rw [← Option.some.inj ofJ] at same
      exact absurd same (other i a atI ofI).2
    · exact lists.owner i j a b (other i a atI ofI).1 (other j b atJ ofJ).1 same
  count := by
    have counted := lists.count
    rw [UInt32.toNat_add, List.length_append, counted]
    exact Nat.mod_eq_of_lt room

/-- Where ids are distinct, dropping the first entry of an id drops the entry. -/
theorem mem_eraseP_linkId {entries : List ConfiguredLink} (listed : entry ∈ entries)
    (distinct : entries.Pairwise fun a b => a.linkId ≠ b.linkId) (other : ConfiguredLink) :
    other ∈ entries.eraseP (·.linkId == entry.linkId) ↔ other ∈ entries ∧ other ≠ entry := by
  induction entries with
  | nil => cases listed
  | cons first rest ih =>
      obtain ⟨apart, distinct⟩ := List.pairwise_cons.mp distinct
      rcases List.mem_cons.mp listed with rfl | behind
      · rw [List.eraseP_cons_of_pos (by simp)]
        constructor
        · intro mem
          refine ⟨List.mem_cons_of_mem _ mem, ?_⟩
          rintro rfl
          exact apart other mem rfl
        · rintro ⟨mem, ne⟩
          exact (List.mem_cons.mp mem).resolve_left ne
      · have ne : first.linkId ≠ entry.linkId := apart entry behind
        rw [List.eraseP_cons_of_neg (by simpa using ne), List.mem_cons, ih behind distinct,
          List.mem_cons]
        constructor
        · rintro (rfl | ⟨mem, other⟩)
          · exact ⟨.inl rfl, fun is => ne (by rw [is])⟩
          · exact ⟨.inr mem, other⟩
        · rintro ⟨rfl | mem, other⟩
          · exact .inl rfl
          · exact .inr ⟨mem, other⟩

theorem TbvState.Lists.release (lists : state.Lists active) (is : active item = some entry) :
    (state.linkDeactivateConfig entry.linkId).Lists (Function.update active item none) := by
  have listed : entry ∈ state.configuredLinks := (lists.mem entry).mpr ⟨item, is⟩
  have erased := mem_eraseP_linkId listed lists.distinct
  have found : state.linkFindLocked entry.linkId ≠ none := fun absent =>
    linkFindLocked_none absent entry listed rfl
  have kept : ∀ k c, Function.update active item none k = some c → k ≠ item ∧ active k = some c := by
    intro k c of
    by_cases same : k = item
    · rw [same, Function.update_self] at of
      cases of
    · rw [Function.update_of_ne same] at of
      exact ⟨same, of⟩
  unfold linkDeactivateConfig
  cases find : state.linkFindLocked entry.linkId with
  | none => exact absurd find found
  | some _ =>
      refine ⟨fun other => ?_, lists.distinct.sublist List.eraseP_sublist, ?_, ?_⟩
      · rw [erased, lists.mem]
        constructor
        · rintro ⟨⟨i, of⟩, ne⟩
          refine ⟨i, ?_⟩
          rw [Function.update_of_ne]
          · exact of
          · rintro rfl
            exact ne (Option.some.inj (of.symm.trans is))
        · rintro ⟨i, of⟩
          obtain ⟨ne, of⟩ := kept i other of
          refine ⟨⟨i, of⟩, ?_⟩
          rintro rfl
          exact ne (lists.owner i item other other of is rfl)
      · intro i j a b ofI ofJ
        exact lists.owner i j a b (kept i a ofI).2 (kept j b ofJ).2
      · have length := List.length_eraseP_of_mem (p := (·.linkId == entry.linkId)) listed
          (by simp)
        have positive : 0 < state.configuredLinks.length := List.length_pos_of_mem listed
        have counted := lists.count
        rw [length, UInt32.toNat_sub_of_le, counted]
        · rfl
        · rw [UInt32.le_iff_toNat_le, counted]
          exact positive

end

/-! ## Activation -/

def CfgfsLink.Publishes (link : CfgfsLink) (state : TbvState) (buf : Text) (allocated : Bool) :
    Prop :=
  sysfsStreq (cString buf) "1".toList = true ∧ link.cfg.state = .sealed ∧ allocated = true ∧
    state.linkFindLocked link.cfg.linkId = none

instance (link : CfgfsLink) (state : TbvState) (buf : Text) (allocated : Bool) :
    Decidable (link.Publishes state buf allocated) := inferInstanceAs (Decidable (_ ∧ _))

section
variable {link : CfgfsLink} {state : TbvState} {buf : Text} {allocated : Bool}

theorem CfgfsLink.activateStore_unsealed (state : TbvState) (buf : Text) (allocated : Bool)
    (other : link.cfg.state ≠ .sealed) :
    (link.activateStore state buf allocated).2 = (link, state) := by
  unfold activateStore
  split
  · rfl
  · rfl

/-- The state of the link is taken back with the publication. -/
theorem CfgfsLink.activateStore_sealed (is : link.cfg.state = .sealed)
    (one : sysfsStreq (cString buf) "1".toList = true) :
    link.activateStore state buf allocated =
      let active := { link.cfg with state := .active }
      let published := state.linkActivateConfig link.name link.cfg.backendType active allocated
      if published.1 ≠ 0 then (published.1, link, published.2)
      else (buf.length, { link with cfg := active }, published.2) := by
  have backend : (transportGet link.cfg.backendType).activate link.cfg = 0 := by
    cases link.cfg.backendType <;> rfl
  have active : link.cfg.activate = (0, { link.cfg with state := .active }) := by
    simp [CfgLink.activate, is]
  have back : (CfgLink.deactivate { link.cfg with state := .active }).2 = link.cfg := by
    simp [CfgLink.deactivate, ← is]
  unfold activateStore
  rw [one, active]
  simp only [is, backend, back, Bool.not_true, Bool.false_eq_true, if_false, ne_eq,
    not_true_eq_false]

theorem CfgfsLink.activateStore_publishes (sound : link.Sound)
    (publishes : link.Publishes state buf allocated) :
    link.activateStore state buf allocated =
      ((buf.length : Int), { link with cfg := { link.cfg with state := .active } },
        { state with
          configuredLinks := state.configuredLinks ++ [link.entry]
          configuredLinkCount := state.configuredLinkCount + 1 }) := by
  obtain ⟨one, is, rfl, absent⟩ := publishes
  have valid := (sound.cfg.agreed (CfgLink.isMutable_of_sealed is)).1
  rw [activateStore_sealed is one]
  simp only [TbvState.linkActivateConfig, valid, absent]
  rfl

theorem CfgfsLink.activateStore_refused
    (refused : ¬ link.Publishes state buf allocated) :
    (link.activateStore state buf allocated).2 = (link, state) := by
  by_cases is : link.cfg.state = .sealed
  · by_cases one : sysfsStreq (cString buf) "1".toList = true
    · rw [activateStore_sealed is one]
      simp only [TbvState.linkActivateConfig]
      split
      · rfl
      · split
        · rfl
        · rename_i memory
          split
          · rfl
          · rename_i absent
            exact absurd ⟨one, is, by simpa using memory, by simpa using absent⟩ refused
    · unfold activateStore
      rw [if_pos (by simpa using one)]
  · exact activateStore_unsealed state buf allocated is

end

/-! ## The whole directory -/

/-- Each sealed or active link agrees with both applications, and the list is that of the
active links. -/
structure System.Consistent (system : System) : Prop where
  agreed : ∀ item link, system.links item = some link → link.cfg.isMutable = false →
    link.cfg.Agreed
  lists : system.state.Lists system.active

/-- The links are the same, as far as their settings and files show, and so is the list. -/
def System.SameView (system after : System) : Prop :=
  after.state = system.state ∧
    ∀ item, (after.links item).map (fun link => (link.cfg, link.shown)) =
      (system.links item).map fun link => (link.cfg, link.shown)

/-- What the operation keeps: the consistency, the settings of sealed links, and everything
when it fails. -/
structure System.Keeps (system : System) (op : Op) : Prop where
  consistent : (system.exec op).2.Consistent
  frozen : ∀ item link link', system.links item = some link → link.cfg.isMutable = false →
    (system.exec op).2.links item = some link' →
    { link'.cfg with state := link.cfg.state } = link.cfg
  refused : (system.exec op).1 < 0 → system.SameView (system.exec op).2

/-- An address is written to a sealed or active link that shows another one. -/
def System.Restages (system : System) : Op → Prop
  | .store item .localSrcIpv4 buf _ => ∃ link addr, system.links item = some link ∧
      link.cfg.isMutable = false ∧ parseIpv4 (cString buf) = .ok addr ∧
      formatIpv4 addr ≠ link.localSrcIpv4Show
  | .store item .peerIpv4 buf _ => ∃ link addr, system.links item = some link ∧
      link.cfg.isMutable = false ∧ parseIpv4 (cString buf) = .ok addr ∧
      formatIpv4 addr ≠ link.peerIpv4Show
  | _ => False

def System.FillsUp (system : System) : Op → Prop
  | .store item .activate buf allocated => ∃ link, system.links item = some link ∧
      link.Publishes system.state buf allocated ∧
      system.state.configuredLinks.length + 1 = 2 ^ 32
  | _ => False

structure System.Sound (system : System) : Prop where
  links : ∀ item link, system.links item = some link → link.Sound
  fresh : ∀ item, system.created ≤ item → system.links item = none
  lists : system.state.Lists system.active

section
variable {system : System} {item : Nat} {link link' : CfgfsLink}

theorem System.Sound.consistent (sound : system.Sound) : system.Consistent where
  agreed item link is settled := (sound.links item link is).cfg.agreed settled
  lists := sound.lists

theorem System.Sound.start : System.Sound {} where
  links _ _ is := by cases is
  fresh _ _ := rfl
  lists := {
    mem := fun entry => iff_of_false List.not_mem_nil fun ⟨_, is⟩ => by cases is
    distinct := .nil
    owner := fun _ _ _ _ is => by cases is
    count := rfl }

theorem System.SameView.refl (system : System) : system.SameView system := ⟨rfl, fun _ => rfl⟩

theorem CfgfsLink.Kept.published (kept : link.Kept link') : link'.published = link.published := by
  unfold CfgfsLink.published
  by_cases active : link.cfg.state = .active
  · have same := kept.frozen (CfgLink.isMutable_of_active active)
    rw [same, entry, entry, same, kept.name]
  · rw [if_neg active, if_neg fun is => active (kept.idle is)]

/-- What is published after a link was replaced. -/
theorem System.active_update (links : Nat → Option CfgfsLink) (item : Nat)
    (now : Option CfgfsLink) (created : Nat) (nextLinkId : UInt32) (state : TbvState) :
    System.active { links := Function.update links item now, created, nextLinkId, state } =
      Function.update (fun i => (links i).bind CfgfsLink.published) item
        (now.bind CfgfsLink.published) := by
  funext i
  show (Function.update links item now i).bind CfgfsLink.published = _
  by_cases same : i = item
  · subst same
    rw [Function.update_self, Function.update_self]
  · rw [Function.update_of_ne same, Function.update_of_ne same]

theorem System.Sound.below (sound : system.Sound) (is : system.links item = some link) :
    item < system.created := by
  by_contra beyond
  rw [sound.fresh item (Nat.le_of_not_lt beyond)] at is
  cases is

theorem System.Sound.replace (sound : system.Sound) {created : Nat} {nextLinkId : UInt32}
    (grown : system.created ≤ created) (below : item < created) {now : Option CfgfsLink}
    (replaced : ∀ link', now = some link' → link'.Sound) {state : TbvState}
    (lists : state.Lists (Function.update system.active item (now.bind CfgfsLink.published))) :
    System.Sound { links := Function.update system.links item now, created, nextLinkId, state } where
  links i other of := by
    dsimp only at of
    by_cases same : i = item
    · subst same
      rw [Function.update_self] at of
      exact replaced other of
    · rw [Function.update_of_ne same] at of
      exact sound.links i other of
  fresh i beyond := by
    dsimp only at beyond ⊢
    rw [Function.update_of_ne (by omega)]
    exact sound.fresh i (Nat.le_trans grown beyond)
  lists := by
    rw [active_update]
    exact lists

theorem System.active_same {now : Option CfgfsLink}
    (same : now.bind CfgfsLink.published = system.active item) :
    Function.update system.active item (now.bind CfgfsLink.published) = system.active := by
  rw [same, Function.update_eq_self]

theorem System.active_of (is : system.links item = some link) :
    system.active item = link.published := by
  rw [System.active, is, Option.bind_some]

/-! ## One operation -/

inductive System.Effect (system : System) (op : Op) : Int → System → Prop
  | none (ret : Int) (still : ¬ system.Restages op) (room : ¬ system.FillsUp op) :
      system.Effect op ret system
  | create (name : Text) (linkId : UInt32) (still : ¬ system.Restages op)
      (room : ¬ system.FillsUp op) :
      system.Effect op 0 { system with
        links := Function.update system.links system.created
          (some { name, cfg := CfgLink.init linkId })
        created := system.created + 1
        nextLinkId := linkId }
  | store {item : Nat} {link link' : CfgfsLink} (ret : Int) (is : system.links item = some link)
      (kept : link.Kept link') (view : (ret < 0 → link.SameView link') ↔ ¬ system.Restages op)
      (room : ¬ system.FillsUp op) :
      system.Effect op ret
        { system with links := Function.update system.links item (some link') }
  | publish {item : Nat} {link : CfgfsLink} (taken : Nat) (is : system.links item = some link)
      (isSealed : link.cfg.state = .sealed)
      (absent : system.state.linkFindLocked link.cfg.linkId = Option.none)
      (still : ¬ system.Restages op)
      (room : system.FillsUp op ↔ system.state.configuredLinks.length + 1 = 2 ^ 32) :
      system.Effect op taken { system with
        links := Function.update system.links item
          (some { link with cfg := { link.cfg with state := .active } })
        state := { system.state with
          configuredLinks := system.state.configuredLinks ++ [link.entry]
          configuredLinkCount := system.state.configuredLinkCount + 1 } }
  | release {item : Nat} {link : CfgfsLink} (is : system.links item = some link)
      (still : ¬ system.Restages op) (room : ¬ system.FillsUp op) :
      system.Effect op 0 { system with
        links := Function.update system.links item Option.none
        state := link.release system.state }

theorem System.makeLink_effect (system : System) (name : Text) (allocated : Bool) :
    system.Effect (.create name allocated) (system.makeLink name allocated).1
      (system.makeLink name allocated).2 := by
  unfold makeLink
  dsimp only
  split
  · exact .none _ id id
  · split
    · exact .none _ id id
    · exact .create name _ id id

theorem CfgfsLink.SetStore.view {out : Int × CfgfsLink} (sets : link.SetStore out) :
    out.1 < 0 → link.SameView out.2 := by
  intro refused
  rw [sets.refused refused]
  exact .refl link

theorem CfgfsLink.AddressStore.view {out : Int × CfgfsLink} {buf : Text}
    {shows : CfgfsLink → Text} (store : link.AddressStore out buf (shows link))
    (is : system.links item = some link) :
    (out.1 < 0 → link.SameView out.2) ↔ ¬ ∃ link addr, system.links item = some link ∧
      link.cfg.isMutable = false ∧ parseIpv4 (cString buf) = .ok addr ∧
      formatIpv4 addr ≠ shows link := by
  rw [store.refused]
  constructor
  · rintro same ⟨other, addr, isOther, settled, parsed, differs⟩
    rw [is] at isOther
    cases isOther
    exact differs (same addr settled parsed)
  · intro never addr settled parsed
    by_contra differs
    exact never ⟨link, addr, is, settled, parsed, differs⟩

theorem System.exec_store_missing (is : system.links item = none) (attr : Attribute)
    (buf : Text) (allocated : Bool) :
    system.exec (.store item attr buf allocated) = (enoent, system) := by
  simp only [exec, is]

theorem System.exec_release_missing (is : system.links item = none) :
    system.exec (.release item) = (enoent, system) := by
  simp only [exec, is]

theorem System.exec_store (is : system.links item = some link) (attr : Attribute) (buf : Text)
    (allocated : Bool) :
    system.exec (.store item attr buf allocated) =
      ((link.store system.state attr buf allocated).1,
        { system with
          links := Function.update system.links item
            (some (link.store system.state attr buf allocated).2.1)
          state := (link.store system.state attr buf allocated).2.2 }) := by
  simp only [exec, is]

theorem System.exec_release (is : system.links item = some link) :
    system.exec (.release item) = (0, { system with
      links := Function.update system.links item none
      state := link.release system.state }) := by
  simp only [exec, is]

theorem System.Sound.exec_effect (sound : system.Sound) (op : Op) :
    system.Effect op (system.exec op).1 (system.exec op).2 := by
  cases op with
  | create name allocated => exact system.makeLink_effect name allocated
  | release item =>
      cases is : system.links item with
      | none =>
          rw [exec_release_missing is]
          exact .none _ id id
      | some link =>
          rw [exec_release is]
          exact .release is id id
  | store item attr buf allocated =>
      cases is : system.links item with
      | none =>
          rw [exec_store_missing is]
          refine .none _ ?_ ?_
          · cases attr <;> first | exact id | (rintro ⟨link, _, of, _⟩; rw [is] at of; cases of)
          · cases attr <;> first | exact id | (rintro ⟨link, of, _⟩; rw [is] at of; cases of)
      | some link =>
          have linkSound := sound.links item link is
          have set : ∀ {out : Int × CfgfsLink}, link.SetStore out →
              ¬ system.Restages (.store item attr buf allocated) →
              ¬ system.FillsUp (.store item attr buf allocated) →
              system.Effect (.store item attr buf allocated) out.1
                { system with links := Function.update system.links item (some out.2) } :=
            fun sets still room => .store _ is sets.kept (iff_of_true sets.view still) room
          rw [exec_store is]
          cases attr with
          | backend => exact set (link.backendStore_sets linkSound buf) id id
          | ncclAddrRange => exact set (link.ncclAddrRangeStore_sets linkSound buf) id id
          | appGids => exact set (link.appGidsStore_sets linkSound buf) id id
          | «seal» => exact set (link.sealStore_sets linkSound buf) id id
          | localSrcIpv4 =>
              have store := link.localSrcIpv4Store_address linkSound buf
              exact .store _ is store.kept (store.view is) id
          | peerIpv4 =>
              have store := link.peerIpv4Store_address linkSound buf
              exact .store _ is store.kept (store.view is) id
          | activate =>
              dsimp only [CfgfsLink.store]
              by_cases publishes : link.Publishes system.state buf allocated
              · rw [CfgfsLink.activateStore_publishes linkSound publishes]
                refine .publish _ is publishes.2.1 publishes.2.2.2 id ⟨?_, ?_⟩
                · rintro ⟨_, _, _, full⟩
                  exact full
                · exact fun full => ⟨link, is, publishes, full⟩
              · have same : { system with
                    links := Function.update system.links item (some link) } = system := by
                  rw [← is, Function.update_eq_self]
                rw [CfgfsLink.activateStore_refused publishes, same]
                refine .none _ id ?_
                rintro ⟨other, of, does, _⟩
                rw [is] at of
                cases of
                exact publishes does

/-! ## What one operation keeps -/

variable {op : Op} {ret : Int} {after : System}

theorem System.Effect.sound (effect : system.Effect op ret after) (sound : system.Sound)
    (room : ¬ system.FillsUp op) : after.Sound := by
  cases effect with
  | none => exact sound
  | create name linkId =>
      have empty := sound.fresh system.created (Nat.le_refl _)
      refine sound.replace (Nat.le_succ _) (Nat.lt_succ_self _) (fun link of => ?_) ?_
      · cases of
        exact ⟨.init linkId, nofun⟩
      · rw [active_same (by rw [System.active, empty]; rfl)]
        exact sound.lists
  | store ret is kept =>
      refine sound.replace (Nat.le_refl _) (sound.below is) (fun link of => ?_) ?_
      · cases of
        exact kept.sound
      · rw [active_same (by rw [Option.bind_some, kept.published, active_of is])]
        exact sound.lists
  | @publish _ link taken is isSealed absent _ full =>
      have linkSound := sound.links _ link is
      have settled := CfgLink.isMutable_of_sealed isSealed
      refine sound.replace (Nat.le_refl _) (sound.below is) (fun other of => ?_) ?_
      · cases of
        exact ⟨⟨linkSound.cfg.version, nofun, fun _ => linkSound.cfg.backend settled,
          fun _ => linkSound.cfg.routed settled, fun _ => linkSound.cfg.validated settled⟩,
          linkSound.staged⟩
      · refine sound.lists.activate ?_ absent ?_
        · rw [active_of is, CfgfsLink.published, isSealed]
          rfl
        · have counted := sound.lists.count
          have below := system.state.configuredLinkCount.toNat_lt
          have short : system.state.configuredLinks.length + 1 ≠ 2 ^ 32 :=
            fun filled => room (full.mpr filled)
          omega
  | @release item link is =>
      refine sound.replace (Nat.le_refl _) (sound.below is) (fun _ of => by cases of) ?_
      unfold CfgfsLink.release
      split
      · rename_i active
        have published : system.active item = some link.entry := by
          rw [active_of is, CfgfsLink.published, if_pos active]
        exact sound.lists.release published
      · rename_i idle
        rw [active_same (by rw [active_of is, CfgfsLink.published, if_neg idle]; rfl)]
        exact sound.lists

theorem System.Effect.frozen (effect : system.Effect op ret after) (sound : system.Sound)
    (is : system.links item = some link) (settled : link.cfg.isMutable = false)
    (now : after.links item = some link') :
    { link'.cfg with state := link.cfg.state } = link.cfg := by
  -- the link was not touched, or it is the one operated on
  have untouched : after.links item = system.links item →
      { link'.cfg with state := link.cfg.state } = link.cfg := by
    intro same
    rw [same, is] at now
    cases now
    rfl
  have elsewhere : ∀ {i : Nat} {other : Option CfgfsLink}, i ≠ item →
      Function.update system.links i other item = system.links item :=
    fun ne => Function.update_of_ne ne.symm _ _
  cases effect with
  | none => exact untouched rfl
  | create name linkId =>
      refine untouched (elsewhere ?_)
      have below := sound.below is
      omega
  | @store i old new ret of kept =>
      by_cases same : i = item
      · subst same
        obtain rfl := Option.some.inj (of.symm.trans is)
        dsimp only at now
        rw [Function.update_self] at now
        obtain rfl := Option.some.inj now
        rw [kept.frozen settled]
      · exact untouched (elsewhere same)
  | @publish i old taken of isSealed =>
      by_cases same : i = item
      · subst same
        obtain rfl := Option.some.inj (of.symm.trans is)
        dsimp only at now
        rw [Function.update_self] at now
        obtain rfl := Option.some.inj now
        rfl
      · exact untouched (elsewhere same)
  | @release i old of =>
      by_cases same : i = item
      · subst same
        dsimp only at now
        rw [Function.update_self] at now
        cases now
      · exact untouched (elsewhere same)

theorem System.Effect.refused_iff (effect : system.Effect op ret after) :
    (ret < 0 → system.SameView after) ↔ ¬ system.Restages op := by
  cases effect with
  | none ret still => exact iff_of_true (fun _ => .refl system) still
  | create name linkId still => exact iff_of_true (fun refused => absurd refused (by decide)) still
  | publish taken is isSealed absent still =>
      exact iff_of_true (fun refused => absurd refused (by omega)) still
  | release is still => exact iff_of_true (fun refused => absurd refused (by decide)) still
  | @store i old new ret is kept view =>
      rw [← view]
      refine imp_congr_right fun refused => ⟨fun same => ?_, fun same => ⟨rfl, fun j => ?_⟩⟩
      · have here := same.2 i
        dsimp only at here
        rw [Function.update_self, is] at here
        obtain ⟨cfg, shown⟩ := Prod.mk.inj (Option.some.inj here)
        exact ⟨cfg, shown⟩
      · dsimp only
        by_cases here : j = i
        · subst here
          rw [Function.update_self, is, Option.map_some, Option.map_some, same.1, same.2]
        · rw [Function.update_of_ne here]

theorem System.Effect.overfull (effect : system.Effect op ret after) (full : system.FillsUp op) :
    ¬ after.Consistent := by
  intro consistent
  cases effect with
  | publish taken is isSealed absent still iff =>
      have counted := consistent.lists.count
      have below := (system.state.configuredLinkCount + 1).toNat_lt
      have length := iff.mp full
      dsimp only at counted
      rw [List.length_append, List.length_singleton] at counted
      omega
  | none _ _ room => exact room full
  | create _ _ _ room => exact room full
  | store _ _ _ _ room => exact room full
  | release _ _ room => exact room full

theorem System.Sound.keeps_iff (sound : system.Sound) (op : Op) :
    system.Keeps op ↔ ¬ system.Restages op ∧ ¬ system.FillsUp op := by
  have effect := sound.exec_effect op
  constructor
  · intro keeps
    exact ⟨effect.refused_iff.mp keeps.refused, fun full =>
      effect.overfull full keeps.consistent⟩
  · rintro ⟨still, room⟩
    exact ⟨(effect.sound sound room).consistent,
      fun _ _ _ is settled now => effect.frozen sound is settled now,
      effect.refused_iff.mpr still⟩

end

/-- The directory keeps its promises in a run exactly as long as no store writes another address
to a sealed or active link, and no activation is that of the 2^32nd link. -/
theorem configured_links_kept_iff (ops : List Op) :
    Trans.Meets System.step System.Keeps ops {} ↔
      Trans.Meets System.step
        (fun system op => ¬ system.Restages op ∧ ¬ system.FillsUp op) ops {} := by
  refine Trans.meets_iff_meets (fun sound => sound.keeps_iff _) ?_ ops System.Sound.start
  rintro system next op sound ⟨-, room⟩ taken
  obtain rfl := Option.some.inj taken
  exact (sound.exec_effect op).sound sound room

/-- A link that is sealed with the source address 10.0.0.1. -/
def sealOne : List Op :=
  [.create "usb4_rdma0".toList true, .store 0 .backend "native".toList true,
    .store 0 .localSrcIpv4 "10.0.0.1".toList true, .store 0 .peerIpv4 "10.0.0.9".toList true,
    .store 0 .appGids "1 1 3 roce-v2 10.0.0.1".toList true, .store 0 .seal "1".toList true]

/-- A store behind the seal fails, and the file shows its address all the same. -/
theorem refused_store_shows :
    ¬ Trans.Meets System.step System.Keeps
      (sealOne ++ [.store 0 .localSrcIpv4 "10.0.0.2\n".toList true]) {} := by
  intro meets
  have keeps := meets.last
    (show Trans.run System.step sealOne {} =
      some (sealOne.foldl (fun system op => (system.exec op).2) {}) from rfl)
  have same := (keeps.refused (by decide)).2 0
  revert same
  decide

end Tbv.Config
