import Mathlib.Logic.Function.Basic
import ThunderboltIbverbs.Config.Text

/-! # Configured links

`proto/config.c`, `kernel/configfs.c` and `kernel/link.c`.  A link collects its settings, is
sealed with the GID both applications would pick, and is published while it is active. -/
set_option autoImplicit false
namespace Tbv.Config

def enoent : Int := -2
def enomem : Int := -12
def ebusy : Int := -16
def enospc : Int := -28
def enametoolong : Int := -36

def cfgMaxAppGids : Nat := 8
def cfgLinkNamePrefix : Text := "usb4_rdma".toList
def cfgLinkNameMax : Nat := 15

inductive CfgBackend where
  | none | native | apple
  deriving DecidableEq, Repr

inductive CfgState where
  | empty | draft | sealed | active
  deriving DecidableEq, Repr

/-- `struct tbv_cfg_link`; the GIDs past `app_gid_count` are never read. -/
structure CfgLink where
  linkId : UInt32
  state : CfgState := .empty
  backend : CfgBackend := .none
  routeSet : Bool := false
  ncclPolicySet : Bool := false
  route : Route := {}
  ncclPolicy : NcclPolicy := ncclPolicyDefault
  appGids : List Gid := []
  appSelection : Selection := {}
  deriving DecidableEq, Repr

/-! ## `proto/config.c` -/

/-- `tbv_cfg_link_mutable`. -/
def CfgLink.isMutable (link : CfgLink) : Bool := link.state == .empty || link.state == .draft

def nameCharAllowed (c : Char) : Bool :=
  ('a' ≤ c && c ≤ 'z') || ('A' ≤ c && c ≤ 'Z') || ('0' ≤ c && c ≤ '9') || c == '_' || c == '-'

/-- The loop of `tbv_cfg_link_validate_name` over the characters behind the prefix. -/
def validateNameTail : Nat → Text → Int
  | _, [] => 0
  | i, c :: rest =>
      if cfgLinkNameMax ≤ i then enametoolong
      else if !nameCharAllowed c then einval
      else validateNameTail (i + 1) rest

def validateName (name : Text) : Int :=
  if !cfgLinkNamePrefix.isPrefixOf name then einval
  else
    let behind := name.drop cfgLinkNamePrefix.length
    if behind.isEmpty then einval else validateNameTail cfgLinkNamePrefix.length behind

def CfgLink.init (linkId : UInt32) : CfgLink := { linkId }

def CfgLink.setBackend (link : CfgLink) (backend : CfgBackend) : Int × CfgLink :=
  if !link.isMutable then (ebusy, link)
  else if backend = .none then (einval, link)
  else (0, { link with backend, state := .draft })

def CfgLink.setRoute (link : CfgLink) (route : Route) : Int × CfgLink :=
  if !link.isMutable then (ebusy, link)
  else (0, { link with route, routeSet := true, state := .draft })

def CfgLink.setNcclPolicy (link : CfgLink) (policy : NcclPolicy) : Int × CfgLink :=
  if !link.isMutable then (ebusy, link)
  else (0, { link with ncclPolicy := policy, ncclPolicySet := true, state := .draft })

def CfgLink.setAppGids (link : CfgLink) (gids : List Gid) : Int × CfgLink :=
  if !link.isMutable then (ebusy, link)
  else if gids = [] ∨ cfgMaxAppGids < gids.length then (einval, link)
  else (0, { link with appGids := gids, state := .draft })

/-- The policy NCCL has on the link: what was set, or the default. -/
def CfgLink.policy (link : CfgLink) : NcclPolicy :=
  if !link.ncclPolicySet then ncclPolicyDefault else link.ncclPolicy

def CfgLink.seal (link : CfgLink) : Int × CfgLink :=
  if !link.isMutable then (ebusy, link)
  else if link.backend = .none then (einval, link)
  else if !link.routeSet || link.appGids.isEmpty then (einval, link)
  else
    match validateAppCompat link.appGids link.route link.policy with
    | .error ret => (ret, { link with appSelection := {} })
    | .ok selection => (0, { link with appSelection := selection, state := .sealed })

def CfgLink.activate (link : CfgLink) : Int × CfgLink :=
  if link.state ≠ .sealed then (einval, link) else (0, { link with state := .active })

def CfgLink.deactivate (link : CfgLink) : Int × CfgLink :=
  if link.state ≠ .active then (einval, link) else (0, { link with state := .sealed })

/-! ## The transports -/

inductive BackendType where
  | native | apple
  deriving DecidableEq, Repr

/-- `struct tbv_transport_ops`, without `deactivate`, which only prints. -/
structure TransportOps where
  validateConfig : CfgLink → Int
  activate : CfgLink → Int

def nativeValidateConfig (link : CfgLink) : Int :=
  if link.backend ≠ .native then einval
  else if !link.appSelection.valid then einval
  else if link.appSelection.gidType ≠ gidRoceV2 then einval
  else 0

def appleValidateConfig (link : CfgLink) : Int :=
  if link.backend ≠ .apple then einval
  else if !link.appSelection.valid then einval
  else 0

/-- `tbv_transport_get`; both transports activate by printing a line. -/
def transportGet : BackendType → TransportOps
  | .native => { validateConfig := nativeValidateConfig, activate := fun _ => 0 }
  | .apple => { validateConfig := appleValidateConfig, activate := fun _ => 0 }

def CfgLink.backendType (link : CfgLink) : BackendType :=
  if link.backend = .native then .native else .apple

/-! ## `kernel/link.c` -/

structure ConfiguredLink where
  linkId : UInt32
  backend : BackendType
  appSelection : Selection
  name : Text
  deriving DecidableEq, Repr

/-- The links of `struct tbv_state`. -/
structure TbvState where
  configuredLinks : List ConfiguredLink := []
  configuredLinkCount : UInt32 := 0
  deriving DecidableEq, Repr

def TbvState.linkFindLocked (state : TbvState) (linkId : UInt32) : Option ConfiguredLink :=
  state.configuredLinks.find? (·.linkId == linkId)

/-- `tbv_link_activate_config`; `allocated` is whether `kzalloc` gives memory. -/
def TbvState.linkActivateConfig (state : TbvState) (name : Text) (backend : BackendType)
    (cfg : CfgLink) (allocated : Bool) : Int × TbvState :=
  if !cfg.appSelection.valid then (einval, state)
  else if !allocated then (enomem, state)
  else if (state.linkFindLocked cfg.linkId).isSome then (eexist, state)
  else
    (0, {
      configuredLinks := state.configuredLinks ++
        [{ linkId := cfg.linkId, backend, appSelection := cfg.appSelection,
           name := name.take cfgLinkNameMax }]
      configuredLinkCount := state.configuredLinkCount + 1 })

def TbvState.linkDeactivateConfig (state : TbvState) (linkId : UInt32) : TbvState :=
  match state.linkFindLocked linkId with
  | none => state
  | some _ => {
      configuredLinks := state.configuredLinks.eraseP (·.linkId == linkId)
      configuredLinkCount := state.configuredLinkCount - 1 }

/-! ## The attribute files -/

/-- `struct tbv_cfgfs_link`, with the name of its item. -/
structure CfgfsLink where
  name : Text
  cfg : CfgLink
  stagedRoute : Route := {}
  localSrcSet : Bool := false
  peerSet : Bool := false
  deriving DecidableEq, Repr

/-- What a store returns: the error, or the bytes taken. -/
def stored (ret : Int) (buf : Text) : Int := if ret ≠ 0 then ret else buf.length

/-- The link with the outcome of an operation on its configuration. -/
def CfgfsLink.withCfg (link : CfgfsLink) (out : Int × CfgLink) : Int × CfgfsLink :=
  (out.1, { link with cfg := out.2 })

def CfgfsLink.applyRouteLocked (link : CfgfsLink) : Int × CfgfsLink :=
  if !link.localSrcSet || !link.peerSet then (0, link)
  else link.withCfg (link.cfg.setRoute link.stagedRoute)

def CfgfsLink.backendStore (link : CfgfsLink) (buf : Text) : Int × CfgfsLink :=
  let set := fun backend =>
    let out := link.withCfg (link.cfg.setBackend backend)
    (stored out.1 buf, out.2)
  if sysfsStreq (cString buf) "native".toList then set .native
  else if sysfsStreq (cString buf) "apple".toList then set .apple
  else (einval, link)

def CfgfsLink.localSrcIpv4Store (link : CfgfsLink) (buf : Text) : Int × CfgfsLink :=
  match parseIpv4 (cString buf) with
  | .error ret => (ret, link)
  | .ok addr =>
      let out := CfgfsLink.applyRouteLocked { link with
        stagedRoute := { link.stagedRoute with localSrcAddr := addr }, localSrcSet := true }
      (stored out.1 buf, out.2)

def CfgfsLink.peerIpv4Store (link : CfgfsLink) (buf : Text) : Int × CfgfsLink :=
  match parseIpv4 (cString buf) with
  | .error ret => (ret, link)
  | .ok addr =>
      let out := CfgfsLink.applyRouteLocked { link with
        stagedRoute := { link.stagedRoute with peerAddr := addr }, peerSet := true }
      (stored out.1 buf, out.2)

def CfgfsLink.ncclAddrRangeStore (link : CfgfsLink) (buf : Text) : Int × CfgfsLink :=
  match sscanf (cString buf) [.until 31 '/', .literal '/', .number] with
  | [.word ip, .number bits] =>
      if 32 < bits then (einval, link)
      else
        match parseIpv4 ip with
        | .error ret => (ret, link)
        | .ok addrRange =>
            let policy := { ncclPolicyDefault with
              addrRange, hasAddrRange := true, addrRangeBits := bits.toNat }
            let out := link.withCfg (link.cfg.setNcclPolicy policy)
            (stored out.1 buf, out.2)
  | _ => (einval, link)

/-- `app_gids_store`, which appends one GID. -/
def CfgfsLink.appGidsStore (link : CfgfsLink) (buf : Text) : Int × CfgfsLink :=
  match sscanf (cString buf) [.number, .space, .number, .space, .number, .space, .word 15,
      .space, .word 31] with
  | [.number dev, .number port, .number index, .word type, .word ip] =>
      if 255 < port ∨ 255 < index then (einval, link)
      else
        match parseGidType type with
        | .error ret => (ret, link)
        | .ok gidType =>
            match parseIpv4 ip with
            | .error ret => (ret, link)
            | .ok addr =>
                if cfgMaxAppGids ≤ link.cfg.appGids.length then (enospc, link)
                else
                  let gid : Gid := {
                    deviceId := dev, port := port.toUInt8, gidIndex := index.toUInt8
                    gidType, addr }
                  let out := link.withCfg (link.cfg.setAppGids (link.cfg.appGids ++ [gid]))
                  (stored out.1 buf, out.2)
  | _ => (einval, link)

def CfgfsLink.sealStore (link : CfgfsLink) (buf : Text) : Int × CfgfsLink :=
  if !sysfsStreq (cString buf) "1".toList then (einval, link)
  else
    let out := link.withCfg link.cfg.seal
    if out.1 ≠ 0 then out
    else (stored ((transportGet out.2.cfg.backendType).validateConfig out.2.cfg) buf, out.2)

/-- `activate_store`, whose failed publication takes the state back. -/
def CfgfsLink.activateStore (link : CfgfsLink) (state : TbvState) (buf : Text)
    (allocated : Bool) : Int × CfgfsLink × TbvState :=
  if !sysfsStreq (cString buf) "1".toList then (einval, link, state)
  else
    let backend := link.cfg.backendType
    if link.cfg.state ≠ .sealed then (einval, link, state)
    else
      let ret := (transportGet backend).activate link.cfg
      if ret ≠ 0 then (ret, link, state)
      else
        let out := link.cfg.activate
        if out.1 ≠ 0 then (out.1, { link with cfg := out.2 }, state)
        else
          let published := state.linkActivateConfig link.name backend out.2 allocated
          if published.1 ≠ 0 then
            (published.1, { link with cfg := out.2.deactivate.2 }, published.2)
          else (buf.length, { link with cfg := out.2 }, published.2)

/-- `tbv_cfgfs_link_release`: what the link leaves of the published ones. -/
def CfgfsLink.release (link : CfgfsLink) (state : TbvState) : TbvState :=
  if link.cfg.state = .active then state.linkDeactivateConfig link.cfg.linkId else state

/-! ## What the files show -/

def CfgState.name : CfgState → Text
  | .empty => "empty".toList
  | .draft => "draft".toList
  | .sealed => "sealed".toList
  | .active => "active".toList

def CfgBackend.name : CfgBackend → Text
  | .native => "native".toList
  | .apple => "apple".toList
  | .none => "unset".toList

def CfgfsLink.backendShow (link : CfgfsLink) : Text := link.cfg.backend.name ++ ['\n']

def CfgfsLink.localSrcIpv4Show (link : CfgfsLink) : Text :=
  formatIpv4 link.stagedRoute.localSrcAddr

def CfgfsLink.peerIpv4Show (link : CfgfsLink) : Text := formatIpv4 link.stagedRoute.peerAddr

def CfgfsLink.ncclAddrRangeShow (link : CfgfsLink) : Text :=
  let policy := link.cfg.ncclPolicy
  if !link.cfg.ncclPolicySet || !policy.hasAddrRange then "<unset>\n".toList
  else policy.addrRange.dotted ++ '/' :: decimal policy.addrRangeBits ++ ['\n']

def CfgfsLink.appGidsShow (link : CfgfsLink) : Text :=
  link.cfg.appGids.flatMap fun gid =>
    formatGid gid.deviceId gid.port gid.gidIndex gid.gidType gid.addr

def CfgfsLink.stateShow (link : CfgfsLink) : Text := link.cfg.state.name ++ ['\n']

def CfgfsLink.selectionShow (link : CfgfsLink) : Text :=
  let sel := link.cfg.appSelection
  if !sel.valid then "<unset>\n".toList
  else formatGid sel.deviceId sel.port sel.gidIndex sel.gidType sel.addr

/-- The readable files of the link; `seal` and `activate` are only written. -/
def CfgfsLink.shown (link : CfgfsLink) : List Text :=
  [link.backendShow, link.localSrcIpv4Show, link.peerIpv4Show, link.ncclAddrRangeShow,
    link.appGidsShow, link.stateShow, link.selectionShow]

/-! ## The directory -/

inductive Attribute where
  | backend | localSrcIpv4 | peerIpv4 | ncclAddrRange | appGids | seal | activate
  deriving DecidableEq, Repr

inductive Op where
  | create (name : Text) (allocated : Bool)
  | store (item : Nat) (attr : Attribute) (buf : Text) (allocated : Bool)
  | release (item : Nat)
  deriving DecidableEq, Repr

/-- The links by the order of their creation, and `tbv_cfgfs_next_link_id`. -/
structure System where
  links : Nat → Option CfgfsLink := fun _ => none
  created : Nat := 0
  nextLinkId : UInt32 := 0
  state : TbvState := {}

def System.makeLink (system : System) (name : Text) (allocated : Bool) : Int × System :=
  let ret := validateName name
  if ret ≠ 0 then (ret, system)
  else if !allocated then (enomem, system)
  else
    let linkId := system.nextLinkId + 1
    (0, { system with
      links := Function.update system.links system.created
        (some { name, cfg := CfgLink.init linkId })
      created := system.created + 1
      nextLinkId := linkId })

/-- The store of one attribute; only `activate` touches the published links. -/
def CfgfsLink.store (link : CfgfsLink) (state : TbvState) (attr : Attribute) (buf : Text)
    (allocated : Bool) : Int × CfgfsLink × TbvState :=
  let alone := fun out : Int × CfgfsLink => (out.1, out.2, state)
  match attr with
  | .backend => alone (link.backendStore buf)
  | .localSrcIpv4 => alone (link.localSrcIpv4Store buf)
  | .peerIpv4 => alone (link.peerIpv4Store buf)
  | .ncclAddrRange => alone (link.ncclAddrRangeStore buf)
  | .appGids => alone (link.appGidsStore buf)
  | .seal => alone (link.sealStore buf)
  | .activate => link.activateStore state buf allocated

/-- One operation, and what it returns. -/
def System.exec (system : System) : Op → Int × System
  | .create name allocated => system.makeLink name allocated
  | .store item attr buf allocated =>
      match system.links item with
      | none => (enoent, system)
      | some link =>
          let out := link.store system.state attr buf allocated
          (out.1, { system with
            links := Function.update system.links item (some out.2.1), state := out.2.2 })
  | .release item =>
      match system.links item with
      | none => (enoent, system)
      | some link =>
          (0, { system with
            links := Function.update system.links item none
            state := link.release system.state })

def System.step (system : System) (op : Op) : Option System := some (system.exec op).2

end Tbv.Config
