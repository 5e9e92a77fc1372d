import Mathlib.Tactic.Common
import Mathlib.Tactic.Ring

/-! # Which GID an application picks

`proto/identity.c`.  llama.cpp looks for the GID with the local source address, NCCL for the
first global RoCE GID of its version in its address range; a link is usable when both come to
the same one. -/
set_option autoImplicit false
namespace Tbv.Config

def enodev : Int := -19
def eexist : Int := -17
def exdev : Int := -18

/-! `enum tbv_id_addr_family` and `enum tbv_id_gid_type`; the fields are bytes. -/

def afNone : UInt8 := 0
def afInet : UInt8 := 4
def afInet6 : UInt8 := 6

def gidIb : UInt8 := 0
def gidRoceV1 : UInt8 := 1
def gidRoceV2 : UInt8 := 2

/-- `struct tbv_id_addr`, with its 16 bytes. -/
structure Addr where
  family : UInt8 := afNone
  bytes : List UInt8 := List.replicate 16 0
  deriving DecidableEq, Repr

structure Gid where
  deviceId : UInt32
  port : UInt8
  gidIndex : UInt8
  gidType : UInt8
  addr : Addr
  deriving DecidableEq, Repr

structure Route where
  peerAddr : Addr := {}
  localSrcAddr : Addr := {}
  deriving DecidableEq, Repr

structure NcclPolicy where
  family : UInt8
  roceVersion : Nat
  hasAddrRange : Bool := false
  addrRange : Addr := {}
  addrRangeBits : Nat := 0
  deriving DecidableEq, Repr

structure Selection where
  valid : Bool := false
  deviceId : UInt32 := 0
  port : UInt8 := 0
  gidIndex : UInt8 := 0
  gidType : UInt8 := gidIb
  addr : Addr := {}
  deriving DecidableEq, Repr

def addrV4 (a b c d : UInt8) : Addr where
  family := afInet
  bytes := List.replicate 12 0 ++ [a, b, c, d]

def ncclPolicyDefault : NcclPolicy := { family := afInet, roceVersion := 2 }

def Gid.isRoce (gid : Gid) : Bool := gid.gidType == gidRoceV1 || gid.gidType == gidRoceV2

def Gid.roceVersion (gid : Gid) : Nat :=
  if gid.gidType = gidRoceV1 then 1 else if gid.gidType = gidRoceV2 then 2 else 0

def Addr.isZero (addr : Addr) : Bool := addr.bytes.all (· == 0)

def Addr.isLinkLocalV6 (addr : Addr) : Bool :=
  addr.family == afInet6 && addr.bytes.getD 0 0 == 0xfe && addr.bytes.getD 1 0 &&& 0xc0 == 0x80

def Gid.isGlobalRoce (gid : Gid) : Bool :=
  gid.isRoce && gid.addr.family != afNone && !gid.addr.isZero && !gid.addr.isLinkLocalV6

def Gid.sameEndpoint (a b : Gid) : Bool := a.deviceId == b.deviceId && a.port == b.port

def selectGid (gid : Gid) : Selection where
  valid := true
  deviceId := gid.deviceId
  port := gid.port
  gidIndex := gid.gidIndex
  gidType := gid.gidType
  addr := gid.addr

def prefixMatchBytes (addr pattern : List UInt8) (bits maxBits : Nat) : Bool :=
  if maxBits < bits then false
  else
    let fullBytes := bits / 8
    let remBits := bits % 8
    let mask : UInt8 := UInt8.ofNat (0xff <<< (8 - remBits))
    if fullBytes ≠ 0 ∧ addr.take fullBytes ≠ pattern.take fullBytes then false
    else if remBits ≠ 0 ∧
        addr.getD fullBytes 0 &&& mask ≠ pattern.getD fullBytes 0 &&& mask then false
    else true

def Gid.matchesRange (gid : Gid) (policy : NcclPolicy) : Bool :=
  if !policy.hasAddrRange then true
  else if gid.addr.family ≠ policy.family ∨ policy.addrRange.family ≠ policy.family then false
  else if policy.family = afInet then
    prefixMatchBytes (gid.addr.bytes.drop 12) (policy.addrRange.bytes.drop 12)
      policy.addrRangeBits 32
  else if policy.family = afInet6 then
    prefixMatchBytes gid.addr.bytes policy.addrRange.bytes policy.addrRangeBits 128
  else false

/-- The loop of `tbv_id_select_llama`, with the best GID so far. -/
def selectLlamaLoop (route : Route) : List Gid → Option Gid → Except Int (Option Gid)
  | [], best => .ok best
  | gid :: rest, best =>
      if !gid.isRoce || gid.addr != route.localSrcAddr then selectLlamaLoop route rest best
      else
        match best with
        | none => selectLlamaLoop route rest (some gid)
        | some best =>
            if best.sameEndpoint gid then
              if best.gidType ≠ gidRoceV2 ∧ gid.gidType = gidRoceV2 then
                selectLlamaLoop route rest (some gid)
              else selectLlamaLoop route rest (some best)
            else .error eexist

def selectBest : Except Int (Option Gid) → Except Int Selection
  | .error ret => .error ret
  | .ok none => .error enodev
  | .ok (some gid) => .ok (selectGid gid)

/-- `tbv_id_select_llama`; an error leaves a cleared selection. -/
def selectLlama (gids : List Gid) (route : Route) : Except Int Selection :=
  selectBest (selectLlamaLoop route gids none)

def Gid.ncclEligible (gid : Gid) (policy : NcclPolicy) : Bool :=
  gid.isGlobalRoce && gid.addr.family == policy.family &&
    gid.roceVersion == policy.roceVersion && gid.matchesRange policy

/-- The loop of `tbv_id_select_nccl`. -/
def selectNcclLoop (policy : NcclPolicy) : List Gid → Option Gid → Except Int (Option Gid)
  | [], best => .ok best
  | gid :: rest, best =>
      if !gid.ncclEligible policy then selectNcclLoop policy rest best
      else
        match best with
        | none => selectNcclLoop policy rest (some gid)
        | some best =>
            if best.sameEndpoint gid then selectNcclLoop policy rest (some best)
            else .error eexist

def selectNccl (gids : List Gid) (policy : NcclPolicy) : Except Int Selection :=
  selectBest (selectNcclLoop policy gids none)

/-- The two selections name the same entry of the same GID table. -/
def Selection.SameGid (a b : Selection) : Prop :=
  a.deviceId = b.deviceId ∧ a.port = b.port ∧ a.gidIndex = b.gidIndex ∧ a.gidType = b.gidType

instance (a b : Selection) : Decidable (a.SameGid b) := inferInstanceAs (Decidable (_ ∧ _))

/-- `tbv_id_validate_app_compat`; an error leaves a cleared selection. -/
def validateAppCompat (gids : List Gid) (route : Route) (policy : NcclPolicy) :
    Except Int Selection :=
  match selectLlama gids route with
  | .error ret => .error ret
  | .ok llama =>
      match selectNccl gids policy with
      | .error ret => .error ret
      | .ok nccl => if llama.SameGid nccl then .ok llama else .error exdev

/-! ## What a selection tells -/

section
variable {gids : List Gid} {route : Route} {policy : NcclPolicy} {selection : Selection}

theorem selectBest_ok {out : Except Int (Option Gid)} (selected : selectBest out = .ok selection) :
    ∃ gid, out = .ok (some gid) ∧ selection = selectGid gid := by
  cases out with
  | error ret => cases selected
  | ok best =>
      cases best with
      | none => cases selected
      | some gid =>
          cases selected
          exact ⟨gid, rfl, rfl⟩

theorem selectNcclLoop_eligible {best : Option Gid} {gid : Gid}
    (found : selectNcclLoop policy gids best = .ok (some gid))
    (begun : ∀ g, best = some g → g.ncclEligible policy = true) :
    gid.ncclEligible policy = true := by
  induction gids generalizing best with
  | nil => exact begun gid (Except.ok.inj found)
  | cons first rest ih =>
      unfold selectNcclLoop at found
      split at found
      · exact ih found begun
      · rename_i eligible
        split at found
        · refine ih found fun g is => ?_
          rw [← Option.some.inj is]
          simpa using eligible
        · split at found
          · exact ih found begun
          · cases found

theorem selectNccl_version (selected : selectNccl gids policy = .ok selection) :
    ∃ gid, selection = selectGid gid ∧ gid.roceVersion = policy.roceVersion := by
  obtain ⟨gid, found, is⟩ := selectBest_ok selected
  have eligible := selectNcclLoop_eligible found nofun
  simp only [Gid.ncclEligible, Bool.and_eq_true, beq_iff_eq] at eligible
  exact ⟨gid, is, eligible.1.2⟩

/-- A link both applications agree on: each of them selects, and they select the same GID. -/
theorem validateAppCompat_ok (validated : validateAppCompat gids route policy = .ok selection) :
    selectLlama gids route = .ok selection ∧ selection.valid = true ∧
      ∃ nccl, selectNccl gids policy = .ok nccl ∧ selection.SameGid nccl := by
  unfold validateAppCompat at validated
  split at validated
  · cases validated
  · rename_i llama selected
    split at validated
    · cases validated
    · rename_i nccl selectedNccl
      split at validated
      · rename_i same
        obtain rfl := Except.ok.inj validated
        obtain ⟨gid, _, is⟩ := selectBest_ok selected
        exact ⟨selected, by rw [is]; rfl, nccl, selectedNccl, same⟩
      · cases validated

theorem validateAppCompat_error {ret : Int}
    (refused : validateAppCompat gids route policy = .error ret) : ret ≠ 0 := by
  have loopL : ∀ gids best, selectLlamaLoop route gids best = .error ret → ret ≠ 0 := by
    intro gids
    induction gids with
    | nil => nofun
    | cons first rest ih =>
        intro best refused
        unfold selectLlamaLoop at refused
        repeat' split at refused
        all_goals first | exact ih _ refused | (cases refused; decide)
  have loopN : ∀ gids best, selectNcclLoop policy gids best = .error ret → ret ≠ 0 := by
    intro gids
    induction gids with
    | nil => nofun
    | cons first rest ih =>
        intro best refused
        unfold selectNcclLoop at refused
        repeat' split at refused
        all_goals first | exact ih _ refused | (cases refused; decide)
  have best : ∀ out : Except Int (Option Gid), (out = .error ret → ret ≠ 0) →
      selectBest out = .error ret → ret ≠ 0 := by
    intro out inner refused
    rcases out with err | best
    · exact inner (by cases refused; rfl)
    · cases best <;> cases refused
      decide
  unfold validateAppCompat at refused
  split at refused
  · rename_i err selected
    obtain rfl := Except.error.inj refused
    exact best _ (loopL gids none) selected
  · split at refused
    · rename_i err selected
      obtain rfl := Except.error.inj refused
      exact best _ (loopN gids none) selected
    · split at refused
      · cases refused
      · cases refused
        decide

end

end Tbv.Config
