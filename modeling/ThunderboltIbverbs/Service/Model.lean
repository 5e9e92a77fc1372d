import Mathlib.Tactic.Common
import Mathlib.Tactic.Ring

/-! # Peers and rails

`kernel/peer.c`, `kernel/rail.c` and the probe of `kernel/service.c`: every service of an XDomain
that is bound is a rail of the peer that stands for the XDomain, and is published as an RDMA device
with a name of its own. -/
set_option autoImplicit false
namespace Tbv.Service

inductive Backend where
  | native | apple
  deriving DecidableEq, Repr

/-- `enum tbv_path_state`, as far as publication looks at it. -/
inductive PathState where
  | idle | ringStarted | tunnelEnabled
  deriving DecidableEq, Repr

def maxLanes : Nat := 4
def nativePrtcid : Nat := 1
def applePrtcid : Nat := 0xfa57

/-- `struct tb_xdomain`, with the index of its domain.  Domains are numbered from 0 with the
smallest free number, far from the end of an `int`. -/
structure XDomain where
  ident : Nat
  route : Nat := 0
  link : Nat := 0
  depth : Nat := 0
  remoteUuid : Option Nat := none
  vendorName : Option String := none
  domain : Int := 0
  deriving DecidableEq, Repr

/-- `struct tbv_peer`, the part that never changes. -/
structure Peer where
  peerId : Nat
  backend : Backend
  xd : XDomain
  deriving DecidableEq, Repr

structure RailKey where
  route : Nat
  localAdapter : Nat
  remoteAdapter : Nat
  pathId : Nat
  deriving DecidableEq, Repr

/-- `struct tbv_rail`, with its peer. -/
structure Rail where
  peer : Peer
  key : RailKey
  railId : Nat := 0
  nativeLane : Nat := 0
  removing : Bool := false
  pathState : PathState := .idle
  nativeReadySent : Bool := false
  nativeRemoteReady : Bool := false
  ibdev : Bool := false
  ibdevRegisterFailed : Bool := false
  ibdevRegisterDeferred : Bool := false
  deriving DecidableEq, Repr

inductive NameErrno where
  | enodev | erange
  deriving DecidableEq, Repr

/-- The slot of a rail among those of its domain. -/
def Rail.slot (rail : Rail) : Except NameErrno Nat :=
  match rail.peer.backend with
  | .native => if maxLanes ≤ rail.nativeLane then .error .erange else .ok rail.nativeLane
  | .apple => .ok maxLanes

/-- `tbv_ibdev_rail_name_index`; a rail has a peer, and a peer an XDomain. -/
def Rail.nameIndex (rail : Rail) : Except NameErrno Int :=
  if rail.peer.xd.domain < 0 then .error .enodev
  else rail.slot.map fun slot => rail.peer.xd.domain * (maxLanes + 1) + slot

end Tbv.Service
