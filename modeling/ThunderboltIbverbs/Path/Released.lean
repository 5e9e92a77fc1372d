import ThunderboltIbverbs.Path.Lifecycle

/-! # What a path takes it gives back

What a path owns is read off its fields.  Every function leads from what the path owned before it
to what it owns after it, and a destroyed path owns nothing. -/
set_option autoImplicit false
namespace Tbv.PathLife

open Holdings Trans

namespace Path

def frameCount (p : Path) (tx : Bool) : Nat := (p.frames tx).getD 0

/-- What the fields of the path refer to. -/
def owned (p : Path) : Res → Nat
  | .trace => p.txTrace.toNat
  | .txWq => p.txWq.toNat
  | .inHop id => (p.remoteTransmitPath == some id).toNat
  | .outHop id => (p.localTransmitPath == some id).toNat
  | .ring tx => (p.ring tx).toNat
  | .throttled tx => (p.throttled tx).toNat
  | .frames tx => (p.frames tx).isSome.toNat
  | .buf tx i | .dma tx i => (decide (i < p.frameCount tx)).toNat
  | .running _ => (p.ringsStarted && !p.ringsStopped).toNat
  | .controlPackets => p.controlPackets.toNat
  | .dataPackets => p.dataPackets.isSome.toNat
  | .dataBuf i => (decide (i < p.dataPackets.getD 0)).toNat
  | .tunnel out in_ => (decide (p.state = .tunnelEnabled) && p.localTransmitPath == some out &&
      p.remoteTransmitPath == some in_).toNat

end Path

/-- The function leads from what the path owned to what it owns now. -/
def Leads (p : Path) (out : Out) : Prop := Legal rules p.owned out.acts out.path.owned

theorem Leads.stay {p next : Path} {ret : Int} (same : next.owned = p.owned) :
    Leads p ⟨next, [], ret⟩ := by
  unfold Leads
  rw [same]
  exact .nil _

theorem Leads.bind {p : Path} {out : Out} {next : Path → Out} (first : Leads p out)
    (second : Leads out.path (next out.path)) : Leads p (out.bind next) := first.append second

theorem Leads.take {p next : Path} {r : Res} {ret : Int} (none : p.owned r = 0)
    (one : next.owned r = 1) (rest : ∀ q, q ≠ r → next.owned q = p.owned q)
    (ready : ∀ s, Needs r s → 0 < p.owned s) : Leads p ⟨next, [.take r], ret⟩ :=
  .of_moves (.take (one.trans (by rw [none])) rest ready fun _ => none)

/-- One resource is given back. -/
theorem Leads.give {p next : Path} {r : Res} {ret : Int} (one : p.owned r = 1)
    (none : next.owned r = 0) (rest : ∀ q, q ≠ r → next.owned q = p.owned q)
    (free : ∀ q, Pins q r → p.owned q = 0) : Leads p ⟨next, [.give r], ret⟩ :=
  .of_moves (.give (one.trans (by rw [none])) rest fun _ => free)

/-! ## Frames -/

section Frames
variable {p : Path} {tx : Bool}

theorem frames_of_ne {t : Bool} (dir : t ≠ tx) (count : Option Nat) :
    (p.setFrames tx count).frames t = p.frames t := Function.update_of_ne dir ..

theorem frameCount_of_ne {t : Bool} (dir : t ≠ tx) (count : Option Nat) :
    (p.setFrames tx count).frameCount t = p.frameCount t := by
  rw [Path.frameCount, frames_of_ne dir, Path.frameCount]

/-- The holdings with a buffer more than the frames that are mapped. -/
def withBuf (p : Path) (tx : Bool) (i : Nat) : Res → Nat :=
  Function.update (p.setFrames tx (some i)).owned (.buf tx i) 1

theorem takes_buf (i : Nat) : Moves rules (p.setFrames tx (some i)).owned (.take (.buf tx i))
    (withBuf p tx i) := by
  refine .take ?_ (fun q other => Function.update_of_ne other ..) ?_ fun _ => ?_
  · simp [withBuf, Path.owned, Path.setFrames, Path.frameCount]
  · rintro _ ⟨⟩
    simp [Path.owned, Path.setFrames]
  · simp [Path.owned, Path.setFrames, Path.frameCount]

theorem gives_buf (i : Nat) : Moves rules (withBuf p tx i) (.give (.buf tx i))
    (p.setFrames tx (some i)).owned := by
  refine .give ?_ (fun q other => (Function.update_of_ne other ..).symm) fun _ q pins => ?_
  · simp [withBuf, Path.owned, Path.setFrames, Path.frameCount]
  · obtain ⟨⟨⟩⟩ | ⟨⟩ := pins
    rw [withBuf, Function.update_of_ne (by simp)]
    simp [Path.owned, Path.setFrames, Path.frameCount]

theorem withBuf_dma (i : Nat) : withBuf p tx i (.dma tx i) = 0 := by
  rw [withBuf, Function.update_of_ne (by simp)]
  simp [Path.owned, Path.setFrames, Path.frameCount]

/-- One frame more is its buffer and its mapping. -/
theorem withBuf_rest (i : Nat) (q : Res) (other : q ≠ .dma tx i) :
    (p.setFrames tx (some (i + 1))).owned q = withBuf p tx i q := by
  by_cases same : q = .buf tx i
  · subst same
    simp [withBuf, Path.owned, Path.setFrames, Path.frameCount]
  · rw [withBuf, Function.update_of_ne same]
    cases q with
    | buf t j | dma t j =>
        by_cases dir : t = tx
        · subst dir
          have ne : j ≠ i := by
            rintro rfl
            simp at other same
          simp only [Path.owned, Path.setFrames, Path.frameCount, Function.update_self]
          exact congrArg Bool.toNat (decide_eq_decide.mpr (by simp; omega))
        · simp only [Path.owned, frameCount_of_ne dir]
    | frames t =>
        by_cases dir : t = tx
        · subst dir
          simp [Path.owned, Path.setFrames]
        · simp only [Path.owned, frames_of_ne dir]
    | _ => rfl

theorem takes_dma (i : Nat) : Moves rules (withBuf p tx i) (.take (.dma tx i))
    (p.setFrames tx (some (i + 1))).owned := by
  refine .take ?_ (fun q other => withBuf_rest i q other) ?_ fun _ => withBuf_dma i
  · rw [withBuf_dma]
    simp [Path.owned, Path.setFrames, Path.frameCount]
  · rintro _ ⟨⟩
    simp [withBuf]

/-- A mapping goes only while the ring does not run. -/
theorem gives_dma (i : Nat) (stopped : p.owned (.running tx) = 0) :
    Moves rules (p.setFrames tx (some (i + 1))).owned (.give (.dma tx i)) (withBuf p tx i) := by
  refine .give ?_ (fun q other => (withBuf_rest i q other).symm) fun _ q pins => ?_
  · rw [withBuf_dma]
    simp [Path.owned, Path.setFrames, Path.frameCount]
  · obtain ⟨⟨⟩⟩ | ⟨⟩ := pins
    exact stopped

theorem legal_unmapFrames (stopped : p.owned (.running tx) = 0) (i : Nat) :
    Legal rules (p.setFrames tx (some i)).owned (unmapFrames tx i)
      (p.setFrames tx (some 0)).owned := by
  induction i with
  | zero => exact .nil _
  | succ i ih => exact .cons (gives_dma i stopped) (.cons (gives_buf i) ih)

theorem legal_mapFrames (stopped : p.owned (.running tx) = 0) (fault : Nat → Option FrameFault)
    (left i : Nat) : Legal rules (p.setFrames tx (some i)).owned (mapFrames tx fault i left).1
      (p.setFrames tx (some
        (if (mapFrames tx fault i left).2 = 0 then i + left else 0))).owned := by
  induction left generalizing i with
  | zero => exact .nil _
  | succ left ih =>
      unfold mapFrames
      split
      · have later := ih (i + 1)
        rw [show i + 1 + left = i + (left + 1) by omega] at later
        exact .cons (takes_buf i) (.cons (takes_dma i) later)
      · exact legal_unmapFrames stopped i
      · exact .cons (takes_buf i) (.cons (gives_buf i) (legal_unmapFrames stopped i))

/-- The holdings when the frames below `i` of `count` are gone. -/
def fromFrame (p : Path) (tx : Bool) (count i : Nat) : Res → Nat
  | .buf t j => if t = tx then (decide (i ≤ j ∧ j < count)).toNat else p.owned (.buf t j)
  | .dma t j => if t = tx then (decide (i ≤ j ∧ j < count)).toNat else p.owned (.dma t j)
  | q => p.owned q

theorem legal_dropFrames (stopped : p.owned (.running tx) = 0)
    (count left i : Nat) (ends : i + left = count) :
    Legal rules (fromFrame p tx count i) (dropFrames tx true i left)
      (fromFrame p tx count count) := by
  induction left generalizing i with
  | zero =>
      obtain rfl : i = count := by omega
      exact .nil _
  | succ left ih =>
      have one : fromFrame p tx count i (.dma tx i) = 1 := by simp [fromFrame]; omega
      have alsoOne : fromFrame p tx count i (.buf tx i) = 1 := by simp [fromFrame]; omega
      have unmaps : Moves rules (fromFrame p tx count i) (.give (.dma tx i))
          (Function.update (fromFrame p tx count i) (.dma tx i) 0) := by
        refine .give (by simp [one]) (fun q other => Function.update_of_ne other ..) fun _ q pins => ?_
        obtain ⟨⟨⟩⟩ | ⟨⟩ := pins
        exact stopped
      have frees : Moves rules (Function.update (fromFrame p tx count i) (.dma tx i) 0)
          (.give (.buf tx i)) (fromFrame p tx count (i + 1)) := by
        refine .give ?_ (fun q other => ?_) fun _ q pins => ?_
        · rw [Function.update_of_ne (by simp), alsoOne]
          simp [fromFrame]
        · by_cases same : q = .dma tx i
          · subst same
            simp [fromFrame]
          · rw [Function.update_of_ne same]
            cases q with
            | buf t j | dma t j =>
                by_cases dir : t = tx
                · subst dir
                  have ne : j ≠ i := by
                    rintro rfl
                    simp at other same
                  simp only [fromFrame, if_true]
                  exact congrArg Bool.toNat (decide_eq_decide.mpr (by omega))
                · simp [fromFrame, dir]
            | _ => rfl
        · obtain ⟨⟨⟩⟩ | ⟨⟩ := pins
          exact Function.update_self ..
      exact .cons unmaps (.cons frees (ih (i + 1) (by omega)))

theorem takes_frames (none : p.frames tx = none) (ring : p.ring tx = true) :
    Moves rules p.owned (.take (.frames tx)) (p.setFrames tx (some 0)).owned := by
  have count : p.frameCount tx = 0 := by simp [Path.frameCount, none]
  refine .take ?_ (fun q other => ?_) ?_ fun _ => ?_
  · simp [Path.owned, Path.setFrames, none]
  · cases q with
    | buf t j | dma t j | frames t =>
        by_cases dir : t = tx
        · subst dir
          simp [Path.owned, Path.setFrames, Path.frameCount, none] at other ⊢
        · simp only [Path.owned, frameCount_of_ne dir, frames_of_ne dir]
    | _ => rfl
  · rintro _ ⟨⟩
    simp [Path.owned, ring]
  · simp [Path.owned, none]

theorem gives_frames : Moves rules (p.setFrames tx (some 0)).owned (.give (.frames tx))
    (p.setFrames tx none).owned := by
  refine .give ?_ (fun q other => ?_) fun _ q pins => ?_
  · simp [Path.owned, Path.setFrames]
  · cases q with
    | buf t j | dma t j | frames t =>
        by_cases dir : t = tx
        · subst dir
          simp [Path.owned, Path.setFrames, Path.frameCount] at other ⊢
        · simp only [Path.owned, frameCount_of_ne dir, frames_of_ne dir]
    | _ => rfl
  · obtain ⟨⟨⟩⟩ | ⟨⟩ := pins
    simp [Path.owned, Path.setFrames, Path.frameCount]

theorem leads_allocFrames (env : FrameEnv) (none : p.frames tx = none) (ring : p.ring tx = true)
    (stopped : p.owned (.running tx) = 0) : Leads p (allocFrames p tx env) := by
  unfold allocFrames
  split
  · exact .stay rfl
  split
  · exact .stay rfl
  have mapped := legal_mapFrames stopped env.fault (p.cfg.ringSize tx) 0
  dsimp only
  split
  · rename_i all
    rw [if_pos all, Nat.zero_add] at mapped
    exact .cons (takes_frames none ring) mapped
  · rename_i some
    rw [if_neg some] at mapped
    have same : p.setFrames tx Option.none = p := by
      unfold Path.setFrames
      rw [← none, Function.update_eq_self]
    have last := @gives_frames p tx
    rw [same] at last
    exact .cons (takes_frames none ring) (mapped.snoc last)

theorem leads_freeFrames (stopped : p.owned (.running tx) = 0) :
    Leads p (freeFrames p tx true) := by
  unfold freeFrames
  split
  · rename_i count is ring
    have dropped := @legal_dropFrames p tx stopped count count 0 (Nat.zero_add _)
    have before : fromFrame p tx count 0 = p.owned := by
      funext q
      cases q with
      | buf t j | dma t j =>
          by_cases dir : t = tx
          · subst dir
            simp [fromFrame, Path.owned, Path.frameCount, is]
          · simp [fromFrame, dir]
      | _ => rfl
    have after : fromFrame p tx count count = (p.setFrames tx (some 0)).owned := by
      funext q
      cases q with
      | buf t j | dma t j =>
          by_cases dir : t = tx
          · subst dir
            simp [fromFrame, Path.owned, Path.setFrames, Path.frameCount]
          · simp only [fromFrame, if_neg dir, Path.owned, frameCount_of_ne dir]
      | frames t =>
          by_cases dir : t = tx
          · subst dir
            simp [fromFrame, Path.owned, Path.setFrames, is]
          · simp only [fromFrame, Path.owned, frames_of_ne dir]
      | _ => rfl
    rw [before, after] at dropped
    exact dropped.snoc gives_frames
  · exact .stay rfl

end Frames

/-! ## Setting up and giving up -/

/-- The path is at a rung of `tbv_path_alloc_rings`: 1 has the TX ring, 2 the out hop ID, 3 the RX
ring, 4 and 5 the frames, 6 the control packets and 7 the data packets. -/
structure Stage (rung : Nat) (p : Path) : Prop where
  state : p.state = .new ∨ p.state = .stopped
  txRing : p.ring true = decide (1 ≤ rung)
  outHop : p.localTransmitPath.isSome = decide (2 ≤ rung)
  rxRing : p.ring false = decide (3 ≤ rung)
  txFrames : (p.frames true).isSome = decide (4 ≤ rung)
  rxFrames : (p.frames false).isSome = decide (5 ≤ rung)
  control : p.controlPackets = decide (6 ≤ rung)
  data : p.dataPackets.isSome = true → 7 ≤ rung
  running : p.ringsStopped = false
  live : p.destroyed = false

/-- A path without rings and hop IDs. -/
structure Empty (p : Path) : Prop where
  stage : Stage 0 p
  remote : p.remoteTransmitPath = none
  unthrottled : ∀ tx, p.throttled tx = false

theorem Stage.down {rung : Nat} {p : Path} (stage : Stage rung p) : p.ringsStarted = false := by
  rcases stage.state with is | is <;> simp [Path.ringsStarted, is]

theorem Stage.idle {rung : Nat} {p : Path} (stage : Stage rung p) (tx : Bool) :
    p.owned (.running tx) = 0 := by
  simp [Path.owned, stage.down]

theorem Stage.noTunnel {rung : Nat} {p : Path} (stage : Stage rung p) (out in_ : Nat) :
    p.owned (.tunnel out in_) = 0 := by
  rcases stage.state with is | is <;> simp [Path.owned, is]

/-- What an error label comes to. -/
structure Clears (p : Path) (ret : Int) (out : Out) : Prop where
  leads : Leads p out
  empty : Empty out.path
  ret : out.ret = ret

section Release
variable {p : Path} {ret : Int}

theorem Clears.after {out : Out} {next : Path → Out} (first : Leads p out)
    (rest : Clears out.path ret (next out.path)) : Clears p ret (out.bind next) :=
  ⟨first.bind rest.leads, rest.empty, rest.ret⟩

theorem releaseInHop_ret (p : Path) (ret : Int) : (releaseInHop p ret).ret = ret := by
  unfold releaseInHop
  split <;> rfl

theorem leads_releaseInHop (noTunnel : ∀ out in_, p.owned (.tunnel out in_) = 0) (ret : Int) :
    Leads p (releaseInHop p ret) := by
  unfold releaseInHop
  split
  · rename_i id is
    refine .give (by simp [Path.owned, is]) (by simp [Path.owned]) (fun q other => ?_)
      fun q pins => ?_
    · cases q with
      | inHop other' =>
          have ne : (id == other') = false :=
            beq_eq_false_iff_ne.mpr fun same => other (by rw [same])
          simp [Path.owned, is, ne]
      | tunnel out in_ =>
          rw [noTunnel]
          simp [Path.owned]
      | _ => rfl
    · obtain ⟨⟨⟩⟩ := pins
      exact noTunnel ..
  · exact .stay rfl

theorem releaseInHop_some {id : Nat} (is : p.remoteTransmitPath = some id) :
    releaseInHop p ret = ⟨{ p with remoteTransmitPath := none }, [.give (.inHop id)], ret⟩ := by
  unfold releaseInHop
  rw [is]

theorem releaseInHop_path (ret : Int) :
    (releaseInHop p ret).path = { p with remoteTransmitPath := none } := by
  unfold releaseInHop
  split
  · rfl
  · rename_i none
    rw [← none]

theorem clears_inHop (stage : Stage 0 p) (unthrottled : ∀ tx, p.throttled tx = false) :
    Clears p ret (releaseInHop p ret) := by
  refine ⟨leads_releaseInHop stage.noTunnel ret, ?_, releaseInHop_ret p ret⟩
  rw [releaseInHop_path]
  exact ⟨⟨stage.1, stage.2, stage.3, stage.4, stage.5, stage.6, stage.7, stage.8, stage.9,
    stage.10⟩, rfl, unthrottled⟩

theorem clears_txRing (stage : Stage 1 p) (unthrottled : ∀ tx, p.throttled tx = false) :
    Clears p ret (releaseTxRing p ret) := by
  have noFrames : p.frames true = none := by simpa using stage.txFrames
  have lower : Stage 0 (p.setRing true false) := by
    obtain ⟨state, _, out, rx, tf, rf, control, data, running, live⟩ := stage
    constructor <;> simp_all [Path.setRing]
  refine Clears.after (.give (by simp [Path.owned, stage.txRing])
    (by simp [Path.owned, Path.setRing]) (fun q other => ?_) fun q pins => ?_)
    (clears_inHop lower unthrottled)
  · cases q with
    | ring t =>
        cases t with
        | true => exact absurd rfl other
        | false => simp [Path.owned, Path.setRing]
    | _ => rfl
  · rcases pins with ⟨⟨⟩⟩ | ⟨⟩
    · simp [Path.owned, unthrottled]
    · simp [Path.owned, noFrames]
    · exact stage.idle _
    · exact stage.noTunnel ..

theorem leads_dropOutHop (noTunnel : ∀ out in_, p.owned (.tunnel out in_) = 0) {next : Path}
    (same : next = { p with localTransmitPath := none }) : Leads p
      ⟨next, p.localTransmitPath.toList.map fun id => .give (.outHop id), ret⟩ := by
  subst same
  cases is : p.localTransmitPath with
  | none =>
      refine .stay ?_
      rw [← is]
  | some id =>
      refine .give (by simp [Path.owned, is]) (by simp [Path.owned]) (fun q other => ?_)
        fun q pins => ?_
      · cases q with
        | outHop other' =>
            have ne : (id == other') = false :=
              beq_eq_false_iff_ne.mpr fun same => other (by rw [same])
            simp [Path.owned, is, ne]
        | tunnel out in_ =>
            rw [noTunnel]
            simp [Path.owned]
        | _ => rfl
      · obtain ⟨⟨⟩⟩ := pins
        exact noTunnel ..

theorem clears_outHop (stage : Stage 2 p) (unthrottled : ∀ tx, p.throttled tx = false) :
    Clears p ret (releaseOutHop p ret) := by
  have lower : Stage 1 { p with localTransmitPath := none } := by
    obtain ⟨state, ring, _, rx, tf, rf, control, data, running, live⟩ := stage
    constructor <;> simp_all
  exact .after (leads_dropOutHop stage.noTunnel rfl) (clears_txRing lower unthrottled)

theorem clears_rxRing (stage : Stage 3 p) (unthrottled : ∀ tx, p.throttled tx = false) :
    Clears p ret (releaseRxRing p ret) := by
  have noFrames : p.frames false = none := by simpa using stage.rxFrames
  have lower : Stage 2 (p.setRing false false) := by
    obtain ⟨state, _, out, rx, tf, rf, control, data, running, live⟩ := stage
    constructor <;> simp_all [Path.setRing]
  refine Clears.after (.give (by simp [Path.owned, stage.rxRing])
    (by simp [Path.owned, Path.setRing]) (fun q other => ?_) fun q pins => ?_)
    (clears_outHop lower unthrottled)
  · cases q with
    | ring t =>
        cases t with
        | true => simp [Path.owned, Path.setRing]
        | false => exact absurd rfl other
    | _ => rfl
  · rcases pins with ⟨⟨⟩⟩ | ⟨⟩
    · simp [Path.owned, unthrottled]
    · simp [Path.owned, noFrames]
    · exact stage.idle _
    · exact stage.noTunnel ..

theorem freeFrames_path {tx dmaReady : Bool} (ring : p.ring tx = true) :
    (freeFrames p tx dmaReady).path = p.setFrames tx none := by
  unfold freeFrames
  split
  · rfl
  · rename_i no
    cases is : p.frames tx with
    | some count => exact absurd ring (no count is)
    | none =>
        unfold Path.setFrames
        rw [← is, Function.update_eq_self]

theorem clears_txFrames (stage : Stage 4 p) (unthrottled : ∀ tx, p.throttled tx = false) :
    Clears p ret (releaseTxFrames p true ret) := by
  have lower : Stage 3 (p.setFrames true none) := by
    obtain ⟨state, ring, out, rx, _, rf, control, data, running, live⟩ := stage
    constructor <;> simp_all [Path.setFrames]
  refine Clears.after (leads_freeFrames (stage.idle true)) ?_
  rw [freeFrames_path (by simp [stage.txRing])]
  exact clears_rxRing lower unthrottled

theorem clears_rxFrames (stage : Stage 5 p) (unthrottled : ∀ tx, p.throttled tx = false) :
    Clears p ret (releaseRxFrames p true ret) := by
  have lower : Stage 4 (p.setFrames false none) := by
    obtain ⟨state, ring, out, rx, tf, _, control, data, running, live⟩ := stage
    constructor <;> simp_all [Path.setFrames]
  refine Clears.after (leads_freeFrames (stage.idle false)) ?_
  rw [freeFrames_path (by simp [stage.rxRing])]
  exact clears_txFrames lower unthrottled

theorem leads_freeControlPackets : Leads p (freeControlPackets p) := by
  unfold freeControlPackets
  cases is : p.controlPackets with
  | false => exact .stay (by rw [← is])
  | true =>
      refine .give (by simp [Path.owned, is]) (by simp [Path.owned]) (fun q other => ?_)
        fun q pins => by obtain ⟨⟨⟩⟩ := pins
      cases q with
      | controlPackets => exact absurd rfl other
      | _ => rfl

theorem clears_control (stage : Stage 6 p) (unthrottled : ∀ tx, p.throttled tx = false) :
    Clears p ret (releaseControl p true ret) := by
  have lower : Stage 5 { p with controlPackets := false } := by
    obtain ⟨state, ring, out, rx, tf, rf, _, data, running, live⟩ := stage
    constructor <;> simp_all
  exact .after leads_freeControlPackets (clears_rxFrames lower unthrottled)

end Release

/-! ## Data packets -/

section DataPackets
variable {p : Path}

def withBufs (p : Path) (i : Nat) : Path := { p with dataPackets := some i }

theorem dataBuf_rest (i : Nat) (q : Res) (other : q ≠ .dataBuf i) :
    (withBufs p (i + 1)).owned q = (withBufs p i).owned q := by
  cases q with
  | dataBuf j =>
      have ne : j ≠ i := fun same => other (by rw [same])
      exact congrArg Bool.toNat (decide_eq_decide.mpr (by simp [withBufs]; omega))
  | _ => rfl

theorem takes_dataBuf (i : Nat) :
    Moves rules (withBufs p i).owned (.take (.dataBuf i)) (withBufs p (i + 1)).owned := by
  refine .take (by simp [Path.owned, withBufs]) (fun q other => dataBuf_rest i q other) ?_
    fun _ => by simp [Path.owned, withBufs]
  rintro _ ⟨⟩
  simp [Path.owned, withBufs]

theorem gives_dataBuf (i : Nat) :
    Moves rules (withBufs p (i + 1)).owned (.give (.dataBuf i)) (withBufs p i).owned := by
  refine .give (by simp [Path.owned, withBufs]) (fun q other => (dataBuf_rest i q other).symm)
    fun _ q pins => ?_
  obtain ⟨⟨⟩⟩ := pins

theorem legal_dropDataBufs (i : Nat) :
    Legal rules (withBufs p i).owned (dropDataBufs i) (withBufs p 0).owned := by
  induction i with
  | zero => exact .nil _
  | succ i ih => exact .cons (gives_dataBuf i) ih

theorem legal_takeDataBufs (allocs : Nat → Bool) (left i : Nat) :
    Legal rules (withBufs p i).owned (takeDataBufs allocs i left).1
      (withBufs p (if (takeDataBufs allocs i left).2 then i + left else 0)).owned := by
  induction left generalizing i with
  | zero => exact .nil _
  | succ left ih =>
      unfold takeDataBufs
      split
      · have later := ih (i + 1)
        rw [show i + 1 + left = i + (left + 1) by omega] at later
        exact .cons (takes_dataBuf i) later
      · exact legal_dropDataBufs i

theorem takes_dataPackets (none : p.dataPackets = none) :
    Moves rules p.owned (.take .dataPackets) (withBufs p 0).owned := by
  refine .take (by simp [Path.owned, withBufs, none]) (fun q other => ?_) ?_
    fun _ => by simp [Path.owned, none]
  · cases q with
    | dataPackets => exact absurd rfl other
    | dataBuf j => simp [Path.owned, withBufs, none]
    | _ => rfl
  · rintro _ ⟨⟩

theorem gives_dataPackets {next : Path} (same : next = { p with dataPackets := none }) :
    Moves rules (withBufs p 0).owned (.give .dataPackets) next.owned := by
  subst same
  refine .give (by simp [Path.owned, withBufs]) (fun q other => ?_) fun _ q pins => ?_
  · cases q with
    | dataPackets => exact absurd rfl other
    | dataBuf j => simp [Path.owned, withBufs]
    | _ => rfl
  · obtain ⟨⟨⟩⟩ := pins
    simp [Path.owned, withBufs]

theorem leads_allocDataPackets (none : p.dataPackets = none) (array : Bool) (allocs : Nat → Bool) :
    Leads p (allocDataPackets p array allocs) := by
  unfold allocDataPackets
  split
  · exact .stay rfl
  split
  · exact .stay rfl
  have taken := @legal_takeDataBufs p allocs p.cfg.dataPacketCount 0
  dsimp only
  split
  · rename_i all
    rw [if_pos all, Nat.zero_add] at taken
    exact .cons (takes_dataPackets none) taken
  · rename_i some
    rw [if_neg some] at taken
    exact .cons (takes_dataPackets none) (taken.snoc (gives_dataPackets (by rw [← none])))

/-- The holdings when the packet buffers below `i` of `count` are gone. -/
def fromBuf (p : Path) (count i : Nat) : Res → Nat
  | .dataBuf j => (decide (i ≤ j ∧ j < count)).toNat
  | q => p.owned q

theorem gives_fromBuf {count i : Nat} (below : i < count) :
    Moves rules (fromBuf p count i) (.give (.dataBuf i)) (fromBuf p count (i + 1)) := by
  refine .give (by simp [fromBuf]; omega) (fun q other => ?_) fun _ q pins => ?_
  · cases q with
    | dataBuf j =>
        have ne : j ≠ i := fun same => other (by rw [same])
        exact congrArg Bool.toNat (decide_eq_decide.mpr (by omega))
    | _ => rfl
  · obtain ⟨⟨⟩⟩ := pins

theorem leads_freeDataPackets : Leads p (freeDataPackets p) := by
  unfold freeDataPackets
  cases is : p.dataPackets with
  | none => exact .stay rfl
  | some count =>
      have dropped : Legal rules (fromBuf p count 0)
          ((List.range count).flatMap fun i => [.give (.dataBuf i)]) (fromBuf p count count) :=
        .range count fun i below => .of_moves (gives_fromBuf below)
      have before : fromBuf p count 0 = p.owned := by
        funext q
        cases q with
        | dataBuf j => simp [fromBuf, Path.owned, is]
        | _ => rfl
      have after : fromBuf p count count = (withBufs p 0).owned := by
        funext q
        cases q with
        | dataBuf j =>
            simp [fromBuf, Path.owned, withBufs]
        | dataPackets => simp [fromBuf, Path.owned, withBufs, is]
        | _ => rfl
      rw [before, after, ← List.map_eq_flatMap] at dropped
      exact dropped.snoc (gives_dataPackets rfl)

end DataPackets

/-! ## Setting up -/

structure Full (p : Path) : Prop where
  state : p.state = .ringAllocated ∨ p.ringsStarted = true
  ring : ∀ tx, p.ring tx = true
  outHop : p.localTransmitPath.isSome = true
  inHop : p.state = .tunnelEnabled → p.remoteTransmitPath.isSome = true
  running : p.state = .ringAllocated → p.ringsStopped = false
  live : p.destroyed = false

/-- What a part of `tbv_path_alloc_rings` comes to. -/
structure Sets (p : Path) (out : Out) : Prop where
  leads : Leads p out
  done : out.ret = 0 → Full out.path
  failed : out.ret ≠ 0 → Empty out.path

theorem Sets.after {p : Path} {out : Out} {next : Path → Out} (first : Leads p out)
    (rest : Sets out.path (next out.path)) : Sets p (out.bind next) :=
  ⟨first.bind rest.leads, rest.done, rest.failed⟩

theorem Clears.sets {p : Path} {out : Out} {ret : Int} (clears : Clears p ret out)
    (error : ret ≠ 0) : Sets p out :=
  ⟨clears.leads, fun ok => absurd (clears.ret.symm.trans ok) error, fun _ => clears.empty⟩

/-- A part that may fail, followed by the rest or by its error label. -/
theorem Sets.orElse {p : Path} {out : Out} {next : Path → Out} {release : Path → Int → Out}
    (first : Leads p out) (second : out.ret = 0 → Sets out.path (next out.path))
    (failed : out.ret ≠ 0 → Clears out.path out.ret (release out.path out.ret)) :
    Sets p (out.orElse next release) := by
  refine .after first ?_
  split
  · exact second ‹_›
  · exact (failed ‹_›).sets ‹_›

/-- Either no ring is in the table of throttled rings or the part succeeds. -/
def Safe (p : Path) (out : Out) : Prop := (∀ tx, p.throttled tx = false) ∨ out.ret = 0

section SetUp
variable {p : Path} {env : AllocEnv}

/-- A part that is safe is unthrottled when it fails in its first step. -/
theorem Safe.unthrottled {out : Out} {next : Path → Out} {release : Path → Int → Out}
    (safe : Safe p (out.orElse next release)) (error : out.ret ≠ 0)
    (kept : ∀ q ret, (release q ret).ret = ret) : ∀ tx, p.throttled tx = false := by
  refine safe.resolve_right fun ok => error ?_
  have is : (out.orElse next release).ret = (release out.path out.ret).ret := by
    unfold Out.orElse Out.bind
    dsimp only
    rw [if_neg error]
  rw [is, kept] at ok
  exact ok

theorem Safe.next {out : Out} {next : Path → Out} {release : Path → Int → Out}
    (safe : Safe p (out.orElse next release)) (done : out.ret = 0)
    (same : out.path.throttled = p.throttled) : Safe out.path (next out.path) := by
  refine safe.imp (fun none tx => by rw [same]; exact none tx) fun ok => ?_
  have is : (out.orElse next release).ret = (next out.path).ret := by
    unfold Out.orElse Out.bind
    dsimp only
    rw [if_pos done]
  rw [← is]
  exact ok

theorem releaseRxRing_ret (p : Path) (ret : Int) : (releaseRxRing p ret).ret = ret :=
  releaseInHop_ret ..

theorem releaseTxFrames_ret (p : Path) (dmaReady : Bool) (ret : Int) :
    (releaseTxFrames p dmaReady ret).ret = ret := releaseInHop_ret ..

theorem releaseRxFrames_ret (p : Path) (dmaReady : Bool) (ret : Int) :
    (releaseRxFrames p dmaReady ret).ret = ret := releaseInHop_ret ..

theorem releaseControl_ret (p : Path) (dmaReady : Bool) (ret : Int) :
    (releaseControl p dmaReady ret).ret = ret := releaseInHop_ret ..

theorem allocDataPackets_path (array : Bool) (allocs : Nat → Bool) :
    (∃ data, (allocDataPackets p array allocs).path = { p with dataPackets := data }) ∧
      ((allocDataPackets p array allocs).ret ≠ 0 → (allocDataPackets p array allocs).path = p) := by
  unfold allocDataPackets
  split
  · exact ⟨⟨_, rfl⟩, fun _ => rfl⟩
  split
  · exact ⟨⟨_, rfl⟩, fun _ => rfl⟩
  dsimp only
  split
  · exact ⟨⟨_, rfl⟩, fun error => absurd rfl error⟩
  · exact ⟨⟨_, rfl⟩, fun _ => rfl⟩

theorem sets_data (stage : Stage 6 p) (safe : Safe p (allocData p env true)) :
    Sets p (allocData p env true) := by
  have noData : p.dataPackets = none := by
    by_contra some
    have := stage.data (Option.isSome_iff_ne_none.mpr some)
    omega
  obtain ⟨⟨data, path⟩, failed⟩ := @allocDataPackets_path p env.dataArray env.dataBuf
  refine .orElse (leads_allocDataPackets noData ..) (fun done => ?_) fun error => ?_
  · rw [path]
    refine ⟨.stay ?_, fun _ => ⟨.inl rfl, ?_, by simp [stage.outHop], by simp,
      fun _ => stage.running, stage.live⟩, fun error => absurd rfl error⟩
    · funext q
      cases q with
      | running t =>
          have := stage.idle t
          simpa [Path.owned, Path.ringsStarted] using this.symm
      | tunnel out in_ => exact (stage.noTunnel out in_).symm
      | _ => rfl
    · rintro (_ | _)
      · exact stage.rxRing
      · exact stage.txRing
  · have unthrottled := safe.unthrottled error (releaseControl_ret · true)
    rw [failed error]
    exact clears_control stage unthrottled

theorem leads_allocControlPackets (none : p.controlPackets = false) (allocs : Bool) :
    Leads p (allocControlPackets p allocs) := by
  unfold allocControlPackets
  split
  · refine .take (by simp [Path.owned, none]) (by simp [Path.owned]) (fun q other => ?_)
      fun s needs => by cases needs
    cases q with
    | controlPackets => exact absurd rfl other
    | _ => rfl
  · exact .stay rfl

theorem sets_pools (stage : Stage 5 p) (safe : Safe p (allocPools p env true)) :
    Sets p (allocPools p env true) := by
  refine .orElse (leads_allocControlPackets stage.control env.control) (fun done => ?_)
    fun error => ?_
  · have later := safe.next done (by unfold allocControlPackets; split <;> rfl)
    cases allocs : env.control with
    | false =>
        rw [allocs] at done
        cases done
    | true =>
        rw [allocs] at later
        have higher : Stage 6 { p with controlPackets := true } := by
          obtain ⟨state, ring, out, rx, tf, rf, _, data, running, live⟩ := stage
          constructor <;> simp_all
        exact sets_data higher later
  · have unthrottled := safe.unthrottled error (releaseRxFrames_ret · true)
    cases allocs : env.control with
    | false => exact clears_rxFrames stage unthrottled
    | true =>
        rw [allocs] at error
        exact absurd rfl error

theorem allocFrames_path (tx : Bool) (frames : FrameEnv) :
    ((allocFrames p tx frames).ret = 0 →
        (allocFrames p tx frames).path = p.setFrames tx (some (p.cfg.ringSize tx))) ∧
      ((allocFrames p tx frames).ret ≠ 0 → (allocFrames p tx frames).path = p) := by
  unfold allocFrames
  split
  · exact ⟨fun done => by simp [eprobeDefer] at done, fun _ => rfl⟩
  split
  · exact ⟨fun done => by simp [enomem] at done, fun _ => rfl⟩
  dsimp only
  split
  · exact ⟨fun _ => rfl, fun error => absurd rfl error⟩
  · rename_i some
    exact ⟨fun done => absurd done some, fun _ => rfl⟩

theorem sets_rxFrames (stage : Stage 4 p) (safe : Safe p (allocRxFrames p env true)) :
    Sets p (allocRxFrames p env true) := by
  have none : p.frames false = none := by simpa using stage.rxFrames
  obtain ⟨done_path, failed_path⟩ := @allocFrames_path p false (env.frames false)
  refine .orElse (leads_allocFrames _ none (by simp [stage.rxRing]) (stage.idle false))
    (fun done => ?_) fun error => ?_
  · have later := safe.next done (by rw [done_path done]; rfl)
    rw [done_path done] at later ⊢
    have higher : Stage 5 (p.setFrames false (some (p.cfg.ringSize false))) := by
      obtain ⟨state, ring, out, rx, tf, _, control, data, running, live⟩ := stage
      constructor <;> simp_all [Path.setFrames]
    exact sets_pools higher later
  · have unthrottled := safe.unthrottled error (releaseTxFrames_ret · true)
    rw [failed_path error]
    exact clears_txFrames stage unthrottled

theorem sets_txFrames (stage : Stage 3 p) (safe : Safe p (allocTxFrames p env true)) :
    Sets p (allocTxFrames p env true) := by
  have none : p.frames true = none := by simpa using stage.txFrames
  obtain ⟨done_path, failed_path⟩ := @allocFrames_path p true (env.frames true)
  refine .orElse (leads_allocFrames _ none (by simp [stage.txRing]) (stage.idle true))
    (fun done => ?_) fun error => ?_
  · have later := safe.next done (by rw [done_path done]; rfl)
    rw [done_path done] at later ⊢
    have higher : Stage 4 (p.setFrames true (some (p.cfg.ringSize true))) := by
      obtain ⟨state, ring, out, rx, _, rf, control, data, running, live⟩ := stage
      constructor <;> simp_all [Path.setFrames]
    exact sets_rxFrames higher later
  · have unthrottled := safe.unthrottled error releaseRxRing_ret
    rw [failed_path error]
    exact clears_rxRing stage unthrottled

/-- The two rings are put in the table, or not, and nothing else changes. -/
theorem leads_configureRingThrottling (stage : Stage 3 p) (none : ∀ tx, p.throttled tx = false) :
    Leads p (configureRingThrottling p env) := by
  have record : ∀ (q : Path) (tx : Bool), q.ring tx = true → q.throttled tx = false →
      Leads q (recordThrottled q tx (env.recorded tx)) := by
    intro q tx ring out
    unfold recordThrottled
    split
    · refine .take (by simp [Path.owned, out]) (by simp [Path.owned, Path.setThrottled])
        (fun r other => ?_) fun s needs => ?_
      · cases r with
        | throttled t =>
            have ne : t ≠ tx := fun same => other (by rw [same])
            simp [Path.owned, Path.setThrottled, Function.update_of_ne ne]
        | _ => rfl
      · cases needs
        simp [Path.owned, ring]
    · exact .stay rfl
  refine ((record p true (by simp [stage.txRing]) (none true)).bind (record _ false ?_ ?_)).bind
    (.stay rfl)
  · unfold recordThrottled
    split <;> exact stage.rxRing
  · unfold recordThrottled
    split
    · simp [Path.setThrottled, none]
    · exact none false

theorem configureRingThrottling_path : ∃ throttled, (configureRingThrottling p env).path =
    { p with throttled := throttled } := by
  unfold configureRingThrottling recordThrottled Out.bind
  dsimp only
  split <;> split <;> exact ⟨_, rfl⟩

/-- Nothing of the call puts a ring in the table, or the call succeeds. -/
def Orderly (env : AllocEnv) (out : Out) : Prop := (∀ tx, env.recorded tx = false) ∨ out.ret = 0

theorem sets_rxRing (stage : Stage 2 p) (none : ∀ tx, p.throttled tx = false)
    (orderly : Orderly env (allocRxRing p env true)) : Sets p (allocRxRing p env true) := by
  unfold allocRxRing at orderly ⊢
  split at orderly
  · rw [if_pos ‹_›]
    have higher : Stage 3 (p.setRing false true) := by
      obtain ⟨state, _, out, rx, tf, rf, control, data, running, live⟩ := stage
      constructor <;> simp_all [Path.setRing]
    refine Sets.after (.take (by simp [Path.owned, stage.rxRing])
      (by simp [Path.owned, Path.setRing]) (fun q other => ?_) fun s needs => by cases needs) ?_
    · cases q with
      | ring t =>
          cases t with
          | true => simp [Path.owned, Path.setRing]
          | false => exact absurd rfl other
      | _ => rfl
    have clean : (∀ tx, env.recorded tx = false) →
        (configureRingThrottling (p.setRing false true) env).path = p.setRing false true :=
      fun nothing => by simp [configureRingThrottling, recordThrottled, Out.bind, nothing]
    obtain ⟨throttled, path⟩ := @configureRingThrottling_path (p.setRing false true) env
    refine .orElse (leads_configureRingThrottling higher none) (fun done => ?_) fun error => ?_
    · have stage3 : Stage 3 (configureRingThrottling (p.setRing false true) env).path := by
        rw [path]
        obtain ⟨state, _, out, rx, tf, rf, control, data, running, live⟩ := higher
        constructor <;> simp_all
      refine sets_txFrames stage3 ?_
      refine orderly.imp (fun nothing => ?_) fun ok => ?_
      · rw [clean nothing]
        exact none
      · simpa [Out.bind, Out.orElse, done] using ok
    · have nothing := orderly.resolve_right fun ok => error (by
        simp [Out.bind, Out.orElse, error, releaseRxRing_ret] at ok)
      rw [clean nothing]
      exact clears_rxRing higher none
  · rw [if_neg ‹_›]
    exact (clears_outHop stage none).sets (by decide)

theorem sets_outHop (stage : Stage 1 p) (none : ∀ tx, p.throttled tx = false)
    (orderly : Orderly env (allocOutHop p env true)) :
    Sets p (allocOutHop p env true) := by
  unfold allocOutHop at orderly ⊢
  cases answer : env.outHop with
  | error ret => exact (clears_txRing stage none).sets ret.2.ne
  | ok id =>
      rw [answer] at orderly
      have noOut : p.localTransmitPath = Option.none := by simpa using stage.outHop
      have higher : Stage 2 { p with localTransmitPath := some id } := by
        obtain ⟨state, ring, _, rx, tf, rf, control, data, running, live⟩ := stage
        constructor <;> simp_all
      refine .after (.take (by simp [Path.owned, noOut]) (by simp [Path.owned]) (fun q other => ?_)
        fun s needs => by cases needs) (sets_rxRing higher none orderly)
      cases q with
      | outHop other' =>
          have ne : (id == other') = false :=
            beq_eq_false_iff_ne.mpr fun same => other (by rw [same])
          simp [Path.owned, noOut, ne]
      | tunnel out in_ => rcases stage.state with state | state <;> simp [Path.owned, state]
      | _ => rfl

theorem sets_txRing (stage : Stage 0 p) (none : ∀ tx, p.throttled tx = false)
    (orderly : Orderly env (allocTxRing p env true)) :
    Sets p (allocTxRing p env true) := by
  unfold allocTxRing at orderly ⊢
  split at orderly
  · rw [if_pos ‹_›]
    have higher : Stage 1 (p.setRing true true) := by
      obtain ⟨state, _, out, rx, tf, rf, control, data, running, live⟩ := stage
      constructor <;> simp_all [Path.setRing]
    refine .after (.take (by simp [Path.owned, stage.txRing])
      (by simp [Path.owned, Path.setRing]) (fun q other => ?_) fun s needs => by cases needs)
      (sets_outHop higher none orderly)
    cases q with
    | ring t =>
        cases t with
        | true => exact absurd rfl other
        | false => simp [Path.owned, Path.setRing]
    | _ => rfl
  · rw [if_neg ‹_›]
    exact (clears_inHop stage none).sets (by decide)

theorem leads_createTrace (allocs : Bool) : Leads p (createTrace p allocs) := by
  unfold createTrace
  split
  · rename_i both
    simp only [Bool.and_eq_true, Bool.not_eq_true'] at both
    refine .take (by simp [Path.owned, both.1]) (by simp [Path.owned]) (fun q other => ?_)
      fun s needs => by cases needs
    cases q with
    | trace => exact absurd rfl other
    | _ => rfl
  · exact .stay rfl

theorem leads_createTxWq (wants allocs : Bool) : Leads p (createTxWq p wants allocs) := by
  unfold createTxWq
  split
  · rename_i all
    simp only [Bool.and_eq_true, Bool.not_eq_true'] at all
    refine .take (by simp [Path.owned, all.1.1]) (by simp [Path.owned]) (fun q other => ?_)
      fun s needs => by cases needs
    cases q with
    | txWq => exact absurd rfl other
    | _ => rfl
  · exact .stay rfl

theorem createTraceAndWq_path : ∃ trace wq, ((createTrace p env.trace).bind
    (createTxWq · env.wantsWq env.wq)).path = { p with txTrace := trace, txWq := wq } := by
  unfold createTrace createTxWq Out.bind
  dsimp only
  split <;> split <;> exact ⟨_, _, rfl⟩

theorem leads_allocInHop (none : p.remoteTransmitPath = none)
    (noTunnel : p.state ≠ .tunnelEnabled) (wanted : Nat) (answer : Except Errno Nat) :
    Leads p (allocInHop p wanted answer) := by
  have takes : ∀ id, Moves rules p.owned (.take (.inHop id))
      ({ p with remoteTransmitPath := some id } : Path).owned := by
    intro id
    refine .take (by simp [Path.owned, none]) (fun q other => ?_) (fun s needs => by cases needs)
      fun _ => by simp [Path.owned, none]
    cases q with
    | inHop other' =>
        have ne : (id == other') = false :=
          beq_eq_false_iff_ne.mpr fun same => other (by rw [same])
        simp [Path.owned, none, ne]
    | tunnel out in_ => simp [Path.owned, noTunnel]
    | _ => rfl
  unfold allocInHop
  split
  · exact .stay rfl
  · rename_i id
    split
    · exact Legal.of_moves (takes id)
    · refine .cons (takes id) (Legal.of_moves (.give (by simp [Path.owned, none])
        (fun q other => ?_) fun _ q pins => ?_))
      · cases q with
        | inHop other' =>
            have ne : (id == other') = false :=
              beq_eq_false_iff_ne.mpr fun same => other (by rw [same])
            simp [Path.owned, none, ne]
        | tunnel out in_ => simp [Path.owned, noTunnel]
        | _ => rfl
      · obtain ⟨⟨⟩⟩ := pins
        simp [Path.owned, noTunnel]

theorem allocInHop_path (wanted : Nat) (answer : Except Errno Nat) :
    ((allocInHop p wanted answer).ret = 0 →
        (allocInHop p wanted answer).path = { p with remoteTransmitPath := some wanted }) ∧
      ((allocInHop p wanted answer).ret ≠ 0 → (allocInHop p wanted answer).path = p) := by
  unfold allocInHop
  split
  · rename_i ret
    exact ⟨fun done => absurd done ret.2.ne, fun _ => rfl⟩
  · split
    · rename_i same
      subst same
      exact ⟨fun _ => rfl, fun error => absurd rfl error⟩
    · exact ⟨fun done => by simp [ebusy] at done, fun _ => rfl⟩

theorem sets_allocRings (empty : Empty p) (orderly : Orderly env (allocRings p env true)) :
    Sets p (allocRings p env true) := by
  unfold allocRings at orderly ⊢
  rw [if_pos empty.stage.state] at orderly ⊢
  refine .after ((leads_createTrace _).bind (leads_createTxWq ..)) ?_
  obtain ⟨trace, wq, path⟩ := @createTraceAndWq_path p env
  have following : ∀ next : Path → Out, Orderly env (((createTrace p env.trace).bind
      (createTxWq · env.wantsWq env.wq)).bind next) → Orderly env (next
        { p with txTrace := trace, txWq := wq }) := fun next => by
    rw [← path]
    exact id
  replace orderly := following _ orderly
  rw [path]
  have empty : Empty { p with txTrace := trace, txWq := wq } := by
    obtain ⟨⟨state, ring, out, rx, tf, rf, control, data, running, live⟩, remote, none⟩ := empty
    exact ⟨by constructor <;> simp_all, remote, none⟩
  clear following
  generalize ({ p with txTrace := trace, txWq := wq } : Path) = q at empty orderly ⊢
  cases wants : q.cfg.receivePath with
  | none =>
      rw [wants] at orderly
      exact sets_txRing empty.stage empty.unthrottled orderly
  | some wanted =>
      rw [wants] at orderly
      have noTunnel : q.state ≠ .tunnelEnabled := by
        rcases empty.stage.state with is | is <;> simp [is]
      obtain ⟨done_path, failed_path⟩ := @allocInHop_path q wanted env.inHop
      refine .after (leads_allocInHop empty.remote noTunnel wanted _) ?_
      unfold Out.orElse Out.bind at orderly
      dsimp only at orderly
      split
      · rename_i done
        rw [if_pos done, done_path done] at orderly
        rw [done_path done]
        have stage : Stage 0 { q with remoteTransmitPath := some wanted } := by
          obtain ⟨⟨state, ring, out, rx, tf, rf, control, data, running, live⟩, remote, none⟩ :=
            empty
          constructor <;> simp_all
        exact sets_txRing stage empty.unthrottled orderly
      · rename_i error
        rw [failed_path error]
        exact ⟨.stay rfl, fun done => absurd done error, fun _ => empty⟩

end SetUp

/-! ## Running -/

section Running
variable {p : Path}

theorem legal_start {after : Res → Nat} (ring : ∀ tx, p.ring tx = true)
    (before : ∀ tx, p.owned (.running tx) = 0) (on : ∀ tx, after (.running tx) = 1)
    (rest : ∀ q, (∀ tx, q ≠ .running tx) → after q = p.owned q) :
    Legal rules p.owned startActs after := by
  have first : Moves rules p.owned (.take (.running true))
      (Function.update p.owned (.running true) 1) := by
    refine .take ?_ (fun q other => Function.update_of_ne other ..) (fun s needs => ?_)
      fun _ => before true
    · simp [before]
    · cases needs
      simp [Path.owned, ring]
  refine .cons first (Legal.of_moves (.take ?_ (fun q other => ?_) (fun s needs => ?_) fun _ => ?_))
  · rw [on, Function.update_of_ne (by simp), before]
  · by_cases same : q = .running true
    · subst same
      simp [on]
    · rw [Function.update_of_ne same]
      refine rest q fun tx => ?_
      cases tx with
      | true => exact same
      | false => exact other
  · cases needs
    rw [Function.update_of_ne (by simp)]
    simp [Path.owned, ring]
  · rw [Function.update_of_ne (by simp), before]

theorem not_pins_running {q : Res} {tx : Bool} : ¬ Pins q (.running tx) := by
  rintro ⟨⟨⟩⟩

/-- Both rings are stopped, in either order. -/
theorem legal_stop {after : Res → Nat} (one : Bool) (before : ∀ tx, p.owned (.running tx) = 1)
    (off : ∀ tx, after (.running tx) = 0)
    (rest : ∀ q, (∀ tx, q ≠ .running tx) → after q = p.owned q) :
    Legal rules p.owned [.give (.running one), .give (.running !one)] after := by
  have first : Moves rules p.owned (.give (.running one))
      (Function.update p.owned (.running one) 0) := by
    refine .give ?_ (fun q other => Function.update_of_ne other ..) fun _ q pins =>
      absurd pins not_pins_running
    simp [before]
  refine .cons first
    (Legal.of_moves (.give ?_ (fun q other => ?_) fun _ q pins => absurd pins not_pins_running))
  · rw [off, Function.update_of_ne (by simp), before]
  · by_cases same : q = .running one
    · subst same
      simp [off]
    · rw [Function.update_of_ne same]
      refine rest q fun tx => ?_
      cases tx <;> cases one <;> first | exact same | exact other

/-- What an operation on a path comes to that has its rings before and after. -/
structure Keeps (p : Path) (out : Out) : Prop where
  leads : Leads p out
  full : Full out.path

theorem Keeps.bind {out : Out} {next : Path → Out} (first : Keeps p out)
    (second : Keeps out.path (next out.path)) : Keeps p (out.bind next) :=
  ⟨first.leads.bind second.leads, second.full⟩

theorem Full.keeps (full : Full p) (ret : Int) : Keeps p ⟨p, [], ret⟩ := ⟨.stay rfl, full⟩

theorem owned_running (started : p.ringsStarted = true) (tx : Bool) :
    p.owned (.running tx) = (!p.ringsStopped).toNat := by
  simp [Path.owned, started]

theorem keeps_startRings (full : Full p) (posted : Int) : Keeps p (startRings p posted) := by
  unfold startRings
  split
  · rename_i allocated
    have down : p.ringsStarted = false := by simp [Path.ringsStarted, allocated]
    have up : Path.ringsStarted { p with state := .ringStarted } = true := by
      simp [Path.ringsStarted]
    refine ⟨legal_start full.ring (fun tx => by simp [Path.owned, down]) (fun tx => ?_)
      fun q other => ?_, .inr up, full.ring, full.outHop, by simp, by simp, full.live⟩
    · rw [owned_running up]
      simp [full.running allocated]
    · cases q with
      | running tx => exact absurd rfl (other tx)
      | tunnel out in_ => simp [Path.owned, allocated]
      | _ => rfl
  · exact full.keeps _

/-- The in hop ID that a path keeps is given back when programming the paths fails. -/
theorem keeps_enablePaths (full : Full p) (started : p.state = .ringStarted) {remote : Nat}
    (is : p.remoteTransmitPath = some remote) (enabled : Int) :
    Keeps p (enablePaths p remote enabled) := by
  have up : p.ringsStarted = true := by simp [Path.ringsStarted, started]
  unfold enablePaths
  split
  · rw [is]
    refine ⟨.give (by simp [Path.owned, is]) (by simp [Path.owned]) (fun q other => ?_)
      fun q pins => ?_, .inr up, full.ring, full.outHop, by simp [started], by simp [started],
      full.live⟩
    · cases q with
      | inHop other' =>
          have ne : (remote == other') = false :=
            beq_eq_false_iff_ne.mpr fun same => other (by rw [same])
          simp [Path.owned, is, ne]
      | tunnel out in_ => simp [Path.owned, started]
      | _ => rfl
    · obtain ⟨⟨⟩⟩ := pins
      simp [Path.owned, started]
  · obtain ⟨out, isOut⟩ := Option.isSome_iff_exists.mp full.outHop
    rw [isOut]
    refine ⟨.take (by simp [Path.owned, started]) (by simp [Path.owned, is])
      (fun q other => ?_) fun s needs => ?_, .inr (by simp [Path.ringsStarted]), full.ring,
      rfl, fun _ => by simp [is], by simp, full.live⟩
    · cases q with
      | tunnel out' in_ =>
          have ne : ¬ (out = out' ∧ remote = in_) := fun same => other (by rw [same.1, same.2])
          simp only [Path.owned, isOut, is, started]
          simpa using ne
      | outHop id => simp [Path.owned, isOut]
      | running tx => simp [Path.owned, Path.ringsStarted, started]
      | _ => rfl
    · cases needs with
      | tunnelOut => simp [Path.owned, isOut]
      | tunnelIn => simp [Path.owned, is]
      | tunnelRing => simp [Path.owned, full.ring]

theorem keeps_enableTunnel (full : Full p) (remote : Nat) (inHop : Except Errno Nat)
    (enabled : Int) : Keeps p (enableTunnel p remote inHop enabled) := by
  unfold enableTunnel
  split
  · exact full.keeps _
  rename_i started
  rw [not_not] at started
  split
  · rename_i id is
    split
    · rename_i same
      subst same
      exact keeps_enablePaths full started is enabled
    · exact full.keeps _
  · rename_i none
    obtain ⟨done_path, failed_path⟩ := @allocInHop_path p remote inHop
    have leads := leads_allocInHop none (by simp [started]) remote inHop
    have whole : Full (allocInHop p remote inHop).path → Keeps p (allocInHop p remote inHop) :=
      fun after => ⟨leads, after⟩
    unfold Out.orElse
    by_cases done : (allocInHop p remote inHop).ret = 0
    · have full' : Full { p with remoteTransmitPath := some remote } :=
        ⟨full.state, full.ring, full.outHop, fun _ => rfl, full.running, full.live⟩
      rw [← done_path done] at full'
      refine (whole full').bind ?_
      rw [if_pos done]
      exact keeps_enablePaths full' (by rw [done_path done]; exact started)
        (by rw [done_path done]) enabled
    · rw [← failed_path done] at full
      refine (whole full).bind ?_
      rw [if_neg done]
      exact full.keeps _

theorem keeps_ringBarrier (full : Full p) (restart : Bool) (unretired : Nat) (posted : Int) :
    Keeps p (ringBarrier p restart unretired posted) := by
  unfold ringBarrier
  split
  · exact full.keeps _
  rename_i runs
  simp only [Bool.or_eq_true, Bool.not_eq_true', full.ring, Bool.true_eq_false, or_false,
    Bool.not_eq_false] at runs
  have noState : p.state ≠ .ringAllocated := fun is => by simp [Path.ringsStarted, is] at runs
  have stop : Keeps p (if p.ringsStopped then ⟨p, [], 0⟩
      else ⟨{ p with ringsStopped := true }, stopActs, 0⟩) := by
    split
    · exact full.keeps _
    · rename_i on
      refine ⟨legal_stop true (fun tx => by simp [owned_running runs, on]) (fun tx => ?_)
        fun q other => ?_, .inr runs, full.ring, full.outHop, full.inHop,
        fun is => absurd is noState, full.live⟩
      · simp [Path.owned]
      · cases q with
        | running tx => exact absurd rfl (other tx)
        | _ => rfl
  refine stop.bind ?_
  have halted : (if p.ringsStopped then ⟨p, [], 0⟩
      else ⟨{ p with ringsStopped := true }, stopActs, 0⟩ : Out).path =
      { p with ringsStopped := true } := by
    split
    · rename_i already
      rw [← already]
    · rfl
  have full' := stop.full
  rw [halted] at full' ⊢
  split
  · exact full'.keeps _
  split
  · exact full'.keeps _
  · refine ⟨legal_start full.ring (fun tx => by simp [Path.owned]) (fun tx => ?_) fun q other => ?_,
      .inr runs, full.ring, full.outHop, full.inHop, fun _ => rfl, full.live⟩
    · have up : Path.ringsStarted { p with ringsStopped := false } = true := runs
      rw [owned_running up]
      rfl
    · cases q with
      | running tx => exact absurd rfl (other tx)
      | _ => rfl

end Running

/-! ## Taking down -/

section TakeDown
variable {p : Path}

/-- What holds of a path that is not destroyed. -/
def Whole (p : Path) : Prop := Empty p ∨ Full p

/-- No ring runs, no tunnel is up, and a ring that is gone left nothing behind. -/
structure Quiet (p : Path) : Prop where
  down : p.ringsStarted = false
  bare : ∀ tx, p.ring tx = false → p.frames tx = none ∧ p.throttled tx = false

theorem Quiet.idle (quiet : Quiet p) (tx : Bool) : p.owned (.running tx) = 0 := by
  simp [Path.owned, quiet.down]

theorem Quiet.noTunnel (quiet : Quiet p) (out in_ : Nat) : p.owned (.tunnel out in_) = 0 := by
  have down := quiet.down
  simp only [Path.ringsStarted, Bool.or_eq_false_iff, decide_eq_false_iff_not] at down
  simp [Path.owned, down.2]

theorem Empty.quiet (empty : Empty p) : Quiet p := by
  refine ⟨empty.stage.down, ?_⟩
  rintro (_ | _) -
  · exact ⟨by simpa using empty.stage.rxFrames, empty.unthrottled _⟩
  · exact ⟨by simpa using empty.stage.txFrames, empty.unthrottled _⟩

/-- One ring goes with its table entry and its frames. -/
theorem dropRing_path (quiet : Quiet p) (tx : Bool) : (dropRing p tx true).path =
    ((p.setThrottled tx false).setFrames tx none).setRing tx false := by
  unfold dropRing Out.bind
  split
  · rename_i ring
    exact congrArg (Path.setRing · tx false) (freeFrames_path (p := p.setThrottled tx false) ring)
  · rename_i gone
    rw [Bool.not_eq_true] at gone
    obtain ⟨frames, throttled⟩ := quiet.bare tx gone
    have one : p.setThrottled tx false = p := by
      unfold Path.setThrottled
      rw [← throttled, Function.update_eq_self]
    have two : p.setFrames tx none = p := by
      unfold Path.setFrames
      rw [← frames, Function.update_eq_self]
    have three : p.setRing tx false = p := by
      unfold Path.setRing
      rw [← gone, Function.update_eq_self]
    rw [one, two, three]

theorem leads_dropRing (quiet : Quiet p) (tx : Bool) : Leads p (dropRing p tx true) := by
  unfold dropRing
  split
  swap
  · exact .stay rfl
  rename_i ring
  have forgets : Leads p ⟨p.setThrottled tx false,
      if p.throttled tx then [.give (.throttled tx)] else [], 0⟩ := by
    split
    · rename_i is
      refine .give (by simp [Path.owned, is]) (by simp [Path.owned, Path.setThrottled])
        (fun q other => ?_) fun q pins => by obtain ⟨⟨⟩⟩ := pins
      cases q with
      | throttled t =>
          have ne : t ≠ tx := fun same => other (by rw [same])
          simp [Path.owned, Path.setThrottled, Function.update_of_ne ne]
      | _ => rfl
    · rename_i no
      rw [Bool.not_eq_true] at no
      refine .stay ?_
      unfold Path.setThrottled
      rw [← no, Function.update_eq_self]
  refine forgets.bind (.bind (leads_freeFrames (quiet.idle tx)) ?_)
  have emptied := @freeFrames_path (p.setThrottled tx false) tx true ring
  rw [emptied]
  have still : (((p.setThrottled tx false).setFrames tx none).ring tx) = true := ring
  refine .give (by simp [Path.owned, still]) (by simp [Path.owned, Path.setRing])
    (fun q other => ?_) fun q pins => ?_
  · cases q with
    | ring t =>
        have ne : t ≠ tx := fun same => other (by rw [same])
        simp [Path.owned, Path.setRing, Function.update_of_ne ne]
    | _ => rfl
  · rcases pins with ⟨⟨⟩⟩ | ⟨⟩
    · simp [Path.owned, Path.setThrottled, Path.setFrames]
    · simp [Path.owned, Path.setFrames]
    · exact quiet.idle tx
    · exact quiet.noTunnel ..

theorem Quiet.dropRing (quiet : Quiet p) (tx : Bool) :
    Quiet (((p.setThrottled tx false).setFrames tx none).setRing tx false) := by
  refine ⟨quiet.down, fun t gone => ?_⟩
  by_cases dir : t = tx
  · subst dir
    simp [Path.setRing, Path.setFrames, Path.setThrottled]
  · have before := quiet.bare t
    simp only [Path.setRing, Path.setFrames, Path.setThrottled, Function.update_of_ne dir] at gone ⊢
    exact before gone

theorem leads_dropTraceAndWq (quiet : Quiet p) : Leads p (dropTraceAndWq p) := by
  have trace : Leads p ⟨{ p with txTrace := false }, if p.txTrace then [.give .trace] else [], 0⟩ := by
    split
    · rename_i is
      refine .give (by simp [Path.owned, is]) (by simp [Path.owned]) (fun q other => ?_)
        fun q pins => by obtain ⟨⟨⟩⟩ := pins
      cases q with
      | trace => exact absurd rfl other
      | _ => rfl
    · rename_i no
      rw [Bool.not_eq_true] at no
      exact .stay (by rw [← no])
  have stopped : ∀ q : Path, Quiet q →
      ({ q with state := .stopped, destroyed := true } : Path).owned = q.owned := by
    intro q quiet
    funext r
    cases r with
    | running tx => exact (quiet.idle tx).symm
    | tunnel out in_ => exact (quiet.noTunnel out in_).symm
    | _ => rfl
  have wq : Leads { p with txTrace := false } ⟨{ p with txTrace := false, txWq := false },
      if p.txWq then [.give .txWq] else [], 0⟩ := by
    split
    · rename_i is
      refine .give (by simp [Path.owned, is]) (by simp [Path.owned]) (fun q other => ?_)
        fun q pins => by obtain ⟨⟨⟩⟩ := pins
      cases q with
      | txWq => exact absurd rfl other
      | _ => rfl
    · rename_i no
      rw [Bool.not_eq_true] at no
      exact .stay (by rw [← no])
  refine trace.append ?_
  unfold Leads at wq
  rwa [← stopped { p with txTrace := false, txWq := false } ⟨quiet.down, quiet.bare⟩] at wq

/-- The tunnel goes down before the in hop ID it comes in on. -/
theorem leads_disableTunnel (full : Full p) (up : p.state = .tunnelEnabled) :
    Leads p (disableTunnel p 0) ∧ (disableTunnel p 0).ret = 0 ∧ (disableTunnel p 0).path =
      { p with remoteTransmitPath := none, state := .ringStarted } := by
  obtain ⟨out, isOut⟩ := Option.isSome_iff_exists.mp full.outHop
  obtain ⟨in_, isIn⟩ := Option.isSome_iff_exists.mp (full.inHop up)
  have programmed : Moves rules p.owned (.give (.tunnel out in_))
      ({ p with state := .ringStarted } : Path).owned := by
    refine .give (by simp [Path.owned, up, isOut, isIn]) (fun q other => ?_) fun _ q pins => ?_
    · cases q with
      | tunnel out' in' =>
          have ne : (out == out' && in_ == in') = false := by
            simpa using fun one two => other (by rw [one, two])
          simp [Path.owned, isOut, isIn, up, ne]
      | running tx => simp [Path.owned, Path.ringsStarted, up]
      | _ => rfl
    · obtain ⟨⟨⟩⟩ := pins
  have released := @leads_releaseInHop { p with state := .ringStarted }
    (fun out in_ => by simp [Path.owned]) 0
  rw [releaseInHop_some (p := { p with state := .ringStarted }) isIn] at released
  have is : disableTunnel p 0 = ⟨{ p with remoteTransmitPath := none, state := .ringStarted },
      [.give (.tunnel out in_), .give (.inHop in_)], 0⟩ := by
    unfold disableTunnel
    rw [if_neg (not_not.mpr up), if_neg (by decide)]
    split
    · rename_i out' in' isOut' isIn'
      cases isOut.symm.trans isOut'
      cases isIn.symm.trans isIn'
      rfl
    · rename_i no
      exact absurd isIn (no out in_ isOut)
  rw [is]
  exact ⟨.cons programmed released, rfl, rfl⟩

/-- What the first part of `tbv_path_destroy` comes to. -/
structure Quiesced (p : Path) (out : Out) : Prop where
  leads : Leads p out
  quiet : Quiet out.path
  remote : out.path.remoteTransmitPath = none

theorem leads_stopRings (full : Full p) (noTunnel : p.state ≠ .tunnelEnabled) :
    Leads p (stopRings p p.ringsStarted) ∧ Quiet (stopRings p p.ringsStarted).path ∧
      (stopRings p p.ringsStarted).path.remoteTransmitPath = p.remoteTransmitPath := by
  have bare : ∀ tx, p.ring tx = false → p.frames tx = none ∧ p.throttled tx = false :=
    fun tx gone => absurd (full.ring tx) (by simp [gone])
  unfold stopRings
  split
  · rename_i started
    split
    · rename_i already
      refine ⟨.stay (funext fun q => ?_), ⟨by simp [Path.ringsStarted], bare⟩, rfl⟩
      cases q with
      | running tx => simp [Path.owned, already]
      | tunnel out in_ => simp [Path.owned, noTunnel]
      | _ => rfl
    · rename_i on
      rw [if_pos (full.ring false), if_pos (full.ring true)]
      refine ⟨legal_stop false (fun tx => by simp [owned_running started, on]) (fun tx => ?_)
        fun q other => ?_, ⟨by simp [Path.ringsStarted], bare⟩, rfl⟩
      · simp [Path.owned]
      · cases q with
        | running tx => exact absurd rfl (other tx)
        | tunnel out in_ => simp [Path.owned, noTunnel]
        | _ => rfl
  · rename_i down
    exact ⟨.stay rfl, ⟨by simpa using down, bare⟩, rfl⟩

theorem quiesced (whole : Whole p) : Quiesced p (quiesce p 0) := by
  unfold quiesce
  dsimp only
  rcases whole with empty | full
  · have noTunnel : p.state ≠ .tunnelEnabled := by
      rcases empty.stage.state with is | is <;> simp [is]
    have stays : stopRings p p.ringsStarted = ⟨p, [], 0⟩ := by
      unfold stopRings
      rw [empty.stage.down, if_neg Bool.false_ne_true]
    simp only [if_neg noTunnel, Out.bind, stays, List.nil_append]
    refine ⟨leads_releaseInHop empty.stage.noTunnel 0, ?_, ?_⟩
    · rw [releaseInHop_path]
      exact ⟨empty.quiet.down, empty.quiet.bare⟩
    · rw [releaseInHop_path]
  · by_cases up : p.state = .tunnelEnabled
    · obtain ⟨leads, ret, path⟩ := leads_disableTunnel full up
      have started : p.ringsStarted = true := by simp [Path.ringsStarted, up]
      have lowered : Full { p with remoteTransmitPath := none, state := .ringStarted } :=
        ⟨.inr (by simp [Path.ringsStarted]), full.ring, full.outHop, by simp, by simp, full.live⟩
      have still : Path.ringsStarted { p with remoteTransmitPath := none, state := .ringStarted } =
          p.ringsStarted := by simp [Path.ringsStarted, up]
      obtain ⟨stops, quiet, remote⟩ := leads_stopRings lowered (by simp)
      rw [still] at stops quiet remote
      simp only [if_pos up, Out.bind, ret, ne_eq, not_true_eq_false, if_false, List.append_nil, path]
      exact ⟨leads.append (path ▸ stops), quiet, remote⟩
    · obtain ⟨stops, quiet, remote⟩ := leads_stopRings full up
      simp only [if_neg up, Out.bind, List.nil_append]
      refine ⟨stops.append (leads_releaseInHop quiet.noTunnel 0), ?_, ?_⟩
      · rw [releaseInHop_path]
        exact ⟨quiet.down, quiet.bare⟩
      · rw [releaseInHop_path]

theorem freeDataPackets_path : (freeDataPackets p).path = { p with dataPackets := none } := by
  unfold freeDataPackets
  split
  · rfl
  · rename_i none
    rw [← none]

/-- What is left of a path when its rings and its out hop ID are gone. -/
def bare (p : Path) : Path :=
  let noRx := ((p.setThrottled false false).setFrames false none).setRing false false
  ((({ noRx with localTransmitPath := none } : Path).setThrottled true false).setFrames true
    none).setRing true false

theorem leads_destroy (whole : Whole p) : Leads p (destroy p 0 true) ∧
    (destroy p 0 true).path = { bare (quiesce p 0).path with
      dataPackets := none, controlPackets := false, txTrace := false, txWq := false,
      state := .stopped, destroyed := true } := by
  have first := quiesced whole
  have noRx := first.quiet.dropRing false
  have noOutHop : Quiet (dropOutHop ((((quiesce p 0).path.setThrottled false false).setFrames false
      none).setRing false false)).path := ⟨noRx.down, noRx.bare⟩
  have noTx := noOutHop.dropRing true
  constructor
  · refine first.leads.bind (.bind (leads_dropRing first.quiet false) ?_)
    rw [dropRing_path first.quiet]
    refine .bind (leads_dropOutHop noRx.noTunnel rfl) (.bind (leads_dropRing noOutHop true) ?_)
    rw [dropRing_path noOutHop]
    refine .bind leads_freeDataPackets (.bind leads_freeControlPackets ?_)
    rw [freeDataPackets_path]
    exact leads_dropTraceAndWq ⟨noTx.down, noTx.bare⟩
  · unfold destroy Out.bind
    dsimp only
    rw [dropRing_path first.quiet]
    rw [dropRing_path noOutHop, freeDataPackets_path]
    rfl

theorem destroy_owned (whole : Whole p) : (destroy p 0 true).path.owned = fun _ => 0 := by
  obtain ⟨-, path⟩ := leads_destroy whole
  rw [path]
  funext r
  have remote := (quiesced whole).remote
  cases r with
  | inHop id => simp [Path.owned, bare, remote, Path.setRing, Path.setFrames, Path.setThrottled]
  | ring tx | throttled tx | frames tx | buf tx i | dma tx i =>
      cases tx <;> simp [Path.owned, bare, Path.frameCount, Path.setRing, Path.setFrames,
        Path.setThrottled]
  | _ => simp [Path.owned, bare, Path.ringsStarted, Path.setRing, Path.setFrames,
      Path.setThrottled]

end TakeDown

/-! ## Runs -/

section Runs
variable {p : Path}

/-- The calls that the release rests on: the rings' DMA device is there when frames are mapped and
unmapped, disabling the tunnel succeeds, and a setup that fails has put no ring in the table of
throttled rings. -/
def Sound (p : Path) : Call → Prop
  | .allocRings env dmaReady => dmaReady = true ∧ Orderly env (allocRings p env dmaReady)
  | .destroy disabled dmaReady => disabled = 0 ∧ dmaReady = true
  | _ => True

/-- A path is whole until it is destroyed, and owns nothing from then on. -/
structure Steady (p : Path) : Prop where
  live : p.destroyed = false → Whole p
  gone : p.destroyed = true → p.owned = fun _ => 0

theorem Empty.live (empty : Empty p) : p.destroyed = false := empty.stage.live

theorem steady_step {next : Path} {call : Call} {acts : List (Act Res)} (steady : Steady p)
    (sound : Sound p call) (taken : step p call = some (next, acts)) :
    Steady next ∧ Legal rules p.owned acts next.owned := by
  unfold step at taken
  split at taken
  · cases taken
  rename_i live
  rw [Bool.not_eq_true] at live
  have whole := steady.live live
  obtain ⟨rfl, rfl⟩ := Prod.mk.inj (Option.some.inj taken)
  have ofKeeps : ∀ out, Keeps p out → Steady out.path ∧ Leads p out := fun out keeps =>
    ⟨⟨fun _ => .inr keeps.full, fun gone => by simp [keeps.full.live] at gone⟩, keeps.leads⟩
  have stays : Steady p ∧ Legal rules p.owned [] p.owned := ⟨steady, .nil _⟩
  cases call with
  | allocRings env dmaReady =>
      obtain ⟨rfl, orderly⟩ := sound
      rcases whole with empty | full
      · obtain ⟨leads, done, failed⟩ := sets_allocRings empty orderly
        refine ⟨?_, leads⟩
        by_cases ok : (allocRings p env true).ret = 0
        · exact ⟨fun _ => .inr (done ok), fun gone => by simp [Path.call, (done ok).live] at gone⟩
        · exact ⟨fun _ => .inl (failed ok),
            fun gone => by simp [Path.call, (failed ok).live] at gone⟩
      · refine ofKeeps _ ?_
        dsimp only [Path.call]
        unfold allocRings
        rw [if_neg]
        · exact full.keeps _
        · rintro (is | is) <;> rcases full.state with other | other <;>
            simp [Path.ringsStarted, is] at other
  | startRings posted =>
      rcases whole with empty | full
      · have not : p.state ≠ .ringAllocated := by
          rcases empty.stage.state with is | is <;> simp [is]
        simpa only [Path.call, startRings, if_neg not] using stays
      · exact ofKeeps _ (keeps_startRings full posted)
  | enableTunnel remote inHop enabled =>
      rcases whole with empty | full
      · have not : p.state ≠ .ringStarted := by
          rcases empty.stage.state with is | is <;> simp [is]
        simpa only [Path.call, enableTunnel, if_pos not] using stays
      · exact ofKeeps _ (keeps_enableTunnel full remote inHop enabled)
  | ringBarrier restart unretired posted =>
      rcases whole with empty | full
      · simpa only [Path.call, ringBarrier, empty.stage.down, Bool.not_false, Bool.true_or,
          if_true] using stays
      · exact ofKeeps _ (keeps_ringBarrier full restart unretired posted)
  | destroy disabled dmaReady =>
      obtain ⟨rfl, rfl⟩ := sound
      obtain ⟨leads, path⟩ := leads_destroy whole
      refine ⟨⟨fun live' => ?_, fun _ => destroy_owned whole⟩, leads⟩
      simp [Path.call, path] at live'

theorem empty_init (cfg : PathConfig) : Empty { cfg } :=
  ⟨⟨.inl rfl, rfl, rfl, rfl, rfl, rfl, rfl, by simp, rfl, rfl⟩, rfl, fun _ => rfl⟩

theorem owned_init (cfg : PathConfig) : Path.owned { cfg } = fun _ => 0 := by
  funext r
  cases r <;> simp [Path.owned, Path.frameCount, Path.ringsStarted]

/-- In every run of a path nothing is taken without what it refers to and nothing is given back
that something still held refers to; in particular no buffer is unmapped while its ring runs.  A
destroyed path has given back all it took. -/
theorem destroy_releases {cfg : PathConfig} {log : List (Act Res)}
    (performs : Performs step Sound { cfg } log p) :
    Legal rules (fun _ => 0) log p.owned ∧
      (∀ before later r q, log = before ++ .give r :: later → Pins q r →
        takes q before = gives q before) ∧
      (p.destroyed = true → ∀ r, takes r log = gives r log) := by
  have init : Steady { cfg } :=
    ⟨fun _ => .inl (empty_init cfg), fun gone => Bool.noConfusion gone⟩
  obtain ⟨steady, legal⟩ := performs.legal init steady_step
  rw [owned_init] at legal
  refine ⟨legal, ?_, ?_⟩
  · rintro before later r q rfl pins
    exact legal.unpinned_single trivial pins
  · intro destroyed
    rw [steady.gone destroyed] at legal
    exact legal.balanced

def twoFrames : PathConfig :=
  { txRingSize := 2, rxRingSize := 2, receivePath := some 8, apple := false }

/-- Setting it up finds no memory for its second RX buffer. -/
def noSecondBuf : AllocEnv where
  inHop := .ok 8
  outHop := .ok 9
  frames := fun tx => if tx then {} else { fault := fun i => if i = 1 then some .noBuf else none }

/-- The second attempt succeeds, the tunnel comes up, a barrier stops the rings, and the path
goes. -/
theorem destroy_releases_twoFrames : ∃ (log : List (Act Res)) (p : Path),
    Performs step Sound { cfg := twoFrames } log p ∧ p.destroyed = true ∧
      takes (.dma true 1) log = 2 ∧ takes (.dma true 1) log = gives (.dma true 1) log := by
  have fresh : Performs step Sound { cfg := twoFrames } [] { cfg := twoFrames } := .init
  have failed := fresh.step (show Sound _ (.allocRings noSecondBuf true) from
    ⟨rfl, .inl fun _ => rfl⟩) rfl
  have allocated := failed.step (show Sound _ (.allocRings { noSecondBuf with
    frames := fun _ => {} } true) from ⟨rfl, .inl fun _ => rfl⟩) rfl
  have started := allocated.step (show Sound _ (.startRings 0) from trivial) rfl
  have enabled := started.step (show Sound _ (.enableTunnel 8 (.ok 8) 0) from trivial) rfl
  have stopped := enabled.step (show Sound _ (.ringBarrier false 0 0) from trivial) rfl
  have destroyed := stopped.step (show Sound _ (.destroy 0 true) from ⟨rfl, rfl⟩) rfl
  exact ⟨_, _, destroyed, rfl, by decide, (destroy_releases destroyed).2.2 rfl _⟩

end Runs

end Tbv.PathLife
