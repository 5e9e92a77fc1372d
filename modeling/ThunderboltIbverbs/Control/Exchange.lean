import ThunderboltIbverbs.Control.Model
import ThunderboltIbverbs.Lib.Trail

/-! # Whose answer an exchange takes

`tb_xdomain_request` returns any message of the peer as the response.  A HELLO_ACK is applied
to the rail it names, which need not be the rail that asked: then the exchange of a rail
succeeds without having negotiated it, and its work ends without a retry. -/
set_option autoImplicit false
namespace Tbv.Control

open Threads Trans

/-- The message that a frame records in the rail it names (`tbv_native_control_apply_remote`).
`remote_rail_id` and the hops are copied with the fields the model has. -/
def applies (host : Host) : Frame → Option Hello
  | .helloApply _ remote | .ackApply remote =>
      if (host.rails remote.railId).present then some remote else none
  | .helloRemote _ remote => some remote
  | _ => none

def appliedBy (st : St) : Lbl → Option Hello
  | .event _ => none
  | .run thread _ => (st.top thread).bind (applies st.shared)

/-- The rail whose `tbv_native_control_exchange_once` returns 0 with the step, and the
response it took. -/
def exchangedBy (st : St) : Lbl → Option (Nat × Hello)
  | .event _ => none
  | .run thread _ =>
      match st.top thread with
      | some (.helloApply r remote) =>
          if (st.shared.rails remote.railId).present then some (r, remote) else none
      | _ => none

/-- The rail whose run of `tbv_native_control_work` comes to its end with the step, and the
last frame of it. -/
def workEnds (st next : St) : Lbl → Option (Nat × Frame)
  | .event _ => none
  | .run thread _ =>
      match st.threads[thread]?, next.threads[thread]? with
      | some [last, .done r], some [.done _] => some (r, last)
      | _, _ => none

/-- The rail is negotiated, or the run scheduled a retry or was the last attempt, or the work
is told to stop. -/
def Host.Settled (host : Host) (r : Nat) (last : Frame) : Prop :=
  (host.rails r).negotiated = true ∨ last = .retry r ∧ (host.rails r).workQueued = true ∨
    helloRetries ≤ (host.rails r).attempts ∨ (host.rails r).workStop = true

structure StepSound (st next : St) (label : Lbl) : Prop where
  exchange : ∀ out ∈ exchangedBy st label, (next.shared.rails out.1).negotiated = true
  work : ∀ out ∈ workEnds st next label, next.shared.Settled out.1 out.2

/-- An exchange that returns 0 has negotiated its rail; and a run of the work on a rail that
stays un-negotiated has scheduled a retry or used all its attempts, unless it is told to stop. -/
def Sound (st : St) (label : Lbl) : Prop :=
  ∀ next, step st label = some next → StepSound st next label

/-- The response that an exchange takes names the rail that asked, or that rail has been
negotiated by then. -/
def AnsweredForRail (st : St) (label : Lbl) : Prop :=
  ∀ out ∈ exchangedBy st label, out.2.railId = out.1 ∨
    (st.shared.rails out.1).negotiated = true

/-! ## What a step does to a rail and its work -/

def Rail.started (rail : Rail) : Prop := rail.state = .ringStarted ∨ rail.state = .tunnelEnabled

/-- The work of a rail is set up for native negotiation, with rings that run. -/
structure RailOk (native : Bool) (rail : Rail) : Prop where
  setUp : rail.workState = true → rail.started ∧ native = true
  queued : rail.workQueued = true → rail.workState = true

structure RailStep (native : Bool) (rail next : Rail) : Prop where
  workState : rail.workState = true → next.workState = true
  started : rail.started → next.started
  negotiated : rail.negotiated = true → next.negotiated = true
  ok : RailOk native rail → RailOk native next

structure Advance (host next : Host) : Prop where
  native : next.negotiateNative = host.negotiateNative
  rails : ∀ r, RailStep host.negotiateNative (host.rails r) (next.rails r)

theorem RailStep.refl (native : Bool) (rail : Rail) : RailStep native rail rail :=
  ⟨id, id, id, id⟩

section Advance
variable {host next : Host}

theorem advance_of_rails (native : next.negotiateNative = host.negotiateNative)
    (same : next.rails = host.rails) : Advance host next :=
  ⟨native, fun _ => same ▸ .refl _ _⟩

theorem advance_refl (host : Host) : Advance host host := advance_of_rails rfl rfl

theorem advance_modRail {s : Nat} {f : Rail → Rail}
    (moves : RailStep host.negotiateNative (host.rails s) (f (host.rails s))) :
    Advance host (host.modRail s f) := by
  refine ⟨rfl, fun r => ?_⟩
  unfold Host.modRail
  by_cases same : r = s
  · subst same
    simpa using moves
  · simpa [Function.update_of_ne same] using RailStep.refl _ _

end Advance

def ProbeOk (host : Host) (r : Nat) : ProbeStage → Prop
  | .allocRings | .startRings => True
  | .workState => (host.rails r).started ∧ host.negotiateNative = true
  | .attempts | .readySent | .remoteReady | .schedule => (host.rails r).workState = true

/-- What a frame knows, in the work of a rail or, without an owner, elsewhere. -/
def Owned (host : Host) (owner : Option Nat) : Frame → Prop
  | .probe r stage => owner = none ∧ ProbeOk host r stage
  | .check r | .hello r | .helloWait r | .helloApply r _ | .helloFailed r | .retry r =>
      owner = some r ∧ (host.rails r).workState = true
  | .tunnelStage r | .tunnel r | .tunnelCheck r | .readyStage r | .ready r | .readyWait r
  | .readyMark r _ | .readyUnlock r | .readyFailed r | .readySent r | .readyCheck r =>
      owner = some r ∧ (host.rails r).workState = true ∧ (host.rails r).negotiated = true
  | .publish _ => ∀ r ∈ owner, (host.rails r).negotiated = true
  | .done _ => False
  | _ => owner = none

/-- A thread is a run of the work of a rail, with its end below everything, or something else. -/
inductive StackOk (host : Host) : List Frame → Prop
  | other (code : List Frame) (owned : ∀ frame ∈ code, Owned host none frame) : StackOk host code
  | work (r : Nat) (code : List Frame) (owned : ∀ frame ∈ code, Owned host (some r) frame) :
      StackOk host (code ++ [.done r])

structure WorkInv (st : St) : Prop where
  rails : ∀ r, RailOk st.shared.negotiateNative (st.shared.rails r)
  threads : ∀ stack ∈ st.threads, StackOk st.shared stack

section Owned
variable {host next : Host} {owner : Option Nat} {frame : Frame}

theorem Owned.advance (owned : Owned host owner frame) (advance : Advance host next) :
    Owned next owner frame := by
  cases frame with
  | probe r stage =>
      obtain ⟨none, ok⟩ := owned
      refine ⟨none, ?_⟩
      cases stage with
      | allocRings | startRings => trivial
      | workState => exact ⟨(advance.rails r).started ok.1, advance.native.trans ok.2⟩
      | attempts | readySent | remoteReady | schedule => exact (advance.rails r).workState ok
  | check r | hello r | helloWait r | helloApply r remote | helloFailed r | retry r =>
      exact ⟨owned.1, (advance.rails r).workState owned.2⟩
  | tunnelStage r | tunnel r | tunnelCheck r | readyStage r | ready r | readyWait r
  | readyMark r remote | readyUnlock r | readyFailed r | readySent r | readyCheck r =>
      exact ⟨owned.1, (advance.rails r).workState owned.2.1, (advance.rails r).negotiated owned.2.2⟩
  | publish s => exact fun r is => (advance.rails r).negotiated (owned r is)
  | done r => exact owned
  | _ => exact owned

theorem StackOk.advance {stack : List Frame} (ok : StackOk host stack) (advance : Advance host next) :
    StackOk next stack := by
  cases ok with
  | other code owned => exact .other _ fun frame among => (owned frame among).advance advance
  | work r code owned => exact .work r code fun frame among => (owned frame among).advance advance

end Owned

/-! ## What a frame leaves -/

section Exec
variable {host : Host} {owner : Option Nat} {frame : Frame} {out : Host × List Frame}

/-- The frame takes the host on, and what it pushes knows what it needs. -/
structure Goes (host : Host) (owner : Option Nat) (out : Host × List Frame) : Prop where
  advance : Advance host out.1
  pushed : ∀ new ∈ out.2, Owned out.1 owner new

/-- What takes an answer of the wrong rail is left out. -/
def Answered (host : Host) : Frame → Prop
  | .helloApply r remote => (host.rails remote.railId).present = true →
      remote.railId = r ∨ (host.rails r).negotiated = true
  | _ => True

theorem goes_stay {pushed : List Frame} (owned : ∀ new ∈ pushed, Owned host owner new) :
    Goes host owner (host, pushed) := ⟨advance_refl host, owned⟩

theorem goes_modRail {s : Nat} {f : Rail → Rail} {pushed : List Frame}
    (moves : RailStep host.negotiateNative (host.rails s) (f (host.rails s)))
    (owned : ∀ new ∈ pushed, Owned (host.modRail s f) owner new) :
    Goes host owner (host.modRail s f, pushed) := ⟨advance_modRail moves, owned⟩

theorem publishes_owned {r : Nat} (negotiated : ∀ r ∈ owner, (host.rails r).negotiated = true) :
    ∀ new ∈ host.publishes r, Owned host owner new := by
  intro new among
  unfold Host.publishes at among
  split at among
  · cases List.mem_singleton.mp among
    exact negotiated
  · cases among

/-- The rail keeps its state and its record, and no work is queued that was not set up. -/
theorem RailStep.of_same {native : Bool} {rail next : Rail} (workState : next.workState = rail.workState)
    (state : next.state = rail.state) (negotiated : rail.negotiated = true → next.negotiated = true)
    (queued : RailOk native rail → next.workQueued = true → rail.workState = true) :
    RailStep native rail next where
  workState := fun set => workState.trans set
  started := fun started => by
    unfold Rail.started at *
    rwa [state]
  negotiated := negotiated
  ok := fun ok => by
    refine ⟨fun set => ?_, fun set => workState.trans (queued ok set)⟩
    obtain ⟨started, native⟩ := ok.setUp (workState.symm.trans set)
    refine ⟨?_, native⟩
    unfold Rail.started at *
    rwa [state]

theorem execProbe_goes {r : Nat} {stage : ProbeStage} {choice : Choice}
    (owned : Owned host owner (.probe r stage)) (executed : execProbe host r choice stage = some out) :
    Goes host owner out := by
  obtain ⟨rfl, ok⟩ := owned
  cases stage with
  | allocRings =>
      simp only [execProbe] at executed
      split at executed
      · split at executed
        · cases executed
          exact goes_stay nofun
        · rename_i new
          cases executed
          have new : (host.rails r).state = .new := by simpa using new
          have fresh : ¬ (host.rails r).started := by simp [Rail.started, new]
          refine goes_modRail ?_ (List.forall_mem_singleton.mpr ⟨rfl, trivial⟩)
          exact ⟨id, fun started => absurd started fresh, id, fun ok =>
            ⟨fun set => absurd (ok.setUp set).1 fresh, ok.queued⟩⟩
      · cases executed
  | startRings =>
      simp only [execProbe] at executed
      split at executed
      · cases executed
        exact goes_stay nofun
      · cases executed
        refine goes_modRail ⟨id, fun _ => .inl rfl, id, fun ok =>
          ⟨fun set => ⟨.inl rfl, (ok.setUp set).2⟩, ok.queued⟩⟩ ?_
        split
        · rename_i native
          exact List.forall_mem_singleton.mpr ⟨rfl, .inl (by simp [Host.modRail]), native⟩
        · nofun
  | workState =>
      cases executed
      refine goes_modRail ⟨fun _ => rfl, id, id, fun _ => ⟨fun _ => ok, fun _ => rfl⟩⟩ ?_
      exact List.forall_mem_singleton.mpr ⟨rfl, by simp [ProbeOk, Host.modRail]⟩
  | attempts | readySent | remoteReady =>
      cases executed
      refine goes_modRail (.of_same rfl rfl id fun ok => ok.queued) ?_
      exact List.forall_mem_singleton.mpr ⟨rfl, by simpa [ProbeOk, Host.modRail] using ok⟩
  | schedule =>
      cases executed
      exact goes_modRail (.of_same rfl rfl id fun _ _ => ok) nofun

@[simp] theorem modRail_self_rail (host : Host) (r : Nat) (f : Rail → Rail) :
    (host.modRail r f).rails r = f (host.rails r) := by simp [Host.modRail]

/-- What the work of a rail knows, and, once the exchange is behind it, that the rail is negotiated. -/
theorem execWork_goes {choice : Choice} (ok : ∀ r, RailOk host.negotiateNative (host.rails r))
    (answered : Answered host frame) (owned : Owned host owner frame)
    (executed : execWork host choice frame = some out) : Goes host owner out := by
  cases frame with
  | check r =>
      obtain ⟨rfl, set⟩ := owned
      simp only [execWork] at executed
      split at executed
      · cases executed
        exact goes_stay nofun
      · split at executed
        · cases executed
          exact goes_modRail (.of_same rfl rfl id fun ok => ok.queued)
            (List.forall_mem_singleton.mpr ⟨rfl, by simpa using set⟩)
        · rename_i record
          cases executed
          have native := ((ok r).setUp set).2
          exact goes_stay (List.forall_mem_singleton.mpr ⟨rfl, set, by simpa [native] using record⟩)
  | hello r =>
      obtain ⟨rfl, set⟩ := owned
      simp only [execWork] at executed
      split at executed
      · cases executed
        exact goes_stay (List.forall_mem_singleton.mpr ⟨rfl, set⟩)
      · split at executed
        · cases executed
        · cases executed
          exact ⟨advance_of_rails rfl rfl, List.forall_mem_singleton.mpr ⟨rfl, set⟩⟩
  | helloWait r =>
      obtain ⟨rfl, set⟩ := owned
      simp only [execWork] at executed
      repeat' split at executed
      all_goals cases executed
      all_goals exact ⟨advance_of_rails rfl rfl, List.forall_mem_singleton.mpr ⟨rfl, set⟩⟩
  | helloApply r remote =>
      obtain ⟨rfl, set⟩ := owned
      simp only [execWork] at executed
      split at executed
      · rename_i present
        cases executed
        have advance : Advance host (host.modRail remote.railId fun rail => rail.applyRemote remote) :=
          advance_modRail (.of_same rfl rfl (fun _ => rfl) fun ok => ok.queued)
        refine ⟨⟨advance.native, advance.rails⟩, List.forall_mem_singleton.mpr
          ⟨rfl, (advance.rails r).workState set, ?_⟩⟩
        rcases answered present with named | negotiated
        · subst named
          simp [Host.lock, Rail.applyRemote]
        · exact (advance.rails r).negotiated negotiated
      · cases executed
        exact ⟨advance_of_rails rfl rfl, List.forall_mem_singleton.mpr ⟨rfl, set⟩⟩
  | helloFailed r =>
      obtain ⟨rfl, set⟩ := owned
      cases executed
      refine goes_stay ?_
      split
      · exact List.forall_mem_singleton.mpr ⟨rfl, set⟩
      · nofun
  | tunnelStage r =>
      obtain ⟨rfl, set, negotiated⟩ := owned
      simp only [execWork] at executed
      repeat' split at executed
      · cases executed
        exact goes_stay nofun
      · cases executed
        exact goes_modRail (.of_same rfl rfl id fun ok => ok.queued)
          (List.forall_mem_singleton.mpr ⟨rfl, by simpa using set, by simpa using negotiated⟩)
      · cases executed
        exact goes_stay (List.forall_mem_singleton.mpr ⟨rfl, set, negotiated⟩)
  | tunnel r =>
      obtain ⟨rfl, set, negotiated⟩ := owned
      simp only [execWork] at executed
      split at executed
      · cases executed
      · split at executed
        · split at executed
          · cases executed
            refine goes_modRail ⟨id, fun _ => .inr rfl, id, fun ok =>
              ⟨fun set => ⟨.inr rfl, (ok.setUp set).2⟩, ok.queued⟩⟩ ?_
            exact List.forall_mem_singleton.mpr ⟨rfl, by simpa using set, by simpa using negotiated⟩
          · cases executed
        · cases executed
          refine goes_stay ?_
          split
          · exact List.forall_mem_singleton.mpr ⟨rfl, set⟩
          · nofun
        · cases executed
  | tunnelCheck r =>
      obtain ⟨rfl, set, negotiated⟩ := owned
      cases executed
      refine goes_stay (List.forall_mem_append.mpr ⟨publishes_owned fun _ is => ?_,
        List.forall_mem_singleton.mpr ⟨rfl, set, negotiated⟩⟩)
      cases is
      exact negotiated
  | readyStage r =>
      obtain ⟨rfl, set, negotiated⟩ := owned
      simp only [execWork] at executed
      split at executed
      · cases executed
        exact goes_modRail (.of_same rfl rfl id fun ok => ok.queued)
          (List.forall_mem_singleton.mpr ⟨rfl, by simpa using set, by simpa using negotiated⟩)
      · cases executed
        exact goes_stay nofun
  | ready r =>
      obtain ⟨rfl, set, negotiated⟩ := owned
      simp only [execWork] at executed
      repeat' split at executed
      all_goals cases executed
      · exact goes_stay (List.forall_mem_singleton.mpr ⟨rfl, set, negotiated⟩)
      · exact ⟨advance_of_rails rfl rfl, List.forall_mem_singleton.mpr ⟨rfl, set, negotiated⟩⟩
  | readyWait r =>
      obtain ⟨rfl, set, negotiated⟩ := owned
      simp only [execWork] at executed
      repeat' split at executed
      all_goals cases executed
      all_goals exact ⟨advance_of_rails rfl rfl, List.forall_mem_singleton.mpr ⟨rfl, set, negotiated⟩⟩
  | readyMark r remote =>
      obtain ⟨rfl, set, negotiated⟩ := owned
      simp only [execWork] at executed
      split at executed
      · cases executed
        have advance : Advance host (host.markRemoteReady remote.railId) :=
          advance_modRail (.of_same rfl rfl id fun ok => ok.queued)
        have later := (advance.rails r).negotiated negotiated
        refine ⟨advance, List.forall_mem_append.mpr ⟨publishes_owned fun _ is => ?_,
          List.forall_mem_singleton.mpr ⟨rfl, (advance.rails r).workState set, later⟩⟩⟩
        cases is
        exact later
      · cases executed
        exact ⟨advance_of_rails rfl rfl, List.forall_mem_singleton.mpr ⟨rfl, set, negotiated⟩⟩
  | readyUnlock r =>
      obtain ⟨rfl, set, negotiated⟩ := owned
      cases executed
      exact ⟨advance_of_rails rfl rfl, List.forall_mem_singleton.mpr ⟨rfl, set, negotiated⟩⟩
  | readyFailed r =>
      obtain ⟨rfl, set, negotiated⟩ := owned
      simp only [execWork] at executed
      split at executed
      · cases executed
        exact goes_stay (List.forall_mem_singleton.mpr ⟨rfl, set, negotiated⟩)
      · cases executed
        refine goes_stay ?_
        split
        · exact List.forall_mem_singleton.mpr ⟨rfl, set⟩
        · nofun
  | readySent r =>
      obtain ⟨rfl, set, negotiated⟩ := owned
      cases executed
      exact goes_modRail (.of_same rfl rfl id fun ok => ok.queued)
        (List.forall_mem_singleton.mpr ⟨rfl, by simpa using set, by simpa using negotiated⟩)
  | readyCheck r =>
      obtain ⟨rfl, set, negotiated⟩ := owned
      cases executed
      refine goes_stay (publishes_owned fun _ is => ?_)
      cases is
      exact negotiated
  | retry r =>
      obtain ⟨rfl, set⟩ := owned
      simp only [execWork] at executed
      split at executed
      · cases executed
        exact goes_stay nofun
      · cases executed
        exact goes_modRail (.of_same rfl rfl id fun _ _ => set) nofun
  | done r => exact owned.elim
  | _ => cases executed

theorem execHandler_goes {choice : Choice} (owned : owner = none)
    (executed : execHandler host choice frame = some out) : Goes host owner out := by
  subst owned
  cases frame with
  | kick r =>
      simp only [execHandler] at executed
      split at executed
      · rename_i set
        cases executed
        simp only [Bool.and_eq_true] at set
        exact goes_modRail (.of_same rfl rfl id fun _ _ => set.1.1.2) nofun
      · cases executed
        exact goes_stay nofun
  | helloRemote reply remote =>
      cases executed
      refine goes_modRail (.of_same rfl rfl (fun _ => rfl) fun ok => ok.queued) ?_
      exact List.forall_mem_cons.mpr ⟨rfl, List.forall_mem_singleton.mpr rfl⟩
  | ackApply remote =>
      simp only [execHandler] at executed
      split at executed
      · cases executed
        exact goes_modRail (.of_same rfl rfl (fun _ => rfl) fun ok => ok.queued) nofun
      · cases executed
        exact goes_stay nofun
  | markRemote remote =>
      cases executed
      exact goes_modRail (.of_same rfl rfl id fun ok => ok.queued) (publishes_owned nofun)
  | markLocal r =>
      cases executed
      exact goes_modRail (.of_same rfl rfl id fun ok => ok.queued) (publishes_owned nofun)
  | helloSnapshot remote | helloReply reply | readySnapshot remote | readySnapshotEnabled remote
  | readyReply reply =>
      simp only [execHandler] at executed
      repeat' split at executed
      all_goals cases executed
      all_goals refine ⟨advance_of_rails rfl rfl, ?_⟩
      all_goals simp [Owned]
  | _ => cases executed

theorem exec_goes {choice : Choice} (ok : ∀ r, RailOk host.negotiateNative (host.rails r))
    (answered : Answered host frame) (owned : Owned host owner frame)
    (executed : exec host frame choice = some out) : Goes host owner out := by
  cases frame with
  | probe r stage => exact execProbe_goes owned executed
  | removing r | workStop r =>
      cases executed
      exact goes_modRail (.of_same rfl rfl id fun ok => ok.queued) nofun
  | publish r =>
      cases executed
      exact goes_modRail (.of_same rfl rfl id fun ok => ok.queued) nofun
  | helloSnapshot remote | helloRemote reply remote | helloReply reply | ackApply remote
  | readySnapshot remote | readySnapshotEnabled remote | markRemote remote | readyReply reply
  | markLocal r | kick r =>
      simp only [exec] at executed
      exact execHandler_goes owned executed
  | _ =>
      simp only [exec] at executed
      exact execWork_goes ok answered owned executed

end Exec

/-! ## Runs -/

section Runs
variable {st next : St} {label : Lbl}

/-- The top of a stack is the end of a run of the work, or what it leaves fits on the rest. -/
theorem StackOk.run {host : Host} {frame : Frame} {rest : List Frame}
    (ok : StackOk host (frame :: rest)) :
    (∃ r, frame = .done r ∧ rest = []) ∨
      ∃ owner, Owned host owner frame ∧
        ∀ out, Goes host owner out → StackOk out.1 (out.2 ++ rest) := by
  generalize eq : frame :: rest = stack at ok
  cases ok with
  | other code owned =>
      subst eq
      obtain ⟨top, below⟩ := List.forall_mem_cons.mp owned
      exact .inr ⟨none, top, fun out goes => .other _ (List.forall_mem_append.mpr
        ⟨goes.pushed, fun frame among => (below frame among).advance goes.advance⟩)⟩
  | work r code owned =>
      cases code with
      | nil =>
          cases eq
          exact .inl ⟨r, rfl, rfl⟩
      | cons first code =>
          obtain ⟨rfl, rfl⟩ := List.cons.inj eq
          obtain ⟨top, below⟩ := List.forall_mem_cons.mp owned
          refine .inr ⟨some r, top, fun out goes => ?_⟩
          show StackOk out.1 (out.2 ++ (code ++ [.done r]))
          rw [← List.append_assoc]
          exact .work r _ (List.forall_mem_append.mpr
            ⟨goes.pushed, fun frame among => (below frame among).advance goes.advance⟩)

theorem StackOk.last {host : Host} {frame : Frame} {r : Nat} (ok : StackOk host [frame, .done r]) :
    Owned host (some r) frame := by
  generalize eq : [frame, Frame.done r] = stack at ok
  cases ok with
  | other code owned =>
      subst eq
      exact (owned (.done r) (by simp)).elim
  | work s code owned =>
      obtain ⟨rfl, same⟩ := List.append_inj' (show [frame] ++ [Frame.done r] = _ from eq) rfl
      cases same
      exact List.forall_mem_singleton.mp owned

theorem WorkInv.threads_advance {host : Host} (inv : WorkInv st) (advance : Advance st.shared host) :
    ∀ stack ∈ st.threads, StackOk host stack :=
  fun stack among => (inv.threads stack among).advance advance

theorem WorkInv.rails_advance {host : Host} (inv : WorkInv st) (advance : Advance st.shared host)
    (r : Nat) : RailOk host.negotiateNative (host.rails r) := by
  rw [advance.native]
  exact (advance.rails r).ok (inv.rails r)

theorem WorkInv.event {event : Event} (inv : WorkInv st)
    (stepped : step st (.event event) = some next) : WorkInv next := by
  obtain ⟨host, code, reacted, rfl⟩ := Threads.step_event stepped
  suffices started : Advance st.shared host ∧ StackOk host code by
    refine ⟨inv.rails_advance started.1, fun stack among => ?_⟩
    rcases List.mem_append.mp among with old | new
    · exact inv.threads_advance started.1 stack old
    · cases List.mem_singleton.mp new
      exact started.2
  cases event with
  | probe r rxRingSize =>
      simp only [react] at reacted
      split at reacted
      · cases reacted
      · cases reacted
        exact ⟨advance_modRail (.of_same rfl rfl id fun ok => ok.queued),
          .other _ (List.forall_mem_singleton.mpr ⟨rfl, trivial⟩)⟩
  | remove r =>
      cases reacted
      exact ⟨advance_refl _, .other _ (List.forall_mem_cons.mpr ⟨rfl, List.forall_mem_singleton.mpr rfl⟩)⟩
  | work r =>
      simp only [react] at reacted
      split at reacted
      · rename_i queued
        cases reacted
        simp only [Bool.and_eq_true] at queued
        refine ⟨advance_modRail (.of_same rfl rfl id nofun), .work r [.check r] ?_⟩
        exact List.forall_mem_singleton.mpr ⟨rfl, by simpa using (inv.rails r).queued queued.1⟩
      · cases reacted
  | packet msg =>
      simp only [react] at reacted
      split at reacted
      all_goals cases reacted
      · exact ⟨advance_refl _, .other _ (List.forall_mem_singleton.mpr rfl)⟩
      · exact ⟨advance_refl _, .other _ (List.forall_mem_singleton.mpr rfl)⟩
      · exact ⟨advance_refl _, .other _ (List.forall_mem_singleton.mpr rfl)⟩
      · exact ⟨advance_refl _, .other _ nofun⟩

theorem answered_of_top {thread : Nat} {choice : Choice} {frame : Frame}
    (answered : AnsweredForRail st (.run thread choice)) (top : st.top thread = some frame) :
    Answered st.shared frame := by
  cases frame with
  | helloApply r remote =>
      intro present
      exact answered (r, remote) (by simp [exchangedBy, top, present])
  | _ => trivial

theorem WorkInv.run {thread : Nat} {choice : Choice} (inv : WorkInv st)
    (answered : AnsweredForRail st (.run thread choice))
    (stepped : step st (.run thread choice) = some next) : WorkInv next := by
  obtain ⟨frame, rest, host, pushed, found, executed, rfl⟩ := Threads.step_run stepped
  have replaced {stack : List Frame} (advance : Advance st.shared host) (ok : StackOk host stack) :
      WorkInv ⟨host, st.threads.set thread stack⟩ := by
    refine ⟨inv.rails_advance advance, fun other among => ?_⟩
    rcases List.mem_or_eq_of_mem_set among with old | rfl
    · exact inv.threads_advance advance other old
    · exact ok
  rcases (inv.threads _ (List.mem_of_getElem? found)).run with ⟨r, rfl, rfl⟩ | ⟨owner, owned, fits⟩
  · cases executed
    exact replaced (advance_modRail (.of_same rfl rfl id fun ok => ok.queued)) (.other _ nofun)
  · have goes := exec_goes inv.rails
      (answered_of_top answered (Threads.State.top_of_getElem? found)) owned executed
    exact replaced goes.advance (fits _ goes)

theorem WorkInv.step (inv : WorkInv st) (answered : AnsweredForRail st label)
    (stepped : step st label = some next) : WorkInv next := by
  cases label with
  | event event => exact inv.event stepped
  | run thread choice => exact inv.run answered stepped

theorem exec_ends {host ended : Host} {frame : Frame} {choice : Choice} {r : Nat}
    (ok : ∀ r, RailOk host.negotiateNative (host.rails r)) (owned : Owned host (some r) frame)
    (goes : Goes host (some r) (ended, [])) (executed : exec host frame choice = some (ended, [])) :
    ended.Settled r frame := by
  cases frame with
  | check s =>
      obtain ⟨same, set⟩ := owned
      cases same
      simp only [exec, execWork] at executed
      split at executed
      · rename_i stops
        cases executed
        obtain ⟨started, -⟩ := (ok r).setUp set
        rcases started with started | started <;>
          exact .inr (.inr (.inr (by simpa [set, started] using stops)))
      · split at executed <;> cases executed
  | helloFailed s =>
      obtain ⟨same, set⟩ := owned
      cases same
      simp only [exec, execWork, Option.some.injEq, Prod.mk.injEq] at executed
      obtain ⟨rfl, spent⟩ := executed
      split at spent
      · cases spent
      · exact .inr (.inr (.inl (by omega)))
  | retry s =>
      obtain ⟨same, set⟩ := owned
      cases same
      simp only [exec, execWork] at executed
      split at executed
      · rename_i stops
        cases executed
        exact .inr (.inr (.inr stops))
      · cases executed
        exact .inr (.inl ⟨rfl, by simp⟩)
  | tunnelStage s | tunnel s | tunnelCheck s | readyStage s | ready s | readyWait s
  | readyMark s remote | readyUnlock s | readyFailed s | readySent s | readyCheck s =>
      obtain ⟨same, set, negotiated⟩ := owned
      cases same
      exact .inl ((goes.advance.rails r).negotiated negotiated)
  | publish s => exact .inl ((goes.advance.rails r).negotiated (owned r rfl))
  | hello s | helloWait s | helloApply s remote =>
      simp only [exec, execWork] at executed
      repeat' split at executed
      all_goals cases executed
  | probe s stage => exact absurd owned.1 nofun
  | done s => exact owned.elim
  | _ => cases owned

theorem WorkInv.work_ends {out : Nat × Frame} (inv : WorkInv st) (answered : AnsweredForRail st label)
    (stepped : Control.step st label = some next) (ends : out ∈ workEnds st next label) :
    next.shared.Settled out.1 out.2 := by
  cases label with
  | event event => cases ends
  | run thread choice =>
      obtain ⟨frame, rest, host, pushed, found, executed, rfl⟩ := Threads.step_run stepped
      have inside : thread < st.threads.length := (List.getElem?_eq_some_iff.mp found).1
      simp only [workEnds, found, List.getElem?_set_self inside] at ends
      split at ends
      case h_2 => cases ends
      case h_1 frame' s s' before after =>
        cases ends
        cases before
        obtain rfl : pushed = [] := by
          cases pushed with
          | nil => rfl
          | cons _ _ => simp at after
        have owned := (inv.threads _ (List.mem_of_getElem? found)).last
        exact exec_ends inv.rails owned (exec_goes inv.rails
          (answered_of_top answered (Threads.State.top_of_getElem? found)) owned executed) executed

/-- An exchange with a response that names a rail goes on. -/
theorem exchanged_goes {out : Nat × Hello} (exchanged : exchangedBy st label = some out) :
    ∃ next, Control.step st label = some next := by
  cases label with
  | event event => cases exchanged
  | run thread choice =>
      cases found : st.threads[thread]? with
      | none => simp [exchangedBy, Threads.State.top, found] at exchanged
      | some stack =>
          cases stack with
          | nil => simp [exchangedBy, Threads.State.top, found] at exchanged
          | cons frame rest =>
              simp only [exchangedBy, Threads.State.top_of_getElem? found] at exchanged
              split at exchanged
              · rename_i r remote top
                cases top
                split at exchanged
                · rename_i present
                  simp [Control.step, Threads.step, found, exec, execWork, present]
                · cases exchanged
              · cases exchanged

/-- The step of an exchange that returns 0 leaves its rail negotiated just if the response is
for the rail or it was negotiated before. -/
theorem exchange_negotiates_iff {thread : Nat} {choice : Choice} {r : Nat} {remote : Hello}
    (exchanged : exchangedBy st (.run thread choice) = some (r, remote))
    (stepped : Control.step st (.run thread choice) = some next) :
    (next.shared.rails r).negotiated = true ↔
      remote.railId = r ∨ (st.shared.rails r).negotiated = true := by
  obtain ⟨frame, rest, host, pushed, found, executed, rfl⟩ := Threads.step_run stepped
  simp only [exchangedBy, Threads.State.top_of_getElem? found] at exchanged
  split at exchanged
  · rename_i s remote' top
    cases top
    split at exchanged
    · rename_i present
      cases exchanged
      simp only [exec, execWork, if_pos present] at executed
      cases executed
      by_cases same : r = remote.railId
      · subst same
        simp [Host.lock, Rail.applyRemote]
      · simp [Host.lock, Host.modRail, Function.update_of_ne same, Ne.symm same]
    · cases exchanged
  · cases exchanged

theorem stepSound_iff (inv : WorkInv st) : Sound st label ↔ AnsweredForRail st label := by
  constructor
  · intro sound out exchanged
    obtain ⟨next, taken⟩ := exchanged_goes exchanged
    cases label with
    | event event => cases exchanged
    | run thread choice =>
        exact (exchange_negotiates_iff exchanged taken).mp ((sound next taken).exchange out exchanged)
  · intro answered next taken
    refine ⟨fun out exchanged => ?_, fun out ends => inv.work_ends answered taken ends⟩
    cases label with
    | event event => cases exchanged
    | run thread choice =>
        exact (exchange_negotiates_iff exchanged taken).mpr (answered out exchanged)

theorem workInv_start (negotiateNative enableTunnels : Bool) :
    WorkInv (start negotiateNative enableTunnels) := ⟨fun _ => ⟨nofun, nofun⟩, nofun⟩

end Runs

/-! ## What a rail has on record -/

section Record
variable {host : Host} {frame : Frame} {st next : St} {label : Lbl}

def Rail.record (rail : Rail) : Bool × Int × Nat :=
  (rail.negotiated, rail.remoteTransmitPath, rail.txRemoteDataCreditMax)

def Hello.record (remote : Hello) : Bool × Int × Nat :=
  (true, remote.transmitPath, NativePath.dataCreditWindow remote.rxRingSize)

/-- The records stay, but for the one that a message is written to. -/
def Records (host next : Host) (applied : Option Hello) : Prop :=
  ∀ r, (next.rails r).record = (host.rails r).record ∨
    ∃ remote ∈ applied, remote.railId = r ∧ (next.rails r).record = remote.record

theorem records_modRail {s : Nat} {f : Rail → Rail} (applied : Option Hello)
    (same : (f (host.rails s)).record = (host.rails s).record) :
    Records host (host.modRail s f) applied := by
  intro r
  refine .inl ?_
  by_cases here : r = s
  · subst here
    simpa using same
  · simp [Host.modRail, Function.update_of_ne here]

theorem records_apply (remote : Hello) :
    Records host (host.modRail remote.railId fun rail => rail.applyRemote remote) (some remote) := by
  intro r
  by_cases here : r = remote.railId
  · subst here
    exact .inr ⟨remote, rfl, rfl, by simp [Rail.record, Hello.record, Rail.applyRemote]⟩
  · exact .inl (by simp [Host.modRail, Function.update_of_ne here])

theorem records_of_rails {next : Host} {applied : Option Hello} (same : next.rails = host.rails) :
    Records host next applied := fun r => .inl (by rw [same])

theorem execProbe_records {s : Nat} {stage : ProbeStage} {choice : Choice} {out : Host × List Frame}
    (executed : execProbe host s choice stage = some out) : Records host out.1 none := by
  cases stage <;> simp only [execProbe] at executed
  all_goals
    repeat' split at executed
    all_goals cases executed
    all_goals first
      | exact records_of_rails rfl
      | dsimp only
        exact records_modRail _ (by rfl)

theorem exec_records {choice : Choice} {out : Host × List Frame}
    (executed : exec host frame choice = some out) : Records host out.1 (applies host frame) := by
  cases frame with
  | probe s stage => exact execProbe_records executed
  | helloApply s remote =>
      simp only [exec, execWork] at executed
      split at executed
      · rename_i present
        cases executed
        rw [applies, if_pos present]
        exact records_apply remote
      · cases executed
        exact records_of_rails rfl
  | ackApply remote =>
      simp only [exec, execHandler] at executed
      split at executed
      · rename_i present
        cases executed
        rw [applies, if_pos present]
        exact records_apply remote
      · cases executed
        exact records_of_rails rfl
  | helloRemote reply remote =>
      cases executed
      exact records_apply remote
  | _ =>
      simp only [exec, execWork, execHandler] at executed
      repeat' split at executed
      all_goals cases executed
      all_goals first
        | exact records_of_rails rfl
        | dsimp only [Host.markRemoteReady, Host.markLocalReadySent]
          exact records_modRail _ (by rfl)

theorem react_records {event : Event} {out : Host × List Frame}
    (reacted : react host event = some out) : Records host out.1 none := by
  cases event with
  | packet msg =>
      simp only [react] at reacted
      split at reacted <;> cases reacted <;> exact records_of_rails rfl
  | probe s rxRingSize | remove s | work s =>
      simp only [react] at reacted
      repeat' split at reacted
      all_goals cases reacted
      all_goals first
        | exact records_of_rails rfl
        | dsimp only
          exact records_modRail _ (by rfl)

theorem step_records (stepped : step st label = some next) :
    Records st.shared next.shared (appliedBy st label) := by
  cases label with
  | event event =>
      obtain ⟨host, code, reacted, rfl⟩ := Threads.step_event stepped
      exact react_records reacted
  | run thread choice =>
      obtain ⟨frame, rest, host, pushed, found, executed, rfl⟩ := Threads.step_run stepped
      rw [appliedBy, Threads.State.top_of_getElem? found]
      exact exec_records executed

def Recorded (applied : List Hello) (host : Host) : Prop :=
  ∀ r, (host.rails r).negotiated = true →
    ∃ remote ∈ applied, remote.railId = r ∧ (host.rails r).record = remote.record

theorem Recorded.step {applied : List Hello} (recorded : Recorded applied st.shared)
    (stepped : Control.step st label = some next) :
    Recorded (applied ++ (appliedBy st label).toList) next.shared := by
  intro r negotiated
  rcases step_records stepped r with same | ⟨remote, among, names, new⟩
  · have before : (st.shared.rails r).negotiated = true :=
      (congrArg Prod.fst same).symm.trans negotiated
    obtain ⟨remote, among, names, old⟩ := recorded r before
    exact ⟨remote, List.mem_append_left _ among, names, same.trans old⟩
  · exact ⟨remote, List.mem_append_right _ (Option.mem_toList.mpr among), names, new⟩

end Record

/-- A run on any number of rails, with any message of the peer as the answer to a request:
exchanges and runs of the work are sound just as long as each answer is for the rail that asked
or comes when that rail is negotiated already.  What a negotiated rail has on record always
comes from a message with its id. -/
theorem exchange_is_for_its_rail (negotiateNative enableTunnels : Bool) (labels : List Lbl) :
    (Meets step Sound labels (start negotiateNative enableTunnels) ↔
      Meets step AnsweredForRail labels (start negotiateNative enableTunnels)) ∧
    ∀ st, run step labels (start negotiateNative enableTunnels) = some st →
      ∀ r, (st.shared.rails r).negotiated = true →
        ∃ remote ∈ trail step appliedBy labels (start negotiateNative enableTunnels),
          remote.railId = r ∧ (st.shared.rails r).remoteTransmitPath = remote.transmitPath ∧
            (st.shared.rails r).txRemoteDataCreditMax =
              NativePath.dataCreditWindow remote.rxRingSize := by
  refine ⟨meets_iff_meets stepSound_iff (fun inv meets taken => inv.step meets taken) labels
    (workInv_start _ _), fun st ran r negotiated => ?_⟩
  have recorded : Recorded (trail step appliedBy labels (start negotiateNative enableTunnels))
      st.shared :=
    @run_trail_invariant _ _ _ step _ _ _ _ (fun applied st => Recorded applied st.shared)
      (fun recorded _ taken => recorded.step taken) [] st nofun (meets_free labels _) ran
  obtain ⟨remote, among, names, record⟩ := recorded r negotiated
  simp only [Rail.record, Hello.record, Prod.mk.injEq] at record
  exact ⟨remote, among, names, record.2⟩

/-- Two rails come up and both ask; rail 0 gives up waiting, and rail 1 is handed the answer
that rail 0 was waiting for. -/
def lateAnswer : List Lbl :=
  [.event (.probe 0 512), .run 0 (.transmitPath 8), .run 0 .ok, .run 0 .ok, .run 0 .ok, .run 0 .ok,
    .run 0 .ok, .run 0 .ok, .event (.probe 1 512), .run 1 (.transmitPath 9), .run 1 .ok, .run 1 .ok,
    .run 1 .ok, .run 1 .ok, .run 1 .ok, .run 1 .ok, .event (.work 0), .run 2 .ok, .run 2 .ok,
    .run 2 .fail, .run 2 .ok, .run 2 .ok, .run 2 .ok, .event (.work 1), .run 3 .ok, .run 3 .ok,
    .run 3 (.response ⟨.helloAck, ⟨0, 9, 512⟩⟩), .run 3 .ok]

/-- The work of rail 1 then ends: no record, no retry, one attempt of five. -/
theorem late_answer_ends_the_work :
    ¬ (∀ negotiateNative enableTunnels labels,
      Meets step Sound labels (start negotiateNative enableTunnels)) ∧
    (run step lateAnswer (start true true)).any (fun st => (step st (.run 3 .ok)).any fun next =>
      workEnds st next (.run 3 .ok) == some (1, .tunnelStage 1) &&
        !(next.shared.rails 1).negotiated && !(next.shared.rails 1).workQueued &&
        (next.shared.rails 1).attempts == 1 && !(next.shared.rails 1).workStop) = true := by
  have ends : (run step lateAnswer (start true true)).any (fun st => (step st (.run 3 .ok)).any fun next =>
      workEnds st next (.run 3 .ok) == some (1, .tunnelStage 1) &&
        !(next.shared.rails 1).negotiated && !(next.shared.rails 1).workQueued &&
        (next.shared.rails 1).attempts == 1 && !(next.shared.rails 1).workStop) = true := by
    decide +kernel
  refine ⟨fun sound => ?_, ends⟩
  obtain ⟨st, ran, ends⟩ := (Option.any_eq_true _ _).mp ends
  obtain ⟨next, taken, ends⟩ := (Option.any_eq_true _ _).mp ends
  simp only [Bool.and_eq_true, Bool.not_eq_true', beq_iff_eq] at ends
  obtain ⟨⟨⟨⟨last, fresh⟩, unqueued⟩, attempts⟩, going⟩ := ends
  have settled := ((sound true true (lateAnswer ++ [.run 3 .ok])).last ran next taken).work _ last
  simp [Host.Settled, fresh, unqueued, attempts, going, helloRetries] at settled

end Tbv.Control
