import ThunderboltIbverbs.Control.Model

/-! # The readiness edge

Three edges make a rail data-ready: the tunnel, our READY and the peer's.  Each is
followed, in its own section or by the next frame of its thread, by a look at all three;
so a ready rail is published or somebody is on the way to it. -/
set_option autoImplicit false
namespace Tbv.Control

open Trans

def Frame.railId : Frame → Nat
  | .probe r _ | .removing r | .workStop r | .check r | .hello r | .helloWait r
  | .helloApply r _ | .helloFailed r | .tunnelStage r | .tunnel r | .tunnelCheck r
  | .readyStage r | .ready r | .readyWait r | .readyMark r _ | .readyUnlock r | .readyFailed r
  | .readySent r | .readyCheck r | .retry r | .done r | .markLocal r | .kick r
  | .publish r => r
  | .helloSnapshot msg | .helloReply msg | .ackApply msg | .readySnapshot msg
  | .readySnapshotEnabled msg | .markRemote msg | .readyReply msg => Hello.railId msg
  | .helloRemote _ remote => remote.railId

/-- The frames that will still look at the rail, or have seen it ready. -/
def Frame.looks (r : Nat) : Frame → Bool
  | .tunnelCheck s | .readyCheck s | .publish s => s == r
  | _ => false

def Frame.edge : Frame → Bool
  | .tunnel _ | .readySent _ | .readyMark _ _ => true
  | _ => false

/-- Ready, staying, and nobody told yet. -/
def Rail.due (rail : Rail) : Bool := rail.dataReady && !rail.removing && !rail.published

/-- A step leaves no rail due unless a frame that looks at it is there afterwards. -/
def Looked (host : Host) (frame : Frame) (out : Host × List Frame) : Prop :=
  ∀ r, (out.1.rails r).due = true →
    (∃ new ∈ out.2, new.looks r = true) ∨ (host.rails r).due = true ∧ frame.looks r = false

section Step
variable {host : Host} {frame : Frame}

def Calm (host next : Host) : Prop := ∀ r, (next.rails r).due = true → (host.rails r).due = true

theorem Calm.of_rails {next : Host} (same : next.rails = host.rails) : Calm host next := by
  intro r
  rw [same]
  exact id

theorem Calm.lock {next : Host} (calm : Calm host next) (held : Bool) :
    Calm host (next.lock held) := calm

theorem looked_of_calm {out : Host × List Frame} (blind : ∀ r, frame.looks r = false)
    (calm : Calm host out.1) : Looked host frame out := by
  intro r due
  exact .inr ⟨calm r due, blind r⟩

theorem calm_modRail {s : Nat} {f : Rail → Rail}
    (calm : (f (host.rails s)).due = true → (host.rails s).due = true) :
    Calm host (host.modRail s f) := by
  intro r
  unfold Host.modRail
  by_cases same : r = s
  · subst same
    simpa using calm
  · simp [Function.update_of_ne same]

/-- The section after an edge leaves the rail published, on its way there, or not due. -/
theorem looked_of_publishes {s : Nat} {f : Rail → Rail} {rest : List Frame}
    (blind : ∀ r, r ≠ s → frame.looks r = false) :
    Looked host frame
      (host.modRail s f, (host.modRail s f).publishes s ++ rest) := by
  intro r due
  by_cases same : r = s
  · subst same
    have ready : ((host.modRail r f).rails r).dataReady = true ∧
        ((host.modRail r f).rails r).removing = false := by
      simp only [Rail.due, Bool.and_eq_true, Bool.not_eq_true'] at due
      exact due.1
    refine .inl ⟨.publish r, List.mem_append_left _ ?_, by simp [Frame.looks]⟩
    simp [Host.publishes, ready]
  · refine .inr ⟨?_, blind r same⟩
    simpa [Host.modRail, Function.update_of_ne same] using due

theorem modRail_self (host : Host) (s : Nat) : host.modRail s id = host := by
  simp [Host.modRail]

theorem looked_of_look {s : Nat} {rest : List Frame} (blind : ∀ r, r ≠ s → frame.looks r = false) :
    Looked host frame (host, host.publishes s ++ rest) := by
  have looked := @looked_of_publishes host frame s id rest blind
  rwa [modRail_self] at looked

theorem execProbe_calm {s : Nat} {stage : ProbeStage} {choice : Choice}
    {out : Host × List Frame} (executed : execProbe host s choice stage = some out) :
    Calm host out.1 := by
  cases stage <;> simp only [execProbe] at executed
  all_goals
    repeat' split at executed
    all_goals cases executed
    all_goals first
      | exact Calm.of_rails rfl
      | dsimp only
        refine calm_modRail ?_
        simp [Rail.due, Rail.dataReady]

/-- A step of the work function that neither makes an edge nor looks at one. -/
theorem execWork_calm {choice : Choice} {out : Host × List Frame} (quiet : frame.edge = false)
    (executed : execWork host choice frame = some out) : Calm host out.1 := by
  obtain ⟨next, frames⟩ := out
  dsimp only
  cases frame with
  | tunnel s | readySent s | readyMark s remote => cases quiet
  | hello s | helloWait s | helloFailed s | tunnelCheck s | ready s | readyWait s | readyUnlock s
  | readyFailed s | readyCheck s =>
      simp only [execWork] at executed
      repeat' split at executed
      all_goals cases executed
      all_goals exact Calm.of_rails rfl
  | check s | tunnelStage s =>
      simp only [execWork] at executed
      repeat' split at executed
      all_goals cases executed
      · exact Calm.of_rails rfl
      · exact calm_modRail fun due => due
      · exact Calm.of_rails rfl
  | helloApply s remote =>
      simp only [execWork] at executed
      split at executed <;> cases executed
      · exact Calm.lock (calm_modRail fun due => due) _
      · exact Calm.of_rails rfl
  | readyStage s =>
      simp only [execWork] at executed
      split at executed <;> cases executed
      · exact calm_modRail fun due => due
      · exact Calm.of_rails rfl
  | retry s =>
      simp only [execWork] at executed
      split at executed <;> cases executed
      · exact Calm.of_rails rfl
      · exact calm_modRail fun due => due
  | done s =>
      cases executed
      exact calm_modRail fun due => due
  | _ => cases executed

theorem exec_looked {choice : Choice} {out : Host × List Frame}
    (executed : exec host frame choice = some out) : Looked host frame out := by
  cases frame with
  | probe s stage => exact looked_of_calm (fun _ => rfl) (execProbe_calm executed)
  | removing s =>
      cases executed
      refine looked_of_calm (fun _ => rfl) ?_
      dsimp only
      refine calm_modRail ?_
      simp [Rail.due]
  | workStop s =>
      cases executed
      refine looked_of_calm (fun _ => rfl) ?_
      dsimp only
      exact calm_modRail fun due => due
  | publish s =>
      cases executed
      intro r due
      by_cases same : r = s
      · -- after the call the rail is published or not ready
        subst same
        simp [Host.modRail, Rail.due, Rail.dataReady] at due
        obtain ⟨⟨⟨⟨enabled, sent⟩, remote⟩, -⟩, -, (other | other) | other⟩ := due
        · exact absurd enabled other
        · simp [sent] at other
        · simp [remote] at other
      · refine .inr ⟨?_, by simp [Frame.looks, Ne.symm same]⟩
        simpa [Host.modRail, Function.update_of_ne same] using due
  | tunnel s =>
      simp only [exec, execWork] at executed
      split at executed
      · cases executed
      · split at executed
        · split at executed
          · cases executed
            intro r due
            by_cases same : r = s
            · subst same
              exact .inl ⟨_, List.mem_singleton.mpr rfl, by simp [Frame.looks]⟩
            · refine .inr ⟨?_, rfl⟩
              simpa [Host.modRail, Function.update_of_ne same] using due
          · cases executed
        · cases executed
          exact looked_of_calm (fun _ => rfl) (Calm.of_rails rfl)
        · cases executed
  | readySent s =>
      cases executed
      intro r due
      by_cases same : r = s
      · subst same
        exact .inl ⟨_, List.mem_singleton.mpr rfl, by simp [Frame.looks]⟩
      · refine .inr ⟨?_, rfl⟩
        simpa [Host.modRail, Function.update_of_ne same] using due
  | tunnelCheck s =>
      cases executed
      exact looked_of_look fun r other => by simp [Frame.looks, Ne.symm other]
  | readyCheck s =>
      cases executed
      have looked := @looked_of_look host (.readyCheck s) s [] fun r other => by
        simp [Frame.looks, Ne.symm other]
      rwa [List.append_nil] at looked
  | readyMark s remote =>
      simp only [exec, execWork] at executed
      split at executed
      · cases executed
        exact looked_of_publishes fun _ _ => rfl
      · cases executed
        exact looked_of_calm (fun _ => rfl) (Calm.of_rails rfl)
  | markRemote remote =>
      cases executed
      have looked := @looked_of_publishes host (.markRemote remote) remote.railId
        (fun rail => { rail with remoteReady := true }) [] fun _ _ => rfl
      rwa [List.append_nil] at looked
  | markLocal s =>
      cases executed
      have looked := @looked_of_publishes host (.markLocal s) s
        (fun rail => { rail with readySent := true }) [] fun _ _ => rfl
      rwa [List.append_nil] at looked
  | helloSnapshot remote | helloReply reply | readySnapshot remote | readySnapshotEnabled remote
  | readyReply reply =>
      refine looked_of_calm (fun _ => rfl) ?_
      simp only [exec, execHandler] at executed
      repeat' split at executed
      all_goals cases executed
      all_goals exact Calm.of_rails rfl
  | helloRemote reply remote =>
      cases executed
      refine looked_of_calm (fun _ => rfl) ?_
      dsimp only
      exact calm_modRail fun due => due
  | ackApply remote | kick s =>
      refine looked_of_calm (fun _ => rfl) ?_
      simp only [exec, execHandler] at executed
      split at executed <;> cases executed
      · dsimp only
        exact calm_modRail fun due => due
      · exact Calm.of_rails rfl
  | check s | hello s | helloWait s | helloApply s remote | helloFailed s | tunnelStage s
  | readyStage s | ready s | readyWait s | readyUnlock s | readyFailed s | retry s | done s =>
      simp only [exec] at executed
      exact looked_of_calm (fun _ => rfl) (execWork_calm rfl executed)

end Step

/-! ## Runs -/

def Watched (st : St) : Prop :=
  ∀ r, (st.shared.rails r).due = true → ∃ frame, st.Has frame ∧ frame.looks r = true

theorem Watched.run {st : St} {thread : Nat} {choice : Choice} {frame : Frame}
    {rest pushed : List Frame} {host : Host} (watched : Watched st)
    (found : st.threads[thread]? = some (frame :: rest))
    (executed : exec st.shared frame choice = some (host, pushed)) :
    Watched ⟨host, st.threads.set thread (pushed ++ rest)⟩ := by
  intro r due
  rcases exec_looked executed r due with ⟨new, among, looks⟩ | ⟨before, blind⟩
  · exact ⟨new, Threads.State.has_of_pushed found among, looks⟩
  · obtain ⟨old, has, looks⟩ := watched r before
    rcases Threads.State.has_after_run found has with rfl | stays
    · rw [blind] at looks
      cases looks
    · exact ⟨old, stays, looks⟩

theorem react_calm {host : Host} {event : Event} {out : Host × List Frame}
    (reacted : react host event = some out) : Calm host out.1 := by
  cases event with
  | packet msg =>
      simp only [react] at reacted
      split at reacted <;> cases reacted <;> exact Calm.of_rails rfl
  | remove s =>
      cases reacted
      exact Calm.of_rails rfl
  | probe s rxRingSize | work s =>
      simp only [react] at reacted
      split at reacted <;> cases reacted
      dsimp only
      exact calm_modRail fun due => due

theorem Watched.step {st next : St} {label : Lbl} (watched : Watched st)
    (stepped : step st label = some next) : Watched next := by
  cases label with
  | event event =>
      obtain ⟨host, code, reacted, rfl⟩ := Threads.step_event stepped
      intro r due
      obtain ⟨old, ⟨stack, among, inside⟩, looks⟩ := watched r (react_calm reacted r due)
      exact ⟨old, ⟨stack, List.mem_append_left _ among, inside⟩, looks⟩
  | run thread choice =>
      obtain ⟨frame, rest, host, pushed, found, executed, rfl⟩ := Threads.step_run stepped
      exact watched.run found executed

/-- Whatever packets arrive and however the threads interleave: a rail that is data-ready
and staying, with no frame about it left, has been published while it was ready. -/
theorem readiness_edge_published (negotiateNative enableTunnels : Bool) (st : St)
    (reached : Reaches step (fun _ _ => True) (start negotiateNative enableTunnels) st)
    (r : Nat) (ready : (st.shared.rails r).dataReady = true)
    (staying : (st.shared.rails r).removing = false)
    (quiet : ∀ frame, st.Has frame → frame.railId ≠ r) :
    (st.shared.rails r).published = true := by
  have watched : Watched st :=
    reached.invariant nofun fun watched _ stepped => watched.step stepped
  by_contra unpublished
  have due : (st.shared.rails r).due = true := by
    simp only [Bool.not_eq_true] at unpublished
    simp [Rail.due, ready, staying, unpublished]
  obtain ⟨frame, has, looks⟩ := watched r due
  refine quiet frame has ?_
  cases frame <;> simp_all [Frame.looks, Frame.railId]

/-- The rail comes up by itself: probe, HELLO of the peer, tunnel and READY. -/
def comesUp : List Lbl :=
  [.event (.probe 0 512), .run 0 (.transmitPath 8), .run 0 .ok, .run 0 .ok, .run 0 .ok, .run 0 .ok,
    .run 0 .ok, .run 0 .ok, .event (.packet ⟨.hello, ⟨0, 9, 512⟩⟩), .run 1 .ok, .run 1 .ok,
    .run 1 .ok, .run 1 .ok, .event (.work 0), .run 2 .ok, .run 2 .ok, .run 2 .ok, .run 2 .ok,
    .run 2 .ok, .run 2 .ok, .run 2 (.response ⟨.readyAck, ⟨0, 9, 512⟩⟩), .run 2 .ok, .run 2 .ok,
    .run 2 .ok, .run 2 .ok, .run 2 .ok, .run 2 .ok]

theorem readiness_edge_published_comesUp : ∃ st, Reaches step (fun _ _ => True) (start true true) st ∧
    (st.shared.rails 0).dataReady = true ∧ (st.shared.rails 0).published = true := by
  have ran : (guarded step (fun _ _ => True) comesUp (start true true)).any
      (fun st => (st.shared.rails 0).dataReady && !(st.shared.rails 0).removing &&
        st.threads.all List.isEmpty) = true := by decide +kernel
  obtain ⟨st, reached, found⟩ := exists_reaches_of_guarded ran
  simp only [Bool.and_eq_true, Bool.not_eq_true', List.all_eq_true, List.isEmpty_iff] at found
  obtain ⟨⟨ready, staying⟩, idle⟩ := found
  refine ⟨st, reached, ready, readiness_edge_published true true st reached 0 ready staying ?_⟩
  rintro frame ⟨stack, among, inside⟩
  rw [idle stack among] at inside
  cases inside

end Tbv.Control
