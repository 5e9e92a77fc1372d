import ThunderboltIbverbs.Tbnet.Model

/-! # The in-HopID of a session

`connected_work` keeps its own copy of the number it allocates; the teardown releases the
number in the session, which every LOGIN overwrites.  The two agree as long as no LOGIN
with another transmit path is noted while the path is up or being brought up. -/
set_option autoImplicit false
namespace Tbv.Tbnet

open Trans

/-! ## The ledger -/

/-- What the session holds of the XDomain: a number, with the path up or not yet or no
longer. -/
inductive Ledger where
  | free
  | held (hop : Nat)
  | up (hop : Nat)
  | down (hop : Nat)
  deriving DecidableEq, Repr

/-- A number is obtained, possibly used for one path, and released, before another one. -/
def Ledger.read : Ledger → Call → Option Ledger
  | .free, .obtained hop => some (.held hop)
  | .held hop, .enabled other => if other = hop then some (.up hop) else none
  | .up hop, .disabled other => if other = hop then some (.down hop) else none
  | .held hop, .released other => if other = hop then some .free else none
  | .down hop, .released other => if other = hop then some .free else none
  | _, _ => none

def Ledger.hops : Ledger → List Nat
  | .free => []
  | .held hop | .up hop | .down hop => [hop]

def ledger (calls : List Call) : Option Ledger := calls.foldlM Ledger.read .free

theorem ledger_snoc {calls : List Call} {before : Ledger} (is : ledger calls = some before)
    (call : Call) : ledger (calls ++ [call]) = before.read call := by
  unfold ledger at is ⊢
  rw [List.foldlM_append, is]
  simp [List.foldlM]

/-- Each number that was kept was released once, by its own number; the path was disabled
by the remote path it was enabled with; one number at a time, and none at the end. -/
def Balanced (s : Session) : Prop :=
  ∃ now, ledger s.calls = some now ∧ s.held.length ≤ 1 ∧
    (s.destroy = .freed → now = .free ∧ s.held = [])

/-! ## The condition -/

/-- The number that `connected_work` is bringing the path up with. -/
def Session.bringing (s : Session) : Option Nat :=
  match s.connected with
  | some (.alloc hop) | some (.prime hop) | some (.enable hop) | some (.finish hop) => some hop
  | _ => none

/-- A LOGIN that is noted while the path is up, or being brought up, has the transmit path
the session knows. -/
def SamePath (s : Session) : Label → Prop
  | .handler i => ∀ transmitPath ∈ (s.handlers[i]?).bind fun pc => match pc with
        | .login transmitPath => some transmitPath
        | _ => none,
      s.removing = false → (s.pathEnabled = true ∨ s.bringing.isSome = true) →
      transmitPath = s.remoteTransmitPath
  | _ => True

instance (s : Session) (label : Label) : Decidable (SamePath s label) := by
  cases label <;> unfold SamePath <;> infer_instance

/-! ## The invariant -/

/-- What the session holds, read off where its work stands. -/
def Session.holding (s : Session) : Ledger :=
  if s.pathEnabled then .up s.remoteTransmitPath
  else
    match s.connected with
    | some (.prime hop) | some (.enable hop) | some (.stop hop) => .held hop
    | some (.finish hop) => .up hop
    | _ => .free

/-- `connected_work` is not running, or is about to look at the session. -/
def Session.atRest (s : Session) : Prop := s.connected = none ∨ s.connected = some .check

/-- `connected_work` has been cancelled. -/
def DestroyPc.cancelled : DestroyPc → Bool
  | .cancelDisconnect | .logout | .teardown | .freed => true
  | _ => false

structure Kept (s : Session) : Prop where
  calls : ledger s.calls = some s.holding
  held : s.held = s.holding.hops
  single : s.pathEnabled = true → s.atRest
  copy : ∀ hop, s.bringing = some hop → hop = s.remoteTransmitPath
  removing : s.destroy ≠ .alive → s.removing = true
  cancelled : s.destroy.cancelled = true → s.atRest
  freed : s.destroy = .freed → s.pathEnabled = false

/-- The parts of a session that the ledger depends on. -/
structure SamePart (s next : Session) : Prop where
  calls : next.calls = s.calls
  held : next.held = s.held
  pathEnabled : next.pathEnabled = s.pathEnabled
  path : next.remoteTransmitPath = s.remoteTransmitPath
  connected : next.connected = s.connected
  removing : next.removing = s.removing
  destroy : next.destroy = s.destroy

theorem Kept.of_same {s next : Session} (kept : Kept s) (same : SamePart s next) :
    Kept next := by
  have holding : next.holding = s.holding := by
    unfold Session.holding
    rw [same.pathEnabled, same.path, same.connected]
  have bringing : next.bringing = s.bringing := by
    unfold Session.bringing
    rw [same.connected]
  have rest : next.atRest ↔ s.atRest := by
    unfold Session.atRest
    rw [same.connected]
  constructor
  · rw [same.calls, holding, kept.calls]
  · rw [same.held, holding, kept.held]
  · rw [same.pathEnabled, rest]
    exact kept.single
  · rw [bringing, same.path]
    exact kept.copy
  · rw [same.destroy, same.removing]
    exact kept.removing
  · rw [same.destroy, rest]
    exact kept.cancelled
  · rw [same.destroy, same.pathEnabled]
    exact kept.freed

theorem Session.atRest.bringing {s : Session} (rest : s.atRest) : s.bringing = none := by
  unfold Session.bringing
  rcases rest with none | check
  · rw [none]
  · rw [check]

theorem Session.atRest.holding {s : Session} (rest : s.atRest) (down : s.pathEnabled = false) :
    s.holding = .free := by
  unfold Session.holding
  rcases rest with none | check
  · simp [none, down]
  · simp [check, down]

theorem kept_fresh : Kept fresh where
  calls := rfl
  held := rfl
  single := nofun
  copy := nofun
  removing := fun gone => absurd rfl gone
  cancelled := nofun
  freed := nofun

/-! ## One step -/

section Step
variable {s next : Session}

/-- The teardown gives back what the path was enabled with. -/
theorem Kept.teardownPath (kept : Kept s) : Kept s.teardownPath := by
  cases enabled : s.pathEnabled with
  | false =>
      have same : SamePart s s.teardownPath := by
        constructor <;> simp [Session.teardownPath, enabled]
      exact kept.of_same same
  | true =>
      have rest := kept.single enabled
      have up : s.holding = .up s.remoteTransmitPath := by simp [Session.holding, enabled]
      have connected : s.teardownPath.connected = s.connected := by
        simp [Session.teardownPath, enabled, Session.release, Session.note]
      have disabled : s.teardownPath.pathEnabled = false := by
        simp [Session.teardownPath, enabled]
      have rest' : s.teardownPath.atRest := by
        unfold Session.atRest
        rw [connected]
        exact rest
      have read : ledger (s.calls ++ [.disabled s.remoteTransmitPath]) =
          some (.down s.remoteTransmitPath) := by
        rw [ledger_snoc kept.calls, up]
        simp [Ledger.read]
      have calls : s.teardownPath.calls = s.calls ++ [.disabled s.remoteTransmitPath] ++
          [.released s.remoteTransmitPath] := by
        simp [Session.teardownPath, enabled, Session.release, Session.note]
      constructor
      · rw [calls, ledger_snoc read, rest'.holding disabled]
        simp [Ledger.read]
      · rw [rest'.holding disabled]
        have held := kept.held
        rw [up] at held
        simp [Session.teardownPath, enabled, Session.release, Session.note, held, Ledger.hops]
      · intro again
        rw [disabled] at again
        cases again
      · rw [rest'.bringing]
        exact nofun
      · simpa [Session.teardownPath, enabled, Session.release, Session.note] using kept.removing
      · exact fun _ => rest'
      · exact fun _ => disabled

theorem Kept.noteLogin (kept : Kept s) {transmitPath : Nat}
    (same : s.removing = false → (s.pathEnabled = true ∨ s.bringing.isSome = true) →
      transmitPath = s.remoteTransmitPath) : Kept (s.noteLogin transmitPath) := by
  unfold Session.noteLogin
  by_cases removing : s.removing = true
  · rw [if_pos removing]
    exact kept
  · rw [if_neg removing]
    by_cases busy : s.pathEnabled = true ∨ s.bringing.isSome = true
    · rw [same (by simpa using removing) busy]
      exact kept.of_same ⟨rfl, rfl, rfl, rfl, rfl, rfl, rfl⟩
    · -- the path is down, so the number in the session is not held
      rw [not_or] at busy
      have down : s.pathEnabled = false := by simpa using busy.1
      have idle : s.bringing = none := by simpa using busy.2
      obtain ⟨calls, held, single, copy, gone, cancelled, freed⟩ := kept
      refine ⟨?_, ?_, single, ?_, gone, cancelled, freed⟩
      · simpa [Session.holding, down] using calls
      · simpa [Session.holding, down] using held
      · intro hop is
        have same : s.bringing = some hop := is
        rw [idle] at same
        cases same

theorem Kept.runLogin (kept : Kept s) {pc : LoginPc} {choice : Choice}
    (ran : s.runLogin pc choice = some next) : Kept next := by
  refine kept.of_same ?_
  cases pc <;> simp only [Session.runLogin] at ran
  all_goals
    repeat' split at ran
    all_goals
      first
      | cases ran
        exact ⟨rfl, rfl, rfl, rfl, rfl, rfl, rfl⟩
      | cases ran

/-- While `connected_work` is in the middle, nobody else touches the path. -/
structure Busy (s : Session) : Prop where
  down : s.pathEnabled = false
  waits : s.destroy.cancelled = false

theorem Kept.busy (kept : Kept s) {pc : ConnectedPc} (stands : s.connected = some pc)
    (moves : pc ≠ .check) : Busy s := by
  have busy : ¬ s.atRest := by
    rintro (none | check)
    · rw [stands] at none
      cases none
    · rw [stands] at check
      exact moves (Option.some.inj check)
  constructor
  · by_contra enabled
    exact busy (kept.single (by simpa using enabled))
  · by_contra gone
    exact busy (kept.cancelled (by simpa using gone))

/-- `connected_work` ends without having begun. -/
theorem Kept.settle (kept : Kept s) (rest : s.atRest) (calls : next.calls = s.calls)
    (held : next.held = s.held) (enabled : next.pathEnabled = s.pathEnabled)
    (path : next.remoteTransmitPath = s.remoteTransmitPath)
    (removing : next.removing = s.removing) (destroy : next.destroy = s.destroy)
    (rest' : next.atRest) : Kept next := by
  have holding : next.holding = s.holding := by
    cases up : s.pathEnabled with
    | true => simp [Session.holding, enabled, up, path]
    | false => rw [rest.holding up, rest'.holding (by rw [enabled, up])]
  constructor
  · rw [calls, holding, kept.calls]
  · rw [held, holding, kept.held]
  · exact fun _ => rest'
  · rw [rest'.bringing]
    exact nofun
  · rw [destroy, removing]
    exact kept.removing
  · exact fun _ => rest'
  · rw [destroy, enabled]
    exact kept.freed

/-- A step in the middle of `connected_work`. -/
theorem Kept.move (kept : Kept s) (busy : Busy s) (enabled : next.pathEnabled = s.pathEnabled)
    (path : next.remoteTransmitPath = s.remoteTransmitPath)
    (removing : next.removing = s.removing) (destroy : next.destroy = s.destroy)
    (calls : ledger next.calls = some next.holding) (held : next.held = next.holding.hops)
    (copy : ∀ hop, next.bringing = some hop → s.bringing = some hop) : Kept next where
  calls := calls
  held := held
  single := by simp [enabled, busy.down]
  copy := fun hop is => by
    rw [path]
    exact kept.copy hop (copy hop is)
  removing := by
    rw [destroy, removing]
    exact kept.removing
  cancelled := by simp [destroy, busy.waits]
  freed := by simp [enabled, busy.down]

theorem Kept.runConnected (kept : Kept s) {pc : ConnectedPc} {choice : Choice}
    (stands : s.connected = some pc) (ran : s.runConnected pc choice = some next) :
    Kept next := by
  have calls := kept.calls
  have held := kept.held
  cases pc with
  | check =>
      have rest : s.atRest := .inr stands
      simp only [Session.runConnected] at ran
      split at ran
      · cases ran
        exact kept.settle rest rfl rfl rfl rfl rfl rfl (.inl rfl)
      · rename_i going
        have down : s.pathEnabled = false := by simp_all
        split at ran
        · cases ran
          obtain ⟨calls, held, single, copy, gone, cancelled, freed⟩ := kept
          have waits : s.destroy.cancelled = false := by
            cases pc : s.destroy with
            | alive => rfl
            | _ => simp_all
          refine ⟨?_, ?_, ?_, ?_, gone, ?_, ?_⟩
          · rw [rest.holding down] at calls
            simpa [Session.holding, down] using calls
          · rw [rest.holding down] at held
            simpa [Session.holding, down] using held
          · simp [down]
          · simp [Session.bringing]
          · simp [waits]
          · exact freed
        · cases ran
          exact kept.settle rest rfl rfl rfl rfl rfl rfl (.inl rfl)
  | alloc hop =>
      have busy := kept.busy stands nofun
      have down := busy.down
      simp only [Session.holding, down, stands] at calls held
      simp only [Session.runConnected] at ran
      split at ran
      · rename_i ret
        split at ran
        · cases ran
        · split at ran
          · cases ran
            refine kept.move busy rfl rfl rfl rfl ?_ ?_ ?_
            · simp [Session.obtain, Session.note, ledger_snoc calls, Session.holding, down,
                Ledger.read]
            · simp [Session.obtain, Session.note, Session.holding, down, held, Ledger.hops]
            · simp [Session.bringing, stands]
          · split at ran
            · cases ran
              have obtained : ledger (s.calls ++ [.obtained ret.toNat]) =
                  some (.held ret.toNat) := by
                rw [ledger_snoc calls]
                rfl
              have released : ledger (s.calls ++ [.obtained ret.toNat] ++
                  [.released ret.toNat]) = some .free := by
                rw [ledger_snoc obtained]
                simp [Ledger.read]
              simp only [Session.release, Session.obtain, Session.note]
              refine kept.move busy rfl rfl rfl rfl ?_ ?_ ?_
              · simpa [Session.holding, down] using released
              · simp [Session.holding, down, held, Ledger.hops]
              · simp [Session.bringing]
            · cases ran
              refine kept.move busy rfl rfl rfl rfl ?_ ?_ ?_
              · simp [Session.holding, down, calls]
              · simp [Session.holding, down, held]
              · simp [Session.bringing]
      · cases ran
  | prime hop =>
      have busy := kept.busy stands nofun
      have down := busy.down
      simp only [Session.holding, down, stands] at calls held
      simp only [Session.runConnected] at ran
      split at ran
      · cases ran
        refine kept.move busy rfl rfl rfl rfl ?_ ?_ ?_
        · simp [Session.holding, down, calls]
        · simp [Session.holding, down, held]
        · simp [Session.bringing, stands]
      · cases ran
        refine kept.move busy rfl rfl rfl rfl ?_ ?_ ?_
        · simp [Session.holding, down, calls]
        · simp [Session.holding, down, held]
        · simp [Session.bringing]
      · cases ran
  | enable hop =>
      have busy := kept.busy stands nofun
      have down := busy.down
      simp only [Session.holding, down, stands] at calls held
      simp only [Session.runConnected] at ran
      split at ran
      · cases ran
        refine kept.move busy rfl rfl rfl rfl ?_ ?_ ?_
        · simp [Session.note, ledger_snoc calls, Session.holding, down, Ledger.read]
        · simp [Session.note, Session.holding, down, held, Ledger.hops]
        · simp [Session.bringing, stands]
      · cases ran
        refine kept.move busy rfl rfl rfl rfl ?_ ?_ ?_
        · simp [Session.holding, down, calls]
        · simp [Session.holding, down, held]
        · simp [Session.bringing]
      · cases ran
  | finish hop =>
      have busy := kept.busy stands nofun
      have down := busy.down
      simp only [Session.holding, down, stands] at calls held
      have same : hop = s.remoteTransmitPath := kept.copy hop (by simp [Session.bringing, stands])
      subst same
      cases ran
      have waits : s.destroy ≠ .freed := by
        intro freed
        have := busy.waits
        rw [freed] at this
        cases this
      constructor
      case calls => simpa [Session.holding] using calls
      case held => simpa [Session.holding, Ledger.hops] using held
      case single => exact fun _ => .inl rfl
      case copy => simp [Session.bringing]
      case removing => exact kept.removing
      case cancelled => exact fun _ => .inl rfl
      case freed => exact fun freed => absurd freed waits
  | stop hop =>
      have busy := kept.busy stands nofun
      have down := busy.down
      simp only [Session.holding, down, stands] at calls held
      cases ran
      refine kept.move busy rfl rfl rfl rfl ?_ ?_ ?_
      · simp [Session.release, Session.note, ledger_snoc calls, Session.holding, down,
          Ledger.read]
      · simp [Session.release, Session.note, Session.holding, down, held, Ledger.hops]
      · simp [Session.bringing]
  | retry =>
      have busy := kept.busy stands nofun
      have down := busy.down
      simp only [Session.holding, down, stands] at calls held
      simp only [Session.runConnected] at ran
      split at ran
      all_goals
        cases ran
        refine kept.move busy rfl rfl rfl rfl ?_ ?_ ?_
        · simp [Session.holding, down, calls]
        · simp [Session.holding, down, held]
        · simp [Session.bringing]

theorem Kept.runDestroy (kept : Kept s) (ran : s.runDestroy = some next) : Kept next := by
  cases pc : s.destroy with
  | alive =>
      simp only [Session.runDestroy, pc] at ran
      cases ran
      obtain ⟨calls, held, single, copy, -, -, -⟩ := kept
      exact ⟨calls, held, single, copy, fun _ => rfl, nofun, nofun⟩
  | unregister =>
      simp only [Session.runDestroy, pc] at ran
      cases ran
      have gone := kept.removing (by simp [pc])
      obtain ⟨calls, held, single, copy, -, -, -⟩ := kept
      exact ⟨calls, held, single, copy, fun _ => gone, nofun, nofun⟩
  | cancelLogin =>
      simp only [Session.runDestroy, pc] at ran
      split at ran
      · cases ran
        have gone := kept.removing (by simp [pc])
        obtain ⟨calls, held, single, copy, -, -, -⟩ := kept
        exact ⟨calls, held, single, copy, fun _ => gone, nofun, nofun⟩
      · cases ran
  | cancelConnected =>
      simp only [Session.runDestroy, pc] at ran
      split at ran
      · rename_i ended
        cases ran
        have gone := kept.removing (by simp [pc])
        obtain ⟨calls, held, single, copy, -, -, -⟩ := kept
        exact ⟨calls, held, single, copy, fun _ => gone,
          fun _ => .inl (Option.isNone_iff_eq_none.mp ended), nofun⟩
      · cases ran
  | cancelDisconnect =>
      simp only [Session.runDestroy, pc] at ran
      split at ran
      · cases ran
      · cases ran
        have gone := kept.removing (by simp [pc])
        have rest := kept.cancelled (by simp [pc, DestroyPc.cancelled])
        obtain ⟨calls, held, single, copy, -, -, -⟩ := kept
        exact ⟨calls, held, single, copy, fun _ => gone, fun _ => rest, nofun⟩
  | logout =>
      simp only [Session.runDestroy, pc] at ran
      cases ran
      have gone := kept.removing (by simp [pc])
      have rest := kept.cancelled (by simp [pc, DestroyPc.cancelled])
      obtain ⟨calls, held, single, copy, -, -, -⟩ := kept
      exact ⟨calls, held, single, copy, fun _ => gone, fun _ => rest, nofun⟩
  | teardown =>
      simp only [Session.runDestroy, pc] at ran
      cases ran
      have after := kept.teardownPath
      have same : s.teardownPath.destroy = s.destroy := by
        unfold Session.teardownPath
        dsimp only
        split <;> rfl
      have gone := after.removing (by simp [same, pc])
      have rest := after.cancelled (by simp [same, pc, DestroyPc.cancelled])
      have down : s.teardownPath.pathEnabled = false := by
        unfold Session.teardownPath
        dsimp only
        split
        · rfl
        · simp_all
      obtain ⟨calls, held, single, copy, -, -, -⟩ := after
      exact ⟨calls, held, single, copy, fun _ => gone, fun _ => rest, fun _ => down⟩
  | freed =>
      simp only [Session.runDestroy, pc] at ran
      cases ran

theorem Kept.step {label : Label} (kept : Kept s) (same : SamePath s label)
    (stepped : step s label = some next) : Kept next := by
  unfold Tbnet.step at stepped
  split at stepped
  · cases stepped
  · cases label with
    | loginPacket transmitPath =>
        simp only [Session.act] at stepped
        split at stepped <;> cases stepped
        exact kept.of_same ⟨rfl, rfl, rfl, rfl, rfl, rfl, rfl⟩
    | logoutPacket =>
        simp only [Session.act] at stepped
        split at stepped <;> cases stepped
        exact kept.of_same ⟨rfl, rfl, rfl, rfl, rfl, rfl, rfl⟩
    | handler i =>
        obtain ⟨pc, found, rfl⟩ := Option.map_eq_some_iff.mp stepped
        cases pc with
        | login transmitPath =>
            have noted := kept.noteLogin (same transmitPath (by simp [found]))
            exact noted.of_same ⟨rfl, rfl, rfl, rfl, rfl, rfl, rfl⟩
        | queueConnected => exact kept.of_same ⟨rfl, rfl, rfl, rfl, rfl, rfl, rfl⟩
        | logout => exact kept.of_same ⟨rfl, rfl, rfl, rfl, rfl, rfl, rfl⟩
    | startLogin =>
        simp only [Session.act] at stepped
        split at stepped <;> cases stepped
        exact kept.of_same ⟨rfl, rfl, rfl, rfl, rfl, rfl, rfl⟩
    | login choice =>
        obtain ⟨pc, -, ran⟩ := Option.bind_eq_some_iff.mp stepped
        exact kept.runLogin ran
    | startConnected =>
        simp only [Session.act] at stepped
        split at stepped <;> cases stepped
        rename_i queued
        simp only [Bool.and_eq_true, Option.isNone_iff_eq_none] at queued
        exact kept.settle (.inl queued.2) rfl rfl rfl rfl rfl rfl (.inr rfl)
    | connected choice =>
        obtain ⟨pc, stands, ran⟩ := Option.bind_eq_some_iff.mp stepped
        exact kept.runConnected stands ran
    | startDisconnect =>
        simp only [Session.act] at stepped
        split at stepped <;> cases stepped
        exact kept.of_same ⟨rfl, rfl, rfl, rfl, rfl, rfl, rfl⟩
    | disconnect =>
        simp only [Session.act] at stepped
        split at stepped <;> cases stepped
        exact kept.teardownPath.of_same ⟨rfl, rfl, rfl, rfl, rfl, rfl, rfl⟩
    | destroy => exact kept.runDestroy stepped

theorem Kept.balanced (kept : Kept s) : Balanced s := by
  refine ⟨s.holding, kept.calls, ?_, fun freed => ?_⟩
  · rw [kept.held]
    cases s.holding <;> simp [Ledger.hops]
  · have free : s.holding = .free :=
      (kept.cancelled (by simp [freed, DestroyPc.cancelled])).holding (kept.freed freed)
    exact ⟨free, by rw [kept.held, free]; rfl⟩

end Step

/-- Every run in which each LOGIN that finds the path up, or on its way up, repeats the
transmit path: the session gives back exactly what it took. -/
theorem hopid_released_once (s : Session) (reached : Reaches step SamePath fresh s) :
    Balanced s := by
  have kept : Kept s := reached.invariant kept_fresh fun kept same stepped => kept.step same stepped
  exact kept.balanced

/-- LOGIN from both sides and a path that comes up with HopID 8. -/
def connects : List Label :=
  [.loginPacket 8, .handler 0, .handler 0, .startLogin, .login .ok, .login .ok, .login .ok,
    .login .ok, .login .ok, .login .ok, .startConnected, .connected .ok, .connected (.hop 8),
    .connected .ok, .connected .ok, .connected .ok]

def removes : List Label :=
  [.destroy, .destroy, .destroy, .destroy, .destroy, .destroy, .destroy]

/-- A repeated LOGIN, a LOGOUT and the removal. -/
theorem hopid_released_once_connects : ∃ s, Reaches step SamePath fresh s ∧
    s.destroy = .freed ∧ s.calls.length = 4 ∧ Balanced s := by
  have ran : (guarded step SamePath
      (connects ++ [.loginPacket 8, .handler 0, .logoutPacket, .handler 1, .startDisconnect,
        .disconnect] ++ removes) fresh).any
      (fun s => s.destroy = .freed && s.calls.length == 4) = true := by decide +kernel
  obtain ⟨s, reached, found⟩ := exists_reaches_of_guarded ran
  simp only [Bool.and_eq_true, decide_eq_true_eq, beq_iff_eq] at found
  exact ⟨s, reached, found.1, found.2, hopid_released_once s reached⟩

/-- A second LOGIN with transmit path 9 makes the removal disable and release 9; the
session keeps 8. -/
theorem login_changes_released_hopid :
    ¬ ∀ s, Reaches step (fun _ _ => True) fresh s → Balanced s := by
  intro claim
  have ran : (guarded step (fun _ _ => True)
      (connects ++ [.loginPacket 9, .handler 0, .handler 0] ++ removes) fresh).any
      (fun s => s.calls == [.obtained 8, .enabled 8, .disabled 9, .released 9] &&
        s.held == [8]) = true := by decide +kernel
  obtain ⟨s, reached, found⟩ := exists_reaches_of_guarded ran
  simp only [Bool.and_eq_true, beq_iff_eq] at found
  obtain ⟨now, read, -⟩ := claim s reached
  rw [found.1] at read
  cases read

end Tbv.Tbnet
