import ThunderboltIbverbs.Tbnet.HopIds

/-! # The path is up only inside a reciprocal login

`connected_work` looks at the login flags once and sets `path_enabled` some calls later;
`login_work` sets `login_sent` for a request it sent some time ago.  A teardown clears the
flags.  As long as it falls into neither gap, the path is up only while both sides have
logged in since the last teardown. -/
set_option autoImplicit false
namespace Tbv.Tbnet

open Trans

/-- The path is up only with both logins and the rings, and both logins are newer than the
last teardown. -/
def Reciprocal (s : Session) : Prop :=
  s.pathEnabled = true → s.loginSent = true ∧ s.loginReceived = true ∧ s.ringsStarted = true ∧
    s.sentSince = true ∧ s.receivedSince = true

/-- `login_work` has sent its LOGIN and not yet noted the answer. -/
def Session.awaiting (s : Session) : Bool :=
  s.login == some .wait || s.login == some .answered

/-- `disconnect_work` does its teardown neither while `connected_work` is bringing the path
up nor while `login_work` waits for its answer. -/
def Undisturbed (s : Session) : Label → Prop
  | .disconnect => s.bringing = none ∧ s.awaiting = false
  | _ => True

instance (s : Session) : (label : Label) → Decidable (Undisturbed s label)
  | .disconnect => inferInstanceAs (Decidable (s.bringing = none ∧ s.awaiting = false))
  | .loginPacket _ | .logoutPacket | .handler _ | .startLogin | .login _ | .startConnected
  | .connected _ | .startDisconnect | .destroy => .isTrue trivial

/-- What keeps the path inside a login. -/
structure LoggedIn (s : Session) : Prop where
  sent : s.loginSent = true → s.sentSince = true
  received : s.loginReceived = true → s.receivedSince = true
  awaiting : s.awaiting = true → s.sentSince = true
  bringing : s.bringing.isSome = true → s.loginSent = true ∧ s.loginReceived = true
  enabled : s.pathEnabled = true →
    s.loginSent = true ∧ s.loginReceived = true ∧ s.ringsStarted = true

theorem LoggedIn.reciprocal {s : Session} (inside : LoggedIn s) : Reciprocal s := by
  intro enabled
  obtain ⟨sent, received, rings⟩ := inside.enabled enabled
  exact ⟨sent, received, rings, inside.sent sent, inside.received received⟩

section Step
variable {s next : Session}

/-- Logins and rings that are only added to. -/
structure Grows (s next : Session) : Prop where
  sent : s.loginSent = true → next.loginSent = true
  received : s.loginReceived = true → next.loginReceived = true
  rings : s.ringsStarted = true → next.ringsStarted = true
  sentSince : s.sentSince = true → next.sentSince = true
  receivedSince : s.receivedSince = true → next.receivedSince = true

theorem LoggedIn.grow (inside : LoggedIn s) (grows : Grows s next)
    (sent : next.loginSent = true → s.loginSent = true ∨ next.sentSince = true)
    (received : next.loginReceived = true →
      s.loginReceived = true ∨ next.receivedSince = true)
    (awaiting : next.awaiting = true → s.awaiting = true ∨ next.sentSince = true)
    (bringing : next.bringing.isSome = true →
      s.bringing.isSome = true ∨ s.loginSent = true ∧ s.loginReceived = true)
    (enabled : next.pathEnabled = true → s.pathEnabled = true ∨
      s.bringing.isSome = true ∧ next.ringsStarted = true) : LoggedIn next where
  sent := fun is => (sent is).elim (fun old => grows.sentSince (inside.sent old)) id
  received := fun is =>
    (received is).elim (fun old => grows.receivedSince (inside.received old)) id
  awaiting := fun is =>
    (awaiting is).elim (fun old => grows.sentSince (inside.awaiting old)) id
  bringing := fun is => by
    have both : s.loginSent = true ∧ s.loginReceived = true :=
      (bringing is).elim (fun old => inside.bringing old) id
    exact ⟨grows.sent both.1, grows.received both.2⟩
  enabled := fun is => by
    rcases enabled is with old | ⟨up, rings⟩
    · obtain ⟨first, second, third⟩ := inside.enabled old
      exact ⟨grows.sent first, grows.received second, grows.rings third⟩
    · obtain ⟨first, second⟩ := inside.bringing up
      exact ⟨grows.sent first, grows.received second, rings⟩

/-- Steps that leave the logins, the path and the two works alone. -/
theorem LoggedIn.of_same (inside : LoggedIn s) (sent : next.loginSent = s.loginSent)
    (received : next.loginReceived = s.loginReceived) (rings : next.ringsStarted = s.ringsStarted)
    (sentSince : next.sentSince = s.sentSince)
    (receivedSince : next.receivedSince = s.receivedSince) (login : next.login = s.login)
    (connected : next.connected = s.connected) (enabled : next.pathEnabled = s.pathEnabled) :
    LoggedIn next := by
  have awaiting : next.awaiting = s.awaiting := by simp [Session.awaiting, login]
  have bringing : next.bringing = s.bringing := by simp [Session.bringing, connected]
  refine inside.grow ⟨?_, ?_, ?_, ?_, ?_⟩ ?_ ?_ ?_ ?_ ?_ <;> simp_all

theorem LoggedIn.noteLogin (inside : LoggedIn s) (transmitPath : Nat) :
    LoggedIn (s.noteLogin transmitPath) := by
  unfold Session.noteLogin
  split
  · exact inside
  · exact inside.grow ⟨id, fun _ => rfl, id, id, fun _ => rfl⟩ .inl (fun _ => .inr rfl) .inl .inl
      .inl

theorem LoggedIn.runLogin (inside : LoggedIn s) {pc : LoginPc} {choice : Choice}
    (stands : s.login = some pc) (ran : s.runLogin pc choice = some next) : LoggedIn next := by
  cases pc with
  | request =>
      simp only [Session.runLogin] at ran
      split at ran
      · cases ran
        exact inside.grow ⟨id, id, id, fun _ => rfl, id⟩ .inl .inl (fun _ => .inr rfl) .inl .inl
      · cases ran
        exact inside.grow ⟨id, id, id, id, id⟩ .inl .inl (by rintro ⟨⟩) .inl .inl
      · cases ran
  | wait =>
      simp only [Session.runLogin] at ran
      have waits : s.awaiting = true := by simp [Session.awaiting, stands]
      split at ran
      · cases ran
        exact inside.grow ⟨id, id, id, id, id⟩ .inl .inl (fun _ => .inl waits) .inl .inl
      · cases ran
        exact inside.grow ⟨id, id, id, id, id⟩ .inl .inl (by rintro ⟨⟩) .inl .inl
      · cases ran
  | answered =>
      have since : s.sentSince = true := inside.awaiting (by simp [Session.awaiting, stands])
      simp only [Session.runLogin] at ran
      repeat' split at ran
      all_goals
        cases ran
        exact inside.grow ⟨fun _ => rfl, id, id, id, id⟩ (fun _ => .inr since) .inl (by rintro ⟨⟩)
          .inl .inl
  | check | reset | build | failed | noted retryLater =>
      simp only [Session.runLogin] at ran
      repeat' split at ran
      all_goals
        cases ran
        exact inside.grow ⟨id, id, id, id, id⟩ .inl .inl (by rintro ⟨⟩) .inl .inl

theorem LoggedIn.runConnected (inside : LoggedIn s) {pc : ConnectedPc} {choice : Choice}
    (stands : s.connected = some pc) (ran : s.runConnected pc choice = some next) :
    LoggedIn next := by
  cases pc with
  | check =>
      simp only [Session.runConnected] at ran
      split at ran
      · cases ran
        exact inside.grow ⟨id, id, id, id, id⟩ .inl .inl .inl (by rintro ⟨⟩) .inl
      · split at ran
        · rename_i both
          rw [Bool.and_eq_true] at both
          cases ran
          exact inside.grow ⟨id, id, id, id, id⟩ .inl .inl .inl (fun _ => .inr both) .inl
        · cases ran
          exact inside.grow ⟨id, id, id, id, id⟩ .inl .inl .inl (by rintro ⟨⟩) .inl
  | alloc hop | prime hop | enable hop =>
      have up : s.bringing.isSome = true := by simp [Session.bringing, stands]
      simp only [Session.runConnected, Session.obtain, Session.release, Session.note] at ran
      repeat' split at ran
      all_goals cases ran
      all_goals exact inside.grow ⟨id, id, id, id, id⟩ .inl .inl .inl (fun _ => .inl up) .inl
  | finish hop =>
      have up : s.bringing.isSome = true := by simp [Session.bringing, stands]
      cases ran
      exact inside.grow ⟨id, id, fun _ => rfl, id, id⟩ .inl .inl .inl (by rintro ⟨⟩)
        (fun _ => .inr ⟨up, rfl⟩)
  | stop hop =>
      cases ran
      exact inside.grow ⟨id, id, id, id, id⟩ .inl .inl .inl (by rintro ⟨⟩) .inl
  | retry =>
      simp only [Session.runConnected] at ran
      split at ran
      all_goals
        cases ran
        exact inside.grow ⟨id, id, id, id, id⟩ .inl .inl .inl (by rintro ⟨⟩) .inl

theorem Session.teardownPath_clears (s : Session) :
    s.teardownPath.pathEnabled = false ∧ s.teardownPath.loginSent = false ∧
      s.teardownPath.loginReceived = false ∧ s.teardownPath.login = s.login ∧
      s.teardownPath.connected = s.connected := by
  unfold Session.teardownPath
  dsimp only
  split
  · exact ⟨rfl, rfl, rfl, rfl, rfl⟩
  · rename_i down
    exact ⟨by simpa using down, rfl, rfl, rfl, rfl⟩

/-- A teardown that falls into no gap. -/
theorem loggedIn_teardown (calm : s.bringing = none ∧ s.awaiting = false) :
    LoggedIn { s.teardownPath with disconnecting := false } := by
  obtain ⟨down, unsent, unreceived, login, connected⟩ := s.teardownPath_clears
  constructor
  · simp [unsent]
  · simp [unreceived]
  · have same : s.awaiting = false := calm.2
    simp only [Session.awaiting] at same ⊢
    simp only [login, same]
    rintro ⟨⟩
  · have same : s.bringing = none := calm.1
    simp only [Session.bringing] at same ⊢
    simp only [connected, same]
    rintro ⟨⟩
  · simp [down]

theorem LoggedIn.step {label : Label} (inside : s.destroy = .freed ∧ s.pathEnabled = false ∨
    LoggedIn s) (calm : Undisturbed s label) (stepped : step s label = some next) :
    next.destroy = .freed ∧ next.pathEnabled = false ∨ LoggedIn next := by
  unfold Tbnet.step at stepped
  split at stepped
  · cases stepped
  · rename_i there
    have inside : LoggedIn s := inside.resolve_left fun gone => there gone.1
    cases label with
    | loginPacket transmitPath =>
        simp only [Session.act] at stepped
        split at stepped <;> cases stepped
        exact .inr (inside.of_same rfl rfl rfl rfl rfl rfl rfl rfl)
    | logoutPacket =>
        simp only [Session.act] at stepped
        split at stepped <;> cases stepped
        exact .inr (inside.of_same rfl rfl rfl rfl rfl rfl rfl rfl)
    | handler i =>
        obtain ⟨pc, -, rfl⟩ := Option.map_eq_some_iff.mp stepped
        cases pc with
        | login transmitPath =>
            exact .inr ((inside.noteLogin transmitPath).of_same rfl rfl rfl rfl rfl rfl rfl rfl)
        | queueConnected => exact .inr (inside.of_same rfl rfl rfl rfl rfl rfl rfl rfl)
        | logout => exact .inr (inside.of_same rfl rfl rfl rfl rfl rfl rfl rfl)
    | startLogin =>
        simp only [Session.act] at stepped
        split at stepped <;> cases stepped
        exact .inr (inside.grow ⟨id, id, id, id, id⟩ .inl .inl (by rintro ⟨⟩) .inl .inl)
    | login choice =>
        obtain ⟨pc, stands, ran⟩ := Option.bind_eq_some_iff.mp stepped
        exact .inr (inside.runLogin stands ran)
    | startConnected =>
        simp only [Session.act] at stepped
        split at stepped <;> cases stepped
        exact .inr (inside.grow ⟨id, id, id, id, id⟩ .inl .inl .inl (by rintro ⟨⟩) .inl)
    | connected choice =>
        obtain ⟨pc, stands, ran⟩ := Option.bind_eq_some_iff.mp stepped
        exact .inr (inside.runConnected stands ran)
    | startDisconnect =>
        simp only [Session.act] at stepped
        split at stepped <;> cases stepped
        exact .inr (inside.of_same rfl rfl rfl rfl rfl rfl rfl rfl)
    | disconnect =>
        simp only [Session.act] at stepped
        split at stepped <;> cases stepped
        exact .inr (loggedIn_teardown calm)
    | destroy =>
        simp only [Session.act, Session.runDestroy] at stepped
        repeat' split at stepped
        all_goals cases stepped
        all_goals first
          | exact .inr (inside.of_same rfl rfl rfl rfl rfl rfl rfl rfl)
          | exact .inl ⟨rfl, s.teardownPath_clears.1⟩

end Step

theorem path_inside_reciprocal_login (s : Session) (reached : Reaches step Undisturbed fresh s) :
    Reciprocal s := by
  have inside : s.destroy = .freed ∧ s.pathEnabled = false ∨ LoggedIn s :=
    reached.invariant (.inr ⟨nofun, nofun, nofun, nofun, nofun⟩)
      fun inside calm stepped => LoggedIn.step inside calm stepped
  rcases inside with ⟨-, down⟩ | inside
  · intro enabled
    rw [down] at enabled
    cases enabled
  · exact inside.reciprocal

/-- The path comes up, is torn down by a LOGOUT, and comes up again with new logins. -/
theorem path_inside_reciprocal_login_connects : ∃ s, Reaches step Undisturbed fresh s ∧
    s.pathEnabled = true ∧ s.calls.length = 6 ∧ Reciprocal s := by
  have ran : (guarded step Undisturbed
      (connects ++ [.logoutPacket, .handler 0, .startDisconnect, .disconnect] ++ connects)
      fresh).any (fun s => s.pathEnabled && s.calls.length == 6) = true := by decide +kernel
  obtain ⟨s, reached, found⟩ := exists_reaches_of_guarded ran
  simp only [Bool.and_eq_true, beq_iff_eq] at found
  exact ⟨s, reached, found.1, found.2, path_inside_reciprocal_login s reached⟩

/-- The teardown of a LOGOUT runs while `connected_work` is about to set `path_enabled`. -/
theorem teardown_in_gap_leaves_path_up :
    ¬ ∀ s, Reaches step (fun _ _ => True) fresh s → Reciprocal s := by
  intro claim
  have ran : (guarded step (fun _ _ => True)
      (connects.dropLast ++ [.logoutPacket, .handler 0, .startDisconnect, .disconnect,
        .connected .ok]) fresh).any
      (fun s => s.pathEnabled && !s.loginSent) = true := by decide +kernel
  obtain ⟨s, reached, found⟩ := exists_reaches_of_guarded ran
  simp only [Bool.and_eq_true, Bool.not_eq_true'] at found
  have := (claim s reached found.1).1
  rw [found.2] at this
  cases this

end Tbv.Tbnet
