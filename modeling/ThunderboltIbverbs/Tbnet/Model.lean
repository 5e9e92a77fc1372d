import ThunderboltIbverbs.Lib.Run

/-! # A minimal ThunderboltIP session

`kernel/tbnet_minimal.c`.  Each of the three works is at most once running and at most
once queued; where it stands is a program counter, one step per section under
`session->lock` or call into the Thunderbolt core.  Packet handlers run beside them, any
number at a time.  Every call about an in-HopID or the path is noted in `calls`. -/
set_option autoImplicit false
namespace Tbv.Tbnet

def loginRetries : Nat := 60

def intMax : Nat := 2 ^ 31 - 1

/-- Calls to `tb_xdomain_alloc_in_hopid` that gave a number, `tb_xdomain_enable_paths` that
succeeded, `tb_xdomain_disable_paths` and `tb_xdomain_release_in_hopid`, with the number or
remote path. -/
inductive Call where
  | obtained (hop : Nat)
  | enabled (hop : Nat)
  | disabled (hop : Nat)
  | released (hop : Nat)
  deriving DecidableEq, Repr

/-- Where `tbv_tbnet_minimal_login_work` stands. -/
inductive LoginPc where
  | check | reset | build | request | wait | failed | answered
  | noted (retryLater : Bool)
  deriving DecidableEq, Repr

/-- Where `tbv_tbnet_minimal_connected_work` stands; `hop` is its own copy of
`remote_transmit_path`. -/
inductive ConnectedPc where
  | check
  | alloc (hop : Nat)
  | prime (hop : Nat)
  | enable (hop : Nat)
  | finish (hop : Nat)
  | stop (hop : Nat)
  | retry
  deriving DecidableEq, Repr

/-- What a packet handler has left to do. -/
inductive HandlerPc where
  | login (transmitPath : Nat)
  | queueConnected
  | logout
  deriving DecidableEq, Repr

/-- Where `tbv_tbnet_minimal_destroy_session` stands. -/
inductive DestroyPc where
  | alive | unregister | cancelLogin | cancelConnected | cancelDisconnect | logout | teardown
  | freed
  deriving DecidableEq, Repr

/-- `held` are the in-HopIDs the XDomain has given out.  `sentSince` and `receivedSince`:
a LOGIN was sent, or received, since the last teardown. -/
structure Session where
  loginSent : Bool := false
  loginReceived : Bool := false
  pathEnabled : Bool := false
  ringsStarted : Bool := false
  removing : Bool := false
  remoteTransmitPath : Nat := 0
  loginRetries : Nat := 0
  pathRetries : Nat := 0
  loginQueued : Bool := true
  connectedQueued : Bool := false
  disconnectQueued : Bool := false
  login : Option LoginPc := none
  connected : Option ConnectedPc := none
  disconnecting : Bool := false
  handlers : List HandlerPc := []
  destroy : DestroyPc := .alive
  registered : Bool := true
  calls : List Call := []
  held : List Nat := []
  sentSince : Bool := false
  receivedSince : Bool := false
  deriving DecidableEq, Repr

/-- What a call into the Thunderbolt core returns. -/
inductive Choice where
  | ok
  | fail
  | hop (ret : Int)
  deriving DecidableEq, Repr

def Session.note (s : Session) (call : Call) : Session := { s with calls := s.calls ++ [call] }

/-- `tb_xdomain_alloc_in_hopid` gives `hop`. -/
def Session.obtain (s : Session) (hop : Nat) : Session :=
  { s.note (.obtained hop) with held := hop :: s.held }

/-- `tb_xdomain_release_in_hopid`. -/
def Session.release (s : Session) (hop : Nat) : Session :=
  { s.note (.released hop) with held := s.held.erase hop }

/-- `tbv_tbnet_minimal_teardown_path`, one section. -/
def Session.teardownPath (s : Session) : Session :=
  let s := { s with ringsStarted := false }
  let s :=
    if s.pathEnabled then
      { (s.note (.disabled s.remoteTransmitPath)).release s.remoteTransmitPath with
        pathEnabled := false
        remoteTransmitPath := 0 }
    else s
  { s with
    loginSent := false
    loginReceived := false
    loginRetries := 0
    pathRetries := 0
    sentSince := false
    receivedSince := false }

/-- The locked section of `tbv_tbnet_minimal_handle_packet_common` for a LOGIN. -/
def Session.noteLogin (s : Session) (transmitPath : Nat) : Session :=
  if s.removing then s
  else
    { s with
      loginReceived := true
      loginRetries := 0
      remoteTransmitPath := transmitPath
      loginQueued := s.loginQueued || !s.loginSent
      receivedSince := true }

/-! ## The works -/

def Session.runLogin (s : Session) (pc : LoginPc) (choice : Choice) : Option Session :=
  match pc with
  | .check =>
      if s.pathEnabled || s.removing then some { s with login := none }
      else if s.loginReceived then some { s with login := some .build }
      else some { s with login := some .reset }
  -- the LOGOUT of `tbv_tbnet_minimal_send_logout_request`, whatever its answer
  | .reset => some { s with login := some .build }
  | .build =>
      if s.pathEnabled || s.removing then some { s with login := none }
      else some { s with login := some .request }
  | .request =>
      match choice with
      | .ok => some { s with login := some .wait, sentSince := true }
      | .fail => some { s with login := some .failed }
      | .hop _ => none
  | .wait =>
      match choice with
      | .ok => some { s with login := some .answered }
      | .fail => some { s with login := some .failed }
      | .hop _ => none
  | .failed =>
      if s.removing then some { s with login := none }
      else
        some { s with
          login := none
          loginRetries := s.loginRetries + 1
          loginQueued := s.loginQueued || decide (s.loginRetries < Tbnet.loginRetries) }
  | .answered =>
      let s := { s with loginSent := true }
      if s.loginReceived then some { s with loginRetries := 0, login := some (.noted false) }
      else if s.removing then some { s with login := some (.noted false) }
      else
        some { s with
          loginRetries := s.loginRetries + 1
          login := some (.noted (decide (s.loginRetries < Tbnet.loginRetries))) }
  | .noted retryLater =>
      some { s with
        login := none
        connectedQueued := true
        loginQueued := s.loginQueued || retryLater }

def Session.runConnected (s : Session) (pc : ConnectedPc) (choice : Choice) : Option Session :=
  match pc with
  | .check =>
      if s.pathEnabled || s.removing then some { s with connected := none }
      else if s.loginSent && s.loginReceived then
        some { s with connected := some (.alloc s.remoteTransmitPath) }
      else some { s with connected := none }
  | .alloc hop =>
      match choice with
      | .hop ret =>
          -- a number that is given out is free
          if 0 < ret ∧ ret.toNat ∈ s.held then none
          else if ret = hop then some { s.obtain hop with connected := some (.prime hop) }
          else if 0 < ret then
            some { (s.obtain ret.toNat).release ret.toNat with connected := some .retry }
          else some { s with connected := some .retry }
      | _ => none
  | .prime hop =>
      match choice with
      | .ok => some { s with connected := some (.enable hop) }
      | .fail => some { s with connected := some (.stop hop) }
      | .hop _ => none
  | .enable hop =>
      match choice with
      | .ok => some { s.note (.enabled hop) with connected := some (.finish hop) }
      | .fail => some { s with connected := some (.stop hop) }
      | .hop _ => none
  | .finish _ =>
      some { s with
        ringsStarted := true
        pathEnabled := true
        pathRetries := 0
        connected := none }
  | .stop hop => some { s.release hop with connected := some .retry }
  -- `tbv_tbnet_minimal_retry_connected`
  | .retry =>
      if !s.removing && !s.pathEnabled && s.loginSent && s.loginReceived then
        some { s with
          connected := none
          pathRetries := s.pathRetries + 1
          connectedQueued := s.connectedQueued || decide (s.pathRetries < Tbnet.loginRetries) }
      else some { s with connected := none }

def Session.runHandler (s : Session) (i : Nat) : HandlerPc → Session
  | .login transmitPath =>
      { s.noteLogin transmitPath with handlers := s.handlers.set i .queueConnected }
  | .queueConnected => { s with handlers := s.handlers.eraseIdx i, connectedQueued := true }
  | .logout => { s with handlers := s.handlers.eraseIdx i, disconnectQueued := true }

/-- `tbv_tbnet_minimal_destroy_session`; a cancel waits for its work to end. -/
def Session.runDestroy (s : Session) : Option Session :=
  match s.destroy with
  | .alive => some { s with removing := true, destroy := .unregister }
  | .unregister => some { s with registered := false, destroy := .cancelLogin }
  | .cancelLogin =>
      if s.login.isNone then
        some { s with loginQueued := false, destroy := .cancelConnected }
      else none
  | .cancelConnected =>
      if s.connected.isNone then
        some { s with connectedQueued := false, destroy := .cancelDisconnect }
      else none
  | .cancelDisconnect =>
      if s.disconnecting then none
      else some { s with disconnectQueued := false, destroy := .logout }
  | .logout => some { s with destroy := .teardown }
  | .teardown => some { s.teardownPath with destroy := .freed }
  | .freed => none

/-! ## Steps -/

inductive Label where
  | loginPacket (transmitPath : Nat)
  | logoutPacket
  | handler (i : Nat)
  | startLogin
  | login (choice : Choice)
  | startConnected
  | connected (choice : Choice)
  | startDisconnect
  | disconnect
  | destroy
  deriving DecidableEq, Repr

/-- A LOGIN with a transmit path outside `1 .. INT_MAX`, or whose response could not be
sent, is ignored. -/
def Session.act (s : Session) : Label → Option Session
  | .loginPacket transmitPath =>
      if s.registered ∧ 0 < transmitPath ∧ transmitPath ≤ intMax then
        some { s with handlers := s.handlers ++ [.login transmitPath] }
      else none
  | .logoutPacket =>
      if s.registered then some { s with handlers := s.handlers ++ [.logout] } else none
  | .handler i => (s.handlers[i]?).map (s.runHandler i)
  | .startLogin =>
      if s.loginQueued && s.login.isNone then
        some { s with loginQueued := false, login := some .check }
      else none
  | .login choice => s.login.bind fun pc => s.runLogin pc choice
  | .startConnected =>
      if s.connectedQueued && s.connected.isNone then
        some { s with connectedQueued := false, connected := some .check }
      else none
  | .connected choice => s.connected.bind fun pc => s.runConnected pc choice
  | .startDisconnect =>
      if s.disconnectQueued && !s.disconnecting then
        some { s with disconnectQueued := false, disconnecting := true }
      else none
  | .disconnect =>
      if s.disconnecting then some { s.teardownPath with disconnecting := false } else none
  | .destroy => s.runDestroy

/-- Nothing happens to a session that is gone. -/
def step (s : Session) (label : Label) : Option Session :=
  if s.destroy = .freed then none else s.act label

/-- `tbv_tbnet_minimal_probe`: the first login work is queued. -/
def fresh : Session := {}

end Tbv.Tbnet
