import RpcFramework.Network.Connector

/-!
# The client of one connection

`TcpClient` drives a `Connector` and keeps the current connection.  It connects
again on its own when the connection is closed, and on request by
`ensureConnected`, which runs in the loop; both call `Connector::restart`, which
asks for a connection whatever has been asked before.  `stop` takes the request of
the connector back, `disconnectPermanently` also forbids reconnecting.

A connection that closes calls its connection callback and then `closeCallback_`, which
is `removeConnection`.  If the first one throws, the second one is not called, and the
dead connection stays the current one.
-/

namespace RpcFramework

open StepRun

/-- The number of a `TcpConnection` that was installed. -/
abbrev ConnectionId := Nat

/-- The members of a `TcpClient`.  `connected` is `connected()` of the current
connection and `ensures` counts the queued functors of `ensureConnected`;
`stopped` tells that the last request was to stop. -/
structure TcpClient where
  connector : Connector
  connection : Option ConnectionId
  connected : Bool
  retryOnDisconnect : Bool
  disconnecting : Bool
  ensures : Nat
  installed : Nat
  stopped : Bool
  deriving DecidableEq, Repr

/-- The calls on the client, the functors, timers and socket events of its
connector, and what happens to its connections. -/
inductive TcpClientEvent where
  | connect (inLoop : Bool) (attempt : Attempt)
  | ensureConnected (inLoop : Bool) (attempt : Attempt)
  | disconnect
  | stop
  | disconnectPermanently
  | functor (attempt : Attempt)
  | ensureFunctor (attempt : Attempt)
  | timer (index : Nat) (attempt : Attempt)
  | writable (socketError : Bool)
  | error
  | leavesConnected
  | closed (conn : ConnectionId) (attempt : Attempt)
  | closeThrows (conn : ConnectionId)

/-- The calls that ask for a connection. -/
def TcpClientEvent.asks : TcpClientEvent → Bool
  | .connect _ _ => true
  | .ensureConnected _ _ => true
  | _ => false

namespace TcpClient

def initial (retryOnDisconnect : Bool) : TcpClient :=
  ⟨.initial, none, false, retryOnDisconnect, false, 0, 0, false⟩

def newConnection (c : TcpClient) : TcpClient :=
  { c with connection := some c.installed, connected := true, installed := c.installed + 1 }

/-- `newConnection` is called when the connector has handed a descriptor over. -/
def withConnector (c : TcpClient) (connector : Connector) : TcpClient :=
  if c.connector.handed.length < connector.handed.length then
    { c with connector := connector }.newConnection
  else { c with connector := connector }

def removeConnection (c : TcpClient) (conn : ConnectionId) (attempt : Attempt) : TcpClient :=
  if c.connection ≠ some conn then c
  else
    let c := { c with connection := none, connected := false }
    if c.retryOnDisconnect && !c.disconnecting then
      { c with connector := c.connector.restart attempt }
    else c

/-- The connection callback of `handleClose` has thrown: `closeCallback_` is skipped. -/
def closeThrows (c : TcpClient) (conn : ConnectionId) : TcpClient :=
  if c.connection = some conn then { c with connected := false } else c

/-- `conn->shutdown()` on the current connection. -/
def shutdownConnection (c : TcpClient) : TcpClient := { c with connected := false }

/-- The functor of `ensureConnected`. -/
def ensureConnectedInLoop (c : TcpClient) (attempt : Attempt) : TcpClient :=
  if c.connection.isSome && c.connected then c
  else if c.connector.state = .connecting then c
  else { c with connector := c.connector.restart attempt }

def ensureConnected (c : TcpClient) (inLoop : Bool) (attempt : Attempt) : TcpClient :=
  if inLoop then c.ensureConnectedInLoop attempt else { c with ensures := c.ensures + 1 }

def stop (c : TcpClient) : TcpClient := { c with connector := c.connector.stop }

def disconnectPermanently (c : TcpClient) : TcpClient :=
  { c with disconnecting := true, connector := c.connector.stop }.shutdownConnection

def step (c : TcpClient) : TcpClientEvent → Option TcpClient
  | .connect inLoop attempt =>
      some { c with connector := c.connector.start inLoop attempt, stopped := false }
  | .ensureConnected inLoop attempt =>
      some ({ c with stopped := false }.ensureConnected inLoop attempt)
  | .disconnect => some c.shutdownConnection
  | .stop => some { c.stop with stopped := true }
  | .disconnectPermanently => some { c.disconnectPermanently with stopped := true }
  | .functor attempt => (c.connector.step (.functor attempt)).map c.withConnector
  | .ensureFunctor attempt =>
      if c.ensures = 0 then none
      else some ({ c with ensures := c.ensures - 1 }.ensureConnectedInLoop attempt)
  | .timer index attempt => (c.connector.step (.timer index attempt)).map c.withConnector
  | .writable socketError => (c.connector.step (.writable socketError)).map c.withConnector
  | .error => (c.connector.step .error).map c.withConnector
  | .leavesConnected => some { c with connected := false }
  | .closed conn attempt =>
      if conn < c.installed then some (c.removeConnection conn attempt) else none
  | .closeThrows conn => if conn < c.installed then some (c.closeThrows conn) else none

/-- From a stopped client, no attempt was started and no connection installed. -/
def Quiet (before after : TcpClient) : Prop :=
  before.stopped = true →
    after.connector.attempts = before.connector.attempts ∧ after.installed = before.installed

/-- Whatever happens to the client, other than a call that asks for a connection,
leaves it quiet. -/
def StaysStopped (c : TcpClient) (event : TcpClientEvent) : Prop :=
  event.asks = false → ∀ next, c.step event = some next → c.Quiet next

/-- While the client is stopped, the current connection is not closed with
reconnection on, and no functor of an earlier `ensureConnected` finds the client
without a connection and without an attempt. -/
def NoReconnect (c : TcpClient) : TcpClientEvent → Prop
  | .closed conn _ =>
      c.stopped = true → c.connection = some conn → c.retryOnDisconnect = true →
        c.disconnecting = true
  | .ensureFunctor _ =>
      c.stopped = true → 0 < c.ensures →
        (c.connection.isSome = true ∧ c.connected = true) ∨ c.connector.state = .connecting
  | _ => True

end TcpClient

/-! ## A connector that was stopped -/

/-- The functors, timers and socket events, that is everything but the calls. -/
def ConnectorEvent.fromLoop : ConnectorEvent → Bool
  | .functor _ => true
  | .timer _ _ => true
  | .writable _ => true
  | .error => true
  | _ => false

namespace Connector

/-- Nothing was started or handed over, and no connection is asked for. -/
structure Rests (before after : Connector) : Prop where
  connectFlag : after.connectFlag = false
  attempts : after.attempts = before.attempts
  handed : after.handed = before.handed

theorem connect_attempts (c : Connector) (attempt : Attempt) :
    (c.connect attempt).attempts = c.attempts + 1 := by
  cases attempt with
  | socketFails =>
      unfold connect
      dsimp only
      split
      · obtain ⟨_, _, same⟩ := retry_eq (c := { c with attempts := c.attempts + 1 }) none
        rw [same]
      · rfl
  | called savedErrno =>
      obtain ⟨_, _, same⟩ := retry_eq
        (c := { c with attempts := c.attempts + 1, opened := c.opened + 1 }) (some c.opened)
      have retried := congrArg Connector.attempts same
      cases savedErrno with
      | success | einprogress | ealready | eisconn => rfl
      | eintr | eagain | eaddrinuse | eaddrnotavail | econnrefused | enetunreach => exact retried
      | eacces | eperm | eafnosupport | ebadf | efault | enotsock | other => rfl

/-- A restart always starts an attempt. -/
theorem restart_attempts (c : Connector) (attempt : Attempt) :
    (c.restart attempt).attempts = c.attempts + 1 :=
  connect_attempts _ attempt

section Resting

variable {c : Connector}

theorem Rests.trans {middle final : Connector} (first : c.Rests middle)
    (second : middle.Rests final) : c.Rests final :=
  ⟨second.connectFlag, second.attempts.trans first.attempts, second.handed.trans first.handed⟩

theorem startInLoop_rests (off : c.connectFlag = false) (attempt : Attempt) :
    c.Rests (c.startInLoop attempt) := by
  unfold startInLoop
  dsimp only
  rw [if_neg (ne_true_of_eq_false off)]
  exact ⟨off, rfl, rfl⟩

theorem retry_rests (off : c.connectFlag = false) (sockfd : Option Fd) :
    c.Rests (c.retry sockfd) := by
  obtain ⟨_, _, same⟩ := c.retry_eq sockfd
  rw [same]
  exact ⟨off, rfl, rfl⟩

theorem runFunctor_rests (off : c.connectFlag = false) (functor : ConnectorFunctor)
    (attempt : Attempt) : c.Rests (c.runFunctor functor attempt) := by
  cases functor with
  | startInLoop => exact startInLoop_rests off attempt
  | stopInLoop =>
      unfold runFunctor stopInLoop
      dsimp only
      split
      · exact ⟨off, rfl, rfl⟩
      · exact ⟨off, rfl, rfl⟩

theorem retryTimer_rests (off : c.connectFlag = false) (attempt : Attempt) :
    c.Rests (c.retryTimer attempt) := by
  unfold retryTimer
  split
  · exact ⟨off, rfl, rfl⟩
  · exact startInLoop_rests off attempt

theorem handleWrite_rests (off : c.connectFlag = false) (socketError : Bool) :
    c.Rests (c.handleWrite socketError) := by
  have removed : c.Rests { c with channel := none } := ⟨off, rfl, rfl⟩
  unfold handleWrite
  split
  · dsimp only [removeAndResetChannel]
    split
    · exact removed.trans (retry_rests removed.connectFlag c.channel)
    · rw [if_neg (ne_true_of_eq_false off)]
      exact ⟨off, rfl, rfl⟩
  · exact ⟨off, rfl, rfl⟩

theorem handleError_rests (off : c.connectFlag = false) : c.Rests c.handleError := by
  have removed : c.Rests { c with channel := none } := ⟨off, rfl, rfl⟩
  unfold handleError
  split
  · exact removed.trans (retry_rests removed.connectFlag c.channel)
  · exact ⟨off, rfl, rfl⟩

/-- A connector that no connection is asked of stays at rest until it is called. -/
theorem step_rests {event : ConnectorEvent} {next : Connector} (off : c.connectFlag = false)
    (own : event.fromLoop = true) (taken : c.step event = some next) : c.Rests next := by
  cases event with
  | start _ _ | restart _ | stop | destroy => cases own
  | functor attempt =>
      obtain ⟨functor, rest, _, rfl⟩ := step_functor taken
      have popped : c.Rests { c with functors := rest } := ⟨off, rfl, rfl⟩
      split
      · exact popped
      · exact popped.trans (runFunctor_rests popped.connectFlag functor attempt)
  | timer index attempt =>
      obtain ⟨_, moved⟩ := Option.ite_none_right_eq_some.mp taken
      cases moved
      have expired : c.Rests { c with timers := c.timers.eraseIdx index } := ⟨off, rfl, rfl⟩
      split
      · exact expired
      · exact expired.trans (retryTimer_rests expired.connectFlag attempt)
  | writable socketError =>
      obtain ⟨_, moved⟩ := Option.ite_none_right_eq_some.mp taken
      cases moved
      exact handleWrite_rests off socketError
  | error =>
      obtain ⟨_, moved⟩ := Option.ite_none_right_eq_some.mp taken
      cases moved
      exact handleError_rests off

end Resting

end Connector

/-! ## A client that was stopped -/

namespace TcpClient

/-- The connector of a stopped client is not asked for a connection, and the
current connection is an installed one. -/
structure Inv (c : TcpClient) : Prop where
  unasked : c.stopped = true → c.connector.connectFlag = false
  known : ∀ conn, c.connection = some conn → conn < c.installed

section Steps

variable {c : TcpClient}

theorem Inv.withConnector {connector : Connector} (inv : c.Inv)
    (rests : c.stopped = true → c.connector.Rests connector) :
    (c.withConnector connector).Inv ∧ c.Quiet (c.withConnector connector) := by
  unfold TcpClient.withConnector
  split
  · next handed =>
      -- a stopped connector hands nothing over
      have running : c.stopped ≠ true := fun stopped =>
        Nat.lt_irrefl _ ((rests stopped).handed ▸ handed)
      refine ⟨⟨fun stopped => absurd stopped running, ?_⟩, fun stopped => absurd stopped running⟩
      intro conn current
      cases current
      exact Nat.lt_succ_self _
  · exact ⟨⟨fun stopped => (rests stopped).connectFlag, inv.known⟩,
      fun stopped => ⟨(rests stopped).attempts, rfl⟩⟩

theorem Inv.fromConnector {event : ConnectorEvent} {next : TcpClient} (inv : c.Inv)
    (own : event.fromLoop = true)
    (taken : (c.connector.step event).map c.withConnector = some next) :
    next.Inv ∧ c.Quiet next := by
  obtain ⟨connector, moved, same⟩ := Option.map_eq_some_iff.mp taken
  rw [← same]
  exact inv.withConnector fun stopped => Connector.step_rests (inv.unasked stopped) own moved

/-- Without a reconnection, a step keeps the invariant, and a stopped client quiet. -/
theorem Inv.step {event : TcpClientEvent} {next : TcpClient} (inv : c.Inv)
    (calm : c.NoReconnect event) (taken : c.step event = some next) :
    next.Inv ∧ (event.asks = false → c.Quiet next) := by
  have fromLoop : next.Inv ∧ c.Quiet next → next.Inv ∧ (event.asks = false → c.Quiet next) :=
    fun both => ⟨both.1, fun _ => both.2⟩
  have quiet : ∀ {d : TcpClient}, d.connector.attempts = c.connector.attempts →
      d.installed = c.installed → c.Quiet d := fun attempts installed _ => ⟨attempts, installed⟩
  cases event with
  | connect inLoop attempt =>
      cases taken
      exact ⟨⟨nofun, inv.known⟩, nofun⟩
  | ensureConnected inLoop attempt =>
      cases taken
      refine ⟨?_, nofun⟩
      unfold TcpClient.ensureConnected ensureConnectedInLoop
      dsimp only
      split
      · split
        · exact ⟨nofun, inv.known⟩
        · split
          · exact ⟨nofun, inv.known⟩
          · exact ⟨nofun, inv.known⟩
      · exact ⟨nofun, inv.known⟩
  | disconnect =>
      cases taken
      exact ⟨⟨inv.unasked, inv.known⟩, fun _ => quiet rfl rfl⟩
  | stop =>
      cases taken
      exact ⟨⟨fun _ => rfl, inv.known⟩, fun _ => quiet rfl rfl⟩
  | disconnectPermanently =>
      cases taken
      exact ⟨⟨fun _ => rfl, inv.known⟩, fun _ => quiet rfl rfl⟩
  | leavesConnected =>
      cases taken
      exact ⟨⟨inv.unasked, inv.known⟩, fun _ => quiet rfl rfl⟩
  | functor attempt => exact fromLoop (inv.fromConnector rfl taken)
  | timer index attempt => exact fromLoop (inv.fromConnector rfl taken)
  | writable socketError => exact fromLoop (inv.fromConnector rfl taken)
  | error => exact fromLoop (inv.fromConnector rfl taken)
  | ensureFunctor attempt =>
      obtain ⟨queued, moved⟩ := Option.ite_none_left_eq_some.mp taken
      cases moved
      unfold ensureConnectedInLoop
      dsimp only
      split
      · exact ⟨⟨inv.unasked, inv.known⟩, fun _ => quiet rfl rfl⟩
      · next down =>
          split
          · exact ⟨⟨inv.unasked, inv.known⟩, fun _ => quiet rfl rfl⟩
          · next idle =>
              have running : c.stopped ≠ true := by
                intro stopped
                rcases calm stopped (Nat.pos_of_ne_zero queued) with up | connecting
                · exact down (Bool.and_eq_true_iff.mpr up)
                · exact idle connecting
              exact ⟨⟨fun stopped => absurd stopped running, inv.known⟩,
                fun _ stopped => absurd stopped running⟩
  | closed conn attempt =>
      obtain ⟨_, moved⟩ := Option.ite_none_right_eq_some.mp taken
      cases moved
      unfold removeConnection
      split
      · exact ⟨inv, fun _ => quiet rfl rfl⟩
      · next current =>
          dsimp only
          split
          · next again =>
              obtain ⟨retry, free⟩ := Bool.and_eq_true_iff.mp again
              have running : c.stopped ≠ true := by
                intro stopped
                rw [calm stopped (Classical.not_not.mp current) retry] at free
                cases free
              exact ⟨⟨fun stopped => absurd stopped running, nofun⟩,
                fun _ stopped => absurd stopped running⟩
          · exact ⟨⟨inv.unasked, nofun⟩, fun _ => quiet rfl rfl⟩
  | closeThrows conn =>
      obtain ⟨_, moved⟩ := Option.ite_none_right_eq_some.mp taken
      cases moved
      unfold TcpClient.closeThrows
      split
      · exact ⟨⟨inv.unasked, inv.known⟩, fun _ => quiet rfl rfl⟩
      · exact ⟨inv, fun _ => quiet rfl rfl⟩

/-- A reconnection of a stopped client starts an attempt. -/
theorem Inv.noReconnect {event : TcpClientEvent} (inv : c.Inv) (stays : c.StaysStopped event) :
    c.NoReconnect event := by
  have started : ∀ {next : TcpClient}, c.Quiet next → c.stopped = true →
      next.connector.attempts ≠ c.connector.attempts + 1 := by
    intro next quiet stopped more
    rw [(quiet stopped).1] at more
    exact absurd more (Nat.ne_of_lt (Nat.lt_succ_self _))
  cases event with
  | connect _ _ | ensureConnected _ _ | disconnect | stop | disconnectPermanently => trivial
  | functor _ | timer _ _ | writable _ | error | leavesConnected | closeThrows _ => trivial
  | ensureFunctor attempt =>
      intro stopped queued
      refine Classical.byContradiction fun down => ?_
      obtain ⟨absent, idle⟩ := not_or.mp down
      have restarted : c.step (.ensureFunctor attempt) = some { c with
          ensures := c.ensures - 1
          connector := c.connector.restart attempt } := by
        unfold TcpClient.step ensureConnectedInLoop
        dsimp only
        rw [if_neg (Nat.ne_of_gt queued), if_neg (mt Bool.and_eq_true_iff.mp absent), if_neg idle]
      exact started (stays rfl _ restarted) stopped (Connector.restart_attempts _ attempt)
  | closed conn attempt =>
      intro stopped current retry
      refine Classical.byContradiction fun permitted => ?_
      have restarted : c.step (.closed conn attempt) = some { c with
          connection := none
          connected := false
          connector := c.connector.restart attempt } := by
        unfold TcpClient.step removeConnection
        dsimp only
        rw [if_pos (inv.known conn current), if_neg (not_not_intro current), retry,
          eq_false_of_ne_true permitted]
        rfl
      exact started (stays rfl _ restarted) stopped (Connector.restart_attempts _ attempt)

end Steps

theorem inv_initial (retryOnDisconnect : Bool) : (initial retryOnDisconnect).Inv :=
  ⟨nofun, nofun⟩

/--
Stopping is final exactly when no reconnection meets the stopped client: neither
the close of the current connection with `retryOnDisconnect_` set and
`disconnecting_` not, nor a functor of an earlier `ensureConnected` that finds
neither a connection nor an attempt.
-/
theorem stays_stopped_iff_no_reconnect (retryOnDisconnect : Bool) (events : List TcpClientEvent) :
    Along step StaysStopped (initial retryOnDisconnect) events ↔
      Along step NoReconnect (initial retryOnDisconnect) events := by
  constructor
  · apply Along.imp_of_invariant _ _ (inv_initial retryOnDisconnect)
    · exact fun _ _ _ inv stays taken => (inv.step (inv.noReconnect stays) taken).1
    · exact fun _ _ inv stays => inv.noReconnect stays
  · apply Along.imp_of_invariant _ _ (inv_initial retryOnDisconnect)
    · exact fun _ _ _ inv calm taken => (inv.step calm taken).1
    · exact fun _ _ inv calm asked _ taken => (inv.step calm taken).2 asked

/-- The connection is established, the client is stopped, and the peer closes. -/
def stoppedThenClosed : List TcpClientEvent :=
  [.connect true (.called .einprogress), .writable false, .stop,
    .closed 0 (.called .einprogress), .writable false]

/-- `ensureConnected` is queued before the client is stopped for good. -/
def ensuredThenStopped : List TcpClientEvent :=
  [.ensureConnected false .socketFails, .disconnectPermanently,
    .ensureFunctor (.called .einprogress), .writable false]

/-- Behind `stop`, closing the connection installs another one, and behind
`disconnectPermanently` the functor does. -/
theorem stopped_client_reconnects :
    (∃ final, run? step (initial true) stoppedThenClosed = some final ∧ final.stopped = true ∧
      final.connector.attempts = 2 ∧ final.installed = 2) ∧
    (∃ final, run? step (initial true) ensuredThenStopped = some final ∧ final.stopped = true ∧
      final.connector.attempts = 1 ∧ final.installed = 1) := by
  refine ⟨⟨_, rfl, rfl, rfl, rfl⟩, ⟨_, rfl, rfl, rfl, rfl⟩⟩

end TcpClient

end RpcFramework
