import RpcFramework.Network.TcpClient

/-!
# A client that reconnects

A `TcpClient` with `retryOnDisconnect_` set that has been asked to connect, and is not
told to stop, does not come to rest without a connection: an attempt is under way, a
timer for the next one is armed, or the functor that starts one is queued.  The delays
that the timers are drawn from stay between the first and the largest one.

There are two exceptions.  `::connect` may fail with an error on which the connector
closes the socket and starts no retry: the six that it calls fatal, and all those that
its `switch` does not list.  And a connection callback that throws when the connection
closes keeps `removeConnection` from being called.
-/

namespace RpcFramework

open StepRun

/-- The connector goes on after this result of `::connect`: it waits for the connection, or
it retries. -/
def ConnectErrno.temporary : ConnectErrno → Bool
  | .success | .einprogress | .ealready | .eisconn => true
  | .eintr | .eagain | .eaddrinuse | .eaddrnotavail | .econnrefused | .enetunreach => true
  -- fatal in the words of the source
  | .eacces | .eperm | .eafnosupport | .ebadf | .efault | .enotsock => false
  -- the default of the `switch`, for example `EHOSTUNREACH`: closed without a retry too
  | .other => false

def Attempt.temporary : Attempt → Bool
  | .socketFails => true
  | .called savedErrno => savedErrno.temporary

/-! ## Attempts of the connector -/

namespace Connector

/-- A delay that a timer may be drawn from. -/
def DelayInRange (delayMs : Nat) : Prop := kInitRetryDelayMs ≤ delayMs ∧ delayMs ≤ kMaxRetryDelayMs

/-- The connector exists, nothing is queued but starts, and the delays are in range. -/
structure Ready (c : Connector) : Prop where
  present : c.destroyed = false
  starts : ∀ functor ∈ c.functors, functor = .startInLoop
  delay : DelayInRange c.retryDelayMs
  delays : ∀ delayMs ∈ c.timers, DelayInRange delayMs

/-- An attempt that is under way has its channel. -/
def Watched (c : Connector) : Prop := c.state = .connecting → c.channel.isSome = true

/-- An attempt is under way, or a timer will start the next one. -/
def Trying (c : Connector) : Prop := c.state = .connecting ∨ c.timers ≠ []

def Pursues (c : Connector) : Prop := c.Trying ∨ c.functors ≠ []

/-- An attempt has been made, and no connection has come of it yet. -/
structure Attempted (c next : Connector) : Prop where
  ready : next.Ready
  asked : next.connectFlag = true
  watched : next.Watched
  trying : next.Trying
  handed : next.handed = c.handed
  pending : next.state ≠ .connected

variable {c : Connector}

theorem delayInRange_double {delayMs : Nat} (range : DelayInRange delayMs) :
    DelayInRange (min (delayMs * 2) kMaxRetryDelayMs) := by
  obtain ⟨low, high⟩ := range
  simp only [DelayInRange, kInitRetryDelayMs, kMaxRetryDelayMs] at *
  omega

theorem watched_of_ne (idle : c.state ≠ .connecting) : c.Watched :=
  fun connecting => absurd connecting idle

theorem Ready.retry (ready : c.Ready) (asked : c.connectFlag = true) (sockfd : Option Fd) :
    Attempted c (c.retry sockfd) := by
  unfold Connector.retry
  dsimp only
  rw [if_pos asked]
  refine ⟨⟨ready.present, ready.starts, delayInRange_double ready.delay, ?_⟩, asked,
    watched_of_ne ConnectorState.noConfusion, ?_, rfl, ConnectorState.noConfusion⟩
  · intro delayMs member
    rcases List.mem_append.mp member with before | new
    · exact ready.delays delayMs before
    · rw [List.mem_singleton.mp new]
      exact ready.delay
  · exact Or.inr (List.append_ne_nil_of_right_ne_nil _ (List.cons_ne_nil _ _))

/-- An attempt that the connector does not give up is under way or will be repeated. -/
theorem Ready.connect (ready : c.Ready) (asked : c.connectFlag = true) {attempt : Attempt}
    (temporary : attempt.temporary = true) : Attempted c (c.connect attempt) := by
  cases attempt with
  | socketFails =>
      have counted : Ready { c with attempts := c.attempts + 1 } := { ready with }
      have retried := counted.retry asked none
      unfold Connector.connect
      dsimp only
      rw [if_pos asked]
      exact { retried with }
  | called savedErrno =>
      have opened : Ready { c with attempts := c.attempts + 1, opened := c.opened + 1 } :=
        { ready with }
      have retried := opened.retry asked (some c.opened)
      cases savedErrno with
      | success | einprogress | ealready | eisconn =>
          exact ⟨{ ready with }, asked, fun _ => rfl, Or.inl rfl, rfl, ConnectorState.noConfusion⟩
      | eintr | eagain | eaddrinuse | eaddrnotavail | econnrefused | enetunreach =>
          exact { retried with }
      | eacces | eperm | eafnosupport | ebadf | efault | enotsock | other => cases temporary

theorem Ready.startInLoop (ready : c.Ready) (asked : c.connectFlag = true) {attempt : Attempt}
    (temporary : attempt.temporary = true) : Attempted c (c.startInLoop attempt) := by
  have checked : Ready { c with
      assertFailed := c.assertFailed || c.state != ConnectorState.disconnected } := { ready with }
  have attempted := checked.connect asked temporary
  unfold Connector.startInLoop
  dsimp only
  rw [if_pos asked]
  exact { attempted with }

theorem Ready.restart (ready : c.Ready) {attempt : Attempt} (temporary : attempt.temporary = true) :
    Attempted c (c.restart attempt) := by
  have first : DelayInRange kInitRetryDelayMs := ⟨Nat.le_refl _, by decide⟩
  have reset : Ready { c with
      state := .disconnected
      retryDelayMs := kInitRetryDelayMs
      connectFlag := true } := { ready with delay := first }
  have attempted := reset.startInLoop rfl temporary
  exact { attempted with }

/-- What a functor, a timer or a socket event can come to when a connection is wanted:
an attempt, a timer that finds nothing to do, or a connection. -/
inductive Outcome (c next : Connector) : Prop
  | attempted (attempted : Attempted c next)
  | kept (timers : List Nat) (ready : next.Ready) (same : next = { c with timers := timers })
      (busy : c.state ≠ .disconnected ∨ timers = c.timers)
  | established (ready : next.Ready) (asked : next.connectFlag = true)
      (state : next.state = .connected) (handed : c.handed.length < next.handed.length)

theorem Ready.handleWrite (ready : c.Ready) (asked : c.connectFlag = true) (watched : c.Watched)
    (socketError : Bool) : Outcome c (c.handleWrite socketError) := by
  unfold Connector.handleWrite
  split
  · next connecting =>
      obtain ⟨fd, owned⟩ := Option.isSome_iff_exists.mp (watched connecting)
      have removed : Ready { c with channel := none } := { ready with }
      dsimp only [removeAndResetChannel]
      split
      · exact .attempted { removed.retry asked c.channel with }
      · rw [owned]
        exact .established { ready with } asked rfl (Nat.lt_succ_self _)
  · exact .kept c.timers ready rfl (Or.inr rfl)

theorem Ready.handleError (ready : c.Ready) (asked : c.connectFlag = true) :
    Outcome c c.handleError := by
  unfold Connector.handleError
  split
  · have removed : Ready { c with channel := none } := { ready with }
    exact .attempted { removed.retry asked c.channel with }
  · exact .kept c.timers ready rfl (Or.inr rfl)

theorem Ready.functor (ready : c.Ready) (asked : c.connectFlag = true) {attempt : Attempt}
    (temporary : attempt.temporary = true) {next : Connector}
    (taken : c.step (.functor attempt) = some next) : Outcome c next := by
  obtain ⟨functor, rest, queued, rfl⟩ := step_functor taken
  have only : ∀ other ∈ functor :: rest, other = .startInLoop := queued ▸ ready.starts
  obtain ⟨rfl, starts⟩ := List.forall_mem_cons.mp only
  have popped : Ready { c with functors := rest } := { ready with starts := starts }
  rw [if_neg (Bool.eq_false_iff.mp ready.present)]
  exact .attempted { popped.startInLoop asked temporary with }

theorem Ready.timer (ready : c.Ready) (asked : c.connectFlag = true) {attempt : Attempt}
    (temporary : attempt.temporary = true) {index : Nat} {next : Connector}
    (taken : c.step (.timer index attempt) = some next) : Outcome c next := by
  obtain ⟨_, moved⟩ := Option.ite_none_right_eq_some.mp taken
  cases moved
  have expired : Ready { c with timers := c.timers.eraseIdx index } :=
    { ready with
      delays := fun delayMs member => ready.delays delayMs (List.mem_of_mem_eraseIdx member) }
  rw [if_neg (Bool.eq_false_iff.mp ready.present)]
  unfold retryTimer
  split
  · next busy =>
      -- the timer of an attempt that has been overtaken
      have busy : c.state ≠ .disconnected := by simpa [asked] using busy
      exact .kept _ expired rfl (Or.inl busy)
  · exact .attempted { expired.startInLoop asked temporary with }

end Connector

/-! ## The client -/

/-- The client is not told to stop, no attempt is given up, and no connection callback throws
when a connection closes. -/
def TcpClientEvent.Steady : TcpClientEvent → Prop
  | .stop | .disconnectPermanently | .closeThrows _ => False
  | .connect _ attempt | .ensureConnected _ attempt | .functor attempt | .ensureFunctor attempt
  | .timer _ attempt | .closed _ attempt => attempt.temporary = true
  | .disconnect | .writable _ | .error | .leavesConnected => True

/-- Everything but the calls on the client. -/
def TcpClientEvent.fromLoop : TcpClientEvent → Bool
  | .functor _ | .ensureFunctor _ | .timer _ _ | .writable _ | .error | .leavesConnected
  | .closed _ _ | .closeThrows _ => true
  | .connect _ _ | .ensureConnected _ _ | .disconnect | .stop | .disconnectPermanently => false

namespace TcpClient

open Connector (kInitRetryDelayMs kMaxRetryDelayMs)

/-- A client that is to have a connection has one, or its connector is after one. -/
structure Persistent (c : TcpClient) : Prop where
  retries : c.retryOnDisconnect = true
  allowed : c.disconnecting = false
  ready : c.connector.Ready
  asked : c.connector.connectFlag = true
  watched : c.connector.Watched
  pursued : c.connection.isSome = true ∨ c.connector.Pursues
  held : c.connector.state = .connected → c.connection.isSome = true
  known : ∀ conn, c.connection = some conn → conn < c.installed

variable {c next : TcpClient}

/-- Whatever becomes of the connection, an attempt of the connector goes on for it. -/
theorem Persistent.attempted (persistent : c.Persistent) {before connector : Connector}
    (attempted : Connector.Attempted before connector) {connection : Option ConnectionId}
    (known : ∀ conn, connection = some conn → conn < c.installed) (connected stopped : Bool)
    (ensures : Nat) :
    Persistent { c with
      connector := connector
      connection := connection
      connected := connected
      ensures := ensures
      stopped := stopped } where
  retries := persistent.retries
  allowed := persistent.allowed
  ready := attempted.ready
  asked := attempted.asked
  watched := attempted.watched
  pursued := Or.inr (Or.inl attempted.trying)
  held state := absurd state attempted.pending
  known := known

theorem Persistent.withConnector (persistent : c.Persistent) {connector : Connector}
    (outcome : Connector.Outcome c.connector connector) :
    (c.withConnector connector).Persistent := by
  unfold TcpClient.withConnector
  cases outcome with
  | attempted attempted =>
      rw [attempted.handed, if_neg (Nat.lt_irrefl _)]
      exact persistent.attempted attempted persistent.known c.connected c.stopped c.ensures
  | kept timers ready same busy =>
      subst same
      rw [if_neg (Nat.lt_irrefl _)]
      refine { persistent with ready := ready, pursued := ?_ }
      rcases persistent.pursued with installed | trying | queued
      · exact Or.inl installed
      · rcases busy with busy | same
        · -- the attempt that the timer was for has been overtaken
          have either : c.connector.state = .connecting ∨ c.connector.state = .connected := by
            cases state : c.connector.state with
            | disconnected => exact absurd state busy
            | connecting => exact Or.inl rfl
            | connected => exact Or.inr rfl
          rcases either with connecting | connected
          · exact Or.inr (Or.inl (Or.inl connecting))
          · exact Or.inl (persistent.held connected)
        · exact Or.inr (Or.inl (trying.imp_right fun armed => same ▸ armed))
      · exact Or.inr (Or.inr queued)
  | established ready asked state handed =>
      rw [if_pos handed]
      exact
        { persistent with
          ready := ready
          asked := asked
          watched := Connector.watched_of_ne (state ▸ ConnectorState.noConfusion)
          pursued := Or.inl rfl
          held := fun _ => rfl
          known := fun conn same => Option.some.inj same ▸ Nat.lt_succ_self _ }

theorem Persistent.connect (retries : c.retryOnDisconnect = true)
    (allowed : c.disconnecting = false) (ready : c.connector.Ready) (watched : c.connector.Watched)
    (held : c.connector.state = .connected → c.connection.isSome = true)
    (known : ∀ conn, c.connection = some conn → conn < c.installed) (inLoop : Bool)
    {attempt : Attempt} (temporary : attempt.temporary = true) :
    Persistent { c with connector := c.connector.start inLoop attempt, stopped := false } := by
  have asked : Connector.Ready { c.connector with connectFlag := true } := { ready with }
  unfold Connector.start
  dsimp only
  split
  · have attempted := asked.startInLoop rfl temporary
    exact ⟨retries, allowed, attempted.ready, attempted.asked, attempted.watched,
      Or.inr (Or.inl attempted.trying), fun state => absurd state attempted.pending, known⟩
  · refine ⟨retries, allowed, { ready with starts := ?_ }, rfl, watched, ?_, held, known⟩
    · exact List.forall_mem_append.mpr ⟨ready.starts, List.forall_mem_singleton.mpr rfl⟩
    · exact Or.inr (Or.inr (List.append_ne_nil_of_right_ne_nil _ (List.cons_ne_nil _ _)))

theorem Persistent.ensureConnectedInLoop (persistent : c.Persistent) {attempt : Attempt}
    (temporary : attempt.temporary = true) : (c.ensureConnectedInLoop attempt).Persistent := by
  unfold TcpClient.ensureConnectedInLoop
  split
  · exact persistent
  · split
    · exact persistent
    · exact persistent.attempted (persistent.ready.restart temporary) persistent.known c.connected
        c.stopped c.ensures

theorem Persistent.step (persistent : c.Persistent) {event : TcpClientEvent}
    (steady : event.Steady) (taken : c.step event = some next) : next.Persistent := by
  have fromConnector : ∀ {event : ConnectorEvent},
      (∀ connector, c.connector.step event = some connector →
        Connector.Outcome c.connector connector) →
      (c.connector.step event).map c.withConnector = some next → next.Persistent := by
    intro event outcome moved
    obtain ⟨connector, stepped, rfl⟩ := Option.map_eq_some_iff.mp moved
    exact persistent.withConnector (outcome connector stepped)
  have ready := persistent.ready
  have asked := persistent.asked
  cases event with
  | connect inLoop attempt =>
      cases taken
      exact .connect persistent.retries persistent.allowed ready persistent.watched persistent.held
        persistent.known inLoop steady
  | ensureConnected inLoop attempt =>
      cases taken
      have called : Persistent { c with stopped := false } := { persistent with }
      unfold TcpClient.ensureConnected
      split
      · exact called.ensureConnectedInLoop steady
      · exact { called with }
  | disconnect =>
      cases taken
      exact { persistent with }
  | stop | disconnectPermanently | closeThrows conn => exact steady.elim
  | functor attempt => exact fromConnector (fun _ => ready.functor asked steady) taken
  | ensureFunctor attempt =>
      obtain ⟨_, moved⟩ := Option.ite_none_left_eq_some.mp taken
      cases moved
      have popped : Persistent { c with ensures := c.ensures - 1 } := { persistent with }
      exact popped.ensureConnectedInLoop steady
  | timer index attempt => exact fromConnector (fun _ => ready.timer asked steady) taken
  | writable socketError =>
      refine fromConnector (fun connector stepped => ?_) taken
      obtain ⟨_, ⟨⟩⟩ := Option.ite_none_right_eq_some.mp stepped
      exact ready.handleWrite asked persistent.watched socketError
  | error =>
      refine fromConnector (fun connector stepped => ?_) taken
      obtain ⟨_, ⟨⟩⟩ := Option.ite_none_right_eq_some.mp stepped
      exact ready.handleError asked
  | leavesConnected =>
      cases taken
      exact { persistent with }
  | closed conn attempt =>
      obtain ⟨_, moved⟩ := Option.ite_none_right_eq_some.mp taken
      cases moved
      unfold TcpClient.removeConnection
      split
      · exact persistent
      · have again : (c.retryOnDisconnect && !c.disconnecting) = true := by
          rw [persistent.retries, persistent.allowed]
          rfl
        dsimp only
        rw [if_pos again]
        exact persistent.attempted (ready.restart steady)
          (fun _ absent => absurd absent.symm (Option.some_ne_none _)) false c.stopped c.ensures

/-! ## The way to a connection -/

/-- The descriptor of an attempt becomes writable without an error. -/
theorem Persistent.establishes (persistent : c.Persistent)
    (connecting : c.connector.state = .connecting) :
    ∃ final, c.step (.writable false) = some final ∧ final.connection.isSome = true ∧
      final.connected = true := by
  have owned := persistent.watched connecting
  obtain ⟨fd, channel⟩ := Option.isSome_iff_exists.mp owned
  have written : c.connector.handleWrite false = { c.connector with
      channel := none
      state := .connected
      handed := fd :: c.connector.handed } := by
    unfold Connector.handleWrite
    rw [if_pos connecting]
    simp [Connector.removeAndResetChannel, channel, persistent.asked]
  have stepped : c.connector.step (.writable false) = some _ := if_pos owned
  refine ⟨c.withConnector (c.connector.handleWrite false), ?_, ?_⟩
  · rw [TcpClient.step, stepped]
    rfl
  · have grows : c.connector.handed.length < (fd :: c.connector.handed).length :=
      Nat.lt_succ_self _
    rw [written, TcpClient.withConnector]
    dsimp only
    rw [if_pos grows]
    exact ⟨rfl, rfl⟩

theorem connecting_startInLoop {connector : Connector} (asked : connector.connectFlag = true) :
    (connector.startInLoop (.called .einprogress)).state = .connecting := by
  unfold Connector.startInLoop
  dsimp only
  rw [if_pos asked]
  rfl

theorem connector_withConnector (c : TcpClient) (connector : Connector) :
    (c.withConnector connector).connector = connector := by
  unfold TcpClient.withConnector
  split
  · rfl
  · rfl

/-- Unless an attempt is under way already, the next thing to happen starts one: the
close of a connection that is not connected any more, a timer, or the functor. -/
theorem Persistent.tries (persistent : c.Persistent) (idle : c.connector.state ≠ .connecting) :
    ∃ event next, event.fromLoop = true ∧ event.Steady ∧ c.step event = some next ∧
      next.connector.state = .connecting := by
  have present := Bool.eq_false_iff.mp persistent.ready.present
  cases current : c.connection with
  | some conn =>
      refine ⟨.closed conn (.called .einprogress),
        c.removeConnection conn (.called .einprogress), rfl, rfl,
        if_pos (persistent.known conn current), ?_⟩
      have again : (c.retryOnDisconnect && !c.disconnecting) = true := by
        rw [persistent.retries, persistent.allowed]
        rfl
      unfold TcpClient.removeConnection
      rw [if_neg (not_not_intro current)]
      dsimp only
      rw [if_pos again]
      exact connecting_startInLoop rfl
  | none =>
      have absent : ¬ c.connection.isSome = true := by simp [current]
      have disconnected : c.connector.state = .disconnected := by
        cases state : c.connector.state with
        | disconnected => rfl
        | connecting => exact absurd state idle
        | connected => exact absurd (persistent.held state) absent
      rcases persistent.pursued.resolve_left absent with (connecting | armed) | queued
      · exact absurd connecting idle
      · have due : 0 < c.connector.timers.length := List.length_pos_iff.mpr armed
        have stepped : c.connector.step (.timer 0 (.called .einprogress)) =
            some ({ c.connector with timers := c.connector.timers.eraseIdx 0 }.startInLoop
              (.called .einprogress)) := by
          rw [Connector.step, if_pos due]
          dsimp only
          rw [if_neg present, Connector.retryTimer]
          simp [persistent.asked, disconnected]
        refine ⟨.timer 0 (.called .einprogress), _, rfl, rfl,
          (congrArg (Option.map c.withConnector) stepped), ?_⟩
        rw [connector_withConnector]
        exact connecting_startInLoop persistent.asked
      · obtain ⟨functor, rest, functors⟩ := List.exists_cons_of_ne_nil queued
        have start : functor = .startInLoop :=
          persistent.ready.starts functor (functors ▸ List.mem_cons_self)
        have stepped : c.connector.step (.functor (.called .einprogress)) =
            some ({ c.connector with functors := rest }.startInLoop (.called .einprogress)) := by
          rw [Connector.step, functors, start]
          dsimp only
          rw [if_neg present]
          rfl
        refine ⟨.functor (.called .einprogress), _, rfl, rfl,
          (congrArg (Option.map c.withConnector) stepped), ?_⟩
        rw [connector_withConnector]
        exact connecting_startInLoop persistent.asked

/-- Two events lead to a connection, if there is none. -/
theorem Persistent.reconnects (persistent : c.Persistent) :
    ∃ more final, more.length ≤ 2 ∧ (∀ event ∈ more, event.fromLoop = true) ∧
      run? TcpClient.step c more = some final ∧ final.connection.isSome = true ∧
      final.connected = true := by
  by_cases up : c.connection.isSome = true ∧ c.connected = true
  · exact ⟨[], c, Nat.zero_le _, List.forall_mem_nil _, rfl, up⟩
  · by_cases connecting : c.connector.state = .connecting
    · obtain ⟨final, taken, installed⟩ := persistent.establishes connecting
      exact ⟨[.writable false], final, by decide, List.forall_mem_singleton.mpr rfl,
        run?_cons_eq_some.mpr ⟨final, taken, rfl⟩, installed⟩
    · obtain ⟨event, next, fromLoop, steady, taken, trying⟩ := persistent.tries connecting
      obtain ⟨final, written, installed⟩ := (persistent.step steady taken).establishes trying
      exact ⟨[event, .writable false], final, Nat.le_refl 2,
        List.forall_mem_cons.mpr ⟨fromLoop, List.forall_mem_singleton.mpr rfl⟩,
        run?_cons_eq_some.mpr ⟨next, taken, run?_cons_eq_some.mpr ⟨final, written, rfl⟩⟩, installed⟩

theorem persistent_initial (inLoop : Bool) {attempt : Attempt}
    (temporary : attempt.temporary = true)
    (taken : (initial true).step (.connect inLoop attempt) = some c) : c.Persistent := by
  cases taken
  have ready : Connector.initial.Ready :=
    ⟨rfl, List.forall_mem_nil _, ⟨Nat.le_refl _, by decide⟩, List.forall_mem_nil _⟩
  exact .connect rfl rfl ready (Connector.watched_of_ne ConnectorState.noConfusion)
    (fun connected => absurd connected ConnectorState.noConfusion)
    (fun _ absent => absurd absent.symm (Option.some_ne_none _)) inLoop temporary

/--
A client that reconnects never gives up: from its first `connect` on, as long as it is
not told to stop, no attempt is given up and no callback throws at a close, it has a
connection or its connector is after one, with timers whose delays are drawn from the
range; and what is pending, with a peer that accepts, brings the connection back.
-/
theorem never_gives_up {inLoop : Bool} {attempt : Attempt} {events : List TcpClientEvent}
    {final : TcpClient}
    (steady : ∀ event ∈ TcpClientEvent.connect inLoop attempt :: events, event.Steady)
    (reached : run? TcpClient.step (initial true) (.connect inLoop attempt :: events) =
      some final) :
    (final.connection.isSome = true ∨ final.connector.Pursues) ∧
      (∀ delayMs ∈ final.connector.timers, Connector.DelayInRange delayMs) ∧
      ∃ more reconnected, more.length ≤ 2 ∧ (∀ event ∈ more, event.fromLoop = true) ∧
        run? TcpClient.step final more = some reconnected ∧
        reconnected.connection.isSome = true ∧ reconnected.connected = true := by
  obtain ⟨first, rest⟩ := List.forall_mem_cons.mp steady
  obtain ⟨started, taken, ran⟩ := run?_cons_eq_some.mp reached
  have persistent : final.Persistent :=
    run?_invariant_along (fun _ _ _ persistent good taken => Persistent.step persistent good taken)
      (persistent_initial inLoop first taken) (.of_forall rest started) ran
  exact ⟨persistent.pursued, persistent.ready.delays, persistent.reconnects⟩

/-- The first attempt is refused, the second succeeds, and the peer closes. -/
def refusedFirst : List TcpClientEvent :=
  [.timer 0 (.called .einprogress), .writable false, .closed 0 (.called .econnrefused)]

/-- The client after them; its connection is lost. -/
def afterRefused : TcpClient :=
  (run? TcpClient.step (initial true)
    (.connect true (.called .econnrefused) :: refusedFirst)).getD (initial true)

theorem never_gives_up_refusedFirst :
    afterRefused.connection = none ∧ afterRefused.installed = 1 ∧
      ∃ more reconnected, more.length ≤ 2 ∧ (∀ event ∈ more, event.fromLoop = true) ∧
        run? TcpClient.step afterRefused more = some reconnected ∧
        reconnected.connection.isSome = true ∧ reconnected.connected = true := by
  have steady : ∀ event ∈ TcpClientEvent.connect true (.called .econnrefused) :: refusedFirst,
      event.Steady := by
    simp [refusedFirst, TcpClientEvent.Steady, Attempt.temporary, ConnectErrno.temporary]
  exact ⟨rfl, rfl, (never_gives_up steady rfl).2.2⟩

/-- Behind a callback that throws at the close, a dead connection is left and nothing is
pending. -/
example : (run? TcpClient.step (initial true)
    [.connect true (.called .einprogress), .writable false, .closeThrows 0]).any (fun c =>
      c.connection = some 0 ∧ c.connected = false ∧ c.connector.state = .connected ∧
        c.connector.timers = [] ∧ c.connector.functors = []) = true := by
  decide

end TcpClient

end RpcFramework
