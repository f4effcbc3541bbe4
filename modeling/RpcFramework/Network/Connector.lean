import Mathlib.Data.List.Count
import RpcFramework.Lib.StepRun

/-!
# The connector

`Connector` opens a socket, waits in the loop until the connection is there or
has failed, and hands the descriptor to `newConnectionCallback_`; after a failure
it tries again when a timer expires.  Between its handlers the descriptor of the
attempt is kept by `channel_` alone, and the destructor of `Channel` does not
close it.  The handlers run in the loop one at a time; `start` and `stop` reach
them through queued functors.

The history of the descriptors is kept with the state: how many `socket()` has
returned, and which of them were handed over and closed.
-/

namespace RpcFramework

open StepRun

/-- The number of a successful call of `socket()`. -/
abbrev Fd := Nat

inductive ConnectorState where
  | disconnected
  | connecting
  | connected
  deriving DecidableEq, Repr

/-- The outcomes of `::connect` that the source tells apart. -/
inductive ConnectErrno where
  | success
  | einprogress
  | ealready
  | eisconn
  | eintr
  | eagain
  | eaddrinuse
  | eaddrnotavail
  | econnrefused
  | enetunreach
  | eacces
  | eperm
  | eafnosupport
  | ebadf
  | efault
  | enotsock
  | other
  deriving DecidableEq, Repr

/-- The system calls of one attempt: `socket()` fails, or `::connect` is called. -/
inductive Attempt where
  | socketFails
  | called (savedErrno : ConnectErrno)
  deriving DecidableEq, Repr

inductive ConnectorFunctor where
  | startInLoop
  | stopInLoop
  deriving DecidableEq, Repr

/-- The members of a `Connector`, its functors and timers in the loop, and its
history.  A timer is given by the delay that it was drawn from. -/
structure Connector where
  state : ConnectorState
  connectFlag : Bool
  channel : Option Fd
  retryDelayMs : Nat
  functors : List ConnectorFunctor
  timers : List Nat
  attempts : Nat
  opened : Nat
  handed : List Fd
  closed : List Fd
  assertFailed : Bool
  destroyed : Bool
  deriving DecidableEq, Repr

inductive ConnectorEvent where
  | start (inLoop : Bool) (attempt : Attempt)
  | restart (attempt : Attempt)
  | stop
  | functor (attempt : Attempt)
  | timer (index : Nat) (attempt : Attempt)
  | writable (socketError : Bool)
  | error
  | destroy

namespace Connector

def kMaxRetryDelayMs : Nat := 30000

def kInitRetryDelayMs : Nat := 500

def initial : Connector :=
  ⟨.disconnected, false, none, kInitRetryDelayMs, [], [], 0, 0, [], [], false, false⟩

/-- `retry`; the descriptor `-1` is `none`. -/
def retry (c : Connector) (sockfd : Option Fd) : Connector :=
  let c := { c with closed := sockfd.toList ++ c.closed, state := .disconnected }
  if c.connectFlag then
    { c with
      timers := c.timers ++ [c.retryDelayMs]
      retryDelayMs := min (c.retryDelayMs * 2) kMaxRetryDelayMs }
  else c

/-- `channel_.reset` destroys the old channel, but does not close its descriptor. -/
def connecting (c : Connector) (sockfd : Fd) : Connector :=
  { c with state := .connecting, channel := some sockfd }

def connect (c : Connector) (attempt : Attempt) : Connector :=
  let c := { c with attempts := c.attempts + 1 }
  match attempt with
  | .socketFails => if c.connectFlag then c.retry none else c
  | .called savedErrno =>
      let sockfd := c.opened
      let c := { c with opened := c.opened + 1 }
      match savedErrno with
      | .success | .einprogress | .ealready | .eisconn => c.connecting sockfd
      | .eintr => c.retry (some sockfd)
      | .eagain | .eaddrinuse | .eaddrnotavail | .econnrefused | .enetunreach =>
          c.retry (some sockfd)
      | .eacces | .eperm | .eafnosupport | .ebadf | .efault | .enotsock =>
          { c with closed := sockfd :: c.closed }
      | .other => { c with closed := sockfd :: c.closed }

/-- A failed assertion is noted; without assertions the function goes on. -/
def startInLoop (c : Connector) (attempt : Attempt) : Connector :=
  let c := { c with assertFailed := c.assertFailed || c.state != ConnectorState.disconnected }
  if c.connectFlag then c.connect attempt else c

def start (c : Connector) (inLoop : Bool) (attempt : Attempt) : Connector :=
  let c := { c with connectFlag := true }
  if inLoop then c.startInLoop attempt
  else { c with functors := c.functors ++ [.startInLoop] }

def restart (c : Connector) (attempt : Attempt) : Connector :=
  let c := { c with
    state := .disconnected
    retryDelayMs := kInitRetryDelayMs
    connectFlag := true }
  c.startInLoop attempt

def stop (c : Connector) : Connector :=
  { c with connectFlag := false, functors := c.functors ++ [.stopInLoop] }

/-- `removeAndResetChannel`: the descriptor of the channel, which is given up. -/
def removeAndResetChannel (c : Connector) : Option Fd × Connector :=
  (c.channel, { c with channel := none })

def stopInLoop (c : Connector) : Connector :=
  if c.state = .connecting then
    let removed := { c with state := .disconnected }.removeAndResetChannel
    { removed.2 with closed := removed.1.toList ++ removed.2.closed }
  else c

/-- `handleWrite` when `SO_ERROR` is zero or not. -/
def handleWrite (c : Connector) (socketError : Bool) : Connector :=
  if c.state = .connecting then
    let removed := c.removeAndResetChannel
    if socketError then removed.2.retry removed.1
    else
      let c := { removed.2 with state := .connected }
      if c.connectFlag then { c with handed := removed.1.toList ++ c.handed }
      else { c with closed := removed.1.toList ++ c.closed }
  else c

def handleError (c : Connector) : Connector :=
  if c.state = .connecting then
    let removed := c.removeAndResetChannel
    removed.2.retry removed.1
  else c

def runFunctor (c : Connector) (functor : ConnectorFunctor) (attempt : Attempt) : Connector :=
  match functor with
  | .startInLoop => c.startInLoop attempt
  | .stopInLoop => c.stopInLoop

/-- The callback of a retry timer. -/
def retryTimer (c : Connector) (attempt : Attempt) : Connector :=
  if !c.connectFlag || c.state != ConnectorState.disconnected then c else c.startInLoop attempt

/-- The destructor; it destroys a channel that is left without closing its descriptor. -/
def destroy (c : Connector) : Connector :=
  let c := { c with destroyed := true }
  if c.state = .connecting && c.channel.isSome then
    let removed := c.removeAndResetChannel
    { removed.2 with closed := removed.1.toList ++ removed.2.closed }
  else { c with channel := none }

/-- Functors and timers hold a `weak_ptr`: behind the destructor they do nothing. -/
def step (c : Connector) : ConnectorEvent → Option Connector
  | .start inLoop attempt => if c.destroyed then none else some (c.start inLoop attempt)
  | .restart attempt => if c.destroyed then none else some (c.restart attempt)
  | .stop => if c.destroyed then none else some c.stop
  | .functor attempt =>
      match c.functors with
      | [] => none
      | functor :: rest =>
          let c := { c with functors := rest }
          some (if c.destroyed then c else c.runFunctor functor attempt)
  | .timer index attempt =>
      if index < c.timers.length then
        let c := { c with timers := c.timers.eraseIdx index }
        some (if c.destroyed then c else c.retryTimer attempt)
      else none
  | .writable socketError =>
      if c.channel.isSome then some (c.handleWrite socketError) else none
  | .error => if c.channel.isSome then some c.handleError else none
  | .destroy => if c.destroyed then none else some c.destroy

/-! ## Descriptors -/

/-- Every descriptor is handed over once, closed once, or held once: by the
channel, or by the function that runs. -/
def Accounts (c : Connector) (held : Option Fd) : Prop :=
  ∀ fd, c.handed.count fd + c.closed.count fd + c.channel.toList.count fd + held.toList.count fd =
    if fd < c.opened then 1 else 0

/-- What the connector promises about its descriptors and its assertion. -/
structure Conserves (c : Connector) : Prop where
  accounts : c.Accounts none
  unowned : c.destroyed = true → c.channel = none
  asserted : c.assertFailed = false

/-- `restart` does not meet an attempt, and `startInLoop` runs in `kDisconnected`. -/
def Unhurried (c : Connector) : ConnectorEvent → Prop
  | .start inLoop _ => inLoop = true → c.state = .disconnected
  | .restart _ => c.state ≠ .connecting
  | .functor _ =>
      c.destroyed = false → c.functors.head? = some .startInLoop → c.state = .disconnected
  | _ => True

/-- Exactly the connecting state has a channel. -/
structure Inv (c : Connector) : Prop where
  accounts : c.Accounts none
  channel : c.destroyed = false → (c.state = .connecting ↔ c.channel.isSome = true)
  gone : c.destroyed = true → c.channel = none
  asserted : c.assertFailed = false

section Accounting

variable {c : Connector} {fd : Fd}

theorem Accounts.close (accounts : c.Accounts (some fd)) :
    { c with closed := fd :: c.closed }.Accounts none := by
  intro other
  have before := accounts other
  simp only [Option.toList_some, Option.toList_none, List.count_cons, List.count_nil] at before ⊢
  omega

theorem Accounts.hand (accounts : c.Accounts (some fd)) :
    { c with handed := fd :: c.handed }.Accounts none := by
  intro other
  have before := accounts other
  simp only [Option.toList_some, Option.toList_none, List.count_cons, List.count_nil] at before ⊢
  omega

theorem Accounts.take (accounts : c.Accounts none) :
    { c with channel := none }.Accounts c.channel := by
  intro other
  have before := accounts other
  simp only [Option.toList_none, List.count_nil] at before ⊢
  omega

theorem Accounts.keep (accounts : c.Accounts (some fd)) (empty : c.channel = none) :
    { c with channel := some fd }.Accounts none := by
  intro other
  have before := accounts other
  rw [empty] at before
  simp only [Option.toList_some, Option.toList_none, List.count_cons, List.count_nil] at before ⊢
  omega

theorem Accounts.open (accounts : c.Accounts none) :
    { c with opened := c.opened + 1 }.Accounts (some c.opened) := by
  intro other
  have before := accounts other
  simp only [Option.toList_some, Option.toList_none, List.count_cons, List.count_nil,
    beq_iff_eq, Nat.add_zero, Nat.zero_add] at before ⊢
  rw [before]
  rcases Nat.lt_trichotomy other c.opened with below | here | above
  · rw [if_pos below, if_neg (Nat.ne_of_gt below), if_pos (Nat.lt_succ_of_lt below)]
  · rw [here, if_neg (Nat.lt_irrefl _), if_pos rfl, if_pos (Nat.lt_succ_self _)]
  · rw [if_neg (Nat.lt_asymm above), if_neg (Nat.ne_of_lt above), if_neg (Nat.not_lt.mpr above)]

end Accounting

section Handlers

variable {c : Connector}

/-- `retry` closes the descriptor, resets the state and touches the timers. -/
theorem retry_eq (sockfd : Option Fd) :
    ∃ timers retryDelayMs, c.retry sockfd = { c with
      closed := sockfd.toList ++ c.closed
      state := .disconnected
      timers := timers
      retryDelayMs := retryDelayMs } := by
  unfold retry
  dsimp only
  split
  · exact ⟨_, _, rfl⟩
  · exact ⟨_, _, rfl⟩

/-- `retry` leaves an idle connector. -/
theorem Inv.retry {sockfd : Option Fd} (accounts : c.Accounts sockfd) (empty : c.channel = none)
    (asserted : c.assertFailed = false) : (c.retry sockfd).Inv := by
  obtain ⟨timers, retryDelayMs, same⟩ := c.retry_eq sockfd
  have closed : { c with closed := sockfd.toList ++ c.closed }.Accounts none := by
    cases sockfd with
    | none => exact accounts
    | some fd => exact accounts.close
  rw [same]
  refine ⟨closed, fun _ => ⟨nofun, ?_⟩, fun _ => empty, asserted⟩
  rw [empty]
  exact nofun

/-- An attempt that starts without a channel keeps the invariant. -/
theorem Inv.connect (inv : c.Inv) (idle : c.state = .disconnected) (present : c.destroyed = false)
    (attempt : Attempt) : (c.connect attempt).Inv := by
  have empty : c.channel = none := by
    rw [← Option.not_isSome_iff_eq_none, ← inv.channel present, idle]
    decide
  have opened : { c with attempts := c.attempts + 1, opened := c.opened + 1 }.Accounts
      (some c.opened) := inv.accounts.open
  have given : ∀ closedNow : { c with
      attempts := c.attempts + 1
      opened := c.opened + 1
      closed := c.opened :: c.closed }.Accounts none,
      { c with
        attempts := c.attempts + 1
        opened := c.opened + 1
        closed := c.opened :: c.closed }.Inv := fun closedNow =>
    ⟨closedNow, inv.channel, inv.gone, inv.asserted⟩
  cases attempt with
  | socketFails =>
      unfold Connector.connect
      dsimp only
      split
      · exact .retry inv.accounts empty inv.asserted
      · exact ⟨inv.accounts, inv.channel, inv.gone, inv.asserted⟩
  | called savedErrno =>
      have waits : { c with
          attempts := c.attempts + 1
          opened := c.opened + 1
          state := .connecting
          channel := some c.opened }.Inv := by
        refine ⟨opened.keep empty, ?_, ?_, inv.asserted⟩
        · exact fun _ => ⟨fun _ => rfl, fun _ => rfl⟩
        · intro destroyed
          exact absurd (destroyed.symm.trans present) (by decide)
      have retried := Inv.retry opened empty inv.asserted
      have refused := given opened.close
      cases savedErrno with
      | success | einprogress | ealready | eisconn => exact waits
      | eintr | eagain | eaddrinuse | eaddrnotavail | econnrefused | enetunreach => exact retried
      | eacces | eperm | eafnosupport | ebadf | efault | enotsock | other => exact refused

theorem Inv.startInLoop (inv : c.Inv) (idle : c.state = .disconnected)
    (present : c.destroyed = false) (attempt : Attempt) : (c.startInLoop attempt).Inv := by
  have asserted : (c.assertFailed || c.state != ConnectorState.disconnected) = false := by
    rw [inv.asserted, idle]
    rfl
  have checked : { c with
      assertFailed := c.assertFailed || c.state != ConnectorState.disconnected }.Inv :=
    ⟨inv.accounts, inv.channel, inv.gone, asserted⟩
  unfold Connector.startInLoop
  dsimp only
  split
  · exact checked.connect idle present attempt
  · exact checked

/-- The descriptor of a connecting channel is closed, handed over or passed to `retry`. -/
theorem Inv.take (inv : c.Inv) (present : c.destroyed = false) (connecting : c.state = .connecting) :
    ∃ fd, c.channel = some fd ∧ { c with channel := none }.Accounts (some fd) := by
  obtain ⟨fd, owned⟩ := Option.isSome_iff_exists.mp ((inv.channel present).mp connecting)
  have taken := inv.accounts.take
  rw [owned] at taken
  exact ⟨fd, owned, taken⟩

theorem Inv.stopInLoop (inv : c.Inv) (present : c.destroyed = false) : c.stopInLoop.Inv := by
  unfold Connector.stopInLoop
  split
  · next connecting =>
      obtain ⟨fd, owned, taken⟩ := inv.take present connecting
      simp only [removeAndResetChannel, owned, Option.toList_some]
      exact ⟨taken.close, fun _ => ⟨nofun, nofun⟩, fun _ => rfl, inv.asserted⟩
  · exact inv

theorem Inv.handleWrite (inv : c.Inv) (present : c.destroyed = false) (socketError : Bool) :
    (c.handleWrite socketError).Inv := by
  unfold Connector.handleWrite
  split
  · next connecting =>
      obtain ⟨fd, owned, taken⟩ := inv.take present connecting
      simp only [removeAndResetChannel, owned, Option.toList_some]
      split
      · exact .retry taken rfl inv.asserted
      · split
        · exact ⟨taken.hand, fun _ => ⟨nofun, nofun⟩, fun _ => rfl, inv.asserted⟩
        · exact ⟨taken.close, fun _ => ⟨nofun, nofun⟩, fun _ => rfl, inv.asserted⟩
  · exact inv

theorem Inv.handleError (inv : c.Inv) (present : c.destroyed = false) : c.handleError.Inv := by
  unfold Connector.handleError
  split
  · next connecting =>
      obtain ⟨fd, owned, taken⟩ := inv.take present connecting
      simp only [removeAndResetChannel, owned]
      exact .retry taken rfl inv.asserted
  · exact inv

theorem Inv.destroy (inv : c.Inv) (present : c.destroyed = false) : c.destroy.Inv := by
  unfold Connector.destroy
  dsimp only
  split
  · next live =>
      obtain ⟨connecting, _⟩ := Bool.and_eq_true_iff.mp live
      obtain ⟨fd, owned, taken⟩ := inv.take present (of_decide_eq_true connecting)
      simp only [removeAndResetChannel, owned, Option.toList_some]
      exact ⟨taken.close, nofun, fun _ => rfl, inv.asserted⟩
  · next idle =>
      have empty : c.channel = none := by
        rw [← Option.not_isSome_iff_eq_none]
        intro owned
        have connecting := (inv.channel present).mpr owned
        rw [connecting, owned] at idle
        exact idle rfl
      have accounts := inv.accounts.take
      rw [empty] at accounts
      exact ⟨accounts, nofun, fun _ => rfl, inv.asserted⟩

/-- The first functor of the queue is run, unless the connector is gone. -/
theorem step_functor {attempt : Attempt} {next : Connector}
    (taken : c.step (.functor attempt) = some next) :
    ∃ functor rest, c.functors = functor :: rest ∧ next =
      if c.destroyed then { c with functors := rest }
      else { c with functors := rest }.runFunctor functor attempt := by
  unfold Connector.step at taken
  cases queued : c.functors with
  | nil =>
      rw [queued] at taken
      cases taken
  | cons functor rest =>
      rw [queued] at taken
      cases taken
      exact ⟨functor, rest, rfl, rfl⟩

/-- Every event keeps the invariant, if `restart` and `startInLoop` are not called early. -/
theorem Inv.step {event : ConnectorEvent} {next : Connector} (inv : c.Inv)
    (unhurried : c.Unhurried event) (taken : c.step event = some next) : next.Inv := by
  have refused : ∀ {after : Connector}, (if c.destroyed then none else some after) = some next →
      c.destroyed = false ∧ after = next := by
    intro after called
    split at called
    · cases called
    · next present =>
        cases called
        exact ⟨eq_false_of_ne_true present, rfl⟩
  have owns : c.channel.isSome = true → c.destroyed = false := by
    intro owned
    apply eq_false_of_ne_true
    intro destroyed
    rw [inv.gone destroyed] at owned
    cases owned
  cases event with
  | start inLoop attempt =>
      obtain ⟨present, rfl⟩ := refused taken
      have asked : { c with connectFlag := true }.Inv :=
        ⟨inv.accounts, inv.channel, inv.gone, inv.asserted⟩
      unfold Connector.start
      dsimp only
      split
      · next now => exact asked.startInLoop (unhurried now) present attempt
      · exact ⟨inv.accounts, inv.channel, inv.gone, inv.asserted⟩
  | restart attempt =>
      obtain ⟨present, rfl⟩ := refused taken
      have empty : c.channel.isSome ≠ true := fun owned =>
        unhurried ((inv.channel present).mpr owned)
      have reset : { c with
          state := .disconnected
          retryDelayMs := kInitRetryDelayMs
          connectFlag := true }.Inv :=
        ⟨inv.accounts, fun _ => ⟨nofun, fun owned => absurd owned empty⟩, inv.gone, inv.asserted⟩
      exact reset.startInLoop rfl present attempt
  | stop =>
      obtain ⟨present, rfl⟩ := refused taken
      exact ⟨inv.accounts, inv.channel, inv.gone, inv.asserted⟩
  | functor attempt =>
      obtain ⟨functor, rest, queued, rfl⟩ := step_functor taken
      have popped : { c with functors := rest }.Inv :=
        ⟨inv.accounts, inv.channel, inv.gone, inv.asserted⟩
      split
      · exact popped
      · next present =>
          have present := eq_false_of_ne_true present
          cases functor with
          | startInLoop =>
              have idle := unhurried present (by rw [queued]; rfl)
              exact popped.startInLoop idle present attempt
          | stopInLoop => exact popped.stopInLoop present
  | timer index attempt =>
      obtain ⟨armed, moved⟩ := Option.ite_none_right_eq_some.mp taken
      cases moved
      have expired : { c with timers := c.timers.eraseIdx index }.Inv :=
        ⟨inv.accounts, inv.channel, inv.gone, inv.asserted⟩
      split
      · exact expired
      · next present =>
          unfold retryTimer
          split
          · exact expired
          · next due =>
              have idle : c.state = .disconnected := by
                simpa using (Bool.or_eq_false_iff.mp (eq_false_of_ne_true due)).2
              exact expired.startInLoop idle (eq_false_of_ne_true present) attempt
  | writable socketError =>
      obtain ⟨owned, moved⟩ := Option.ite_none_right_eq_some.mp taken
      cases moved
      exact inv.handleWrite (owns owned) socketError
  | error =>
      obtain ⟨owned, moved⟩ := Option.ite_none_right_eq_some.mp taken
      cases moved
      exact inv.handleError (owns owned)
  | destroy =>
      obtain ⟨present, rfl⟩ := refused taken
      exact inv.destroy present

end Handlers

theorem inv_initial : initial.Inv := by
  refine ⟨?_, fun _ => ⟨nofun, nofun⟩, nofun, rfl⟩
  intro fd
  exact (if_neg (Nat.not_lt_zero fd)).symm

/--
Descriptors are conserved: in every state of a run each descriptor of `socket()`
has been handed over once, or closed once, or is the one that the connector still
owns, and the assertion has not failed, as long as `restart` is not called during
an attempt and `startInLoop` runs in `kDisconnected` only.
-/
theorem descriptors_conserved {events : List ConnectorEvent} {final : Connector}
    (unhurried : Along step Unhurried initial events)
    (reached : run? step initial events = some final) : final.Conserves := by
  have kept : ∀ (c : Connector) event next, c.Inv → c.Unhurried event →
      c.step event = some next → next.Inv := fun _ _ _ inv calm taken => inv.step calm taken
  have inv := run?_invariant_along kept inv_initial unhurried reached
  exact ⟨inv.accounts, inv.gone, inv.asserted⟩

/-- An attempt that is refused, a retry that succeeds, and a restart later. -/
def patientRun : List ConnectorEvent :=
  [.start true (.called .econnrefused), .timer 0 (.called .einprogress), .writable false,
    .restart (.called .einprogress), .stop, .functor .socketFails, .destroy]

theorem descriptors_conserved_patientRun :
    ∃ final, run? step initial patientRun = some final ∧ final.opened = 3 ∧
      final.handed = [1] ∧ final.closed = [2, 0] ∧ final.Conserves := by
  have reached : run? step initial patientRun = some _ := rfl
  refine ⟨_, reached, rfl, rfl, rfl, descriptors_conserved ?_ reached⟩
  refine .cons (fun _ => rfl) rfl (.cons trivial rfl (.cons trivial rfl (.cons ?_ rfl
    (.cons trivial rfl (.cons ?_ rfl (.cons trivial rfl trivial))))))
  · exact nofun
  · exact fun _ => nofun

/-- A restart during an attempt. -/
def restartedAttempt : List ConnectorEvent :=
  [.start true (.called .einprogress), .restart (.called .einprogress), .writable false, .destroy]

/-- Two starts, the second of them when the connection is there. -/
def secondStart : List ConnectorEvent :=
  [.start true (.called .einprogress), .writable false, .start true (.called .einprogress)]

/-- The descriptor of the first attempt is lost, and the second start fails the assertion. -/
theorem restart_loses_descriptor :
    (∃ final, run? step initial restartedAttempt = some final ∧ final.destroyed = true ∧
      0 < final.opened ∧ 0 ∉ final.handed ∧ 0 ∉ final.closed) ∧
    ∃ final, run? step initial secondStart = some final ∧ final.assertFailed = true := by
  refine ⟨⟨_, rfl, rfl, ?_, ?_, ?_⟩, ⟨_, rfl, rfl⟩⟩
  · decide
  · decide
  · decide

end Connector

end RpcFramework
