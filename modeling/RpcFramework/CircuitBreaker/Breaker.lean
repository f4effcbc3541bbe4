import Mathlib.Data.List.Basic

/-!
# The circuit breaker

The three-state breaker with its failure count, the time it was opened and the
counter of probes in HALF_OPEN.  Calls run one at a time; every reading of the
steady clock is an argument, in nanoseconds.  `openedAt_` starts at the epoch
of the clock, and the source reuses it for the timeout of a probe.
-/

namespace RpcFramework

namespace CircuitBreaker

inductive State where
  | closed
  | opened
  | halfOpen
  deriving DecidableEq, Repr

end CircuitBreaker

structure CircuitBreaker where
  state : CircuitBreaker.State
  failureCount : Int
  failureThreshold : Int
  openTimeout : Int
  openedAt : Int
  halfOpenRequests : Int
  deriving DecidableEq, Repr

namespace CircuitBreaker

/-- Nanoseconds of a duration in milliseconds. -/
def nanos (milliseconds : Int) : Int := milliseconds * 1000000

/-- `halfOpenTimeout_`, in milliseconds. -/
def halfOpenTimeout : Int := 5000

/-- The constructor; `openTimeout_` is kept in milliseconds. -/
def new (failureThreshold openTimeoutSec : Int) : CircuitBreaker :=
  ⟨.closed, 0, failureThreshold, openTimeoutSec * 1000, 0, 0⟩

def transitionToOpen (cb : CircuitBreaker) (now : Int) : CircuitBreaker :=
  { cb with openedAt := now, state := .opened }

def transitionToHalfOpen (cb : CircuitBreaker) : CircuitBreaker :=
  { cb with halfOpenRequests := 0, state := .halfOpen }

def transitionToClosed (cb : CircuitBreaker) : CircuitBreaker :=
  { cb with state := .closed, failureCount := 0, halfOpenRequests := 0 }

/-- `halfOpenRequests_.compare_exchange_strong(0, 1)`. -/
def takeProbe (cb : CircuitBreaker) : Bool × CircuitBreaker :=
  if cb.halfOpenRequests = 0 then (true, { cb with halfOpenRequests := 1 }) else (false, cb)

/-- The section under the lock for a caller that has seen OPEN; another caller
may have changed the state by then. -/
def allowRequestOpen (cb : CircuitBreaker) (now : Int) : Bool × CircuitBreaker :=
  match cb.state with
  | .closed => (true, cb)
  | .halfOpen => cb.takeProbe
  | .opened =>
      if now - cb.openedAt ≥ nanos cb.openTimeout then (true, cb.transitionToHalfOpen)
      else (false, cb)

/-- The path of a caller that has seen HALF_OPEN; it reads the clock a second
time when it resets the probe timeout. -/
def allowRequestHalfOpen (cb : CircuitBreaker) (now later : Int) : Bool × CircuitBreaker :=
  let cb :=
    if now - cb.openedAt ≥ nanos halfOpenTimeout then
      { cb with halfOpenRequests := 0, openedAt := later }
    else cb
  cb.takeProbe

def allowRequest (cb : CircuitBreaker) (now later : Int) : Bool × CircuitBreaker :=
  match cb.state with
  | .closed => (true, cb)
  | .opened => cb.allowRequestOpen now
  | .halfOpen => cb.allowRequestHalfOpen now later

def recordSuccess (cb : CircuitBreaker) : CircuitBreaker :=
  match cb.state with
  | .closed => { cb with failureCount := 0 }
  | .halfOpen => cb.transitionToClosed
  | .opened => cb

def recordFailure (cb : CircuitBreaker) (now : Int) : CircuitBreaker :=
  match cb.state with
  | .closed =>
      let cb := { cb with failureCount := cb.failureCount + 1 }
      if cb.failureCount ≥ cb.failureThreshold then cb.transitionToOpen now else cb
  | .halfOpen => cb.transitionToOpen now
  | .opened => cb

/-! ## Sequences of calls -/

/-- A call with the readings of the clock it may make. -/
inductive Call where
  | allowRequest (now later : Int)
  | recordSuccess
  | recordFailure (now : Int)
  deriving DecidableEq, Repr

/-- The state after a call. -/
def step (cb : CircuitBreaker) : Call → CircuitBreaker
  | .allowRequest now later => (cb.allowRequest now later).2
  | .recordSuccess => cb.recordSuccess
  | .recordFailure now => cb.recordFailure now

def run (cb : CircuitBreaker) (calls : List Call) : CircuitBreaker := calls.foldl step cb

/-! ## Probes -/

/--
The number of requests admitted by the calls that follow an admitted probe,
until an outcome is recorded or `halfOpenTimeout_` has passed since the last
admitted request.
-/
def furtherProbes (cb : CircuitBreaker) (admittedAt : Int) : List Call → Nat
  | [] => 0
  | .recordSuccess :: _ => 0
  | .recordFailure _ :: _ => 0
  | .allowRequest now later :: rest =>
      if now - admittedAt ≥ nanos halfOpenTimeout then 0
      else
        let called := cb.allowRequest now later
        if called.1 then furtherProbes called.2 now rest + 1
        else furtherProbes called.2 admittedAt rest

/-- The call moves the breaker from OPEN to HALF_OPEN. -/
def Reopens (cb : CircuitBreaker) (now later : Int) : Prop :=
  cb.state = .opened ∧ (cb.allowRequest now later).2.state = .halfOpen

instance (cb : CircuitBreaker) (now later : Int) : Decidable (cb.Reopens now later) :=
  inferInstanceAs (Decidable (_ ∧ _))

/-- From every call that moves the breaker to HALF_OPEN on, that call included,
at most one request is admitted in the window of the probe. -/
def SingleProbe (cb : CircuitBreaker) (calls : List Call) : Prop :=
  ∀ before now later after, calls = before ++ .allowRequest now later :: after →
    (cb.run before).Reopens now later →
    furtherProbes ((cb.run before).allowRequest now later).2 now after +
      (if ((cb.run before).allowRequest now later).1 then 1 else 0) ≤ 1

/-- No request is asked for before an outcome is recorded or `halfOpenTimeout_` has passed. -/
def Quiet (admittedAt : Int) : List Call → Prop
  | .allowRequest now _ :: _ => now - admittedAt ≥ nanos halfOpenTimeout
  | _ => True

/-- Every call that moves the breaker to HALF_OPEN is followed by a quiet stretch. -/
def QuietProbes (cb : CircuitBreaker) (calls : List Call) : Prop :=
  ∀ before now later after, calls = before ++ .allowRequest now later :: after →
    (cb.run before).Reopens now later → Quiet now after

/-- The transition admits its caller and leaves the slot of the probe free. -/
theorem Reopens.allowRequest_eq {cb : CircuitBreaker} {now later : Int}
    (reopens : cb.Reopens now later) :
    cb.allowRequest now later = (true, cb.transitionToHalfOpen) := by
  obtain ⟨opened, half⟩ := reopens
  simp only [allowRequest, opened, allowRequestOpen] at half ⊢
  split at half
  · next elapsed => exact if_pos elapsed
  · rw [opened] at half
    cases half

/-- A free slot in HALF_OPEN goes to the next caller, whatever the time. -/
theorem allowRequest_free {cb : CircuitBreaker} (half : cb.state = .halfOpen)
    (free : cb.halfOpenRequests = 0) (now later : Int) : (cb.allowRequest now later).1 = true := by
  simp only [allowRequest, half, allowRequestHalfOpen]
  split
  · rfl
  · rw [takeProbe, if_pos free]

theorem furtherProbes_eq_zero_iff {cb : CircuitBreaker} (half : cb.state = .halfOpen)
    (free : cb.halfOpenRequests = 0) (admittedAt : Int) (calls : List Call) :
    cb.furtherProbes admittedAt calls = 0 ↔ Quiet admittedAt calls := by
  cases calls with
  | nil => simp [furtherProbes, Quiet]
  | cons call rest =>
      cases call with
      | recordSuccess => simp [furtherProbes, Quiet]
      | recordFailure now => simp [furtherProbes, Quiet]
      | allowRequest now later =>
          rw [furtherProbes, Quiet]
          by_cases elapsed : now - admittedAt ≥ nanos halfOpenTimeout
          · simp [elapsed]
          · simp [elapsed, allowRequest_free half free]

/--
A sequence of calls admits a single probe in every HALF_OPEN window exactly
when no request is asked for in the window behind the call that opened it.
-/
theorem singleProbe_iff_quietProbes (cb : CircuitBreaker) (calls : List Call) :
    SingleProbe cb calls ↔ QuietProbes cb calls := by
  have window : ∀ before now later after, (cb.run before).Reopens now later →
      (furtherProbes ((cb.run before).allowRequest now later).2 now after +
        (if ((cb.run before).allowRequest now later).1 then 1 else 0) ≤ 1 ↔
          Quiet now after) := by
    intro before now later after reopens
    have count : (cb.run before).transitionToHalfOpen.furtherProbes now after = 0 ↔
        Quiet now after := furtherProbes_eq_zero_iff rfl rfl now after
    rw [reopens.allowRequest_eq, ← count]
    simp
  constructor
  · intro single before now later after split reopens
    exact (window before now later after reopens).mp (single before now later after split reopens)
  · intro quiet before now later after split reopens
    exact (window before now later after reopens).mpr (quiet before now later after split reopens)

/-- The breaker opens at 1 s and lets two callers through at 2 s. -/
theorem two_probes_at_once :
    ¬ SingleProbe (new 1 1) [.recordFailure (nanos 1000),
      .allowRequest (nanos 2000) (nanos 2000), .allowRequest (nanos 2000) (nanos 2000)] := by
  intro single
  have bound := single [.recordFailure (nanos 1000)] (nanos 2000) (nanos 2000)
    [.allowRequest (nanos 2000) (nanos 2000)] rfl (by decide)
  exact absurd bound (by decide)

end CircuitBreaker

end RpcFramework
