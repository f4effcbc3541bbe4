import RpcFramework.Lib.StepRun

/-!
# Starting and stopping the thread of an event loop

`EventLoopThread` runs an `EventLoop` on a thread of its own.  The new thread
publishes `loop_` and then enters `EventLoop::loop`, which begins by resetting
`quit_`; the thread that called `startLoop` goes on as soon as `loop_` is
published, and may call `stop` at any time from then on.

Every access of a thread to `loop_`, `quit_` or the eventfd is a step.  A
request to quit that is stored between the publication and the reset is lost.
-/

namespace RpcFramework

open StepRun

namespace EventLoopThread

/-- Where the new thread stands in `threadFunc` and in `EventLoop::loop`. -/
inductive ThreadPhase where
  | starting
  | published
  | testing
  | polling
  | returned
  | finished
  deriving DecidableEq, Repr

/-- `EventLoop::loop` has returned. -/
def ThreadPhase.LoopReturned : ThreadPhase → Prop
  | .returned | .finished => True
  | .starting | .published | .testing | .polling => False

/-- `EventLoop::loop` has reset `quit_` and has not returned. -/
def ThreadPhase.InLoop : ThreadPhase → Prop
  | .testing | .polling => True
  | .starting | .published | .returned | .finished => False

/-- Where the thread that calls `startLoop` and then `stop` stands. -/
inductive CallerPhase where
  | waiting
  | started
  | stopping
  | quitting
  | waking
  | joining
  | stopped
  deriving DecidableEq, Repr

/-- The caller has executed `quit_.store(true)` or has passed it by. -/
def CallerPhase.PastQuit : CallerPhase → Prop
  | .waking | .joining | .stopped => True
  | .waiting | .started | .stopping | .quitting => False

end EventLoopThread

open EventLoopThread

/-- `loop` says whether `loop_` is set, and `requested` whether `quit()` has
stored its request. -/
structure EventLoopThread where
  loop : Bool
  exiting : Bool
  looping : Bool
  quit : Bool
  wakeupFd : Nat
  thread : ThreadPhase
  caller : CallerPhase
  requested : Bool
  deriving DecidableEq, Repr

namespace EventLoopThread

/-- `startLoop` has created the thread and waits for `loop_`. -/
def initial : EventLoopThread := ⟨false, false, false, false, 0, .starting, .waiting, false⟩

/-- The first five are steps of the new thread, the others of the caller. -/
inductive Event where
  | publish
  | enterLoop
  | testQuit
  | loopOnceReturns
  | clearLoop
  | startLoopReturns
  | stop
  | testLoop
  | storeQuit
  | wakeup
  | join
  deriving DecidableEq, Repr

/-- The steps of the new thread. -/
def Event.OfThread : Event → Prop
  | .publish | .enterLoop | .testQuit | .loopOnceReturns | .clearLoop => True
  | .startLoopReturns | .stop | .testLoop | .storeQuit | .wakeup | .join => False

def step (s : EventLoopThread) : Event → Option EventLoopThread
  | .publish =>
      if s.thread = .starting then some { s with loop := true, thread := .published } else none
  | .enterLoop =>
      if s.thread = .published then
        some { s with looping := true, quit := false, thread := .testing }
      else none
  | .testQuit =>
      if s.thread = .testing then
        if s.quit then some { s with looping := false, thread := .returned }
        else some { s with thread := .polling }
      else none
  | .loopOnceReturns =>
      if s.thread = .polling then some { s with wakeupFd := 0, thread := .testing } else none
  | .clearLoop =>
      if s.thread = .returned then some { s with loop := false, thread := .finished } else none
  | .startLoopReturns =>
      if s.caller = .waiting ∧ s.loop = true then some { s with caller := .started } else none
  | .stop =>
      if s.caller = .started then some { s with exiting := true, caller := .stopping } else none
  | .testLoop =>
      if s.caller = .stopping then
        some { s with caller := if s.loop then .quitting else .joining }
      else none
  | .storeQuit =>
      if s.caller = .quitting then
        some { s with quit := true, requested := true, caller := .waking }
      else none
  | .wakeup =>
      if s.caller = .waking then
        some { s with wakeupFd := s.wakeupFd + 1, caller := .joining }
      else none
  | .join =>
      if s.caller = .joining ∧ s.thread = .finished then
        some { s with loop := false, caller := .stopped }
      else none

/--
Once `quit()` has stored its request, `quit_` is true until `loop()` returns, a
test of `quit_` ends the loop, and the new thread comes to its end by itself, so
that the `join` of `stop` returns.
-/
structure StopHonoured (s : EventLoopThread) : Prop where
  kept : s.requested = true → ¬ s.thread.LoopReturned → s.quit = true
  exits : s.requested = true → ∀ next, s.step .testQuit = some next → next.thread = .returned
  joins : s.requested = true → ∃ own next, (∀ event ∈ own, Event.OfThread event) ∧
    run? step s own = some next ∧ next.thread = .finished

/-- `quit()` stores its request when the loop has already reset `quit_`. -/
def QuitsInLoop (s : EventLoopThread) : Event → Prop
  | .storeQuit => s.thread.InLoop
  | _ => True

/-- The request is still to be seen by the loop, or has ended it. -/
def Pending (s : EventLoopThread) : Prop :=
  s.thread.LoopReturned ∨ s.thread.InLoop ∧ s.quit = true

/-- The request is stored once, a loop that was not asked to quit runs on, and
`stop` returns when the thread has come to its end. -/
structure Inv (s : EventLoopThread) : Prop where
  once : s.requested = true → s.caller.PastQuit
  unasked : s.requested = false → s.quit = false ∧ ¬ s.thread.LoopReturned
  joined : s.caller = .stopped → s.thread = .finished

section Steps

variable {s next : EventLoopThread}

theorem inv_initial : initial.Inv := ⟨nofun, fun _ => ⟨rfl, id⟩, nofun⟩

/-- A step of the caller other than the request leaves the loop alone. -/
theorem Inv.callerMoves (inv : s.Inv) {caller : CallerPhase} {loop exiting : Bool} {wakeupFd : Nat}
    (past : s.caller.PastQuit → caller.PastQuit)
    (joined : caller = .stopped → s.thread = .finished) :
    Inv { s with caller := caller, loop := loop, exiting := exiting, wakeupFd := wakeupFd } :=
  ⟨fun requested => past (inv.once requested), inv.unasked, joined⟩

/-- A step of the new thread changes neither the request nor the caller. -/
theorem Inv.threadMoves (inv : s.Inv) {thread : ThreadPhase} {loop looping quit : Bool}
    {wakeupFd : Nat} (running : s.thread ≠ .finished) (stays : quit = true → s.quit = true)
    (returns : thread.LoopReturned → s.thread.LoopReturned ∨ s.quit = true) :
    Inv { s with
      thread := thread, loop := loop, looping := looping, quit := quit, wakeupFd := wakeupFd } := by
  refine ⟨inv.once, fun unasked => ?_, fun stopped => absurd (inv.joined stopped) running⟩
  obtain ⟨noQuit, looping⟩ := inv.unasked unasked
  refine ⟨Bool.eq_false_iff.mpr fun quit => ?_, fun returned => ?_⟩
  · exact Bool.false_ne_true (noQuit.symm.trans (stays quit))
  · rcases returns returned with already | quit
    · exact looping already
    · exact Bool.false_ne_true (noQuit.symm.trans quit)

/-- A step keeps the invariant, and keeps a stored request pending exactly if it
does not store it too early. -/
theorem Inv.step (inv : s.Inv) {event : Event} (taken : s.step event = some next) :
    next.Inv ∧ ((next.requested = true → next.Pending) ↔
      (s.requested = true → s.Pending) ∧ s.QuitsInLoop event) := by
  cases event with
  | publish =>
      obtain ⟨starting, moved⟩ := Option.ite_none_right_eq_some.mp taken
      cases moved
      refine ⟨inv.threadMoves (by simp [starting]) id nofun, ?_⟩
      simp [Pending, QuitsInLoop, starting, ThreadPhase.LoopReturned, ThreadPhase.InLoop]
  | enterLoop =>
      obtain ⟨published, moved⟩ := Option.ite_none_right_eq_some.mp taken
      cases moved
      refine ⟨inv.threadMoves (by simp [published]) nofun nofun, ?_⟩
      simp [Pending, QuitsInLoop, published, ThreadPhase.LoopReturned, ThreadPhase.InLoop]
  | testQuit =>
      obtain ⟨testing, moved⟩ := Option.ite_none_right_eq_some.mp taken
      split at moved
      · next quit =>
          cases moved
          refine ⟨inv.threadMoves (by simp [testing]) id fun _ => Or.inr quit, ?_⟩
          simp [Pending, QuitsInLoop, testing, ThreadPhase.LoopReturned, ThreadPhase.InLoop, quit]
      · next running =>
          cases moved
          refine ⟨inv.threadMoves (by simp [testing]) id nofun, ?_⟩
          simp [Pending, QuitsInLoop, testing, ThreadPhase.LoopReturned, ThreadPhase.InLoop]
  | loopOnceReturns =>
      obtain ⟨polling, moved⟩ := Option.ite_none_right_eq_some.mp taken
      cases moved
      refine ⟨inv.threadMoves (by simp [polling]) id nofun, ?_⟩
      simp [Pending, QuitsInLoop, polling, ThreadPhase.LoopReturned, ThreadPhase.InLoop]
  | clearLoop =>
      obtain ⟨returned, moved⟩ := Option.ite_none_right_eq_some.mp taken
      cases moved
      have already : s.thread.LoopReturned := by
        rw [returned]
        trivial
      refine ⟨inv.threadMoves (by simp [returned]) id fun _ => Or.inl already, ?_⟩
      simp [Pending, QuitsInLoop, returned, ThreadPhase.LoopReturned]
  | startLoopReturns =>
      obtain ⟨⟨waiting, _⟩, moved⟩ := Option.ite_none_right_eq_some.mp taken
      cases moved
      exact ⟨inv.callerMoves (by simp [waiting, CallerPhase.PastQuit]) nofun,
        (and_iff_left trivial).symm⟩
  | stop =>
      obtain ⟨started, moved⟩ := Option.ite_none_right_eq_some.mp taken
      cases moved
      exact ⟨inv.callerMoves (by simp [started, CallerPhase.PastQuit]) nofun,
        (and_iff_left trivial).symm⟩
  | testLoop =>
      obtain ⟨stopping, moved⟩ := Option.ite_none_right_eq_some.mp taken
      cases moved
      refine ⟨inv.callerMoves (by simp [stopping, CallerPhase.PastQuit]) ?_,
        (and_iff_left trivial).symm⟩
      cases s.loop with
      | false => nofun
      | true => nofun
  | storeQuit =>
      obtain ⟨quitting, moved⟩ := Option.ite_none_right_eq_some.mp taken
      cases moved
      have unasked : s.requested = false := by
        cases requested : s.requested with
        | false => rfl
        | true =>
            have past := inv.once requested
            rw [quitting] at past
            cases past
      refine ⟨⟨fun _ => trivial, nofun, nofun⟩, ?_⟩
      simp [Pending, QuitsInLoop, unasked, (inv.unasked unasked).2]
  | wakeup =>
      obtain ⟨waking, moved⟩ := Option.ite_none_right_eq_some.mp taken
      cases moved
      exact ⟨inv.callerMoves (fun _ => trivial) nofun, (and_iff_left trivial).symm⟩
  | join =>
      obtain ⟨⟨_, finished⟩, moved⟩ := Option.ite_none_right_eq_some.mp taken
      cases moved
      exact ⟨inv.callerMoves (fun _ => trivial) fun _ => finished, (and_iff_left trivial).symm⟩

/-- A pending request lets the thread come to its end. -/
theorem Pending.finishes (pending : s.Pending) : ∃ own next, (∀ event ∈ own, Event.OfThread event) ∧
    run? EventLoopThread.step s own = some next ∧ next.thread = .finished := by
  rcases pending with returned | ⟨inLoop, quit⟩
  · cases thread : s.thread with
    | returned =>
        refine ⟨[.clearLoop], { s with loop := false, thread := .finished }, ?_, ?_, rfl⟩
        · simp [Event.OfThread]
        · simp [run?, EventLoopThread.step, thread]
    | finished => exact ⟨[], s, List.forall_mem_nil _, rfl, thread⟩
    | starting | published | testing | polling =>
        rw [thread] at returned
        cases returned
  · cases thread : s.thread with
    | testing =>
        refine ⟨[.testQuit, .clearLoop],
          { s with looping := false, loop := false, thread := .finished }, ?_, ?_, rfl⟩
        · simp [Event.OfThread]
        · simp [run?, EventLoopThread.step, thread, quit]
    | polling =>
        refine ⟨[.loopOnceReturns, .testQuit, .clearLoop],
          { s with wakeupFd := 0, looping := false, loop := false, thread := .finished }, ?_, ?_, rfl⟩
        · simp [Event.OfThread]
        · simp [run?, EventLoopThread.step, thread, quit]
    | starting | published | returned | finished =>
        rw [thread] at inLoop
        cases inLoop

/-- A lost request stays lost: the thread never comes to its end, and `stop`
never returns. -/
theorem Inv.never_finishes (inv : s.Inv) (requested : s.requested = true) (lost : ¬ s.Pending)
    {events : List Event} (reached : run? EventLoopThread.step s events = some next) :
    next.thread ≠ .finished ∧ next.caller ≠ .stopped := by
  have kept : ∀ (s : EventLoopThread) event next,
      s.Inv ∧ ¬ (s.requested = true → s.Pending) → s.step event = some next →
        next.Inv ∧ ¬ (next.requested = true → next.Pending) := by
    rintro s event next ⟨inv, lost⟩ taken
    obtain ⟨after, pending⟩ := inv.step taken
    exact ⟨after, fun honoured => lost (pending.mp honoured).1⟩
  have start : s.Inv ∧ ¬ (s.requested = true → s.Pending) :=
    ⟨inv, fun honoured => lost (honoured requested)⟩
  obtain ⟨after, still⟩ := run?_invariant kept start reached
  have running : next.thread ≠ .finished := by
    intro finished
    apply still
    intro _
    refine Or.inl ?_
    rw [finished]
    trivial
  exact ⟨running, fun stopped => running (after.joined stopped)⟩

theorem Inv.stopHonoured_iff (inv : s.Inv) :
    s.StopHonoured ↔ (s.requested = true → s.Pending) := by
  constructor
  · intro honoured requested
    refine Classical.byContradiction fun lost => ?_
    obtain ⟨own, next, _, reached, finished⟩ := honoured.joins requested
    exact (inv.never_finishes requested lost reached).1 finished
  · intro pending
    have quit : s.requested = true → ¬ s.thread.LoopReturned → s.quit = true :=
      fun requested running => ((pending requested).resolve_left running).2
    refine ⟨quit, ?_, fun requested => (pending requested).finishes⟩
    intro requested next taken
    obtain ⟨testing, moved⟩ := Option.ite_none_right_eq_some.mp taken
    have running : ¬ s.thread.LoopReturned := by
      rw [testing]
      exact id
    rw [if_pos (quit requested running)] at moved
    cases moved
    rfl

end Steps

/--
In every interleaving of the new thread with `startLoop` and `stop`, the request
to quit is honoured exactly if `quit()` stored it when the loop had already
reset `quit_`.
-/
theorem stopHonoured_iff_quitsInLoop {events : List Event} {final : EventLoopThread}
    (reached : run? step initial events = some final) :
    final.StopHonoured ↔ Along step QuitsInLoop initial events := by
  have kept : ∀ (s : EventLoopThread) event next, s.Inv → s.step event = some next → next.Inv :=
    fun _ _ _ inv taken => (inv.step taken).1
  have exact_step : ∀ (s : EventLoopThread) event next, s.Inv → s.step event = some next →
      ((next.requested = true → next.Pending) ↔
        (s.requested = true → s.Pending) ∧ s.QuitsInLoop event) :=
    fun _ _ _ inv taken => (inv.step taken).2
  have start : initial.requested = true → initial.Pending := nofun
  rw [(run?_invariant kept inv_initial reached).stopHonoured_iff,
    run?_exact_along kept exact_step inv_initial reached]
  exact and_iff_right start

/-- `stop` after the loop has been entered. -/
def lateStop : List Event :=
  [.publish, .startLoopReturns, .enterLoop, .testQuit, .stop, .testLoop, .storeQuit, .wakeup,
    .loopOnceReturns, .testQuit, .clearLoop, .join]

theorem stopHonoured_iff_quitsInLoop_lateStop :
    ∃ final, run? step initial lateStop = some final ∧ final.caller = .stopped ∧
      (final.StopHonoured ↔ Along step QuitsInLoop initial lateStop) := by
  refine ⟨⟨false, true, false, true, 0, .finished, .stopped, true⟩, ?_, rfl, ?_⟩
  · decide
  · exact stopHonoured_iff_quitsInLoop (by decide)

/-- `stop` right after `startLoop` has returned, before the loop is entered. -/
def earlyStop : List Event :=
  [.publish, .startLoopReturns, .stop, .testLoop, .storeQuit, .wakeup, .enterLoop]

/-- The request is lost, and whatever the threads do, `stop` does not return. -/
theorem early_stop_never_returns : ∃ final, run? step initial earlyStop = some final ∧
    ¬ final.StopHonoured ∧ final.requested = true ∧ final.quit = false ∧
    ∀ more ended, run? step final more = some ended →
      ended.thread ≠ .finished ∧ ended.caller ≠ .stopped := by
  have reached : run? step initial earlyStop =
      some ⟨true, true, true, false, 1, .testing, .joining, true⟩ := by decide
  have inv := run?_invariant (fun _ _ _ before taken => (Inv.step before taken).1) inv_initial
    reached
  have lost : ¬ Pending ⟨true, true, true, false, 1, .testing, .joining, true⟩ := by
    rintro (returned | ⟨_, quit⟩)
    · exact returned
    · cases quit
  refine ⟨_, reached, ?_, rfl, rfl, ?_⟩
  · rw [inv.stopHonoured_iff]
    exact fun pending => lost (pending rfl)
  · exact fun more ended later => inv.never_finishes rfl lost later

end EventLoopThread

end RpcFramework
