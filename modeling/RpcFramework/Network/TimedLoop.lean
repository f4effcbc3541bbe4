import RpcFramework.Network.EventLoop
import RpcFramework.Network.TimerQueue

/-!
# The event loop with its timers

The loop of functors and wakeups and the timers of the loop as one system.  The loop reads
the clock and computes its timeout from the earliest timer under the lock of the timers,
and enters `epoll_wait` later.  The loop thread adds timers in its handlers, timer callbacks
and functors without waking itself; another thread pushes its timer and then writes the
eventfd, both under the lock.

What may be waiting while the loop sleeps, with the lock free: no timer that has been due
for longer than it took the loop to get from its clock reading into `epoll_wait`, and of the
functors only those whose `queueInLoop` has not written the eventfd yet and those that
functors of the last round have queued.
-/

namespace RpcFramework

open StepRun

namespace TimedLoop

open EventLoop (kEpollWaitTimeoutMs)

/-- What `getNextTimerTimeoutMs` has read: `timers_.top().nextRun`, and the clock. -/
structure Reading where
  nextRun : Option Int
  now : Int
  deriving DecidableEq, Repr

/-- The timeout that is computed from it. -/
def Reading.timeoutMs (reading : Reading) : Int :=
  EventLoop.timeoutMs kEpollWaitTimeoutMs reading.nextRun reading.now

end TimedLoop

/-- `adding` is set while another thread has pushed a timer and has not written the eventfd:
it holds `timerMutex_`.  `reading` is there from the computation of a timeout to the end of
the wait, and `enteredAt` is the time at which the last wait began. -/
structure TimedLoop where
  loop : EventLoop
  queue : TimerQueue
  adding : Bool
  reading : Option TimedLoop.Reading
  enteredAt : Int

namespace TimedLoop

open EventLoop (Phase)
open TimerQueue (TimerTask Converts kNanosPerMs effectiveDelay effectiveInterval)

def initial : TimedLoop := ⟨.initial, .initial, false, none, 0⟩

def nextRun (s : TimedLoop) : Option Int := (s.queue.timers.map TimerTask.nextRun).min?

/-- The steps of the loop that do not look at the timers. -/
inductive LoopEvent where
  | push
  | wakeup (functor : Nat)
  | queueInLoop
  | handleRead
  | runFunctor
  | functorReturns
  | nextRound

def LoopEvent.event : LoopEvent → EventLoop.Event
  | .push => .push
  | .wakeup functor => .wakeup functor
  | .queueInLoop => .queueInLoop
  | .handleRead => .handleRead
  | .runFunctor => .runFunctor
  | .functorReturns => .functorReturns
  | .nextRound => .nextRound

/-- The calls of another thread.  A registration is two steps, its push and its wakeup. -/
inductive RemoteEvent where
  | runAfter (delaySeconds : Binary64) (now : Int)
  | runEvery (intervalSeconds : Binary64) (now : Int)
  | wakeup
  | cancelTimer (id : UInt64)

inductive Event where
  | loop (event : LoopEvent)
  | timer (event : TimerQueue.Event)
  | remote (event : RemoteEvent)
  | getNextTimerTimeoutMs (now : Int)
  | epollWait (now : Int)
  | epollReturn
  | processTimers (now : Int) (order : List TimerTask)
  | doPendingFunctors

/-- The phases in which the loop thread runs code that is not its own: handlers, timer
callbacks and functors.  Passes are driven in the second of them only. -/
def Allows (phase : Phase) : TimerQueue.Event → Bool
  | .runAfter _ _ | .runEvery _ _ | .cancelTimer _ =>
      phase = .handlers ∨ phase = .timers ∨ phase = .inFunctor
  | .start | .finish _ | .endPass => phase = .timers
  | .processTimers _ _ => false

/-- The step takes `timerMutex_`: a callback that has returned does so for a periodic task. -/
def TakesLock (queue : TimerQueue) : TimerQueue.Event → Bool
  | .runAfter _ _ | .runEvery _ _ | .cancelTimer _ | .processTimers _ _ => true
  | .start | .endPass => false
  | .finish _ =>
      match queue.passes with
      | ⟨_, some task, _⟩ :: _ => 0 < task.interval
      | _ => false

/-- A step of another thread.  Whoever has pushed a timer keeps the lock until it has written
the eventfd. -/
def remote (s : TimedLoop) : RemoteEvent → Option TimedLoop
  | .runAfter delaySeconds now =>
      if s.adding = false ∧ s.queue.Reads now ∧ Converts (effectiveDelay delaySeconds) then
        some { s with queue := s.queue.runAfter delaySeconds now, adding := true }
      else none
  | .runEvery intervalSeconds now =>
      if s.adding = false ∧ s.queue.Reads now ∧ Converts (effectiveInterval intervalSeconds) then
        some { s with queue := s.queue.runEvery intervalSeconds now, adding := true }
      else none
  | .wakeup =>
      if s.adding then
        (s.loop.step .runAfter).map fun loop => { s with loop := loop, adding := false }
      else none
  | .cancelTimer id =>
      if s.adding then none else some { s with queue := s.queue.cancelTimer id }

/-- One step.  The queue of functors is taken over when the callbacks of the timers
have been run. -/
def step (s : TimedLoop) : Event → Option TimedLoop
  | .loop event => (s.loop.step event.event).map fun loop => { s with loop := loop }
  | .timer event =>
      if Allows s.loop.phase event ∧ (s.adding → ¬ TakesLock s.queue event) then
        (s.queue.step event).map fun queue => { s with queue := queue }
      else none
  | .remote event => s.remote event
  | .getNextTimerTimeoutMs now =>
      if s.loop.phase = .ready ∧ s.reading.isNone ∧ s.adding = false ∧ s.queue.Reads now then
        some { s with queue := { s.queue with clock := now }, reading := some ⟨s.nextRun, now⟩ }
      else none
  | .epollWait now =>
      if s.queue.Reads now then
        s.reading.bind fun reading =>
          (s.loop.step (.epollWait reading.nextRun reading.now)).map fun loop =>
            { s with loop := loop, queue := { s.queue with clock := now }, enteredAt := now }
      else none
  | .epollReturn =>
      (s.loop.step .epollReturn).map fun loop => { s with loop := loop, reading := none }
  | .processTimers now order =>
      if s.adding then none
      else
        (s.loop.step .processTimers).bind fun loop =>
          (s.queue.step (.processTimers now order)).map fun queue =>
            { s with loop := loop, queue := queue }
  | .doPendingFunctors =>
      if s.queue.passes = [] then
        (s.loop.step .doPendingFunctors).map fun loop => { s with loop := loop }
      else none

/-- The loop is in `epoll_wait`, no thread is about to wake it, and the timeout has not
passed: only an event of another descriptor would end the wait. -/
structure Asleep (s : TimedLoop) (reading : Reading) (now : Int) : Prop where
  polling : s.loop.phase = .polling
  computed : s.reading = some reading
  unread : s.loop.wakeupFd = 0
  unlocked : s.adding = false
  since : s.enteredAt ≤ now
  waits : now < s.enteredAt + kNanosPerMs * reading.timeoutMs

/-! ## The timeout -/

/-- A wait from the reading on would not reach beyond the timer. -/
def Reading.Covers (reading : Reading) (task : TimerTask) : Prop :=
  kNanosPerMs * reading.timeoutMs ≤ max 0 (task.nextRun - reading.now)

theorem timeoutMs_le (reading : Reading) :
    reading.timeoutMs ≤ EventLoop.getNextTimerTimeoutMs reading.nextRun reading.now := by
  unfold Reading.timeoutMs EventLoop.timeoutMs
  dsimp only
  split
  · next shorter => exact le_of_lt shorter.2
  · exact le_refl _

/-- The time to a timer is rounded down, so the wait does not reach beyond it. -/
theorem nanos_getNextTimerTimeoutMs_le (top now : Int) :
    kNanosPerMs * EventLoop.getNextTimerTimeoutMs (some top) now ≤ max 0 (top - now) := by
  rw [kNanosPerMs, EventLoop.getNextTimerTimeoutMs]
  dsimp only
  split
  · omega
  · split
    · omega
    · omega

theorem exists_nextRun_le (s : TimedLoop) {task : TimerTask} (member : task ∈ s.queue.timers) :
    ∃ top, s.nextRun = some top ∧ top ≤ task.nextRun := by
  have listed : task.nextRun ∈ s.queue.timers.map TimerTask.nextRun := List.mem_map_of_mem member
  cases here : s.nextRun with
  | none =>
      rw [nextRun, List.min?_eq_none_iff] at here
      rw [here] at listed
      cases listed
  | some top => exact ⟨top, rfl, (List.min?_eq_some_iff.mp here).2 _ listed⟩

/-- What is read covers every timer. -/
theorem covers_of_member (s : TimedLoop) (now : Int) {task : TimerTask}
    (member : task ∈ s.queue.timers) : Reading.Covers ⟨s.nextRun, now⟩ task := by
  obtain ⟨top, here, earliest⟩ := s.exists_nextRun_le member
  have shorter := timeoutMs_le ⟨some top, now⟩
  have rounded := nanos_getNextTimerTimeoutMs_le top now
  rw [Reading.Covers, here]
  simp only [kNanosPerMs] at *
  omega

/-! ## What a wait relies on -/

/-- The loop is between its reading and the end of the wait, and has not been woken: the
reading covers every timer. -/
structure Relies (s : TimedLoop) (reading : Reading) : Prop where
  phase : s.loop.phase = .ready ∨ s.loop.phase = .polling
  covered : s.loop.wakeupFd = 0 → s.adding = false → ∀ task ∈ s.queue.timers, reading.Covers task

/-- The invariant of the functors, and what a reading is for. -/
structure Inv (s : TimedLoop) : Prop where
  functors : s.loop.Inv
  relies : ∀ reading, s.reading = some reading → s.Relies reading

section Steps

variable {s next : TimedLoop} {reading : Reading}

/-- In these phases nothing but other threads touches the timers. -/
theorem not_allows_waiting (waiting : s.loop.phase = .ready ∨ s.loop.phase = .polling)
    (event : TimerQueue.Event) : Allows s.loop.phase event = false := by
  rcases waiting with phase | phase
  · rw [phase]
    cases event <;> rfl
  · rw [phase]
    cases event <;> rfl

theorem cancelTimer_timers (queue : TimerQueue) (id : UInt64) :
    (queue.cancelTimer id).timers = queue.timers := by
  rw [queue.cancelTimer_eq id]

/-- A step of the loop alone does not leave the wait, and unless it is read the eventfd keeps
what it has. -/
theorem Relies.loopEvent (relies : s.Relies reading) {event : LoopEvent} {loop : EventLoop}
    (taken : s.loop.step event.event = some loop) :
    Relies { s with loop := loop } reading := by
  -- the steps of the loop thread are those of other phases
  have elsewhere : ∀ {phase : Phase}, s.loop.phase = phase → phase ≠ .ready → phase ≠ .polling →
      Relies { s with loop := loop } reading := by
    intro phase here notReady notPolling
    rcases relies.phase with ready | polling
    · exact absurd (here.symm.trans ready) notReady
    · exact absurd (here.symm.trans polling) notPolling
  cases event with
  | push =>
      cases taken
      exact ⟨relies.phase, relies.covered⟩
  | wakeup functor =>
      obtain ⟨_, ⟨⟩⟩ := Option.ite_none_right_eq_some.mp taken
      exact ⟨relies.phase, fun unread => absurd unread (Nat.succ_ne_zero _)⟩
  | queueInLoop =>
      simp only [LoopEvent.event, EventLoop.step] at taken
      split at taken
      · next here => exact elsewhere here (by decide) (by decide)
      · next here => exact elsewhere here (by decide) (by decide)
      · next here => exact elsewhere here (by decide) (by decide)
      · cases taken
      · cases taken
      · cases taken
  | handleRead =>
      obtain ⟨here, _⟩ := Option.ite_none_right_eq_some.mp taken
      exact elsewhere here (by decide) (by decide)
  | runFunctor =>
      simp only [LoopEvent.event, EventLoop.step] at taken
      split at taken
      · next here _ => exact elsewhere here (by decide) (by decide)
      · cases taken
  | functorReturns =>
      obtain ⟨here, _⟩ := Option.ite_none_right_eq_some.mp taken
      exact elsewhere here (by decide) (by decide)
  | nextRound =>
      obtain ⟨⟨here, _⟩, _⟩ := Option.ite_none_right_eq_some.mp taken
      exact elsewhere here (by decide) (by decide)

/-- Another thread that pushes a timer has the lock until it has woken the loop. -/
theorem Relies.remote (relies : s.Relies reading) {event : RemoteEvent}
    (taken : s.remote event = some next) : next.Relies reading := by
  cases event with
  | runAfter delaySeconds now =>
      obtain ⟨_, ⟨⟩⟩ := Option.ite_none_right_eq_some.mp taken
      exact ⟨relies.phase, fun _ unlocked => nomatch unlocked⟩
  | runEvery intervalSeconds now =>
      obtain ⟨_, ⟨⟩⟩ := Option.ite_none_right_eq_some.mp taken
      exact ⟨relies.phase, fun _ unlocked => nomatch unlocked⟩
  | wakeup =>
      obtain ⟨_, woken⟩ := Option.ite_none_right_eq_some.mp taken
      cases woken
      exact ⟨relies.phase, fun unread => absurd unread (Nat.succ_ne_zero _)⟩
  | cancelTimer id =>
      obtain ⟨_, ⟨⟩⟩ := Option.ite_none_left_eq_some.mp taken
      refine ⟨relies.phase, fun unread unlocked task member => ?_⟩
      rw [cancelTimer_timers] at member
      exact relies.covered unread unlocked task member

/-- A reading that is there behind a step is new, or the wait still relies on it. -/
theorem Inv.relies_step (inv : s.Inv) {event : Event} (taken : s.step event = some next)
    (computed : next.reading = some reading) : next.Relies reading := by
  cases event with
  | loop event =>
      obtain ⟨loop, stepped, rfl⟩ := Option.map_eq_some_iff.mp taken
      exact (inv.relies reading computed).loopEvent stepped
  | timer event =>
      obtain ⟨⟨allowed, _⟩, stepped⟩ := Option.ite_none_right_eq_some.mp taken
      obtain ⟨queue, _, rfl⟩ := Option.map_eq_some_iff.mp stepped
      rw [not_allows_waiting (inv.relies reading computed).phase] at allowed
      cases allowed
  | remote event =>
      have same : next.reading = s.reading := by
        cases event with
        | runAfter _ _ | runEvery _ _ =>
            obtain ⟨_, ⟨⟩⟩ := Option.ite_none_right_eq_some.mp taken
            rfl
        | wakeup =>
            obtain ⟨_, woken⟩ := Option.ite_none_right_eq_some.mp taken
            cases woken
            rfl
        | cancelTimer id =>
            obtain ⟨_, ⟨⟩⟩ := Option.ite_none_left_eq_some.mp taken
            rfl
      exact (inv.relies reading (same ▸ computed)).remote taken
  | getNextTimerTimeoutMs now =>
      obtain ⟨⟨ready, _⟩, ⟨⟩⟩ := Option.ite_none_right_eq_some.mp taken
      cases computed
      exact ⟨.inl ready, fun _ _ task member => s.covers_of_member now member⟩
  | epollWait now =>
      obtain ⟨_, waiting⟩ := Option.ite_none_right_eq_some.mp taken
      obtain ⟨earlier, _, stepped⟩ := Option.bind_eq_some_iff.mp waiting
      obtain ⟨loop, moved, rfl⟩ := Option.map_eq_some_iff.mp stepped
      obtain ⟨_, ⟨⟩⟩ := Option.ite_none_right_eq_some.mp moved
      exact ⟨.inr rfl, (inv.relies reading computed).covered⟩
  | epollReturn =>
      obtain ⟨loop, _, rfl⟩ := Option.map_eq_some_iff.mp taken
      cases computed
  | processTimers now order =>
      obtain ⟨_, unlocked⟩ := Option.ite_none_left_eq_some.mp taken
      obtain ⟨loop, stepped, rest⟩ := Option.bind_eq_some_iff.mp unlocked
      obtain ⟨queue, _, rfl⟩ := Option.map_eq_some_iff.mp rest
      obtain ⟨handlers, _⟩ := Option.ite_none_right_eq_some.mp stepped
      rcases (inv.relies reading computed).phase with ready | polling
      · cases handlers.symm.trans ready
      · cases handlers.symm.trans polling
  | doPendingFunctors =>
      obtain ⟨_, stepped⟩ := Option.ite_none_right_eq_some.mp taken
      obtain ⟨loop, moved, rfl⟩ := Option.map_eq_some_iff.mp stepped
      obtain ⟨timers, _⟩ := Option.ite_none_right_eq_some.mp moved
      rcases (inv.relies reading computed).phase with ready | polling
      · cases timers.symm.trans ready
      · cases timers.symm.trans polling

/-- The loop takes steps of its own only. -/
theorem functors_step (inv : s.loop.Inv) {event : Event} (taken : s.step event = some next) :
    next.loop.Inv := by
  cases event with
  | loop event =>
      obtain ⟨loop, stepped, rfl⟩ := Option.map_eq_some_iff.mp taken
      exact inv.step stepped
  | timer event =>
      obtain ⟨_, stepped⟩ := Option.ite_none_right_eq_some.mp taken
      obtain ⟨queue, _, rfl⟩ := Option.map_eq_some_iff.mp stepped
      exact inv
  | remote event =>
      cases event with
      | runAfter _ _ | runEvery _ _ =>
          obtain ⟨_, ⟨⟩⟩ := Option.ite_none_right_eq_some.mp taken
          exact inv
      | wakeup =>
          obtain ⟨_, woken⟩ := Option.ite_none_right_eq_some.mp taken
          obtain ⟨loop, stepped, rfl⟩ := Option.map_eq_some_iff.mp woken
          exact inv.step stepped
      | cancelTimer id =>
          obtain ⟨_, ⟨⟩⟩ := Option.ite_none_left_eq_some.mp taken
          exact inv
  | getNextTimerTimeoutMs now =>
      obtain ⟨_, ⟨⟩⟩ := Option.ite_none_right_eq_some.mp taken
      exact inv
  | epollWait now =>
      obtain ⟨_, waiting⟩ := Option.ite_none_right_eq_some.mp taken
      obtain ⟨reading, _, stepped⟩ := Option.bind_eq_some_iff.mp waiting
      obtain ⟨loop, moved, rfl⟩ := Option.map_eq_some_iff.mp stepped
      exact inv.step moved
  | epollReturn =>
      obtain ⟨loop, stepped, rfl⟩ := Option.map_eq_some_iff.mp taken
      exact inv.step stepped
  | processTimers now order =>
      obtain ⟨_, unlocked⟩ := Option.ite_none_left_eq_some.mp taken
      obtain ⟨loop, stepped, rest⟩ := Option.bind_eq_some_iff.mp unlocked
      obtain ⟨queue, _, rfl⟩ := Option.map_eq_some_iff.mp rest
      exact inv.step stepped
  | doPendingFunctors =>
      obtain ⟨_, stepped⟩ := Option.ite_none_right_eq_some.mp taken
      obtain ⟨loop, moved, rfl⟩ := Option.map_eq_some_iff.mp stepped
      exact inv.step moved

theorem Inv.step (inv : s.Inv) {event : Event} (taken : s.step event = some next) : next.Inv :=
  ⟨functors_step inv.functors taken, fun _ computed => inv.relies_step taken computed⟩

theorem inv_initial : initial.Inv := ⟨EventLoop.inv_initial, fun _ computed => nomatch computed⟩

end Steps

/-- A handler adds a timer for a second later, and another thread adds one and wakes the loop,
which then reads the clock and sleeps. -/
def twoAdded : List Event :=
  [.getNextTimerTimeoutMs 0, .epollWait 0, .epollReturn, .timer (.runAfter 1 1),
    .processTimers 2 [], .timer .endPass, .doPendingFunctors, .loop .nextRound,
    .getNextTimerTimeoutMs 3, .remote (.runAfter 1 4), .epollWait 5, .remote .wakeup, .epollReturn,
    .loop .handleRead, .processTimers 6 [], .timer .endPass, .doPendingFunctors, .loop .nextRound,
    .getNextTimerTimeoutMs 7, .epollWait 9]

def sleeping : TimedLoop := (run? step initial twoAdded).getD initial

end TimedLoop

end RpcFramework
