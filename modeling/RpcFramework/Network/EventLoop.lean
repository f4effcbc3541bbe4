import Mathlib.Data.List.Range
import RpcFramework.Lib.StepRun

/-!
# Functors and wakeups of the event loop

`EventLoop::loop` as a transition system.  Another thread that queues a functor
pushes it and then writes the eventfd; the loop thread only pushes.  The loop
polls, runs the handlers of its channels (one of which reads the eventfd) and
its timers, takes the queue over and runs the functors in it.

Functors are numbered in the order in which they are pushed.  A functor that
the loop thread queues while it runs functors stays behind in the queue, and
nothing wakes the loop for it.
-/

namespace RpcFramework

open StepRun

namespace EventLoop

def kEpollWaitTimeoutMs : Int := 10000

/-- The time to the earliest timer; clock readings are in nanoseconds. -/
def getNextTimerTimeoutMs (nextRun : Option Int) (now : Int) : Int :=
  match nextRun with
  | none => kEpollWaitTimeoutMs
  | some nextRun =>
      if nextRun ≤ now then 0
      else
        let diff := (nextRun - now) / 1000000
        if diff > kEpollWaitTimeoutMs then kEpollWaitTimeoutMs else diff

/-- The timeout that `loopOnce` passes to `epoll_wait`. -/
def timeoutMs (maxWaitMs : Int) (nextRun : Option Int) (now : Int) : Int :=
  let timeout := getNextTimerTimeoutMs nextRun now
  if maxWaitMs ≥ 0 ∧ maxWaitMs < timeout then maxWaitMs else timeout

/-- Where the loop thread stands. -/
inductive Phase where
  | ready
  | polling
  | handlers
  | timers
  | betweenFunctors
  | inFunctor
  deriving DecidableEq, Repr

end EventLoop

open EventLoop

/--
`issued` functors have been pushed so far.  `pushing` holds those whose
`queueInLoop` on another thread has not written the eventfd yet, `functors`
those that `doPendingFunctors` has still to run, and `requeued` those that were
queued by functors since the queue was taken over.
-/
structure EventLoop where
  phase : Phase
  issued : Nat
  pushing : List Nat
  pendingFunctors : List Nat
  functors : List Nat
  executed : List Nat
  requeued : List Nat
  wakeupFd : Nat
  deriving DecidableEq, Repr

namespace EventLoop

def initial : EventLoop := ⟨.ready, 0, [], [], [], [], [], 0⟩

/-- `pendingFunctors_.push_back` under the lock. -/
def push (s : EventLoop) : EventLoop :=
  { s with pendingFunctors := s.pendingFunctors ++ [s.issued], issued := s.issued + 1 }

/-- Steps of other threads and of the loop thread.  Another thread queues a
functor by `push` and `wakeup`; when it adds a timer it writes the eventfd too. -/
inductive Event where
  | push
  | wakeup (functor : Nat)
  | runAfter
  | queueInLoop
  | epollWait (nextRun : Option Int) (now : Int)
  | epollReturn
  | handleRead
  | processTimers
  | doPendingFunctors
  | runFunctor
  | functorReturns
  | nextRound
  deriving DecidableEq, Repr

def step (s : EventLoop) : Event → Option EventLoop
  | .push => some { s.push with pushing := s.issued :: s.pushing }
  | .wakeup functor =>
      if functor ∈ s.pushing then
        some { s with pushing := s.pushing.erase functor, wakeupFd := s.wakeupFd + 1 }
      else none
  | .runAfter => some { s with wakeupFd := s.wakeupFd + 1 }
  | .queueInLoop =>
      match s.phase with
      | .handlers | .timers => some s.push
      | .inFunctor => some { s.push with requeued := s.issued :: s.requeued }
      | .ready | .polling | .betweenFunctors => none
  | .epollWait _ _ => if s.phase = .ready then some { s with phase := .polling } else none
  | .epollReturn => if s.phase = .polling then some { s with phase := .handlers } else none
  | .handleRead => if s.phase = .handlers then some { s with wakeupFd := 0 } else none
  | .processTimers => if s.phase = .handlers then some { s with phase := .timers } else none
  | .doPendingFunctors =>
      if s.phase = .timers then
        some { s with
          phase := .betweenFunctors
          functors := s.pendingFunctors
          pendingFunctors := []
          requeued := [] }
      else none
  | .runFunctor =>
      match s.phase, s.functors with
      | .betweenFunctors, functor :: rest =>
          some { s with
            phase := .inFunctor
            functors := rest
            executed := s.executed ++ [functor] }
      | _, _ => none
  | .functorReturns =>
      if s.phase = .inFunctor then some { s with phase := .betweenFunctors } else none
  | .nextRound =>
      if s.phase = .betweenFunctors ∧ s.functors = [] then some { s with phase := .ready }
      else none

/-- The `queueInLoop` call for the functor has returned. -/
def Returned (s : EventLoop) (functor : Nat) : Prop :=
  functor < s.issued ∧ functor ∉ s.pushing

/-- Every functor whose `queueInLoop` has returned has been executed, or the
eventfd is readable. -/
def Awake (s : EventLoop) : Prop :=
  ∀ functor, s.Returned functor → functor ∈ s.executed ∨ 0 < s.wakeupFd

/-- The loop enters `epoll_wait` with a timeout only if it is awake. -/
def NeverSleeps (s : EventLoop) : Event → Prop
  | .epollWait nextRun now =>
      s.phase = .ready → timeoutMs kEpollWaitTimeoutMs nextRun now ≠ 0 → s.Awake
  | _ => True

/-- The loop enters `epoll_wait` with a timeout only if no functor of the last
round has queued another one, or the eventfd is readable. -/
def NothingRequeued (s : EventLoop) : Event → Prop
  | .epollWait nextRun now =>
      s.phase = .ready → timeoutMs kEpollWaitTimeoutMs nextRun now ≠ 0 →
        s.requeued = [] ∨ 0 < s.wakeupFd
  | _ => True

/-- The queue has been taken over in this round, and the handlers have not run since. -/
def Phase.TakenOver : Phase → Prop
  | .betweenFunctors | .inFunctor | .ready | .polling => True
  | .handlers | .timers => False

/-- Functors are executed in the order in which they were pushed.  What is in the
queue after it was taken over is still being pushed, was queued by a functor,
or the eventfd is readable. -/
structure Inv (s : EventLoop) : Prop where
  order : s.executed ++ s.functors ++ s.pendingFunctors = List.range s.issued
  pushing : ∀ functor ∈ s.pushing, functor < s.issued
  idle : s.phase ≠ .betweenFunctors → s.phase ≠ .inFunctor → s.functors = []
  announced : s.phase.TakenOver → ∀ functor ∈ s.pendingFunctors,
    functor ∈ s.pushing ∨ functor ∈ s.requeued ∨ 0 < s.wakeupFd
  requeued : s.phase.TakenOver → ∀ functor ∈ s.requeued,
    functor ∈ s.pendingFunctors ∧ functor ∉ s.pushing

section Steps

variable {s : EventLoop}

theorem inv_initial : initial.Inv :=
  ⟨rfl, nofun, fun _ _ => rfl, nofun, nofun⟩

/-- Outside `doPendingFunctors` no functor is left over from the last round. -/
theorem Inv.functors_eq_nil (inv : s.Inv) {phase : Phase} (here : s.phase = phase)
    (between : phase ≠ .betweenFunctors) (running : phase ≠ .inFunctor) : s.functors = [] := by
  subst here
  exact inv.idle between running

theorem Inv.lt_issued (inv : s.Inv) {functor : Nat} (waits : functor ∈ s.pendingFunctors) :
    functor < s.issued := by
  rw [← List.mem_range, ← inv.order]
  exact List.mem_append_right _ waits

/-- A functor that waits has not been executed. -/
theorem Inv.not_executed (inv : s.Inv) {functor : Nat} (waits : functor ∈ s.pendingFunctors) :
    functor ∉ s.executed := by
  have distinct : (s.executed ++ s.functors ++ s.pendingFunctors).Nodup := by
    rw [inv.order]
    exact List.nodup_range
  intro executed
  exact (List.nodup_append.mp distinct).2.2 functor (List.mem_append_left _ executed) functor
    waits rfl

theorem Inv.order_push (inv : s.Inv) :
    s.executed ++ s.functors ++ (s.pendingFunctors ++ [s.issued]) = List.range (s.issued + 1) := by
  rw [← List.append_assoc, inv.order, List.range_succ]

theorem Inv.push (inv : s.Inv) :
    Inv { s.push with pushing := s.issued :: s.pushing } := by
  refine ⟨inv.order_push, ?_, inv.idle, ?_, ?_⟩
  · intro functor member
    rcases List.mem_cons.mp member with rfl | earlier
    · exact Nat.lt_succ_self _
    · exact Nat.lt_succ_of_lt (inv.pushing functor earlier)
  · intro takenOver functor waits
    rcases List.mem_append.mp waits with earlier | new
    · rcases inv.announced takenOver functor earlier with pushing | announced
      · exact Or.inl (List.mem_cons_of_mem _ pushing)
      · exact Or.inr announced
    · rw [List.mem_singleton.mp new]
      exact Or.inl (List.mem_cons_self ..)
  · intro takenOver functor member
    obtain ⟨waits, quiet⟩ := inv.requeued takenOver functor member
    refine ⟨List.mem_append_left _ waits, ?_⟩
    rw [List.mem_cons]
    exact not_or.mpr ⟨Nat.ne_of_lt (inv.lt_issued waits), quiet⟩

theorem Inv.wakeup (inv : s.Inv) (pushed : Nat) :
    Inv { s with pushing := s.pushing.erase pushed, wakeupFd := s.wakeupFd + 1 } := by
  refine ⟨inv.order, ?_, inv.idle, ?_, ?_⟩
  · exact fun functor member => inv.pushing functor (List.mem_of_mem_erase member)
  · exact fun _ _ _ => Or.inr (Or.inr (Nat.succ_pos _))
  · intro takenOver functor member
    obtain ⟨waits, quiet⟩ := inv.requeued takenOver functor member
    exact ⟨waits, fun pushing => quiet (List.mem_of_mem_erase pushing)⟩

/-- A handler or a timer queues a functor: the queue will still be taken over. -/
theorem Inv.queueEarly (inv : s.Inv) (early : ¬ s.phase.TakenOver) : s.push.Inv := by
  refine ⟨inv.order_push, ?_, inv.idle, ?_, ?_⟩
  · exact fun functor member => Nat.lt_succ_of_lt (inv.pushing functor member)
  · exact fun takenOver => absurd takenOver early
  · exact fun takenOver => absurd takenOver early

/-- A functor queues another one. -/
theorem Inv.requeue (inv : s.Inv) (takenOver : s.phase.TakenOver) :
    Inv { s.push with requeued := s.issued :: s.requeued } := by
  refine ⟨inv.order_push, ?_, inv.idle, ?_, ?_⟩
  · exact fun functor member => Nat.lt_succ_of_lt (inv.pushing functor member)
  · intro _ functor waits
    rcases List.mem_append.mp waits with earlier | new
    · rcases inv.announced takenOver functor earlier with pushing | requeued | readable
      · exact Or.inl pushing
      · exact Or.inr (Or.inl (List.mem_cons_of_mem _ requeued))
      · exact Or.inr (Or.inr readable)
    · rw [List.mem_singleton.mp new]
      exact Or.inr (Or.inl (List.mem_cons_self ..))
  · intro _ functor member
    rcases List.mem_cons.mp member with rfl | earlier
    · refine ⟨List.mem_append_right _ (List.mem_singleton_self _), fun pushing => ?_⟩
      exact Nat.lt_irrefl _ (inv.pushing _ pushing)
    · obtain ⟨waits, quiet⟩ := inv.requeued takenOver functor earlier
      exact ⟨List.mem_append_left _ waits, quiet⟩

theorem Inv.doPendingFunctors (inv : s.Inv) (timers : s.phase = .timers) :
    Inv { s with
      phase := .betweenFunctors
      functors := s.pendingFunctors
      pendingFunctors := []
      requeued := [] } := by
  have none : s.functors = [] := inv.functors_eq_nil timers nofun nofun
  have order := inv.order
  rw [none, List.append_nil] at order
  exact ⟨(List.append_nil _).trans order, inv.pushing, fun out => absurd rfl out, nofun, nofun⟩

theorem Inv.runFunctor (inv : s.Inv) {functor : Nat} {rest : List Nat}
    (phase : s.phase = .betweenFunctors) (functors : s.functors = functor :: rest) :
    Inv { s with
      phase := .inFunctor
      functors := rest
      executed := s.executed ++ [functor] } := by
  have takenOver : s.phase.TakenOver := by
    rw [phase]
    trivial
  have order := inv.order
  rw [functors, List.append_cons] at order
  exact ⟨order, inv.pushing, fun _ out => absurd rfl out, fun _ => inv.announced takenOver,
    fun _ => inv.requeued takenOver⟩

/-- The loop thread moves on without touching the queue. -/
theorem Inv.moveTo (inv : s.Inv) {phase : Phase} (takenOver : phase.TakenOver → s.phase.TakenOver)
    (idle : phase ≠ .betweenFunctors → phase ≠ .inFunctor → s.functors = []) :
    Inv { s with phase := phase } :=
  ⟨inv.order, inv.pushing, idle, fun later => inv.announced (takenOver later),
    fun later => inv.requeued (takenOver later)⟩

theorem Inv.step (inv : s.Inv) {event : Event} {next : EventLoop}
    (taken : s.step event = some next) : next.Inv := by
  cases event with
  | push =>
      cases taken
      exact inv.push
  | wakeup functor =>
      rw [EventLoop.step] at taken
      split at taken
      · cases taken
        exact inv.wakeup functor
      · cases taken
  | runAfter =>
      cases taken
      exact ⟨inv.order, inv.pushing, inv.idle, fun _ _ _ => Or.inr (Or.inr (Nat.succ_pos _)),
        inv.requeued⟩
  | queueInLoop =>
      rw [EventLoop.step] at taken
      split at taken
      · next phase =>
          cases taken
          exact inv.queueEarly (by simp [phase, Phase.TakenOver])
      · next phase =>
          cases taken
          exact inv.queueEarly (by simp [phase, Phase.TakenOver])
      · next phase =>
          cases taken
          exact inv.requeue (by simp [phase, Phase.TakenOver])
      · cases taken
      · cases taken
      · cases taken
  | epollWait nextRun now =>
      rw [EventLoop.step] at taken
      split at taken
      · next ready =>
          cases taken
          exact inv.moveTo (fun _ => by simp [ready, Phase.TakenOver])
            fun _ _ => inv.functors_eq_nil ready nofun nofun
      · cases taken
  | epollReturn =>
      rw [EventLoop.step] at taken
      split at taken
      · next polling =>
          cases taken
          exact inv.moveTo nofun fun _ _ => inv.functors_eq_nil polling nofun nofun
      · cases taken
  | handleRead =>
      rw [EventLoop.step] at taken
      split at taken
      · next handlers =>
          cases taken
          have early : ¬ s.phase.TakenOver := by simp [handlers, Phase.TakenOver]
          exact ⟨inv.order, inv.pushing, inv.idle, fun takenOver => absurd takenOver early,
            inv.requeued⟩
      · cases taken
  | processTimers =>
      rw [EventLoop.step] at taken
      split at taken
      · next handlers =>
          cases taken
          exact inv.moveTo nofun fun _ _ => inv.functors_eq_nil handlers nofun nofun
      · cases taken
  | doPendingFunctors =>
      rw [EventLoop.step] at taken
      split at taken
      · next timers =>
          cases taken
          exact inv.doPendingFunctors timers
      · cases taken
  | runFunctor =>
      rw [EventLoop.step] at taken
      split at taken
      · next functor rest phase functors =>
          cases taken
          exact inv.runFunctor phase functors
      · cases taken
  | functorReturns =>
      rw [EventLoop.step] at taken
      split at taken
      · next inFunctor =>
          cases taken
          exact inv.moveTo (fun _ => by simp [inFunctor, Phase.TakenOver])
            fun out => absurd rfl out
      · cases taken
  | nextRound =>
      rw [EventLoop.step] at taken
      split at taken
      · next finished =>
          cases taken
          exact inv.moveTo (fun _ => by simp [finished.1, Phase.TakenOver])
            fun _ _ => finished.2
      · cases taken

/-- Before it polls, the loop is awake exactly if no functor has been queued by
another one in this round or the eventfd is readable. -/
theorem Inv.awake_iff (inv : s.Inv) (ready : s.phase = .ready) :
    s.Awake ↔ s.requeued = [] ∨ 0 < s.wakeupFd := by
  have takenOver : s.phase.TakenOver := by
    rw [ready]
    trivial
  constructor
  · intro awake
    cases requeued : s.requeued with
    | nil => exact Or.inl rfl
    | cons functor rest =>
        obtain ⟨waits, quiet⟩ := inv.requeued takenOver functor (by
          rw [requeued]
          exact List.mem_cons_self ..)
        rcases awake functor ⟨inv.lt_issued waits, quiet⟩ with executed | readable
        · exact absurd executed (inv.not_executed waits)
        · exact Or.inr readable
  · rintro (none | readable) functor ⟨issued, returned⟩
    · have none_left : s.functors = [] := inv.functors_eq_nil ready nofun nofun
      rw [← List.mem_range, ← inv.order, none_left, List.append_nil] at issued
      rcases List.mem_append.mp issued with executed | waits
      · exact Or.inl executed
      · rcases inv.announced takenOver functor waits with pushing | requeued | readable
        · exact absurd pushing returned
        · rw [none] at requeued
          cases requeued
        · exact Or.inr readable
    · exact Or.inr readable

end Steps

/--
Over a whole run of the loop, whenever it enters `epoll_wait` with a timeout,
every functor whose `queueInLoop` has returned has been executed or the eventfd
is readable, exactly if at each such moment no functor of the last round had
queued another one or the eventfd is readable.
-/
theorem neverSleeps_iff_nothingRequeued (events : List Event) :
    Along step NeverSleeps initial events ↔ Along step NothingRequeued initial events := by
  have kept : ∀ (s : EventLoop) event next, s.Inv → s.step event = some next → next.Inv :=
    fun _ _ _ inv taken => inv.step taken
  apply along_congr kept _ inv_initial
  intro s event inv
  cases event with
  | epollWait nextRun now =>
      apply forall_congr'
      intro ready
      apply forall_congr'
      intro _
      exact inv.awake_iff ready
  | push | wakeup | runAfter | queueInLoop | epollReturn | handleRead | processTimers
  | doPendingFunctors | runFunctor | functorReturns | nextRound => exact Iff.rfl

/-- One round in which a functor that another thread has queued queues a second one. -/
def requeuingRound : List Event :=
  [.epollWait none 0, .push, .wakeup 0, .epollReturn, .handleRead, .processTimers,
    .doPendingFunctors, .runFunctor, .queueInLoop, .functorReturns, .nextRound]

/-- The loop then sleeps for ten seconds on the second functor. -/
theorem sleeps_on_requeued_functor :
    ∃ s, run? step initial requeuingRound = some s ∧ s.phase = .ready ∧
      timeoutMs kEpollWaitTimeoutMs none 0 = 10000 ∧ s.Returned 1 ∧ 1 ∉ s.executed ∧
      s.wakeupFd = 0 ∧ ¬ Along step NeverSleeps initial (requeuingRound ++ [.epollWait none 0]) := by
  refine ⟨_, rfl, rfl, by decide, ⟨by decide, nofun⟩, by decide, rfl, ?_⟩
  intro neverSleeps
  have awake := neverSleeps.good_at rfl rfl (by decide) 1 ⟨by decide, nofun⟩
  revert awake
  decide

end EventLoop

end RpcFramework
