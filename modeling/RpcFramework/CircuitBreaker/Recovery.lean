import RpcFramework.CircuitBreaker.Threads
import RpcFramework.CircuitBreaker.TripRule

/-!
# The way back from any interleaving

A call that no other thread disturbs does to the shared breaker what it does to the
breaker by itself.  Whatever the threads have left behind, then, two calls in a row
close the breaker: none of the states that interleaved calls lead to is one that the
breaker cannot leave.
-/

namespace RpcFramework.CircuitBreaker

open LockedThreads StepRun

variable {Thread : Type} [DecidableEq Thread]

/-! ## Calls by themselves -/

/-- The call returns, with the breaker like this. -/
def Ends (verdict : Option Bool) (breaker : CircuitBreaker) (s : Shared) (phase : Phase) : Prop :=
  phase = .returned verdict ∧ s.breaker = breaker

abbrev Finishes (s : Shared) (phase : Phase) (bound : Nat) (verdict : Option Bool)
    (breaker : CircuitBreaker) : Prop :=
  code.Reaches bound (Ends verdict breaker) s phase

section Finishes

theorem ends (s : Shared) (verdict : Option Bool) {bound : Nat} :
    Finishes s (.returned verdict) bound verdict s.breaker :=
  .here ⟨rfl, rfl⟩

theorem Finishes.step {s next : Shared} {phase after : Phase} {bound : Nat} {verdict : Option Bool}
    {breaker : CircuitBreaker} (moved : s.move phase = some (next, after))
    (later : Finishes next after bound verdict breaker) :
    Finishes s phase (bound + 1) verdict breaker :=
  Code.Reaches.step moved later

theorem finishes_probe (s : Shared) {bound : Nat} :
    Finishes s .probe (bound + 1) (some s.breaker.takeProbe.1) s.breaker.takeProbe.2 :=
  .step rfl (ends _ _)

theorem move_checkTimeout_elapsed {s : Shared}
    (elapsed : s.clock - s.breaker.openedAt ≥ nanos s.breaker.openTimeout) :
    s.move .checkTimeout = some (s, .clearProbe) := by
  rw [Shared.move, if_pos elapsed]

theorem move_checkTimeout_early {s : Shared}
    (early : ¬ s.clock - s.breaker.openedAt ≥ nanos s.breaker.openTimeout) :
    s.move .checkTimeout = some (s.answer false) := by
  rw [Shared.move, if_neg early]

/-- `allowRequest` without disturbance is the one of the breaker by itself. -/
theorem finishes_allowRequest (s : Shared) :
    Finishes s .allowRequest 5 (some (s.breaker.allowRequest s.clock s.clock).1)
      (s.breaker.allowRequest s.clock s.clock).2 := by
  cases state : s.breaker.state with
  | closed =>
      have called : s.breaker.allowRequest s.clock s.clock = (true, s.breaker) := by
        rw [CircuitBreaker.allowRequest, state]
      have moved : s.move .allowRequest = some (s.answer true) := by rw [Shared.move, state]
      rw [called]
      exact .step moved (ends _ _)
  | opened =>
      have seen : s.move .allowRequest = some (s, .seenOpen) := by rw [Shared.move, state]
      have locked : s.move .seenOpen = some (s, .checkTimeout) := by rw [Shared.move, state]
      rw [CircuitBreaker.allowRequest, state]
      dsimp only
      rw [allowRequestOpen, state]
      dsimp only
      split
      · next elapsed =>
          exact .step seen (.step locked (.step (move_checkTimeout_elapsed elapsed)
            (.step rfl (.step rfl (ends _ _)))))
      · next early =>
          exact .step seen (.step locked (.step (move_checkTimeout_early early) (ends _ _)))
  | halfOpen =>
      have seen : s.move .allowRequest = some (s, .seenHalfOpen) := by rw [Shared.move, state]
      rw [CircuitBreaker.allowRequest, state]
      dsimp only [allowRequestHalfOpen]
      split
      · next elapsed =>
          have locked : s.move .seenHalfOpen = some (s, .resetProbe) := by
            rw [Shared.move, if_pos elapsed]
          exact .step seen (.step locked (.step rfl (.step rfl (finishes_probe _))))
      · next early =>
          have locked : s.move .seenHalfOpen = some (s, .probe) := by
            rw [Shared.move, if_neg early]
          exact .step seen (.step locked (finishes_probe s))

theorem finishes_recordSuccess (s : Shared) :
    Finishes s .recordSuccess 5 none s.breaker.recordSuccess := by
  rw [CircuitBreaker.recordSuccess]
  split
  · next state =>
      have seen : s.move .recordSuccess = some (s, .clearFailures) := by rw [Shared.move, state]
      exact .step seen (.step rfl (ends _ _))
  · next state =>
      have seen : s.move .recordSuccess = some (s, .enterClosed) := by rw [Shared.move, state]
      exact .step seen (.step rfl (.step rfl (.step rfl (ends _ _))))
  · next state =>
      have seen : s.move .recordSuccess = some (s, .returned none) := by rw [Shared.move, state]
      exact .step seen (ends _ _)

theorem finishes_recordFailure (s : Shared) :
    Finishes s .recordFailure 5 none (s.breaker.recordFailure s.clock) := by
  rw [CircuitBreaker.recordFailure]
  split
  · next state =>
      have seen : s.move .recordFailure = some (s, .countFailure) := by rw [Shared.move, state]
      dsimp only
      split
      · next reached =>
          have counted : s.move .countFailure = some ({ s with
              breaker := { s.breaker with failureCount := s.breaker.failureCount + 1 } },
              .stampOpened) := by
            rw [Shared.move]
            dsimp only
            rw [if_pos reached]
          exact .step seen (.step counted (.step rfl (.step rfl (ends _ _))))
      · next fewer =>
          have counted : s.move .countFailure = some ({ s with
              breaker := { s.breaker with failureCount := s.breaker.failureCount + 1 } },
              .returned none) := by
            rw [Shared.move]
            dsimp only
            rw [if_neg fewer]
          exact .step seen (.step counted (ends _ _))
  · next state =>
      have seen : s.move .recordFailure = some (s, .stampOpened) := by rw [Shared.move, state]
      exact .step seen (.step rfl (.step rfl (ends _ _)))
  · next state =>
      have seen : s.move .recordFailure = some (s, .returned none) := by rw [Shared.move, state]
      exact .step seen (ends _ _)

/-- Where a call starts. -/
def Call.phase : Call → Phase
  | .allowRequest _ _ => .allowRequest
  | .recordSuccess => .recordSuccess
  | .recordFailure _ => .recordFailure

def Call.verdict (cb : CircuitBreaker) : Call → Option Bool
  | .allowRequest now later => some (cb.allowRequest now later).1
  | .recordSuccess | .recordFailure _ => none

/-- A call that nobody disturbs is a call on the breaker by itself. -/
theorem finishes_call (s : Shared) {call : Call} (now : ∀ time ∈ call.times, time = s.clock) :
    Finishes s call.phase 5 (call.verdict s.breaker) (s.breaker.step call) := by
  cases call with
  | allowRequest reading later =>
      cases now reading (List.mem_cons_self ..)
      cases now later (List.mem_cons_of_mem _ (List.mem_cons_self ..))
      exact finishes_allowRequest s
  | recordSuccess => exact finishes_recordSuccess s
  | recordFailure reading =>
      cases now reading (List.mem_cons_self ..)
      exact finishes_recordFailure s

end Finishes

/-- A thread in the lock leaves it by itself. -/
theorem releases (s : Shared) {phase : Phase} (holds : phase.holds = true) :
    code.Reaches 3 (fun _ after => after.holds = false) s phase := by
  cases phase with
  | checkTimeout =>
      by_cases elapsed : s.clock - s.breaker.openedAt ≥ nanos s.breaker.openTimeout
      · exact .step (move_checkTimeout_elapsed elapsed) (.step rfl (.step rfl (.here rfl)))
      · exact .step (move_checkTimeout_early elapsed) (.here rfl)
  | probeLocked | enterHalfOpen | resetWindow =>
      exact .step rfl (.here rfl)
  | clearProbe | resetProbe =>
      exact .step rfl (.step rfl (.here rfl))
  | _ => cases holds

/-! ## The way back to CLOSED -/

/-- A step leaves the clock alone, and sets `openedAt_` to the time if to anything. -/
theorem move_openedAt {s next : Shared} {before after : Phase}
    (moved : s.move before = some (next, after)) :
    next.clock = s.clock ∧ next.breaker.openTimeout = s.breaker.openTimeout ∧
      (next.breaker.openedAt = s.breaker.openedAt ∨ next.breaker.openedAt = s.clock) := by
  cases before with
  | returned _ => cases moved
  | allowRequest | seenOpen | recordSuccess | recordFailure =>
      cases state : s.breaker.state <;> rw [Shared.move, state] at moved <;> cases moved <;>
        exact ⟨rfl, rfl, Or.inl rfl⟩
  | checkTimeout | seenHalfOpen =>
      rw [Shared.move] at moved
      split at moved <;> cases moved <;> exact ⟨rfl, rfl, Or.inl rfl⟩
  | probeLocked | probe =>
      cases moved
      obtain ⟨_, taken⟩ := s.breaker.takeProbe_eq
      dsimp only [Shared.takeProbe, Shared.answer]
      rw [taken]
      exact ⟨rfl, rfl, Or.inl rfl⟩
  | stampOpened | resetWindow =>
      cases moved
      exact ⟨rfl, rfl, Or.inr rfl⟩
  | clearProbe | enterHalfOpen | resetProbe | clearFailures | enterClosed | clearFailuresClosed
  | clearProbeClosed | countFailure | enterOpen =>
      cases moved
      exact ⟨rfl, rfl, Or.inl rfl⟩

/-- The breaker was not opened in the future. -/
structure Punctual (openTimeout : Int) (s : Shared) : Prop where
  openTimeout : s.breaker.openTimeout = openTimeout
  past : s.breaker.openedAt ≤ s.clock

def punctualOutline (openTimeout : Int) : Outline Shared Phase where
  Always := Punctual openTimeout
  Resource _ := True
  At _ _ := True

theorem punctualOutline_valid (openTimeout : Int) :
    (punctualOutline openTimeout).Valid code (fun _ => True) where
  started _ _ _ := trivial
  elapses := by
    intro shared duration punctual
    have past := punctual.past
    refine ⟨⟨punctual.openTimeout, ?_⟩, id, fun _ => id⟩
    dsimp only [code]
    omega
  moves := by
    intro shared before next after moved punctual _ _
    obtain ⟨clock, same, stamped⟩ := move_openedAt moved
    have past := punctual.past
    refine ⟨⟨same.trans punctual.openTimeout, ?_⟩, trivial, fun _ _ => trivial⟩
    omega
  unlocked _ _ _ _ _ _ := trivial
  survives _ _ _ _ _ _ := trivial

/-- After both timeouts a request is admitted, and the breaker is not left in OPEN. -/
theorem allowRequest_late {cb : CircuitBreaker} {now : Int}
    (timeout : nanos cb.openTimeout ≤ now - cb.openedAt)
    (overdue : nanos halfOpenTimeout ≤ now - cb.openedAt) :
    (cb.allowRequest now now).1 = true ∧ (cb.allowRequest now now).2.state ≠ .opened := by
  cases state : cb.state with
  | closed => simp [allowRequest, state]
  | opened => simp [allowRequest, allowRequestOpen, state, timeout, transitionToHalfOpen]
  | halfOpen => simp [allowRequest, allowRequestHalfOpen, state, overdue, takeProbe]

theorem recordSuccess_closed {cb : CircuitBreaker} (left : cb.state ≠ .opened) :
    cb.recordSuccess.state = .closed := by
  cases state : cb.state with
  | closed => simp [recordSuccess, state]
  | opened => exact absurd state left
  | halfOpen => simp [recordSuccess, state, transitionToClosed]

namespace Callers

variable {s : Callers Thread} {thread : Thread} {verdict : Option Bool}

/-- The thread that has the lock gives it back. -/
theorem unlocks (exclusive : Exclusive code s) (resting : s.phase thread = .returned verdict) :
    ∃ owner count next, count ≤ 3 ∧
      run? code.step s (List.replicate count (.advance owner)) = some next ∧ next.owner = none ∧
      next.phase thread = .returned verdict := by
  cases held : s.owner with
  | none => exact ⟨thread, 0, s, by decide, rfl, held, resting⟩
  | some owner =>
      have holds := (exclusive owner).mpr held
      obtain ⟨count, shared, after, le, solo, outside⟩ := releases s.shared holds
      have differs : thread ≠ owner := by
        rintro rfl
        rw [resting] at holds
        cases holds
      refine ⟨owner, count, _, le, run?_solo code_wellFormed exclusive (Or.inr held) solo, ?_, ?_⟩
      · exact if_neg (Bool.eq_false_iff.mp outside)
      · exact (Function.update_of_ne differs _ _).trans resting

/-- A thread makes a call while the others do nothing. -/
theorem run_call (exclusive : Exclusive code s) (free : s.owner = none)
    (resting : s.phase thread = .returned verdict) (call : Call)
    (now : ∀ time ∈ call.times, time = s.shared.clock) :
    ∃ count final, count ≤ 5 ∧
      run? code.step s (.start thread call.phase :: List.replicate count (.advance thread)) =
        some final ∧
      Exclusive code final ∧ final.owner = none ∧
      final.phase thread = .returned (call.verdict s.shared.breaker) ∧
      final.shared.breaker = s.shared.breaker.step call := by
  have started : code.step s (.start thread call.phase) =
      some { s with phase := Function.update s.phase thread call.phase } := by
    rw [Code.step, resting]
    cases call <;> rfl
  have entered := exclusive.step code_wellFormed started
  obtain ⟨count, shared, after, le, solo, rfl, same⟩ := finishes_call s.shared now
  have here : Function.update s.phase thread call.phase thread = call.phase :=
    Function.update_self ..
  have alone := run?_solo code_wellFormed entered (Or.inl free) (here.symm ▸ solo)
  refine ⟨count, _, le, run?_cons_eq_some.mpr ⟨_, started, alone⟩, ?_, rfl,
    Function.update_self .., same⟩
  exact entered.run code_wellFormed alone

/--
However the threads have used the breaker, it can be brought back to CLOSED: when the
thread that has the lock has left it and both timeouts have passed, a request is
admitted, and with its success the breaker is closed.
-/
theorem can_always_close {failureThreshold openTimeoutSec clock : Int} (present : 0 ≤ clock)
    {events : List (Event Thread Phase)}
    (reached : run? code.step (initial failureThreshold openTimeoutSec clock) events = some s)
    (resting : s.phase thread = .returned verdict) {wait : Nat}
    (timeout : nanos (openTimeoutSec * 1000) ≤ wait) (overdue : nanos halfOpenTimeout ≤ wait) :
    ∃ owner unlock ask tell admitted final, unlock ≤ 3 ∧ ask ≤ 5 ∧ tell ≤ 5 ∧
      run? code.step s (List.replicate unlock (.advance owner) ++ .elapse wait ::
        .start thread .allowRequest :: List.replicate ask (.advance thread)) = some admitted ∧
      admitted.phase thread = .returned (some true) ∧
      run? code.step admitted
        (.start thread .recordSuccess :: List.replicate tell (.advance thread)) = some final ∧
      final.shared.breaker.state = .closed := by
  have start : (punctualOutline (openTimeoutSec * 1000)).Holds code
      (initial failureThreshold openTimeoutSec clock : Callers Thread) :=
    ⟨fun _ => ⟨Bool.noConfusion, fun owned => absurd owned.symm (Option.some_ne_none _)⟩,
      ⟨rfl, present⟩, fun _ => trivial, fun _ => trivial⟩
  have holds := fun {events : List (Event Thread Phase)} {state : Callers Thread}
      (ran : run? code.step (initial failureThreshold openTimeoutSec clock) events = some state) =>
    start.run code_wellFormed (punctualOutline_valid _)
      (fun event _ => by cases event <;> trivial) ran
  obtain ⟨owner, unlock, next, short, unlocked, free, resting⟩ :=
    unlocks (holds reached).exclusive resting
  have later := holds (run?_append reached unlocked)
  obtain ⟨openTimeout, past⟩ := later.always
  let waited : Callers Thread :=
    { next with shared := { next.shared with clock := next.shared.clock + wait } }
  have elapsed : code.step next (.elapse wait) = some waited := rfl
  have late : (waited.shared.breaker.allowRequest waited.shared.clock waited.shared.clock).1 =
        true ∧
      (waited.shared.breaker.allowRequest waited.shared.clock waited.shared.clock).2.state ≠
        .opened :=
    allowRequest_late (by dsimp only [waited]; rw [openTimeout]; omega)
      (by dsimp only [waited]; omega)
  obtain ⟨ask, admitted, few, called, exclusive, still, returned, breaker⟩ :=
    run_call (later.exclusive.step code_wellFormed elapsed) free resting
      (.allowRequest waited.shared.clock waited.shared.clock) (by simp [Call.times])
  obtain ⟨tell, final, fewer, told, _, _, _, closed⟩ :=
    run_call exclusive still returned .recordSuccess (List.forall_mem_nil _)
  refine ⟨owner, unlock, ask, tell, admitted, final, short, few, fewer,
    run?_append unlocked (run?_cons_eq_some.mpr ⟨waited, elapsed, called⟩), ?_, told, ?_⟩
  · rw [returned]
    exact congrArg (fun allowed => Phase.returned (some allowed)) late.1
  · rw [closed]
    exact recordSuccess_closed (breaker ▸ late.2)

/-- Thread 0 waits to open the breaker, thread 1 has the lock and is about to free the probe. -/
def interrupted : List (Event Nat Phase) :=
  [.start 0 .recordFailure, .advance 0, .advance 0, .advance 0, .advance 0, .elapse 5000000000,
    .start 1 .allowRequest, .advance 1, .advance 1, .advance 1, .advance 1, .advance 1,
    .start 0 .recordFailure, .advance 0, .start 1 .allowRequest, .advance 1, .advance 1]

def afterInterrupted : Callers Nat :=
  (run? code.step (initial 1 5 0) interrupted).getD (initial 1 5 0)

theorem can_always_close_interrupted :
    afterInterrupted.owner = some 1 ∧ afterInterrupted.phase 0 = .stampOpened ∧
      ∃ owner unlock ask tell admitted final, unlock ≤ 3 ∧ ask ≤ 5 ∧ tell ≤ 5 ∧
        run? code.step afterInterrupted (List.replicate unlock (.advance owner) ++
          .elapse 5000000000 :: .start 2 .allowRequest ::
            List.replicate ask (.advance 2)) = some admitted ∧
        admitted.phase 2 = .returned (some true) ∧
        run? code.step admitted
          (.start 2 .recordSuccess :: List.replicate tell (.advance 2)) = some final ∧
        final.shared.breaker.state = .closed := by
  have reached : run? code.step (initial 1 5 0) interrupted = some afterInterrupted :=
    run?_eq_some_getD (by decide +kernel)
  have resting : afterInterrupted.phase 2 = .returned none := by decide +kernel
  exact ⟨by decide +kernel, by decide +kernel,
    can_always_close (by decide) reached resting (by decide +kernel) (by decide +kernel)⟩

end Callers

end RpcFramework.CircuitBreaker
