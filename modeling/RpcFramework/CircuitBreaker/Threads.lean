import RpcFramework.CircuitBreaker.Breaker
import RpcFramework.Lib.LockedThreads

/-!
# The breaker among threads

The callers of `allowRequest` and the threads that record outcomes use the breaker at
the same time.  `state_`, `failureCount_` and `halfOpenRequests_` are atomic, and each
load, store or exchange of them is a step of its own; `openedAt_` is read and written
under `mutex_` only, together with one reading of the clock.  The transitions to OPEN
and CLOSED change `state_` without the lock, also while another thread holds it.
-/

namespace RpcFramework.CircuitBreaker

open LockedThreads StepRun

/-- Where a thread stands in a call.  A call that has returned keeps its verdict. -/
inductive Phase where
  | returned (verdict : Option Bool)
  | allowRequest
  | seenOpen
  | checkTimeout
  | probeLocked
  | clearProbe
  | enterHalfOpen
  | seenHalfOpen
  | resetProbe
  | resetWindow
  | probe
  | recordSuccess
  | clearFailures
  | enterClosed
  | clearFailuresClosed
  | clearProbeClosed
  | recordFailure
  | countFailure
  | stampOpened
  | enterOpen
  deriving DecidableEq, Repr

/-- The breaker and the clock.  The rest is history: how many requests were admitted,
and how often the breaker began to go to HALF_OPEN, gave the probe free because of its
timeout, and went to OPEN. -/
structure Shared where
  breaker : CircuitBreaker
  clock : Int
  admitted : Nat
  entered : Nat
  resets : Nat
  opened : Nat
  deriving DecidableEq, Repr

namespace Shared

/-- `allowRequest` returns. -/
def answer (s : Shared) (allowed : Bool) : Shared × Phase :=
  ({ s with admitted := s.admitted + allowed.toNat }, .returned (some allowed))

def takeProbe (s : Shared) : Shared × Phase :=
  { s with breaker := s.breaker.takeProbe.2 }.answer s.breaker.takeProbe.1

/-- One step of a thread.  The section of `transitionToOpen` under the lock is one step. -/
def move (s : Shared) : Phase → Option (Shared × Phase)
  | .returned _ => none
  | .allowRequest =>
      some (match s.breaker.state with
        | .closed => s.answer true
        | .opened => (s, .seenOpen)
        | .halfOpen => (s, .seenHalfOpen))
  | .seenOpen =>
      some (match s.breaker.state with
        | .closed => s.answer true
        | .halfOpen => (s, .probeLocked)
        | .opened => (s, .checkTimeout))
  | .checkTimeout =>
      some (if s.clock - s.breaker.openedAt ≥ nanos s.breaker.openTimeout then (s, .clearProbe)
        else s.answer false)
  | .probeLocked => some s.takeProbe
  -- `transitionToHalfOpen`, with the lock
  | .clearProbe =>
      some ({ s with
        breaker := { s.breaker with halfOpenRequests := 0 }
        entered := s.entered + 1 }, .enterHalfOpen)
  | .enterHalfOpen => some ({ s with breaker := { s.breaker with state := .halfOpen } }.answer true)
  | .seenHalfOpen =>
      some (if s.clock - s.breaker.openedAt ≥ nanos halfOpenTimeout then (s, .resetProbe)
        else (s, .probe))
  | .resetProbe =>
      some ({ s with
        breaker := { s.breaker with halfOpenRequests := 0 }
        resets := s.resets + 1 }, .resetWindow)
  | .resetWindow => some ({ s with breaker := { s.breaker with openedAt := s.clock } }, .probe)
  | .probe => some s.takeProbe
  | .recordSuccess =>
      some (match s.breaker.state with
        | .closed => (s, .clearFailures)
        | .halfOpen => (s, .enterClosed)
        | .opened => (s, .returned none))
  | .clearFailures =>
      some ({ s with breaker := { s.breaker with failureCount := 0 } }, .returned none)
  -- `transitionToClosed`
  | .enterClosed =>
      some ({ s with breaker := { s.breaker with state := .closed } }, .clearFailuresClosed)
  | .clearFailuresClosed =>
      some ({ s with breaker := { s.breaker with failureCount := 0 } }, .clearProbeClosed)
  | .clearProbeClosed =>
      some ({ s with breaker := { s.breaker with halfOpenRequests := 0 } }, .returned none)
  | .recordFailure =>
      some (match s.breaker.state with
        | .closed => (s, .countFailure)
        | .halfOpen => (s, .stampOpened)
        | .opened => (s, .returned none))
  | .countFailure =>
      let s := { s with breaker := { s.breaker with failureCount := s.breaker.failureCount + 1 } }
      some (s, if s.breaker.failureCount ≥ s.breaker.failureThreshold then .stampOpened
        else .returned none)
  -- `transitionToOpen`
  | .stampOpened => some ({ s with breaker := { s.breaker with openedAt := s.clock } }, .enterOpen)
  | .enterOpen =>
      some ({ s with
        breaker := { s.breaker with state := .opened }
        opened := s.opened + 1 }, .returned none)

end Shared

namespace Phase

/-- The next step waits for the lock. -/
def takes : Phase → Bool
  | .seenOpen | .seenHalfOpen | .stampOpened => true
  | _ => false

def holds : Phase → Bool
  | .checkTimeout | .probeLocked | .clearProbe | .enterHalfOpen | .resetProbe | .resetWindow => true
  | _ => false

def starts : Phase → Phase → Bool
  | .returned _, .allowRequest | .returned _, .recordSuccess | .returned _, .recordFailure => true
  | _, _ => false

end Phase

/-- The code of the breaker, for threads. -/
def code : Code Shared Phase where
  move := Shared.move
  takes := Phase.takes
  holds := Phase.holds
  starts := Phase.starts
  elapse s duration := { s with clock := s.clock + duration }

abbrev Callers (Thread : Type) := Threads Thread Shared Phase

variable {Thread : Type} [DecidableEq Thread]

namespace Callers

/-- No thread has called the new breaker. -/
def initial (failureThreshold openTimeoutSec clock : Int) : Callers Thread :=
  ⟨⟨new failureThreshold openTimeoutSec, clock, 0, 0, 0, 0⟩, none, fun _ => .returned none⟩

end Callers

theorem code_wellFormed : code.WellFormed where
  starts := by
    intro before after starts
    dsimp only [code, Phase.starts] at starts
    split at starts
    · exact ⟨rfl, rfl⟩
    · exact ⟨rfl, rfl⟩
    · exact ⟨rfl, rfl⟩
    · cases starts
  takes := by
    intro phase takes
    cases phase with
    | seenOpen | seenHalfOpen | stampOpened => rfl
    | _ => cases takes
  holds := by
    intro shared before next after moved holds
    cases before with
    | seenOpen | seenHalfOpen | stampOpened => exact Or.inl rfl
    | checkTimeout | probeLocked | clearProbe | enterHalfOpen | resetProbe | resetWindow =>
        exact Or.inr rfl
    | returned verdict => cases moved
    | allowRequest | recordSuccess | recordFailure =>
        cases state : shared.breaker.state <;>
          simp [code, Shared.move, Shared.answer, state] at moved <;>
          obtain ⟨rfl, rfl⟩ := moved <;> cases holds
    | countFailure =>
        obtain ⟨rfl, rfl⟩ := Prod.mk.inj (Option.some.inj moved)
        split at holds <;> cases holds
    | probe | clearFailures | enterClosed | clearFailuresClosed | clearProbeClosed | enterOpen =>
        obtain ⟨rfl, rfl⟩ := Prod.mk.inj (Option.some.inj moved)
        cases holds

/-! ## Requests that are admitted while no success is recorded -/

/-- The probe can be taken; before the breaker goes to HALF_OPEN nobody tries to. -/
def Shared.free (s base : Shared) : Nat :=
  if base.entered < s.entered ∧ s.breaker.halfOpenRequests = 0 then 1 else 0

/-- The open timeout is over, and the breaker has begun to go to HALF_OPEN. -/
structure Begun (base s : Shared) : Prop where
  entered : base.entered < s.entered
  late : base.breaker.openedAt + nanos base.breaker.openTimeout ≤ s.clock

/-- The resets of the probe are as far apart as its timeout. -/
def Spaced (base s : Shared) : Prop :=
  base.breaker.openedAt + nanos halfOpenTimeout * s.resets ≤
    s.breaker.openedAt + nanos halfOpenTimeout * base.resets

/-- The breaker goes to HALF_OPEN once for every time it went to OPEN, and it may do so
now if it is in OPEN. -/
def Paired (base s : Shared) : Prop :=
  s.entered + base.opened + (if s.breaker.state = .opened then 1 else 0) ≤
    base.entered + s.opened + 1

/-- What is admitted is paid for: a transition to HALF_OPEN lets two requests pass, a
reset one. -/
structure Account (base s : Shared) : Prop where
  openTimeout : s.breaker.openTimeout = base.breaker.openTimeout
  tripped : s.breaker.state ≠ .closed
  since : base.breaker.openedAt ≤ s.breaker.openedAt
  past : s.breaker.openedAt ≤ s.clock
  halfOpen : s.breaker.state = .halfOpen → Begun base s
  begun : base.admitted < s.admitted → Begun base s
  paid : s.admitted + s.free base + 2 * base.entered + base.resets ≤
    base.admitted + 2 * s.entered + s.resets
  resets : base.breaker.openedAt + nanos halfOpenTimeout * s.resets ≤
    s.clock + nanos halfOpenTimeout * base.resets
  entered : s.entered + base.opened ≤ base.entered + s.opened + 1
  grown : base.entered ≤ s.entered

/-- What is known where a thread stands. -/
def At (base : Shared) : Phase → Shared → Prop
  | .returned _ | .allowRequest | .seenOpen | .clearFailures | .recordFailure | .countFailure
  | .stampOpened | .enterOpen => fun _ => True
  | .seenHalfOpen | .probe => Begun base
  | .checkTimeout => fun s =>
      Spaced base s ∧ Paired base s ∧ s.entered + base.opened ≤ base.entered + s.opened
  | .probeLocked => fun s => Spaced base s ∧ Paired base s ∧ Begun base s
  | .clearProbe => fun s =>
      Spaced base s ∧ s.entered + base.opened ≤ base.entered + s.opened ∧
        base.breaker.openedAt + nanos base.breaker.openTimeout ≤ s.clock
  -- the thread has a request to admit
  | .enterHalfOpen => fun s =>
      Spaced base s ∧ Begun base s ∧
        s.admitted + 1 + s.free base + 2 * base.entered + base.resets ≤
          base.admitted + 2 * s.entered + s.resets
  | .resetProbe => fun s =>
      Spaced base s ∧ Paired base s ∧ Begun base s ∧
        s.breaker.openedAt + nanos halfOpenTimeout ≤ s.clock
  | .resetWindow => fun s => Paired base s ∧ Begun base s
  | .recordSuccess | .enterClosed | .clearFailuresClosed | .clearProbeClosed => fun _ => False

def outline (base : Shared) : Outline Shared Phase where
  Always := Account base
  Resource s := Spaced base s ∧ Paired base s
  At := At base

/-- A step without the lock: it may take the probe, count a failure, or go to OPEN. -/
structure Mild (base s next : Shared) : Prop where
  clock : next.clock = s.clock
  openedAt : next.breaker.openedAt = s.breaker.openedAt
  openTimeout : next.breaker.openTimeout = s.breaker.openTimeout
  entered : next.entered = s.entered
  resets : next.resets = s.resets
  tripped : next.breaker.state ≠ .closed
  halfOpen : next.breaker.state = .halfOpen → s.breaker.state = .halfOpen
  opened : s.opened + (if next.breaker.state = .opened then 1 else 0) ≤
    next.opened + (if s.breaker.state = .opened then 1 else 0)
  more : s.opened ≤ next.opened
  spent : next.admitted + next.free base ≤ s.admitted + s.free base
  begun : s.admitted < next.admitted → Begun base s

section Mild

variable {base s next : Shared}

theorem Begun.mono (begun : Begun base s) (entered : s.entered ≤ next.entered)
    (clock : s.clock ≤ next.clock) : Begun base next :=
  ⟨Nat.lt_of_lt_of_le begun.entered entered, Int.le_trans begun.late clock⟩

theorem Mild.toBegun (mild : Mild base s next) (begun : Begun base s) : Begun base next :=
  begun.mono (Nat.le_of_eq mild.entered.symm) (Int.le_of_eq mild.clock.symm)

theorem Mild.spaced (mild : Mild base s next) (spaced : Spaced base s) : Spaced base next := by
  unfold Spaced at *
  rw [mild.resets, mild.openedAt]
  exact spaced

theorem Mild.paired (mild : Mild base s next) (paired : Paired base s) : Paired base next := by
  unfold Paired at *
  rw [mild.entered]
  have opened := mild.opened
  omega

theorem Mild.account (mild : Mild base s next) (account : Account base s) : Account base next where
  openTimeout := mild.openTimeout.trans account.openTimeout
  tripped := mild.tripped
  since := mild.openedAt ▸ account.since
  past := by
    rw [mild.openedAt, mild.clock]
    exact account.past
  halfOpen state := mild.toBegun (account.halfOpen (mild.halfOpen state))
  begun admitted := by
    by_cases before : base.admitted < s.admitted
    · exact mild.toBegun (account.begun before)
    · exact mild.toBegun (mild.begun (by omega))
  paid := by
    have spent := mild.spent
    have paid := account.paid
    rw [mild.entered, mild.resets]
    omega
  resets := by
    rw [mild.resets, mild.clock]
    exact account.resets
  entered := by
    have more := mild.more
    have entered := account.entered
    rw [mild.entered]
    omega
  grown := mild.entered ▸ account.grown

theorem Mild.at (mild : Mild base s next) {phase : Phase} (known : At base phase s) :
    At base phase next := by
  have more := mild.more
  cases phase with
  | returned _ | allowRequest | seenOpen | clearFailures | recordFailure | countFailure
  | stampOpened | enterOpen => trivial
  | recordSuccess | enterClosed | clearFailuresClosed | clearProbeClosed => exact known
  | seenHalfOpen | probe => exact mild.toBegun known
  | checkTimeout =>
      obtain ⟨spaced, paired, entered⟩ := known
      exact ⟨mild.spaced spaced, mild.paired paired, by rw [mild.entered]; omega⟩
  | probeLocked =>
      obtain ⟨spaced, paired, begun⟩ := known
      exact ⟨mild.spaced spaced, mild.paired paired, mild.toBegun begun⟩
  | clearProbe =>
      obtain ⟨spaced, entered, late⟩ := known
      exact ⟨mild.spaced spaced, by rw [mild.entered]; omega, mild.clock ▸ late⟩
  | enterHalfOpen =>
      obtain ⟨spaced, begun, paid⟩ := known
      have spent := mild.spent
      refine ⟨mild.spaced spaced, mild.toBegun begun, ?_⟩
      rw [mild.entered, mild.resets]
      omega
  | resetProbe =>
      obtain ⟨spaced, paired, begun, overdue⟩ := known
      refine ⟨mild.spaced spaced, mild.paired paired, mild.toBegun begun, ?_⟩
      rw [mild.openedAt, mild.clock]
      exact overdue
  | resetWindow =>
      obtain ⟨paired, begun⟩ := known
      exact ⟨mild.paired paired, mild.toBegun begun⟩

theorem Mild.refl (account : Account base s) : Mild base s s where
  clock := rfl
  openedAt := rfl
  openTimeout := rfl
  entered := rfl
  resets := rfl
  tripped := account.tripped
  halfOpen state := state
  opened := Nat.le_refl _
  more := Nat.le_refl _
  spent := Nat.le_refl _
  begun more := absurd more (Nat.lt_irrefl _)

/-- Only the count of failures changes. -/
theorem Mild.failureCount (account : Account base s) (failureCount : Int) :
    Mild base s { s with breaker := { s.breaker with failureCount := failureCount } } :=
  { Mild.refl account with }

/-- A probe that is taken is not free any more. -/
theorem Mild.takeProbe (account : Account base s) (begun : Begun base s) :
    Mild base s s.takeProbe.1 := by
  by_cases free : s.breaker.halfOpenRequests = 0
  · have taken : s.breaker.takeProbe = (true, { s.breaker with halfOpenRequests := 1 }) :=
      if_pos free
    unfold Shared.takeProbe Shared.answer
    rw [taken]
    refine { Mild.refl account with spent := ?_, begun := fun _ => begun }
    simp [Shared.free, begun.entered, free]
  · have taken : s.breaker.takeProbe = (false, s.breaker) := if_neg free
    unfold Shared.takeProbe Shared.answer
    rw [taken]
    exact { Mild.refl account with }

theorem Mild.enterOpen (account : Account base s) :
    Mild base s { s with
      breaker := { s.breaker with state := .opened }
      opened := s.opened + 1 } :=
  { Mild.refl account with
    tripped := State.noConfusion
    halfOpen := fun impossible => State.noConfusion impossible
    opened := by
      dsimp only
      rw [if_pos rfl]
      omega
    more := Nat.le_succ _ }

end Mild

section Outline

variable {base s next : Shared} {before after : Phase}

theorem free_le_one (s base : Shared) : s.free base ≤ 1 := by
  unfold Shared.free
  split
  · exact Nat.le_refl 1
  · exact Nat.zero_le 1

/-- The steps that do not use the lock. -/
theorem Account.move_unlocked (account : Account base s) (known : At base before s)
    (takes : before.takes = false) (holds : before.holds = false)
    (moved : s.move before = some (next, after)) : Mild base s next ∧ At base after next := by
  cases before with
  | returned _ => cases moved
  | seenOpen | seenHalfOpen | stampOpened => cases takes
  | checkTimeout | probeLocked | clearProbe | enterHalfOpen | resetProbe | resetWindow =>
      cases holds
  | recordSuccess | enterClosed | clearFailuresClosed | clearProbeClosed => exact known.elim
  | allowRequest =>
      cases state : s.breaker.state with
      | closed => exact absurd state account.tripped
      | opened =>
          rw [Shared.move, state] at moved
          cases moved
          exact ⟨.refl account, trivial⟩
      | halfOpen =>
          rw [Shared.move, state] at moved
          cases moved
          exact ⟨.refl account, account.halfOpen state⟩
  | probe =>
      cases moved
      exact ⟨.takeProbe account known, trivial⟩
  | clearFailures =>
      cases moved
      exact ⟨.failureCount account 0, trivial⟩
  | recordFailure =>
      cases state : s.breaker.state with
      | closed => exact absurd state account.tripped
      | opened =>
          rw [Shared.move, state] at moved
          cases moved
          exact ⟨.refl account, trivial⟩
      | halfOpen =>
          rw [Shared.move, state] at moved
          cases moved
          exact ⟨.refl account, trivial⟩
  | countFailure =>
      cases moved
      refine ⟨.failureCount account _, ?_⟩
      dsimp only
      split
      · trivial
      · trivial
  | enterOpen =>
      cases moved
      exact ⟨.enterOpen account, trivial⟩

/-- What a step that uses the lock leaves. -/
structure Locked (base s next : Shared) (after : Phase) : Prop where
  account : Account base next
  known : At base after next
  resource : after.holds = false → Spaced base next ∧ Paired base next
  entered : s.entered ≤ next.entered
  clock : s.clock = next.clock

/-- `openedAt_` is set to the time. -/
theorem Account.stamp (account : Account base s) :
    Account base { s with breaker := { s.breaker with openedAt := s.clock } } :=
  { account with
    since := Int.le_trans account.since account.past
    past := Int.le_refl _
    halfOpen := fun state => { account.halfOpen state with }
    begun := fun more => { account.begun more with } }

theorem Account.clearProbe (account : Account base s) (known : At base .clearProbe s) :
    Locked base s { s with
      breaker := { s.breaker with halfOpenRequests := 0 }
      entered := s.entered + 1 } .enterHalfOpen := by
  obtain ⟨spaced, entered, late⟩ := known
  have begun : Begun base { s with
      breaker := { s.breaker with halfOpenRequests := 0 }
      entered := s.entered + 1 } := ⟨Nat.lt_succ_of_le account.grown, late⟩
  have paid := account.paid
  have free := free_le_one { s with
      breaker := { s.breaker with halfOpenRequests := 0 }
      entered := s.entered + 1 } base
  refine ⟨{ account with
      halfOpen := fun _ => begun
      begun := fun _ => begun
      paid := ?_
      entered := by dsimp only; omega
      grown := Nat.le_succ_of_le account.grown }, ⟨spaced, begun, ?_⟩, Bool.noConfusion,
    Nat.le_succ _, rfl⟩
  · dsimp only at free ⊢
    omega
  · dsimp only at free ⊢
    omega

theorem Account.enterHalfOpen (account : Account base s) (known : At base .enterHalfOpen s) :
    Locked base s ({ s with breaker := { s.breaker with state := .halfOpen } }.answer true).1
      (.returned (some true)) := by
  obtain ⟨spaced, begun, paid⟩ := known
  have now : Begun base ({ s with
      breaker := { s.breaker with state := .halfOpen } }.answer true).1 := { begun with }
  refine ⟨{ account with
      tripped := State.noConfusion
      halfOpen := fun _ => now
      begun := fun _ => now
      paid := paid }, trivial, fun _ => ⟨spaced, account.entered⟩, Nat.le_refl _, rfl⟩

theorem Account.resetProbe (account : Account base s) (known : At base .resetProbe s) :
    Locked base s { s with
      breaker := { s.breaker with halfOpenRequests := 0 }
      resets := s.resets + 1 } .resetWindow := by
  obtain ⟨spaced, paired, begun, overdue⟩ := known
  have now : Begun base { s with
      breaker := { s.breaker with halfOpenRequests := 0 }
      resets := s.resets + 1 } := { begun with }
  have paid := account.paid
  have free := free_le_one { s with
      breaker := { s.breaker with halfOpenRequests := 0 }
      resets := s.resets + 1 } base
  refine ⟨{ account with
      halfOpen := fun _ => now
      begun := fun _ => now
      paid := by dsimp only at free ⊢; omega
      resets := ?_ }, ⟨paired, now⟩, Bool.noConfusion, Nat.le_refl _, rfl⟩
  simp only [Spaced, nanos, halfOpenTimeout] at *
  omega

/-- The steps that take the lock or have it. -/
theorem Account.move_locked (account : Account base s) (known : At base before s)
    (uses : before.takes = true ∨ before.holds = true)
    (resource : before.takes = true → Spaced base s ∧ Paired base s)
    (moved : s.move before = some (next, after)) : Locked base s next after := by
  have unchanged : ∀ {phase}, At base phase s →
      (phase.holds = false → Spaced base s ∧ Paired base s) → Locked base s s phase :=
    fun known resource => ⟨account, known, resource, Nat.le_refl _, rfl⟩
  cases before with
  | returned _ | allowRequest | probe | recordSuccess | clearFailures | enterClosed
  | clearFailuresClosed | clearProbeClosed | recordFailure | countFailure | enterOpen =>
      rcases uses with impossible | impossible
      · cases impossible
      · cases impossible
  | seenOpen =>
      obtain ⟨spaced, paired⟩ := resource rfl
      cases state : s.breaker.state with
      | closed => exact absurd state account.tripped
      | opened =>
          rw [Shared.move, state] at moved
          cases moved
          refine unchanged ⟨spaced, paired, ?_⟩ Bool.noConfusion
          rw [Paired, if_pos state] at paired
          omega
      | halfOpen =>
          rw [Shared.move, state] at moved
          cases moved
          exact unchanged ⟨spaced, paired, account.halfOpen state⟩ Bool.noConfusion
  | checkTimeout =>
      obtain ⟨spaced, paired, entered⟩ := known
      rw [Shared.move] at moved
      split at moved
      · next elapsed =>
          cases moved
          have since := account.since
          rw [account.openTimeout] at elapsed
          exact unchanged ⟨spaced, entered, by omega⟩ Bool.noConfusion
      · cases moved
        exact unchanged trivial fun _ => ⟨spaced, paired⟩
  | probeLocked =>
      obtain ⟨spaced, paired, begun⟩ := known
      cases moved
      have mild := Mild.takeProbe account begun
      exact ⟨mild.account account, trivial, fun _ => ⟨mild.spaced spaced, mild.paired paired⟩,
        Nat.le_of_eq mild.entered.symm, mild.clock.symm⟩
  | clearProbe =>
      cases moved
      exact account.clearProbe known
  | enterHalfOpen =>
      cases moved
      exact account.enterHalfOpen known
  | seenHalfOpen =>
      obtain ⟨spaced, paired⟩ := resource rfl
      rw [Shared.move] at moved
      split at moved
      · next elapsed =>
          cases moved
          exact unchanged ⟨spaced, paired, known, by omega⟩ Bool.noConfusion
      · cases moved
        exact unchanged known fun _ => ⟨spaced, paired⟩
  | resetProbe =>
      cases moved
      exact account.resetProbe known
  | resetWindow =>
      obtain ⟨paired, begun⟩ := known
      cases moved
      exact ⟨account.stamp, { begun with }, fun _ => ⟨account.resets, paired⟩, Nat.le_refl _, rfl⟩
  | stampOpened =>
      obtain ⟨spaced, paired⟩ := resource rfl
      cases moved
      exact ⟨account.stamp, trivial, fun _ => ⟨account.resets, paired⟩, Nat.le_refl _, rfl⟩

theorem Begun.elapse (begun : Begun base s) (duration : Nat) :
    Begun base { s with clock := s.clock + duration } :=
  begun.mono (Nat.le_refl _) (Int.le_add_of_nonneg_right (Int.natCast_nonneg duration))

theorem Account.elapse (account : Account base s) (duration : Nat) :
    Account base { s with clock := s.clock + duration } :=
  { account with
    past := by
      have past := account.past
      dsimp only
      omega
    halfOpen := fun state => (account.halfOpen state).elapse duration
    begun := fun more => (account.begun more).elapse duration
    resets := by
      have resets := account.resets
      dsimp only
      omega }

theorem At.elapse {phase : Phase} (known : At base phase s) (duration : Nat) :
    At base phase { s with clock := s.clock + duration } := by
  cases phase with
  | returned _ | allowRequest | seenOpen | clearFailures | recordFailure | countFailure
  | stampOpened | enterOpen => trivial
  | recordSuccess | enterClosed | clearFailuresClosed | clearProbeClosed | checkTimeout =>
      exact known
  | seenHalfOpen | probe => exact Begun.elapse known duration
  | probeLocked =>
      obtain ⟨spaced, paired, begun⟩ := known
      exact ⟨spaced, paired, begun.elapse duration⟩
  | clearProbe =>
      obtain ⟨spaced, entered, late⟩ := known
      exact ⟨spaced, entered, by dsimp only; omega⟩
  | enterHalfOpen =>
      obtain ⟨spaced, begun, paid⟩ := known
      exact ⟨spaced, begun.elapse duration, paid⟩
  | resetProbe =>
      obtain ⟨spaced, paired, begun, overdue⟩ := known
      exact ⟨spaced, paired, begun.elapse duration, by dsimp only; omega⟩
  | resetWindow =>
      obtain ⟨paired, begun⟩ := known
      exact ⟨paired, begun.elapse duration⟩

/-- A thread without the lock keeps what it knows while another one uses the lock. -/
theorem At.of_locked {phase : Phase} (known : At base phase s) (outside : phase.holds = false)
    (entered : s.entered ≤ next.entered) (clock : s.clock ≤ next.clock) : At base phase next := by
  cases phase with
  | returned _ | allowRequest | seenOpen | clearFailures | recordFailure | countFailure
  | stampOpened | enterOpen => trivial
  | recordSuccess | enterClosed | clearFailuresClosed | clearProbeClosed => exact known
  | seenHalfOpen | probe => exact Begun.mono known entered clock
  | checkTimeout | probeLocked | clearProbe | enterHalfOpen | resetProbe | resetWindow =>
      cases outside

end Outline

theorem outline_valid (base : Shared) : (outline base).Valid code (· ≠ .recordSuccess) where
  started := by
    intro shared before after _ starts allowed
    dsimp only [code, Phase.starts] at starts
    split at starts
    · trivial
    · exact absurd rfl allowed
    · trivial
    · cases starts
  elapses := by
    intro shared duration account
    exact ⟨account.elapse duration, id, fun _ known => known.elapse duration⟩
  moves := by
    intro shared before next after moved account known resource
    by_cases uses : before.takes = true ∨ before.holds = true
    · have locked := account.move_locked known uses resource moved
      exact ⟨locked.account, locked.known, fun _ => locked.resource⟩
    · obtain ⟨takes, holds⟩ := not_or.mp uses
      obtain ⟨mild, later⟩ := account.move_unlocked known (Bool.eq_false_iff.mpr takes)
        (Bool.eq_false_iff.mpr holds) moved
      exact ⟨mild.account account, later, fun used => absurd used uses⟩
  unlocked := by
    intro shared before next after moved account known takes holds resource
    have mild := (account.move_unlocked known takes holds moved).1
    exact ⟨mild.spaced resource.1, mild.paired resource.2⟩
  survives := by
    intro shared before next after other moved account known resource others apart
    by_cases uses : before.takes = true ∨ before.holds = true
    · have locked := account.move_locked known uses resource moved
      exact others.of_locked (apart uses) locked.entered (Int.le_of_eq locked.clock)
    · obtain ⟨takes, holds⟩ := not_or.mp uses
      have mild := (account.move_unlocked known (Bool.eq_false_iff.mpr takes)
        (Bool.eq_false_iff.mpr holds) moved).1
      exact mild.at others

/-- The thread is not in a part of a call behind OPEN, and it records no success. -/
def Phase.beforeHalfOpen : Phase → Bool
  | .returned _ | .allowRequest | .seenOpen | .clearFailures | .recordFailure | .countFailure
  | .stampOpened | .enterOpen => true
  | _ => false

namespace Callers

/-- The breaker has opened, and no thread is behind that. -/
structure Tripped (s : Callers Thread) : Prop where
  opened : s.shared.breaker.state = .opened
  past : s.shared.breaker.openedAt ≤ s.shared.clock
  unlocked : s.owner = none
  before : ∀ thread, (s.phase thread).beforeHalfOpen = true

omit [DecidableEq Thread] in
theorem Tripped.holds {s : Callers Thread} (tripped : s.Tripped) :
    (outline s.shared).Holds code s where
  exclusive := by
    intro thread
    have outside : (s.phase thread).holds = false := by
      have before := tripped.before thread
      cases phase : s.phase thread <;> rw [phase] at before <;> first | rfl | cases before
    rw [tripped.unlocked]
    simp [code, outside]
  always :=
    { openTimeout := rfl
      tripped := tripped.opened ▸ State.noConfusion
      since := Int.le_refl _
      past := tripped.past
      halfOpen := fun half => State.noConfusion (tripped.opened.symm.trans half)
      begun := fun more => absurd more (Nat.lt_irrefl _)
      paid := by simp [Shared.free]
      resets := Int.add_le_add_right tripped.past _
      entered := Nat.le_succ _
      grown := Nat.le_refl _ }
  resource _ := by
    exact ⟨Int.le_refl _, by simp [Paired, tripped.opened]⟩
  phases := by
    intro thread
    have before := tripped.before thread
    cases phase : s.phase thread <;> rw [phase] at before <;> trivial

/--
From an open breaker on, as long as no success is recorded, the requests that are
admitted are two for the first time and two for every time the breaker opens again, and
one more for every `halfOpenTimeout_` since it opened, whatever the order in which the
threads take their steps; and none is admitted before the open timeout.
-/
theorem admitted_without_success {s final : Callers Thread} {events : List (Event Thread Phase)}
    (tripped : s.Tripped) (unsuccessful : ∀ event ∈ events, event.Allowed (· ≠ .recordSuccess))
    (reached : run? code.step s events = some final) :
    (final.shared.admitted - s.shared.admitted : Int) ≤
        2 * (final.shared.opened - s.shared.opened + 1) +
          (final.shared.clock - s.shared.breaker.openedAt) / nanos halfOpenTimeout ∧
      (s.shared.admitted < final.shared.admitted →
        s.shared.breaker.openedAt + nanos s.shared.breaker.openTimeout ≤ final.shared.clock) := by
  have account : Account s.shared final.shared :=
    (tripped.holds.run code_wellFormed (outline_valid s.shared) unsuccessful reached).always
  refine ⟨?_, fun more => (account.begun more).late⟩
  have paid := account.paid
  have entered := account.entered
  have resets := account.resets
  simp only [nanos, halfOpenTimeout] at *
  omega

/-- The breaker opens at once, for five seconds. -/
def failedOnce : Callers (Fin 3) :=
  (run? code.step (initial 1 5 0)
    (.start 0 .recordFailure :: List.replicate 4 (.advance 0))).getD (initial 1 5 0)

/-- Two threads have seen OPEN.  When the time is over, one of them goes to HALF_OPEN, the
other one takes the probe, and a third one finds the probe overdue. -/
def crowd : List (Event (Fin 3) Phase) :=
  [.start 0 .allowRequest, .advance 0, .start 1 .allowRequest, .advance 1, .elapse 5000000000,
    .advance 0, .advance 0, .advance 0, .advance 0, .advance 1, .advance 1,
    .start 2 .allowRequest, .advance 2, .advance 2, .advance 2, .advance 2, .advance 2]

def crowded : Callers (Fin 3) := (run? code.step failedOnce crowd).getD failedOnce

/-- The bound is attained. -/
theorem admitted_without_success_crowd :
    failedOnce.Tripped ∧ (crowded.shared.admitted : Int) = 3 ∧
      (crowded.shared.admitted - failedOnce.shared.admitted : Int) ≤
        2 * (crowded.shared.opened - failedOnce.shared.opened + 1) +
          (crowded.shared.clock - failedOnce.shared.breaker.openedAt) / nanos halfOpenTimeout ∧
      2 * (crowded.shared.opened - failedOnce.shared.opened + 1) +
          (crowded.shared.clock - failedOnce.shared.breaker.openedAt) / nanos halfOpenTimeout =
        3 := by
  have tripped : failedOnce.Tripped :=
    ⟨by decide +kernel, by decide +kernel, by decide +kernel, by decide +kernel⟩
  have unsuccessful : ∀ event ∈ crowd, event.Allowed (· ≠ .recordSuccess) := by
    simp [crowd, Event.Allowed]
  have reached : run? code.step failedOnce crowd = some crowded :=
    run?_eq_some_getD (by decide +kernel)
  exact ⟨tripped, by decide +kernel, (admitted_without_success tripped unsuccessful reached).1,
    by decide +kernel⟩

end Callers

end RpcFramework.CircuitBreaker
