import Mathlib.Data.Bool.Basic
import Mathlib.Logic.Function.Basic
import RpcFramework.Lib.StepRun

/-!
# Threads that share data and a lock

Several threads run the same code on shared data.  Each is in a phase of the code;
one step of a thread is one access to the data.  In some phases a thread holds the
lock, and from some phases the next step can only be taken when the lock is free.
Between the steps time passes.

A proof outline gives an invariant of the data, an assertion for each phase, and a
resource invariant, which holds while no thread has the lock.  A thread that takes the
lock may use the resource invariant and has to restore it before it gives the lock
back; the assertions of the other threads must survive each of its steps.  Then all
of them hold along every interleaving.
-/

namespace LockedThreads

open StepRun

/-- The code of the threads.  A step from a phase in `takes` begins with the lock being
taken; the lock is kept as long as the phase is in `holds`. -/
structure Code (Shared Phase : Type) where
  move : Shared → Phase → Option (Shared × Phase)
  takes : Phase → Bool
  holds : Phase → Bool
  starts : Phase → Phase → Bool
  elapse : Shared → Nat → Shared

structure Threads (Thread Shared Phase : Type) where
  shared : Shared
  owner : Option Thread
  phase : Thread → Phase

/-- A thread starts a call, a thread takes its next step, or time passes. -/
inductive Event (Thread Phase : Type) where
  | start (thread : Thread) (phase : Phase)
  | advance (thread : Thread)
  | elapse (duration : Nat)
  deriving DecidableEq, Repr

variable {Thread Shared Phase : Type} [DecidableEq Thread]

namespace Code

/-- The lock while a thread goes on to its next phase. -/
def ownerAfter (code : Code Shared Phase) (owner : Option Thread) (thread : Thread)
    (before after : Phase) : Option Thread :=
  if code.holds after then some thread
  else if code.takes before || code.holds before then none
  else owner

def step (code : Code Shared Phase) (state : Threads Thread Shared Phase) :
    Event Thread Phase → Option (Threads Thread Shared Phase)
  | .start thread phase =>
      if code.starts (state.phase thread) phase then
        some { state with phase := Function.update state.phase thread phase }
      else none
  | .advance thread =>
      let before := state.phase thread
      if code.takes before && state.owner.isSome then none
      else
        (code.move state.shared before).map fun moved =>
          { shared := moved.1
            owner := code.ownerAfter state.owner thread before moved.2
            phase := Function.update state.phase thread moved.2 }
  | .elapse duration => some { state with shared := code.elapse state.shared duration }

end Code

/-- Calls start without the lock, a thread does not take the lock that it holds, and no
step leads into the lock without taking it. -/
structure Code.WellFormed (code : Code Shared Phase) : Prop where
  starts : ∀ {before after}, code.starts before after = true →
    code.holds before = false ∧ code.holds after = false
  takes : ∀ {phase}, code.takes phase = true → code.holds phase = false
  holds : ∀ {shared before next after}, code.move shared before = some (next, after) →
    code.holds after = true → code.takes before = true ∨ code.holds before = true

/-- The owner of the lock is the thread whose phase holds it. -/
def Exclusive (code : Code Shared Phase) (state : Threads Thread Shared Phase) : Prop :=
  ∀ thread, code.holds (state.phase thread) = true ↔ state.owner = some thread

section Exclusion

variable {code : Code Shared Phase} {state next : Threads Thread Shared Phase}

/-- What a step of one thread is. -/
theorem step_advance {thread : Thread} (taken : code.step state (.advance thread) = some next) :
    ∃ shared after, code.move state.shared (state.phase thread) = some (shared, after) ∧
      (code.takes (state.phase thread) = true → state.owner = none) ∧
      next = ⟨shared, code.ownerAfter state.owner thread (state.phase thread) after,
        Function.update state.phase thread after⟩ := by
  obtain ⟨allowed, moved⟩ := Option.ite_none_left_eq_some.mp taken
  obtain ⟨⟨shared, after⟩, stepped, rfl⟩ := Option.map_eq_some_iff.mp moved
  refine ⟨shared, after, stepped, ?_, rfl⟩
  intro takes
  simpa [takes] using allowed

omit [DecidableEq Thread] in
/-- While a thread may use the lock, another one does not hold it. -/
theorem Exclusive.alone (exclusive : Exclusive code state) {thread other : Thread}
    (free : code.takes (state.phase thread) = true → state.owner = none) (differs : other ≠ thread)
    (uses : code.takes (state.phase thread) = true ∨ code.holds (state.phase thread) = true) :
    code.holds (state.phase other) = false := by
  apply Bool.eq_false_iff.mpr
  intro held
  have owns := (exclusive other).mp held
  rcases uses with takes | holds
  · exact absurd (owns.symm.trans (free takes)) (Option.some_ne_none other)
  · exact differs (Option.some.inj (owns.symm.trans ((exclusive thread).mp holds)))

theorem Exclusive.step (wellFormed : code.WellFormed) (exclusive : Exclusive code state)
    {event : Event Thread Phase} (taken : code.step state event = some next) :
    Exclusive code next := by
  cases event with
  | elapse duration =>
      cases taken
      exact exclusive
  | start thread phase =>
      obtain ⟨starts, moved⟩ := Option.ite_none_right_eq_some.mp taken
      cases moved
      obtain ⟨before, after⟩ := wellFormed.starts starts
      intro other
      by_cases same : other = thread
      · subst same
        have free := (exclusive other).not.mp (Bool.eq_false_iff.mp before)
        simp [after, free]
      · dsimp only
        rw [Function.update_of_ne same]
        exact exclusive other
  | advance thread =>
      obtain ⟨shared, after, stepped, free, rfl⟩ := step_advance taken
      intro other
      dsimp only [Code.ownerAfter]
      by_cases same : other = thread
      · subst same
        rw [Function.update_self]
        cases holds : code.holds after with
        | true => simp
        | false =>
            have held := (exclusive other).not
            cases before : code.holds (state.phase other) with
            | true => simp
            | false =>
                have missing := held.mp (Bool.eq_false_iff.mp before)
                cases takes : code.takes (state.phase other) with
                | true => simp
                | false => simpa using missing
      · rw [Function.update_of_ne same]
        have alone := exclusive.alone free same
        cases holds : code.holds after with
        | true =>
            have idle := alone (wellFormed.holds stepped holds)
            simp [idle, Ne.symm same]
        | false =>
            cases uses : code.takes (state.phase thread) || code.holds (state.phase thread) with
            | true =>
                have idle := alone (Bool.or_eq_true_iff.mp uses)
                simp [idle]
            | false => simpa using exclusive other

theorem Exclusive.run (wellFormed : code.WellFormed) (exclusive : Exclusive code state)
    {events : List (Event Thread Phase)} (reached : run? code.step state events = some next) :
    Exclusive code next :=
  run?_invariant (fun _ _ _ exclusive taken => Exclusive.step wellFormed exclusive taken) exclusive
    reached

end Exclusion

/-! ## Proof outlines -/

/-- The assertions of a proof, about the data at all times, about the data while the
lock is free, and about the data while a thread is in a phase. -/
structure Outline (Shared Phase : Type) where
  Always : Shared → Prop
  Resource : Shared → Prop
  At : Phase → Shared → Prop

/-- What has to be shown for an outline, with the calls that may be started. -/
structure Outline.Valid (outline : Outline Shared Phase) (code : Code Shared Phase)
    (Allowed : Phase → Prop) : Prop where
  started : ∀ {shared before after}, outline.Always shared → code.starts before after = true →
    Allowed after → outline.At after shared
  elapses : ∀ {shared} duration, outline.Always shared →
    outline.Always (code.elapse shared duration) ∧
      (outline.Resource shared → outline.Resource (code.elapse shared duration)) ∧
      ∀ phase, outline.At phase shared → outline.At phase (code.elapse shared duration)
  moves : ∀ {shared before next after}, code.move shared before = some (next, after) →
    outline.Always shared → outline.At before shared →
    (code.takes before = true → outline.Resource shared) →
    outline.Always next ∧ outline.At after next ∧
      (code.takes before = true ∨ code.holds before = true → code.holds after = false →
        outline.Resource next)
  unlocked : ∀ {shared before next after}, code.move shared before = some (next, after) →
    outline.Always shared → outline.At before shared → code.takes before = false →
    code.holds before = false → outline.Resource shared → outline.Resource next
  survives : ∀ {shared before next after other},
    code.move shared before = some (next, after) →
    outline.Always shared → outline.At before shared →
    (code.takes before = true → outline.Resource shared) → outline.At other shared →
    (code.takes before = true ∨ code.holds before = true → code.holds other = false) →
    outline.At other next

structure Outline.Holds (outline : Outline Shared Phase) (code : Code Shared Phase)
    (state : Threads Thread Shared Phase) : Prop where
  exclusive : Exclusive code state
  always : outline.Always state.shared
  resource : state.owner = none → outline.Resource state.shared
  phases : ∀ thread, outline.At (state.phase thread) state.shared

/-- Every call that is started is one of the allowed ones. -/
def Event.Allowed (Allowed : Phase → Prop) : Event Thread Phase → Prop
  | .start _ phase => Allowed phase
  | .advance _ | .elapse _ => True

section Rule

variable {code : Code Shared Phase} {outline : Outline Shared Phase} {Allowed : Phase → Prop}
  {state next : Threads Thread Shared Phase}

theorem Outline.Holds.step (wellFormed : code.WellFormed) (valid : outline.Valid code Allowed)
    (holds : outline.Holds code state) {event : Event Thread Phase}
    (allowed : event.Allowed Allowed) (taken : code.step state event = some next) :
    outline.Holds code next := by
  have exclusive := holds.exclusive.step wellFormed taken
  cases event with
  | elapse duration =>
      cases taken
      obtain ⟨always, resource, phases⟩ := valid.elapses duration holds.always
      exact ⟨exclusive, always, fun free => resource (holds.resource free),
        fun thread => phases _ (holds.phases thread)⟩
  | start thread phase =>
      obtain ⟨starts, moved⟩ := Option.ite_none_right_eq_some.mp taken
      cases moved
      refine ⟨exclusive, holds.always, holds.resource, fun other => ?_⟩
      by_cases same : other = thread
      · subst same
        dsimp only
        rw [Function.update_self]
        exact valid.started holds.always starts allowed
      · dsimp only
        rw [Function.update_of_ne same]
        exact holds.phases other
  | advance thread =>
      obtain ⟨shared, after, stepped, free, rfl⟩ := step_advance taken
      have resource : code.takes (state.phase thread) = true → outline.Resource state.shared :=
        fun takes => holds.resource (free takes)
      obtain ⟨always, own, restored⟩ :=
        valid.moves stepped holds.always (holds.phases thread) resource
      refine ⟨exclusive, always, ?_, ?_⟩
      · intro released
        dsimp only [Code.ownerAfter] at released
        split at released
        · cases released
        · next given =>
            have given := Bool.eq_false_iff.mpr given
            split at released
            · next used => exact restored (Bool.or_eq_true_iff.mp used) given
            · next unused =>
                obtain ⟨takes, held⟩ := Bool.or_eq_false_iff.mp (Bool.eq_false_iff.mpr unused)
                exact valid.unlocked stepped holds.always (holds.phases thread) takes held
                  (holds.resource released)
      · intro other
        by_cases same : other = thread
        · subst same
          dsimp only
          rw [Function.update_self]
          exact own
        · dsimp only
          rw [Function.update_of_ne same]
          exact valid.survives stepped holds.always (holds.phases thread) resource
            (holds.phases other) (holds.exclusive.alone free same)

/-- A valid outline holds along every interleaving. -/
theorem Outline.Holds.run (wellFormed : code.WellFormed) (valid : outline.Valid code Allowed)
    {final : Threads Thread Shared Phase} {events : List (Event Thread Phase)}
    (holds : outline.Holds code state) (allowed : ∀ event ∈ events, event.Allowed Allowed)
    (reached : run? code.step state events = some final) : outline.Holds code final :=
  run?_invariant_along
    (fun _ _ _ holds good taken => Outline.Holds.step wellFormed valid holds good taken)
    holds (.of_forall allowed state) reached

end Rule

/-! ## A thread by itself -/

/-- Several steps of one thread, with nothing in between. -/
def Code.solo (code : Code Shared Phase) : Nat → Shared → Phase → Option (Shared × Phase)
  | 0, shared, phase => some (shared, phase)
  | count + 1, shared, phase =>
      match code.move shared phase with
      | none => none
      | some (next, after) => code.solo count next after

/-- A thread by itself gets to the goal within so many steps. -/
def Code.Reaches (code : Code Shared Phase) (bound : Nat) (Goal : Shared → Phase → Prop)
    (shared : Shared) (phase : Phase) : Prop :=
  ∃ count next after, count ≤ bound ∧ code.solo count shared phase = some (next, after) ∧
    Goal next after

section Reaches

variable {code : Code Shared Phase} {bound : Nat} {Goal : Shared → Phase → Prop}
  {shared next : Shared} {phase after : Phase}

theorem Code.Reaches.here (goal : Goal shared phase) : code.Reaches bound Goal shared phase :=
  ⟨0, shared, phase, Nat.zero_le bound, rfl, goal⟩

theorem Code.Reaches.step (moved : code.move shared phase = some (next, after))
    (later : code.Reaches bound Goal next after) : code.Reaches (bound + 1) Goal shared phase := by
  obtain ⟨count, final, last, le, solo, goal⟩ := later
  refine ⟨count + 1, final, last, Nat.succ_le_succ le, ?_, goal⟩
  rw [Code.solo, moved]
  exact solo

end Reaches

section Solo

variable {code : Code Shared Phase} {state : Threads Thread Shared Phase} {thread : Thread}

/-- A thread that owns the lock, or finds it free, can take its steps in a row. -/
theorem run?_solo (wellFormed : code.WellFormed) (exclusive : Exclusive code state)
    (available : state.owner = none ∨ state.owner = some thread) {count : Nat} {shared : Shared}
    {phase : Phase}
    (solo : code.solo count state.shared (state.phase thread) = some (shared, phase)) :
    run? code.step state (List.replicate count (.advance thread)) =
      some ⟨shared, if code.holds phase then some thread else none,
        Function.update state.phase thread phase⟩ := by
  induction count generalizing state with
  | zero =>
      cases solo
      have owner : state.owner = if code.holds (state.phase thread) then some thread else none := by
        rcases available with free | own
        · have outside := (exclusive thread).not.mpr (free ▸ (Option.some_ne_none thread).symm)
          rw [if_neg outside, free]
        · rw [if_pos ((exclusive thread).mpr own), own]
      rw [← owner, Function.update_eq_self]
      rfl
  | succ count ih =>
      unfold Code.solo at solo
      split at solo
      · cases solo
      · next next after moved =>
          have free : ¬ (code.takes (state.phase thread) && state.owner.isSome) = true := by
            rintro waits
            obtain ⟨takes, owned⟩ := Bool.and_eq_true_iff.mp waits
            rcases available with free | own
            · rw [free] at owned
              cases owned
            · have held := (exclusive thread).mpr own
              rw [wellFormed.takes takes] at held
              cases held
          have taken : code.step state (.advance thread) = some ⟨next,
              code.ownerAfter state.owner thread (state.phase thread) after,
              Function.update state.phase thread after⟩ := by
            rw [Code.step, if_neg free, moved]
            rfl
          have later := ih (exclusive.step wellFormed taken) ?_ ?_
          · rw [Function.update_idem] at later
            exact run?_cons_eq_some.mpr ⟨_, taken, later⟩
          · dsimp only [Code.ownerAfter]
            split
            · exact Or.inr rfl
            · split
              · exact Or.inl rfl
              · exact available
          · dsimp only
            rw [Function.update_self]
            exact solo

end Solo

end LockedThreads
