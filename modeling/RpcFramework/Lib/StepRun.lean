import Mathlib.Logic.Basic

/-!
# Runs of partial step functions

A system is a partial step function: an event that the current state does not
allow is refused.  A run is the list of its events.  The rules below derive
facts about whole runs from facts about one step: an invariant that every step
keeps, an invariant that is kept only by the steps meeting a condition, and a
state predicate that a step destroys exactly when it misses the condition, for
good or until a later step restores it.  The last rule finds a run: where some
step always brings a measure down, a goal is reached.
-/

namespace StepRun

variable {State Event : Type}

/-- Replay the events one by one; a refused event refuses the whole run. -/
def run? (step : State → Event → Option State) : State → List Event → Option State
  | state, [] => some state
  | state, event :: rest =>
      match step state event with
      | none => none
      | some next => run? step next rest

/-- Every step that the run takes meets the condition in the state it starts from. -/
def Along (step : State → Event → Option State) (Good : State → Event → Prop) :
    State → List Event → Prop
  | _, [] => True
  | state, event :: rest =>
      Good state event ∧ ∀ next, step state event = some next → Along step Good next rest

section Rules

variable {step : State → Event → Option State}

theorem run?_cons_eq_some {state final : State} {event : Event} {rest : List Event} :
    run? step state (event :: rest) = some final ↔
      ∃ next, step state event = some next ∧ run? step next rest = some final := by
  cases taken : step state event with
  | none => simp [run?, taken]
  | some next => simp [run?, taken]

theorem run?_append {state middle final : State} {first rest : List Event}
    (reached : run? step state first = some middle) (tail : run? step middle rest = some final) :
    run? step state (first ++ rest) = some final := by
  induction first generalizing state with
  | nil =>
      cases reached
      exact tail
  | cons event first ih =>
      obtain ⟨next, taken, later⟩ := run?_cons_eq_some.mp reached
      exact run?_cons_eq_some.mpr ⟨next, taken, ih later⟩

/-- A run that is not refused is settled by evaluating it. -/
theorem run?_eq_some_getD {state fallback : State} {events : List Event}
    (taken : (run? step state events).isSome = true) :
    run? step state events = some ((run? step state events).getD fallback) :=
  (Option.getD_of_ne_none (Option.isSome_iff_ne_none.mp taken) fallback).symm

theorem Along.cons {Good : State → Event → Prop} {state next : State} {event : Event}
    {rest : List Event} (good : Good state event) (taken : step state event = some next)
    (later : Along step Good next rest) : Along step Good state (event :: rest) := by
  refine ⟨good, ?_⟩
  intro other also
  cases also.symm.trans taken
  exact later

/-- A condition on the events alone. -/
theorem Along.of_forall {Good : Event → Prop} {events : List Event}
    (good : ∀ event ∈ events, Good event) (state : State) :
    Along step (fun _ event => Good event) state events := by
  induction events generalizing state with
  | nil => trivial
  | cons event rest ih =>
      refine ⟨good event (List.mem_cons_self ..), fun next _ => ?_⟩
      exact ih (fun other member => good other (List.mem_cons_of_mem _ member)) next

/-- The condition holds where a run over a first part ends. -/
theorem Along.good_at {Good : State → Event → Prop} {state middle : State} {event : Event}
    {first rest : List Event} (good : Along step Good state (first ++ event :: rest))
    (reached : run? step state first = some middle) : Good middle event := by
  induction first generalizing state with
  | nil =>
      cases reached
      exact good.1
  | cons earlier others ih =>
      obtain ⟨next, taken, tail⟩ := run?_cons_eq_some.mp reached
      exact ih (good.2 next taken) tail

/-- What every step keeps, every run keeps. -/
theorem run?_invariant {Inv : State → Prop}
    (kept : ∀ state event next, Inv state → step state event = some next → Inv next)
    {state final : State} {events : List Event}
    (start : Inv state) (reached : run? step state events = some final) : Inv final := by
  induction events generalizing state with
  | nil =>
      cases reached
      exact start
  | cons event rest ih =>
      obtain ⟨next, taken, tail⟩ := run?_cons_eq_some.mp reached
      exact ih (kept state event next start taken) tail

/-- What every step meeting the condition keeps, every run of such steps keeps. -/
theorem run?_invariant_along {Inv : State → Prop} {Good : State → Event → Prop}
    (kept : ∀ state event next, Inv state → Good state event →
      step state event = some next → Inv next)
    {state final : State} {events : List Event}
    (start : Inv state) (good : Along step Good state events)
    (reached : run? step state events = some final) : Inv final := by
  induction events generalizing state with
  | nil =>
      cases reached
      exact start
  | cons event rest ih =>
      obtain ⟨next, taken, tail⟩ := run?_cons_eq_some.mp reached
      exact ih (kept state event next start good.1 taken) (good.2 next taken) tail

/-- A condition that keeps an invariant, and implies another one in its states,
implies the other one along every run. -/
theorem Along.imp_of_invariant {Inv : State → Prop} {Good Other : State → Event → Prop}
    (kept : ∀ state event next, Inv state → Good state event →
      step state event = some next → Inv next)
    (implied : ∀ state event, Inv state → Good state event → Other state event)
    {state : State} {events : List Event} (start : Inv state)
    (good : Along step Good state events) : Along step Other state events := by
  induction events generalizing state with
  | nil => trivial
  | cons event rest ih =>
      refine ⟨implied state event start good.1, ?_⟩
      intro next taken
      exact ih (kept state event next start good.1 taken) (good.2 next taken)

/-- Conditions that agree in the states of an invariant agree along a run. -/
theorem along_congr {Inv : State → Prop} {Good Other : State → Event → Prop}
    (kept : ∀ state event next, Inv state → step state event = some next → Inv next)
    (same : ∀ state event, Inv state → (Good state event ↔ Other state event))
    {state : State} (start : Inv state) (events : List Event) :
    Along step Good state events ↔ Along step Other state events := by
  induction events generalizing state with
  | nil => exact Iff.rfl
  | cons event rest ih =>
      apply and_congr (same state event start)
      exact forall₂_congr fun next taken => ih (kept state event next start taken)

/--
If the steps that meet the condition keep an invariant under which a state predicate
holds, and the other steps destroy the predicate, then it holds in every state that a
run goes through exactly when all the steps of the run meet the condition.
-/
theorem run?_always_iff_along {Inv Holds : State → Prop} {Good : State → Event → Prop}
    {Allowed : Event → Prop}
    (kept : ∀ state event next, Inv state → Allowed event → Good state event →
      step state event = some next → Inv next)
    (holds : ∀ state, Inv state → Holds state)
    (destroyed : ∀ state event next, Inv state → ¬ Good state event →
      step state event = some next → ¬ Holds next)
    {state final : State} {events : List Event} (start : Inv state)
    (allowed : ∀ event ∈ events, Allowed event) (reached : run? step state events = some final) :
    (∀ first rest middle, events = first ++ rest → run? step state first = some middle →
      Holds middle) ↔ Along step Good state events := by
  induction events generalizing state with
  | nil =>
      refine ⟨fun _ => trivial, ?_⟩
      intro _ first rest middle split part
      obtain ⟨rfl, rfl⟩ := List.append_eq_nil_iff.mp split.symm
      cases part
      exact holds state start
  | cons event rest ih =>
      obtain ⟨next, taken, tail⟩ := run?_cons_eq_some.mp reached
      have here := allowed event (List.mem_cons_self ..)
      have later : ∀ other ∈ rest, Allowed other := fun other member =>
        allowed other (List.mem_cons_of_mem _ member)
      constructor
      · intro always
        -- a step that misses the condition is seen in the next state
        have good : Good state event := by
          apply Classical.byContradiction
          intro missed
          refine destroyed state event next start missed taken ?_
          exact always [event] rest next rfl (run?_cons_eq_some.mpr ⟨next, taken, rfl⟩)
        refine .cons good taken ((ih (kept state event next start here good taken) later tail).mp ?_)
        intro first others middle split part
        exact always (event :: first) others middle (congrArg (event :: ·) split)
          (run?_cons_eq_some.mpr ⟨next, taken, part⟩)
      · rintro ⟨good, along⟩ first others middle split part
        cases first with
        | nil =>
            cases part
            exact holds state start
        | cons other first =>
            obtain ⟨rfl, rest_eq⟩ := List.cons.inj split
            obtain ⟨second, also, part⟩ := run?_cons_eq_some.mp part
            cases also.symm.trans taken
            exact (ih (kept state event next start here good taken) later tail).mpr
              (along next taken) first others middle rest_eq part

/--
If, from the states of an invariant, a step ends in `Holds` exactly when it
started there and met the condition, then a run ends in `Holds` exactly when
it started there and all its steps met the condition.
-/
theorem run?_exact_along {Inv Holds : State → Prop} {Good : State → Event → Prop}
    (kept : ∀ state event next, Inv state → step state event = some next → Inv next)
    (exact_step : ∀ state event next, Inv state → step state event = some next →
      (Holds next ↔ Holds state ∧ Good state event))
    {state final : State} {events : List Event}
    (start : Inv state) (reached : run? step state events = some final) :
    Holds final ↔ Holds state ∧ Along step Good state events := by
  induction events generalizing state with
  | nil =>
      cases reached
      simp [Along]
  | cons event rest ih =>
      obtain ⟨next, taken, tail⟩ := run?_cons_eq_some.mp reached
      rw [ih (kept state event next start taken) tail,
        exact_step state event next start taken, and_assoc]
      constructor
      · rintro ⟨holds, good, later⟩
        exact ⟨holds, .cons good taken later⟩
      · rintro ⟨holds, good, later⟩
        exact ⟨holds, good, later next taken⟩

/-- A run whose steps all make something smaller is no longer than that was large. -/
theorem run?_length_le {Inv : State → Prop} {Good : Event → Prop} (measure : State → Nat)
    (smaller : ∀ state event next, Inv state → Good event → step state event = some next →
      Inv next ∧ measure next < measure state)
    {state final : State} {events : List Event} (start : Inv state)
    (good : ∀ event ∈ events, Good event) (reached : run? step state events = some final) :
    events.length ≤ measure state := by
  induction events generalizing state with
  | nil => exact Nat.zero_le _
  | cons event rest ih =>
      obtain ⟨next, taken, tail⟩ := run?_cons_eq_some.mp reached
      obtain ⟨here, later⟩ := List.forall_mem_cons.mp good
      obtain ⟨inv, less⟩ := smaller state event next start here taken
      exact Nat.lt_of_le_of_lt (ih inv later tail) less

/-- If some good event decreases the measure wherever the goal is missed, good events
reach the goal. -/
theorem exists_good_run_to {Inv Goal : State → Prop} {Good : Event → Prop} {Size : Type}
    [smaller : WellFoundedRelation Size] (measure : State → Size)
    (progress : ∀ state, Inv state → Goal state ∨ ∃ event next, Good event ∧
      step state event = some next ∧ Inv next ∧ smaller.rel (measure next) (measure state))
    {state : State} (start : Inv state) :
    ∃ events final, (∀ event ∈ events, Good event) ∧ run? step state events = some final ∧
      Inv final ∧ Goal final := by
  induction size : measure state using smaller.wf.induction generalizing state with
  | _ bound ih =>
      rcases progress state start with goal | ⟨event, next, good, taken, kept, less⟩
      · exact ⟨[], state, fun _ impossible => absurd impossible List.not_mem_nil, rfl, start, goal⟩
      · obtain ⟨events, final, later, reached, inv, goal⟩ := ih (measure next) (size ▸ less) kept rfl
        exact ⟨event :: events, final, List.forall_mem_cons.mpr ⟨good, later⟩,
          run?_cons_eq_some.mpr ⟨next, taken, reached⟩, inv, goal⟩

/-- If some step decreases the measure wherever the goal is missed, a run reaches the goal. -/
theorem exists_run_to {Inv Goal : State → Prop} (measure : State → Nat)
    (progress : ∀ state, Inv state → Goal state ∨
      ∃ event next, step state event = some next ∧ Inv next ∧ measure next < measure state)
    {state : State} (start : Inv state) :
    ∃ events final, run? step state events = some final ∧ Goal final := by
  have always : ∀ state, Inv state → Goal state ∨ ∃ event next, True ∧
      step state event = some next ∧ Inv next ∧ measure next < measure state := by
    intro state inv
    rcases progress state inv with goal | ⟨event, next, moved⟩
    · exact Or.inl goal
    · exact Or.inr ⟨event, next, trivial, moved⟩
  obtain ⟨events, final, _, reached, _, goal⟩ := exists_good_run_to measure always start
  exact ⟨events, final, reached, goal⟩

end Rules

end StepRun
