import Mathlib.Logic.Relation
import RpcFramework.Lib.StepRun

/-!
# Forward simulations

A concrete system is a partial step function, an abstract one a step relation.
If every concrete step from related states is matched by some abstract steps to
related states, then every run is matched by an abstract run, and what the
abstract steps keep holds at its end.
-/

namespace StepRun

open Relation

variable {State Event Abstract : Type}

/-- The steps that meet the condition are matched by zero or more abstract steps. -/
def Simulates (step : State → Event → Option State) (Good : State → Event → Prop)
    (Move : Abstract → Abstract → Prop) (R : State → Abstract → Prop) : Prop :=
  ∀ state event next abstract, R state abstract → Good state event →
    step state event = some next → ∃ after, ReflTransGen Move abstract after ∧ R next after

variable {step : State → Event → Option State} {Good : State → Event → Prop}
variable {Move : Abstract → Abstract → Prop} {R : State → Abstract → Prop}

theorem Simulates.run (simulates : Simulates step Good Move R) {state final : State}
    {events : List Event} {abstract : Abstract} (related : R state abstract)
    (good : Along step Good state events) (reached : run? step state events = some final) :
    ∃ after, ReflTransGen Move abstract after ∧ R final after := by
  induction events generalizing state abstract with
  | nil =>
      cases reached
      exact ⟨abstract, .refl, related⟩
  | cons event rest ih =>
      obtain ⟨next, taken, tail⟩ := run?_cons_eq_some.mp reached
      obtain ⟨middle, first, relatedNext⟩ :=
        simulates state event next abstract related good.1 taken
      obtain ⟨after, later, relatedFinal⟩ := ih relatedNext (good.2 next taken) tail
      exact ⟨after, first.trans later, relatedFinal⟩

/-- What every abstract step keeps, every abstract run keeps. -/
theorem moves_invariant {Inv : Abstract → Prop}
    (kept : ∀ before after, Inv before → Move before after → Inv after)
    {start final : Abstract} (inv : Inv start) (moves : ReflTransGen Move start final) :
    Inv final := by
  induction moves with
  | refl => exact inv
  | tail _ last ih => exact kept _ _ ih last

end StepRun
