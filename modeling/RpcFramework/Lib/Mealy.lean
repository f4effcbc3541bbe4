import Mathlib.Data.List.Basic

/-!
# Machines that answer their inputs

A step takes an input and gives an output and the next state.  The rules below derive
facts about whole runs from facts about one step.  Their invariants may look at the
inputs that are still to come, since an input sequence is often only allowed as a
whole.  Two machines on the same inputs are compared by a relation of this kind.
-/

namespace Mealy

variable {State Other Input Output : Type}

/-- The state after the inputs. -/
def run (step : State → Input → Output × State) (state : State) (inputs : List Input) : State :=
  inputs.foldl (fun state input => (step state input).2) state

def outputs (step : State → Input → Output × State) : State → List Input → List Output
  | _, [] => []
  | state, input :: rest => (step state input).1 :: outputs step (step state input).2 rest

section Rules

variable {step : State → Input → Output × State}

theorem run_append (state : State) (first rest : List Input) :
    run step state (first ++ rest) = run step (run step state first) rest :=
  List.foldl_append

theorem length_outputs (state : State) (inputs : List Input) :
    (outputs step state inputs).length = inputs.length := by
  induction inputs generalizing state with
  | nil => rfl
  | cons input rest ih => rw [outputs, List.length_cons, List.length_cons, ih]

theorem outputs_append (state : State) (first rest : List Input) :
    outputs step state (first ++ rest) =
      outputs step state first ++ outputs step (run step state first) rest := by
  induction first generalizing state with
  | nil => rfl
  | cons input first ih =>
      rw [List.cons_append, outputs, outputs, ih, List.cons_append]
      rfl

/-- What every step keeps holds after any first part of the inputs. -/
theorem run_invariant {Inv : State → List Input → Prop}
    (kept : ∀ state input rest, Inv state (input :: rest) → Inv (step state input).2 rest)
    {state : State} {first rest : List Input} (start : Inv state (first ++ rest)) :
    Inv (run step state first) rest := by
  induction first generalizing state with
  | nil => exact start
  | cons input first ih => exact ih (kept state input (first ++ rest) start)

end Rules

section Outputs

variable {step : State → Input → Output × State} {other : Other → Input → Output × Other}

/-- Machines that are related and answer alike at each step answer alike. -/
theorem outputs_eq {Rel : State → Other → List Input → Prop}
    (alike : ∀ state twin input rest, Rel state twin (input :: rest) →
      (step state input).1 = (other twin input).1 ∧
        Rel (step state input).2 (other twin input).2 rest)
    {state : State} {twin : Other} {inputs : List Input} (start : Rel state twin inputs) :
    outputs step state inputs = outputs other twin inputs := by
  induction inputs generalizing state twin with
  | nil => rfl
  | cons input rest ih =>
      obtain ⟨same, next⟩ := alike state twin input rest start
      rw [outputs, outputs, same, ih next]

/-- Machines that answer alike answer each single input alike. -/
theorem output_eq {state : State} {twin : Other} {first rest : List Input} {input : Input}
    (same : outputs step state (first ++ input :: rest) =
      outputs other twin (first ++ input :: rest)) :
    (step (run step state first) input).1 = (other (run other twin first) input).1 := by
  rw [outputs_append, outputs_append] at same
  have lengths : (outputs step state first).length = (outputs other twin first).length := by
    rw [length_outputs, length_outputs]
  exact (List.cons.inj (List.append_inj_right same lengths)).1

end Outputs

end Mealy
