import Mathlib.Data.List.Basic

/-!
# Shift registers

A register takes symbols one after another.  Each step moves its contents by one
place and mixes in the symbol that leaves together with the new one.  If a step
can be traced back, then a change of at most as many consecutive symbols as the
register has places never goes unnoticed: the first changed symbol is still in the
register when the last one has been taken, and from there on no step can undo it.
-/

namespace ShiftRegister

/-- A register with `places` places.  States that `Agree` but for `k` places differ
at most in the `k` places that leave next. -/
structure Register (State Symbol : Type) where
  step : State → Symbol → State
  places : Nat
  Agree : Nat → State → State → Prop
  agree_of_eq : ∀ s, Agree 0 s s
  agree_back : ∀ k s t a b, k < places → Agree k (step s a) (step t b) → Agree (k + 1) s t
  symbol_eq : ∀ k s a b, k < places → Agree k (step s a) (step s b) → a = b
  state_eq : ∀ s t a, step s a = step t a → s = t

variable {State Symbol : Type} (r : Register State Symbol)

def run (s : State) (symbols : List Symbol) : State := symbols.foldl r.step s

theorem run_append (s : State) (first second : List Symbol) :
    run r s (first ++ second) = run r (run r s first) second :=
  List.foldl_append

/-- Different states stay different while the same symbols are taken. -/
theorem run_injective {s t : State} {symbols : List Symbol}
    (same : run r s symbols = run r t symbols) : s = t := by
  induction symbols generalizing s t with
  | nil => exact same
  | cons a symbols ih => exact r.state_eq s t a (ih same)

/-- States that agree after some symbols agreed before but for as many more places. -/
theorem agree_of_run {k : Nat} {s t : State} {first second : List Symbol}
    (sameLength : first.length = second.length) (enough : k + first.length ≤ r.places)
    (agree : r.Agree k (run r s first) (run r t second)) : r.Agree (k + first.length) s t := by
  induction first generalizing s t second with
  | nil =>
      cases second with
      | nil => exact agree
      | cons b second => cases sameLength
  | cons a first ih =>
      cases second with
      | nil => cases sameLength
      | cons b second =>
          rw [List.length_cons, ← Nat.add_assoc] at enough ⊢
          have next := ih (Nat.succ.inj sameLength) (Nat.le_of_succ_le enough) agree
          exact r.agree_back _ s t a b enough next

/-- At most as many symbols as there are places can be told from the state behind them. -/
theorem symbols_of_run {s : State} {first second : List Symbol}
    (sameLength : first.length = second.length) (few : first.length ≤ r.places)
    (same : run r s first = run r s second) : first = second := by
  induction first generalizing s second with
  | nil => exact (List.eq_nil_of_length_eq_zero sameLength.symm).symm
  | cons a first ih =>
      cases second with
      | nil => cases sameLength
      | cons b second =>
          have shorter := Nat.succ.inj sameLength
          have agree : r.Agree 0 (run r (r.step s a) first) (run r (r.step s b) second) := by
            rw [show run r (r.step s a) first = run r (r.step s b) second from same]
            exact r.agree_of_eq _
          have traced := agree_of_run r shorter (Nat.zero_add _ ▸ Nat.le_of_succ_le few) agree
          have head : a = b := r.symbol_eq _ s a b (Nat.zero_add _ ▸ few) traced
          subst head
          rw [ih shorter (Nat.le_of_succ_le few) same]

/-- A change within a window of at most `places` symbols changes the final state. -/
theorem eq_of_run_of_window {s : State} {first second : List Symbol} {start width : Nat}
    (sameLength : first.length = second.length) (narrow : width ≤ r.places)
    (outside : ∀ i, i < start ∨ start + width ≤ i → first[i]? = second[i]?)
    (same : run r s first = run r s second) : first = second := by
  have before : first.take start = second.take start := by
    apply List.ext_getElem?
    intro i
    by_cases inside : i < start
    · rw [List.getElem?_take_of_lt inside, List.getElem?_take_of_lt inside,
        outside i (Or.inl inside)]
    · rw [List.getElem?_take_eq_none (Nat.le_of_not_lt inside),
        List.getElem?_take_eq_none (Nat.le_of_not_lt inside)]
  have behind : (first.drop start).drop width = (second.drop start).drop width := by
    apply List.ext_getElem?
    intro i
    rw [List.drop_drop, List.drop_drop, List.getElem?_drop, List.getElem?_drop,
      outside _ (Or.inr (Nat.le_add_right _ i))]
  have cut : ∀ symbols : List Symbol, symbols = symbols.take start ++
      ((symbols.drop start).take width ++ (symbols.drop start).drop width) := by
    intro symbols
    rw [List.take_append_drop, List.take_append_drop]
  rw [cut first, cut second, before, behind, run_append, run_append, run_append, run_append]
    at same
  have window := symbols_of_run r (by simp only [List.length_take, List.length_drop, sameLength])
    (Nat.le_trans (List.length_take_le _ _) narrow) (run_injective r same)
  rw [cut first, cut second, before, behind, window]

end ShiftRegister
