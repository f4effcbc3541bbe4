import Mathlib.Logic.Function.Basic

/-!
# Two tables that mirror each other

One table says for a key which partner it points to, the other says for a
partner which key it points to.  The first mirrors the second if every pointer
of the first is answered by one of the second.  Setting or clearing a pair on
both sides keeps this; clearing only the answer of a pointer breaks it.
-/

namespace PointerTables

variable {α β : Type}

/-- Every pointer of `f` is answered by `g`. -/
def Mirrors (f : α → Option β) (g : β → Option α) : Prop :=
  ∀ a b, f a = some b → g b = some a

variable {f : α → Option β} {g : β → Option α} {a : α} {b : β} [DecidableEq β]

/-- A pointer whose answer has been cleared. -/
theorem not_mirrors_of_cleared (points : f a = some b) :
    ¬ Mirrors f (Function.update g b none) := by
  intro mirrors
  have answered := mirrors a b points
  rw [Function.update_self] at answered
  cases answered

variable [DecidableEq α]

omit [DecidableEq β] in
/-- Clearing a pointer. -/
theorem Mirrors.clear (mirrors : Mirrors f g) (a : α) : Mirrors (Function.update f a none) g := by
  intro x y points
  by_cases same : x = a
  · rw [same, Function.update_self] at points
    cases points
  · rw [Function.update_of_ne same] at points
    exact mirrors x y points

/-- Pairing a key and a partner that point nowhere. -/
theorem mirrors_link (free : f a = none) (unbound : g b = none) :
    Mirrors (Function.update f a (some b)) (Function.update g b (some a)) ↔ Mirrors f g := by
  constructor
  · intro mirrors x y points
    have differs : x ≠ a := by
      rintro rfl
      rw [free] at points
      cases points
    have answered := mirrors x y (by rw [Function.update_of_ne differs, points])
    by_cases same : y = b
    · rw [same, Function.update_self] at answered
      exact absurd (Option.some.inj answered).symm differs
    · rwa [Function.update_of_ne same] at answered
  · intro mirrors x y points
    by_cases same : x = a
    · rw [same, Function.update_self] at points
      cases points
      rw [Function.update_self, same]
    · rw [Function.update_of_ne same] at points
      have answered := mirrors x y points
      have differs : y ≠ b := by
        rintro rfl
        rw [unbound] at answered
        cases answered
      rw [Function.update_of_ne differs, answered]

/-- Clearing a pair on both sides. -/
theorem mirrors_unlink (points : f a = some b) (answered : g b = some a) :
    Mirrors (Function.update f a none) (Function.update g b none) ↔ Mirrors f g := by
  have link := mirrors_link (f := Function.update f a none) (g := Function.update g b none)
    (a := a) (b := b) (Function.update_self ..) (Function.update_self ..)
  rw [Function.update_idem, Function.update_idem, ← points, ← answered, Function.update_eq_self,
    Function.update_eq_self] at link
  rw [link]

end PointerTables
