import Mathlib.Algebra.Group.Nat.Defs
import Mathlib.Data.List.TakeDrop

/-!
# Guarded reads and sums

A guarded computation stops at the first fault: a sum of sizes that does not fit the
machine word, or a read that leaves the region it is made in.  A computation that gives
a value has made no such sum and no such read, so code is free of both when its guarded
form gives a value on every input.  The rules below say when a guarded operation gives
the value of the plain one.
-/

namespace Guarded

inductive Fault where
  | outOfBounds
  | wraps
  deriving DecidableEq, Repr

/-- The sum of two sizes in a machine word. -/
def add (width first second : Nat) : Except Fault Nat :=
  if first + second < 2 ^ width then .ok (first + second) else .error .wraps

/-- The memory behind a pointer, of which only the first `size` items may be read. -/
structure Region (α : Type) where
  memory : List α
  size : Nat
  size_le : size ≤ memory.length

variable {α σ : Type}

namespace Region

/-- Read the items at an offset. -/
def read (region : Region α) (pos len : Nat) : Except Fault (List α) :=
  if pos + len ≤ region.size then .ok ((region.memory.drop pos).take len)
  else .error .outOfBounds

/-- Read one item. -/
def item (region : Region α) (pos : Nat) : Except Fault α :=
  if inside : pos < region.size then
    .ok (region.memory.get ⟨pos, Nat.lt_of_lt_of_le inside region.size_le⟩)
  else .error .outOfBounds

/-- The part of a region that is handed to a reader of its own. -/
def part (region : Region α) (start size : Nat) : Except Fault (Region α) :=
  if inside : start + size ≤ region.size then
    .ok ⟨region.memory.drop start, size, by
      have whole := region.size_le
      rw [List.length_drop]
      omega⟩
  else .error .outOfBounds

/-- A loop over the items from an offset on. -/
def foldFrom (region : Region α) (width : Nat) (step : σ → α → σ) :
    Nat → Nat → σ → Except Fault σ
  | 0, _, state => .ok state
  | count + 1, pos, state => do
      let item ← region.item pos
      let next ← add width pos 1
      foldFrom region width step count next (step state item)

end Region

/-! ## Rules -/

section Rules

variable {region : Region α} {width first second pos len count : Nat}

theorem ok_bind {β γ : Type} (value : β) (next : β → Except Fault γ) :
    (Except.ok value >>= next) = next value :=
  rfl

theorem add_eq (fits : first + second < 2 ^ width) :
    add width first second = .ok (first + second) :=
  if_pos fits

theorem Region.read_eq (inside : pos + len ≤ region.size) :
    region.read pos len = .ok ((region.memory.drop pos).take len) :=
  if_pos inside

theorem Region.item_eq (inside : pos < region.size) (fallback : α) :
    region.item pos = .ok (region.memory.getD pos fallback) := by
  have bound : pos < region.memory.length := Nat.lt_of_lt_of_le inside region.size_le
  rw [item, dif_pos inside, List.getD_eq_getElem?_getD, List.getElem?_eq_getElem bound,
    Option.getD_some, List.get_eq_getElem]

theorem Region.foldFrom_eq (step : σ → α → σ) (inside : pos + count ≤ region.size)
    (fits : pos + count < 2 ^ width) (state : σ) :
    region.foldFrom width step count pos state =
      .ok (((region.memory.drop pos).take count).foldl step state) := by
  induction count generalizing pos state with
  | zero => rfl
  | succ count ih =>
      have bound : pos < region.memory.length :=
        Nat.lt_of_lt_of_le (by omega) region.size_le
      rw [foldFrom, item, dif_pos (by omega), ok_bind, add_eq (by omega), ok_bind,
        ih (by omega) (by omega), List.drop_eq_getElem_cons bound, List.take_succ_cons,
        List.foldl_cons, List.get_eq_getElem]

end Rules

end Guarded
