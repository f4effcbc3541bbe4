import Mathlib.Data.List.MinMax
import Mathlib.Data.List.Perm.Basic

/-!
# Draining a priority queue

A priority queue is the list of its items; an item may be popped when no other item has
a smaller key, so the order among items with equal keys is left open.  To drain a queue
is to pop items as long as the smallest key is at most a limit.  What has been popped
and what is left make up the queue.
-/

namespace PriorityQueue

variable {α κ : Type} [LinearOrder κ] {key : α → κ}

/-- No item of the queue has a smaller key. -/
def IsTop (key : α → κ) (item : α) (items : List α) : Prop :=
  item ∈ items ∧ ∀ other ∈ items, key item ≤ key other

/-- A queue that is not empty has an item on top. -/
theorem exists_top {items : List α} {item : α}
    (member : item ∈ items) : ∃ top, IsTop key top items := by
  have some_item : items.argmin key ≠ none := by
    rw [ne_eq, List.argmin_eq_none]
    exact List.ne_nil_of_mem member
  obtain ⟨top, found⟩ := Option.ne_none_iff_exists'.mp some_item
  exact ⟨top, List.argmin_mem found, fun other among => List.le_of_mem_argmin among found⟩

variable [DecidableEq α]

instance (item : α) (items : List α) : Decidable (IsTop key item items) :=
  inferInstanceAs (Decidable (_ ∧ _))

/-- Pop the items in the given order; nothing when one of them is not on top or not due,
or when an item that is due stays behind. -/
def drain? (key : α → κ) (limit : κ) : List α → List α → Option (List α)
  | [], items => if ∀ item ∈ items, limit < key item then some items else none
  | top :: order, items =>
      if IsTop key top items ∧ key top ≤ limit then drain? key limit order (items.erase top)
      else none

section Rules

variable {limit : κ} {order items left : List α}

/-- Popping and keeping split the queue. -/
theorem drain?_perm (drained : drain? key limit order items = some left) :
    items.Perm (order ++ left) := by
  induction order generalizing items with
  | nil =>
      rw [drain?, Option.ite_none_right_eq_some] at drained
      cases drained.2
      exact .refl _
  | cons top order ih =>
      rw [drain?, Option.ite_none_right_eq_some] at drained
      obtain ⟨⟨⟨member, _⟩, _⟩, rest⟩ := drained
      exact (List.perm_cons_erase member).trans ((ih rest).cons top)

/-- What has been popped was due. -/
theorem drain?_due (drained : drain? key limit order items = some left) {item : α}
    (member : item ∈ order) : key item ≤ limit := by
  induction order generalizing items with
  | nil => cases member
  | cons top order ih =>
      rw [drain?, Option.ite_none_right_eq_some] at drained
      obtain ⟨⟨_, due⟩, rest⟩ := drained
      rcases List.mem_cons.mp member with rfl | later
      · exact due
      · exact ih rest later

/-- The items are popped in the order of their keys. -/
theorem drain?_sorted (drained : drain? key limit order items = some left) :
    order.Pairwise fun first second => key first ≤ key second := by
  induction order generalizing items with
  | nil => exact .nil
  | cons top order ih =>
      rw [drain?, Option.ite_none_right_eq_some] at drained
      obtain ⟨⟨⟨member, least⟩, _⟩, rest⟩ := drained
      refine .cons ?_ (ih rest)
      intro later among
      have inside := (drain?_perm rest).mem_iff.mpr (List.mem_append_left _ among)
      exact least later (List.mem_of_mem_erase inside)

/-- What is left is not due. -/
theorem drain?_left (drained : drain? key limit order items = some left) {item : α}
    (member : item ∈ left) : limit < key item := by
  induction order generalizing items with
  | nil =>
      rw [drain?, Option.ite_none_right_eq_some] at drained
      cases drained.2
      exact drained.1 item member
  | cons top order ih =>
      rw [drain?, Option.ite_none_right_eq_some] at drained
      exact ih drained.2

/-- Every queue can be drained. -/
theorem exists_drain (key : α → κ) (limit : κ) (items : List α) :
    ∃ order left, drain? key limit order items = some left := by
  -- by induction on the number of items, since every pop removes one
  induction size : items.length generalizing items with
  | zero =>
      rw [List.length_eq_zero_iff.mp size]
      exact ⟨[], [], if_pos (List.forall_mem_nil _)⟩
  | succ count ih =>
      by_cases settled : ∀ item ∈ items, limit < key item
      · exact ⟨[], items, if_pos settled⟩
      · obtain ⟨item, member, due⟩ : ∃ item ∈ items, ¬ limit < key item := by
          simpa only [not_forall, exists_prop] using settled
        obtain ⟨top, inside, least⟩ := @exists_top α κ _ key items item member
        have shorter : (items.erase top).length = count := by
          rw [List.length_erase_of_mem inside, size]
          rfl
        obtain ⟨order, left, drained⟩ := ih (items.erase top) shorter
        refine ⟨top :: order, left, ?_⟩
        rw [drain?, if_pos ⟨⟨inside, least⟩, (least item member).trans (not_lt.mp due)⟩, drained]

end Rules

end PriorityQueue
