import Mathlib.Algebra.Order.Field.Basic
import Mathlib.Tactic.Linarith

/-!
# Token buckets

A bucket holds tokens up to a capacity.  An income is added before each attempt to
take one token.  What is taken comes out of the initial tokens and the incomes; and
a bucket with room for a token gives one as soon as enough has come in.  An income
may also come in several parts: what flows over at one of them would flow over at
the next one.
-/

namespace RpcFramework.Bucket

variable {K : Type} [Field K] [LinearOrder K]

def refill (capacity tokens income : K) : K := min capacity (tokens + income)

/-- Take one token if there is one: how many were taken, and what is left. -/
def take (tokens : K) : Nat × K := if 1 ≤ tokens then (1, tokens - 1) else (0, tokens)

/-- How many tokens are taken when an attempt follows each income. -/
def granted (capacity : K) : K → List K → Nat
  | _, [] => 0
  | tokens, income :: incomes =>
      let taken := take (refill capacity tokens income)
      taken.1 + granted capacity taken.2 incomes

theorem refill_le (capacity tokens income : K) : refill capacity tokens income ≤ tokens + income :=
  min_le_right _ _

theorem refill_le_capacity (capacity tokens income : K) : refill capacity tokens income ≤ capacity :=
  min_le_left _ _

/-- Below the capacity nothing of the income is lost. -/
theorem refill_of_lt {capacity tokens income : K}
    (below : refill capacity tokens income < capacity) :
    refill capacity tokens income = tokens + income :=
  (min_lt_iff.mp below).elim (fun self => absurd self (lt_irrefl _)) fun less =>
    min_eq_right less.le

theorem refill_zero {capacity tokens : K} (within : tokens ≤ capacity) :
    refill capacity tokens 0 = tokens := by
  rw [refill, add_zero, min_eq_right within]

theorem take_of_le {tokens : K} (enough : 1 ≤ tokens) : take tokens = (1, tokens - 1) :=
  if_pos enough

theorem take_of_lt {tokens : K} (short : tokens < 1) : take tokens = (0, tokens) :=
  if_neg (not_le.mpr short)

/-- What is taken and what is left make up the tokens. -/
theorem take_balance (tokens : K) : ((take tokens).1 : K) + (take tokens).2 = tokens := by
  unfold take
  split
  · rw [Nat.cast_one, add_sub_cancel]
  · rw [Nat.cast_zero, zero_add]

theorem granted_pos {capacity tokens : K} {incomes : List K} (room : 1 ≤ capacity)
    (short : tokens < 1) (enough : 1 ≤ tokens + incomes.sum) :
    0 < granted capacity tokens incomes := by
  induction incomes generalizing tokens with
  | nil =>
      rw [List.sum_nil, add_zero] at enough
      exact absurd short (not_lt.mpr enough)
  | cons income incomes ih =>
      unfold granted take
      dsimp only
      split
      · exact Nat.add_pos_left Nat.one_pos _
      · next none =>
          have short := not_le.mp none
          have kept := refill_of_lt (short.trans_le room)
          rw [Nat.zero_add]
          refine ih short ?_
          rwa [kept, add_assoc, ← List.sum_cons]

variable [IsStrictOrderedRing K]

/-- Tokens above the capacity would flow over at the next income anyway. -/
theorem refill_min {capacity tokens income : K} (incomeNonneg : 0 ≤ income) :
    refill capacity (min capacity tokens) income = refill capacity tokens income := by
  rw [refill, refill, ← min_add_add_right, ← min_assoc,
    min_eq_left (le_add_of_nonneg_right incomeNonneg)]

/-- An income in two parts. -/
theorem refill_refill {capacity tokens income later : K} (laterNonneg : 0 ≤ later) :
    refill capacity (refill capacity tokens income) later =
      refill capacity tokens (income + later) := by
  rw [refill.eq_1 capacity tokens income, refill_min laterNonneg, refill, refill, add_assoc]

theorem refill_nonneg {capacity tokens income : K} (capacityNonneg : 0 ≤ capacity)
    (tokensNonneg : 0 ≤ tokens) (incomeNonneg : 0 ≤ income) :
    0 ≤ refill capacity tokens income :=
  le_min capacityNonneg (add_nonneg tokensNonneg incomeNonneg)

theorem take_nonneg {tokens : K} (nonneg : 0 ≤ tokens) : 0 ≤ (take tokens).2 := by
  unfold take
  split
  · next enough => exact sub_nonneg.mpr enough
  · exact nonneg

theorem granted_le {capacity tokens : K} {incomes : List K} (capacityNonneg : 0 ≤ capacity)
    (tokensNonneg : 0 ≤ tokens) (incomesNonneg : ∀ income ∈ incomes, 0 ≤ income) :
    (granted capacity tokens incomes : K) ≤ tokens + incomes.sum := by
  induction incomes generalizing tokens with
  | nil => rwa [granted, Nat.cast_zero, List.sum_nil, add_zero]
  | cons income incomes ih =>
      have incomeNonneg : 0 ≤ income := incomesNonneg income List.mem_cons_self
      have filled := refill_le capacity tokens income
      have balance := take_balance (refill capacity tokens income)
      have later := ih (take_nonneg (refill_nonneg capacityNonneg tokensNonneg incomeNonneg))
        fun later member => incomesNonneg later (List.mem_cons_of_mem _ member)
      rw [granted, Nat.cast_add, List.sum_cons]
      linarith

end RpcFramework.Bucket
