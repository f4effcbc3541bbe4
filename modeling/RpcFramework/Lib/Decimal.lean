import Mathlib.Data.Nat.Digits.Defs

/-!
# Decimal texts

Numbers as decimal digits, and texts that end in a separator and such digits.
-/

namespace RpcFramework.Decimal

/-- The decimal digits of a number. -/
def decimal (n : Nat) : List UInt8 :=
  if n = 0 then [0x30] else (Nat.digits 10 n).reverse.map fun digit => 0x30 + UInt8.ofNat digit

/-- Read decimal digits. -/
def ofDecimal (digits : List UInt8) : Nat :=
  Nat.ofDigits 10 (digits.reverse.map fun digit => (digit - 0x30).toNat)

def isDigit (byte : UInt8) : Bool := 0x30 ≤ byte && byte ≤ 0x39

theorem isDigit_of_mem_decimal {n : Nat} {byte : UInt8} (member : byte ∈ decimal n) :
    isDigit byte = true := by
  have every : ∀ digit < 10, isDigit (0x30 + UInt8.ofNat digit) = true := by decide
  unfold decimal at member
  split at member
  · cases List.mem_singleton.mp member
    rfl
  · obtain ⟨digit, listed, rfl⟩ := List.mem_map.mp member
    exact every digit (Nat.digits_lt_base (by decide) (List.mem_reverse.mp listed))

theorem ofDecimal_decimal (n : Nat) : ofDecimal (decimal n) = n := by
  have value : ∀ digit < 10, (0x30 + UInt8.ofNat digit - 0x30 : UInt8).toNat = digit := by decide
  unfold decimal ofDecimal
  split
  · next zero => exact zero.symm
  · have digits : ((Nat.digits 10 n).map fun digit => (0x30 + UInt8.ofNat digit - 0x30).toNat) =
        (Nat.digits 10 n).map id := by
      apply List.map_congr_left
      intro digit listed
      exact value digit (Nat.digits_lt_base (by decide) listed)
    rw [← List.map_reverse, List.reverse_reverse, List.map_map]
    exact (congrArg (Nat.ofDigits 10) (digits.trans (List.map_id _))).trans
      (Nat.ofDigits_digits 10 n)

theorem decimal_ne_nil (n : Nat) : decimal n ≠ [] := by
  intro none
  have zero := ofDecimal_decimal n
  rw [none] at zero
  subst zero
  cases none

/-- What stands behind the last separator tells where the front ends. -/
theorem append_separator_injective {α : Type} {separator : α} {front other back otherBack : List α}
    (plain : separator ∉ back) (also : separator ∉ otherBack)
    (same : front ++ separator :: back = other ++ separator :: otherBack) :
    front = other ∧ back = otherBack := by
  rcases List.append_eq_append_iff.mp same with ⟨middle, longer, rest⟩ | ⟨middle, longer, rest⟩
  · cases middle with
    | nil => exact ⟨by simpa using longer.symm, (List.cons.inj rest).2⟩
    | cons first middle =>
        refine absurd ?_ plain
        rw [(List.cons.inj rest).2]
        exact List.mem_append_right _ List.mem_cons_self
  · cases middle with
    | nil => exact ⟨by simpa using longer, (List.cons.inj rest).2.symm⟩
    | cons first middle =>
        refine absurd ?_ also
        rw [(List.cons.inj rest).2]
        exact List.mem_append_right _ List.mem_cons_self

end RpcFramework.Decimal
