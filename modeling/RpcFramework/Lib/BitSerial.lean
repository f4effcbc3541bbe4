import Mathlib.Data.Nat.Bitwise

/-!
# Registers that take a message bit by bit

A bit-serial register of a cyclic code moves by one place for every bit of the
message, and adds its polynomial when the bit that falls out differs from the bit
that enters.  Moving is linear in exclusive or, so the bits of a whole chunk may be
added to the register at once, and the moves of a chunk split: what the low part of
the register leaves is a word of a table, and the rest only moves down.
-/

namespace BitSerial

/-- Move by one place; the polynomial is added for a bit that falls out. -/
def shift (poly register : Nat) : Nat :=
  register >>> 1 ^^^ if register.testBit 0 then poly else 0

/-- Take one bit of the message. -/
def feed (poly register : Nat) (bit : Bool) : Nat :=
  register >>> 1 ^^^ if register.testBit 0 != bit then poly else 0

/-- The low bits of a chunk, the lowest first. -/
def lowBits : Nat → Nat → List Bool
  | 0, _ => []
  | n + 1, chunk => chunk.testBit 0 :: lowBits n (chunk >>> 1)

variable (poly : Nat)

theorem feed_eq (register : Nat) (bit : Bool) :
    feed poly register bit = shift poly (register ^^^ bit.toNat) := by
  have gone : bit.toNat >>> 1 = 0 := by cases bit <;> rfl
  have low : bit.toNat.testBit 0 = bit := by cases bit <;> rfl
  rw [feed, shift, Nat.shiftRight_xor_distrib, gone, Nat.xor_zero, Nat.testBit_xor, low]

theorem shift_xor (first second : Nat) :
    shift poly (first ^^^ second) = shift poly first ^^^ shift poly second := by
  unfold shift
  rw [Nat.shiftRight_xor_distrib, Nat.testBit_xor]
  cases first.testBit 0 with
  | false =>
      rw [Bool.false_xor, if_neg Bool.false_ne_true, Nat.xor_zero, Nat.xor_assoc]
  | true =>
      cases second.testBit 0 with
      | false =>
          rw [Bool.xor_false, if_pos rfl, if_neg Bool.false_ne_true, Nat.xor_zero,
            Nat.xor_right_comm]
      | true =>
          rw [Bool.xor_self, if_pos rfl, if_neg Bool.false_ne_true, Nat.xor_zero,
            Nat.xor_assoc _ poly, Nat.xor_left_comm poly, Nat.xor_self, Nat.xor_zero]

theorem iterate_shift_xor (n first second : Nat) :
    (shift poly)^[n] (first ^^^ second) = (shift poly)^[n] first ^^^ (shift poly)^[n] second := by
  induction n generalizing first second with
  | zero => rfl
  | succ n ih =>
      rw [Function.iterate_succ_apply, shift_xor, ih]
      rfl

/-- A register whose low bits are clear only moves down. -/
theorem iterate_shift_shiftLeft (n register : Nat) :
    (shift poly)^[n] (register <<< n) = register := by
  induction n with
  | zero => rfl
  | succ n ih =>
      have clear : (register <<< (n + 1)).testBit 0 = false := by
        rw [Nat.testBit_shiftLeft]
        rfl
      have moved : shift poly (register <<< (n + 1)) = register <<< n := by
        rw [shift, clear, if_neg Bool.false_ne_true, Nat.xor_zero, Nat.shiftLeft_add,
          Nat.shiftLeft_shiftRight]
      rw [Function.iterate_succ_apply, moved, ih]

theorem low_xor_high (n register : Nat) :
    register % 2 ^ n ^^^ (register >>> n) <<< n = register := by
  apply Nat.eq_of_testBit_eq
  intro i
  rw [Nat.testBit_xor, Nat.testBit_mod_two_pow, Nat.testBit_shiftLeft, Nat.testBit_shiftRight]
  by_cases high : n ≤ i
  · simp [high, Nat.not_lt_of_le high, Nat.add_sub_cancel' high]
  · simp [high, Nat.lt_of_not_le high]

/-- The moves of a chunk: a word that depends on the low part of the register alone, and
the rest of the register. -/
theorem iterate_shift_eq (n register : Nat) :
    (shift poly)^[n] register = (shift poly)^[n] (register % 2 ^ n) ^^^ register >>> n := by
  calc (shift poly)^[n] register
      = (shift poly)^[n] (register % 2 ^ n ^^^ (register >>> n) <<< n) := by rw [low_xor_high]
    _ = (shift poly)^[n] (register % 2 ^ n) ^^^ register >>> n := by
        rw [iterate_shift_xor, iterate_shift_shiftLeft]

/-- A chunk may be added to the register before it moves. -/
theorem foldl_feed_lowBits {n register chunk : Nat} (small : chunk < 2 ^ n) :
    (lowBits n chunk).foldl (feed poly) register = (shift poly)^[n] (register ^^^ chunk) := by
  induction n generalizing register chunk with
  | zero =>
      rw [Nat.lt_one_iff.mp small, Nat.xor_zero]
      rfl
  | succ n ih =>
      have halved : chunk >>> 1 < 2 ^ n := by
        rw [Nat.shiftRight_eq_div_pow]
        omega
      have cut : chunk = (chunk.testBit 0).toNat ^^^ (chunk >>> 1) <<< 1 := by
        conv_lhs => rw [← low_xor_high 1 chunk]
        rw [Nat.testBit_zero]
        rcases Nat.mod_two_eq_zero_or_one chunk with even | odd
        · simp [even]
        · simp [odd]
      have moved : shift poly (register ^^^ chunk) =
          feed poly register (chunk.testBit 0) ^^^ chunk >>> 1 := by
        have down : shift poly ((chunk >>> 1) <<< 1) = chunk >>> 1 :=
          iterate_shift_shiftLeft poly 1 (chunk >>> 1)
        conv_lhs => rw [cut]
        rw [← Nat.xor_assoc, shift_xor, ← feed_eq, down]
      rw [lowBits, List.foldl_cons, ih halved, Function.iterate_succ_apply, moved]

end BitSerial
