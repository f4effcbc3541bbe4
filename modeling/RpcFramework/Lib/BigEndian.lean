import Mathlib.Data.UInt
import Mathlib.Tactic.Ring

/-!
# Fixed-width big-endian numerals

`bigEndian width value` writes the low `width` bytes of a natural number, most
significant byte first; `ofBigEndian` reads any byte list back as a base-256
numeral.  Reading a written numeral gives the value modulo `256 ^ width`, and
writing a numeral that was read gives its bytes.
-/

namespace BigEndian

/-- The low `width` bytes of a number, most significant byte first. -/
def bigEndian : Nat → Nat → List UInt8
  | 0, _ => []
  | width + 1, value => UInt8.ofNat (value / 256 ^ width) :: bigEndian width value

/-- The number that a byte list denotes in base 256. -/
def ofBigEndian (bytes : List UInt8) : Nat :=
  bytes.foldl (fun value byte => value * 256 + byte.toNat) 0

@[simp]
theorem length_bigEndian (width value : Nat) : (bigEndian width value).length = width := by
  induction width with
  | zero => rfl
  | succ width ih => simp [bigEndian, ih]

theorem foldl_bigEndian (width value acc : Nat) :
    (bigEndian width value).foldl (fun value byte => value * 256 + byte.toNat) acc =
      acc * 256 ^ width + value % 256 ^ width := by
  induction width generalizing acc with
  | zero => simp [bigEndian, Nat.mod_one]
  | succ width ih =>
      have digit : (UInt8.ofNat (value / 256 ^ width)).toNat = value / 256 ^ width % 256 :=
        UInt8.toNat_ofNat'
      have split : value % 256 ^ (width + 1) =
          value % 256 ^ width + 256 ^ width * (value / 256 ^ width % 256) := by
        rw [pow_succ, Nat.mod_mul]
      rw [bigEndian, List.foldl_cons, ih, digit, split]
      ring

/-- Reading back a written numeral. -/
theorem ofBigEndian_bigEndian (width value : Nat) :
    ofBigEndian (bigEndian width value) = value % 256 ^ width := by
  simpa [ofBigEndian] using foldl_bigEndian width value 0

theorem foldl_eq_ofBigEndian (bytes : List UInt8) (acc : Nat) :
    bytes.foldl (fun value byte => value * 256 + byte.toNat) acc =
      acc * 256 ^ bytes.length + ofBigEndian bytes := by
  induction bytes generalizing acc with
  | nil => simp [ofBigEndian]
  | cons byte bytes ih =>
      rw [ofBigEndian, List.foldl_cons, List.foldl_cons, ih, ih, List.length_cons]
      ring

theorem ofBigEndian_cons (byte : UInt8) (bytes : List UInt8) :
    ofBigEndian (byte :: bytes) = byte.toNat * 256 ^ bytes.length + ofBigEndian bytes := by
  rw [ofBigEndian, List.foldl_cons, foldl_eq_ofBigEndian, Nat.zero_mul, Nat.zero_add]

theorem ofBigEndian_lt (bytes : List UInt8) : ofBigEndian bytes < 256 ^ bytes.length := by
  induction bytes with
  | nil => simp [ofBigEndian]
  | cons byte bytes ih =>
      have digit : byte.toNat + 1 ≤ 256 := byte.toNat_lt
      rw [ofBigEndian_cons, List.length_cons, pow_succ]
      calc
        byte.toNat * 256 ^ bytes.length + ofBigEndian bytes
            < byte.toNat * 256 ^ bytes.length + 256 ^ bytes.length := Nat.add_lt_add_left ih _
        _ = (byte.toNat + 1) * 256 ^ bytes.length := by ring
        _ ≤ 256 * 256 ^ bytes.length := Nat.mul_le_mul_right _ digit
        _ = 256 ^ bytes.length * 256 := by ring

/-- Higher digits do not matter. -/
theorem bigEndian_add_mul (width value high : Nat) :
    bigEndian width (high * 256 ^ width + value) = bigEndian width value := by
  induction width generalizing high with
  | zero => rfl
  | succ width ih =>
      have shifted : high * 256 ^ (width + 1) = high * 256 * 256 ^ width := by ring
      have digit : UInt8.ofNat ((high * 256 * 256 ^ width + value) / 256 ^ width) =
          UInt8.ofNat (value / 256 ^ width) := by
        rw [Nat.add_comm, Nat.add_mul_div_right _ _ (Nat.pow_pos (by decide)), ← UInt8.toNat_inj,
          UInt8.toNat_ofNat', UInt8.toNat_ofNat', Nat.add_mul_mod_self_right]
      rw [bigEndian, bigEndian, shifted, ih, digit]

/-- Writing back a read numeral. -/
theorem bigEndian_ofBigEndian (bytes : List UInt8) :
    bigEndian bytes.length (ofBigEndian bytes) = bytes := by
  induction bytes with
  | nil => rfl
  | cons byte bytes ih =>
      have digit : (byte.toNat * 256 ^ bytes.length + ofBigEndian bytes) / 256 ^ bytes.length =
          byte.toNat := by
        rw [Nat.add_comm, Nat.add_mul_div_right _ _ (Nat.pow_pos (by decide)),
          Nat.div_eq_of_lt (ofBigEndian_lt bytes), Nat.zero_add]
      rw [List.length_cons, bigEndian, ofBigEndian_cons, digit, UInt8.ofNat_toNat,
        bigEndian_add_mul, ih]

end BigEndian
