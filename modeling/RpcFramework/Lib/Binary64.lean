import Mathlib.Algebra.Order.Field.Power
import Mathlib.Data.Int.Log
import Mathlib.Data.Rat.Floor
import Mathlib.Tactic.Linarith

/-!
# Rounding to double precision

The finite numbers of the IEEE 754 format binary64 as rational numbers.  A number is
rounded to the nearest multiple of the spacing around it, to the even one of two; the
spacing is a power of two, 53 binary digits below the number and at least the smallest
subnormal.  The largest finite number is no bound here: nothing overflows to infinity.
-/

namespace Binary64

/-- The exponent of the spacing of the numbers around `q`. -/
def ulpExponent (q : ℚ) : ℤ := max (Int.log 2 |q| - 52) (-1074)

/-- The nearest integer; of two the even one. -/
def nearestEven (q : ℚ) : ℤ :=
  if q - ⌊q⌋ < 1 / 2 then ⌊q⌋
  else if 1 / 2 < q - ⌊q⌋ then ⌊q⌋ + 1
  else if ⌊q⌋ % 2 = 0 then ⌊q⌋ else ⌊q⌋ + 1

/-- The result of an operation whose exact value is `q`. -/
def toNearest (q : ℚ) : ℚ := nearestEven (q / 2 ^ ulpExponent q) * 2 ^ ulpExponent q

end Binary64

open Binary64 in
/-- A finite number of the format. -/
structure Binary64 where
  value : ℚ
  representable : toNearest value = value

namespace Binary64

theorem toNearest_zero : toNearest 0 = 0 := by decide +kernel

theorem toNearest_one : toNearest 1 = 1 := by decide +kernel

instance instZero : Zero Binary64 := ⟨⟨0, toNearest_zero⟩⟩

instance instOne : One Binary64 := ⟨⟨1, toNearest_one⟩⟩

variable {p q : ℚ}

/-! ## Nearest integers -/

theorem nearestEven_near (q : ℚ) :
    (nearestEven q : ℚ) - q ≤ 1 / 2 ∧ q - nearestEven q ≤ 1 / 2 := by
  have low := Int.floor_le q
  have high := Int.lt_floor_add_one q
  unfold nearestEven
  split
  · constructor <;> linarith
  · next half =>
      push Not at half
      split
      · constructor <;> push_cast <;> linarith
      · next exact_half =>
          push Not at exact_half
          split
          · constructor <;> linarith
          · constructor <;> push_cast <;> linarith

theorem nearestEven_mono (le : p ≤ q) : nearestEven p ≤ nearestEven q := by
  by_contra less
  push Not at less
  have above : (nearestEven q : ℚ) + 1 ≤ nearestEven p := by exact_mod_cast less
  have near := nearestEven_near p
  have alsoNear := nearestEven_near q
  -- the two are at most a half away each, so the numbers are the same
  have same : p = q := by linarith
  rw [same] at less
  exact lt_irrefl _ less

theorem nearestEven_intCast (n : ℤ) : nearestEven n = n := by
  rw [nearestEven, Int.floor_intCast, if_pos]
  norm_num

theorem le_nearestEven {n : ℤ} (le : (n : ℚ) ≤ q) : n ≤ nearestEven q := by
  rw [← nearestEven_intCast n]
  exact nearestEven_mono le

theorem nearestEven_le {n : ℤ} (le : q ≤ n) : nearestEven q ≤ n := by
  rw [← nearestEven_intCast n]
  exact nearestEven_mono le

/-! ## Rounding -/

theorem power_pos (e : ℤ) : (0 : ℚ) < 2 ^ e := zpow_pos (by norm_num) e

theorem power_mul (e f : ℤ) : (2 : ℚ) ^ e * 2 ^ f = 2 ^ (e + f) :=
  (zpow_add₀ (by norm_num) e f).symm

/-- A power of two is a multiple of every smaller one. -/
theorem multiple_power {e f : ℤ} (le : e ≤ f) :
    ((2 ^ (f - e).toNat : ℤ) : ℚ) * 2 ^ e = 2 ^ f := by
  push_cast
  rw [← zpow_natCast, power_mul, Int.toNat_of_nonneg (by omega), sub_add_cancel]

/-- An integer multiple of the spacing is not passed. -/
theorem le_toNearest {n : ℤ} (le : n * 2 ^ ulpExponent q ≤ q) :
    n * 2 ^ ulpExponent q ≤ toNearest q := by
  have scaled : (n : ℚ) ≤ q / 2 ^ ulpExponent q := (le_div_iff₀ (power_pos _)).mpr le
  have bound : (n : ℚ) ≤ nearestEven (q / 2 ^ ulpExponent q) := by
    exact_mod_cast le_nearestEven scaled
  exact mul_le_mul_of_nonneg_right bound (power_pos _).le

theorem toNearest_le {n : ℤ} (le : q ≤ n * 2 ^ ulpExponent q) :
    toNearest q ≤ n * 2 ^ ulpExponent q := by
  have scaled : q / 2 ^ ulpExponent q ≤ n := (div_le_iff₀ (power_pos _)).mpr le
  have bound : (nearestEven (q / 2 ^ ulpExponent q) : ℚ) ≤ n := by
    exact_mod_cast nearestEven_le scaled
  exact mul_le_mul_of_nonneg_right bound (power_pos _).le

theorem toNearest_nonneg (nonneg : 0 ≤ q) : 0 ≤ toNearest q := by
  have bound := le_toNearest (q := q) (n := 0) (by simpa using nonneg)
  simpa using bound

theorem ulpExponent_mono (positive : 0 < p) (le : p ≤ q) : ulpExponent p ≤ ulpExponent q := by
  rw [ulpExponent, ulpExponent, abs_of_pos positive, abs_of_pos (positive.trans_le le)]
  exact max_le_max (Int.sub_le_sub_right (Int.log_mono_right positive le) _) le_rfl

/-- Where the spacing grows there is a power of two between the numbers. -/
theorem toNearest_le_of_ulp_lt (positive : 0 < p) (le : p ≤ q)
    (less : ulpExponent p < ulpExponent q) : toNearest p ≤ toNearest q := by
  have alsoPositive := positive.trans_le le
  have spacing : ulpExponent q = Int.log 2 q - 52 := by
    have least : -1074 ≤ ulpExponent p := le_max_right ..
    have choice : ulpExponent q = max (Int.log 2 q - 52) (-1074) := by
      rw [ulpExponent, abs_of_pos alsoPositive]
    omega
  have logLess : Int.log 2 p < Int.log 2 q := by
    have bound : Int.log 2 |p| - 52 ≤ ulpExponent p := le_max_left ..
    rw [abs_of_pos positive] at bound
    omega
  have above : (2 : ℚ) ^ Int.log 2 q ≤ q := Int.zpow_log_le_self (by norm_num) alsoPositive
  have below : p ≤ (2 : ℚ) ^ Int.log 2 q := by
    have bound : p < (2 : ℚ) ^ (Int.log 2 p + 1) := Int.lt_zpow_succ_log_self (by norm_num) p
    exact bound.le.trans (zpow_le_zpow_right₀ (by norm_num) (by omega))
  have lower : (2 : ℚ) ^ Int.log 2 q ≤ toNearest q := by
    have multiple := multiple_power (e := ulpExponent q) (f := Int.log 2 q) (by omega)
    rw [← multiple]
    exact le_toNearest (multiple.trans_le above)
  have upper : toNearest p ≤ (2 : ℚ) ^ Int.log 2 q := by
    have multiple := multiple_power (e := ulpExponent p) (f := Int.log 2 q) (by omega)
    rw [← multiple]
    exact toNearest_le (below.trans multiple.ge)
  exact upper.trans lower

theorem toNearest_mono (nonneg : 0 ≤ p) (le : p ≤ q) : toNearest p ≤ toNearest q := by
  rcases nonneg.eq_or_lt with zero | positive
  · rw [← zero]
    rw [toNearest_zero]
    exact toNearest_nonneg (zero ▸ le)
  · rcases (ulpExponent_mono positive le).eq_or_lt with same | less
    · rw [toNearest, toNearest, same]
      have scaled : p / 2 ^ ulpExponent q ≤ q / 2 ^ ulpExponent q :=
        div_le_div_of_nonneg_right le (power_pos _).le
      have rounded : (nearestEven (p / 2 ^ ulpExponent q) : ℚ) ≤
          nearestEven (q / 2 ^ ulpExponent q) := by
        exact_mod_cast nearestEven_mono scaled
      exact mul_le_mul_of_nonneg_right rounded (power_pos _).le
    · exact toNearest_le_of_ulp_lt positive le less

/-- A number from `2 ^ k` on is a multiple of the spacing there. -/
theorem exists_multiple (x : Binary64) {k : ℤ} (large : (2 : ℚ) ^ k ≤ x.value) :
    ∃ m : ℤ, x.value = m * 2 ^ (k - 52) := by
  have positive : 0 < x.value := (power_pos k).trans_le large
  have bound : k ≤ Int.log 2 x.value := (Int.zpow_le_iff_le_log (by norm_num) positive).mp large
  have wide : k - 52 ≤ ulpExponent x.value := by
    rw [ulpExponent, abs_of_pos positive]
    exact (Int.sub_le_sub_right bound _).trans (le_max_left ..)
  refine ⟨nearestEven (x.value / 2 ^ ulpExponent x.value) *
    2 ^ (ulpExponent x.value - (k - 52)).toNat, ?_⟩
  rw [Int.cast_mul, mul_assoc, multiple_power wide]
  exact x.representable.symm

end Binary64
