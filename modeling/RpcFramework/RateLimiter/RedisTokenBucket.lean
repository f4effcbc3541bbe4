import Mathlib.Algebra.Order.Ring.Cast
import Mathlib.Data.Rat.Cast.Order
import Mathlib.Tactic.FieldSimp
import Mathlib.Tactic.Positivity
import Mathlib.Tactic.Ring
import RpcFramework.Lib.Bucket

/-!
# The token bucket shared through Redis

Clients run one Lua script on a pair of keys: it refills the bucket for the time
since the timestamp key, takes a token and stores its own time in that key.  Redis
runs scripts one after another, so what any number of clients do is a sequence of
executions, each with the time of its client.  Numbers are rationals.

A script that comes with an older time moves the timestamp back, and the time up to
the newest timestamp is refilled once more.  The tokens that come in are thus
counted by the forward jumps of the times in their order of execution.
-/

namespace RpcFramework.RedisTokenBucket

/-- The two keys; `none` is an absent key. -/
structure Keys where
  tokens : Option ℚ
  timestamp : Option Int

/-- The script: the keys after it, and its reply. -/
def luaScript (rate capacity : ℚ) (now : Int) (keys : Keys) : Keys × Nat :=
  let lastTokens := keys.tokens.getD capacity
  let lastRefill := keys.timestamp.getD now
  let elapsed : Int := max 0 (now - lastRefill)
  let newTokens := min capacity (lastTokens + elapsed * rate / 1000)
  if 1 ≤ newTokens then (⟨some (newTokens - 1), some now⟩, 1)
  else (⟨some newTokens, some now⟩, 0)

/-- The replies to executions at the given times. -/
def replies (rate capacity : ℚ) : Keys → List Int → List Nat
  | _, [] => []
  | keys, now :: rest =>
      (luaScript rate capacity now keys).2 ::
        replies rate capacity (luaScript rate capacity now keys).1 rest

/-- How many executions on absent keys reply 1. -/
def allowed (rate capacity : ℚ) (times : List Int) : Nat :=
  (replies rate capacity ⟨none, none⟩ times).count 1

def largest (first : Int) (rest : List Int) : Int := rest.foldl max first

def smallest (first : Int) (rest : List Int) : Int := rest.foldl min first

/-- What `elapsed` is in executions at these times behind one at `last`. -/
def jumps (last : Int) : List Int → List Int
  | [] => []
  | now :: rest => max 0 (now - last) :: jumps now rest

/-- The time that is refilled over a sequence of executions. -/
def forward (first : Int) (rest : List Int) : Int := (jumps first rest).sum

/-! ## The script is a bucket -/

/-- What comes in at each execution. -/
def incomes (rate : ℚ) (last : Int) (rest : List Int) : List ℚ :=
  (jumps last rest).map fun elapsed : Int => (elapsed : ℚ) * rate / 1000

/-- The two ends of the script. -/
theorem take_eq (now : Int) (tokens : ℚ) :
    (if 1 ≤ tokens then ((⟨some (tokens - 1), some now⟩ : Keys), 1)
      else (⟨some tokens, some now⟩, 0)) =
      (⟨some (Bucket.take tokens).2, some now⟩, (Bucket.take tokens).1) := by
  split
  · next enough => rw [Bucket.take_of_le enough]
  · next short => rw [Bucket.take_of_lt (not_le.mp short)]

theorem luaScript_eq (rate capacity : ℚ) (now last : Int) (tokens : ℚ) :
    luaScript rate capacity now ⟨some tokens, some last⟩ =
      let taken := Bucket.take
        (Bucket.refill capacity tokens ((max 0 (now - last) : Int) * rate / 1000))
      (⟨some taken.2, some now⟩, taken.1) :=
  take_eq now _

theorem luaScript_absent (rate capacity : ℚ) (now : Int) :
    luaScript rate capacity now ⟨none, none⟩ =
      (⟨some (Bucket.take capacity).2, some now⟩, (Bucket.take capacity).1) := by
  have unchanged : min capacity (capacity + ((max 0 (now - now) : Int) : ℚ) * rate / 1000) =
      capacity := by
    rw [sub_self, max_self, Int.cast_zero, zero_mul, zero_div, add_zero, min_self]
  unfold luaScript
  dsimp only [Option.getD_none]
  rw [unchanged]
  exact take_eq now capacity

theorem count_take_cons (tokens : ℚ) (later : List Nat) :
    ((Bucket.take tokens).1 :: later).count 1 = (Bucket.take tokens).1 + later.count 1 := by
  by_cases enough : 1 ≤ tokens
  · rw [Bucket.take_of_le enough, List.count_cons_self, Nat.add_comm]
  · rw [Bucket.take_of_lt (not_le.mp enough), List.count_cons_of_ne Nat.zero_ne_one, Nat.zero_add]

theorem count_replies (rate capacity tokens : ℚ) (last : Int) (rest : List Int) :
    (replies rate capacity ⟨some tokens, some last⟩ rest).count 1 =
      Bucket.granted capacity tokens (incomes rate last rest) := by
  induction rest generalizing tokens last with
  | nil => rfl
  | cons now rest ih =>
      rw [replies, luaScript_eq, count_take_cons, ih]
      rfl

/-- The bucket starts full, whatever the first time is. -/
theorem allowed_cons (rate capacity : ℚ) (first : Int) (rest : List Int) :
    allowed rate capacity (first :: rest) =
      (Bucket.take capacity).1 +
        Bucket.granted capacity (Bucket.take capacity).2 (incomes rate first rest) := by
  rw [allowed, replies, luaScript_absent, count_take_cons, count_replies]

theorem sum_incomes (rate : ℚ) (first : Int) (rest : List Int) :
    (incomes rate first rest).sum = rate * forward first rest / 1000 := by
  unfold incomes forward
  induction jumps first rest with
  | nil => simp only [List.map_nil, List.sum_nil, Int.cast_zero, mul_zero, zero_div]
  | cons elapsed later ih =>
      rw [List.map_cons, List.sum_cons, List.sum_cons, ih, Int.cast_add]
      ring

theorem jumps_nonneg {last : Int} {rest : List Int} : ∀ elapsed ∈ jumps last rest, 0 ≤ elapsed := by
  induction rest generalizing last with
  | nil => exact List.forall_mem_nil _
  | cons now rest ih => exact List.forall_mem_cons.mpr ⟨le_max_left _ _, ih⟩

theorem incomes_nonneg {rate : ℚ} (rateNonneg : 0 ≤ rate) {last : Int} {rest : List Int} :
    ∀ income ∈ incomes rate last rest, 0 ≤ income := by
  intro income member
  obtain ⟨elapsed, jump, rfl⟩ := List.mem_map.mp member
  have elapsedNonneg : (0 : ℚ) ≤ elapsed := Int.cast_nonneg (jumps_nonneg elapsed jump)
  exact div_nonneg (mul_nonneg elapsedNonneg rateNonneg) (by decide)

/-! ## How many executions are allowed -/

/-- Every allowed execution is paid by the full bucket or by a forward jump. -/
theorem allowed_le {rate capacity : ℚ} (rateNonneg : 0 ≤ rate) (capacityNonneg : 0 ≤ capacity)
    (first : Int) (rest : List Int) :
    (allowed rate capacity (first :: rest) : ℚ) ≤ capacity + rate * forward first rest / 1000 := by
  have start := Bucket.take_balance capacity
  have later := Bucket.granted_le capacityNonneg (Bucket.take_nonneg capacityNonneg)
    (@incomes_nonneg rate rateNonneg first rest)
  rw [sum_incomes] at later
  rw [allowed_cons, Nat.cast_add]
  linarith

/-- A bucket for one token gives a second one once the forward jumps add up to its
refill time. -/
theorem two_allowed {first : Int} {rest : List Int} (jumped : 0 < forward first rest) :
    2 ≤ allowed (1000 / forward first rest) 1 (first :: rest) := by
  have positive : (0 : ℚ) < forward first rest := Int.cast_pos.mpr jumped
  have start : Bucket.take (1 : ℚ) = (1, 0) := by
    rw [Bucket.take_of_le le_rfl, sub_self]
  have full : (incomes (1000 / forward first rest) first rest).sum = 1 := by
    rw [sum_incomes]
    field_simp
  have second := @Bucket.granted_pos ℚ _ _ 1 0 (incomes (1000 / forward first rest) first rest)
    le_rfl one_pos (by rw [full, zero_add])
  rw [allowed_cons, start]
  exact Nat.add_le_add_left second 1

theorem smallest_le_largest (first : Int) (rest : List Int) :
    smallest first rest ≤ first ∧ first ≤ largest first rest := by
  unfold smallest largest
  induction rest generalizing first with
  | nil => exact ⟨le_rfl, le_rfl⟩
  | cons now rest ih =>
      rw [List.foldl_cons, List.foldl_cons]
      exact ⟨(ih (min first now)).1.trans (min_le_left _ _),
        (le_max_left _ _).trans (ih (max first now)).2⟩

theorem allowed_le_span {first : Int} {rest : List Int}
    (short : forward first rest ≤ largest first rest - smallest first rest) {rate capacity : ℚ}
    (rateNonneg : 0 ≤ rate) (capacityNonneg : 0 ≤ capacity) :
    (allowed rate capacity (first :: rest) : ℚ) ≤
      capacity + rate * (largest first rest - smallest first rest) / 1000 := by
  have shorter : (forward first rest : ℚ) ≤ largest first rest - smallest first rest := by
    exact_mod_cast short
  have limit := allowed_le rateNonneg capacityNonneg first rest
  have part := mul_le_mul_of_nonneg_left shorter rateNonneg
  linarith

/-- The limit over the span of the times is kept for every rate and capacity iff the
times do not jump forward by more than their span. -/
theorem allowed_le_span_iff (first : Int) (rest : List Int) :
    (∀ rate capacity : ℚ, 0 ≤ rate → 0 ≤ capacity →
      (allowed rate capacity (first :: rest) : ℚ) ≤
        capacity + rate * (largest first rest - smallest first rest) / 1000) ↔
      forward first rest ≤ largest first rest - smallest first rest := by
  constructor
  · intro limited
    by_contra! exceeds
    have span := smallest_le_largest first rest
    have jumped : 0 < forward first rest := by omega
    have positive : (0 : ℚ) < forward first rest := Int.cast_pos.mpr jumped
    have limit := limited (1000 / forward first rest) 1 (by positivity) zero_le_one
    have two : (2 : ℚ) ≤ allowed (1000 / forward first rest) 1 (first :: rest) := by
      exact_mod_cast two_allowed jumped
    have shorter : ((largest first rest : ℚ) - smallest first rest) < forward first rest := by
      exact_mod_cast exceeds
    have part : (1000 / forward first rest : ℚ) * (largest first rest - smallest first rest) /
        1000 < 1 := by
      rw [div_mul_eq_mul_div, div_div, div_lt_one (by positivity)]
      linarith
    linarith
  · intro short rate capacity rateNonneg capacityNonneg
    exact allowed_le_span short rateNonneg capacityNonneg

/-- Two clients whose clocks differ by a second: the second is refilled twice. -/
theorem second_refilled_twice :
    allowed 1 1 [0, 1000, 0, 1000] = 3 ∧
      ¬ (allowed 1 1 [0, 1000, 0, 1000] : ℚ) ≤
        1 + 1 * (largest 0 [1000, 0, 1000] - smallest 0 [1000, 0, 1000]) / 1000 := by
  decide +kernel

end RpcFramework.RedisTokenBucket
