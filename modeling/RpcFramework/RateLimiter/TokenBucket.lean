import Mathlib.Algebra.Order.Ring.Cast
import Mathlib.Data.Rat.Cast.Order
import Mathlib.Tactic.Ring
import RpcFramework.Lib.Bucket
import RpcFramework.Lib.Mealy

/-!
# The local token bucket

Every call first refills the bucket for the time since the last call, up to the
capacity.  The rate and the capacity can be changed between the calls.  Numbers are
rationals, and so are the readings of the steady clock, in seconds.
-/

namespace RpcFramework

structure TokenBucket where
  rate : ℚ
  capacity : ℚ
  tokens : ℚ
  lastRefillTime : ℚ
  deriving DecidableEq

namespace TokenBucket

def new (rate capacity now : ℚ) : TokenBucket := ⟨rate, capacity, capacity, now⟩

def refill (b : TokenBucket) (now : ℚ) : TokenBucket :=
  let elapsed := now - b.lastRefillTime
  let tokens := b.tokens + elapsed * b.rate
  { b with
    tokens := if b.capacity < tokens then b.capacity else tokens
    lastRefillTime := now }

def allow (b : TokenBucket) (now : ℚ) : Bool × TokenBucket :=
  let b := b.refill now
  if 1 ≤ b.tokens then (true, { b with tokens := b.tokens - 1 }) else (false, b)

/-- A negative capacity keeps the one in force. -/
def setRate (b : TokenBucket) (rate capacity now : ℚ) : TokenBucket :=
  let b := b.refill now
  let b := { b with rate := rate, capacity := if 0 ≤ capacity then capacity else b.capacity }
  if b.capacity < b.tokens then { b with tokens := b.capacity } else b

def availableTokens (b : TokenBucket) (now : ℚ) : ℚ × TokenBucket :=
  ((b.refill now).tokens, b.refill now)

inductive Call where
  | allow
  | setRate (rate capacity : ℚ)
  | availableTokens
  deriving DecidableEq

/-- What a call returns. -/
inductive Outcome where
  | admitted (result : Bool)
  | changed
  | level (tokens : ℚ)
  deriving DecidableEq

/-- A call and the time at which it is made. -/
def step (b : TokenBucket) : ℚ × Call → Outcome × TokenBucket
  | (now, .allow) => (.admitted (b.allow now).1, (b.allow now).2)
  | (now, .setRate rate capacity) => (.changed, b.setRate rate capacity now)
  | (now, .availableTokens) => (.level (b.availableTokens now).1, (b.availableTokens now).2)

def run (b : TokenBucket) (calls : List (ℚ × Call)) : TokenBucket := Mealy.run step b calls

theorem run_append (b : TokenBucket) (first rest : List (ℚ × Call)) :
    b.run (first ++ rest) = (b.run first).run rest :=
  Mealy.run_append ..

/-- No rate is negative. -/
def Call.Valid : Call → Prop
  | .setRate rate _ => 0 ≤ rate
  | _ => True

/-- The calls follow one another and the time `since`, at rates that are not negative. -/
def Timed (since : ℚ) : List (ℚ × Call) → Prop
  | [] => True
  | (now, call) :: rest => since ≤ now ∧ call.Valid ∧ Timed now rest

structure Inv (b : TokenBucket) : Prop where
  rate : 0 ≤ b.rate
  nonneg : 0 ≤ b.tokens
  within : b.tokens ≤ b.capacity

/-! ## Refilling -/

section Refilling

variable {b : TokenBucket} {now later : ℚ}

theorem refill_tokens (b : TokenBucket) (now : ℚ) :
    (b.refill now).tokens =
      Bucket.refill b.capacity b.tokens ((now - b.lastRefillTime) * b.rate) := by
  rw [Bucket.refill, min_def_lt]
  rfl

theorem refill_eq (b : TokenBucket) (now : ℚ) :
    b.refill now =
      ⟨b.rate, b.capacity,
        Bucket.refill b.capacity b.tokens ((now - b.lastRefillTime) * b.rate), now⟩ := by
  rw [← refill_tokens]
  rfl

/-- Refilling on the way changes nothing. -/
theorem refill_refill (rate : 0 ≤ b.rate) (ordered : now ≤ later) :
    (b.refill now).refill later = b.refill later := by
  have more : 0 ≤ (later - now) * b.rate := mul_nonneg (sub_nonneg.mpr ordered) rate
  rw [refill_eq b now, refill_eq, refill_eq b later]
  dsimp only
  rw [Bucket.refill_refill more]
  congr 2
  ring

theorem Inv.refill (inv : b.Inv) (ordered : b.lastRefillTime ≤ now) : (b.refill now).Inv := by
  have income : 0 ≤ (now - b.lastRefillTime) * b.rate :=
    mul_nonneg (sub_nonneg.mpr ordered) inv.rate
  refine ⟨inv.rate, ?_, ?_⟩
  · rw [refill_tokens]
    exact Bucket.refill_nonneg (inv.nonneg.trans inv.within) inv.nonneg income
  · rw [refill_tokens]
    exact Bucket.refill_le_capacity ..

end Refilling

/-! ## Single calls -/

/-- How many tokens a call has taken. -/
def Outcome.taken : Outcome → Nat
  | .admitted true => 1
  | _ => 0

section Calls

variable {b : TokenBucket} {now : ℚ}

/-- A call refills the bucket and goes on from there. -/
theorem step_eq (b : TokenBucket) (now : ℚ) (call : Call) :
    b.step (now, call) =
      match call with
      | .allow =>
          if 1 ≤ (b.refill now).tokens then
            (.admitted true, { b.refill now with tokens := (b.refill now).tokens - 1 })
          else (.admitted false, b.refill now)
      | .setRate rate capacity =>
          let capacity := if 0 ≤ capacity then capacity else b.capacity
          (.changed, ⟨rate, capacity, min capacity (b.refill now).tokens, now⟩)
      | .availableTokens => (.level (b.refill now).tokens, b.refill now) := by
  cases call with
  | allow =>
      unfold step allow
      dsimp only
      split
      · rfl
      · rfl
  | setRate rate capacity =>
      unfold step setRate
      dsimp only
      rw [min_def_lt]
      by_cases exceeds : (if 0 ≤ capacity then capacity else b.capacity) < (b.refill now).tokens
      · rw [if_pos exceeds]
        exact congrArg _ (if_pos exceeds)
      · rw [if_neg exceeds]
        exact congrArg _ (if_neg exceeds)
  | availableTokens => rfl

theorem step_lastRefillTime (b : TokenBucket) (now : ℚ) (call : Call) :
    (b.step (now, call)).2.lastRefillTime = now := by
  rw [step_eq]
  cases call with
  | allow =>
      dsimp only
      split
      · rfl
      · rfl
  | setRate rate capacity => rfl
  | availableTokens => rfl

theorem Inv.step (inv : b.Inv) (ordered : b.lastRefillTime ≤ now) {call : Call}
    (valid : call.Valid) : (b.step (now, call)).2.Inv := by
  have filled := inv.refill ordered
  rw [step_eq]
  cases call with
  | allow =>
      dsimp only
      split
      · next enough =>
          exact ⟨filled.rate, sub_nonneg.mpr enough, (sub_le_self _ zero_le_one).trans filled.within⟩
      · exact filled
  | setRate rate capacity =>
      have capacityNonneg : 0 ≤ if 0 ≤ capacity then capacity else b.capacity := by
        split
        · next nonneg => exact nonneg
        · exact inv.nonneg.trans inv.within
      exact ⟨valid, le_min capacityNonneg filled.nonneg, min_le_left _ _⟩
  | availableTokens => exact filled

/-- What is taken and what is left come out of the refilled bucket. -/
theorem step_balance (b : TokenBucket) (now : ℚ) (call : Call) :
    ((b.step (now, call)).1.taken : ℚ) + (b.step (now, call)).2.tokens ≤ (b.refill now).tokens := by
  rw [step_eq]
  cases call with
  | allow =>
      dsimp only
      split
      · simp [Outcome.taken]
      · simp [Outcome.taken]
  | setRate rate capacity => simp [Outcome.taken]
  | availableTokens => simp [Outcome.taken]

end Calls

theorem new_inv {rate capacity : ℚ} (rateNonneg : 0 ≤ rate) (capacityNonneg : 0 ≤ capacity)
    (now : ℚ) : (new rate capacity now).Inv :=
  ⟨rateNonneg, capacityNonneg, le_refl _⟩

/-- The invariant, with the calls that are still to come. -/
theorem Inv.run {b : TokenBucket} (inv : b.Inv) {before after : List (ℚ × Call)}
    (timed : Timed b.lastRefillTime (before ++ after)) :
    (b.run before).Inv ∧ Timed (b.run before).lastRefillTime after := by
  refine @Mealy.run_invariant _ _ _ TokenBucket.step
    (fun b calls => b.Inv ∧ Timed b.lastRefillTime calls) ?_ b before after ⟨inv, timed⟩
  rintro b ⟨now, call⟩ rest ⟨inv, ordered, valid, later⟩
  rw [step_lastRefillTime]
  exact ⟨inv.step ordered valid, later⟩

/-! ## The rate bound -/

/-- How many calls in the window from `s` to `t` take a token. -/
def admitted (s t : ℚ) (b : TokenBucket) : List (ℚ × Call) → Nat
  | [] => 0
  | (now, call) :: rest =>
      (if s ≤ now ∧ now ≤ t then (b.step (now, call)).1.taken else 0) +
        admitted s t (b.step (now, call)).2 rest

/-- The capacity in force immediately before the first call at or after `s`. -/
def capacityBefore (s : ℚ) (b : TokenBucket) : List (ℚ × Call) → ℚ
  | [] => b.capacity
  | (now, call) :: rest =>
      if s ≤ now then b.capacity else capacityBefore s (b.step (now, call)).2 rest

/-- The length of what the windows from `s` to `t` and from `since` to `now` share. -/
def overlap (s t since now : ℚ) : ℚ := max 0 (min t now - max s since)

/-- The integral of the rate in force from `s` to `t`, for a bucket whose rate has been in
force from the time `since` on. -/
def rateIntegral (s t : ℚ) (b : TokenBucket) (since : ℚ) : List (ℚ × Call) → ℚ
  | [] => b.rate * max 0 (t - max s since)
  | (now, call) :: rest =>
      b.rate * overlap s t since now + rateIntegral s t (b.step (now, call)).2 now rest

section Bound

variable {s t : ℚ} {b : TokenBucket} {calls : List (ℚ × Call)}

theorem rateIntegral_nonneg (inv : b.Inv) (timed : Timed b.lastRefillTime calls) (since : ℚ) :
    0 ≤ rateIntegral s t b since calls := by
  induction calls generalizing b since with
  | nil => exact mul_nonneg inv.rate (le_max_left _ _)
  | cons call calls ih =>
      obtain ⟨ordered, valid, later⟩ := timed
      refine add_nonneg (mul_nonneg inv.rate (le_max_left _ _)) (ih (inv.step ordered valid) ?_ _)
      rw [step_lastRefillTime]
      exact later

/-- No call behind the window counts. -/
theorem admitted_behind {since : ℚ} (timed : Timed since calls) (behind : t < since) :
    admitted s t b calls = 0 := by
  induction calls generalizing b since with
  | nil => rfl
  | cons call calls ih =>
      obtain ⟨ordered, _, later⟩ := timed
      have after : t < call.1 := behind.trans_le ordered
      rw [admitted, if_neg fun inside => not_lt.mpr inside.2 after, ih later after]

/-- Within the window, what is taken comes out of the tokens and what flows in. -/
theorem admitted_le_tokens (inv : b.Inv) (timed : Timed b.lastRefillTime calls)
    (inside : s ≤ b.lastRefillTime) :
    (admitted s t b calls : ℚ) ≤ b.tokens + rateIntegral s t b b.lastRefillTime calls := by
  induction calls generalizing b with
  | nil =>
      have integral := @rateIntegral_nonneg s t b [] inv trivial b.lastRefillTime
      rw [admitted, Nat.cast_zero]
      exact add_nonneg inv.nonneg integral
  | cons call calls ih =>
      obtain ⟨now, call⟩ := call
      have integral := @rateIntegral_nonneg s t b _ inv timed b.lastRefillTime
      obtain ⟨ordered, valid, later⟩ := timed
      by_cases behind : t < now
      · rw [admitted, if_neg fun window => not_lt.mpr window.2 behind, admitted_behind later behind,
          Nat.cast_zero]
        exact add_nonneg inv.nonneg integral
      have within := not_lt.mp behind
      have rest := @ih (b.step (now, call)).2 (inv.step ordered valid)
        (by rw [step_lastRefillTime]; exact later)
        (by rw [step_lastRefillTime]; exact inside.trans ordered)
      rw [step_lastRefillTime] at rest
      have whole : overlap s t b.lastRefillTime now = now - b.lastRefillTime := by
        rw [overlap, min_eq_right within, max_eq_right inside, max_eq_right (sub_nonneg.mpr ordered)]
      have balance := b.step_balance now call
      rw [refill_tokens] at balance
      have income := Bucket.refill_le b.capacity b.tokens ((now - b.lastRefillTime) * b.rate)
      rw [admitted, if_pos ⟨inside.trans ordered, within⟩, rateIntegral, whole, Nat.cast_add]
      linarith

/-- The first call in the window starts with at most the capacity before it. -/
theorem admitted_le_capacity (inv : b.Inv) (timed : Timed b.lastRefillTime calls) :
    (admitted s t b calls : ℚ) ≤
      capacityBefore s b calls + rateIntegral s t b b.lastRefillTime calls := by
  induction calls generalizing b with
  | nil =>
      have integral := @rateIntegral_nonneg s t b [] inv trivial b.lastRefillTime
      rw [admitted, Nat.cast_zero]
      exact add_nonneg (inv.nonneg.trans inv.within) integral
  | cons call calls ih =>
      obtain ⟨now, call⟩ := call
      obtain ⟨ordered, valid, later⟩ := timed
      have next := inv.step ordered valid
      have lastTime := b.step_lastRefillTime now call
      have behindNext : Timed (b.step (now, call)).2.lastRefillTime calls := by
        rw [lastTime]
        exact later
      have flow : 0 ≤ b.rate * overlap s t b.lastRefillTime now :=
        mul_nonneg inv.rate (le_max_left _ _)
      rw [admitted, capacityBefore, rateIntegral, Nat.cast_add]
      by_cases started : s ≤ now
      · have rest := @admitted_le_tokens s t _ calls next behindNext
          (by rw [lastTime]; exact started)
        have balance := b.step_balance now call
        have full := (inv.refill ordered).within
        have counted : ((if s ≤ now ∧ now ≤ t then (b.step (now, call)).1.taken else 0 : Nat) : ℚ) ≤
            (b.step (now, call)).1.taken := by
          split
          · exact le_refl _
          · exact Nat.cast_le.mpr (Nat.zero_le _)
        rw [lastTime] at rest
        rw [if_pos started]
        change (b.refill now).tokens ≤ b.capacity at full
        linarith
      · have rest := ih next behindNext
        rw [lastTime] at rest
        rw [if_neg started, if_neg fun window => started window.1, Nat.cast_zero]
        linarith

end Bound

/--
The tokens never leave the range from zero to the capacity, and in every window of
time at most as many calls are admitted as the capacity before the first call in the
window and the integral of the rate over the window allow.
-/
theorem rate_bound {rate capacity start : ℚ} (rateNonneg : 0 ≤ rate)
    (capacityNonneg : 0 ≤ capacity) {calls : List (ℚ × Call)} (timed : Timed start calls) :
    (∀ before after, calls = before ++ after →
      0 ≤ ((new rate capacity start).run before).tokens ∧
        ((new rate capacity start).run before).tokens ≤
          ((new rate capacity start).run before).capacity) ∧
    ∀ s t, s ≤ t → (admitted s t (new rate capacity start) calls : ℚ) ≤
      capacityBefore s (new rate capacity start) calls +
        rateIntegral s t (new rate capacity start) start calls := by
  have inv := new_inv rateNonneg capacityNonneg start
  constructor
  · rintro before after rfl
    have reached := (inv.run timed).1
    exact ⟨reached.nonneg, reached.within⟩
  · intro s t _
    exact admitted_le_capacity inv timed

/-- Two calls in the first half second, a third one a second later. -/
def threeCalls : List (ℚ × Call) := [(0, .allow), (1 / 2, .allow), (3 / 2, .allow)]

theorem rate_bound_threeCalls :
    (admitted 0 (1 / 2) (new 1 1 0) threeCalls : ℚ) ≤ 3 / 2 := by
  have timed : Timed 0 threeCalls := by
    simp only [Timed, threeCalls, Call.Valid]
    norm_num
  have bound := (@rate_bound 1 1 0 (by decide) (by decide) _ timed).2 0 (1 / 2) (by norm_num)
  have value : capacityBefore 0 (new 1 1 0) threeCalls +
      rateIntegral 0 (1 / 2) (new 1 1 0) 0 threeCalls = 3 / 2 := by
    decide +kernel
  exact value ▸ bound

/-! ## Observers -/

/-- Whether a call may change the bucket. -/
def Call.acts : Call → Bool
  | .availableTokens => false
  | _ => true

/-- The calls with what they return and the bucket after them. -/
def trace (b : TokenBucket) : List (ℚ × Call) → List ((ℚ × Call) × Outcome × TokenBucket)
  | [] => []
  | (now, call) :: rest => ((now, call), b.step (now, call)) :: trace (b.step (now, call)).2 rest

section Observers

variable {b : TokenBucket}

theorem step_refill (rate : 0 ≤ b.rate) {seen now : ℚ} (ordered : seen ≤ now) (call : Call) :
    (b.refill seen).step (now, call) = b.step (now, call) := by
  rw [step_eq, step_eq, refill_refill rate ordered]
  rfl

theorem trace_refill (rate : 0 ≤ b.rate) {seen : ℚ} {calls : List (ℚ × Call)}
    (timed : Timed seen calls) : trace (b.refill seen) calls = trace b calls := by
  cases calls with
  | nil => rfl
  | cons call calls => rw [trace, trace, step_refill rate timed.1]

theorem step_rate (rate : 0 ≤ b.rate) {now : ℚ} {call : Call} (valid : call.Valid) :
    0 ≤ (b.step (now, call)).2.rate := by
  rw [step_eq]
  cases call with
  | allow =>
      dsimp only
      split
      · exact rate
      · exact rate
  | setRate newRate capacity => exact valid
  | availableTokens => exact rate

theorem Timed.weaken {since earlier : ℚ} {calls : List (ℚ × Call)} (timed : Timed since calls)
    (ordered : earlier ≤ since) : Timed earlier calls := by
  cases calls with
  | nil => trivial
  | cons call calls => exact ⟨ordered.trans timed.1, timed.2⟩

theorem Timed.filter {since : ℚ} {calls : List (ℚ × Call)} (timed : Timed since calls) :
    Timed since (calls.filter fun call => call.2.acts) := by
  induction calls generalizing since with
  | nil => trivial
  | cons call calls ih =>
      obtain ⟨ordered, valid, later⟩ := timed
      rw [List.filter_cons]
      split
      · exact ⟨ordered, valid, ih later⟩
      · exact (ih later).weaken ordered

/--
Calls of `availableTokens`, at whatever times, change neither what another call
returns nor the bucket after it.
-/
theorem observers_change_nothing (rate : 0 ≤ b.rate) {calls : List (ℚ × Call)}
    (timed : Timed b.lastRefillTime calls) :
    (trace b calls).filter (fun entry => entry.1.2.acts) =
      trace b (calls.filter fun call => call.2.acts) := by
  induction calls generalizing b with
  | nil => rfl
  | cons call calls ih =>
      obtain ⟨now, call⟩ := call
      obtain ⟨ordered, valid, later⟩ := timed
      have rest := ih (@step_rate b rate now call valid) (by rw [step_lastRefillTime]; exact later)
      rw [trace, List.filter_cons, List.filter_cons, rest]
      cases call with
      | allow => rfl
      | setRate newRate capacity => rfl
      | availableTokens => exact trace_refill rate later.filter

end Observers

theorem observers_change_nothing_threeCalls :
    (trace (new 1 1 0) [(0, .allow), (1 / 3, .availableTokens), (1 / 2, .allow)]).filter
        (fun entry => entry.1.2.acts) = trace (new 1 1 0) [(0, .allow), (1 / 2, .allow)] := by
  have timed : Timed (new 1 1 0).lastRefillTime
      [(0, .allow), (1 / 3, .availableTokens), (1 / 2, .allow)] := by
    simp only [Timed, new, Call.Valid]
    norm_num
  exact observers_change_nothing (by decide) timed

end TokenBucket

end RpcFramework
