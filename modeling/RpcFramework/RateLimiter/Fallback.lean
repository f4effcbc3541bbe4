import RpcFramework.RateLimiter.RedisAdmission

/-!
# The fallback beside the local bucket

A `RedisTokenBucket` without a server keeps two buckets.  `allow` takes from the
local one, `availableTokens` reads the inherited one, and `setRate` changes the
inherited one as a local bucket would but only overwrites the rate and the capacity
of the other one: the time before the change is refilled at the new rate, and tokens
above the new capacity stay until the next call of `allow`.

Whether such a bucket answers as a `TokenBucket` does is a matter of the kinds of the
calls and their times.  The schedules on which it does so for all rates and
capacities are characterised below.
-/

namespace RpcFramework.RedisTokenBucket

open TokenBucket (Call Outcome Timed)

/-- A call in fallback mode, at the time at which it is made. -/
def step (r : RedisTokenBucket) : ℚ × Call → Outcome × RedisTokenBucket
  | (now, .allow) => (.admitted (r.allowLocal now).1, (r.allowLocal now).2)
  | (now, .setRate rate capacity) => (.changed, r.setRate rate capacity now)
  | (now, .availableTokens) =>
      (.level (r.base.availableTokens now).1, { r with base := (r.base.availableTokens now).2 })

def run (r : RedisTokenBucket) (calls : List (ℚ × Call)) : RedisTokenBucket :=
  Mealy.run step r calls

theorem run_append (r : RedisTokenBucket) (first rest : List (ℚ × Call)) :
    r.run (first ++ rest) = (r.run first).run rest :=
  Mealy.run_append ..

inductive Kind where
  | allow
  | setRate
  | availableTokens
  deriving DecidableEq

def kind : Call → Kind
  | .allow => .allow
  | .setRate _ _ => .setRate
  | .availableTokens => .availableTokens

/-- The times and the kinds of the calls. -/
def schedule (calls : List (ℚ × Call)) : List (ℚ × Kind) :=
  calls.map fun call => (call.1, kind call.2)

/-- The entries follow one another and the time `since`. -/
def Ordered (since : ℚ) : List (ℚ × Kind) → Prop
  | [] => True
  | (now, _) :: rest => since ≤ now ∧ Ordered now rest

/-- How far a schedule has come: whether there was an `allow`, the time of the last one
or of the construction, and the times of the calls of `setRate` since then. -/
structure Phase where
  used : Bool
  last : ℚ
  pending : List ℚ

namespace Phase

def next (p : Phase) : ℚ × Kind → Phase
  | (now, .allow) => ⟨true, now, []⟩
  | (now, .setRate) => { p with pending := p.pending ++ [now] }
  | (_, .availableTokens) => p

def Fits (p : Phase) : Kind → Prop
  | .allow => p.pending = [] ∨ p.pending = [p.last]
  | .setRate => True
  | .availableTokens => p.used = false

end Phase

/-- No `availableTokens` follows an `allow`, and between two calls of `allow` there is
at most one of `setRate`, at the time of the first of them. -/
def InStep (p : Phase) : List (ℚ × Kind) → Prop
  | [] => True
  | entry :: rest => p.Fits entry.2 ∧ InStep (p.next entry) rest

/-! ## The calls on the two buckets -/

/-- The bucket that `allow` takes from. -/
def localView (r : RedisTokenBucket) : TokenBucket :=
  ⟨r.localRate, r.localCapacity, r.localTokens, r.localLastRefill⟩

section Steps

variable (r : RedisTokenBucket) (now : ℚ)

theorem allowLocal_eq :
    r.allowLocal now =
      ((r.localView.allow now).1,
        { r with
          localTokens := (r.localView.allow now).2.tokens
          localLastRefill := now }) := by
  by_cases enough : 1 ≤ (r.localView.refill now).tokens
  · rw [TokenBucket.allow, if_pos enough]
    exact if_pos enough
  · rw [TokenBucket.allow, if_neg enough]
    exact if_neg enough

/-- What is called in fallback mode is called without the server. -/
theorem allow_eq_step (fallback : r.fallback = true) (replies : Nat → Option Reply) :
    (allow (fun _ => now) replies 1 0 r).map
        (fun admission => (Outcome.admitted admission.result, admission.bucket)) =
      some (r.step (now, .allow)) := by
  rw [allow_offline (by rw [fallback]; rfl)]
  rfl

theorem localView_allow :
    (r.step (now, .allow)).2.localView = (r.localView.allow now).2 := by
  rw [step, allowLocal_eq]
  unfold TokenBucket.allow
  dsimp only
  split
  · rfl
  · rfl

theorem localView_setRate (rate capacity : ℚ) :
    (r.step (now, .setRate rate capacity)).2.localView =
      ⟨rate, if 0 ≤ capacity then capacity else r.localCapacity, r.localTokens,
        r.localLastRefill⟩ := by
  rw [step, setRate, localView]

end Steps

/-! ## Schedules in step -/

/-- How the buckets are related in a phase.  The local bucket is not refilled by the
calls that refill the other one, so they are compared after a refill. -/
structure Matches (p : Phase) (r : RedisTokenBucket) (b : TokenBucket) : Prop where
  inv : b.Inv
  rate : r.localRate = b.rate
  capacity : r.localCapacity = b.capacity
  last : r.localLastRefill = p.last
  ordered : p.last ≤ b.lastRefillTime
  base : p.used = false → r.base = b
  within : p.pending = [] → r.localTokens ≤ r.localCapacity
  same : p.Fits .allow → ∀ now, b.lastRefillTime ≤ now → r.localView.refill now = b.refill now

section Matching

variable {p : Phase} {r : RedisTokenBucket} {b : TokenBucket} {now : ℚ}

theorem Matches.new (loadReply : Option Reply) (keyPrefix : Bytes) {rate capacity : ℚ}
    (rateNonneg : 0 ≤ rate) (capacityNonneg : 0 ≤ capacity) (start : ℚ) :
    Matches ⟨false, start, []⟩ (new false loadReply keyPrefix rate capacity start)
      (TokenBucket.new rate capacity start) where
  inv := TokenBucket.new_inv rateNonneg capacityNonneg start
  rate := rfl
  capacity := rfl
  last := rfl
  ordered := le_refl _
  base _ := rfl
  within _ := le_refl _
  same _ _ _ := rfl

theorem Matches.allow (matched : Matches p r b) (ordered : b.lastRefillTime ≤ now)
    (fits : p.Fits .allow) :
    (r.step (now, .allow)).1 = (b.step (now, .allow)).1 ∧
      Matches (p.next (now, .allow)) (r.step (now, .allow)).2 (b.step (now, .allow)).2 := by
  have equal : r.localView.allow now = b.allow now := by
    unfold TokenBucket.allow
    rw [matched.same fits now ordered]
  have view : (r.step (now, .allow)).2.localView = (b.step (now, .allow)).2 := by
    rw [localView_allow, equal]
    rfl
  have inv : (b.step (now, .allow)).2.Inv := matched.inv.step ordered trivial
  constructor
  · rw [step, allowLocal_eq, equal]
    rfl
  · exact
      { inv := inv
        rate := congrArg TokenBucket.rate view
        capacity := congrArg TokenBucket.capacity view
        last := congrArg TokenBucket.lastRefillTime view |>.trans (b.step_lastRefillTime now _)
        ordered := (b.step_lastRefillTime now .allow).ge
        base := nofun
        within := fun _ => by
          have inside := inv.within
          rw [← view] at inside
          exact inside
        same := fun _ later _ => by rw [view] }

theorem Matches.setRate (matched : Matches p r b) (ordered : b.lastRefillTime ≤ now)
    {rate capacity : ℚ} (rateNonneg : 0 ≤ rate) :
    Matches (p.next (now, .setRate)) (r.step (now, .setRate rate capacity)).2
      (b.step (now, .setRate rate capacity)).2 where
  inv := matched.inv.step ordered rateNonneg
  rate := by
    rw [TokenBucket.step_eq]
    rfl
  capacity := by
    rw [TokenBucket.step_eq]
    exact matched.capacity ▸ rfl
  last := matched.last
  ordered := by
    rw [TokenBucket.step_lastRefillTime]
    exact matched.ordered.trans ordered
  base unused := by
    change r.base.setRate rate capacity now = b.setRate rate capacity now
    rw [matched.base unused]
  within empty := absurd empty (by simp [Phase.next])
  same fits later after := by
    -- the only change so far, at the time of the last `allow`: nothing has come in since
    have pending : p.pending = [] ∧ now = p.last := by
      rcases fits with empty | single
      · exact absurd empty (by simp [Phase.next])
      · have single : p.pending ++ [now] = [] ++ [p.last] := single
        obtain ⟨none, single⟩ := List.append_inj' single rfl
        exact ⟨none, (List.cons.inj single).1⟩
    obtain ⟨none, atOnce⟩ := pending
    have tokens : (b.refill now).tokens = r.localTokens := by
      rw [← matched.same (.inl none) now ordered, TokenBucket.refill_tokens]
      have still : now - r.localView.lastRefillTime = 0 := by
        rw [atOnce]
        exact sub_eq_zero.mpr matched.last.symm
      rw [still, zero_mul]
      exact Bucket.refill_zero (matched.within none)
    rw [TokenBucket.step_lastRefillTime] at after
    have income : 0 ≤ (later - now) * rate := mul_nonneg (sub_nonneg.mpr after) rateNonneg
    rw [localView_setRate, TokenBucket.step_eq]
    dsimp only
    rw [tokens, matched.capacity, matched.last, ← atOnce, TokenBucket.refill_eq,
      TokenBucket.refill_eq]
    dsimp only
    rw [Bucket.refill_min income]

theorem Matches.availableTokens (matched : Matches p r b) (ordered : b.lastRefillTime ≤ now)
    (unused : p.used = false) :
    (r.step (now, .availableTokens)).1 = (b.step (now, .availableTokens)).1 ∧
      Matches p (r.step (now, .availableTokens)).2 (b.step (now, .availableTokens)).2 := by
  have base := matched.base unused
  constructor
  · rw [step, base]
    rfl
  · exact
      { inv := matched.inv.refill ordered
        rate := matched.rate
        capacity := matched.capacity
        last := matched.last
        ordered := matched.ordered.trans ordered
        base := fun _ => by
          change r.base.refill now = b.refill now
          rw [base]
        within := matched.within
        same := fun fits later after => by
          have after : now ≤ later := after
          change r.localView.refill later = (b.refill now).refill later
          rw [TokenBucket.refill_refill matched.inv.rate after,
            matched.same fits later (ordered.trans after)] }

end Matching

theorem outputs_of_inStep {p : Phase} {r : RedisTokenBucket} {b : TokenBucket}
    {calls : List (ℚ × Call)} (matched : Matches p r b) (timed : Timed b.lastRefillTime calls)
    (inStep : InStep p (schedule calls)) :
    Mealy.outputs step r calls = Mealy.outputs TokenBucket.step b calls := by
  refine @Mealy.outputs_eq _ _ _ _ step TokenBucket.step
    (fun r b calls => ∃ p, Matches p r b ∧ Timed b.lastRefillTime calls ∧ InStep p (schedule calls))
    ?_ r b calls ⟨p, matched, timed, inStep⟩
  rintro r b ⟨now, call⟩ rest ⟨p, matched, ⟨ordered, valid, later⟩, fits, inStep⟩
  rw [← b.step_lastRefillTime now call] at later
  cases call with
  | allow =>
      obtain ⟨same, next⟩ := matched.allow ordered fits
      exact ⟨same, _, next, later, inStep⟩
  | setRate rate capacity => exact ⟨rfl, _, matched.setRate ordered valid, later, inStep⟩
  | availableTokens =>
      obtain ⟨same, next⟩ := matched.availableTokens ordered fits
      exact ⟨same, _, next, later, inStep⟩

/-! ## Schedules out of step -/

/-- The phase in which each entry of a schedule is met. -/
theorem inStep_iff {p : Phase} {entries : List (ℚ × Kind)} :
    InStep p entries ↔
      ∀ before now kind after, entries = before ++ (now, kind) :: after →
        (before.foldl Phase.next p).Fits kind := by
  induction entries generalizing p with
  | nil => exact ⟨fun _ _ _ _ _ split => absurd split (by simp), fun _ => trivial⟩
  | cons entry rest ih =>
      constructor
      · rintro ⟨fits, later⟩ before now kind after split
        cases before with
        | nil =>
            cases split
            exact fits
        | cons first before =>
            obtain ⟨rfl, rest_eq⟩ := List.cons.inj split
            exact ih.mp later before now kind after rest_eq
      · intro all
        refine ⟨all [] entry.1 entry.2 rest rfl, ih.mpr ?_⟩
        intro before now kind after split
        exact all (entry :: before) now kind after (congrArg (entry :: ·) split)

/-- The last change that is pending, with nothing but readings behind it. -/
theorem split_pending {p : Phase} (empty : p.pending = []) {before : List (ℚ × Kind)}
    {earlier : List ℚ} {now : ℚ}
    (pending : (before.foldl Phase.next p).pending = earlier ++ [now]) :
    ∃ first readings, before = first ++ (now, .setRate) :: readings ∧
      (∀ entry ∈ readings, entry.2 = .availableTokens) ∧
      (first.foldl Phase.next p).pending = earlier ∧
      (first.foldl Phase.next p).last = (before.foldl Phase.next p).last := by
  induction before using List.reverseRecOn with
  | nil =>
      rw [List.foldl_nil, empty] at pending
      exact absurd pending (by simp)
  | append_singleton before entry ih =>
      obtain ⟨time, kind⟩ := entry
      rw [List.foldl_append, List.foldl_cons, List.foldl_nil] at pending ⊢
      cases kind with
      | allow => exact absurd pending (by simp [Phase.next])
      | setRate =>
          obtain ⟨same, time_eq⟩ := List.append_inj' pending rfl
          cases time_eq
          exact ⟨before, [], rfl, List.forall_mem_nil _, same, rfl⟩
      | availableTokens =>
          obtain ⟨first, readings, rfl, onlyReadings, same, last⟩ := ih pending
          refine ⟨first, readings ++ [(time, .availableTokens)], ?_, ?_, same, last⟩
          · rw [List.append_assoc, List.cons_append]
          · intro entry member
            rcases List.mem_append.mp member with early | late
            · exact onlyReadings entry early
            · rw [List.mem_singleton.mp late]

section Order

variable {since now : ℚ} {kind : Kind} {first rest : List (ℚ × Kind)}

theorem Ordered.tail (ordered : Ordered since (first ++ (now, kind) :: rest)) :
    Ordered now rest := by
  induction first generalizing since with
  | nil => exact ordered.2
  | cons entry first ih => exact ih ordered.2

theorem Ordered.le (ordered : Ordered since (first ++ (now, kind) :: rest)) : since ≤ now := by
  induction first generalizing since with
  | nil => exact ordered.1
  | cons entry first ih => exact ordered.1.trans (ih ordered.2)

/-- The last `allow` is over when the next call is made. -/
theorem Ordered.last_le (ordered : Ordered since (first ++ (now, kind) :: rest)) {p : Phase}
    (started : p.last ≤ since) : (first.foldl Phase.next p).last ≤ now := by
  induction first generalizing since p with
  | nil => exact started.trans ordered.1
  | cons entry first ih =>
      obtain ⟨time, entryKind⟩ := entry
      refine ih ordered.2 ?_
      cases entryKind with
      | allow => exact le_refl _
      | setRate => exact started.trans ordered.1
      | availableTokens => exact started.trans ordered.1

theorem Ordered.timed {calls : List (ℚ × Call)} (ordered : Ordered since (schedule calls))
    (valid : ∀ call ∈ calls, call.2.Valid) : Timed since calls := by
  induction calls generalizing since with
  | nil => trivial
  | cons call calls ih =>
      obtain ⟨here, later⟩ := List.forall_mem_cons.mp valid
      exact ⟨ordered.1, here, ih ordered.2 later⟩

end Order

/-- Calls that fit a schedule and change nothing but by taking tokens, at the rate 0. -/
def quiet : Kind → Call
  | .allow => .allow
  | .setRate => .setRate 0 (-1)
  | .availableTokens => .availableTokens

def quietly (entries : List (ℚ × Kind)) : List (ℚ × Call) :=
  entries.map fun entry => (entry.1, quiet entry.2)

theorem schedule_append (first rest : List (ℚ × Call)) :
    schedule (first ++ rest) = schedule first ++ schedule rest :=
  List.map_append

theorem schedule_quietly (entries : List (ℚ × Kind)) : schedule (quietly entries) = entries := by
  induction entries with
  | nil => rfl
  | cons entry rest ih =>
      obtain ⟨now, entryKind⟩ := entry
      rw [quietly, List.map_cons, schedule, List.map_cons, ← quietly, ← schedule, ih]
      cases entryKind with
      | allow => rfl
      | setRate => rfl
      | availableTokens => rfl

theorem quietly_valid (entries : List (ℚ × Kind)) :
    ∀ call ∈ quietly entries, call.2.Valid := by
  intro call member
  obtain ⟨⟨now, entryKind⟩, _, rfl⟩ := List.mem_map.mp member
  cases entryKind with
  | allow => trivial
  | setRate => exact le_refl (0 : ℚ)
  | availableTokens => trivial

/-- A bucket into which nothing comes, with at least `few` tokens. -/
structure Idle (capacity few : ℚ) (b : TokenBucket) : Prop where
  rate : b.rate = 0
  capacity_eq : b.capacity = capacity
  nonneg : 0 ≤ b.tokens
  enough : few ≤ b.tokens
  within : b.tokens ≤ capacity

section Quiet

variable {capacity few : ℚ} {b : TokenBucket} {r : RedisTokenBucket}

theorem Idle.refill_tokens (idle : Idle capacity few b) (now : ℚ) :
    (b.refill now).tokens = b.tokens := by
  rw [TokenBucket.refill_tokens, idle.rate, idle.capacity_eq, mul_zero]
  exact Bucket.refill_zero idle.within

theorem Idle.refill (idle : Idle capacity few b) (now : ℚ) : Idle capacity few (b.refill now) := by
  have tokens := idle.refill_tokens now
  exact ⟨idle.rate, idle.capacity_eq, tokens ▸ idle.nonneg, tokens ▸ idle.enough,
    tokens ▸ idle.within⟩

theorem Idle.fewer (idle : Idle capacity few b) : Idle capacity (few - 1) b :=
  ⟨idle.rate, idle.capacity_eq, idle.nonneg, (sub_le_self _ zero_le_one).trans idle.enough,
    idle.within⟩

theorem Idle.allow (idle : Idle capacity few b) (now : ℚ) :
    Idle capacity (few - 1) (b.allow now).2 := by
  have filled := idle.refill now
  unfold TokenBucket.allow
  dsimp only
  split
  · next one =>
      exact ⟨filled.rate, filled.capacity_eq, sub_nonneg.mpr one, sub_le_sub_right filled.enough 1,
        (sub_le_self _ zero_le_one).trans filled.within⟩
  · exact filled.fewer

theorem Idle.setRate (idle : Idle capacity few b) (now : ℚ) :
    Idle capacity few (b.step (now, .setRate 0 (-1))).2 := by
  have tokens := idle.refill_tokens now
  have negative : ¬ (0 : ℚ) ≤ -1 := by decide
  rw [TokenBucket.step_eq]
  dsimp only
  rw [if_neg negative, tokens, idle.capacity_eq, min_eq_right idle.within]
  exact ⟨rfl, rfl, idle.nonneg, idle.enough, idle.within⟩

theorem Idle.step (idle : Idle capacity few b) (now : ℚ) (entryKind : Kind) :
    Idle capacity (few - 1) (b.step (now, quiet entryKind)).2 := by
  cases entryKind with
  | allow => exact idle.allow now
  | setRate => exact (idle.setRate now).fewer
  | availableTokens => exact (idle.refill now).fewer

theorem Idle.localStep (idle : Idle capacity few r.localView) (now : ℚ) (entryKind : Kind) :
    Idle capacity (few - 1) (r.step (now, quiet entryKind)).2.localView := by
  cases entryKind with
  | allow =>
      rw [quiet, localView_allow]
      exact idle.allow now
  | setRate =>
      exact ⟨rfl, idle.capacity_eq, idle.nonneg, idle.fewer.enough, idle.within⟩
  | availableTokens => exact idle.fewer

/-- Each call takes at most one token from each of the buckets. -/
theorem Idle.run (idle : Idle capacity few b) (localIdle : Idle capacity few r.localView)
    (entries : List (ℚ × Kind)) :
    Idle capacity (few - entries.length) (b.run (quietly entries)) ∧
      Idle capacity (few - entries.length) (r.run (quietly entries)).localView := by
  induction entries generalizing few b r with
  | nil =>
      rw [List.length_nil, Nat.cast_zero, sub_zero]
      exact ⟨idle, localIdle⟩
  | cons entry rest ih =>
      have length : few - ((entry :: rest).length : ℚ) = few - 1 - rest.length := by
        rw [List.length_cons, Nat.cast_succ]
        ring
      rw [length]
      exact ih (idle.step entry.1 entry.2) (localIdle.localStep entry.1 entry.2)

theorem localLastRefill_run {p : Phase} (last : r.localLastRefill = p.last)
    (entries : List (ℚ × Kind)) :
    (r.run (quietly entries)).localLastRefill = (entries.foldl Phase.next p).last := by
  induction entries generalizing r p with
  | nil => exact last
  | cons entry rest ih =>
      obtain ⟨now, entryKind⟩ := entry
      refine @ih (r.step (now, quiet entryKind)).2 (p.next (now, entryKind)) ?_
      cases entryKind with
      | allow =>
          rw [quiet, step, allowLocal_eq]
          rfl
      | setRate => exact last
      | availableTokens => exact last

theorem localView_readings {readings : List (ℚ × Kind)}
    (onlyReadings : ∀ entry ∈ readings, entry.2 = .availableTokens) :
    (r.run (quietly readings)).localView = r.localView := by
  induction readings generalizing r with
  | nil => rfl
  | cons entry rest ih =>
      obtain ⟨here, later⟩ := List.forall_mem_cons.mp onlyReadings
      obtain ⟨now, _⟩ := entry
      cases here
      exact ih later

theorem refill_readings (rate : 0 ≤ b.rate) {readings rest : List (ℚ × Kind)} {now : ℚ}
    {kind : Kind} (onlyReadings : ∀ entry ∈ readings, entry.2 = .availableTokens)
    (ordered : Ordered b.lastRefillTime (readings ++ (now, kind) :: rest)) :
    (b.run (quietly readings)).refill now = b.refill now := by
  induction readings generalizing b with
  | nil => rfl
  | cons entry readings ih =>
      obtain ⟨here, later⟩ := List.forall_mem_cons.mp onlyReadings
      obtain ⟨time, _⟩ := entry
      cases here
      have before : time ≤ now := ordered.2.le
      rw [← TokenBucket.refill_refill rate before]
      exact @ih (b.refill time) rate later ordered.2

/-- A change that sets both values, and readings. -/
def change (now rate capacity : ℚ) (readings : List (ℚ × Kind)) : List (ℚ × Call) :=
  (now, .setRate rate capacity) :: quietly readings

theorem schedule_change (now rate capacity : ℚ) (readings : List (ℚ × Kind)) :
    schedule (change now rate capacity readings) = (now, .setRate) :: readings :=
  congrArg ((now, Kind.setRate) :: ·) (schedule_quietly readings)

theorem change_valid {rate : ℚ} (nonneg : 0 ≤ rate) (now capacity : ℚ)
    (readings : List (ℚ × Kind)) : ∀ call ∈ change now rate capacity readings, call.2.Valid :=
  List.forall_mem_cons.mpr ⟨nonneg, quietly_valid readings⟩

theorem localView_change {now rate capacity : ℚ} (nonneg : 0 ≤ capacity)
    {readings : List (ℚ × Kind)}
    (onlyReadings : ∀ entry ∈ readings, entry.2 = .availableTokens) :
    (r.run (change now rate capacity readings)).localView =
      ⟨rate, capacity, r.localTokens, r.localLastRefill⟩ := by
  have view := @localView_readings (r.step (now, .setRate rate capacity)).2 _ onlyReadings
  rw [localView_setRate, if_pos nonneg] at view
  exact view

theorem refill_change {now rate capacity : ℚ} (rateNonneg : 0 ≤ rate) (nonneg : 0 ≤ capacity)
    {readings rest : List (ℚ × Kind)} {later : ℚ} {kind : Kind}
    (onlyReadings : ∀ entry ∈ readings, entry.2 = .availableTokens)
    (ordered : Ordered now (readings ++ (later, kind) :: rest)) :
    (b.run (change now rate capacity readings)).refill later =
      (TokenBucket.mk rate capacity (min capacity (b.refill now).tokens) now).refill later := by
  have changed : (b.step (now, .setRate rate capacity)).2 =
      ⟨rate, capacity, min capacity (b.refill now).tokens, now⟩ := by
    rw [TokenBucket.step_eq]
    dsimp only
    rw [if_pos nonneg]
  have read := @refill_readings ⟨rate, capacity, min capacity (b.refill now).tokens, now⟩ rateNonneg
    _ _ _ _ onlyReadings ordered
  rw [← changed] at read ⊢
  exact read

end Quiet

/-! ## Every schedule out of step shows -/

section Shows

/-- The fallback answers as the local bucket does, at all rates and capacities. -/
def Agrees (loadReply : Option Reply) (keyPrefix : Bytes) (start : ℚ)
    (entries : List (ℚ × Kind)) : Prop :=
  ∀ rate capacity calls, 0 ≤ rate → 0 ≤ capacity → schedule calls = entries →
    Timed start calls →
      Mealy.outputs step (new false loadReply keyPrefix rate capacity start) calls =
        Mealy.outputs TokenBucket.step (TokenBucket.new rate capacity start) calls

variable {start : ℚ} {loadReply : Option Reply} {keyPrefix : Bytes} {entries : List (ℚ × Kind)}

/-- What is seen of two buckets that agree when `allow` is called. -/
theorem Agrees.admits_iff (agrees : Agrees loadReply keyPrefix start entries)
    (ordered : Ordered start entries) {rate capacity now : ℚ} (rateNonneg : 0 ≤ rate)
    (capacityNonneg : 0 ≤ capacity) {before : List (ℚ × Call)}
    (valid : ∀ call ∈ before, call.2.Valid) {after : List (ℚ × Kind)}
    (split : entries = schedule before ++ (now, .allow) :: after) :
    1 ≤ (((new false loadReply keyPrefix rate capacity start).run before).localView.refill
      now).tokens ↔
      1 ≤ (((TokenBucket.new rate capacity start).run before).refill now).tokens := by
  have fits : schedule (before ++ (now, .allow) :: quietly after) = entries := by
    rw [split, schedule_append]
    exact congrArg (schedule before ++ (now, Kind.allow) :: ·) (schedule_quietly after)
  have timed : Timed start (before ++ (now, .allow) :: quietly after) := by
    rw [← fits] at ordered
    refine ordered.timed ?_
    rw [List.forall_mem_append, List.forall_mem_cons]
    exact ⟨valid, trivial, quietly_valid after⟩
  have same := Mealy.output_eq (agrees rate capacity _ rateNonneg capacityNonneg fits timed)
  have allowed : ∀ b : TokenBucket, (b.allow now).1 = decide (1 ≤ (b.refill now).tokens) := by
    intro b
    unfold TokenBucket.allow
    dsimp only
    split
    · next enough => rw [decide_eq_true enough]
    · next short => rw [decide_eq_false short]
  rw [step, allowLocal_eq, TokenBucket.step, allowed, allowed] at same
  exact decide_eq_decide.mp (Outcome.admitted.inj same)

/-- The inherited bucket is full, and the other one has given its only token as soon as
`allow` was called. -/
structure Spent (p : Phase) (r : RedisTokenBucket) (b : TokenBucket) : Prop where
  full : Idle 1 1 r.base
  idle : Idle 1 0 b
  spent : p.used = true → b.tokens < 1

theorem Idle.allow_lt {few : ℚ} {b : TokenBucket} (idle : Idle 1 few b) (now : ℚ) :
    (b.allow now).2.tokens < 1 := by
  have within := (idle.refill now).within
  unfold TokenBucket.allow
  dsimp only
  split
  · exact (sub_nonpos.mpr within).trans_lt zero_lt_one
  · next short => exact not_le.mp short

theorem Spent.step {p : Phase} {r : RedisTokenBucket} {b : TokenBucket} (spent : Spent p r b)
    (now : ℚ) (kind : Kind) :
    Spent (p.next (now, kind)) (r.step (now, quiet kind)).2 (b.step (now, quiet kind)).2 := by
  cases kind with
  | allow =>
      have lowered := spent.idle.allow now
      refine ⟨?_, { lowered with enough := lowered.nonneg }, fun _ => spent.idle.allow_lt now⟩
      rw [quiet, RedisTokenBucket.step, allowLocal_eq]
      exact spent.full
  | setRate =>
      refine ⟨spent.full.setRate now, spent.idle.setRate now, fun used => ?_⟩
      have balance := b.step_balance now (.setRate 0 (-1))
      rw [spent.idle.refill_tokens now] at balance
      exact ((le_add_of_nonneg_left (Nat.cast_nonneg _)).trans balance).trans_lt (spent.spent used)
  | availableTokens =>
      refine ⟨spent.full.refill now, spent.idle.refill now, fun used => ?_⟩
      exact (spent.idle.refill_tokens now).trans_lt (spent.spent used)

theorem Spent.run {p : Phase} {r : RedisTokenBucket} {b : TokenBucket} (spent : Spent p r b)
    (entries : List (ℚ × Kind)) :
    Spent (entries.foldl Phase.next p) (r.run (quietly entries)) (b.run (quietly entries)) := by
  induction entries generalizing p r b with
  | nil => exact spent
  | cons entry rest ih => exact ih (spent.step entry.1 entry.2)

/-- With one token and no rate, the reading after an `allow` tells the buckets apart. -/
theorem Agrees.unused (agrees : Agrees loadReply keyPrefix start entries)
    (ordered : Ordered start entries) {before after : List (ℚ × Kind)} {now : ℚ}
    (split : entries = before ++ (now, .availableTokens) :: after) :
    (before.foldl Phase.next ⟨false, start, []⟩).used = false := by
  have fits := schedule_quietly entries
  have timed : Timed start (quietly entries) := by
    rw [← fits] at ordered
    exact ordered.timed (quietly_valid entries)
  have outputs := agrees 0 1 _ (le_refl 0) zero_le_one fits timed
  rw [split, quietly, List.map_append, List.map_cons, ← quietly, ← quietly] at outputs
  have same := Mealy.output_eq outputs
  have spent : Spent ⟨false, start, []⟩ (new false loadReply keyPrefix 0 1 start)
      (TokenBucket.new 0 1 start) :=
    ⟨⟨rfl, rfl, zero_le_one, le_refl _, le_refl _⟩,
      ⟨rfl, rfl, zero_le_one, zero_le_one, le_refl _⟩, nofun⟩
  have reached := spent.run before
  have levels := (reached.full.refill_tokens now).symm.trans
    ((Outcome.level.inj same).trans (reached.idle.refill_tokens now))
  rw [← Bool.not_eq_true]
  intro used
  exact not_le.mpr (reached.spent used) (levels ▸ reached.full.enough)

/-- With no token before it, a change that comes late pays for the time before it. -/
theorem Agrees.atOnce (agrees : Agrees loadReply keyPrefix start entries)
    (ordered : Ordered start entries) {first readings after : List (ℚ × Kind)} {now later : ℚ}
    (onlyReadings : ∀ entry ∈ readings, entry.2 = .availableTokens)
    (split : entries = first ++ (now, .setRate) :: (readings ++ (later, .allow) :: after)) :
    now = (first.foldl Phase.next ⟨false, start, []⟩).last := by
  have afterChange : Ordered now (readings ++ (later, .allow) :: after) :=
    Ordered.tail (split ▸ ordered)
  have notBefore : (first.foldl Phase.next ⟨false, start, []⟩).last ≤ now :=
    Ordered.last_le (split ▸ ordered) (le_refl start)
  generalize last_eq : (first.foldl Phase.next ⟨false, start, []⟩).last = last at notBefore ⊢
  by_contra differs
  have gap : last < now := lt_of_le_of_ne notBefore (Ne.symm differs)
  have span : 0 < later - last := sub_pos.mpr (gap.trans_le afterChange.le)
  have rate : 0 ≤ (later - last)⁻¹ := inv_nonneg.mpr span.le
  have idle : Idle 0 0 (TokenBucket.new 0 0 start) :=
    ⟨rfl, rfl, le_refl _, le_refl _, le_refl _⟩
  obtain ⟨reached, reachedLocal⟩ :=
    @Idle.run 0 0 _ (new false loadReply keyPrefix 0 0 start) idle idle first
  have last_run := @localLastRefill_run (new false loadReply keyPrefix 0 0 start)
    ⟨false, start, []⟩ rfl first
  have admits := @Agrees.admits_iff start loadReply keyPrefix entries agrees ordered 0 0 later
    (le_refl 0) (le_refl 0) (quietly first ++ change now (later - last)⁻¹ 1 readings)
    (List.forall_mem_append.mpr ⟨quietly_valid first, change_valid rate now 1 readings⟩) after
    (by rw [split, schedule_append, schedule_quietly, schedule_change, List.append_assoc]; rfl)
  rw [run_append, TokenBucket.run_append, localView_change zero_le_one onlyReadings,
    refill_change rate zero_le_one onlyReadings afterChange, TokenBucket.refill_tokens,
    TokenBucket.refill_tokens, reached.refill_tokens now] at admits
  dsimp only at admits
  have empty : ((TokenBucket.new 0 0 start).run (quietly first)).tokens = 0 :=
    le_antisymm reached.within reached.nonneg
  have emptyLocal : ((new false loadReply keyPrefix 0 0 start).run (quietly first)).localTokens = 0 :=
    le_antisymm reachedLocal.within reachedLocal.nonneg
  rw [empty, emptyLocal, last_run, last_eq, mul_inv_cancel₀ span.ne', min_eq_right zero_le_one]
    at admits
  have admitted : (1 : ℚ) ≤ Bucket.refill 1 0 1 := by
    rw [Bucket.refill, zero_add, min_self]
  have income : (later - now) * (later - last)⁻¹ < 1 := by
    rw [← div_eq_mul_inv, div_lt_one span]
    exact sub_lt_sub_left gap later
  have enough := (admits.mp admitted).trans (Bucket.refill_le ..)
  rw [zero_add] at enough
  exact not_le.mpr income enough

/-- A first change takes all tokens, which the local bucket keeps; a second one makes
room for them again. -/
theorem Agrees.atMostOnce (agrees : Agrees loadReply keyPrefix start entries)
    (ordered : Ordered start entries) {first middle readings after : List (ℚ × Kind)}
    {earlier now later : ℚ} (onlyMiddle : ∀ entry ∈ middle, entry.2 = .availableTokens)
    (onlyReadings : ∀ entry ∈ readings, entry.2 = .availableTokens) :
    entries ≠ first ++ (earlier, .setRate) :: (middle ++
      (now, .setRate) :: (readings ++ (later, .allow) :: after)) := by
  intro split
  have afterFirst : Ordered earlier
      (middle ++ (now, .setRate) :: (readings ++ (later, .allow) :: after)) :=
    Ordered.tail (split ▸ ordered)
  have afterChange := afterFirst.tail
  generalize capacity_eq : 1 + (first.length : ℚ) = capacity
  have one : 1 ≤ capacity := by
    rw [← capacity_eq]
    exact le_add_of_nonneg_right (Nat.cast_nonneg _)
  have nonneg : 0 ≤ capacity := zero_le_one.trans one
  have idle : Idle capacity capacity (TokenBucket.new 0 capacity start) :=
    ⟨rfl, rfl, nonneg, le_refl _, le_refl _⟩
  obtain ⟨reached, reachedLocal⟩ :=
    @Idle.run capacity capacity _ (new false loadReply keyPrefix 0 capacity start) idle idle first
  have admits := @Agrees.admits_iff start loadReply keyPrefix entries agrees ordered 0 capacity later
    (le_refl 0) nonneg
    (quietly first ++ (change earlier 0 0 middle ++ change now 0 capacity readings))
    (List.forall_mem_append.mpr ⟨quietly_valid first, List.forall_mem_append.mpr
      ⟨change_valid (le_refl 0) earlier 0 middle, change_valid (le_refl 0) now capacity readings⟩⟩)
    after
    (by
      rw [split, schedule_append, schedule_append, schedule_quietly, schedule_change,
        schedule_change, List.append_assoc, List.append_assoc]
      rfl)
  rw [run_append, run_append, TokenBucket.run_append, TokenBucket.run_append,
    localView_change nonneg onlyReadings, refill_change (le_refl 0) nonneg onlyReadings afterChange,
    refill_change (le_refl 0) (le_refl 0) onlyMiddle afterFirst, TokenBucket.refill_tokens,
    TokenBucket.refill_tokens, TokenBucket.refill_tokens] at admits
  dsimp only at admits
  rw [mul_zero, mul_zero, mul_zero] at admits
  have kept := congrArg TokenBucket.tokens (@localView_change
    ((new false loadReply keyPrefix 0 capacity start).run (quietly first)) earlier 0 0 (le_refl 0)
    middle onlyMiddle)
  have left : capacity - first.length = 1 := by
    rw [← capacity_eq, add_sub_cancel_right]
  have enough := (left ▸ reachedLocal.enough).trans_eq kept.symm
  have emptied := (admits.mp (le_min one (enough.trans (add_zero _).ge))).trans (Bucket.refill_le ..)
  rw [add_zero] at emptied
  have none := emptied.trans ((min_le_right _ _).trans (Bucket.refill_le_capacity ..))
  exact absurd none (by decide)

end Shows

/--
The fallback answers as a local bucket does, at all rates and capacities, exactly on
the schedules in which no reading follows an `allow`, and at most one change of the
rate comes between two calls of `allow`, at the time of the first of them.
-/
theorem fallback_agrees_iff (loadReply : Option Reply) (keyPrefix : Bytes) {start : ℚ}
    {entries : List (ℚ × Kind)} (ordered : Ordered start entries) :
    Agrees loadReply keyPrefix start entries ↔ InStep ⟨false, start, []⟩ entries := by
  constructor
  · intro agrees
    rw [inStep_iff]
    intro before now kind after split
    cases kind with
    | allow =>
        rcases List.eq_nil_or_concat (before.foldl Phase.next ⟨false, start, []⟩).pending with
          empty | ⟨earlier, change, pending⟩
        · exact .inl empty
        · rw [List.concat_eq_append] at pending
          obtain ⟨first, readings, rfl, onlyReadings, pendingBefore, last⟩ :=
            split_pending rfl pending
          rw [List.append_assoc, List.cons_append] at split
          rcases List.eq_nil_or_concat earlier with rfl | ⟨others, one, rfl⟩
          · have atOnce := agrees.atOnce ordered onlyReadings split
            rw [last] at atOnce
            rw [Phase.Fits, pending, ← atOnce]
            exact .inr rfl
          · rw [List.concat_eq_append] at pendingBefore
            obtain ⟨start, middle, rfl, onlyMiddle, _⟩ := split_pending rfl pendingBefore
            rw [List.append_assoc, List.cons_append] at split
            exact absurd split (agrees.atMostOnce ordered onlyMiddle onlyReadings)
    | setRate => trivial
    | availableTokens => exact agrees.unused ordered split
  · intro inStep rate capacity calls rateNonneg capacityNonneg fits timed
    exact outputs_of_inStep (Matches.new loadReply keyPrefix rateNonneg capacityNonneg start) timed
      (fits.symm ▸ inStep)

/-- A burst, a new rate and another burst. -/
theorem fallback_agrees_iff_twoBursts :
    Agrees none (text "rpc_rl") 0
      [(0, .availableTokens), (0, .allow), (1, .allow), (1, .setRate), (2, .allow)] := by
  refine (fallback_agrees_iff none (text "rpc_rl") ?_).mpr ?_
  · simp only [Ordered]
    norm_num
  · simp [InStep, Phase.Fits, Phase.next]

/-- A token that was taken is still read, and a second is paid at a rate that came late. -/
theorem fallback_differs :
    Mealy.outputs step (new false none (text "rpc_rl") 0 1 0) [(0, .allow), (0, .availableTokens)] ≠
        Mealy.outputs TokenBucket.step (TokenBucket.new 0 1 0)
          [(0, .allow), (0, .availableTokens)] ∧
      Mealy.outputs step (new false none (text "rpc_rl") 0 0 0)
          [(1, .setRate 1 1), (3 / 2, .allow)] ≠
        Mealy.outputs TokenBucket.step (TokenBucket.new 0 0 0)
          [(1, .setRate 1 1), (3 / 2, .allow)] := by
  decide +kernel

end RpcFramework.RedisTokenBucket
