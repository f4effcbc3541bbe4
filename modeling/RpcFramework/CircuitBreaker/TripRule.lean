import RpcFramework.CircuitBreaker.Breaker

/-!
# When the breaker trips and how long it stays open

The failure count, the state and the time of opening are written by different
calls.  Over whole sequences of calls they stay consistent: in CLOSED the count
is the number of failures since the last reset, and after a transition to OPEN
no call changes anything before the open timeout has passed.
-/

namespace RpcFramework.CircuitBreaker

namespace Call

/-- The readings of the clock that come with a call. -/
def times : Call → List Int
  | .allowRequest now later => [now, later]
  | .recordSuccess => []
  | .recordFailure now => [now]

def isFailure : Call → Bool
  | .recordFailure _ => true
  | _ => false

end Call

/-- The readings of the clock do not decrease. -/
def Ordered (calls : List Call) : Prop :=
  (calls.flatMap Call.times).Pairwise (· ≤ ·)

/-- A success recorded in CLOSED, or an entry into CLOSED. -/
def Resets (cb : CircuitBreaker) (call : Call) : Prop :=
  (cb.state = .closed ∧ call = .recordSuccess) ∨
    (cb.state ≠ .closed ∧ (cb.step call).state = .closed)

instance (cb : CircuitBreaker) (call : Call) : Decidable (cb.Resets call) :=
  inferInstanceAs (Decidable (_ ∨ _))

/-- The calls since the last reset, from a breaker with the calls `since` behind it. -/
def sinceReset (cb : CircuitBreaker) (since : List Call) : List Call → List Call
  | [] => since
  | call :: rest =>
      sinceReset (cb.step call) (if cb.Resets call then [] else since ++ [call]) rest

def failures (calls : List Call) : Nat := calls.countP Call.isFailure

/-! ## What a call can do -/

inductive Moves (cb : CircuitBreaker) : Call → CircuitBreaker → Prop
  | admitted (closed : cb.state = .closed) (now later : Int) :
      Moves cb (.allowRequest now later) cb
  | cleared (closed : cb.state = .closed) : Moves cb .recordSuccess { cb with failureCount := 0 }
  | counted (closed : cb.state = .closed) (now : Int)
      (fewer : cb.failureCount + 1 < cb.failureThreshold) :
      Moves cb (.recordFailure now) { cb with failureCount := cb.failureCount + 1 }
  | tripped (closed : cb.state = .closed) (now : Int)
      (reached : cb.failureThreshold ≤ cb.failureCount + 1) :
      Moves cb (.recordFailure now)
        ({ cb with failureCount := cb.failureCount + 1 }.transitionToOpen now)
  | refused (opened : cb.state = .opened) (now later : Int)
      (early : now - cb.openedAt < nanos cb.openTimeout) : Moves cb (.allowRequest now later) cb
  | reopened (opened : cb.state = .opened) (now later : Int)
      (elapsed : nanos cb.openTimeout ≤ now - cb.openedAt) :
      Moves cb (.allowRequest now later) cb.transitionToHalfOpen
  | ignoredSuccess (opened : cb.state = .opened) : Moves cb .recordSuccess cb
  | ignoredFailure (opened : cb.state = .opened) (now : Int) : Moves cb (.recordFailure now) cb
  | probed (half : cb.state = .halfOpen) (now later openedAt halfOpenRequests : Int) :
      Moves cb (.allowRequest now later)
        { cb with openedAt := openedAt, halfOpenRequests := halfOpenRequests }
  | recovered (half : cb.state = .halfOpen) : Moves cb .recordSuccess cb.transitionToClosed
  | failed (half : cb.state = .halfOpen) (now : Int) :
      Moves cb (.recordFailure now) (cb.transitionToOpen now)

theorem takeProbe_eq (cb : CircuitBreaker) :
    ∃ halfOpenRequests, cb.takeProbe.2 = { cb with halfOpenRequests := halfOpenRequests } := by
  unfold takeProbe
  split
  · exact ⟨1, rfl⟩
  · exact ⟨cb.halfOpenRequests, rfl⟩

theorem allowRequestHalfOpen_eq (cb : CircuitBreaker) (now later : Int) :
    ∃ openedAt halfOpenRequests, (cb.allowRequestHalfOpen now later).2 =
      { cb with openedAt := openedAt, halfOpenRequests := halfOpenRequests } := by
  unfold allowRequestHalfOpen
  dsimp only
  split
  · obtain ⟨requests, taken⟩ := takeProbe_eq { cb with halfOpenRequests := 0, openedAt := later }
    exact ⟨later, requests, taken⟩
  · obtain ⟨requests, taken⟩ := takeProbe_eq cb
    exact ⟨cb.openedAt, requests, taken⟩

theorem step_moves (cb : CircuitBreaker) (call : Call) : cb.Moves call (cb.step call) := by
  cases state : cb.state with
  | closed =>
      cases call with
      | allowRequest now later =>
          simp only [step, allowRequest, state]
          exact .admitted state now later
      | recordSuccess =>
          simpa only [step, recordSuccess, state] using Moves.cleared state
      | recordFailure now =>
          simp only [step, recordFailure, state]
          split
          · next reached => exact .tripped state now reached
          · next fewer =>
              simpa only [state] using Moves.counted state now (Int.lt_of_not_ge fewer)
  | opened =>
      cases call with
      | allowRequest now later =>
          simp only [step, allowRequest, allowRequestOpen, state]
          split
          · next elapsed => exact .reopened state now later elapsed
          · next early => exact .refused state now later (Int.lt_of_not_ge early)
      | recordSuccess =>
          simp only [step, recordSuccess, state]
          exact .ignoredSuccess state
      | recordFailure now =>
          simp only [step, recordFailure, state]
          exact .ignoredFailure state now
  | halfOpen =>
      cases call with
      | allowRequest now later =>
          obtain ⟨openedAt, requests, probed⟩ := cb.allowRequestHalfOpen_eq now later
          simpa only [step, allowRequest, state, probed] using
            Moves.probed state now later openedAt requests
      | recordSuccess =>
          simp only [step, recordSuccess, state]
          exact .recovered state
      | recordFailure now =>
          simp only [step, recordFailure, state]
          exact .failed state now

/-! ## The failure count -/

/-- In CLOSED the count is the number of the failures since the reset, and it is
below the threshold. -/
structure Counted (failureThreshold : Int) (cb : CircuitBreaker) (since : List Call) : Prop where
  threshold : cb.failureThreshold = failureThreshold
  count : cb.state = .closed → cb.failureCount = failures since
  below : cb.state = .closed → cb.failureCount < failureThreshold

theorem new_counted {failureThreshold : Int} (positive : 1 ≤ failureThreshold)
    (openTimeoutSec : Int) : Counted failureThreshold (new failureThreshold openTimeoutSec) [] :=
  ⟨rfl, fun _ => rfl, fun _ => positive⟩

theorem failures_append (calls : List Call) (call : Call) :
    failures (calls ++ [call]) = failures calls + if call.isFailure then 1 else 0 := by
  rw [failures, List.countP_append, List.countP_singleton]
  rfl

section Counting

variable {failureThreshold : Int} {cb : CircuitBreaker} {since : List Call}

/-- A breaker outside CLOSED has nothing to count. -/
theorem Counted.of_not_closed (next : CircuitBreaker)
    (threshold : next.failureThreshold = failureThreshold) (other : next.state ≠ .closed) :
    Counted failureThreshold next since :=
  ⟨threshold, fun closed => absurd closed other, fun closed => absurd closed other⟩

theorem Counted.step (positive : 1 ≤ failureThreshold) (counted : Counted failureThreshold cb since)
    (call : Call) :
    Counted failureThreshold (cb.step call) (if cb.Resets call then [] else since ++ [call]) := by
  obtain ⟨threshold, count, below⟩ := counted
  have moved := cb.step_moves call
  have resets : cb.Resets call ↔ (cb.state = .closed ∧ call = .recordSuccess) ∨
    (cb.state ≠ .closed ∧ (cb.step call).state = .closed) := Iff.rfl
  generalize cb.step call = next at moved resets ⊢
  cases moved with
  | admitted closed now later =>
      rw [if_neg (by simp [resets, closed])]
      refine ⟨threshold, ?_, below⟩
      intro _
      rw [count closed, failures_append]
      rfl
  | cleared closed =>
      rw [if_pos (by simp [resets, closed])]
      exact ⟨threshold, fun _ => rfl, fun _ => positive⟩
  | counted closed now fewer =>
      rw [if_neg (by simp [resets, closed])]
      refine ⟨threshold, ?_, fun _ => threshold ▸ fewer⟩
      intro _
      rw [failures_append, count closed]
      rfl
  | tripped closed now reached => exact .of_not_closed _ threshold nofun
  | refused opened now later early => exact .of_not_closed _ threshold (by simp [opened])
  | reopened opened now later elapsed => exact .of_not_closed _ threshold nofun
  | ignoredSuccess opened => exact .of_not_closed _ threshold (by simp [opened])
  | ignoredFailure opened now => exact .of_not_closed _ threshold (by simp [opened])
  | probed half now later openedAt requests => exact .of_not_closed _ threshold (by simp [half])
  | recovered half =>
      rw [if_pos (by simp [resets, half, transitionToClosed])]
      exact ⟨threshold, fun _ => rfl, fun _ => positive⟩
  | failed half now => exact .of_not_closed _ threshold nofun

theorem Counted.run (positive : 1 ≤ failureThreshold) (counted : Counted failureThreshold cb since)
    (calls : List Call) :
    Counted failureThreshold (cb.run calls) (cb.sinceReset since calls) := by
  induction calls generalizing cb since with
  | nil => exact counted
  | cons call calls ih => exact ih (counted.step positive call)

/-- The breaker leaves CLOSED at the failure that completes the threshold, and at no other call. -/
theorem Counted.leaves_iff (counted : Counted failureThreshold cb since)
    (closed : cb.state = .closed) (call : Call) :
    (cb.step call).state ≠ .closed ↔
      call.isFailure = true ∧ (failures (since ++ [call]) : Int) = failureThreshold := by
  have total : (failures since : Int) < failureThreshold :=
    counted.count closed ▸ counted.below closed
  have moved := cb.step_moves call
  rw [failures_append]
  generalize cb.step call = next at moved ⊢
  cases moved with
  | admitted _ now later => simp [closed, Call.isFailure]
  | cleared _ => simp [closed, Call.isFailure]
  | counted _ now fewer =>
      rw [counted.count closed, counted.threshold] at fewer
      simp only [closed, Call.isFailure, if_true, ne_eq, not_true_eq_false, true_and, false_iff]
      omega
  | tripped _ now reached =>
      rw [counted.count closed, counted.threshold] at reached
      simp only [transitionToOpen, Call.isFailure, if_true, true_and, ne_eq]
      refine iff_of_true (by decide) ?_
      omega
  | refused opened | reopened opened | ignoredSuccess opened | ignoredFailure opened =>
      cases closed.symm.trans opened
  | probed half | recovered half | failed half => cases closed.symm.trans half

end Counting

/-! ## The cool-down -/

section CoolDown

variable {cb : CircuitBreaker}

/-- An open breaker does not change before its timeout. -/
theorem step_of_opened (opened : cb.state = .opened) {call : Call}
    (early : ∀ time ∈ call.times, time < cb.openedAt + nanos cb.openTimeout) :
    cb.step call = cb := by
  have moved := cb.step_moves call
  generalize cb.step call = next at moved ⊢
  cases moved with
  | refused | ignoredSuccess | ignoredFailure => rfl
  | reopened _ now later elapsed =>
      have before := early now (List.mem_cons_self ..)
      omega
  | admitted closed | cleared closed | counted closed | tripped closed =>
      cases closed.symm.trans opened
  | probed half | recovered half | failed half => cases half.symm.trans opened

theorem run_of_opened (opened : cb.state = .opened) {calls : List Call}
    (early : ∀ time ∈ calls.flatMap Call.times, time < cb.openedAt + nanos cb.openTimeout) :
    cb.run calls = cb := by
  induction calls with
  | nil => rfl
  | cons call calls ih =>
      rw [List.flatMap_cons] at early
      have first := step_of_opened opened fun time member =>
        early time (List.mem_append_left _ member)
      have rest := ih fun time member => early time (List.mem_append_right _ member)
      rw [CircuitBreaker.run, List.foldl_cons, first]
      exact rest

/-- Only a recorded failure opens the breaker, and it stores its reading of the clock. -/
theorem opened_by_failure {call : Call} (before : cb.state ≠ .opened)
    (after : (cb.step call).state = .opened) :
    ∃ time, call = .recordFailure time ∧ (cb.step call).openedAt = time := by
  have moved := cb.step_moves call
  generalize cb.step call = next at moved after ⊢
  cases moved with
  | tripped _ now => exact ⟨now, rfl, rfl⟩
  | failed _ now => exact ⟨now, rfl, rfl⟩
  | refused opened | ignoredSuccess opened | ignoredFailure opened => exact absurd opened before
  | reopened => cases after
  | recovered => cases after
  | admitted closed | cleared closed | counted closed => cases closed.symm.trans after
  | probed half => cases half.symm.trans after

theorem step_openTimeout (cb : CircuitBreaker) (call : Call) :
    (cb.step call).openTimeout = cb.openTimeout := by
  have moved := cb.step_moves call
  generalize cb.step call = next at moved ⊢
  cases moved <;> rfl

theorem run_openTimeout (cb : CircuitBreaker) (calls : List Call) :
    (cb.run calls).openTimeout = cb.openTimeout := by
  induction calls generalizing cb with
  | nil => rfl
  | cons call calls ih => exact (ih (cb.step call)).trans (cb.step_openTimeout call)

theorem run_append (cb : CircuitBreaker) (first second : List Call) :
    cb.run (first ++ second) = (cb.run first).run second :=
  List.foldl_append

/-- A request before the timeout is refused and leaves the breaker as it is. -/
theorem allowRequest_of_opened (opened : cb.state = .opened) {now : Int}
    (early : now < cb.openedAt + nanos cb.openTimeout) (later : Int) :
    cb.allowRequest now later = (false, cb) := by
  simp only [allowRequest, allowRequestOpen, opened]
  exact if_neg (by omega)

/-- A request before the timeout finds the breaker as its entry into OPEN left it. -/
theorem allowRequest_after_entry (opened : cb.state = .opened) {between : List Call} {now : Int}
    (early : now < cb.openedAt + nanos cb.openTimeout)
    (earlier : ∀ reading ∈ between.flatMap Call.times, reading ≤ now) (later : Int) :
    (cb.run between).allowRequest now later = (false, cb) := by
  have waiting : cb.run between = cb := by
    apply run_of_opened opened
    intro reading member
    exact Int.lt_of_le_of_lt (earlier reading member) early
  rw [waiting]
  exact allowRequest_of_opened opened early later

theorem Ordered.le_last {before between : List Call} {entry : Call} {now later : Int}
    (ordered : Ordered (before ++ entry :: (between ++ [.allowRequest now later]))) :
    ∀ reading ∈ between.flatMap Call.times, reading ≤ now := by
  intro reading member
  rw [Ordered, List.flatMap_append, List.flatMap_cons, List.flatMap_append] at ordered
  have behind := (List.pairwise_append.mp (List.pairwise_append.mp ordered).2.1).2.1
  exact (List.pairwise_append.mp behind).2.2 reading member now (List.mem_cons_self ..)

end CoolDown

/--
The trip rule and the cool-down, for every sequence of calls at readings of the
clock that do not decrease.  In CLOSED the failure count is the number of
failures since the last reset and is below the threshold; CLOSED is left exactly
at the failure that completes the threshold; and after an entry into OPEN every
request before the open timeout is refused and leaves the breaker in OPEN.
-/
theorem trip_rule {failureThreshold : Int} (positive : 1 ≤ failureThreshold)
    (openTimeoutSec : Int) {calls : List Call} (ordered : Ordered calls) :
    (((new failureThreshold openTimeoutSec).run calls).state = .closed →
      ((new failureThreshold openTimeoutSec).run calls).failureCount =
          failures ((new failureThreshold openTimeoutSec).sinceReset [] calls) ∧
        ((new failureThreshold openTimeoutSec).run calls).failureCount < failureThreshold ∧
        ∀ call, (((new failureThreshold openTimeoutSec).run calls).step call).state ≠ .closed ↔
          call.isFailure = true ∧
            (failures ((new failureThreshold openTimeoutSec).sinceReset [] calls ++ [call]) : Int) =
              failureThreshold) ∧
    ∀ before entry between now later,
      calls = before ++ entry :: (between ++ [.allowRequest now later]) →
      ((new failureThreshold openTimeoutSec).run before).state ≠ .opened →
      ((new failureThreshold openTimeoutSec).run (before ++ [entry])).state = .opened →
      ∃ time, entry = .recordFailure time ∧ (now < time + nanos (openTimeoutSec * 1000) →
        (((new failureThreshold openTimeoutSec).run (before ++ entry :: between)).allowRequest
            now later).1 = false ∧
          ((new failureThreshold openTimeoutSec).run calls).state = .opened) := by
  have counted := (new_counted positive openTimeoutSec).run positive calls
  refine ⟨fun closed => ⟨counted.count closed, counted.below closed, counted.leaves_iff closed⟩, ?_⟩
  intro before entry between now later split notOpened opened
  subst split
  have entered : (new failureThreshold openTimeoutSec).run (before ++ [entry]) =
      ((new failureThreshold openTimeoutSec).run before).step entry := run_append ..
  obtain ⟨time, failure, openedAt⟩ := opened_by_failure notOpened (entered ▸ opened)
  refine ⟨time, failure, ?_⟩
  intro early
  have timeout := run_openTimeout (new failureThreshold openTimeoutSec) (before ++ [entry])
  rw [← entered] at openedAt
  have request := allowRequest_after_entry opened (by rw [openedAt, timeout]; exact early)
    ordered.le_last later
  rw [← run_append, ← List.append_cons] at request
  refine ⟨congrArg Prod.fst request, ?_⟩
  rw [← List.cons_append, ← List.append_assoc, run_append]
  change (((new failureThreshold openTimeoutSec).run (before ++ entry :: between)).allowRequest
    now later).2.state = .opened
  rw [request]
  exact opened

/-- Two failures at 1 s and 2 s open a breaker with threshold 2; a request at 3 s is refused. -/
theorem trip_rule_twoFailures :
    ((new 2 10).run [.recordFailure (nanos 1000)]).failureCount = 1 ∧
    ((new 2 10).run [.recordFailure (nanos 1000), .recordFailure (nanos 2000), .recordSuccess,
      .allowRequest (nanos 3000) (nanos 3000)]).state = .opened := by
  constructor
  · obtain ⟨count, _⟩ := (@trip_rule 2 (by decide) 10 [.recordFailure (nanos 1000)]
      (by simp [Ordered,
      Call.times])).1 (by decide)
    exact count
  · obtain ⟨time, same, refused⟩ := (@trip_rule 2 (by decide) 10
      [.recordFailure (nanos 1000), .recordFailure (nanos 2000), .recordSuccess,
        .allowRequest (nanos 3000) (nanos 3000)] (by unfold Ordered; decide)).2
      [.recordFailure (nanos 1000)] (.recordFailure (nanos 2000)) [.recordSuccess] (nanos 3000)
      (nanos 3000) rfl (by decide) (by decide)
    cases same
    exact (refused (by decide)).2

end RpcFramework.CircuitBreaker
