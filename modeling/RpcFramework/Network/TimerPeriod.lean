import Mathlib.Algebra.Order.Floor.Ring
import Mathlib.Tactic.Linarith
import RpcFramework.Network.TimerInvariant

/-!
# Periodic timers

A task with an interval of at least one millisecond never gets lost: it is in the heap,
or waits or runs in a pass.  As long as the clock is an interval away from the end of
`int64_t`, its due times are the registration time and a whole number of intervals, one
more with every run; after that a due time is negative and the task is due at once.  An
argument of `runEvery` between zero and a millisecond is truncated to zero milliseconds,
which means a one-shot timer.
-/

namespace RpcFramework.TimerQueue

open StepRun

/-- The due time of a task whose callback has been started `count` times, while no reading
of the clock is past the horizon. -/
def OnSchedule (start period horizon : Int) (count : Nat) (entry : Entry) : Prop :=
  match entry.place with
  | .stored => entry.task.nextRun = start + (count + 1) * period
  | .waiting now =>
      entry.task.nextRun = start + (count + 1) * period ∧ entry.task.nextRun ≤ now ∧ now ≤ horizon
  | .running => entry.task.nextRun = start + count * period ∧ entry.task.nextRun ≤ horizon

/-- A registration with an interval in milliseconds that has not been cancelled. -/
structure Periodic (serial : Nat) (start ms horizon : Int) (s : TimerQueue) : Prop where
  known : serial < s.registered
  unset : s.flags serial = false
  present : ∃ entry ∈ s.held, entry.task.serial = serial
  schedule : ∀ entry ∈ s.held, entry.task.serial = serial → entry.task.interval = ms ∧
    OnSchedule start (kNanosPerMs * ms) horizon (s.runsOf serial).length entry
  punctual : ∀ (k : Nat) time, (s.runsOf serial)[k]? = some time →
    start + (k + 1) * (kNanosPerMs * ms) ≤ time

/-- A registration time, an interval and a last reading of the clock whose sums `int64_t`
holds. -/
structure Span (start ms horizon : Int) : Prop where
  since : 0 ≤ start
  positive : 0 < ms
  fits : horizon + kNanosPerMs * ms < 2 ^ 63

section Steps

variable {s next : TimerQueue} {event : Event} {serial : Nat} {start ms horizon : Int}
  {gone came rest : List Entry}

theorem Periodic.present_step (periodic : Periodic serial start ms horizon s) (positive : 0 < ms)
    (taken : step s event = some next) : ∃ entry ∈ next.held, entry.task.serial = serial := by
  obtain ⟨entry, member, own⟩ := periodic.present
  cases step_fate taken member with
  | stays held => exact ⟨entry, held, own⟩
  | collected now stored kept =>
      rw [own] at kept
      exact ⟨_, kept periodic.unset, own⟩
  | started now waiting runs held => exact ⟨_, held, own⟩
  | finished running flags kept =>
      rw [(periodic.schedule entry member own).1] at kept
      exact ⟨_, kept positive, own⟩

/-- A task that is due at a whole number of intervals, and not past the horizon, is renewed
one interval later. -/
theorem Span.renewed_nextRun (span : Span start ms horizon) {task : TimerTask} {count : Nat}
    (interval : task.interval = ms) (due : task.nextRun = start + count * (kNanosPerMs * ms))
    (before : task.nextRun ≤ horizon) :
    task.renewed.nextRun = start + (count + 1) * (kNanosPerMs * ms) := by
  have period : 0 ≤ kNanosPerMs * ms := mul_nonneg (by decide) span.positive.le
  have since : 0 ≤ task.nextRun := by
    rw [due]
    exact add_nonneg span.since (mul_nonneg (Int.natCast_nonneg count) period)
  have fits : task.nextRun + kNanosPerMs * ms < 2 ^ 63 := by
    have end_ := span.fits
    omega
  rw [TimerTask.renewed, interval, plusMs_eq since span.positive.le fits, due]
  ring

theorem Periodic.schedule_step (periodic : Periodic serial start ms horizon s)
    (span : Span start ms horizon) (wf : WellFormed s) (taken : step s event = some next)
    (before : next.clock ≤ horizon) :
    ∀ entry ∈ next.held, entry.task.serial = serial → entry.task.interval = ms ∧
      OnSchedule start (kNanosPerMs * ms) horizon (next.runsOf serial).length entry := by
  intro entry member own
  cases wf.stems taken periodic.known member own with
  | stays held runs =>
      rw [runs]
      exact periodic.schedule entry held own
  | collected now task stored reached clock runs =>
      obtain ⟨interval, due⟩ := periodic.schedule _ stored own
      rw [runs]
      exact ⟨interval, due, reached, clock ▸ before⟩
  | started now task waiting runs =>
      obtain ⟨interval, due, reached, early⟩ := periodic.schedule _ waiting own
      rw [runs, List.length_append]
      exact ⟨interval, due.trans (by push_cast; rfl), reached.trans early⟩
  | renewed task running repeats runs =>
      obtain ⟨interval, due, early⟩ := periodic.schedule _ running own
      rw [runs]
      exact ⟨interval, span.renewed_nextRun interval due early⟩

/-- A run is recorded with the time of a pass that found the task due. -/
theorem Periodic.punctual_step (periodic : Periodic serial start ms horizon s)
    (move : Move s event next gone came) (before : s.held.Perm (gone ++ rest)) :
    ∀ (k : Nat) time, (next.runsOf serial)[k]? = some time →
      start + (k + 1) * (kNanosPerMs * ms) ≤ time := by
  intro k time run
  rcases move.runs_cases with same | ⟨now, task, rfl, more⟩
  · rw [runsOf_of_runs same] at run
    exact periodic.punctual k time run
  · rw [runsOf_of_started more] at run
    by_cases own : task.serial = serial
    · have waiting := before.mem_iff.mpr (List.mem_cons_self ..)
      obtain ⟨_, due, reached, _⟩ := periodic.schedule _ waiting own
      rw [if_pos own] at run
      rcases Nat.lt_trichotomy k (s.runsOf serial).length with old | rfl | beyond
      · rw [List.getElem?_append_left old] at run
        exact periodic.punctual k time run
      · rw [List.getElem?_concat_length] at run
        cases run
        exact due ▸ reached
      · rw [List.getElem?_eq_none] at run
        · cases run
        · rw [List.length_append]
          exact beyond
    · rw [if_neg own, List.append_nil] at run
      exact periodic.punctual k time run

theorem Periodic.step (periodic : Periodic serial start ms horizon s)
    (span : Span start ms horizon) (wf : WellFormed s) (calm : event ≠ .cancelTimer (idOf serial))
    (taken : step s event = some next) (before : next.clock ≤ horizon) :
    Periodic serial start ms horizon next := by
  obtain ⟨gone, came, move, rest, exchanged, _⟩ := step_moves taken
  exact ⟨periodic.known.trans_le (registered_le taken),
    move.unset_kept wf periodic.known periodic.unset calm,
    periodic.present_step span.positive taken,
    periodic.schedule_step span wf taken before, periodic.punctual_step move exchanged⟩

theorem Periodic.run {later : List Event} {final : TimerQueue}
    (periodic : Periodic serial start ms horizon s) (span : Span start ms horizon)
    (wf : WellFormed s) (calm : .cancelTimer (idOf serial) ∉ later)
    (reached : run? TimerQueue.step s later = some final) (before : final.clock ≤ horizon) :
    Periodic serial start ms horizon final := by
  induction later generalizing s with
  | nil =>
      cases reached
      exact periodic
  | cons event later ih =>
      obtain ⟨next, taken, tail⟩ := run?_cons_eq_some.mp reached
      have other : event ≠ .cancelTimer (idOf serial) := by
        rintro rfl
        exact calm (List.mem_cons_self ..)
      have others := fun member => calm (List.mem_cons_of_mem _ member)
      -- the clock has not passed the horizon before the end of the run
      have early : next.clock ≤ horizon := (clock_le_run tail).trans before
      exact ih (periodic.step span wf other taken early) (wf.step taken) others tail

/-- A new registration starts its schedule. -/
theorem periodic_addTimer (wf : WellFormed s) {now : Int} (span : Span now ms horizon)
    (before : now ≤ horizon) : Periodic s.registered now ms horizon (s.addTimer now ms ms) := by
  have none_yet : (s.addTimer now ms ms).runsOf s.registered = [] := wf.runsOf_new
  refine ⟨Nat.lt_succ_self _, Function.update_self .., ?_, ?_, ?_⟩
  · exact ⟨⟨.stored, s.newTask now ms ms⟩, List.mem_cons_self .., rfl⟩
  · intro entry member own
    rw [none_yet]
    rcases List.mem_cons.mp member with rfl | old
    · refine ⟨rfl, ?_⟩
      have end_ := span.fits
      have fits : now + kNanosPerMs * ms < 2 ^ 63 := by omega
      change plusMs now ms = now + ((0 : Nat) + 1) * (kNanosPerMs * ms)
      rw [plusMs_eq span.since span.positive.le fits, Nat.cast_zero, zero_add, one_mul]
    · exact absurd own (Nat.ne_of_lt (wf.known entry old).1)
  · intro k time run
    rw [none_yet] at run
    cases run

end Steps

/-! ## Which intervals make a periodic timer -/

/-- Below a millisecond, a thousandfold double is at most the last one before one. -/
theorem product_le_of_short {seconds : Binary64} (short : seconds.value < 1 / 1000) :
    seconds.value * 1000 ≤ 1 - 904 / 2 ^ 62 := by
  by_cases large : (2 : ℚ) ^ (-10 : ℤ) ≤ seconds.value
  · -- between 2^-10 and a millisecond the doubles are the multiples of 2^-62
    obtain ⟨m, multiple⟩ := seconds.exists_multiple large
    have spacing : (2 : ℚ) ^ ((-10 : ℤ) - 52) = 1 / 2 ^ 62 := by norm_num
    rw [spacing] at multiple
    rw [multiple] at short ⊢
    have bound : m ≤ 4611686018427387 := by
      have less : (m : ℚ) < 4611686018427388 := by linarith
      have less : m < 4611686018427388 := by exact_mod_cast less
      omega
    have bound : (m : ℚ) ≤ 4611686018427387 := by exact_mod_cast bound
    linarith
  · have power : (2 : ℚ) ^ (-10 : ℤ) = 1 / 1024 := by norm_num
    rw [power] at large
    linarith

/-- A shorter interval is truncated to nothing. -/
theorem toMs_eq_zero {seconds : Binary64} (nonneg : 0 ≤ seconds.value)
    (short : seconds.value < 1 / 1000) : toMs seconds = 0 := by
  have product : 0 ≤ seconds.value * 1000 := mul_nonneg nonneg (by norm_num)
  have rounded := Binary64.toNearest_mono product (product_le_of_short short)
  have last : Binary64.toNearest (1 - 904 / 2 ^ 62) < 1 := by decide +kernel
  exact Int.floor_eq_zero_iff.mpr ⟨Binary64.toNearest_nonneg product, rounded.trans_lt last⟩

theorem toMs_pos {seconds : Binary64} (long : 1 / 1000 ≤ seconds.value) : 0 < toMs seconds := by
  refine Int.floor_pos.mpr ?_
  rw [← Binary64.toNearest_one]
  exact Binary64.toNearest_mono (by norm_num) (by linarith)

theorem toMs_pos_iff (intervalSeconds : Binary64) :
    0 < toMs (effectiveInterval intervalSeconds) ↔
      intervalSeconds.value ≤ 0 ∨ 1 / 1000 ≤ intervalSeconds.value := by
  rw [effectiveInterval]
  split
  · next nonpositive => exact iff_of_true (toMs_pos (by norm_num [oneMs])) (.inl nonpositive)
  · next positive =>
      rw [or_iff_right positive]
      constructor
      · intro whole
        by_contra short
        rw [toMs_eq_zero (not_le.mp positive).le (not_le.mp short)] at whole
        exact lt_irrefl _ whole
      · exact toMs_pos

/-! ## The only task of a queue -/

/-- The pass that runs a task with no interval, as the only task of the queue. -/
def onlyPass : List Event := [.processTimers 0 [⟨1, 0, 0, 0⟩], .start, .finish false, .endPass]

theorem onlyPass_empties :
    (run? step (initial.addTimer 0 0 0) onlyPass).map (fun s => (s.held, s.clock)) =
      some ([], 0) := by
  decide +kernel

/-- A sum beyond the end of `int64_t` is negative. -/
theorem plusMs_neg {time ms : Int} (reading : time < 2 ^ 63) (small : kNanosPerMs * ms < 2 ^ 63)
    (nonneg : 0 ≤ ms) (beyond : 2 ^ 63 ≤ time + kNanosPerMs * ms) : plusMs time ms < 0 := by
  rw [kNanosPerMs] at small beyond
  rw [plusMs, kNanosPerMs, int64_eq (n := 1000000 * ms) (by omega) small, int64, Int.bmod_def]
  omega

/-- The only task of a queue is started by the pass that finds it due. -/
theorem exists_run_of_due {now ms : Int} (reads : initial.Reads now) (due : plusMs now ms ≤ now) :
    ∃ final, run? step (initial.addTimer now ms ms)
        [.processTimers now [initial.newTask now ms ms], .start] = some final ∧
      final.clock = now ∧ final.runsOf 0 = [now] := by
  let s := initial.addTimer now ms ms
  let task := initial.newTask now ms ms
  have drained : PriorityQueue.drain? TimerTask.nextRun now [task] [task] = some [] := by
    have top : PriorityQueue.IsTop TimerTask.nextRun task [task] ∧ task.nextRun ≤ now :=
      ⟨⟨List.mem_singleton_self _, List.forall_mem_singleton.mpr le_rfl⟩, due⟩
    rw [PriorityQueue.drain?, if_pos top, List.erase_cons_head]
    exact if_pos (List.forall_mem_nil _)
  have collected : step s (.processTimers now [task]) = some (s.collected now [task] []) := by
    have control : s.inControl = true ∧ s.Reads now := ⟨rfl, le_rfl, reads.2⟩
    have heap : s.timers = [task] := rfl
    rw [step, if_pos control, processTimers?, heap, drained]
  have stack : (s.collected now [task] []).passes = [⟨now, none, [task]⟩] := by
    rw [TimerQueue.collected, collect_expired]
    rfl
  have started : step (s.collected now [task] []) .start =
      some { s.collected now [task] [] with
        passes := [⟨now, some task, []⟩], runs := [(0, now)] } := by
    rw [step, start?, stack]
    rfl
  exact ⟨_, run?_cons_eq_some.mpr ⟨_, collected, run?_cons_eq_some.mpr ⟨_, started, rfl⟩⟩, rfl, rfl⟩

/--
For every argument of `runEvery` and every last reading of the clock, of an interval that
`int64_t` holds in nanoseconds: the following holds exactly when the argument is not
positive or at least a millisecond, and `int64_t` holds the last reading and the interval.
In every run, until `cancelTimer` is called with its id, the task is in the heap or in a pass
in flight, and its callback is run for the k-th time in a pass that is not earlier than the
registration and k intervals.
-/
theorem runEvery_persists_iff (intervalSeconds : Binary64) {horizon : Int} (since : 0 ≤ horizon)
    (small : kNanosPerMs * toMs (effectiveInterval intervalSeconds) < 2 ^ 63) :
    (∀ events s now next later final, run? step initial events = some s →
        step s (.runEvery intervalSeconds now) = some next → run? step next later = some final →
        final.clock ≤ horizon → .cancelTimer s.nextTimerId ∉ later →
        (∃ entry ∈ final.held, entry.task.serial = s.registered) ∧
          ∀ (k : Nat) time, (final.runsOf s.registered)[k]? = some time →
            now + (k + 1) * (kNanosPerMs * toMs (effectiveInterval intervalSeconds)) ≤ time) ↔
      (intervalSeconds.value ≤ 0 ∨ 1 / 1000 ≤ intervalSeconds.value) ∧
        horizon + kNanosPerMs * toMs (effectiveInterval intervalSeconds) < 2 ^ 63 := by
  rw [← toMs_pos_iff]
  have nonneg := toMs_nonneg (effectiveInterval_nonneg intervalSeconds)
  have converts : Converts (effectiveInterval intervalSeconds) := by
    rw [kNanosPerMs] at small
    rw [Converts]
    omega
  constructor
  · intro persists
    have positive : 0 < toMs (effectiveInterval intervalSeconds) := by
      refine nonneg.lt_of_ne fun none_left => ?_
      have added : step initial (.runEvery intervalSeconds 0) = some (initial.addTimer 0 0 0) := by
        rw [step, if_pos ⟨rfl, by decide, converts⟩, runEvery, ← none_left]
      obtain ⟨final, reached, empty⟩ := Option.map_eq_some_iff.mp onlyPass_empties
      obtain ⟨empty, clock⟩ := Prod.mk.inj empty
      have kept := persists [] initial 0 _ onlyPass final rfl added reached (clock ▸ since)
        (by simp [onlyPass])
      obtain ⟨entry, member, _⟩ := kept.1
      rw [empty] at member
      cases member
    refine ⟨positive, ?_⟩
    by_contra beyond
    -- the task that is added at the last reading is due at once
    obtain ⟨now, early, reads, late⟩ : ∃ now ≤ horizon, initial.Reads now ∧
        2 ^ 63 ≤ now + kNanosPerMs * toMs (effectiveInterval intervalSeconds) := by
      rw [kNanosPerMs] at beyond ⊢
      refine ⟨min horizon (2 ^ 63 - 1), min_le_left .., ⟨?_, ?_⟩, ?_⟩
      · change 0 ≤ _
        omega
      · omega
      · omega
    have added : step initial (.runEvery intervalSeconds now) =
        some (initial.runEvery intervalSeconds now) := if_pos ⟨rfl, reads, converts⟩
    have negative := plusMs_neg reads.2 small nonneg late
    obtain ⟨final, reached, clock, ran⟩ := exists_run_of_due reads (negative.le.trans reads.1)
    have kept := persists [] initial now _ _ final rfl added reached (clock ▸ early) (by simp)
    have first := kept.2 0 now (congrArg (fun runs : List Int => runs[0]?) ran)
    rw [kNanosPerMs] at first
    omega
  · rintro ⟨positive, fits⟩ events s now next later final reached added run before calm
    have taken := added
    have wf := (invariant_run reached).wellFormed
    rw [step, Option.ite_none_right_eq_some] at taken
    have clock : now ≤ horizon := by
      have rest := clock_le_run run
      rw [← Option.some_inj.mp taken.2] at rest
      exact rest.trans before
    have span : Span now (toMs (effectiveInterval intervalSeconds)) horizon :=
      ⟨(clock_le_run reached).trans taken.1.2.1.1, positive, fits⟩
    have periodic := periodic_addTimer wf span clock
    rw [← runEvery, Option.some_inj.mp taken.2] at periodic
    rw [wf.nextId] at calm
    have kept := periodic.run span (wf.step added) calm run before
    exact ⟨kept.present, kept.punctual⟩

/-- A timer of a second, for the first two hundred years of the clock. -/
theorem runEvery_persists_iff_oneSecond :
    kNanosPerMs * toMs (effectiveInterval 1) = 1000000000 ∧
      ∀ later final, run? step (initial.runEvery 1 0) later = some final →
        final.clock ≤ 2 ^ 62 → .cancelTimer 1 ∉ later →
        ∃ entry ∈ final.held, entry.task.serial = 0 := by
  refine ⟨by decide +kernel, fun later final reached before calm => ?_⟩
  have settled := (runEvery_persists_iff 1 (by decide : (0 : Int) ≤ 2 ^ 62) (by decide +kernel)).mpr
    ⟨.inr (by decide +kernel), by decide +kernel⟩
  exact (settled [] initial 0 _ later final rfl (if_pos (by decide +kernel)) reached before calm).1

theorem toNearest_halfMs : Binary64.toNearest (1152921504606847 / 2 ^ 61) =
    1152921504606847 / 2 ^ 61 := by decide +kernel

/-- The double that the literal 0.0005 stands for. -/
def halfMs : Binary64 := ⟨1152921504606847 / 2 ^ 61, toNearest_halfMs⟩

/-- A timer of half a millisecond is run once and is gone. -/
theorem short_interval_runs_once :
    (run? step initial (.runEvery halfMs 0 :: onlyPass)).map (fun s => (s.held, s.runsOf 0)) =
      some ([], [0]) := by
  decide +kernel

end RpcFramework.TimerQueue
